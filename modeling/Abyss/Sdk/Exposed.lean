import Abyss.PluginProtocol.RoundTrip

/-! What a plugin SDK shows of an event, in the terms that the three languages share: enumerations are their names on the
wire, and an absent list is empty. -/
namespace Abyss.Sdk
open Abyss.Text Abyss.PluginProtocol

section Shapes

structure ExposedHeader where
  name : Str
  value : Option Str
  valueBase64 : Option Str
  deriving DecidableEq, Repr

structure ExposedLlm where
  provider : Str
  model : Str
  deriving DecidableEq, Repr

structure ExposedUsage where
  inputTokens : Nat
  outputTokens : Nat
  cacheReadTokens : Nat
  cacheWriteTokens : Nat
  reasoningTokens : Nat
  totalTokens : Nat
  deriving DecidableEq, Repr

structure ExposedAttachment where
  position : Nat
  mediaType : Str
  byteSize : Nat
  sha256 : Str
  contentBase64 : Option Str
  deriving DecidableEq, Repr

structure ExposedEntry where
  role : Str
  text : Str
  callId : Option Str
  name : Option Str
  itemId : Option Str
  deriving DecidableEq, Repr

structure ExposedConversation where
  entries : List ExposedEntry
  completeness : Str
  deriving DecidableEq, Repr

structure ExposedEvent (Time : Type) where
  eventId : Str
  observedAt : Time
  device : DeviceContext
  agent : AgentContext
  sessionId : Str
  responseId : Option Str
  previousResponseId : Option Str
  subagentId : Option Str
  parentSubagentId : Option Str
  turnId : Option Str
  purpose : Option Str
  llm : ExposedLlm
  side : Str
  omitted : List Str
  conversation : Option ExposedConversation
  path : Str
  headers : List ExposedHeader
  tokenUsage : ExposedUsage
  attachments : List ExposedAttachment
  deriving DecidableEq, Repr

end Shapes

section Expose

def exposeHeader (header : HttpHeader) : ExposedHeader := ⟨header.name, header.toWire.value, header.toWire.valueBase64⟩

def exposeLlm (llm : LlmContext) : ExposedLlm := ⟨llm.provider.wireName, llm.model⟩

def exposeUsage (usage : TokenUsage) : ExposedUsage :=
  ⟨usage.inputTokens.toNat, usage.outputTokens.toNat, usage.cacheReadTokens.toNat, usage.cacheWriteTokens.toNat,
    usage.reasoningTokens.toNat, usage.totalTokens.toNat⟩

def exposeAttachment (attachment : ImageAttachment) : ExposedAttachment :=
  ⟨attachment.position.toNat, attachment.mediaType.wireName, attachment.byteSize.toNat, attachment.sha256,
    attachment.contentBase64⟩

def exposeEntry (entry : ConversationEntry) : ExposedEntry :=
  ⟨entry.role.wireName, entry.text, entry.callId, entry.name, entry.itemId⟩

def exposeConversation (conversation : Conversation) : ExposedConversation :=
  ⟨conversation.entries.map exposeEntry, conversation.completeness.wireName⟩

/-- What the Rust SDK shows, with `at'` for the timestamp. -/
def expose {Time Time' : Type} (at' : Time → Time') (event : AgentEvent Time) : ExposedEvent Time' where
  eventId := event.eventId
  observedAt := at' event.observedAt
  device := event.device
  agent := event.agent
  sessionId := event.sessionId
  responseId := event.responseId
  previousResponseId := event.previousResponseId
  subagentId := event.subagentId
  parentSubagentId := event.parentSubagentId
  turnId := event.turnId
  purpose := event.purpose.map EventPurpose.wireName
  llm := exposeLlm event.llm
  side := event.side.wireName
  omitted := event.omitted.map ContentCategory.wireName
  conversation := event.conversation.map exposeConversation
  path := event.path
  headers := event.headers.map exposeHeader
  tokenUsage := exposeUsage event.tokenUsage
  attachments := event.attachments.map exposeAttachment

end Expose

section Members

/-- The members of a JSON object in document order. -/
abbrev Members := List (Str × Json)

/-- The member of a Python `dict` or of a JavaScript object: the last one of its name. -/
def get (value : Members) (field : String) : Option Json := (lookup value field.toList).getLast?

/-- The keys that a decoder does not know. -/
def unknownFields (value : Members) (allowed : List String) : List Str :=
  (value.map Prod.fst).filter (fun key => key ∉ allowed.map String.toList)

/-- A number literal with neither a fraction nor an exponent. -/
def isIntegerLiteral : Str → Bool
  | '-' :: digits => digits.all Char.isDigit
  | digits => digits.all Char.isDigit

end Members
end Abyss.Sdk
