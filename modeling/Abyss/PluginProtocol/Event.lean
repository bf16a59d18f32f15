import Abyss.PluginProtocol.Message

/-! Agent event wire types shared by the broker and the plugin SDKs. -/
namespace Abyss.PluginProtocol
open Abyss.Text

/-- Timestamps as `chrono` writes them to JSON strings and reads them back. -/
structure Rfc3339 (Time : Type) where
  format : Time → Str
  parse : Str → Option Time
  parse_format : ∀ t, parse (format t) = some t

inductive ContentCategory where
  | tokenUsage | conversationText | toolContent | images
  deriving DecidableEq, Repr

inductive HttpHeaderValue where
  | text (value : Str)
  | base64 (value : Str)
  deriving DecidableEq, Repr

structure HttpHeader where
  name : Str
  value : HttpHeaderValue
  deriving DecidableEq, Repr

/-- Wire shape of a header: exactly one of `value` and `value_base64`. -/
structure HttpHeaderWire where
  name : Str
  value : Option Str
  valueBase64 : Option Str
  deriving DecidableEq, Repr

def HttpHeader.tryFrom (wire : HttpHeaderWire) : Option HttpHeader :=
  match wire.value, wire.valueBase64 with
  | some value, none => some ⟨wire.name, .text value⟩
  | none, some value => some ⟨wire.name, .base64 value⟩
  | _, _ => none

def HttpHeader.toWire (header : HttpHeader) : HttpHeaderWire :=
  match header.value with
  | .text value => ⟨header.name, some value, none⟩
  | .base64 value => ⟨header.name, none, some value⟩

inductive EventPurpose where
  | prewarm | sessionTitle | compaction
  deriving DecidableEq, Repr

structure DeviceContext where
  hostName : Str
  platform : Str
  osVersion : Option Str
  deriving DecidableEq, Repr

structure AgentContext where
  name : Str
  version : Option Str
  deriving DecidableEq, Repr

inductive LlmProvider where
  | openAi
  | anthropic
  | other (provider : Str)
  deriving DecidableEq, Repr

def LlmProvider.fromWireName (provider : Str) : LlmProvider :=
  if provider = "openai".toList then .openAi
  else if provider = "anthropic".toList then .anthropic
  else .other provider

def LlmProvider.wireName : LlmProvider → Str
  | .openAi => "openai".toList
  | .anthropic => "anthropic".toList
  | .other provider => provider

structure LlmContext where
  provider : LlmProvider
  model : Str
  deriving DecidableEq, Repr

inductive AgentEventSide where
  | request | response
  deriving DecidableEq, Repr

def AgentEventSide.wireName : AgentEventSide → Str
  | .request => "request".toList
  | .response => "response".toList

structure TokenUsage where
  inputTokens : UInt64
  outputTokens : UInt64
  cacheReadTokens : UInt64
  cacheWriteTokens : UInt64
  reasoningTokens : UInt64
  totalTokens : UInt64
  deriving DecidableEq, Repr

inductive ImageMediaType where
  | png | jpeg | webp | gif
  deriving DecidableEq, Repr

def ImageMediaType.wireName : ImageMediaType → Str
  | .png => "image/png".toList
  | .jpeg => "image/jpeg".toList
  | .webp => "image/webp".toList
  | .gif => "image/gif".toList

structure ImageAttachment where
  position : UInt32
  mediaType : ImageMediaType
  byteSize : UInt64
  sha256 : Str
  contentBase64 : Option Str
  deriving DecidableEq, Repr

inductive EntryRole where
  | system | developer | user | assistant | reasoning | toolCall | toolResult | unknown
  deriving DecidableEq, Repr

structure ConversationEntry where
  role : EntryRole
  text : Str
  callId : Option Str
  name : Option Str
  itemId : Option Str
  deriving DecidableEq, Repr

inductive ContentCompleteness where
  | complete | partially | unsupported
  deriving DecidableEq, Repr

structure Conversation where
  entries : List ConversationEntry
  completeness : ContentCompleteness
  deriving DecidableEq, Repr

/-- One event of the version 1 contract. -/
structure AgentEvent (Time : Type) where
  eventId : Str
  observedAt : Time
  device : DeviceContext
  agent : AgentContext
  sessionId : Str
  responseId : Option Str
  previousResponseId : Option Str
  subagentId : Option Str
  parentSubagentId : Option Str
  turnId : Option Str
  purpose : Option EventPurpose
  llm : LlmContext
  side : AgentEventSide
  omitted : List ContentCategory
  conversation : Option Conversation
  path : Str
  headers : List HttpHeader
  tokenUsage : TokenUsage
  attachments : List ImageAttachment
  deriving DecidableEq

section Names

/-- The `snake_case` names of the variants. -/
def ContentCategory.wireName : ContentCategory → Str
  | .tokenUsage => "token_usage".toList
  | .conversationText => "conversation_text".toList
  | .toolContent => "tool_content".toList
  | .images => "images".toList

def EventPurpose.wireName : EventPurpose → Str
  | .prewarm => "prewarm".toList
  | .sessionTitle => "session_title".toList
  | .compaction => "compaction".toList

def EntryRole.wireName : EntryRole → Str
  | .system => "system".toList
  | .developer => "developer".toList
  | .user => "user".toList
  | .assistant => "assistant".toList
  | .reasoning => "reasoning".toList
  | .toolCall => "tool_call".toList
  | .toolResult => "tool_result".toList
  | .unknown => "unknown".toList

def ContentCompleteness.wireName : ContentCompleteness → Str
  | .complete => "complete".toList
  | .partially => "partial".toList
  | .unsupported => "unsupported".toList

end Names

section Codecs
open JsonFields JsonField

def ContentCategory.codec := JsonCodec.variants [.tokenUsage, .conversationText, .toolContent, .images] wireName

def EventPurpose.codec := JsonCodec.variants [.prewarm, .sessionTitle, .compaction] wireName

def AgentEventSide.codec := JsonCodec.variants [.request, .response] wireName

def ImageMediaType.codec := JsonCodec.variants [.png, .jpeg, .webp, .gif] wireName

def EntryRole.codec :=
  JsonCodec.variants [.system, .developer, .user, .assistant, .reasoning, .toolCall, .toolResult, .unknown] wireName

def ContentCompleteness.codec := JsonCodec.variants [.complete, .partially, .unsupported] wireName

def LlmProvider.codec : JsonCodec LlmProvider := JsonCodec.string.convert wireName (fun s => some (fromWireName s))

def Rfc3339.codec {Time : Type} (time : Rfc3339 Time) : JsonCodec Time := JsonCodec.string.convert time.format time.parse

def HttpHeaderWire.codec : JsonCodec HttpHeaderWire :=
  (cons (required "name".toList .string) (cons (optional "value".toList .string)
    (cons (optional "value_base64".toList .string) nil))).struct
    (fun w => (w.name, w.value, w.valueBase64, ())) (fun p => ⟨p.1, p.2.1, p.2.2.1⟩)

def HttpHeader.codec : JsonCodec HttpHeader := HttpHeaderWire.codec.convert toWire tryFrom

def DeviceContext.codec : JsonCodec DeviceContext :=
  (cons (required "host_name".toList .string) (cons (required "platform".toList .string)
    (cons (optional "os_version".toList .string) nil))).struct
    (fun d => (d.hostName, d.platform, d.osVersion, ())) (fun p => ⟨p.1, p.2.1, p.2.2.1⟩)

def AgentContext.codec : JsonCodec AgentContext :=
  (cons (required "name".toList .string) (cons (optional "version".toList .string) nil)).struct
    (fun a => (a.name, a.version, ())) (fun p => ⟨p.1, p.2.1⟩)

def LlmContext.codec : JsonCodec LlmContext :=
  (cons (required "provider".toList LlmProvider.codec) (cons (required "model".toList .string) nil)).struct
    (fun l => (l.provider, l.model, ())) (fun p => ⟨p.1, p.2.1⟩)

def TokenUsage.codec : JsonCodec TokenUsage :=
  (cons (required "input_tokens".toList .u64) (cons (required "output_tokens".toList .u64)
    (cons (required "cache_read_tokens".toList .u64) (cons (required "cache_write_tokens".toList .u64)
      (cons (required "reasoning_tokens".toList .u64) (cons (required "total_tokens".toList .u64) nil)))))).struct
    (fun t => (t.inputTokens, t.outputTokens, t.cacheReadTokens, t.cacheWriteTokens, t.reasoningTokens, t.totalTokens, ()))
    (fun p => ⟨p.1, p.2.1, p.2.2.1, p.2.2.2.1, p.2.2.2.2.1, p.2.2.2.2.2.1⟩)

def ImageAttachment.codec : JsonCodec ImageAttachment :=
  (cons (required "position".toList .u32) (cons (required "media_type".toList ImageMediaType.codec)
    (cons (required "byte_size".toList .u64) (cons (required "sha256".toList .string)
      (cons (optional "content_base64".toList .string) nil))))).struct
    (fun a => (a.position, a.mediaType, a.byteSize, a.sha256, a.contentBase64, ()))
    (fun p => ⟨p.1, p.2.1, p.2.2.1, p.2.2.2.1, p.2.2.2.2.1⟩)

def ConversationEntry.codec : JsonCodec ConversationEntry :=
  (cons (required "role".toList EntryRole.codec) (cons (required "text".toList .string)
    (cons (optional "call_id".toList .string) (cons (optional "name".toList .string)
      (cons (optional "item_id".toList .string) nil))))).struct
    (fun e => (e.role, e.text, e.callId, e.name, e.itemId, ()))
    (fun p => ⟨p.1, p.2.1, p.2.2.1, p.2.2.2.1, p.2.2.2.2.1⟩)

def Conversation.codec : JsonCodec Conversation :=
  (cons (required "entries".toList ConversationEntry.codec.list)
    (cons (required "completeness".toList ContentCompleteness.codec) nil)).struct
    (fun c => (c.entries, c.completeness, ())) (fun p => ⟨p.1, p.2.1⟩)

def AgentEvent.fields {Time : Type} (time : Rfc3339 Time) :=
  cons (required "event_id".toList .string) <| cons (required "observed_at".toList time.codec) <|
  cons (required "device".toList DeviceContext.codec) <| cons (required "agent".toList AgentContext.codec) <|
  cons (required "session_id".toList .string) <| cons (optional "response_id".toList .string) <|
  cons (optional "previous_response_id".toList .string) <| cons (optional "subagent_id".toList .string) <|
  cons (optional "parent_subagent_id".toList .string) <| cons (optional "turn_id".toList .string) <|
  cons (optional "purpose".toList EventPurpose.codec) <| cons (required "llm".toList LlmContext.codec) <|
  cons (required "side".toList AgentEventSide.codec) <| cons (listed "omitted".toList ContentCategory.codec) <|
  cons (optional "conversation".toList Conversation.codec) <| cons (required "path".toList .string) <|
  cons (listed "headers".toList HttpHeader.codec) <| cons (required "token_usage".toList TokenUsage.codec) <|
  cons (listed "attachments".toList ImageAttachment.codec) nil

def AgentEvent.codec {Time : Type} (time : Rfc3339 Time) : JsonCodec (AgentEvent Time) :=
  (AgentEvent.fields time).struct
    (fun e => (e.eventId, e.observedAt, e.device, e.agent, e.sessionId, e.responseId, e.previousResponseId, e.subagentId,
      e.parentSubagentId, e.turnId, e.purpose, e.llm, e.side, e.omitted, e.conversation, e.path, e.headers, e.tokenUsage,
      e.attachments, ()))
    (fun (eventId, observedAt, device, agent, sessionId, responseId, previousResponseId, subagentId, parentSubagentId,
      turnId, purpose, llm, side, omitted, conversation, path, headers, tokenUsage, attachments, _) =>
      { eventId, observedAt, device, agent, sessionId, responseId, previousResponseId, subagentId, parentSubagentId,
        turnId, purpose, llm, side, omitted, conversation, path, headers, tokenUsage, attachments })

end Codecs
end Abyss.PluginProtocol
