import Abyss.AgentHook.TokenUsage

/-! The events of one parsed exchange. -/
namespace Abyss.AgentHook
open Abyss.Text Abyss.PluginProtocol

section Values

/-- Independent content retention controls. -/
structure HarnessUsageContentConfig where
  tokenUsage : Bool
  conversationText : Bool
  toolCalls : Bool
  images : Bool

/-- The policy that keeps everything. -/
def HarnessUsageContentConfig.default : HarnessUsageContentConfig := ⟨true, true, true, true⟩

structure DeviceIdentity where
  hostname : Option Str
  platform : Option Str
  osVersion : Option Str

/-- One validated image of a provider request. -/
structure ParsedImageAttachment where
  mediaType : ImageMediaType
  bytes : List UInt8
  sha256 : Str
  deriving DecidableEq

structure NormalizedImageAttachment where
  position : Nat
  mediaType : Str
  byteSize : Nat
  sha256 : Str
  contentBase64 : Option Str
  deriving DecidableEq

structure LlmPayload where
  provider : Str
  model : Str
  deriving DecidableEq

structure NormalizedUsageEvent where
  eventId : Str
  observedAt : Str
  device : DeviceContext
  agent : AgentContext
  sessionId : Str
  responseId : Option Str
  previousResponseId : Option Str
  subagentId : Option Str
  parentSubagentId : Option Str
  turnId : Option Str
  purpose : Option EventPurpose
  llm : LlmPayload
  side : AgentEventSide
  omitted : List ContentCategory
  conversation : Option Conversation
  path : Str
  headers : List HttpHeader
  tokenUsage : TokenUsage
  attachments : List NormalizedImageAttachment
  deriving DecidableEq

structure ParsedEventParts where
  harnessName : Str
  harnessVersion : Option Str
  llmProvider : Str
  llmModel : Option Str
  sessionId : Str
  responseIdentity : Str
  requestConversation : Conversation
  responseConversation : Conversation
  requestImages : List ParsedImageAttachment
  usage : TokenUsage
  allowRequestWithoutResponse : Bool

/-- Where one exchange sits, as the traffic declares it. -/
structure Declared where
  purpose : Option EventPurpose
  responseId : Option Str
  previousResponseId : Option Str
  subagentId : Option Str
  parentSubagentId : Option Str
  turnId : Option Str

/-- The request path and the captured headers of both sides. -/
structure ExchangePassthrough where
  path : Str
  request : List HttpHeader
  response : List HttpHeader

structure EventSide where
  side : AgentEventSide
  conversation : Conversation
  tokenUsage : TokenUsage
  attachments : List ParsedImageAttachment
  path : Str
  headers : List HttpHeader
  content : HarnessUsageContentConfig
  declared : Declared

/-- What the normalizer takes from its platform: digests, base64, time and the platform's name. -/
structure Platform (Time : Type) where
  digest : Digest
  base64 : List UInt8 → Str
  microsecondLater : Time → Option Time
  format : Time → Str
  os : Str

end Values

section Timestamps
variable {Time : Type} [LinearOrder Time]

/-- Strictly increasing collector timestamps of one exchange. -/
structure EventTimestampSequence (Time : Type) where
  previous : Option Time
  reads : Nat

/-- The next timestamp; `clock` gives the successive readings of the wall clock. -/
def EventTimestampSequence.next (platform : Platform Time) (clock : Nat → Time) (s : EventTimestampSequence Time) :
    Time × EventTimestampSequence Time :=
  let now := clock s.reads
  let observedAt := match s.previous with
    | none => now
    | some previous => max now ((platform.microsecondLater previous).getD previous)
  (observedAt, ⟨some observedAt, s.reads + 1⟩)

end Timestamps

section Policy

def retainedTokenUsage (usage : TokenUsage) (content : HarnessUsageContentConfig) : TokenUsage :=
  if content.tokenUsage then usage else .zero

/-- Whether the policy keeps the text of entries in this role. -/
def kept (content : HarnessUsageContentConfig) (role : EntryRole) : Bool :=
  if role = .toolCall ∨ role = .toolResult then content.toolCalls else content.conversationText

def retainedEntry (content : HarnessUsageContentConfig) (entry : ConversationEntry) : ConversationEntry :=
  if kept content entry.role then entry else { entry with text := [] }

/-- Apply content policy to one side's conversation: an omitted category only empties the text. -/
def retainedConversation (conversation : Conversation) (content : HarnessUsageContentConfig) : Conversation :=
  { conversation with entries := conversation.entries.map (retainedEntry content) }

/-- Content categories the policy leaves out, in a fixed order. -/
def omittedCategories (content : HarnessUsageContentConfig) : List ContentCategory :=
  [(content.tokenUsage, ContentCategory.tokenUsage), (content.conversationText, .conversationText),
    (content.toolCalls, .toolContent), (content.images, .images)].filterMap
    (fun (kept, category) => if kept then none else some category)

def normalizedImageAttachments {Time : Type} (platform : Platform Time) (images : List ParsedImageAttachment)
    (content : HarnessUsageContentConfig) : List NormalizedImageAttachment :=
  if content.images then
    images.zipIdx.map (fun (image, position) =>
      ⟨position, image.mediaType.wireName, image.bytes.length, image.sha256, some (platform.base64 image.bytes)⟩)
  else []

end Policy

section Identity

/-- The event id of deterministic identity fields. -/
def stableEventId (digest : Digest) (parts : List Str) : Str :=
  lit "evt_" ++ (digest.sha256Hex (parts.flatMap (· ++ [Char.ofNat 0]))).take 32

/-- The content part of an event id, from the conversation before content policy. -/
def eventContentHash (digest : Digest) (conversation : Conversation) (attachments : List ParsedImageAttachment) : Str :=
  let nullable (value : Option Str) : Json := (value.map Json.str).getD .null
  let entries := conversation.entries.map (fun entry =>
    Json.arr [.str entry.role.wireName, .str entry.text, nullable entry.callId, nullable entry.name, nullable entry.itemId])
  let entriesHash := digest.sha256Hex (Json.arr entries).text
  if attachments = [] then entriesHash
  else digest.sha256Hex (attachments.foldl (fun identity attachment => identity ++ Char.ofNat 0 :: attachment.sha256)
    entriesHash)

end Identity

section Events
variable {Time : Type} [LinearOrder Time] (platform : Platform Time) (device : DeviceIdentity) (parts : ParsedEventParts)

def usageEvent (side : EventSide) (observedAt : Time) : NormalizedUsageEvent where
  eventId := stableEventId platform.digest
    [device.hostname.getD [], parts.harnessName, parts.sessionId, side.side.wireName, parts.responseIdentity,
      eventContentHash platform.digest side.conversation side.attachments]
  observedAt := platform.format observedAt
  device := ⟨device.hostname.getD (lit "unknown"), device.platform.getD platform.os, device.osVersion⟩
  agent := ⟨parts.harnessName, parts.harnessVersion⟩
  sessionId := parts.sessionId
  responseId := side.declared.responseId
  previousResponseId := side.declared.previousResponseId
  subagentId := side.declared.subagentId
  parentSubagentId := side.declared.parentSubagentId
  turnId := side.declared.turnId
  purpose := side.declared.purpose
  llm := ⟨parts.llmProvider, parts.llmModel.getD (lit "unknown")⟩
  side := side.side
  omitted := omittedCategories side.content
  conversation := some (retainedConversation side.conversation side.content)
  path := side.path
  headers := side.headers
  tokenUsage := side.tokenUsage
  attachments := normalizedImageAttachments platform side.attachments side.content

/-- One event per side, with timestamps taken in order. -/
def usageEvents (clock : Nat → Time) (timestamps : EventTimestampSequence Time) : List EventSide → List NormalizedUsageEvent
  | [] => []
  | side :: sides =>
    let (observedAt, timestamps) := timestamps.next platform clock
    usageEvent platform device parts side observedAt :: usageEvents clock timestamps sides

/-- The request conversation has an entry or the request has an image, before content policy. -/
def ParsedEventParts.requestHasContent : Bool := !parts.requestConversation.entries.isEmpty || !parts.requestImages.isEmpty

def ParsedEventParts.responseHasContent : Bool := !parts.responseConversation.entries.isEmpty

/-- Whether an exchange emits at all. -/
def ParsedEventParts.emits : Bool :=
  parts.responseHasContent || !parts.usage.isEmpty || (parts.allowRequestWithoutResponse && parts.requestHasContent)

/-- Whether a side has an entry, an image or usage. -/
def ParsedEventParts.carries : AgentEventSide → Bool
  | .request => parts.requestHasContent || !parts.usage.requestSide.isEmpty
  | .response => parts.responseHasContent || !parts.usage.responseSide.isEmpty

def ParsedEventParts.eventSide (content : HarnessUsageContentConfig) (declared : Declared) (passthrough : ExchangePassthrough) :
    AgentEventSide → EventSide
  | .request => ⟨.request, parts.requestConversation, retainedTokenUsage parts.usage.requestSide content,
      parts.requestImages, passthrough.path, passthrough.request, content, declared⟩
  | .response => ⟨.response, parts.responseConversation, retainedTokenUsage parts.usage.responseSide content,
      [], passthrough.path, passthrough.response, content, declared⟩

/-- The sides that are emitted, the request first. -/
def ParsedEventParts.emittedSides : List AgentEventSide :=
  if parts.emits then [AgentEventSide.request, .response].filter parts.carries else []

def eventsForParsedExchange (clock : Nat → Time) (content : HarnessUsageContentConfig) (declared : Declared)
    (passthrough : ExchangePassthrough) : List NormalizedUsageEvent :=
  usageEvents platform device parts clock ⟨none, 0⟩
    (parts.emittedSides.map (parts.eventSide content declared passthrough))

end Events
end Abyss.AgentHook
