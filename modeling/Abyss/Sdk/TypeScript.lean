import Abyss.Sdk.Exposed

/-! The TypeScript SDK: `decodeAgentEvent` and its helpers. They check the parsed object, which is then the event. -/
namespace Abyss.Sdk.TypeScript
open Abyss.Text Abyss.PluginProtocol

section Helpers

inductive TypeError where
  | message (text : String)
  | unknownFields (label : String) (fields : List Str)
  deriving DecidableEq, Repr

abbrev TsResult := Except TypeError

/-- The safe integer that `JSON.parse` makes of a number, where it is one; `double` is the conversion of the literals
that are no 64-bit integers. -/
def safeInteger (double : Str → Option Int) : JsonNumber → Option Int
  | .posInt n => if n.toNat < 2 ^ 53 then some n.toNat else none
  | .negInt n => if n.val + 1 < 2 ^ 53 then some (-(n.val + 1 : Int)) else none
  | .float literal => double literal

def record (value : Option Json) (label : String) : TsResult Members :=
  match value with
  | some (.obj members) => .ok members
  | _ => .error (.message (label ++ " must be an object"))

def stringField (value : Members) (field : String) : TsResult Str :=
  match get value field with
  | some (.str s) => .ok s
  | _ => .error (.message (field ++ " must be a string"))

def optionalStringField (value : Members) (field : String) : TsResult Unit :=
  if get value field = none then .ok () else (fun _ => ()) <$> stringField value field

def nonNegativeIntegerField (double : Str → Option Int) (value : Members) (field : String) : TsResult Nat :=
  match get value field with
  | some (.num n) =>
    match safeInteger double n with
    | some i => if i < 0 then .error (.message (field ++ " must be a non-negative safe integer")) else .ok i.toNat
    | none => .error (.message (field ++ " must be a non-negative safe integer"))
  | _ => .error (.message (field ++ " must be a non-negative safe integer"))

def choiceField (value : Members) (field : String) (choices : List String) : TsResult Unit := do
  let fieldValue ← stringField value field
  if fieldValue ∈ choices.map String.toList then .ok ()
  else .error (.message (field ++ " must be one of: " ++ ", ".intercalate choices))

def optionalArray (value : Members) (field : String) : TsResult (List Json) :=
  match get value field with
  | none => .ok []
  | some (.arr items) => .ok items
  | _ => .error (.message (field ++ " must be an array"))

def rejectUnknown (value : Members) (allowed : List String) (label : String) : TsResult Unit :=
  if unknownFields value allowed = [] then .ok () else .error (.unknownFields label (unknownFields value allowed))

/-- `forEach` from an index on. -/
def forEach (check : Json → Nat → TsResult Unit) : List Json → Nat → TsResult Unit
  | [], _ => .ok ()
  | value :: values, index => do
    check value index
    forEach check values (index + 1)

end Helpers

section Nested

def contentCategory (category : Json) (index : Nat) : TsResult Unit :=
  match category with
  | .str name =>
    if name ∈ ["token_usage", "conversation_text", "tool_content", "images"].map String.toList then .ok ()
    else .error (.message ("omitted[" ++ toString index ++ "] is not a content category"))
  | _ => .error (.message ("omitted[" ++ toString index ++ "] is not a content category"))

def decodeEntry (value : Json) (_ : Nat) : TsResult Unit := do
  let entry ← record (some value) "conversation.entries[]"
  rejectUnknown entry ["role", "text", "call_id", "name", "item_id"] "conversation entry"
  choiceField entry "role"
    ["system", "developer", "user", "assistant", "reasoning", "tool_call", "tool_result", "unknown"]
  let _ ← stringField entry "text"
  optionalStringField entry "call_id"
  optionalStringField entry "name"
  optionalStringField entry "item_id"

def conversationEntries (conversation : Members) : TsResult (List Json) :=
  match get conversation "entries" with
  | some (.arr entries) => .ok entries
  | _ => .error (.message "conversation.entries must be an array")

def decodeConversation (value : Option Json) : TsResult Unit := do
  let conversation ← record value "AgentEvent.conversation"
  rejectUnknown conversation ["entries", "completeness"] "conversation"
  forEach decodeEntry (← conversationEntries conversation) 0
  choiceField conversation "completeness" ["complete", "partial", "unsupported"]

def decodeHeader (value : Json) (_ : Nat) : TsResult Unit := do
  let header ← record (some value) "AgentEvent.headers[]"
  rejectUnknown header ["name", "value", "value_base64"] "header"
  let _ ← stringField header "name"
  optionalStringField header "value"
  optionalStringField header "value_base64"
  if (get header "value").isNone = (get header "value_base64").isNone then
    .error (.message "a header carries exactly one of value and value_base64")
  else .ok ()

def decodeDevice (value : Option Json) : TsResult Unit := do
  let device ← record value "AgentEvent.device"
  rejectUnknown device ["host_name", "platform", "os_version"] "AgentEvent.device"
  let _ ← stringField device "host_name"
  let _ ← stringField device "platform"
  optionalStringField device "os_version"

def decodeAgent (value : Option Json) : TsResult Unit := do
  let agent ← record value "AgentEvent.agent"
  rejectUnknown agent ["name", "version"] "AgentEvent.agent"
  let _ ← stringField agent "name"
  optionalStringField agent "version"

def decodeLlm (value : Option Json) : TsResult Unit := do
  let llm ← record value "AgentEvent.llm"
  rejectUnknown llm ["provider", "model"] "AgentEvent.llm"
  let _ ← stringField llm "provider"
  let _ ← stringField llm "model"
  .ok ()

def usageFields : List String :=
  ["input_tokens", "output_tokens", "cache_read_tokens", "cache_write_tokens", "reasoning_tokens", "total_tokens"]

def decodeTokenUsage (double : Str → Option Int) (value : Option Json) : TsResult Unit := do
  let usage ← record value "AgentEvent.token_usage"
  rejectUnknown usage usageFields "AgentEvent.token_usage"
  usageFields.forM fun field => do
    let _ ← nonNegativeIntegerField double usage field

def decodeAttachment (double : Str → Option Int) (value : Json) (_ : Nat) : TsResult Unit := do
  let attachment ← record (some value) "AgentEvent.attachments[]"
  rejectUnknown attachment ["position", "media_type", "byte_size", "sha256", "content_base64"] "attachment"
  let _ ← nonNegativeIntegerField double attachment "position"
  let mediaType ← stringField attachment "media_type"
  if mediaType ∉ ["image/png", "image/jpeg", "image/webp", "image/gif"].map String.toList then
    .error (.message ("unsupported AgentEvent attachment media type " ++ String.ofList mediaType))
  else do
    let _ ← nonNegativeIntegerField double attachment "byte_size"
    let _ ← stringField attachment "sha256"
    optionalStringField attachment "content_base64"

end Nested

section Event

def eventFields : List String :=
  ["event_id", "observed_at", "device", "agent", "session_id", "response_id", "previous_response_id", "subagent_id",
    "parent_subagent_id", "turn_id", "purpose", "llm", "side", "omitted", "conversation", "path", "headers",
    "token_usage", "attachments"]

def checkPurpose (event : Members) : TsResult Unit :=
  if get event "purpose" = none then .ok () else choiceField event "purpose" ["session_title", "compaction", "prewarm"]

def checkSide (event : Members) : TsResult Unit :=
  match get event "side" with
  | some (.str side) =>
    if side = "request".toList ∨ side = "response".toList then .ok ()
    else .error (.message "AgentEvent.side must be request or response")
  | _ => .error (.message "AgentEvent.side must be request or response")

def checkConversation (event : Members) : TsResult Unit :=
  if get event "conversation" = none then .ok () else decodeConversation (get event "conversation")

/-- `decodeAgentEvent`, with what `Date.parse` reads as a time. -/
def decodeAgentEvent (double : Str → Option Int) (dateParse : Str → Bool) (value : Json) : TsResult Members := do
  let event ← record (some value) "AgentEvent"
  rejectUnknown event eventFields "AgentEvent"
  let _ ← stringField event "event_id"
  let observedAt ← stringField event "observed_at"
  if ¬ dateParse observedAt then .error (.message "AgentEvent.observed_at must be an RFC 3339 timestamp")
  else do
    decodeDevice (get event "device")
    decodeAgent (get event "agent")
    let _ ← stringField event "session_id"
    optionalStringField event "response_id"
    optionalStringField event "previous_response_id"
    optionalStringField event "subagent_id"
    optionalStringField event "parent_subagent_id"
    optionalStringField event "turn_id"
    checkPurpose event
    decodeLlm (get event "llm")
    checkSide event
    forEach contentCategory (← optionalArray event "omitted") 0
    checkConversation event
    let _ ← stringField event "path"
    forEach decodeHeader (← optionalArray event "headers") 0
    decodeTokenUsage double (get event "token_usage")
    forEach (decodeAttachment double) (← optionalArray event "attachments") 0
    .ok event

end Event

/-! What a program reads from the accepted object at the types that the SDK declares for it. -/
section View

def text : Option Json → Str
  | some (.str s) => s
  | _ => []

def optionalText : Option Json → Option Str
  | some (.str s) => some s
  | _ => none

def natural (double : Str → Option Int) : Option Json → Nat
  | some (.num n) => ((safeInteger double n).getD 0).toNat
  | _ => 0

/-- An absent list is empty. -/
def elements : Option Json → List Json
  | some (.arr items) => items
  | _ => []

def members : Option Json → Members
  | some (.obj members) => members
  | _ => []

def viewHeader (value : Json) : ExposedHeader :=
  let header := members (some value)
  ⟨text (get header "name"), optionalText (get header "value"), optionalText (get header "value_base64")⟩

def viewEntry (value : Json) : ExposedEntry :=
  let entry := members (some value)
  ⟨text (get entry "role"), text (get entry "text"), optionalText (get entry "call_id"), optionalText (get entry "name"),
    optionalText (get entry "item_id")⟩

def viewConversation (value : Json) : ExposedConversation :=
  let conversation := members (some value)
  ⟨(elements (get conversation "entries")).map viewEntry, text (get conversation "completeness")⟩

def viewDevice (value : Option Json) : DeviceContext :=
  let device := members value
  ⟨text (get device "host_name"), text (get device "platform"), optionalText (get device "os_version")⟩

def viewAgent (value : Option Json) : AgentContext :=
  let agent := members value
  ⟨text (get agent "name"), optionalText (get agent "version")⟩

def viewLlm (value : Option Json) : ExposedLlm :=
  let llm := members value
  ⟨text (get llm "provider"), text (get llm "model")⟩

def viewTokenUsage (double : Str → Option Int) (value : Option Json) : ExposedUsage :=
  let usage := members value
  ⟨natural double (get usage "input_tokens"), natural double (get usage "output_tokens"),
    natural double (get usage "cache_read_tokens"), natural double (get usage "cache_write_tokens"),
    natural double (get usage "reasoning_tokens"), natural double (get usage "total_tokens")⟩

def viewAttachment (double : Str → Option Int) (value : Json) : ExposedAttachment :=
  let attachment := members (some value)
  ⟨natural double (get attachment "position"), text (get attachment "media_type"),
    natural double (get attachment "byte_size"), text (get attachment "sha256"),
    optionalText (get attachment "content_base64")⟩

def viewEvent (double : Str → Option Int) (event : Members) : ExposedEvent Str where
  eventId := text (get event "event_id")
  observedAt := text (get event "observed_at")
  device := viewDevice (get event "device")
  agent := viewAgent (get event "agent")
  sessionId := text (get event "session_id")
  responseId := optionalText (get event "response_id")
  previousResponseId := optionalText (get event "previous_response_id")
  subagentId := optionalText (get event "subagent_id")
  parentSubagentId := optionalText (get event "parent_subagent_id")
  turnId := optionalText (get event "turn_id")
  purpose := optionalText (get event "purpose")
  llm := viewLlm (get event "llm")
  side := text (get event "side")
  omitted := (elements (get event "omitted")).map (fun category => text (some category))
  conversation := (get event "conversation").map viewConversation
  path := text (get event "path")
  headers := (elements (get event "headers")).map viewHeader
  tokenUsage := viewTokenUsage double (get event "token_usage")
  attachments := (elements (get event "attachments")).map (viewAttachment double)

end View
end Abyss.Sdk.TypeScript
