import Abyss.Sdk.Exposed

/-! The Python SDK: `AgentEvent.from_dict` and its helpers. -/
namespace Abyss.Sdk.Python
open Abyss.Text Abyss.PluginProtocol

section Helpers

inductive PyError where
  | typeError (message : String)
  | valueError (message : String)
  | unknownFields (label : String) (fields : List Str)
  deriving DecidableEq, Repr

abbrev PyResult := Except PyError

/-- `json.loads` reads such a literal as an `int` of any size. -/
def integerLiteral : Str → Int
  | '-' :: digits => -(decimal digits : Int)
  | digits => decimal digits

/-- The `int` of a number, where it is one. -/
def asInt : JsonNumber → Option Int
  | .posInt n => some n.toNat
  | .negInt n => some (-(n.val + 1 : Int))
  | .float literal => if isIntegerLiteral literal then some (integerLiteral literal) else none

def mapping (value : Option Json) (label : String) : PyResult Members :=
  match value with
  | some (.obj members) => .ok members
  | _ => .error (.typeError (label ++ " must be an object"))

def list (value : Option Json) (label : String) : PyResult (List Json) :=
  match value with
  | some (.arr items) => .ok items
  | _ => .error (.typeError (label ++ " must be an array"))

def string (value : Members) (field : String) : PyResult Str :=
  match get value field with
  | some (.str s) => .ok s
  | _ => .error (.typeError (field ++ " must be a string"))

def optionalString (value : Members) (field : String) : PyResult (Option Str) :=
  match get value field with
  | none | some .null => .ok none
  | some (.str s) => .ok (some s)
  | _ => .error (.typeError (field ++ " must be a string when present"))

def integer (value : Members) (field : String) : PyResult Int :=
  match get value field with
  | some (.num n) =>
    match asInt n with
    | some i => .ok i
    | none => .error (.typeError (field ++ " must be an integer"))
  | _ => .error (.typeError (field ++ " must be an integer"))

def rejectUnknown (value : Members) (allowed : List String) (label : String) : PyResult Unit :=
  if unknownFields value allowed = [] then .ok () else .error (.unknownFields label (unknownFields value allowed))

/-- A check of a name against the names that are allowed. -/
def oneOf (name : Str) (names : List String) (message : String) : PyResult Unit :=
  if name ∈ names.map String.toList then .ok () else .error (.valueError message)

/-- A counter of `_token_usage`. -/
def counter (value : Members) (field : String) : PyResult Nat := do
  let counter ← integer value field
  if counter < 0 then .error (.valueError ("AgentEvent.token_usage." ++ field ++ " must not be negative"))
  else .ok counter.toNat

end Helpers

section Nested

def contentCategory (value : Json) : PyResult Str :=
  match value with
  | .str category => do
    oneOf category ["token_usage", "conversation_text", "tool_content", "images"]
      ("unsupported omitted content category " ++ String.ofList category)
    .ok category
  -- A list or a dict cannot be looked up in a set.
  | .arr _ | .obj _ => .error (.typeError "unhashable type")
  | _ => .error (.valueError "unsupported omitted content category")

def conversationEntry (value : Json) : PyResult ExposedEntry := do
  let item ← mapping (some value) "conversation.entries[]"
  rejectUnknown item ["role", "text", "call_id", "name", "item_id"] "conversation entry"
  let role ← string item "role"
  oneOf role ["system", "developer", "user", "assistant", "reasoning", "tool_call", "tool_result", "unknown"]
    ("unsupported conversation role " ++ String.ofList role)
  .ok ⟨role, ← string item "text", ← optionalString item "call_id", ← optionalString item "name",
    ← optionalString item "item_id"⟩

def conversation (value : Json) : PyResult ExposedConversation := do
  let item ← mapping (some value) "AgentEvent.conversation"
  rejectUnknown item ["entries", "completeness"] "conversation"
  let completeness ← string item "completeness"
  oneOf completeness ["complete", "partial", "unsupported"] "completeness must be complete, partial, or unsupported"
  let entries ← list (get item "entries") "conversation.entries"
  .ok ⟨← entries.mapM conversationEntry, completeness⟩

def header (value : Json) : PyResult ExposedHeader := do
  let item ← mapping (some value) "AgentEvent.headers[]"
  rejectUnknown item ["name", "value", "value_base64"] "header"
  let header : ExposedHeader := ⟨← string item "name", ← optionalString item "value", ← optionalString item "value_base64"⟩
  if header.value.isNone = header.valueBase64.isNone then
    .error (.valueError "a header carries exactly one of value and value_base64")
  else .ok header

def device (value : Members) : PyResult DeviceContext := do
  rejectUnknown value ["host_name", "platform", "os_version"] "AgentEvent.device"
  .ok ⟨← string value "host_name", ← string value "platform", ← optionalString value "os_version"⟩

def agent (value : Members) : PyResult AgentContext := do
  rejectUnknown value ["name", "version"] "AgentEvent.agent"
  .ok ⟨← string value "name", ← optionalString value "version"⟩

def llm (value : Members) : PyResult ExposedLlm := do
  rejectUnknown value ["provider", "model"] "AgentEvent.llm"
  .ok ⟨← string value "provider", ← string value "model"⟩

def tokenUsage (value : Members) : PyResult ExposedUsage := do
  rejectUnknown value
    ["input_tokens", "output_tokens", "cache_read_tokens", "cache_write_tokens", "reasoning_tokens", "total_tokens"]
    "AgentEvent.token_usage"
  .ok ⟨← counter value "input_tokens", ← counter value "output_tokens", ← counter value "cache_read_tokens",
    ← counter value "cache_write_tokens", ← counter value "reasoning_tokens", ← counter value "total_tokens"⟩

def attachment (value : Json) : PyResult ExposedAttachment := do
  let item ← mapping (some value) "AgentEvent.attachments[]"
  rejectUnknown item ["position", "media_type", "byte_size", "sha256", "content_base64"] "attachment"
  let mediaType ← string item "media_type"
  oneOf mediaType ["image/png", "image/jpeg", "image/webp", "image/gif"]
    ("unsupported AgentEvent attachment media type " ++ String.ofList mediaType)
  let position ← integer item "position"
  let byteSize ← integer item "byte_size"
  if position < 0 ∨ byteSize < 0 then
    .error (.valueError "AgentEvent attachment sizes and positions must not be negative")
  else .ok ⟨position.toNat, mediaType, byteSize.toNat, ← string item "sha256", ← optionalString item "content_base64"⟩

end Nested

section Event
variable {Time : Type}

def eventFields : List String :=
  ["event_id", "observed_at", "device", "agent", "session_id", "response_id", "previous_response_id", "subagent_id",
    "parent_subagent_id", "turn_id", "purpose", "llm", "side", "omitted", "conversation", "path", "headers",
    "token_usage", "attachments"]

/-- `_datetime`, with what reads the timestamp. -/
def datetime (parse : Str → Option Time) (value : Str) : PyResult Time :=
  match parse value with
  | some time => .ok time
  | none => .error (.valueError "AgentEvent.observed_at must be an RFC 3339 timestamp")

def checkPurpose : Option Str → PyResult Unit
  | some purpose =>
    oneOf purpose ["session_title", "compaction", "prewarm"] "purpose must be session_title, compaction or prewarm"
  | none => .ok ()

def optionalConversation (value : Members) : PyResult (Option ExposedConversation) :=
  match get value "conversation" with
  | none | some .null => .ok none
  | some value => some <$> conversation value

/-- `event.get(field, [])` with a decoder for the items. -/
def items {α : Type} (value : Members) (field label : String) (item : Json → PyResult α) : PyResult (List α) := do
  (← list (some ((get value field).getD (.arr []))) label).mapM item

/-- Decode and validate one protocol version 1 event. -/
def fromDict (parse : Str → Option Time) (value : Json) : PyResult (ExposedEvent Time) := do
  let event ← mapping (some value) "AgentEvent"
  rejectUnknown event eventFields "AgentEvent"
  let side ← string event "side"
  oneOf side ["request", "response"] "AgentEvent.side must be request or response"
  let purpose ← optionalString event "purpose"
  checkPurpose purpose
  let observedAt ← datetime parse (← string event "observed_at")
  .ok {
    eventId := ← string event "event_id"
    observedAt
    device := ← device (← mapping (get event "device") "AgentEvent.device")
    agent := ← agent (← mapping (get event "agent") "AgentEvent.agent")
    sessionId := ← string event "session_id"
    responseId := ← optionalString event "response_id"
    previousResponseId := ← optionalString event "previous_response_id"
    subagentId := ← optionalString event "subagent_id"
    parentSubagentId := ← optionalString event "parent_subagent_id"
    turnId := ← optionalString event "turn_id"
    purpose
    llm := ← llm (← mapping (get event "llm") "AgentEvent.llm")
    side
    omitted := ← items event "omitted" "AgentEvent.omitted" contentCategory
    conversation := ← optionalConversation event
    path := ← string event "path"
    headers := ← items event "headers" "AgentEvent.headers" header
    tokenUsage := ← tokenUsage (← mapping (get event "token_usage") "AgentEvent.token_usage")
    attachments := ← items event "attachments" "AgentEvent.attachments" attachment }

end Event
end Abyss.Sdk.Python
