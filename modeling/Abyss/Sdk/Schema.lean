import Abyss.Sdk.Exposed

/-! The event format on its own: a reader that accepts an object for its fields, their types and their names, in no
language. -/
namespace Abyss.Sdk.Schema
open Abyss.Text Abyss.PluginProtocol

section Fields
variable {α : Type}

def string (value : Members) (field : String) : Option Str :=
  match get value field with
  | some (.str s) => some s
  | _ => none

def optionalString (value : Members) (field : String) : Option (Option Str) :=
  match get value field with
  | none => some none
  | some (.str s) => some (some s)
  | _ => none

def count (value : Members) (field : String) : Option Nat :=
  match get value field with
  | some (.num (.posInt n)) => some n.toNat
  | _ => none

def choice (names : List String) (name : Str) : Option Unit := if name ∈ names.map String.toList then some () else none

def category : Json → Option Str
  | .str name => do
    choice ["token_usage", "conversation_text", "tool_content", "images"] name
    some name
  | _ => none

/-- A list that may be absent. -/
def items (value : Members) (field : String) (item : Json → Option α) : Option (List α) :=
  match get value field with
  | none => some []
  | some (.arr items) => items.mapM item
  | _ => none

def known (value : Members) (fields : List String) : Option Unit := if unknownFields value fields = [] then some () else none

/-- An object with no other fields than the ones named. -/
def object (fields : List String) (read : Members → Option α) : Json → Option α
  | .obj value => (known value fields).bind (fun _ => read value)
  | _ => none

/-- A structure that has to be there. -/
def nested (value : Members) (field : String) (read : Json → Option α) : Option α := (get value field).bind read

end Fields

section Structures

def header : Json → Option ExposedHeader :=
  object ["name", "value", "value_base64"] fun value => do
    let header : ExposedHeader :=
      ⟨← string value "name", ← optionalString value "value", ← optionalString value "value_base64"⟩
    if header.value.isNone = header.valueBase64.isNone then none else some header

def device : Json → Option DeviceContext :=
  object ["host_name", "platform", "os_version"] fun value => do
    some ⟨← string value "host_name", ← string value "platform", ← optionalString value "os_version"⟩

def agent : Json → Option AgentContext :=
  object ["name", "version"] fun value => do some ⟨← string value "name", ← optionalString value "version"⟩

def llm : Json → Option ExposedLlm :=
  object ["provider", "model"] fun value => do some ⟨← string value "provider", ← string value "model"⟩

def usageFields : List String :=
  ["input_tokens", "output_tokens", "cache_read_tokens", "cache_write_tokens", "reasoning_tokens", "total_tokens"]

def tokenUsage : Json → Option ExposedUsage :=
  object usageFields fun value => do
    some ⟨← count value "input_tokens", ← count value "output_tokens", ← count value "cache_read_tokens",
      ← count value "cache_write_tokens", ← count value "reasoning_tokens", ← count value "total_tokens"⟩

def attachment : Json → Option ExposedAttachment :=
  object ["position", "media_type", "byte_size", "sha256", "content_base64"] fun value => do
    let position ← count value "position"
    let mediaType ← string value "media_type"
    choice ["image/png", "image/jpeg", "image/webp", "image/gif"] mediaType
    let byteSize ← count value "byte_size"
    some ⟨position, mediaType, byteSize, ← string value "sha256", ← optionalString value "content_base64"⟩

def entry : Json → Option ExposedEntry :=
  object ["role", "text", "call_id", "name", "item_id"] fun value => do
    let role ← string value "role"
    choice ["system", "developer", "user", "assistant", "reasoning", "tool_call", "tool_result", "unknown"] role
    some ⟨role, ← string value "text", ← optionalString value "call_id", ← optionalString value "name",
      ← optionalString value "item_id"⟩

def entries : Json → Option (List ExposedEntry)
  | .arr entries => entries.mapM entry
  | _ => none

def conversation : Json → Option ExposedConversation :=
  object ["entries", "completeness"] fun value => do
    let entries ← nested value "entries" entries
    let completeness ← string value "completeness"
    choice ["complete", "partial", "unsupported"] completeness
    some ⟨entries, completeness⟩

def optionalConversation (value : Members) : Option (Option ExposedConversation) :=
  match get value "conversation" with
  | none => some none
  | some value => some <$> conversation value

def checkPurpose : Option Str → Option Unit
  | some purpose => choice ["session_title", "compaction", "prewarm"] purpose
  | none => some ()

def event {Time : Type} (parse : Str → Option Time) : Json → Option (ExposedEvent Time) :=
  object
    ["event_id", "observed_at", "device", "agent", "session_id", "response_id", "previous_response_id", "subagent_id",
      "parent_subagent_id", "turn_id", "purpose", "llm", "side", "omitted", "conversation", "path", "headers",
      "token_usage", "attachments"]
    fun value => do
      let eventId ← string value "event_id"
      let observedAt ← (string value "observed_at").bind parse
      let device ← nested value "device" device
      let agent ← nested value "agent" agent
      let sessionId ← string value "session_id"
      let responseId ← optionalString value "response_id"
      let previousResponseId ← optionalString value "previous_response_id"
      let subagentId ← optionalString value "subagent_id"
      let parentSubagentId ← optionalString value "parent_subagent_id"
      let turnId ← optionalString value "turn_id"
      let purpose ← optionalString value "purpose"
      checkPurpose purpose
      let llm ← nested value "llm" llm
      let side ← string value "side"
      choice ["request", "response"] side
      let omitted ← items value "omitted" category
      let conversation ← optionalConversation value
      let path ← string value "path"
      let headers ← items value "headers" header
      let tokenUsage ← nested value "token_usage" tokenUsage
      let attachments ← items value "attachments" attachment
      some {
        eventId, observedAt, device, agent, sessionId, responseId, previousResponseId, subagentId, parentSubagentId,
        turnId, purpose, llm, side, omitted, conversation, path, headers, tokenUsage, attachments }

end Structures

/-! The values that the three languages read alike where one stands. -/
section Places

abbrev Place := Json → Prop

/-- No `null`: it is a missing value to two of the languages, and a value of a wrong type to the third. -/
def Present : Place := fun value => value ≠ .null

/-- No object: `serde` also reads an enumeration from an object with one key. -/
def Name : Place := fun value => ∀ members, value ≠ .obj members

/-- A number below the bound, a negative integer, or a literal that no language reads as a counter. -/
def Shared (double : Str → Option Int) (bound : Nat) : JsonNumber → Prop
  | .posInt n => n.toNat < bound
  | .negInt _ => True
  | .float literal => isIntegerLiteral literal = false ∧ ∀ i, double literal = some i → i < 0

def Count (double : Str → Option Int) (bound : Nat) : Place := fun value => ∀ n, value = .num n → Shared double bound n

def Items (item : Place) : Place := fun value => ∀ items, value = .arr items → ∀ i ∈ items, item i

/-- An object with distinct keys, each field in its place; `serde` also reads a structure from an array. -/
def Object (places : List (String × Place)) : Place := fun value =>
  (∀ items, value ≠ .arr items) ∧
    ∀ members, value = .obj members → (members.map Prod.fst).Nodup ∧
      ∀ place ∈ places, ∀ member ∈ members, member.1 = place.1.toList → place.2 member.2

variable (double : Str → Option Int)

def headerPlace : Place := Object [("value", Present), ("value_base64", Present)]

def devicePlace : Place := Object [("os_version", Present)]

def agentPlace : Place := Object [("version", Present)]

def llmPlace : Place := Object []

def usagePlace : Place := Object (usageFields.map fun field => (field, Count double (2 ^ 53)))

def attachmentPlace : Place :=
  Object [("position", Count double (2 ^ 32)), ("media_type", Name), ("byte_size", Count double (2 ^ 53)),
    ("content_base64", Present)]

def entryPlace : Place := Object [("role", Name), ("call_id", Present), ("name", Present), ("item_id", Present)]

def conversationPlace : Place := Object [("entries", Items entryPlace), ("completeness", Name)]

def eventPlace : Place :=
  Object [("device", devicePlace), ("agent", agentPlace), ("response_id", Present), ("previous_response_id", Present),
    ("subagent_id", Present), ("parent_subagent_id", Present), ("turn_id", Present), ("purpose", Present),
    ("purpose", Name), ("llm", llmPlace), ("side", Name), ("omitted", Items Name), ("conversation", Present),
    ("conversation", conversationPlace), ("headers", Items headerPlace), ("token_usage", usagePlace double),
    ("attachments", Items (attachmentPlace double))]

theorem get_mem {members : Members} {field : String} {value : Json} (h : get members field = some value) :
    (field.toList, value) ∈ members := by
  have hlast : value ∈ lookup members field.toList := List.mem_of_getLast? h
  obtain ⟨member, hmem, rfl⟩ := List.mem_map.mp hlast
  obtain ⟨hmem, hname⟩ := List.mem_filter.mp hmem
  rw [← of_decide_eq_true hname]
  exact hmem

variable {double} {places : List (String × Place)} {members : Members} {field : String}

theorem Object.not_array {items : List Json} (h : Object places (.arr items)) : False := h.1 items rfl

theorem Object.get (h : Object places (.obj members)) {place : Place} (hplace : (field, place) ∈ places) :
    ∀ value, Sdk.get members field = some value → place value :=
  fun _ hget => (h.2 members rfl).2 (field, place) hplace _ (get_mem hget) rfl

/-- With distinct keys there is one value under a key at most. -/
theorem Object.lookup_eq (h : Object places (.obj members)) :
    lookup members field.toList = (Sdk.get members field).toList := by
  have hnodup := (h.2 members rfl).1
  unfold Sdk.get lookup
  generalize field.toList = name
  clear h
  induction members with
  | nil => rfl
  | cons member rest ih =>
    rw [List.map_cons, List.nodup_cons] at hnodup
    rw [List.filter_cons]
    split
    · rename_i hname
      have hrest : rest.filter (fun m => decide (m.1 = name)) = [] := by
        rw [List.filter_eq_nil_iff]
        intro m hm hm'
        apply hnodup.1
        rw [of_decide_eq_true hname, ← of_decide_eq_true hm']
        exact List.mem_map_of_mem hm
      rw [hrest]
      rfl
    · exact ih hnodup.2

end Places
end Abyss.Sdk.Schema
