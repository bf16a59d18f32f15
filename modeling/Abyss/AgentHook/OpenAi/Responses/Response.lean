import Abyss.AgentHook.OpenAi.Responses.Request

/-! Responses `output` items and `response.*` stream events, reconciled by output and content
index. -/
namespace Abyss.AgentHook.OpenAi
open Abyss.Text Abyss.PluginProtocol Abyss.Data

/-- What one output item holds, by the item-to-role table. -/
inductive SlotBody where
  | message (parts : MessageParts)
  | reasoning (parts : TreeMap Str)
  | toolCall (call : CallSlot)
  | toolResult (entry : ConversationEntry)

namespace SlotBody

/-- The empty body of an item of this type. -/
def forItem (itemType : Option Str) : SlotBody :=
  if itemType = some (lit "reasoning") then .reasoning ∅
  else if itemType.any (endsWith · (lit "_call")) then .toolCall .empty
  else if itemType.any (endsWith · (lit "_output")) then .toolResult (ConversationProjection.toolResult none [])
  else .message ∅

/-- `mem::discriminant`. -/
def sameKind : SlotBody → SlotBody → Bool
  | .message _, .message _ | .reasoning _, .reasoning _ | .toolCall _, .toolCall _ | .toolResult _, .toolResult _ => true
  | _, _ => false

/-- Change the text of a message or reasoning part, created empty when absent. -/
def textPart (body : SlotBody) (index : Nat) (change : Str → Str) : SlotBody :=
  match body with
  | .message parts => .message (parts.textPart index change)
  | .reasoning parts => .reasoning (parts.alter index (fun text => some (change (text.getD []))))
  | body => body

def reconcile (body : SlotBody) (index : Nat) (authoritative : Str) : SlotBody :=
  if authoritative = [] then body else body.textPart index (OpenAi.reconcile · authoritative)

end SlotBody

/-- One output item under assembly. -/
structure ResponsesSlot where
  itemId : Option Str
  role : EntryRole
  body : SlotBody

namespace ResponsesSlot

def new (body : SlotBody) : ResponsesSlot := ⟨none, .assistant, body⟩

/-- The slot a text event of this kind starts. -/
def forTextEvent (kind : Str) : ResponsesSlot :=
  new (if startsWith kind (lit "response.reasoning") then .reasoning ∅ else .message ∅)

def reconcile (slot : ResponsesSlot) (index : Nat) (authoritative : Str) : ResponsesSlot :=
  { slot with body := slot.body.reconcile index authoritative }

/-- Reconcile the body and role with one item snapshot; one of another kind replaces the body. -/
def reconcileItem (slot : ResponsesSlot) (item : Json) : ResponsesSlot where
  itemId := slot.itemId
  role := ((item.field "role").map ConversationProjection.role).getD .assistant
  body :=
    let empty := SlotBody.forItem item.kind
    match if empty.sameKind slot.body then slot.body else empty with
    | .message parts => .message (parts.reconcileContent item)
    | .reasoning parts => ((reasoningParts item).getD []).foldl (fun body p => body.reconcile p.1 p.2) (.reasoning parts)
    | .toolCall call => .toolCall (reconcileCall call item)
    | .toolResult _ => .toolResult (outputEntry item)

/-- The item's entries, each carrying the item's identity. -/
def entries (slot : ResponsesSlot) : List ConversationEntry :=
  ConversationProjection.identify
    (match slot.body with
      | .message parts => parts.entries slot.role
      | .reasoning parts => [ConversationProjection.text .reasoning (join (lit "\n") (TreeMap.values parts))]
      | .toolCall call => [call.entry]
      | .toolResult entry => [entry])
    slot.itemId

/-- Reconcile with one output item, which carries its `id`. -/
def reconcileOutputItem (slot : ResponsesSlot) (item : Json) : ResponsesSlot :=
  { slot.reconcileItem item with itemId := item.field "id" <|> slot.itemId }

end ResponsesSlot

/-- The output items under assembly, by output index. -/
abbrev Slots := TreeMap ResponsesSlot

namespace ResponsesResponse

/-- Change the slot at an index, started by `fresh` when absent. -/
def slot (slots : Slots) (index : Nat) (fresh : ResponsesSlot) (change : ResponsesSlot → ResponsesSlot) : Slots :=
  slots.alter index (fun found => some (change (found.getD fresh)))

def emptyMessage : ResponsesSlot := .new (.message ∅)

def applyOutput (slots : Slots) (output : List Json) : Slots :=
  output.zipIdx.foldl (fun slots p => slot slots p.2 emptyMessage (·.reconcileOutputItem p.1)) slots

def textDeltas : List Str :=
  [lit "response.output_text.delta", lit "response.reasoning_summary_text.delta", lit "response.reasoning_text.delta"]

def textDones : List Str :=
  [lit "response.output_text.done", lit "response.reasoning_summary_text.done", lit "response.reasoning_text.done"]

def partDones : List Str := [lit "response.content_part.done", lit "response.reasoning_summary_part.done"]

def inputDeltas : List Str := [lit "response.function_call_arguments.delta", lit "response.custom_tool_call_input.delta"]

def itemEvents : List Str := [lit "response.output_item.added", lit "response.output_item.done"]

def terminalSnapshots : List Str := [lit "response.completed", lit "response.done"]

/-- Add a streamed fragment to a call; other items have no place for it. -/
def pushInput (fragment : Str) (target : ResponsesSlot) : ResponsesSlot :=
  match target.body with
  | .toolCall call => { target with body := .toolCall { call with streamed := call.streamed ++ fragment } }
  | _ => target

/-- The slots after one `response.*` stream event, or none when the value is no such event. -/
def applyEvent (slots : Slots) (value : Json) : Option Slots :=
  let outputIndex := ((value.index "output_index").asU64.getD 0).toNat
  let partIndex := (((value.get "content_index" <|> value.get "summary_index").bind Json.asU64).getD 0).toNat
  let kind := (value.field "type").getD []
  if kind ∈ textDeltas then
    match value.field "delta" with
    | some delta => some (slot slots outputIndex (.forTextEvent kind) (fun s =>
        { s with body := s.body.textPart partIndex (· ++ delta) }))
    | none => some slots
  else if kind ∈ textDones then
    match value.field "text" with
    | some text => some (slot slots outputIndex (.forTextEvent kind) (·.reconcile partIndex text))
    | none => some slots
  else if kind ∈ partDones then
    match (value.get "part").bind responsePartText with
    | some text => some (slot slots outputIndex (.forTextEvent kind) (·.reconcile partIndex text))
    | none => some slots
  else if kind ∈ inputDeltas then
    match value.field "delta" with
    | some delta => some (slot slots outputIndex (.new (.toolCall .empty)) (pushInput delta))
    | none => some slots
  else if kind ∈ itemEvents then
    match value.get "item" with
    | some item => some (slot slots outputIndex emptyMessage (·.reconcileOutputItem item))
    | none => some slots
  else if kind ∈ terminalSnapshots then
    match ((value.get "response").bind (·.get "output")).bind Json.asArray with
    | some output => some (applyOutput slots output)
    | none => some slots
  else none

/-- The slots after a non-streaming Responses object. -/
def applyDocument (slots : Slots) (value : Json) : Slots :=
  match (value.get "output").bind Json.asArray with
  | some output => applyOutput slots output
  | none =>
    if (value.get "output_text").isSome ∨ (value.get "content").isSome then
      slot slots 0 emptyMessage (·.reconcileItem value)
    else slots

def apply (slots : Slots) (value : Json) : Slots := (applyEvent slots value).getD (applyDocument slots value)

/-- Assemble one response from its decoded documents in arrival order. -/
def assemble (values : List Json) (incomplete : Bool) : OpenAiResponse :=
  let slots := values.foldl apply ∅
  { empty := slots.isEmpty
    entries := (TreeMap.values slots).flatMap ResponsesSlot.entries
    completeness := ConversationProjection.completeness (!values.isEmpty) incomplete }

end ResponsesResponse
end Abyss.AgentHook.OpenAi
