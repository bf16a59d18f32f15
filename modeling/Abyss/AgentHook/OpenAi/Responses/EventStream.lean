import Abyss.AgentHook.OpenAi.Responses.Assembly

/-! Event streams that report a Responses `output` array item by item. -/
namespace Abyss.AgentHook.OpenAi
open Abyss.Text Abyss.PluginProtocol Abyss.Data

section Items

/-- The rows of the item-to-role table. -/
inductive ItemKind where
  | message | reasoning | toolCall | toolResult
  deriving DecidableEq, Repr

def ItemKind.of (itemType : Option Str) : ItemKind :=
  if itemType = some (lit "reasoning") then .reasoning
  else if itemType.any (endsWith · (lit "_call")) then .toolCall
  else if itemType.any (endsWith · (lit "_output")) then .toolResult
  else .message

/-- The texts of an item that are streamed by part index. -/
inductive TextSource where
  | output | reasoning | summary
  deriving DecidableEq, Repr

namespace TextSource

def itemKind : TextSource → ItemKind
  | output => .message
  | reasoning | summary => .reasoning

/-- The member of the item that holds the parts. -/
def member : TextSource → String
  | output | reasoning => "content"
  | summary => "summary"

def partType : TextSource → Str
  | output => lit "output_text"
  | reasoning => lit "reasoning_text"
  | summary => lit "summary_text"

def deltaType : TextSource → Str
  | output => lit "response.output_text.delta"
  | reasoning => lit "response.reasoning_text.delta"
  | summary => lit "response.reasoning_summary_text.delta"

def doneType : TextSource → Str
  | output => lit "response.output_text.done"
  | reasoning => lit "response.reasoning_text.done"
  | summary => lit "response.reasoning_summary_text.done"

def partDoneType : TextSource → Str
  | output | reasoning => lit "response.content_part.done"
  | summary => lit "response.reasoning_summary_part.done"

/-- The part of an item at an index. -/
def part (source : TextSource) (item : Json) (index : Nat) : Option Json :=
  if ItemKind.of item.kind = source.itemKind then
    (((item.get source.member).bind Json.asArray).bind (·[index]?)).filter (fun part => part.kind = some source.partType)
  else none

def text (source : TextSource) (item : Json) (index : Nat) : Option Str := (source.part item index).bind (·.field "text")

end TextSource

/-- An output item as the API describes it: a message of text and refusal parts, reasoning with
parts of content and summary, a call, or an output. -/
def OutputItem (item : Json) : Prop :=
  match ItemKind.of item.kind with
  | .message => item.field "output_text" = none ∧ ∃ parts, item.get "content" = some (.arr parts) ∧ ∀ part ∈ parts,
      (part.kind = some (lit "output_text") ∧ (part.field "text").isSome) ∨
        (part.kind = some (lit "refusal") ∧ (part.field "refusal").isSome)
  | .reasoning => ∀ source : TextSource, source.itemKind = .reasoning → ∀ parts, item.get source.member = some (.arr parts) →
      ∀ part ∈ parts, part.kind = some source.partType ∧ (part.field "text").isSome
  | _ => True

/-- A part as far as it is written: its texts are cut off anywhere. -/
def PartPrefix (shown part : Json) : Prop :=
  shown.kind = part.kind ∧ ∀ key ∈ ["text", "refusal"], ∀ text, shown.field key = some text →
    ∃ full, part.field key = some full ∧ text <+: full

/-- An item as far as it is written: members are missing, and parts and texts are cut off. -/
structure ItemPrefix (shown item : Json) : Prop where
  kind : shown.kind = item.kind
  fields : ∀ key ∈ ["id", "call_id", "name", "output_text"], shown.field key = none ∨ shown.field key = item.field key
  input : callInput shown <+: callInput item
  parts : ∀ key ∈ ["content", "summary"], shown.get key = none ∨ shown.get key = item.get key ∨ ∃ front parts,
    shown.get key = some (.arr front) ∧ item.get key = some (.arr parts) ∧
      ∀ (i : Nat) part, front[i]? = some part → ∃ full, parts[i]? = some full ∧ PartPrefix part full

end Items

section Events

/-- What one event says about its item. -/
inductive ItemEvent where
  | added (shown : Json)
  | delta (source : TextSource) (index : Nat) (piece : Str)
  | textDone (source : TextSource) (index : Nat)
  | partDone (source : TextSource) (index : Nat)
  | inputDelta (piece : Str)
  | itemDone
  | other

/-- Further events of an item, which the assembly passes over. -/
def otherEvents : List Str :=
  [lit "response.refusal.delta", lit "response.refusal.done", lit "response.content_part.added",
    lit "response.reasoning_summary_part.added", lit "response.function_call_arguments.done",
    lit "response.custom_tool_call_input.done", lit "response.mcp_call_arguments.delta",
    lit "response.mcp_call_arguments.done", lit "response.code_interpreter_call_code.delta",
    lit "response.code_interpreter_call_code.done"]

/-- A number member. -/
def HasIndex (value : Json) (key : String) (index : Nat) : Prop :=
  ∃ n : UInt64, value.get key = some (.num (.posInt n)) ∧ n.toNat = index

/-- Where the event of a text says that the text stands. -/
def HasPartIndex (value : Json) : TextSource → Nat → Prop
  | .output, index | .reasoning, index => HasIndex value "content_index" index
  | .summary, index => value.get "content_index" = none ∧ HasIndex value "summary_index" index

/-- The document reports an event of the item at an output index. -/
inductive Reports (item : Json) (k : Nat) : ItemEvent → Json → Prop where
  | added {value shown : Json} (htype : value.field "type" = some (lit "response.output_item.added"))
    (hindex : HasIndex value "output_index" k) (hitem : value.get "item" = some shown) (hshown : ItemPrefix shown item) :
    Reports item k (.added shown) value
  | delta {value : Json} {source : TextSource} {index : Nat} {piece : Str} (htype : value.field "type" = some source.deltaType)
    (hindex : HasIndex value "output_index" k) (hpart : HasPartIndex value source index)
    (hpiece : value.field "delta" = some piece) (htext : (source.text item index).isSome) :
    Reports item k (.delta source index piece) value
  | textDone {value : Json} {source : TextSource} {index : Nat} {text : Str}
    (htype : value.field "type" = some source.doneType) (hindex : HasIndex value "output_index" k)
    (hpart : HasPartIndex value source index) (htext : source.text item index = some text)
    (hfull : value.field "text" = some text) : Reports item k (.textDone source index) value
  | partDone {value part : Json} {source : TextSource} {index : Nat}
    (htype : value.field "type" = some source.partDoneType) (hindex : HasIndex value "output_index" k)
    (hpart : HasPartIndex value source index) (hfound : source.part item index = some part)
    (hfull : value.get "part" = some part) : Reports item k (.partDone source index) value
  | inputDelta {value : Json} {kind piece : Str} (hkind : kind ∈ ResponsesResponse.inputDeltas)
    (htype : value.field "type" = some kind) (hindex : HasIndex value "output_index" k)
    (hpiece : value.field "delta" = some piece) (hcall : ItemKind.of item.kind = .toolCall) :
    Reports item k (.inputDelta piece) value
  | itemDone {value : Json} (htype : value.field "type" = some (lit "response.output_item.done"))
    (hindex : HasIndex value "output_index" k) (hitem : value.get "item" = some item) : Reports item k .itemDone value
  | other {value : Json} {kind : Str} (hkind : kind ∈ otherEvents) (htype : value.field "type" = some kind)
    (hdocument : ∀ key ∈ ["output", "output_text", "content"], value.get key = none) : Reports item k .other value

/-- The streamed pieces of one text, in order. -/
def pieces (source : TextSource) (index : Nat) (events : List ItemEvent) : List Str :=
  events.filterMap (fun
    | .delta source' index' piece => if source' = source ∧ index' = index then some piece else none
    | _ => none)

def inputPieces (events : List ItemEvent) : List Str :=
  events.filterMap (fun
    | .inputDelta piece => some piece
    | _ => none)

/-- The events of the item at an output index. -/
def ofItem (k : Nat) (events : List (Nat × ItemEvent)) : List ItemEvent := (events.filter (·.1 = k)).map Prod.snd

/-- The documents stream an output array: each reports an event of one of its items, each item is
added before its other events, and the pieces of each text and input are those of the item, as far
as they are streamed. The events of different items and parts come in any order. -/
structure Streams (output : List Json) (events : List (Nat × ItemEvent)) (values : List Json) : Prop where
  items : ∀ item ∈ output, OutputItem item
  reports : List.Forall₂ (fun e value => ∃ item, output[e.1]? = some item ∧ Reports item e.1 e.2 value) events values
  opened : ∀ (k : Nat) item, output[k]? = some item → ∃ shown rest, ofItem k events = .added shown :: rest
  texts : ∀ (k : Nat) item, output[k]? = some item → ∀ source index text, TextSource.text source item index = some text →
    (pieces source index (ofItem k events)).flatten <+: text
  inputs : ∀ (k : Nat) item, output[k]? = some item → (inputPieces (ofItem k events)).flatten <+: callInput item

/-- The document that ends a stream. -/
structure Completed (output : List Json) (value : Json) : Prop where
  kind : value.field "type" = some (lit "response.completed")
  carries : (value.get "response").bind (·.get "output") = some (.arr output)

/-- The whole response without a stream. -/
def wholeDocument (output : List Json) : Json := .obj [(lit "output", .arr output)]

end Events

section Condition

/-- The parts that the whole item shows: its texts and refusals, or of reasoning the non-empty
content texts or else the non-empty summary texts. -/
def partsShown (item : Json) : List Nat :=
  match ItemKind.of item.kind with
  | .message => (((item.get "content").bind Json.asArray).getD []).zipIdx.filterMap (fun p =>
      (partChange p.1 none).map (fun _ => p.2))
  | .reasoning => ((reasoningParts item).getD []).map Prod.fst
  | _ => []

/-- The parts that an event addresses: a delta its own even when it is empty, a snapshot those with a text. -/
def addressed (item : Json) : ItemEvent → List Nat
  | .added shown => partsShown shown
  | .delta _ index _ => [index]
  | .textDone source index | .partDone source index => if (source.text item index).getD [] = [] then [] else [index]
  | .itemDone => partsShown item
  | .inputDelta _ | .other => []

/-- No event addresses a part that the whole item does not show; or it shows none and its events
address only one. -/
def Settled (item : Json) (events : List ItemEvent) : Prop :=
  (∀ e ∈ events, ∀ i ∈ addressed item e, i ∈ partsShown item) ∨
    (ItemKind.of item.kind = .reasoning ∧ partsShown item = [] ∧
      ∀ e ∈ events, ∀ i ∈ addressed item e, ∀ e' ∈ events, ∀ j ∈ addressed item e', i = j)

end Condition
end Abyss.AgentHook.OpenAi
