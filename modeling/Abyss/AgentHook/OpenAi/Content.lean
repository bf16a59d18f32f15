import Abyss.AgentHook.Conversation
import Abyss.Data.TreeMap

/-! OpenAI-family content parts and the output that is assembled from them. -/
namespace Abyss.AgentHook.OpenAi
open Abyss.Text Abyss.PluginProtocol Abyss.Data

section Content

/-- A part or item type that carries a tool call or result. -/
def isToolType (kind : Str) : Bool :=
  kind = lit "tool_call" || kind = lit "tool_result" || kind = lit "tool_use" || endsWith kind (lit "_call") ||
    endsWith kind (lit "_call_output")

/-- The visible text of a value, skipping tool parts and items. -/
def visibleText (value : Json) : Option Str := AgentHook.visibleText isToolType maxParseDepth value

/-- The part types that carry text. -/
def textPartTypes : List Str :=
  [lit "input_text", lit "output_text", lit "text", lit "summary_text", lit "reasoning_text"]

/-- The entry of one message content part: a text part takes the message's role, a refusal is the
assistant's, and any other part keeps its visible text. -/
def partEntry (part : Json) (role : EntryRole) : Option ConversationEntry :=
  match part with
  | .str text => some (ConversationProjection.text role text)
  | part =>
    if part.kind.any (· ∈ textPartTypes) then some (ConversationProjection.text role ((part.field "text").getD []))
    else if part.kind = some (lit "refusal") then
      some (ConversationProjection.text .assistant ((part.field "refusal").getD []))
    else (visibleText part).map (ConversationProjection.text role)

/-- The entries of a message's `content`: one for a string, one per part for an array. -/
def contentEntries (content : Json) (role : EntryRole) : List ConversationEntry :=
  match content with
  | .str text => [ConversationProjection.text role text]
  | .arr parts => parts.filterMap (partEntry · role)
  | _ => []

/-- A tool output: a string as sent, otherwise its text parts or its JSON. -/
def outputText (output : Json) : Str :=
  match output with
  | .str text => text
  | value => (jsonToText value maxParseDepth).getD (ConversationProjection.verbatim value)

/-- The text of one response part, excluding refusals and tools. -/
def responsePartText (part : Json) : Option Str :=
  match part with
  | .str text => some text
  | part => if part.asObject.isSome ∧ part.kind.all (· ∈ textPartTypes) then part.field "text" else none

end Content

section Output

/-- Apply one authoritative snapshot to accumulated text: an extension contributes its suffix and
anything else replaces the text. -/
def reconcile (text authoritative : Str) : Str :=
  if authoritative = [] then text
  else if startsWith authoritative text then text ++ authoritative.drop text.length
  else authoritative

/-- A non-empty snapshot always wins. -/
theorem reconcile_eq (text authoritative : Str) :
    reconcile text authoritative = if authoritative = [] then text else authoritative := by
  unfold reconcile
  split
  · rfl
  · split
    · rename_i hfront
      obtain ⟨suffix, rfl⟩ := of_decide_eq_true hfront
      rw [List.drop_left]
    · rfl

/-- One content part of an output message. -/
inductive Part where
  | text (text : Str)
  | refusal (text : Str)
  deriving DecidableEq, Repr

/-- The content parts of one output message, by content index. -/
abbrev MessageParts := TreeMap Part

namespace MessageParts

/-- Change the text of a part, created empty when absent; a refusal stays. -/
def textPart (parts : MessageParts) (index : Nat) (change : Str → Str) : MessageParts :=
  parts.alter index (fun
    | some (.refusal shown) => some (.refusal shown)
    | some (.text shown) => some (.text (change shown))
    | none => some (.text (change [])))

/-- Reconcile one text part with an authoritative snapshot. -/
def reconcile (parts : MessageParts) (index : Nat) (authoritative : Str) : MessageParts :=
  if authoritative = [] then parts else parts.textPart index (OpenAi.reconcile · authoritative)

/-- Reconcile one part of a message snapshot. -/
def reconcilePart (parts : MessageParts) (index : Nat) (part : Json) : MessageParts :=
  match responsePartText part with
  | some text => parts.reconcile index text
  | none =>
    if part.kind = some (lit "refusal") then
      match part.field "refusal" with
      | some refusal => parts.insert index (.refusal refusal)
      | none => parts
    else parts

/-- Reconcile the parts of a message snapshot: its `content` array or string, or else its
`output_text`. -/
def reconcileContent (parts : MessageParts) (message : Json) : MessageParts :=
  match message.get "content" with
  | some (.arr content) => content.zipIdx.foldl (fun parts p => parts.reconcilePart p.2 p.1) parts
  | some (.str content) => parts.reconcile 0 content
  | _ =>
    match message.field "output_text" with
    | some content => parts.reconcile 0 content
    | none => parts

/-- The entry of one part: text in the role, a refusal as the assistant's. -/
def entry (role : EntryRole) : Part → ConversationEntry
  | .text shown => ConversationProjection.text role shown
  | .refusal shown => ConversationProjection.text .assistant shown

def entries (parts : MessageParts) (role : EntryRole) : List ConversationEntry := (TreeMap.values parts).map (entry role)

end MessageParts

/-- A tool call under assembly. -/
structure CallSlot where
  callId : Option Str
  name : Option Str
  input : Str
  streamed : Str
  deriving DecidableEq, Repr

def CallSlot.empty : CallSlot := ⟨none, none, [], []⟩

/-- The call's entry: the snapshot input when one arrived, otherwise the streamed input. -/
def CallSlot.entry (call : CallSlot) : ConversationEntry :=
  ConversationProjection.toolCall call.callId call.name (if call.input = [] then call.streamed else call.input)

end Output

/-- The conversation assembled from response documents. -/
structure OpenAiResponse where
  empty : Bool
  entries : List ConversationEntry
  completeness : ContentCompleteness

def OpenAiResponse.conversation (response : OpenAiResponse) : Conversation := ⟨response.entries, response.completeness⟩

end Abyss.AgentHook.OpenAi
