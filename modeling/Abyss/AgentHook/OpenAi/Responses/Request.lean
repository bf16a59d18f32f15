import Abyss.AgentHook.OpenAi.Content

/-! Responses items (calls, outputs and reasoning), and the request's `instructions`, `input` items and `prompt`. -/
namespace Abyss.AgentHook.OpenAi
open Abyss.Text Abyss.PluginProtocol

section Items

/-- The members that may hold the arguments or input of a call, in order of preference. -/
def callInputKeys : List String := ["arguments", "input", "action", "code", "queries", "operation"]

/-- The arguments or input of one `*_call` item, as sent. -/
def callInput (item : Json) : Str :=
  ((callInputKeys.findSome? item.get).map ConversationProjection.verbatim).getD []

/-- The tool-call entry of one `*_call` item. -/
def callEntry (item : Json) : ConversationEntry :=
  ConversationProjection.toolCall (item.field "call_id") (item.field "name") (callInput item)

/-- The tool-result entry of one `*_output` item. -/
def outputEntry (item : Json) : ConversationEntry :=
  ConversationProjection.toolResult (item.field "call_id") (((item.get "output").map outputText).getD [])

/-- Reconcile a call with one `*_call` item snapshot. -/
def reconcileCall (call : CallSlot) (item : Json) : CallSlot where
  callId := item.field "call_id" <|> call.callId
  name := item.field "name" <|> call.name
  input := if callInput item = [] then call.input else callInput item
  streamed := call.streamed

/-- The text of a part when it is not empty. -/
def partText (part : Json) : Option Str := (part.field "text").filter (fun text => text ≠ [])

/-- The non-empty text parts of a list, by their index. -/
def indexedTexts (parts : List Json) : List (Nat × Str) :=
  parts.zipIdx.filterMap (fun p => (partText p.1).map (p.2, ·))

/-- The non-empty text parts of a `reasoning` item's content, or else of its summary. -/
def reasoningParts (item : Json) : Option (List (Nat × Str)) :=
  ["content", "summary"].findSome? (fun key =>
    ((item.get key).bind Json.asArray).bind (fun parts =>
      if indexedTexts parts = [] then none else some (indexedTexts parts)))

/-- The text of one `reasoning` item. -/
def reasoningText (item : Json) : Option Str :=
  (reasoningParts item).map (fun parts => join (lit "\n") (parts.map Prod.snd))

end Items

/-- The entries of a message or any other item: one per content part, or else its visible text. -/
def messageEntries (item : Json) (defaultRole : EntryRole) : List ConversationEntry :=
  let role := ((item.field "role").map ConversationProjection.role).getD defaultRole
  match item.get "content" with
  | some (.str text) => contentEntries (.str text) role
  | some (.arr parts) => contentEntries (.arr parts) role
  | _ => ((visibleText item).map (ConversationProjection.text role)).toList

/-- The entries of one item by the item-to-role table, each carrying the item's `id`. -/
def itemEntries (item : Json) (defaultRole : EntryRole) : List ConversationEntry :=
  match item with
  | .str text => [ConversationProjection.text defaultRole text]
  | item =>
    ConversationProjection.identify
      (if item.kind = some (lit "reasoning") then
        [ConversationProjection.text .reasoning ((reasoningText item).getD [])]
      else if item.kind.any (endsWith · (lit "_call")) then [callEntry item]
      else if item.kind.any (endsWith · (lit "_output")) then [outputEntry item]
      else messageEntries item defaultRole)
      (item.field "id")

/-- What one message-bearing field contributes. -/
structure RequestField where
  carriesMessages : Bool
  entries : List ConversationEntry

def instructionsField : Option Json → RequestField
  | some (.str text) => ⟨true, [ConversationProjection.text .developer text]⟩
  | some (.arr items) => ⟨true, items.flatMap (itemEntries · .developer)⟩
  | some .null | none => ⟨false, []⟩
  | some other => ⟨true, ((visibleText other).map (ConversationProjection.text .developer)).toList⟩

def inputField : Option Json → RequestField
  | some (.arr items) =>
    ⟨!items.isEmpty, items.flatMap (fun item => itemEntries item (if item.asStr.isSome then .user else .unknown))⟩
  | some (.str text) => ⟨true, [ConversationProjection.text .user text]⟩
  | some (.obj members) => ⟨true, itemEntries (.obj members) .unknown⟩
  | _ => ⟨false, []⟩

def promptField (prompt : Option Str) : RequestField :=
  match prompt.filter (fun text => (nonEmptyTrimmed text).isSome) with
  | some text => ⟨true, [ConversationProjection.text .user text]⟩
  | none => ⟨false, []⟩

structure ResponsesRequest where
  carriesMessages : Bool
  entries : List ConversationEntry
  completeness : ContentCompleteness

namespace ResponsesRequest

/-- Project one request body; none means that it could not be decoded. -/
def parse (payload : Option Json) (truncated : Bool) : ResponsesRequest :=
  let completeness := ConversationProjection.completeness payload.isSome truncated
  match payload with
  | none => ⟨false, [], completeness⟩
  | some payload =>
    let fields := [instructionsField (payload.get "instructions"), inputField (payload.get "input"),
      promptField (payload.field "prompt")]
    ⟨fields.any (·.carriesMessages), fields.flatMap (·.entries), completeness⟩

/-- Whether the request carried no message-bearing field. -/
def isEmpty (request : ResponsesRequest) : Bool := !request.carriesMessages

def conversation (request : ResponsesRequest) : Conversation := ⟨request.entries, request.completeness⟩

end ResponsesRequest

end Abyss.AgentHook.OpenAi
