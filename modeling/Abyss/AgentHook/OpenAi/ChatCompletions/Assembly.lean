import Abyss.AgentHook.OpenAi.Content

/-! Chat Completions tool calls, the `messages` history and `prompt` of a request, and the `choices` of a
response, whole or as streamed deltas, assembled per choice index. A call is a `function` call with `arguments` or a
`custom` call with `input`. -/
namespace Abyss.AgentHook.OpenAi
open Abyss.Text Abyss.PluginProtocol Abyss.Data

/-- The entry of a `tool` message: the result of one call. -/
def toolMessageEntry (message : Json) : ConversationEntry :=
  ConversationProjection.toolResult (message.field "tool_call_id") (((message.get "content").map outputText).getD [])

/-- The `function` or `custom` payload of one call, with its input key. -/
def callPayload (call : Json) : Option (Json × String) :=
  (call.get "function").map (·, "arguments") <|> (call.get "custom").map (·, "input")

def callName (call : Json) : Option Str := (callPayload call).bind (fun payload => payload.1.field "name")

/-- The `arguments` of a function call or the `input` of a custom call. -/
def chatCallInput (call : Json) : Option Json := (callPayload call).bind (fun payload => payload.1.get payload.2)

/-- A member that is a `u64`, zero otherwise. -/
def indexField (value : Json) : Nat := ((value.index "index").asU64.getD 0).toNat

/-- The `tool_calls` array of a message or a delta. -/
def toolCalls (message : Json) : List Json := ((message.get "tool_calls").bind Json.asArray).getD []

def messageCallEntry (call : Json) : ConversationEntry :=
  ConversationProjection.toolCall (call.field "id") (callName call)
    (((chatCallInput call).map ConversationProjection.verbatim).getD [])

/-- One tool-call entry per element of a message's `tool_calls`, as sent. -/
def messageCallEntries (message : Json) : List ConversationEntry := (toolCalls message).map messageCallEntry

/-- Tool calls of one choice, by tool index. -/
abbrev ChatToolCalls := TreeMap CallSlot

namespace ChatToolCalls

/-- One fragment of a call; compatible streams repeat an empty `id` and `name`. -/
def applyFragment (slot : CallSlot) (call : Json) : CallSlot where
  callId := (call.field "id").filter (· ≠ []) <|> slot.callId
  name := (callName call).filter (· ≠ []) <|> slot.name
  input := slot.input
  streamed := slot.streamed ++ ((chatCallInput call).bind Json.asStr).getD []

/-- Accumulate one streamed `delta.tool_calls` array. -/
def applyDelta (calls : ChatToolCalls) (delta : Json) : ChatToolCalls :=
  (toolCalls delta).foldl
    (fun calls call => calls.alter (indexField call) (fun slot => some (applyFragment (slot.getD .empty) call))) calls

/-- The slot of one call of a message snapshot. -/
def snapshotSlot (call : Json) : CallSlot where
  callId := call.field "id"
  name := callName call
  input := ((chatCallInput call).map ConversationProjection.verbatim).getD []
  streamed := []

/-- Replace streamed calls with an authoritative message snapshot. -/
def reconcile (calls : ChatToolCalls) (message : Json) : ChatToolCalls :=
  match (message.get "tool_calls").bind Json.asArray with
  | none => calls
  | some snapshot => snapshot.zipIdx.foldl (fun calls p => calls.insert p.2 (snapshotSlot p.1)) ∅

def entries (calls : ChatToolCalls) : List ConversationEntry := (TreeMap.values calls).map CallSlot.entry

end ChatToolCalls

open Abyss.Text Abyss.PluginProtocol

structure ChatRequest where
  entries : List ConversationEntry
  completeness : ContentCompleteness

namespace ChatRequest

/-- The entries of one message: its thinking, its content, its refusal, then its calls. -/
def messageEntries (message : Json) : List ConversationEntry :=
  let role := ((message.field "role").map ConversationProjection.role).getD .unknown
  if role = .toolResult then [toolMessageEntry message]
  else
    (if role = .assistant then
      (((message.field "reasoning_content").filter (· ≠ [])).map (ConversationProjection.text .reasoning)).toList
    else []) ++
    ((message.get "content").map (contentEntries · role)).getD [] ++
    ((message.field "refusal").map (ConversationProjection.text .assistant)).toList ++
    messageCallEntries message

/-- Project one request body; none means that it could not be decoded. -/
def parse (payload : Option Json) (truncated : Bool) : ChatRequest where
  entries :=
    (((payload.bind (·.get "messages")).bind Json.asArray).getD []).flatMap messageEntries ++
      (((payload.bind (·.field "prompt")).filter (fun prompt => (nonEmptyTrimmed prompt).isSome)).map
        (ConversationProjection.text .user)).toList
  completeness := ConversationProjection.completeness payload.isSome truncated

def conversation (request : ChatRequest) : Conversation := ⟨request.entries, request.completeness⟩

end ChatRequest

/-- One choice under assembly. -/
structure ChatChoice where
  reasoning : Str
  content : MessageParts
  refusal : Str
  tools : ChatToolCalls

namespace ChatChoice

/-- `ChatChoice::default`. -/
def empty : ChatChoice := ⟨[], ∅, [], ∅⟩

/-- Reconcile the choice with a whole `message`. -/
def reconcile (choice : ChatChoice) (message : Json) : ChatChoice where
  reasoning := OpenAi.reconcile choice.reasoning ((message.field "reasoning_content").getD [])
  content := choice.content.reconcileContent message
  refusal := OpenAi.reconcile choice.refusal ((message.field "refusal").getD [])
  tools := choice.tools.reconcile message

/-- Add a fragment to the choice's text; an empty one starts none. -/
def pushContent (parts : MessageParts) (fragment : Option Str) : MessageParts :=
  match fragment.filter (· ≠ []) with
  | some content => parts.textPart 0 (· ++ content)
  | none => parts

/-- Accumulate one streamed `delta`. -/
def applyDelta (choice : ChatChoice) (delta : Json) : ChatChoice where
  reasoning := choice.reasoning ++ (delta.field "reasoning_content").getD []
  content := pushContent choice.content (delta.field "content")
  refusal := choice.refusal ++ (delta.field "refusal").getD []
  tools := choice.tools.applyDelta delta

/-- An entry with text. -/
def textEntry (role : EntryRole) (text : Str) : List ConversationEntry :=
  if text = [] then [] else [ConversationProjection.text role text]

def entries (choice : ChatChoice) : List ConversationEntry :=
  textEntry .reasoning choice.reasoning ++ choice.content.entries .assistant ++
    textEntry .assistant choice.refusal ++ choice.tools.entries

/-- The choice after one element of a `choices` array; legacy choices carry their text directly. -/
def apply (slot : ChatChoice) (choice : Json) : ChatChoice :=
  let slot := (choice.get "message").elim slot slot.reconcile
  let slot := (choice.get "delta").elim slot slot.applyDelta
  { slot with content := pushContent slot.content (choice.field "text") }

end ChatChoice

/-- The elements of the `choices` arrays of all documents. -/
def choicesOf (values : List Json) : List Json :=
  values.flatMap (fun value => ((value.get "choices").bind Json.asArray).getD [])

namespace ChatResponse

/-- The choices after one element. -/
def applyChoice (choices : TreeMap ChatChoice) (choice : Json) : TreeMap ChatChoice :=
  choices.alter (indexField choice) (fun slot => some ((slot.getD .empty).apply choice))

/-- Assemble one response from its decoded documents in arrival order. -/
def assemble (values : List Json) (incomplete : Bool) : OpenAiResponse :=
  let choices := (choicesOf values).foldl applyChoice ∅
  { empty := choices.isEmpty
    entries := (TreeMap.values choices).flatMap ChatChoice.entries
    completeness := ConversationProjection.completeness (!values.isEmpty) incomplete }

end ChatResponse

end Abyss.AgentHook.OpenAi
