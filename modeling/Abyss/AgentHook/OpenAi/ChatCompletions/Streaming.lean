import Abyss.AgentHook.OpenAi.ChatCompletions.Assembly
import Abyss.Data.FilterMap

/-! Assistant messages of several choices, the chunk streams that deliver them, and the document
that carries them whole. -/
namespace Abyss.AgentHook.OpenAi
open Abyss.Text Abyss.PluginProtocol Abyss.Data Std

section Messages

/-- A tool call with an id, a name and a string as its input. -/
structure IsChatCall (call : Json) : Prop where
  id : ∃ id, id ≠ [] ∧ call.field "id" = some id
  name : ∃ name, name ≠ [] ∧ callName call = some name
  input : ∃ input, chatCallInput call = some (.str input)

/-- An assistant message: a string or no content at all, and well-formed calls. -/
structure IsAssistantMessage (message : Json) : Prop where
  role : (message.field "role").map ConversationProjection.role = some .assistant
  content : ∀ parts, message.get "content" ≠ some (.arr parts)
  outputText : message.field "output_text" = none
  calls : ∀ call ∈ toolCalls message, IsChatCall call

/-- The items of one index. -/
def itemsAt (index : Nat) (items : List Json) : List Json := items.filter (fun item => indexField item = index)

/-- The fragments of one string member, put together. -/
def spelled (key : String) (deltas : List Json) : Str := deltas.flatMap (fun delta => (delta.field key).getD [])

/-- Fragments of one call: its id and name arrive at least once and are empty or absent otherwise, and
its input is split. -/
structure StreamsCall (call : Json) (fragments : List Json) : Prop where
  ids : ∀ fragment ∈ fragments, (fragment.field "id").getD [] = [] ∨ fragment.field "id" = call.field "id"
  id : ∃ fragment ∈ fragments, fragment.field "id" = call.field "id"
  names : ∀ fragment ∈ fragments, (callName fragment).getD [] = [] ∨ callName fragment = callName call
  name : ∃ fragment ∈ fragments, callName fragment = callName call
  input : chatCallInput call = some (.str (fragments.flatMap (fun fragment =>
    ((chatCallInput fragment).bind Json.asStr).getD [])))

/-- Choice elements whose deltas deliver a message, each member in fragments of any length. -/
structure StreamsMessage (message : Json) (choices : List Json) : Prop where
  started : choices ≠ []
  deltas : ∀ choice ∈ choices, choice.get "message" = none ∧ (choice.field "text").getD [] = []
  reasoning : spelled "reasoning_content" (choices.filterMap (·.get "delta")) =
    (message.field "reasoning_content").getD []
  content : spelled "content" (choices.filterMap (·.get "delta")) = (message.field "content").getD []
  refusal : spelled "refusal" (choices.filterMap (·.get "delta")) = (message.field "refusal").getD []
  calls : ∀ t, match (toolCalls message)[t]? with
    | some call => StreamsCall call (itemsAt t ((choices.filterMap (·.get "delta")).flatMap toolCalls))
    | none => itemsAt t ((choices.filterMap (·.get "delta")).flatMap toolCalls) = []

/-- Chunks that deliver the messages of several choices, interleaved in any way. -/
def ChatStream (messages : TreeMap Json) (values : List Json) : Prop :=
  ∀ k : Nat, match messages[k]? with
    | some message => StreamsMessage message (itemsAt k (choicesOf values))
    | none => itemsAt k (choicesOf values) = []

/-- A document that carries the messages of several choices whole. -/
def ChatDocument (messages : TreeMap Json) (whole : Json) : Prop :=
  ∀ k : Nat, match messages[k]? with
    | some message => ∃ choice, itemsAt k (choicesOf [whole]) = [choice] ∧ choice.get "message" = some message ∧
        choice.get "delta" = none ∧ (choice.field "text").getD [] = []
    | none => itemsAt k (choicesOf [whole]) = []

end Messages

section Calls

/-- A call as its fragments leave it. -/
def streamedSlot (call : Json) : CallSlot :=
  ⟨call.field "id", callName call, [], ((chatCallInput call).bind Json.asStr).getD []⟩

private theorem filter_ne_nil {o v : Option Str} {s : Str} (hs : s ≠ []) (hv : v = some s) (h : o.getD [] = [] ∨ o = v) :
    o.filter (· ≠ []) = none ∨ o.filter (· ≠ []) = some s := by
  obtain hempty | rfl := h
  · cases o with
    | none => exact .inl rfl
    | some t =>
      change t = [] at hempty
      rw [hempty]
      exact .inl rfl
  · rw [hv]
    exact .inr (by simp [hs])

private theorem foldl_member {member : Json → Option Str} {fragments : List Json} {v : Option Str} {s : Str} (hs : s ≠ [])
    (hv : v = some s) (hall : ∀ fragment ∈ fragments, (member fragment).getD [] = [] ∨ member fragment = v)
    (hone : ∃ fragment ∈ fragments, member fragment = v) (start : Option Str) :
    fragments.foldl (fun held fragment => (member fragment).filter (· ≠ []) <|> held) start = v := by
  rw [foldl_or (fun fragment hfragment => filter_ne_nil hs hv (hall fragment hfragment)), hv]
  apply if_pos
  obtain ⟨fragment, hmem, hfragment⟩ := hone
  apply List.any_eq_true.mpr
  refine ⟨fragment, hmem, ?_⟩
  rw [hfragment, hv]
  simp [hs]

private theorem foldl_applyFragment (fragments : List Json) (slot : CallSlot) :
    fragments.foldl ChatToolCalls.applyFragment slot =
      ⟨fragments.foldl (fun held fragment => (fragment.field "id").filter (· ≠ []) <|> held) slot.callId,
        fragments.foldl (fun held fragment => (callName fragment).filter (· ≠ []) <|> held) slot.name, slot.input,
        slot.streamed ++ fragments.flatMap (fun fragment => ((chatCallInput fragment).bind Json.asStr).getD [])⟩ := by
  induction fragments generalizing slot with
  | nil => simp
  | cons fragment fragments ih =>
    rw [List.foldl_cons, ih, List.foldl_cons, List.foldl_cons, List.flatMap_cons, ← List.append_assoc]
    rfl

/-- The fragments of a call leave that call. -/
theorem StreamsCall.slot {call : Json} {fragments : List Json} (h : StreamsCall call fragments) (hcall : IsChatCall call) :
    fragments.foldl ChatToolCalls.applyFragment .empty = streamedSlot call := by
  obtain ⟨id, hid, hidField⟩ := hcall.id
  obtain ⟨name, hname, hnameField⟩ := hcall.name
  rw [foldl_applyFragment, foldl_member hid hidField h.ids h.id, foldl_member hname hnameField h.names h.name,
    streamedSlot, h.input]
  rfl

theorem entry_streamedSlot {call : Json} (h : IsChatCall call) : (streamedSlot call).entry = messageCallEntry call := by
  obtain ⟨input, hinput⟩ := h.input
  rw [streamedSlot, messageCallEntry, hinput]
  rfl

theorem entry_snapshotSlot (call : Json) : (ChatToolCalls.snapshotSlot call).entry = messageCallEntry call := by
  unfold CallSlot.entry ChatToolCalls.snapshotSlot messageCallEntry
  dsimp only
  split
  · rename_i hempty
    rw [hempty]
  · rfl

/-- Replacing by a snapshot keeps the calls of the message. -/
theorem entries_reconcile (message : Json) :
    ChatToolCalls.entries (ChatToolCalls.reconcile ∅ message) = messageCallEntries message := by
  have hvalues : TreeMap.values (ChatToolCalls.reconcile ∅ message) =
      (toolCalls message).map ChatToolCalls.snapshotSlot := by
    unfold ChatToolCalls.reconcile toolCalls
    cases (message.get "tool_calls").bind Json.asArray with
    | none => exact TreeMap.values_empty
    | some snapshot =>
      apply TreeMap.values_eq
      intro t
      simp only [TreeMap.insert_eq_alter]
      rw [TreeMap.getElem?_foldl_alter (fun call _ => some (ChatToolCalls.snapshotSlot call)), Option.getD_some,
        List.getElem?_map]
      cases snapshot[t]? <;> simp
  rw [ChatToolCalls.entries, hvalues, List.map_map, messageCallEntries]
  apply List.map_congr_left
  intro call _
  exact entry_snapshotSlot call

/-- The deltas of a stream leave the calls of the message. -/
theorem entries_streamedCalls {message : Json} {deltas : List Json} (hcalls : ∀ call ∈ toolCalls message, IsChatCall call)
    (h : ∀ t, match (toolCalls message)[t]? with
      | some call => StreamsCall call (itemsAt t (deltas.flatMap toolCalls))
      | none => itemsAt t (deltas.flatMap toolCalls) = []) :
    ChatToolCalls.entries (deltas.foldl ChatToolCalls.applyDelta ∅) = messageCallEntries message := by
  have hvalues : TreeMap.values (deltas.foldl ChatToolCalls.applyDelta ∅) = (toolCalls message).map streamedSlot := by
    apply TreeMap.values_eq
    intro t
    have hflat : deltas.foldl ChatToolCalls.applyDelta ∅ = (deltas.flatMap toolCalls).foldl (fun calls call =>
        calls.alter (indexField call) (fun slot => some (ChatToolCalls.applyFragment (slot.getD .empty) call))) ∅ := by
      rw [List.foldl_flatMap]
      rfl
    rw [hflat, TreeMap.getElem?_foldl_slot, List.getElem?_map]
    have ht := h t
    change (if itemsAt t (deltas.flatMap toolCalls) = [] then _ else some
      ((itemsAt t (deltas.flatMap toolCalls)).foldl ChatToolCalls.applyFragment _)) = _
    cases hcall : (toolCalls message)[t]? with
    | none =>
      rw [hcall] at ht
      rw [if_pos ht]
      simp
    | some call =>
      rw [hcall] at ht
      have hsome : itemsAt t (deltas.flatMap toolCalls) ≠ [] := by
        obtain ⟨fragment, hmem, _⟩ := ht.id
        exact List.ne_nil_of_mem hmem
      have hslot := ht.slot (hcalls call (List.mem_of_getElem? hcall))
      rw [if_neg hsome]
      simp [hslot]
  rw [ChatToolCalls.entries, hvalues, List.map_map, messageCallEntries]
  apply List.map_congr_left
  intro call hcall
  exact entry_streamedSlot (hcalls call hcall)

end Calls

section Choices

/-- The parts of a string content; an empty one has none. -/
def textParts (text : Str) : MessageParts := if text = [] then ∅ else (∅ : TreeMap Part).insert 0 (.text text)

theorem entries_textParts (text : Str) (role : EntryRole) :
    (textParts text).entries role = ChatChoice.textEntry role text := by
  unfold textParts ChatChoice.textEntry MessageParts.entries
  split
  · rw [TreeMap.values_empty]
    rfl
  · have hvalues : TreeMap.values ((∅ : TreeMap Part).insert 0 (.text text)) = [.text text] := by
      apply TreeMap.values_eq
      rintro (_ | k) <;> simp
    rw [hvalues]
    rfl

theorem textPart_textParts {change : Str → Str} {text : Str} (h : change text ≠ []) :
    (textParts text).textPart 0 change = textParts (change text) := by
  apply ExtTreeMap.ext_getElem?
  intro k
  rw [textParts, textParts, if_neg h, MessageParts.textPart]
  by_cases htext : text = []
  · subst htext
    simp [ExtTreeMap.getElem?_alter, ExtTreeMap.getElem?_insert]
  · rw [if_neg htext]
    by_cases hk : 0 = k
    · subst hk
      simp
    · simp [ExtTreeMap.getElem?_alter, hk]

theorem pushContent_textParts (text : Str) (fragment : Option Str) :
    ChatChoice.pushContent (textParts text) fragment = textParts (text ++ fragment.getD []) := by
  cases fragment with
  | none => simp [ChatChoice.pushContent]
  | some content =>
    by_cases hempty : content = []
    · rw [ChatChoice.pushContent, Option.filter_some, if_neg (by simp [hempty]), hempty]
      simp
    · have hne : text ++ content ≠ [] := List.append_ne_nil_of_right_ne_nil _ hempty
      rw [ChatChoice.pushContent, Option.filter_some, if_pos (decide_eq_true hempty)]
      exact @textPart_textParts (· ++ content) text hne

theorem reconcileContent_string {message : Json} (hcontent : ∀ parts, message.get "content" ≠ some (.arr parts))
    (houtput : message.field "output_text" = none) :
    (∅ : MessageParts).reconcileContent message = textParts ((message.field "content").getD []) := by
  unfold MessageParts.reconcileContent
  split
  · rename_i parts hparts
    exact absurd hparts (hcontent parts)
  · rename_i text htext
    have hfield : message.field "content" = some text := by
      rw [Json.field, htext]
      rfl
    rw [hfield]
    change (if text = [] then (∅ : MessageParts) else _) = textParts text
    by_cases hempty : text = []
    · rw [if_pos hempty, hempty]
      rfl
    · have hreconcile : OpenAi.reconcile [] text = text := by rw [reconcile_eq, if_neg hempty]
      rw [if_neg hempty]
      have hstep := @textPart_textParts (OpenAi.reconcile · text) [] (by rw [hreconcile]; exact hempty)
      rw [hreconcile] at hstep
      exact hstep
  · rename_i hother
    have hnone : (message.field "content").getD [] = [] := by
      rw [Json.field]
      cases hget : message.get "content" with
      | none => rfl
      | some content =>
        cases content with
        | str text => exact absurd hget (hother text)
        | _ => rfl
    rw [hnone, houtput]
    rfl

/-- What a message shows when it is reported: empty texts leave no entry. -/
def reportedMessage (message : Json) : List ConversationEntry :=
  ChatChoice.textEntry .reasoning ((message.field "reasoning_content").getD []) ++
    ChatChoice.textEntry .assistant ((message.field "content").getD []) ++
    ChatChoice.textEntry .assistant ((message.field "refusal").getD []) ++ messageCallEntries message

/-- A choice that carries its message whole reports that message. -/
theorem entries_apply_whole {message choice : Json} (h : IsAssistantMessage message)
    (hmessage : choice.get "message" = some message) (hdelta : choice.get "delta" = none)
    (htext : (choice.field "text").getD [] = []) :
    (ChatChoice.empty.apply choice).entries = reportedMessage message := by
  have hreconcile : ∀ text : Str, OpenAi.reconcile [] text = text := by
    intro text
    rw [reconcile_eq]
    split
    · rename_i hempty
      exact hempty.symm
    · rfl
  have happly : ChatChoice.empty.apply choice = { ChatChoice.empty.reconcile message with
      content := textParts ((message.field "content").getD []) } := by
    rw [ChatChoice.apply, hmessage, hdelta]
    change { ChatChoice.empty.reconcile message with
      content := ChatChoice.pushContent ((∅ : MessageParts).reconcileContent message) (choice.field "text") } = _
    rw [reconcileContent_string h.content h.outputText, pushContent_textParts, htext, List.append_nil]
  rw [happly, ChatChoice.entries, reportedMessage]
  simp only [ChatChoice.reconcile, ChatChoice.empty, hreconcile, entries_textParts, entries_reconcile]

private theorem foldl_apply_deltas {choices : List Json} (h : ∀ choice ∈ choices, choice.get "message" = none ∧
    (choice.field "text").getD [] = []) (text reasoning refusal : Str) (tools : ChatToolCalls) :
    choices.foldl ChatChoice.apply ⟨reasoning, textParts text, refusal, tools⟩ =
      ⟨reasoning ++ spelled "reasoning_content" (choices.filterMap (·.get "delta")),
        textParts (text ++ spelled "content" (choices.filterMap (·.get "delta"))),
        refusal ++ spelled "refusal" (choices.filterMap (·.get "delta")),
        (choices.filterMap (·.get "delta")).foldl ChatToolCalls.applyDelta tools⟩ := by
  induction choices generalizing text reasoning refusal tools with
  | nil => simp [spelled]
  | cons choice choices ih =>
    obtain ⟨hmessage, hnone⟩ := h choice List.mem_cons_self
    have hrest := ih (fun c hc => h c (List.mem_cons_of_mem _ hc))
    rw [List.foldl_cons, ChatChoice.apply, hmessage]
    cases hdelta : choice.get "delta" with
    | none =>
      simp only [List.filterMap_cons, hdelta, Option.elim_none, pushContent_textParts, hnone, List.append_nil]
      exact hrest text reasoning refusal tools
    | some delta =>
      simp only [List.filterMap_cons, hdelta, Option.elim_none, Option.elim_some, ChatChoice.applyDelta, pushContent_textParts, hnone,
        List.append_nil, spelled, List.flatMap_cons, List.foldl_cons]
      rw [hrest]
      simp [spelled]

/-- A choice assembled from a message's deltas reports that message. -/
theorem StreamsMessage.entries {message : Json} {choices : List Json} (h : StreamsMessage message choices)
    (hmessage : IsAssistantMessage message) :
    (choices.foldl ChatChoice.apply .empty).entries = reportedMessage message := by
  have hfold := foldl_apply_deltas h.deltas [] [] [] ∅
  rw [h.reasoning, h.content, h.refusal] at hfold
  change choices.foldl ChatChoice.apply .empty = _ at hfold
  rw [hfold, ChatChoice.entries, reportedMessage]
  simp only [List.nil_append, entries_textParts, entries_streamedCalls hmessage.calls h.calls]

end Choices

section Responses

theorem getElem?_choices (values : List Json) (k : Nat) : ((choicesOf values).foldl ChatResponse.applyChoice ∅)[k]? =
    if itemsAt k (choicesOf values) = [] then none
    else some ((itemsAt k (choicesOf values)).foldl ChatChoice.apply .empty) := by
  have hslot := TreeMap.getElem?_foldl_slot indexField ChatChoice.empty ChatChoice.apply (choicesOf values) ∅ k
  rw [ExtTreeMap.getElem?_empty] at hslot
  exact hslot

/-- Any interleaving of the chunks of several messages reports the messages in the order of their
choices. -/
theorem entries_stream {messages : TreeMap Json} {values : List Json}
    (hmessages : ∀ (k : Nat) message, messages[k]? = some message → IsAssistantMessage message)
    (h : ChatStream messages values) (incomplete : Bool) :
    (ChatResponse.assemble values incomplete).entries = messages.values.flatMap reportedMessage := by
  rw [ChatResponse.assemble]
  apply TreeMap.flatMap_values_congr
  intro k
  have hk := h k
  rw [getElem?_choices]
  cases hmessage : messages[k]? with
  | none =>
    rw [hmessage] at hk
    rw [if_pos hk]
    rfl
  | some message =>
    rw [hmessage] at hk
    rw [if_neg hk.started]
    exact congrArg some (hk.entries (hmessages k message hmessage))

/-- A whole document reports its messages in the order of their choices. -/
theorem entries_document {messages : TreeMap Json} {whole : Json}
    (hmessages : ∀ (k : Nat) message, messages[k]? = some message → IsAssistantMessage message)
    (h : ChatDocument messages whole) (incomplete : Bool) :
    (ChatResponse.assemble [whole] incomplete).entries = messages.values.flatMap reportedMessage := by
  rw [ChatResponse.assemble]
  apply TreeMap.flatMap_values_congr
  intro k
  have hk := h k
  rw [getElem?_choices]
  cases hmessage : messages[k]? with
  | none =>
    rw [hmessage] at hk
    rw [if_pos hk]
    rfl
  | some message =>
    rw [hmessage] at hk
    obtain ⟨choice, hchoice, hwhole, hdelta, htext⟩ := hk
    rw [hchoice, if_neg (List.cons_ne_nil _ _)]
    exact congrArg some (entries_apply_whole (hmessages k message hmessage) hwhole hdelta htext)

end Responses
end Abyss.AgentHook.OpenAi
