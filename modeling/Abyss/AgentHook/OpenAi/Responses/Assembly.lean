import Abyss.AgentHook.OpenAi.Responses.Response

/-! What the output array of one whole document assembles to. -/
namespace Abyss.AgentHook.OpenAi
open Abyss.Text Abyss.PluginProtocol Abyss.Data Std

section Parts

/-- A part of a message after one snapshot of it. -/
def partChange (part : Json) (old : Option Part) : Option Part :=
  match responsePartText part with
  | some shown =>
    if shown = [] then old
    else match old with
      | some (.refusal kept) => some (.refusal kept)
      | _ => some (.text shown)
  | none => if part.kind = some (lit "refusal") then (part.field "refusal").map .refusal <|> old else old

theorem MessageParts.reconcile_alter (parts : MessageParts) (index : Nat) {shown : Str} (hshown : shown ≠ []) :
    parts.reconcile index shown = parts.alter index (fun old => match old with
      | some (.refusal kept) => some (.refusal kept)
      | _ => some (.text shown)) := by
  rw [MessageParts.reconcile, if_neg hshown, MessageParts.textPart]
  apply TreeMap.alter_congr
  cases parts[index]? with
  | none => simp [reconcile_eq, hshown]
  | some old => cases old <;> simp [reconcile_eq, hshown]

theorem MessageParts.reconcilePart_eq (parts : MessageParts) (index : Nat) (part : Json) :
    parts.reconcilePart index part = parts.alter index (partChange part) := by
  unfold MessageParts.reconcilePart
  cases hshown : responsePartText part with
  | some shown =>
    change parts.reconcile index shown = _
    by_cases hempty : shown = []
    · rw [TreeMap.alter_eq_self (by simp only [partChange, hshown, hempty, if_true]), MessageParts.reconcile,
        if_pos hempty]
    · apply (parts.reconcile_alter index hempty).trans
      apply TreeMap.alter_congr
      simp only [partChange, hshown, hempty, if_false]
  | none =>
    by_cases hrefusal : part.kind = some (lit "refusal")
    · cases hfield : part.field "refusal" with
      | none =>
        rw [TreeMap.alter_eq_self (by simp [partChange, hshown, hfield])]
        simp [hrefusal]
      | some refusal =>
        simp only [hrefusal, if_true, TreeMap.insert_eq_alter]
        apply TreeMap.alter_congr
        simp [partChange, hshown, hrefusal, hfield]
    · rw [TreeMap.alter_eq_self (by simp [partChange, hshown, hrefusal])]
      simp [hrefusal]

/-- The parts of a content array, read into a message without parts. -/
theorem values_reconcileContent {message : Json} {content : List Json} (h : message.get "content" = some (.arr content)) :
    TreeMap.values (MessageParts.reconcileContent ∅ message) = content.filterMap (partChange · none) := by
  apply TreeMap.values_eq_filterMap
  intro k
  have hfold : MessageParts.reconcileContent ∅ message =
      content.zipIdx.foldl (fun parts p => parts.alter p.2 (partChange p.1)) (∅ : MessageParts) := by
    simp only [MessageParts.reconcileContent, h, MessageParts.reconcilePart_eq]
  rw [hfold, TreeMap.getElem?_foldl_alter]
  cases content[k]? <;> simp

end Parts

section Reasoning

theorem snd_indexedTexts (parts : List Json) : (indexedTexts parts).map Prod.snd = parts.filterMap partText := by
  have hpair : (fun p : Json × Nat => ((partText p.1).map (p.2, ·)).map Prod.snd) = partText ∘ Prod.fst := by
    funext p
    cases hpart : partText p.1 <;> simp [hpart]
  rw [indexedTexts, List.map_filterMap, hpair, ← List.filterMap_map, List.zipIdx_map_fst]

theorem partText_ne_nil {part : Json} {shown : Str} (h : partText part = some shown) : shown ≠ [] := by
  have hkept := (Option.filter_eq_some_iff.mp h).2
  exact of_decide_eq_true hkept

/-- Reading indexed texts into a reasoning body replaces each indexed text. -/
theorem foldl_indexedTexts (parts : List Json) (texts : TreeMap Str) :
    (indexedTexts parts).foldl (fun (body : SlotBody) p => body.reconcile p.1 p.2) (.reasoning texts) =
      .reasoning (parts.zipIdx.foldl (fun texts p => texts.alter p.2 (fun old => partText p.1 <|> old)) texts) := by
  rw [indexedTexts, List.foldl_filterMap]
  generalize parts.zipIdx = pairs
  induction pairs generalizing texts with
  | nil => rfl
  | cons p pairs ih =>
    rw [List.foldl_cons, List.foldl_cons, ← ih]
    congr 1
    cases hpart : partText p.1 with
    | none => exact congrArg SlotBody.reasoning (TreeMap.alter_eq_self rfl).symm
    | some shown =>
      simp only [Option.map_some, SlotBody.reconcile, partText_ne_nil hpart, if_false, SlotBody.textPart, reconcile_eq]
      rfl

/-- The texts of a list of parts, read into a reasoning body without parts, in order. -/
theorem values_indexedTexts (parts : List Json) :
    ∃ texts : TreeMap Str, (indexedTexts parts).foldl (fun (body : SlotBody) p => body.reconcile p.1 p.2) (.reasoning ∅) =
      .reasoning texts ∧ TreeMap.values texts = (indexedTexts parts).map Prod.snd := by
  refine ⟨_, foldl_indexedTexts parts ∅, ?_⟩
  rw [snd_indexedTexts]
  apply TreeMap.values_eq_filterMap
  intro k
  rw [TreeMap.getElem?_foldl_alter (fun part old => partText part <|> old)]
  cases parts[k]? with
  | none => simp
  | some part => cases hpart : partText part <;> simp [hpart]

end Reasoning

section Output

/-- The slot of an item that is reported once. -/
def itemSlot (item : Json) : ResponsesSlot := ResponsesResponse.emptyMessage.reconcileOutputItem item

theorem values_applyOutput (output : List Json) :
    TreeMap.values (ResponsesResponse.applyOutput ∅ output) = output.map itemSlot := by
  apply TreeMap.values_eq
  intro k
  unfold ResponsesResponse.applyOutput ResponsesResponse.slot
  rw [TreeMap.getElem?_foldl_alter (fun item found =>
    some ((found.getD ResponsesResponse.emptyMessage).reconcileOutputItem item)), List.getElem?_map]
  cases output[k]? <;> simp [itemSlot]

/-- A document that is no stream event. -/
theorem ResponsesResponse.applyEvent_untyped {slots : Slots} {value : Json} (h : value.field "type" = none) :
    ResponsesResponse.applyEvent slots value = none := by
  simp [ResponsesResponse.applyEvent, h, ResponsesResponse.textDeltas, ResponsesResponse.textDones,
    ResponsesResponse.partDones, ResponsesResponse.inputDeltas, ResponsesResponse.itemEvents,
    ResponsesResponse.terminalSnapshots]

/-- A whole document assembles to the entries of its items, in order. -/
theorem entries_whole {value : Json} {output : List Json} (huntyped : value.field "type" = none)
    (houtput : value.get "output" = some (.arr output)) (incomplete : Bool) :
    (ResponsesResponse.assemble [value] incomplete).entries = output.flatMap (fun item => (itemSlot item).entries) := by
  have hslots : ResponsesResponse.apply ∅ value = ResponsesResponse.applyOutput ∅ output := by
    rw [ResponsesResponse.apply, ResponsesResponse.applyEvent_untyped huntyped, Option.getD_none,
      ResponsesResponse.applyDocument, houtput]
    rfl
  simp only [ResponsesResponse.assemble, List.foldl_cons, List.foldl_nil, hslots, values_applyOutput, List.flatMap_map]

end Output

section Item

theorem reasoningParts_eq {item : Json} {found : List (Nat × Str)} (h : reasoningParts item = some found) :
    ∃ parts, found = indexedTexts parts := by
  obtain ⟨key, _, hkey⟩ := List.exists_of_findSome?_eq_some h
  obtain ⟨parts, _, hparts⟩ := Option.bind_eq_some_iff.mp hkey
  refine ⟨parts, ?_⟩
  split at hparts
  · cases hparts
  · exact (Option.some.inj hparts).symm

/-- The body of a reported reasoning item joins to the item's text. -/
theorem join_reasoningParts (item : Json) :
    ∃ texts : TreeMap Str, ((reasoningParts item).getD []).foldl (fun (body : SlotBody) p => body.reconcile p.1 p.2)
      (.reasoning ∅) = .reasoning texts ∧ join (lit "\n") (TreeMap.values texts) = (reasoningText item).getD [] := by
  unfold reasoningText
  cases hfound : reasoningParts item with
  | none => exact ⟨∅, rfl, by simp [join]⟩
  | some found =>
    obtain ⟨parts, rfl⟩ := reasoningParts_eq hfound
    obtain ⟨texts, hbody, hvalues⟩ := values_indexedTexts parts
    refine ⟨texts, hbody, ?_⟩
    rw [hvalues]
    rfl

/-- The entries of one reported item, by the item-to-role table. -/
theorem entries_itemSlot (item : Json) : (itemSlot item).entries = ConversationProjection.identify
    (if item.kind = some (lit "reasoning") then
      [ConversationProjection.text .reasoning ((reasoningText item).getD [])]
    else if item.kind.any (endsWith · (lit "_call")) then [callEntry item]
    else if item.kind.any (endsWith · (lit "_output")) then [outputEntry item]
    else (MessageParts.reconcileContent ∅ item).entries
      (((item.field "role").map ConversationProjection.role).getD .assistant))
    (item.field "id") := by
  have hid : (item.field "id" <|> (none : Option Str)) = item.field "id" := by cases item.field "id" <;> rfl
  simp only [itemSlot, ResponsesSlot.entries, ResponsesSlot.reconcileOutputItem, ResponsesSlot.reconcileItem,
    ResponsesResponse.emptyMessage, ResponsesSlot.new, SlotBody.forItem, hid]
  by_cases hreasoning : item.kind = some (lit "reasoning")
  · obtain ⟨texts, hbody, hjoin⟩ := join_reasoningParts item
    simp only [hreasoning, if_true, SlotBody.sameKind, Bool.false_eq_true, if_false, hbody, hjoin]
  · simp only [hreasoning, if_false]
    by_cases hcall : item.kind.any (endsWith · (lit "_call")) = true
    · simp only [hcall, if_true, SlotBody.sameKind, Bool.false_eq_true, if_false]
      by_cases hinput : callInput item = []
      · simp [reconcileCall, CallSlot.empty, CallSlot.entry, callEntry, hinput]
      · simp [reconcileCall, CallSlot.empty, CallSlot.entry, callEntry, hinput]
    · simp only [hcall, Bool.false_eq_true, if_false]
      by_cases houtput : item.kind.any (endsWith · (lit "_output")) = true
      · simp only [houtput, if_true, SlotBody.sameKind, Bool.false_eq_true, if_false]
      · simp only [houtput, Bool.false_eq_true, if_false, SlotBody.sameKind, if_true]

end Item

/-! A snapshot that is applied again. -/
section Republished

theorem partChange_idem (part : Json) (old : Option Part) : partChange part (partChange part old) = partChange part old := by
  unfold partChange
  cases hshown : responsePartText part with
  | some shown =>
    simp only
    by_cases hempty : shown = []
    · rw [if_pos hempty, if_pos hempty]
    · simp only [if_neg hempty]
      cases old with
      | none => rfl
      | some held => cases held <;> rfl
  | none =>
    simp only
    by_cases hrefusal : part.kind = some (lit "refusal")
    · simp only [if_pos hrefusal]
      cases part.field "refusal" <;> rfl
    · simp only [if_neg hrefusal]

theorem MessageParts.reconcile_idem (parts : MessageParts) (index : Nat) (shown : Str) :
    (parts.reconcile index shown).reconcile index shown = parts.reconcile index shown := by
  by_cases hempty : shown = []
  · simp only [MessageParts.reconcile, if_pos hempty]
  · rw [MessageParts.reconcile_alter _ _ hempty, MessageParts.reconcile_alter _ _ hempty]
    refine TreeMap.alter_idem ?_ parts index
    intro old
    cases old with
    | none => rfl
    | some held => cases held <;> rfl

theorem MessageParts.reconcileContent_idem (parts : MessageParts) (message : Json) :
    (parts.reconcileContent message).reconcileContent message = parts.reconcileContent message := by
  have hfallback : ∀ parts : MessageParts,
      (match message.field "output_text" with
        | some content =>
          (match message.field "output_text" with
            | some content => parts.reconcile 0 content
            | none => parts).reconcile 0 content
        | none =>
          match message.field "output_text" with
          | some content => parts.reconcile 0 content
          | none => parts) =
        match message.field "output_text" with
        | some content => parts.reconcile 0 content
        | none => parts := by
    intro parts
    cases message.field "output_text" with
    | none => rfl
    | some content => exact parts.reconcile_idem 0 content
  unfold MessageParts.reconcileContent
  cases message.get "content" with
  | none => exact hfallback parts
  | some content =>
    cases content with
    | arr content =>
      simp only [MessageParts.reconcilePart_eq]
      exact TreeMap.foldl_alter_idem partChange_idem content parts
    | str content => exact parts.reconcile_idem 0 content
    | null => exact hfallback parts
    | bool b => exact hfallback parts
    | num n => exact hfallback parts
    | obj members => exact hfallback parts

theorem reconcileCall_idem (call : CallSlot) (item : Json) : reconcileCall (reconcileCall call item) item = reconcileCall call item := by
  unfold reconcileCall
  cases item.field "call_id" <;> cases item.field "name" <;> by_cases hinput : callInput item = [] <;> simp [hinput]

theorem foldl_reasoningParts_idem (item : Json) (texts : TreeMap Str) :
    ∃ texts' : TreeMap Str,
      ((reasoningParts item).getD []).foldl (fun (body : SlotBody) p => body.reconcile p.1 p.2) (.reasoning texts) =
        .reasoning texts' ∧
      ((reasoningParts item).getD []).foldl (fun (body : SlotBody) p => body.reconcile p.1 p.2) (.reasoning texts') =
        .reasoning texts' := by
  cases hparts : reasoningParts item with
  | none => exact ⟨texts, rfl, rfl⟩
  | some found =>
    obtain ⟨parts, rfl⟩ := reasoningParts_eq hparts
    refine ⟨_, foldl_indexedTexts parts texts, ?_⟩
    rw [Option.getD_some, foldl_indexedTexts]
    refine congrArg SlotBody.reasoning (@TreeMap.foldl_alter_idem _ _ (fun part old => partText part <|> old) ?_ parts texts)
    intro part old
    cases partText part <;> rfl

theorem ResponsesSlot.reconcileItem_idem (slot : ResponsesSlot) (item : Json) :
    (slot.reconcileItem item).reconcileItem item = slot.reconcileItem item := by
  unfold ResponsesSlot.reconcileItem
  congr 1
  simp only
  cases hempty : SlotBody.forItem item.kind with
  | message empty =>
    obtain ⟨parts, hstart⟩ : ∃ parts, (if (SlotBody.message empty).sameKind slot.body then slot.body else .message empty) =
        .message parts := by
      cases slot.body <;> exact ⟨_, rfl⟩
    rw [hstart]
    exact congrArg SlotBody.message (parts.reconcileContent_idem item)
  | reasoning empty =>
    obtain ⟨texts, hstart⟩ : ∃ texts, (if (SlotBody.reasoning empty).sameKind slot.body then slot.body else .reasoning empty) =
        .reasoning texts := by
      cases slot.body <;> exact ⟨_, rfl⟩
    obtain ⟨texts', honce, htwice⟩ := foldl_reasoningParts_idem item texts
    rw [hstart]
    simp only [honce]
    exact htwice
  | toolCall empty =>
    obtain ⟨call, hstart⟩ : ∃ call, (if (SlotBody.toolCall empty).sameKind slot.body then slot.body else .toolCall empty) =
        .toolCall call := by
      cases slot.body <;> exact ⟨_, rfl⟩
    rw [hstart]
    exact congrArg SlotBody.toolCall (reconcileCall_idem call item)
  | toolResult empty =>
    obtain ⟨entry, hstart⟩ : ∃ entry, (if (SlotBody.toolResult empty).sameKind slot.body then slot.body else .toolResult empty) =
        .toolResult entry := by
      cases slot.body <;> exact ⟨_, rfl⟩
    rw [hstart]
    rfl

theorem ResponsesSlot.reconcileOutputItem_idem (slot : ResponsesSlot) (item : Json) :
    (slot.reconcileOutputItem item).reconcileOutputItem item = slot.reconcileOutputItem item := by
  have hitem : ∀ itemId, ({ slot.reconcileItem item with itemId }).reconcileItem item =
      { slot.reconcileItem item with itemId } := by
    intro itemId
    have hsame := slot.reconcileItem_idem item
    change { (slot.reconcileItem item).reconcileItem item with itemId } = _
    rw [hsame]
  unfold ResponsesSlot.reconcileOutputItem
  rw [hitem]
  cases item.field "id" <;> rfl

namespace ResponsesResponse

/-- An output array that was applied is applied again without effect. -/
theorem applyOutput_idem (slots : Slots) (output : List Json) :
    applyOutput (applyOutput slots output) output = applyOutput slots output := by
  refine @TreeMap.foldl_alter_idem _ _ (fun item found => some ((found.getD emptyMessage).reconcileOutputItem item)) ?_
    output slots
  intro item found
  exact congrArg some ((found.getD emptyMessage).reconcileOutputItem_idem item)

/-- A value that publishes an output array: a terminal stream event with it, or a non-streaming document of it. -/
inductive Publishes (output : List Json) (value : Json) : Prop where
  | terminal {kind : Str} (hkind : kind ∈ terminalSnapshots) (htype : value.field "type" = some kind)
      (houtput : ((value.get "response").bind (·.get "output")).bind Json.asArray = some output)
  | document (huntyped : value.field "type" = none) (houtput : (value.get "output").bind Json.asArray = some output)

theorem apply_publishes {output : List Json} {value : Json} (h : Publishes output value) (slots : Slots) :
    apply slots value = applyOutput slots output := by
  cases h with
  | terminal hkind htype houtput =>
    simp only [terminalSnapshots, List.mem_cons, List.not_mem_nil, or_false] at hkind
    obtain rfl | rfl := hkind
    · simp [apply, applyEvent, htype, houtput, textDeltas, textDones, partDones, inputDeltas, itemEvents, terminalSnapshots]
    · simp [apply, applyEvent, htype, houtput, textDeltas, textDones, partDones, inputDeltas, itemEvents, terminalSnapshots]
  | document huntyped houtput =>
    rw [apply, applyEvent_untyped huntyped, Option.getD_none, applyDocument, houtput]

theorem foldl_publishes {output values : List Json} (h : ∀ value ∈ values, Publishes output value) {slots : Slots}
    (hslots : applyOutput slots output = slots) : values.foldl apply slots = slots := by
  induction values with
  | nil => rfl
  | cons value values ih =>
    rw [List.foldl_cons, apply_publishes (h value List.mem_cons_self), hslots]
    exact ih (fun v hv => h v (List.mem_cons_of_mem _ hv))

/-- A republished terminal snapshot leaves the assembled entries alone, whatever came before the first one. -/
theorem entries_republished {documents republished : List Json} {completed : Json} {output : List Json} (incomplete : Bool)
    (hcompleted : completed.field "type" = some (lit "response.completed"))
    (houtput : ((completed.get "response").bind (·.get "output")).bind Json.asArray = some output)
    (hrepublished : ∀ value ∈ republished, Publishes output value) :
    (assemble (documents ++ completed :: republished) incomplete).entries =
      (assemble (documents ++ [completed]) incomplete).entries := by
  have hterminal : Publishes output completed := .terminal List.mem_cons_self hcompleted houtput
  simp only [assemble, List.foldl_append, List.foldl_cons, List.foldl_nil]
  rw [foldl_publishes hrepublished]
  rw [apply_publishes hterminal, applyOutput_idem]

/-- A terminal event with the output array of one message. -/
def sampleCompleted : Json :=
  .obj [(lit "type", .str (lit "response.completed")),
    (lit "response", .obj [(lit "output", .arr [.obj [(lit "content", .str (lit "done"))]])])]

/-- The document that holds the same output array. -/
def sampleWhole : Json := .obj [(lit "output", .arr [.obj [(lit "content", .str (lit "done"))]])]

theorem sample_republished :
    (assemble [sampleCompleted, sampleCompleted, sampleWhole] false).entries = (assemble [sampleCompleted] false).entries := by
  have htype : sampleCompleted.field "type" = some (lit "response.completed") := by simp [sampleCompleted, Json.field, Json.asStr]
  have houtput : ((sampleCompleted.get "response").bind (·.get "output")).bind Json.asArray =
      some [.obj [(lit "content", .str (lit "done"))]] := by
    simp [sampleCompleted, Json.asArray]
  refine @entries_republished [] [sampleCompleted, sampleWhole] sampleCompleted _ false htype houtput ?_
  intro value hvalue
  simp only [List.mem_cons, List.not_mem_nil, or_false] at hvalue
  obtain rfl | rfl := hvalue
  · exact .terminal List.mem_cons_self htype houtput
  · exact .document (by simp [sampleWhole, Json.field]) (by simp [sampleWhole, Json.asArray])

end ResponsesResponse
end Republished
end Abyss.AgentHook.OpenAi
