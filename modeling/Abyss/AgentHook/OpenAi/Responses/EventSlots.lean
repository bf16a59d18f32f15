import Abyss.AgentHook.OpenAi.Responses.EventStream

/-! What the events of a stream do to the slots of their items. -/
namespace Abyss.AgentHook.OpenAi
open Abyss.Text Abyss.PluginProtocol Abyss.Data Std

section Slots
variable {item value : Json} {k : Nat} {e : ItemEvent}

/-- The slot of an item before its first event. -/
def started (item : Json) : ResponsesSlot := .new (SlotBody.forItem item.kind)

/-- What an event does to the slot of its item. -/
def ItemEvent.step (item : Json) : ItemEvent → ResponsesSlot → ResponsesSlot
  | .added shown, slot => slot.reconcileOutputItem shown
  | .delta _ index piece, slot => { slot with body := slot.body.textPart index (· ++ piece) }
  | .textDone source index, slot | .partDone source index, slot => slot.reconcile index ((source.text item index).getD [])
  | .inputDelta piece, slot => ResponsesResponse.pushInput piece slot
  | .itemDone, slot => slot.reconcileOutputItem item
  | .other, slot => slot

theorem forItem_eq (itemType : Option Str) : SlotBody.forItem itemType = match ItemKind.of itemType with
    | .message => .message ∅
    | .reasoning => .reasoning ∅
    | .toolCall => .toolCall .empty
    | .toolResult => .toolResult (ConversationProjection.toolResult none []) := by
  unfold SlotBody.forItem ItemKind.of
  split <;> rename_i h₁
  · rfl
  · split <;> rename_i h₂
    · rfl
    · split <;> rfl

/-- A snapshot reads the same into a slot that a message started as into one of its own kind. -/
theorem reconcileOutputItem_started (h : value.kind = item.kind) :
    ResponsesResponse.emptyMessage.reconcileOutputItem value = (started item).reconcileOutputItem value := by
  simp only [ResponsesSlot.reconcileOutputItem, ResponsesSlot.reconcileItem, started, ResponsesResponse.emptyMessage,
    ResponsesSlot.new, h, forItem_eq]
  cases ItemKind.of item.kind <;> rfl

private theorem slot_getElem? (slots : Slots) (fresh : ResponsesSlot) (change : ResponsesSlot → ResponsesSlot) (j : Nat) :
    (ResponsesResponse.slot slots k fresh change)[j]? = if k = j then some (change (slots[k]?.getD fresh)) else slots[j]? := by
  rw [ResponsesResponse.slot, ExtTreeMap.getElem?_alter]
  simp

/-- One event changes the slot of its item only, which an added item starts. -/
private def Advances (item : Json) (k : Nat) (e : ItemEvent) (slots slots' : Slots) : Prop :=
  (∀ j : Nat, j ≠ k → slots'[j]? = slots[j]?) ∧
    ((slots[k]?).isSome ∨ (∃ shown, e = .added shown) → slots'[k]? = some (e.step item (slots[k]?.getD (started item))))

private theorem advances_slot {slots : Slots} {fresh : ResponsesSlot} {change : ResponsesSlot → ResponsesSlot}
    (hfresh : ∀ shown, e = .added shown → change fresh = e.step item (started item))
    (hchange : ∀ slot, change slot = e.step item slot) :
    Advances item k e slots (ResponsesResponse.slot slots k fresh change) := by
  constructor
  · intro j hj
    rw [slot_getElem?, if_neg (Ne.symm hj)]
  · intro hopen
    rw [slot_getElem?, if_pos rfl]
    cases hfound : slots[k]? with
    | none =>
      obtain hsome | ⟨shown, hadded⟩ := hopen
      · rw [hfound] at hsome
        cases hsome
      · exact congrArg some (hfresh shown hadded)
    | some slot => exact congrArg some (hchange slot)

private theorem advances_self {slots : Slots} (hadded : ∀ shown, e ≠ .added shown) (hstep : ∀ slot, e.step item slot = slot) :
    Advances item k e slots slots := by
  refine ⟨fun _ _ => rfl, fun hopen => ?_⟩
  obtain hsome | ⟨shown, rfl⟩ := hopen
  · obtain ⟨slot, hslot⟩ := Option.isSome_iff_exists.mp hsome
    rw [hslot, Option.getD_some, hstep]
  · exact absurd rfl (hadded shown)

private theorem HasIndex.read {key : String} {n : Nat} (h : HasIndex value key n) :
    ((value.index key).asU64.getD 0).toNat = n := by
  obtain ⟨u, hget, rfl⟩ := h
  rw [Json.index, hget]
  rfl

private theorem HasPartIndex.read {source : TextSource} {n : Nat} (h : HasPartIndex value source n) :
    ((((value.get "content_index").or (value.get "summary_index")).bind Json.asU64).getD 0).toNat = n := by
  cases source with
  | output | reasoning =>
    obtain ⟨u, hget, rfl⟩ := h
    rw [hget]
    rfl
  | summary =>
    obtain ⟨hnone, u, hget, rfl⟩ := h
    rw [hnone, hget]
    rfl

theorem part_kind {source : TextSource} {index : Nat} {part : Json} (h : source.part item index = some part) :
    ItemKind.of item.kind = source.itemKind ∧ part.kind = some source.partType := by
  unfold TextSource.part at h
  split at h
  · rename_i hkind
    exact ⟨hkind, of_decide_eq_true (Option.filter_eq_some_iff.mp h).2⟩
  · cases h

theorem text_kind {source : TextSource} {index : Nat} (h : (source.text item index).isSome) :
    ItemKind.of item.kind = source.itemKind := by
  obtain ⟨text, htext⟩ := Option.isSome_iff_exists.mp h
  obtain ⟨part, hpart, _⟩ := Option.bind_eq_some_iff.mp htext
  exact (part_kind hpart).1

/-- A typed text part shows its text. -/
private theorem responsePartText_part {source : TextSource} {part : Json} (h : part.kind = some source.partType) :
    responsePartText part = part.field "text" := by
  cases part with
  | obj members =>
    have htype : source.partType ∈ textPartTypes := by
      cases source <;> simp [TextSource.partType, textPartTypes]
    simp [responsePartText, Json.asObject, h, htype]
  | _ => cases h

/-- A snapshot of an item is read into the slot at its index. -/
private theorem apply_item {kind : Str} (hkind : kind ∈ ResponsesResponse.itemEvents) (htype : value.field "type" = some kind)
    (hindex : HasIndex value "output_index" k) {shown : Json} (hitem : value.get "item" = some shown) (slots : Slots) :
    ResponsesResponse.apply slots value =
      ResponsesResponse.slot slots k ResponsesResponse.emptyMessage (·.reconcileOutputItem shown) := by
  simp only [ResponsesResponse.itemEvents, List.mem_cons, List.not_mem_nil, or_false] at hkind
  obtain rfl | rfl := hkind <;>
    simp [ResponsesResponse.apply, ResponsesResponse.applyEvent, htype, hindex.read, hitem, ResponsesResponse.textDeltas,
      ResponsesResponse.textDones, ResponsesResponse.partDones, ResponsesResponse.inputDeltas, ResponsesResponse.itemEvents]

private theorem advances_reports (h : Reports item k e value) (slots : Slots) :
    Advances item k e slots (ResponsesResponse.apply slots value) := by
  cases h with
  | added htype hindex hitem hshown =>
    rw [apply_item List.mem_cons_self htype hindex hitem]
    exact advances_slot (fun _ _ => reconcileOutputItem_started hshown.kind) (fun _ => rfl)
  | itemDone htype hindex hitem =>
    rw [apply_item (List.mem_cons_of_mem _ List.mem_cons_self) htype hindex hitem]
    apply advances_slot
    · intro shown hadded
      cases hadded
    · intro slot
      rfl
  | @delta _ source index piece htype hindex hpart hpiece htext =>
    have hmem : source.deltaType ∈ ResponsesResponse.textDeltas := by
      cases source <;> simp [TextSource.deltaType, ResponsesResponse.textDeltas]
    have happly : ResponsesResponse.apply slots value = ResponsesResponse.slot slots k (.forTextEvent source.deltaType)
        (fun s => { s with body := s.body.textPart index (· ++ piece) }) := by
      simp [ResponsesResponse.apply, ResponsesResponse.applyEvent, htype, hindex.read, hpart.read, hpiece, hmem]
    rw [happly]
    apply advances_slot
    · intro shown hadded
      cases hadded
    · intro slot
      rfl
  | @textDone _ source index text htype hindex hpart htext hfull =>
    have hdelta : source.doneType ∉ ResponsesResponse.textDeltas := by
      cases source <;> simp [TextSource.doneType, ResponsesResponse.textDeltas]
    have hdone : source.doneType ∈ ResponsesResponse.textDones := by
      cases source <;> simp [TextSource.doneType, ResponsesResponse.textDones]
    have happly : ResponsesResponse.apply slots value = ResponsesResponse.slot slots k (.forTextEvent source.doneType)
        (·.reconcile index text) := by
      simp [ResponsesResponse.apply, ResponsesResponse.applyEvent, htype, hindex.read, hpart.read, hfull, hdelta, hdone]
    rw [happly]
    apply advances_slot
    · intro shown hadded
      cases hadded
    · intro slot
      rw [ItemEvent.step, htext, Option.getD_some]
  | @partDone _ part source index htype hindex hpart hfound hfull =>
    have hdelta : source.partDoneType ∉ ResponsesResponse.textDeltas := by
      cases source <;> simp [TextSource.partDoneType, ResponsesResponse.textDeltas]
    have hdone : source.partDoneType ∉ ResponsesResponse.textDones := by
      cases source <;> simp [TextSource.partDoneType, ResponsesResponse.textDones]
    have hmem : source.partDoneType ∈ ResponsesResponse.partDones := by
      cases source <;> simp [TextSource.partDoneType, ResponsesResponse.partDones]
    have hshown : responsePartText part = source.text item index := by
      rw [responsePartText_part (part_kind hfound).2, TextSource.text, hfound, Option.bind_some]
    cases htext : source.text item index with
    | none =>
      have happly : ResponsesResponse.apply slots value = slots := by
        simp [ResponsesResponse.apply, ResponsesResponse.applyEvent, htype, hfull, hdelta, hdone, hmem, hshown, htext]
      rw [happly]
      apply advances_self
      · intro shown hadded
        cases hadded
      · intro slot
        rw [ItemEvent.step, htext]
        rfl
    | some text =>
      have happly : ResponsesResponse.apply slots value = ResponsesResponse.slot slots k (.forTextEvent source.partDoneType)
          (·.reconcile index text) := by
        simp [ResponsesResponse.apply, ResponsesResponse.applyEvent, htype, hindex.read, hpart.read, hfull, hdelta, hdone,
          hmem, hshown, htext]
      rw [happly]
      apply advances_slot
      · intro shown hadded
        cases hadded
      · intro slot
        rw [ItemEvent.step, htext, Option.getD_some]
  | @inputDelta _ kind piece hkind htype hindex hpiece hcall =>
    have happly : ResponsesResponse.apply slots value =
        ResponsesResponse.slot slots k (.new (.toolCall .empty)) (ResponsesResponse.pushInput piece) := by
      simp only [ResponsesResponse.inputDeltas, List.mem_cons, List.not_mem_nil, or_false] at hkind
      obtain rfl | rfl := hkind <;>
        simp [ResponsesResponse.apply, ResponsesResponse.applyEvent, htype, hindex.read, hpiece,
          ResponsesResponse.textDeltas, ResponsesResponse.textDones, ResponsesResponse.partDones,
          ResponsesResponse.inputDeltas]
    rw [happly]
    apply advances_slot
    · intro shown hadded
      cases hadded
    · intro slot
      rfl
  | @other _ kind hkind htype hdocument =>
    have happly : ResponsesResponse.apply slots value = slots := by
      have hevent : ResponsesResponse.applyEvent slots value = none := by
        simp only [otherEvents, List.mem_cons, List.not_mem_nil, or_false] at hkind
        simp only [ResponsesResponse.applyEvent, htype, Option.getD_some]
        obtain rfl | rfl | rfl | rfl | rfl | rfl | rfl | rfl | rfl | rfl := hkind <;>
          simp [ResponsesResponse.textDeltas, ResponsesResponse.textDones, ResponsesResponse.partDones,
            ResponsesResponse.inputDeltas, ResponsesResponse.itemEvents, ResponsesResponse.terminalSnapshots]
      simp [ResponsesResponse.apply, hevent, ResponsesResponse.applyDocument, hdocument]
    rw [happly]
    apply advances_self
    · intro shown hadded
      cases hadded
    · intro slot
      rfl

/-- A run of events changes the slot of an item by the events of that item alone. -/
theorem getElem?_foldl_reports {output values : List Json} {events : List (Nat × ItemEvent)}
    (h : List.Forall₂ (fun e value => ∃ item, output[e.1]? = some item ∧ Reports item e.1 e.2 value) events values)
    (hitem : output[k]? = some item) (slots : Slots)
    (hopen : (slots[k]?).isSome ∨ ∀ e rest, ofItem k events = e :: rest → ∃ shown, e = .added shown) :
    (values.foldl ResponsesResponse.apply slots)[k]? = if ofItem k events = [] then slots[k]?
      else some ((ofItem k events).foldl (fun slot e => e.step item slot) (slots[k]?.getD (started item))) := by
  induction h generalizing slots with
  | nil => rfl
  | @cons e value events values hreport _ ih =>
    obtain ⟨item', hitem', hreports⟩ := hreport
    have hadvances := advances_reports hreports slots
    rw [List.foldl_cons]
    by_cases hk : e.1 = k
    · rw [hk, hitem] at hitem'
      obtain rfl := Option.some.inj hitem'
      have hof : ofItem k (e :: events) = e.2 :: ofItem k events := by simp [ofItem, hk]
      have hslot : (ResponsesResponse.apply slots value)[k]? = some (e.2.step item (slots[k]?.getD (started item))) := by
        rw [hk] at hadvances
        exact hadvances.2 (hopen.imp_right (fun h => h _ _ hof))
      rw [ih _ (.inl (by rw [hslot]; rfl)), hof, if_neg (List.cons_ne_nil _ _), List.foldl_cons, hslot]
      split
      · rename_i hnil
        rw [hnil]
        rfl
      · rfl
    · have hof : ofItem k (e :: events) = ofItem k events := by simp [ofItem, hk]
      have hslot := hadvances.1 k (Ne.symm hk)
      rw [hof] at hopen ⊢
      rw [ih _ (by rwa [hslot]), hslot]

theorem getElem?_foldl_outside {output values : List Json} {events : List (Nat × ItemEvent)}
    (h : List.Forall₂ (fun e value => ∃ item, output[e.1]? = some item ∧ Reports item e.1 e.2 value) events values)
    (houtside : output[k]? = none) (slots : Slots) : (values.foldl ResponsesResponse.apply slots)[k]? = slots[k]? := by
  induction h generalizing slots with
  | nil => rfl
  | @cons e value events values hreport _ ih =>
    obtain ⟨item', hitem', hreports⟩ := hreport
    have hk : k ≠ e.1 := by
      rintro rfl
      rw [houtside] at hitem'
      cases hitem'
    rw [List.foldl_cons, ih, (advances_reports hreports slots).1 k hk]

/-- The slots of a completed stream: each item's events, and then the item itself. -/
theorem values_streamed {output values : List Json} {events : List (Nat × ItemEvent)} {terminal : Json}
    (h : Streams output events values) (hterminal : Completed output terminal) :
    TreeMap.values ((values ++ [terminal]).foldl ResponsesResponse.apply ∅) = output.zipIdx.map (fun p =>
      ((ofItem p.2 events).foldl (fun slot e => e.step p.1 slot) (started p.1)).reconcileOutputItem p.1) := by
  apply TreeMap.values_eq
  intro k
  have hlast : ∀ slots, ResponsesResponse.apply slots terminal = ResponsesResponse.applyOutput slots output := by
    intro slots
    simp [ResponsesResponse.apply, ResponsesResponse.applyEvent, hterminal.kind, hterminal.carries, Json.asArray,
      ResponsesResponse.textDeltas, ResponsesResponse.textDones, ResponsesResponse.partDones, ResponsesResponse.inputDeltas,
      ResponsesResponse.itemEvents, ResponsesResponse.terminalSnapshots]
  rw [List.foldl_append, List.foldl_cons, List.foldl_nil, hlast]
  unfold ResponsesResponse.applyOutput ResponsesResponse.slot
  rw [TreeMap.getElem?_foldl_alter (fun item found =>
    some ((found.getD ResponsesResponse.emptyMessage).reconcileOutputItem item)), List.getElem?_map, List.getElem?_zipIdx]
  cases hitem : output[k]? with
  | none =>
    rw [getElem?_foldl_outside h.reports hitem]
    simp
  | some item =>
    obtain ⟨shown, rest, hof⟩ := h.opened k item hitem
    have hfound := getElem?_foldl_reports h.reports hitem ∅ (.inr (by rintro e _ he; rw [hof] at he; cases he; exact ⟨shown, rfl⟩))
    rw [hfound, hof, if_neg (List.cons_ne_nil _ _)]
    simp [hof]

end Slots
end Abyss.AgentHook.OpenAi
