import Abyss.AgentHook.OpenAi.Responses.EventSlots
import Abyss.Data.FilterMap

/-! A streamed Responses `output` array against the same array in one document. -/
namespace Abyss.AgentHook.OpenAi
open Abyss.Text Abyss.PluginProtocol Abyss.Data Std

section Join

private def weight (texts : List Str) : Nat := (texts.map (fun text => text.length + 1)).sum

private theorem length_join : ∀ {texts : List Str}, texts ≠ [] → (join (lit "\n") texts).length + 1 = weight texts := by
  have hnewline : (lit "\n").length = 1 := by
    unfold lit
    rfl
  intro texts
  induction texts with
  | nil =>
    intro h
    exact absurd rfl h
  | cons text rest ih =>
    intro _
    cases rest with
    | nil => simp [join, weight]
    | cons next rest =>
      have hrest := ih (List.cons_ne_nil _ _)
      rw [join] at hrest ⊢
      rw [List.intercalate_cons_cons, List.length_append, List.length_append, hnewline]
      rw [weight, List.map_cons, List.sum_cons, ← weight, ← hrest]
      omega

private theorem weight_sublist {texts texts' : List Str} (h : texts.Sublist texts') :
    weight texts ≤ weight texts' ∧ (weight texts' ≤ weight texts → texts' = texts) := by
  induction h with
  | slnil => exact ⟨Nat.le_refl _, fun _ => rfl⟩
  | cons text _ ih =>
    obtain ⟨hle, _⟩ := ih
    simp only [weight, List.map_cons, List.sum_cons] at hle ⊢
    exact ⟨by omega, fun _ => by omega⟩
  | cons_cons text _ ih =>
    obtain ⟨hle, heq⟩ := ih
    simp only [weight, List.map_cons, List.sum_cons] at hle heq ⊢
    exact ⟨by omega, fun h => congrArg _ (heq (by omega))⟩

/-- Further texts show in the joined text, unless there was none and one empty text is added. -/
private theorem join_eq_iff {texts texts' : List Str} (h : texts.Sublist texts')
    (hblank : texts = [] → ∀ text ∈ texts', text = []) :
    join (lit "\n") texts' = join (lit "\n") texts ↔ texts' = texts ∨ (texts = [] ∧ texts'.length ≤ 1) := by
  constructor
  · intro heq
    by_cases hnil : texts = []
    · subst hnil
      cases texts' with
      | nil => exact .inl rfl
      | cons text rest =>
        have hlength := length_join (List.cons_ne_nil text rest)
        rw [heq] at hlength
        have hweights : ∀ texts : List Str, weight texts = texts.length + (texts.map List.length).sum := by
          intro texts
          induction texts with
          | nil => rfl
          | cons t ts ih =>
            simp only [weight, List.map_cons, List.sum_cons, List.length_cons] at ih ⊢
            omega
        rw [hweights] at hlength
        have hempty : (join (lit "\n") ([] : List Str)).length = 0 := by simp [join]
        exact .inr ⟨rfl, by omega⟩
    · have hnil' : texts' ≠ [] := by
        rintro rfl
        exact hnil (List.sublist_nil.mp h)
      have hweight : weight texts' ≤ weight texts := by
        rw [← length_join hnil, ← length_join hnil', heq]
      exact .inl ((weight_sublist h).2 hweight)
  · rintro (rfl | ⟨rfl, hone⟩)
    · rfl
    · cases texts' with
      | nil => rfl
      | cons text rest =>
        obtain rfl := hblank rfl text List.mem_cons_self
        obtain rfl : rest = [] := List.length_eq_zero_iff.mp (by simpa using hone)
        simp [join]

end Join

section Bodies

/-- The row of the item-to-role table that a body is for. -/
def SlotBody.itemKind : SlotBody → ItemKind
  | .message _ => .message
  | .reasoning _ => .reasoning
  | .toolCall _ => .toolCall
  | .toolResult _ => .toolResult

/-- A body holds something for a part. -/
def SlotBody.Has (body : SlotBody) (i : Nat) : Prop :=
  match body with
  | .message parts => (parts[i]?).isSome
  | .reasoning texts => (texts[i]?).isSome
  | _ => False

private theorem itemKind_forItem (itemType : Option Str) : (SlotBody.forItem itemType).itemKind = ItemKind.of itemType := by
  rw [forItem_eq]
  cases ItemKind.of itemType <;> rfl

private theorem sameKind_of_itemKind {a b : SlotBody} (h : a.itemKind = b.itemKind) : a.sameKind b = true := by
  cases a <;> cases b <;> first | rfl | cases h

/-- A snapshot of the kind that the slot has is read into the body that is there. -/
private theorem body_reconcileOutputItem {slot : ResponsesSlot} {shown : Json}
    (h : slot.body.itemKind = ItemKind.of shown.kind) :
    (slot.reconcileOutputItem shown).body = match slot.body with
      | .message parts => .message (parts.reconcileContent shown)
      | .reasoning parts => ((reasoningParts shown).getD []).foldl (fun body p => body.reconcile p.1 p.2) (.reasoning parts)
      | .toolCall call => .toolCall (reconcileCall call shown)
      | .toolResult _ => .toolResult (outputEntry shown) := by
  have hsame := sameKind_of_itemKind ((itemKind_forItem shown.kind).trans h.symm)
  cases hbody : slot.body with
  | _ =>
    rw [hbody] at hsame
    simp only [ResponsesSlot.reconcileOutputItem, ResponsesSlot.reconcileItem, hbody, hsame, if_true]

/-- Where content is an array, each part changes the text at its index. -/
private theorem getElem?_reconcileContent {message : Json} {content : List Json}
    (h : message.get "content" = some (.arr content)) (parts : MessageParts) (i : Nat) :
    (parts.reconcileContent message)[i]? = (content[i]?.map (partChange · parts[i]?)).getD parts[i]? := by
  have hfold : parts.reconcileContent message =
      content.zipIdx.foldl (fun parts p => parts.alter p.2 (partChange p.1)) parts := by
    simp only [MessageParts.reconcileContent, h, MessageParts.reconcilePart_eq]
  rw [hfold, TreeMap.getElem?_foldl_alter]

private theorem isSome_partChange (part : Json) (old : Option Part) :
    (partChange part old).isSome ↔ old.isSome ∨ (partChange part none).isSome := by
  unfold partChange
  cases responsePartText part with
  | some shown =>
    by_cases hempty : shown = []
    · simp [hempty]
    · cases old with
      | none => simp [hempty]
      | some held => cases held <;> simp [hempty]
  | none =>
    by_cases hkind : part.kind = some (lit "refusal")
    · cases part.field "refusal" <;> cases old <;> simp [hkind]
    · cases old <;> simp [hkind]

/-- A text part never becomes a refusal. -/
private theorem partChange_text {part : Json} (hkind : part.kind = some (lit "output_text")) {old : Option Part}
    (hold : ∀ refusal, old ≠ some (.refusal refusal)) (refusal : Str) : partChange part old ≠ some (.refusal refusal) := by
  unfold partChange
  cases responsePartText part with
  | some shown =>
    by_cases hempty : shown = []
    · simpa [hempty] using hold refusal
    · cases old with
      | none => simp [hempty]
      | some held =>
        cases held with
        | text kept => simp [hempty]
        | refusal kept => exact absurd rfl (hold kept)
  | none => simpa [hkind] using hold refusal

/-- What a whole part shows does not depend on what was there. -/
private theorem partChange_of_none {part : Json} {shown : Part} (h : partChange part none = some shown) {old : Option Part}
    (hold : part.kind ≠ some (lit "refusal") → ∀ refusal, old ≠ some (.refusal refusal)) :
    partChange part old = some shown := by
  unfold partChange at h ⊢
  cases hfound : responsePartText part with
  | some text =>
    rw [hfound] at h
    by_cases hempty : text = []
    · simp [hempty] at h
    · have hkind : part.kind ≠ some (lit "refusal") := by
        intro hkind
        cases part <;> simp [responsePartText, hkind, textPartTypes] at hfound
        simp [Json.kind, Json.field, Json.get] at hkind
      cases old with
      | none => simpa [hempty] using h
      | some held =>
        cases held with
        | text kept => simpa [hempty] using h
        | refusal kept => exact absurd rfl (hold hkind kept)
  | none =>
    rw [hfound] at h
    by_cases hkind : part.kind = some (lit "refusal")
    · cases hrefusal : part.field "refusal" <;> simp [hkind, hrefusal] at h ⊢
      exact h
    · simp [hkind] at h

private theorem mem_indexedTexts {parts : List Json} {i : Nat} :
    i ∈ (indexedTexts parts).map Prod.fst ↔ ∃ part, parts[i]? = some part ∧ (partText part).isSome := by
  simp only [indexedTexts, List.map_filterMap, List.mem_filterMap, Prod.exists, List.mem_zipIdx_iff_getElem?]
  constructor
  · rintro ⟨part, j, hpart, hkept⟩
    cases htext : partText part with
    | none => simp [htext] at hkept
    | some text =>
      simp only [htext, Option.map_some, Option.some.injEq] at hkept
      subst hkept
      exact ⟨part, hpart, by rw [htext]; rfl⟩
  · rintro ⟨part, hpart, hsome⟩
    obtain ⟨text, htext⟩ := Option.isSome_iff_exists.mp hsome
    exact ⟨part, i, hpart, by simp [htext]⟩

/-- The texts of a reasoning body after a snapshot: its non-empty content or summary texts replace what was there. -/
private theorem reasoning_reconciled (shown : Json) : ∃ parts, (reasoningParts shown).getD [] = indexedTexts parts ∧
    ∀ texts : TreeMap Str, ∃ texts' : TreeMap Str,
      ((reasoningParts shown).getD []).foldl (fun (body : SlotBody) p => body.reconcile p.1 p.2) (.reasoning texts) =
        .reasoning texts' ∧
      ∀ i : Nat, texts'[i]? = (parts[i]?.map (fun part => partText part <|> texts[i]?)).getD texts[i]? := by
  have hparts : ∃ parts, (reasoningParts shown).getD [] = indexedTexts parts := by
    cases hfound : reasoningParts shown with
    | none => exact ⟨[], rfl⟩
    | some found => exact reasoningParts_eq hfound
  obtain ⟨parts, hparts⟩ := hparts
  refine ⟨parts, hparts, fun texts => ⟨_, by rw [hparts]; exact foldl_indexedTexts parts texts, ?_⟩⟩
  intro i
  exact TreeMap.getElem?_foldl_alter (fun part old => partText part <|> old) parts texts i

private theorem reasoningParts_eq_none {item : Json} :
    reasoningParts item = none ↔ ∀ key ∈ ["content", "summary"], ∀ parts, item.get key = some (.arr parts) →
      ∀ (i : Nat) part, parts[i]? = some part → partText part = none := by
  have hnil : ∀ parts : List Json, indexedTexts parts = [] ↔ ∀ (i : Nat) part, parts[i]? = some part → partText part = none := by
    intro parts
    rw [← @List.map_eq_nil_iff _ _ Prod.fst, List.eq_nil_iff_forall_not_mem]
    constructor
    · intro h i part hpart
      have hout := h i
      rw [mem_indexedTexts] at hout
      cases htext : partText part with
      | none => rfl
      | some text => exact absurd ⟨part, hpart, by rw [htext]; rfl⟩ hout
    · intro h i hmem
      obtain ⟨part, hpart, hsome⟩ := mem_indexedTexts.mp hmem
      rw [h i part hpart] at hsome
      cases hsome
  rw [reasoningParts, List.findSome?_eq_none_iff]
  apply forall_congr'
  intro key
  apply imp_congr_right
  intro _
  cases hget : item.get key with
  | none => simp
  | some member =>
    cases member with
    | arr parts => simp [Json.asArray, ← hnil]
    | _ => simp [Json.asArray]

/-- Changing the text of a part makes it there. -/
private theorem has_textPart {body : SlotBody} (h : body.itemKind = .message ∨ body.itemKind = .reasoning) (index : Nat)
    (change : Str → Str) (i : Nat) : (body.textPart index change).Has i ↔ body.Has i ∨ i = index := by
  cases body with
  | message parts =>
    simp only [SlotBody.textPart, SlotBody.Has, MessageParts.textPart, ExtTreeMap.getElem?_alter]
    by_cases hi : index = i
    · subst hi
      simp only [compare_self, if_true, or_true, iff_true]
      cases parts[index]? with
      | none => rfl
      | some held => cases held <;> rfl
    · simp [hi, Ne.symm hi]
  | reasoning texts =>
    simp only [SlotBody.textPart, SlotBody.Has, ExtTreeMap.getElem?_alter]
    by_cases hi : index = i
    · simp [hi]
    · simp [hi, Ne.symm hi]
  | _ => obtain h | h := h <;> cases h

private theorem itemKind_textPart (body : SlotBody) (index : Nat) (change : Str → Str) :
    (body.textPart index change).itemKind = body.itemKind := by
  cases body <;> rfl

/-- A text part that changes stays a text. -/
private theorem textPart_text {parts : MessageParts} {index i : Nat} {change : Str → Str}
    (h : ∀ refusal, parts[i]? ≠ some (.refusal refusal)) (refusal : Str) :
    (parts.textPart index change)[i]? ≠ some (.refusal refusal) := by
  rw [MessageParts.textPart, ExtTreeMap.getElem?_alter]
  split
  · rename_i hi
    obtain rfl := Nat.compare_eq_eq.mp hi
    cases hheld : parts[index]? with
    | none => simp
    | some held =>
      cases held with
      | text shown => simp
      | refusal shown => exact absurd hheld (h shown)
  · exact h refusal

end Bodies

section Snapshots
variable {item shown : Json}

/-- What a snapshot of a message does to its parts. -/
private theorem message_snapshot (hitem : OutputItem item) (hkind : ItemKind.of item.kind = .message)
    (hshown : ItemPrefix shown item) : ∃ parts front : List Json, item.get "content" = some (.arr parts) ∧
      (∀ (i : Nat) part, front[i]? = some part → ∃ full, parts[i]? = some full ∧ part.kind = full.kind) ∧
      (∀ (old : MessageParts) (i : Nat),
        (old.reconcileContent shown)[i]? = (front[i]?.map (partChange · old[i]?)).getD old[i]?) ∧
      ∀ i, i ∈ partsShown shown ↔ ∃ part, front[i]? = some part ∧ (partChange part none).isSome := by
  rw [OutputItem, hkind] at hitem
  obtain ⟨hnone, parts, hparts, -⟩ := hitem
  have hmem : ∀ front, shown.get "content" = some (.arr front) →
      ∀ i, i ∈ partsShown shown ↔ ∃ part, front[i]? = some part ∧ (partChange part none).isSome := by
    intro front hget i
    simp only [partsShown, hshown.kind, hkind, hget, Option.bind_some, Json.asArray, Option.getD_some, List.mem_filterMap,
      Prod.exists, List.mem_zipIdx_iff_getElem?]
    constructor
    · rintro ⟨part, j, hpart, hkept⟩
      obtain ⟨change, hchange, rfl⟩ := Option.map_eq_some_iff.mp hkept
      exact ⟨part, hpart, by rw [hchange]; rfl⟩
    · rintro ⟨part, hpart, hsome⟩
      obtain ⟨change, hchange⟩ := Option.isSome_iff_exists.mp hsome
      exact ⟨part, i, hpart, by rw [hchange]; rfl⟩
  obtain hget | hget | ⟨front, parts', hget, hparts', hprefix⟩ := hshown.parts "content" (by simp)
  · refine ⟨parts, [], hparts, by simp, ?_, ?_⟩
    · intro old i
      have htext : shown.field "output_text" = none := by
        obtain h | h := hshown.fields "output_text" (by simp)
        · exact h
        · rw [h, hnone]
      simp [MessageParts.reconcileContent, hget, htext]
    · intro i
      simp [partsShown, hshown.kind, hkind, hget]
  · rw [hparts] at hget
    exact ⟨parts, parts, hparts, fun i part hpart => ⟨part, hpart, rfl⟩, getElem?_reconcileContent hget, hmem parts hget⟩
  · obtain rfl : parts' = parts := by
      rw [hparts] at hparts'
      cases hparts'
      rfl
    refine ⟨parts', front, hparts, ?_, getElem?_reconcileContent hget, hmem front hget⟩
    intro i part hpart
    obtain ⟨full, hfull, hcut⟩ := hprefix i part hpart
    exact ⟨full, hfull, hcut.1⟩

/-- Reasoning without a text shows none in any snapshot. -/
private theorem reasoningParts_snapshot (hshown : ItemPrefix shown item) (h : reasoningParts item = none) :
    reasoningParts shown = none := by
  rw [reasoningParts_eq_none] at h ⊢
  intro key hkey parts hparts i part hpart
  obtain hget | hget | ⟨front, whole, hget, hwhole, hprefix⟩ := hshown.parts key hkey
  · rw [hget] at hparts
    cases hparts
  · exact h key hkey parts (hget ▸ hparts) i part hpart
  · rw [hget] at hparts
    cases hparts
    obtain ⟨full, hfull, -, hcut⟩ := hprefix i part hpart
    have hempty := h key hkey whole hwhole i full hfull
    unfold partText at hempty ⊢
    cases htext : part.field "text" with
    | none => rfl
    | some text =>
      obtain ⟨fullText, hfullText, hle⟩ := hcut "text" (by simp) text htext
      rw [hfullText] at hempty
      have hnil : fullText = [] := by simpa [Option.filter] using hempty
      subst hnil
      obtain rfl := List.prefix_nil.mp hle
      simp [Option.filter]

private theorem partsShown_reasoning (hkind : ItemKind.of item.kind = .reasoning) :
    partsShown item = ((reasoningParts item).getD []).map Prod.fst := by
  rw [partsShown, hkind]

private theorem partsShown_eq_nil (hkind : ItemKind.of item.kind = .reasoning) :
    partsShown item = [] ↔ reasoningParts item = none := by
  rw [partsShown_reasoning hkind, List.map_eq_nil_iff]
  constructor
  · intro h
    cases hfound : reasoningParts item with
    | none => rfl
    | some found =>
      rw [hfound, Option.getD_some] at h
      obtain ⟨key, _, hkey⟩ := List.exists_of_findSome?_eq_some hfound
      obtain ⟨parts, _, hparts⟩ := Option.bind_eq_some_iff.mp hkey
      split at hparts
      · cases hparts
      · rename_i hne
        exact absurd ((Option.some.inj hparts).trans h) hne
  · intro h
    rw [h]
    rfl

end Snapshots

section Run
variable {item : Json} {seen : List ItemEvent} {slot : ResponsesSlot}

/-- An event that agrees with the item. -/
private def Fits (item : Json) : ItemEvent → Prop
  | .added shown => ItemPrefix shown item
  | .delta source index piece => ∃ text, source.text item index = some text ∧ (text = [] → piece = [])
  | .textDone source index | .partDone source index => (source.part item index).isSome
  | .inputDelta piece => ItemKind.of item.kind = .toolCall ∧ (callInput item = [] → piece = [])
  | .itemDone | .other => True

/-- What a body holds agrees with the item: texts are no refusals, reasoning without a text holds
none, and a call is the item's. -/
private def Agrees (item : Json) : SlotBody → Prop
  | .message parts => ∀ i : Nat, (TextSource.output.part item i).isSome → ∀ refusal, parts[i]? ≠ some (.refusal refusal)
  | .reasoning texts => reasoningParts item = none → ∀ (i : Nat) text, texts[i]? = some text → text = []
  | .toolCall call => (call.callId = none ∨ call.callId = item.field "call_id") ∧
      (call.name = none ∨ call.name = item.field "name") ∧ (callInput item = [] → call.input = [] ∧ call.streamed = [])
  | .toolResult _ => True

/-- What holds of the slot of an item after some of its events. -/
private structure Follows (item : Json) (seen : List ItemEvent) (slot : ResponsesSlot) : Prop where
  id : slot.itemId = none ∨ slot.itemId = item.field "id"
  kind : slot.body.itemKind = ItemKind.of item.kind
  keys : ∀ i, slot.body.Has i ↔ ∃ e ∈ seen, i ∈ addressed item e
  agrees : Agrees item slot.body

private theorem exists_mem_append {e : ItemEvent} {p : ItemEvent → Prop} :
    (∃ e' ∈ seen ++ [e], p e') ↔ (∃ e' ∈ seen, p e') ∨ p e := by
  constructor
  · rintro ⟨e', hmem, he'⟩
    obtain hmem | hmem := List.mem_append.mp hmem
    · exact .inl ⟨e', hmem, he'⟩
    · exact .inr (List.mem_singleton.mp hmem ▸ he')
  · rintro (⟨e', hmem, he'⟩ | he)
    · exact ⟨e', List.mem_append_left _ hmem, he'⟩
    · exact ⟨e, List.mem_append_right _ List.mem_cons_self, he⟩

private theorem follows_started (item : Json) : Follows item [] (started item) where
  id := .inl rfl
  kind := itemKind_forItem item.kind
  keys i := by
    simp only [started, ResponsesSlot.new, forItem_eq, List.not_mem_nil, false_and, exists_false, iff_false]
    cases ItemKind.of item.kind <;> simp [SlotBody.Has]
  agrees := by
    simp only [started, ResponsesSlot.new, forItem_eq]
    cases ItemKind.of item.kind with
    | message => simp [Agrees]
    | reasoning => simp [Agrees]
    | toolCall => exact ⟨.inl rfl, .inl rfl, fun _ => ⟨rfl, rfl⟩⟩
    | toolResult => trivial

private theorem output_part_kind {parts : List Json} (hparts : item.get "content" = some (.arr parts)) {i : Nat}
    (h : (TextSource.output.part item i).isSome) : ∃ full, parts[i]? = some full ∧ full.kind = some (lit "output_text") := by
  obtain ⟨full, hfull⟩ := Option.isSome_iff_exists.mp h
  refine ⟨full, ?_, (part_kind hfull).2⟩
  unfold TextSource.part at hfull
  split at hfull
  · have hfound := (Option.filter_eq_some_iff.mp hfull).1
    change (((item.get "content").bind Json.asArray).bind (·[i]?)) = some full at hfound
    rwa [hparts] at hfound
  · cases hfull

private theorem output_part_isSome (hitem : OutputItem item) (hkind : ItemKind.of item.kind = .message) {parts : List Json}
    (hparts : item.get "content" = some (.arr parts)) {i : Nat} {full : Json} (hfull : parts[i]? = some full)
    (htext : full.kind ≠ some (lit "refusal")) : (TextSource.output.part item i).isSome := by
  rw [OutputItem, hkind] at hitem
  obtain ⟨-, parts', hparts', htyped⟩ := hitem
  rw [hparts] at hparts'
  cases hparts'
  obtain ⟨htype, _⟩ | ⟨htype, _⟩ := htyped full (List.mem_of_getElem? hfull)
  · have hfound : TextSource.output.part item i = some full := by
      simp [TextSource.part, TextSource.itemKind, TextSource.member, TextSource.partType, hkind, hparts, Json.asArray, hfull,
        htype]
    rw [hfound]
    rfl
  · exact absurd htype htext

private theorem or_field {shown : Json} {key : String} {held : Option Str} (hheld : held = none ∨ held = item.field key)
    (hshown : shown.field key = none ∨ shown.field key = item.field key) :
    (shown.field key <|> held) = none ∨ (shown.field key <|> held) = item.field key := by
  obtain h | h := hshown <;> rw [h]
  · exact hheld
  · cases hfield : item.field key with
    | none => rw [hfield] at hheld; exact hheld
    | some text => exact .inr rfl

/-- A snapshot adds the parts that it shows. -/
private theorem Follows.snapshot (h : Follows item seen slot) (hitem : OutputItem item) {shown : Json}
    (hshown : ItemPrefix shown item) {e : ItemEvent} (he : addressed item e = partsShown shown) :
    Follows item (seen ++ [e]) (slot.reconcileOutputItem shown) := by
  obtain ⟨hid, hkind, hkeys, hagrees⟩ := h
  have hbody := body_reconcileOutputItem (hkind.trans (congrArg _ hshown.kind.symm))
  have hid' : (slot.reconcileOutputItem shown).itemId = none ∨ (slot.reconcileOutputItem shown).itemId = item.field "id" :=
    or_field hid (hshown.fields "id" (by simp))
  cases hheld : slot.body with
  | message parts =>
    rw [hheld] at hbody hkind hkeys hagrees
    obtain ⟨whole, front, hwhole, hfront, hread, hparts⟩ := message_snapshot hitem hkind.symm hshown
    refine ⟨hid', by rw [hbody]; exact hkind, ?_, ?_⟩
    · intro i
      rw [exists_mem_append, ← hkeys, he, hparts, hbody]
      simp only [SlotBody.Has, hread]
      cases hpart : front[i]? with
      | none => simp
      | some part =>
        rw [Option.map_some, Option.getD_some, isSome_partChange]
        simp
    · rw [hbody]
      intro i hsome refusal
      rw [hread]
      cases hpart : front[i]? with
      | none => exact hagrees i hsome refusal
      | some part =>
        obtain ⟨full, hfull, hsame⟩ := hfront i part hpart
        obtain ⟨full', hfull', htext⟩ := output_part_kind hwhole hsome
        obtain rfl := Option.some.inj (hfull.symm.trans hfull')
        exact partChange_text (hsame.trans htext) (hagrees i hsome) refusal
  | reasoning texts =>
    rw [hheld] at hbody hkind hkeys hagrees
    obtain ⟨parts, hparts, hreads⟩ := reasoning_reconciled shown
    obtain ⟨texts', hread, hvalues⟩ := hreads texts
    replace hbody := hbody.trans hread
    refine ⟨hid', by rw [hbody]; exact hkind, ?_, ?_⟩
    · intro i
      rw [exists_mem_append, ← hkeys, he, partsShown_reasoning (by rw [hshown.kind]; exact hkind.symm), hparts,
        mem_indexedTexts, hbody]
      simp only [SlotBody.Has, hvalues]
      cases hpart : parts[i]? with
      | none => simp
      | some part => cases htext : partText part <;> simp [htext]
    · rw [hbody]
      intro hnone i text htext
      have hnil : indexedTexts parts = [] := by rw [← hparts, reasoningParts_snapshot hshown hnone]; rfl
      have hblank : ∀ part, parts[i]? = some part → partText part = none := by
        intro part hpart
        cases hshows : partText part with
        | none => rfl
        | some shows =>
          have hmem := mem_indexedTexts.mpr ⟨part, hpart, by rw [hshows]; rfl⟩
          rw [hnil] at hmem
          cases hmem
      rw [hvalues] at htext
      apply hagrees hnone i text
      cases hpart : parts[i]? with
      | none => rwa [hpart] at htext
      | some part => rwa [hpart, Option.map_some, Option.getD_some, hblank part hpart] at htext
  | toolCall call =>
    rw [hheld] at hbody hkind hkeys hagrees
    refine ⟨hid', by rw [hbody]; exact hkind, ?_, ?_⟩
    · intro i
      have hnone : i ∉ partsShown shown := by simp [partsShown, hshown.kind, ← hkind, SlotBody.itemKind]
      rw [exists_mem_append, ← hkeys, he, hbody]
      simp [SlotBody.Has, hnone]
    · rw [hbody]
      obtain ⟨hcallId, hname, hinput⟩ := hagrees
      refine ⟨or_field hcallId (hshown.fields "call_id" (by simp)), or_field hname (hshown.fields "name" (by simp)), ?_⟩
      intro hempty
      have hnil : callInput shown = [] := List.prefix_nil.mp (hempty ▸ hshown.input)
      simp only [reconcileCall, hnil, if_true]
      exact hinput hempty
  | toolResult entry =>
    rw [hheld] at hbody hkind hkeys
    refine ⟨hid', by rw [hbody]; exact hkind, ?_, by rw [hbody]; trivial⟩
    intro i
    have hnone : i ∉ partsShown shown := by simp [partsShown, hshown.kind, ← hkind, SlotBody.itemKind]
    rw [exists_mem_append, ← hkeys, he, hbody]
    simp [SlotBody.Has, hnone]

private theorem Follows.unchanged (h : Follows item seen slot) {e : ItemEvent} (he : addressed item e = []) :
    Follows item (seen ++ [e]) slot where
  id := h.id
  kind := h.kind
  keys i := by
    rw [exists_mem_append, ← h.keys, he]
    simp
  agrees := h.agrees

/-- Changing the text of a part adds that part. -/
private theorem Follows.textPart (h : Follows item seen slot) {source : TextSource}
    (hsource : ItemKind.of item.kind = source.itemKind) {index : Nat} {change : Str → Str}
    (hblank : reasoningParts item = none → source.itemKind = .reasoning → change [] = []) {e : ItemEvent}
    (he : addressed item e = [index]) :
    Follows item (seen ++ [e]) { slot with body := slot.body.textPart index change } where
  id := h.id
  kind := (itemKind_textPart _ _ _).trans h.kind
  keys i := by
    have htextual : slot.body.itemKind = .message ∨ slot.body.itemKind = .reasoning := by
      rw [h.kind, hsource]
      cases source <;> simp [TextSource.itemKind]
    rw [has_textPart htextual, exists_mem_append, ← h.keys, he, List.mem_singleton]
  agrees := by
    have hagrees := h.agrees
    have hkind := h.kind
    cases hheld : slot.body with
    | message parts =>
      rw [hheld] at hagrees
      intro i hsome refusal
      exact textPart_text (hagrees i hsome) refusal
    | reasoning texts =>
      rw [hheld] at hagrees hkind
      intro hnone i text htext
      have hempty := hblank hnone (hsource.symm.trans hkind.symm)
      rw [ExtTreeMap.getElem?_alter] at htext
      split at htext
      · cases hprior : texts[index]? with
        | none =>
          rw [hprior] at htext
          exact (Option.some.inj htext).symm.trans hempty
        | some prior =>
          rw [hprior, hagrees hnone index prior hprior] at htext
          exact (Option.some.inj htext).symm.trans hempty
      · exact hagrees hnone i text htext
    | toolCall call => rwa [hheld] at hagrees
    | toolResult entry => trivial

/-- Reasoning that shows nothing has only empty texts. -/
private theorem text_eq_nil (hnone : reasoningParts item = none) {source : TextSource} (hsource : source.itemKind = .reasoning)
    {index : Nat} {text : Str} (htext : source.text item index = some text) : text = [] := by
  obtain ⟨part, hpart, hfield⟩ := Option.bind_eq_some_iff.mp htext
  unfold TextSource.part at hpart
  split at hpart
  · obtain ⟨parts, hparts, hfound⟩ := Option.bind_eq_some_iff.mp (Option.filter_eq_some_iff.mp hpart).1
    have hget : item.get source.member = some (.arr parts) := by
      obtain ⟨value, hvalue, harray⟩ := Option.bind_eq_some_iff.mp hparts
      cases value with
      | arr items => rw [hvalue, ← Option.some.inj harray]
      | _ => cases harray
    have hmember : source.member ∈ ["content", "summary"] := by
      cases source <;> simp [TextSource.member]
    have hblank := reasoningParts_eq_none.mp hnone _ hmember parts hget index part hfound
    rw [partText, hfield] at hblank
    simpa [Option.filter] using hblank
  · cases hpart

/-- The full text of a part adds the part unless it is empty. -/
private theorem Follows.reconcile (h : Follows item seen slot) {source : TextSource} {index : Nat}
    (hpart : (source.part item index).isSome) {e : ItemEvent}
    (he : addressed item e = if (source.text item index).getD [] = [] then [] else [index]) :
    Follows item (seen ++ [e]) (slot.reconcile index ((source.text item index).getD [])) := by
  by_cases hempty : (source.text item index).getD [] = []
  · have hself : slot.reconcile index ((source.text item index).getD []) = slot := by
      rw [ResponsesSlot.reconcile, SlotBody.reconcile, if_pos hempty]
    rw [hself]
    exact h.unchanged (he.trans (if_pos hempty))
  · obtain ⟨part, hfound⟩ := Option.isSome_iff_exists.mp hpart
    have hbody : slot.reconcile index ((source.text item index).getD []) =
        { slot with body := slot.body.textPart index (OpenAi.reconcile · ((source.text item index).getD [])) } := by
      rw [ResponsesSlot.reconcile, SlotBody.reconcile, if_neg hempty]
    rw [hbody]
    apply h.textPart (part_kind hfound).1 _ (he.trans (if_neg hempty))
    intro hnone hsource
    cases htext : source.text item index with
    | none => rw [htext] at hempty; exact absurd rfl hempty
    | some text =>
      rw [htext] at hempty
      exact absurd (text_eq_nil hnone hsource htext) hempty

private theorem ItemPrefix.refl (item : Json) : ItemPrefix item item where
  kind := rfl
  fields _ _ := .inr rfl
  input := List.prefix_rfl
  parts _ _ := .inr (.inl rfl)

private theorem Follows.step (h : Follows item seen slot) (hitem : OutputItem item) {e : ItemEvent} (hfits : Fits item e) :
    Follows item (seen ++ [e]) (e.step item slot) := by
  cases e with
  | added shown => exact h.snapshot hitem hfits rfl
  | itemDone => exact h.snapshot hitem (.refl item) rfl
  | other => exact h.unchanged rfl
  | delta source index piece =>
    obtain ⟨text, htext, hpiece⟩ := hfits
    apply h.textPart (text_kind (by rw [htext]; rfl)) _ rfl
    intro hnone hsource
    rw [List.nil_append]
    exact hpiece (text_eq_nil hnone hsource htext)
  | textDone source index => exact h.reconcile hfits rfl
  | partDone source index => exact h.reconcile hfits rfl
  | inputDelta piece =>
    obtain ⟨hcall, hpiece⟩ := hfits
    cases hheld : slot.body with
    | toolCall call =>
      have hagrees := h.agrees
      have hkeys := h.keys
      rw [hheld] at hagrees hkeys
      refine ⟨?_, ?_, ?_, ?_⟩ <;> simp only [ItemEvent.step, ResponsesResponse.pushInput, hheld]
      · exact h.id
      · exact hcall.symm
      · intro i
        rw [exists_mem_append]
        exact (hkeys i).trans (by simp [addressed])
      · obtain ⟨hcallId, hname, hinput⟩ := hagrees
        refine ⟨hcallId, hname, fun hempty => ⟨(hinput hempty).1, ?_⟩⟩
        rw [(hinput hempty).2, hpiece hempty]
        rfl
    | _ =>
      have hkind := h.kind
      rw [hheld, hcall] at hkind
      cases hkind

private theorem follows_run (hitem : OutputItem item) {events : List ItemEvent} (hfits : ∀ e ∈ events, Fits item e) :
    Follows item events (events.foldl (fun slot e => e.step item slot) (started item)) := by
  induction events using List.reverseRecOn with
  | nil => exact follows_started item
  | append_singleton events e ih =>
    rw [List.foldl_append]
    exact (ih (fun e' he' => hfits e' (List.mem_append_left _ he'))).step hitem
      (hfits e (List.mem_append_right _ List.mem_cons_self))

end Run

section Entries
variable {item : Json} {events : List ItemEvent} {slot : ResponsesSlot}

private theorem itemId_final (h : Follows item events slot) :
    (slot.reconcileOutputItem item).itemId = ((started item).reconcileOutputItem item).itemId := by
  change (item.field "id" <|> slot.itemId) = (item.field "id" <|> none)
  cases hid : item.field "id" with
  | some id => rfl
  | none =>
    obtain hheld | hheld := h.id
    · rw [hheld]
    · rw [hheld, hid]

private theorem has_final (h : Follows item events slot) (hitem : OutputItem item) (i : Nat) :
    (slot.reconcileOutputItem item).body.Has i ↔ (∃ e ∈ events, i ∈ addressed item e) ∨ i ∈ partsShown item := by
  rw [(h.snapshot hitem (.refl item) (e := .itemDone) rfl).keys, exists_mem_append]
  rfl

private theorem has_whole (hitem : OutputItem item) (i : Nat) :
    ((started item).reconcileOutputItem item).body.Has i ↔ i ∈ partsShown item := by
  rw [has_final (follows_started item) hitem]
  simp

/-- The final item has further parts exactly when an event addressed one. -/
private theorem has_iff (h : Follows item events slot) (hitem : OutputItem item) :
    (∀ i, (slot.reconcileOutputItem item).body.Has i → ((started item).reconcileOutputItem item).body.Has i) ↔
      ∀ e ∈ events, ∀ i ∈ addressed item e, i ∈ partsShown item := by
  simp only [has_final h hitem, has_whole hitem]
  constructor
  · intro hkeys e he i hi
    exact hkeys i (.inl ⟨e, he, hi⟩)
  · rintro hsettled i (⟨e, he, hi⟩ | hi)
    · exact hsettled e he i hi
    · exact hi

/-- A message shows the same entries exactly when no event addressed a further part. -/
private theorem message_final (h : Follows item events slot) (hitem : OutputItem item) {parts : MessageParts}
    (hheld : slot.body = .message parts) :
    ((started item).reconcileOutputItem item).entries.length ≤ (slot.reconcileOutputItem item).entries.length ∧
      ((slot.reconcileOutputItem item).entries = ((started item).reconcileOutputItem item).entries ↔
        Settled item events) := by
  have hkind : ItemKind.of item.kind = .message := by rw [← h.kind, hheld]; rfl
  have hagrees := h.agrees
  have hkeys := has_iff h hitem
  have hbody' := body_reconcileOutputItem h.kind
  have hbody := body_reconcileOutputItem (follows_started item).kind
  have hstarted : (started item).body = .message ∅ := by rw [started, ResponsesSlot.new, forItem_eq, hkind]
  rw [hheld] at hbody' hagrees
  rw [hstarted] at hbody
  rw [hbody', hbody] at hkeys
  obtain ⟨whole, front, hwhole, hfront, hread, -⟩ := message_snapshot hitem hkind (.refl item)
  have hextends : ∀ (i : Nat) part, (MessageParts.reconcileContent ∅ item)[i]? = some part →
      (parts.reconcileContent item)[i]? = some part := by
    intro i part hpart
    rw [hread] at hpart ⊢
    cases hshown : front[i]? with
    | none => simp [hshown] at hpart
    | some shown =>
      rw [hshown, Option.map_some, Option.getD_some, ExtTreeMap.getElem?_empty] at hpart
      rw [Option.map_some, Option.getD_some]
      apply partChange_of_none hpart
      intro htext refusal
      obtain ⟨full, hfull, hsame⟩ := hfront i shown hshown
      exact hagrees i (output_part_isSome hitem hkind hwhole hfull (hsame ▸ htext)) refusal
  have hentries' : (slot.reconcileOutputItem item).entries = ConversationProjection.identify
      ((parts.reconcileContent item).entries (slot.reconcileOutputItem item).role)
      (slot.reconcileOutputItem item).itemId := by
    rw [ResponsesSlot.entries, hbody']
  have hentries : ((started item).reconcileOutputItem item).entries = ConversationProjection.identify
      ((MessageParts.reconcileContent ∅ item).entries (slot.reconcileOutputItem item).role)
      (slot.reconcileOutputItem item).itemId := by
    rw [ResponsesSlot.entries, hbody, itemId_final h]
    rfl
  have hsame : (slot.reconcileOutputItem item).entries = ((started item).reconcileOutputItem item).entries ↔
      parts.reconcileContent item = MessageParts.reconcileContent ∅ item := by
    rw [hentries', hentries]
    constructor
    · intro heq
      apply TreeMap.eq_of_values_length hextends
      have hlength := congrArg List.length heq
      simp only [ConversationProjection.identify, MessageParts.entries, List.length_map] at hlength
      exact hlength.le
    · intro heq
      rw [heq]
  constructor
  · rw [hentries', hentries]
    simp only [ConversationProjection.identify, MessageParts.entries, List.length_map]
    exact (TreeMap.values_sublist hextends).length_le
  · rw [hsame, TreeMap.eq_iff_of_extends hextends, Settled, hkind]
    refine Iff.trans hkeys ?_
    simp

/-- Reasoning shows the same text exactly when no event addressed a further part, or there is none
but one. -/
private theorem reasoning_final (h : Follows item events slot) (hitem : OutputItem item) {texts : TreeMap Str}
    (hheld : slot.body = .reasoning texts) :
    ((started item).reconcileOutputItem item).entries.length ≤ (slot.reconcileOutputItem item).entries.length ∧
      ((slot.reconcileOutputItem item).entries = ((started item).reconcileOutputItem item).entries ↔
        Settled item events) := by
  have hkind : ItemKind.of item.kind = .reasoning := by rw [← h.kind, hheld]; rfl
  have hagrees := (h.snapshot hitem (.refl item) (e := .itemDone) rfl).agrees
  have hkeys := has_iff h hitem
  have hfinal := has_final h hitem
  have hwhole := has_whole hitem
  have hbody' := body_reconcileOutputItem h.kind
  have hbody := body_reconcileOutputItem (follows_started item).kind
  have hstarted : (started item).body = .reasoning ∅ := by rw [started, ResponsesSlot.new, forItem_eq, hkind]
  obtain ⟨parts, hparts, hreads⟩ := reasoning_reconciled item
  obtain ⟨texts', hread', hvalues'⟩ := hreads texts
  obtain ⟨shown, hread, hvalues⟩ := hreads ∅
  rw [hheld] at hbody'
  rw [hstarted] at hbody
  replace hbody' := hbody'.trans hread'
  replace hbody := hbody.trans hread
  rw [hbody'] at hagrees
  rw [hbody', hbody] at hkeys
  rw [hbody'] at hfinal
  rw [hbody] at hwhole
  have hextends : ∀ (i : Nat) text, shown[i]? = some text → texts'[i]? = some text := by
    intro i text htext
    rw [hvalues] at htext
    rw [hvalues']
    cases hpart : parts[i]? with
    | none => simp [hpart] at htext
    | some part =>
      rw [hpart, Option.map_some, Option.getD_some] at htext
      rw [Option.map_some, Option.getD_some]
      cases hshows : partText part with
      | none => simp [hshows] at htext
      | some shows => simpa [hshows] using htext
  have hnil : TreeMap.values shown = [] ↔ partsShown item = [] := by
    rw [TreeMap.values_eq_nil, List.eq_nil_iff_forall_not_mem]
    apply forall_congr'
    intro i
    rw [← hwhole, SlotBody.Has, Bool.not_eq_true, Option.isSome_eq_false_iff, Option.isNone_iff_eq_none]
  have hblank : TreeMap.values shown = [] → ∀ text ∈ TreeMap.values texts', text = [] := by
    intro hempty text hmem
    obtain ⟨i, hi⟩ := TreeMap.mem_values.mp hmem
    exact hagrees ((partsShown_eq_nil hkind).mp (hnil.mp hempty)) i text hi
  have hentries' : (slot.reconcileOutputItem item).entries = ConversationProjection.identify
      [ConversationProjection.text .reasoning (join (lit "\n") (TreeMap.values texts'))]
      (slot.reconcileOutputItem item).itemId := by
    rw [ResponsesSlot.entries, hbody']
  have hentries : ((started item).reconcileOutputItem item).entries = ConversationProjection.identify
      [ConversationProjection.text .reasoning (join (lit "\n") (TreeMap.values shown))]
      (slot.reconcileOutputItem item).itemId := by
    rw [ResponsesSlot.entries, hbody, itemId_final h]
  have hsame : (slot.reconcileOutputItem item).entries = ((started item).reconcileOutputItem item).entries ↔
      join (lit "\n") (TreeMap.values texts') = join (lit "\n") (TreeMap.values shown) := by
    rw [hentries', hentries]
    simp [ConversationProjection.identify, ConversationProjection.text]
  have hvaluesEq : TreeMap.values texts' = TreeMap.values shown ↔ texts' = shown := by
    constructor
    · intro heq
      exact TreeMap.eq_of_values_length hextends (congrArg List.length heq).le
    · rintro rfl
      rfl
  refine ⟨by rw [hentries', hentries]; exact Nat.le_refl _, ?_⟩
  rw [hsame, join_eq_iff (TreeMap.values_sublist hextends) hblank, hvaluesEq, TreeMap.eq_iff_of_extends hextends, hnil,
    TreeMap.values_length_le_one, Settled]
  apply or_congr hkeys
  rw [hkind, eq_self_iff_true, true_and]
  apply and_congr_right
  intro hempty
  have hfinal' : ∀ i, (texts'[i]?).isSome ↔ ∃ e ∈ events, i ∈ addressed item e := by
    intro i
    apply (hfinal i).trans
    rw [hempty]
    simp
  constructor
  · intro hone e he i hi e' he' j hj
    exact hone i j ((hfinal' i).mpr ⟨e, he, hi⟩) ((hfinal' j).mpr ⟨e', he', hj⟩)
  · intro hone i j hi hj
    obtain ⟨e, he, hi⟩ := (hfinal' i).mp hi
    obtain ⟨e', he', hj⟩ := (hfinal' j).mp hj
    exact hone e he i hi e' he' j hj

/-- Calls and outputs show the same entry. -/
private theorem tool_final (h : Follows item events slot) (htool : slot.body.itemKind = .toolCall ∨ slot.body.itemKind = .toolResult) :
    (slot.reconcileOutputItem item).entries = ((started item).reconcileOutputItem item).entries ∧ Settled item events := by
  have hbody' := body_reconcileOutputItem h.kind
  have hbody := body_reconcileOutputItem (follows_started item).kind
  have hkeys := h.keys
  have hkind := h.kind
  cases hheld : slot.body with
  | message parts => rw [hheld] at htool; obtain htool | htool := htool <;> cases htool
  | reasoning texts => rw [hheld] at htool; obtain htool | htool := htool <;> cases htool
  | toolCall call =>
    have hagrees := h.agrees
    rw [hheld] at hbody' hkeys hagrees hkind
    have hstarted : (started item).body = .toolCall .empty := by rw [started, ResponsesSlot.new, forItem_eq, ← hkind]; rfl
    rw [hstarted] at hbody
    obtain ⟨hcallId, hname, hinput⟩ := hagrees
    have hor : ∀ {key : String} {held : Option Str}, (held = none ∨ held = item.field key) →
        (item.field key <|> held) = (item.field key <|> none) := by
      intro key held hheld
      obtain rfl | rfl := hheld
      · rfl
      · cases item.field key <;> rfl
    have hentry : (reconcileCall call item).entry = (reconcileCall .empty item).entry := by
      simp only [CallSlot.entry, reconcileCall, CallSlot.empty, hor hcallId, hor hname]
      by_cases hempty : callInput item = []
      · simp [hempty, (hinput hempty).1, (hinput hempty).2]
      · simp [hempty]
    constructor
    · rw [ResponsesSlot.entries, ResponsesSlot.entries, hbody', hbody, itemId_final h]
      exact congrArg (fun entry => ConversationProjection.identify [entry] _) hentry
    · exact .inl (fun e he i hi => ((hkeys i).mpr ⟨e, he, hi⟩).elim)
  | toolResult entry =>
    rw [hheld] at hbody' hkeys hkind
    have hstarted : (started item).body = .toolResult (ConversationProjection.toolResult none []) := by
      rw [started, ResponsesSlot.new, forItem_eq, ← hkind]
      rfl
    rw [hstarted] at hbody
    constructor
    · rw [ResponsesSlot.entries, ResponsesSlot.entries, hbody', hbody, itemId_final h]
    · exact .inl (fun e he i hi => ((hkeys i).mpr ⟨e, he, hi⟩).elim)

/-- The item that ends a run shows at least what it shows alone, and the same exactly when the run settled it. -/
private theorem entries_final (h : Follows item events slot) (hitem : OutputItem item) :
    ((started item).reconcileOutputItem item).entries.length ≤ (slot.reconcileOutputItem item).entries.length ∧
      ((slot.reconcileOutputItem item).entries = ((started item).reconcileOutputItem item).entries ↔
        Settled item events) := by
  have htools : slot.body.itemKind = .toolCall ∨ slot.body.itemKind = .toolResult →
      ((started item).reconcileOutputItem item).entries.length ≤ (slot.reconcileOutputItem item).entries.length ∧
        ((slot.reconcileOutputItem item).entries = ((started item).reconcileOutputItem item).entries ↔
          Settled item events) := by
    intro htool
    obtain ⟨hsame, hsettled⟩ := tool_final h htool
    rw [hsame]
    exact ⟨Nat.le_refl _, iff_of_true rfl hsettled⟩
  cases hheld : slot.body with
  | message parts => exact message_final h hitem hheld
  | reasoning texts => exact reasoning_final h hitem hheld
  | toolCall call => exact htools (.inl (by rw [hheld]; rfl))
  | toolResult entry => exact htools (.inr (by rw [hheld]; rfl))

end Entries

section Streamed
variable {output values : List Json} {events : List (Nat × ItemEvent)} {terminal : Json}

private theorem eq_nil_of_flatten_prefix {parts : List Str} (h : parts.flatten <+: []) : ∀ part ∈ parts, part = [] := by
  intro part hpart
  exact List.flatten_eq_nil_iff.mp (List.prefix_nil.mp h) part hpart

/-- Every event of a stream agrees with its item. -/
private theorem Streams.fits (h : Streams output events values) {k : Nat} {item : Json} (hitem : output[k]? = some item) :
    ∀ e ∈ ofItem k events, Fits item e := by
  intro e he
  obtain ⟨⟨k', e'⟩, hmem, rfl⟩ := List.mem_map.mp he
  obtain ⟨hmem', hk⟩ := List.mem_filter.mp hmem
  obtain rfl := of_decide_eq_true hk
  obtain ⟨i, hi, hget⟩ := List.getElem_of_mem hmem'
  have hvalue : i < values.length := h.reports.length_eq ▸ hi
  have hreport := h.reports.get hi hvalue
  rw [List.get_eq_getElem, hget] at hreport
  obtain ⟨item', hitem', hreports⟩ := hreport
  rw [hitem] at hitem'
  obtain rfl := Option.some.inj hitem'
  cases hreports with
  | added htype hindex hfound hshown => exact hshown
  | @delta _ source index piece htype hindex hpart hpiece htext =>
    obtain ⟨text, htext⟩ := Option.isSome_iff_exists.mp htext
    refine ⟨text, htext, ?_⟩
    rintro rfl
    apply eq_nil_of_flatten_prefix (h.texts _ item hitem source index [] htext) piece
    exact List.mem_filterMap.mpr ⟨_, he, by simp⟩
  | textDone htype hindex hpart htext hfull =>
    obtain ⟨part, hfound, _⟩ := Option.bind_eq_some_iff.mp htext
    exact Option.isSome_of_eq_some hfound
  | partDone htype hindex hpart hfound hfull => exact Option.isSome_of_eq_some hfound
  | @inputDelta _ kind piece hkind htype hindex hpiece hcall =>
    refine ⟨hcall, fun hempty => ?_⟩
    apply eq_nil_of_flatten_prefix (hempty ▸ h.inputs _ item hitem) piece
    exact List.mem_filterMap.mpr ⟨_, he, rfl⟩
  | itemDone htype hindex hfound => trivial
  | other hkind htype hdocument => trivial

/-- The entries of a completed stream are those of the whole response exactly when no event addressed
a part of its item that the whole item does not show, but for one in an item without a text. -/
theorem streamed_entries_iff (h : Streams output events values) (hterminal : Completed output terminal)
    (incomplete incomplete' : Bool) :
    (ResponsesResponse.assemble (values ++ [terminal]) incomplete).entries =
        (ResponsesResponse.assemble [wholeDocument output] incomplete').entries ↔
      ∀ (k : Nat) item, output[k]? = some item → Settled item (ofItem k events) := by
  have hwhole : (ResponsesResponse.assemble [wholeDocument output] incomplete').entries =
      output.zipIdx.flatMap (fun p => ((started p.1).reconcileOutputItem p.1).entries) := by
    rw [@entries_whole _ output (by simp [wholeDocument, Json.field]) (by simp [wholeDocument])]
    conv_lhs => rw [← List.zipIdx_map_fst 0 output]
    rw [List.flatMap_map]
    apply List.flatMap_congr
    intro p _
    rw [itemSlot, reconcileOutputItem_started rfl]
  have hstreamed : (ResponsesResponse.assemble (values ++ [terminal]) incomplete).entries = output.zipIdx.flatMap (fun p =>
      (((ofItem p.2 events).foldl (fun slot e => e.step p.1 slot) (started p.1)).reconcileOutputItem p.1).entries) := by
    simp only [ResponsesResponse.assemble, values_streamed h hterminal, List.flatMap_map]
  have hfinal : ∀ p ∈ output.zipIdx, _ := fun p hp =>
    entries_final (follows_run (h.items p.1 (List.fst_mem_of_mem_zipIdx hp))
      (h.fits (List.mem_zipIdx_iff_getElem?.mp hp))) (h.items p.1 (List.fst_mem_of_mem_zipIdx hp))
  rw [hstreamed, hwhole, flatMap_eq_iff (fun p hp => (hfinal p hp).1)]
  constructor
  · intro heq k item hitem
    have hmem : (item, k) ∈ output.zipIdx := List.mem_zipIdx_iff_getElem?.mpr hitem
    exact (hfinal (item, k) hmem).2.mp (heq (item, k) hmem)
  · intro hsettled p hp
    exact (hfinal p hp).2.mpr (hsettled p.2 p.1 (List.mem_zipIdx_iff_getElem?.mp hp))

end Streamed

section Samples

private theorem streams_single {item : Json} {events : List ItemEvent} {values : List Json} (hitem : OutputItem item)
    (hreports : List.Forall₂ (fun e value => Reports item 0 e value) events values)
    (hopened : ∃ shown rest, events = .added shown :: rest)
    (htexts : ∀ source index text, TextSource.text source item index = some text → (pieces source index events).flatten <+: text)
    (hinput : (inputPieces events).flatten <+: callInput item) : Streams [item] (events.map (0, ·)) values := by
  have hof : ofItem 0 (events.map (0, ·)) = events := by
    simp [ofItem, List.filter_map, Function.comp_def]
  have honly : ∀ {k : Nat} {item' : Json}, [item][k]? = some item' → k = 0 ∧ item = item' := by
    intro k item' h
    cases k with
    | zero => exact ⟨rfl, Option.some.inj h⟩
    | succ k => cases h
  refine ⟨fun item' hmem => List.mem_singleton.mp hmem ▸ hitem, ?_, ?_, ?_, ?_⟩
  · rw [List.forall₂_map_left_iff]
    exact hreports.imp (fun _ _ h => ⟨item, rfl, h⟩)
  all_goals
    intro k item' h
    obtain ⟨rfl, rfl⟩ := honly h
    rw [hof]
  · exact hopened
  · exact htexts
  · exact hinput

private def number (n : UInt64) : Json := .num (.posInt n)

private def itemDocument (kind : String) (item : Json) : Json :=
  .obj [(lit "type", .str (lit kind)), (lit "output_index", number 0), (lit "item", item)]

private def deltaDocument (source : TextSource) (index : UInt64) (piece : String) : Json :=
  .obj [(lit "type", .str source.deltaType), (lit "output_index", number 0),
    (lit (if source = .summary then "summary_index" else "content_index"), number index), (lit "delta", .str (lit piece))]

private def completedDocument (item : Json) : Json :=
  .obj [(lit "type", .str (lit "response.completed")), (lit "response", .obj [(lit "output", .arr [item])])]

private def samplePart (kind text : String) : Json := .obj [(lit "type", .str (lit kind)), (lit "text", .str (lit text))]

private theorem reports_added {shown item : Json} (h : ItemPrefix shown item) :
    Reports item 0 (.added shown) (itemDocument "response.output_item.added" shown) :=
  .added (by simp [itemDocument, Json.field, Json.asStr]) ⟨0, by simp [itemDocument, number], rfl⟩ (by simp [itemDocument]) h

private theorem reports_done (item : Json) : Reports item 0 .itemDone (itemDocument "response.output_item.done" item) :=
  .itemDone (by simp [itemDocument, Json.field, Json.asStr]) ⟨0, by simp [itemDocument, number], rfl⟩ (by simp [itemDocument])

private theorem reports_delta {item : Json} {source : TextSource} {index : UInt64} (piece : String)
    (h : (source.text item index.toNat).isSome) :
    Reports item 0 (.delta source index.toNat (lit piece)) (deltaDocument source index piece) := by
  apply Reports.delta
  · simp [deltaDocument, Json.field, Json.asStr]
  · exact ⟨0, by simp [deltaDocument, number], rfl⟩
  · cases source with
    | output | reasoning => exact ⟨index, by simp [deltaDocument, number], rfl⟩
    | summary => exact ⟨by simp [deltaDocument], index, by simp [deltaDocument, number], rfl⟩
  · cases source <;> simp [deltaDocument, Json.field, Json.asStr]
  · exact h

private theorem completed_single (item : Json) : Completed [item] (completedDocument item) := by
  constructor <;> simp [completedDocument, Json.field, Json.asStr]

/-- Reasoning with one content text and two summaries. -/
private def thought : Json :=
  .obj [(lit "type", .str (lit "reasoning")), (lit "id", .str (lit "r1")),
    (lit "content", .arr [samplePart "reasoning_text" "A"]),
    (lit "summary", .arr [samplePart "summary_text" "x", samplePart "summary_text" "y"])]

private def thoughtShown : Json := .obj [(lit "type", .str (lit "reasoning")), (lit "id", .str (lit "r1"))]

private def thoughtEvents : List ItemEvent :=
  [.added thoughtShown, .delta .summary 0 (lit "x"), .delta .summary 1 (lit "y"), .delta .reasoning 0 (lit "A"), .itemDone]

private def thoughtDocuments : List Json :=
  [itemDocument "response.output_item.added" thoughtShown, deltaDocument .summary 0 "x", deltaDocument .summary 1 "y",
    deltaDocument .reasoning 0 "A", itemDocument "response.output_item.done" thought]

private theorem thought_prefix : ItemPrefix thoughtShown thought where
  kind := by with_unfolding_all decide
  fields := by with_unfolding_all decide
  input := by with_unfolding_all decide
  parts := by
    have hmissing : ∀ key ∈ ["content", "summary"], thoughtShown.get key = none := by with_unfolding_all decide
    exact fun key hkey => .inl (hmissing key hkey)

private theorem thought_item : OutputItem thought := by
  have hkind : ItemKind.of thought.kind = .reasoning := by with_unfolding_all decide
  rw [OutputItem, hkind]
  intro source hsource parts hparts part hpart
  cases source with
  | output => cases hsource
  | reasoning =>
    simp [thought, TextSource.member] at hparts
    subst hparts
    obtain rfl := List.mem_singleton.mp hpart
    with_unfolding_all decide
  | summary =>
    simp [thought, TextSource.member] at hparts
    subst hparts
    simp only [List.mem_cons, List.not_mem_nil, or_false] at hpart
    obtain rfl | rfl := hpart <;> with_unfolding_all decide

private theorem thought_text {source : TextSource} {index : Nat} {text : Str} (h : source.text thought index = some text) :
    (source = .reasoning ∧ index = 0) ∨ (source = .summary ∧ index < 2) := by
  have hkind : ItemKind.of thought.kind = .reasoning := by with_unfolding_all decide
  obtain ⟨part, hpart, -⟩ := Option.bind_eq_some_iff.mp h
  rw [TextSource.part, hkind] at hpart
  cases source with
  | output => cases hpart
  | reasoning =>
    cases index with
    | zero => exact .inl ⟨rfl, rfl⟩
    | succ n => simp [thought, TextSource.itemKind, TextSource.member, Json.asArray] at hpart
  | summary =>
    by_cases hindex : index < 2
    · exact .inr ⟨rfl, hindex⟩
    · obtain ⟨n, rfl⟩ := Nat.exists_eq_add_of_le' (Nat.not_lt.mp hindex)
      simp [thought, TextSource.itemKind, TextSource.member, Json.asArray] at hpart

private theorem thought_streams : Streams [thought] (thoughtEvents.map (0, ·)) thoughtDocuments := by
  apply streams_single thought_item
  · have hx := @reports_delta thought .summary 0 "x" (by with_unfolding_all decide)
    have hy := @reports_delta thought .summary 1 "y" (by with_unfolding_all decide)
    have hA := @reports_delta thought .reasoning 0 "A" (by with_unfolding_all decide)
    exact .cons (reports_added thought_prefix) (.cons hx (.cons hy (.cons hA (.cons (reports_done thought) .nil))))
  · exact ⟨_, _, rfl⟩
  · intro source index text htext
    have hpieces : (TextSource.reasoning.text thought 0 = some (pieces .reasoning 0 thoughtEvents).flatten) ∧
        (TextSource.summary.text thought 0 = some (pieces .summary 0 thoughtEvents).flatten) ∧
        (TextSource.summary.text thought 1 = some (pieces .summary 1 thoughtEvents).flatten) := by with_unfolding_all decide
    obtain ⟨rfl, rfl⟩ | ⟨rfl, hindex⟩ := thought_text htext
    · exact Option.some.inj (htext.symm.trans hpieces.1) ▸ List.prefix_rfl
    · match index with
      | 0 => exact Option.some.inj (htext.symm.trans hpieces.2.1) ▸ List.prefix_rfl
      | 1 => exact Option.some.inj (htext.symm.trans hpieces.2.2) ▸ List.prefix_rfl
  · decide

/-- The second summary of a reasoning item that has a content text stays in the streamed text. -/
theorem leftover_summary_shown : ¬ ∀ (output : List Json) events values terminal,
    Streams output events values → Completed output terminal →
      (ResponsesResponse.assemble (values ++ [terminal]) false).entries =
        (ResponsesResponse.assemble [wholeDocument output] false).entries := by
  intro h
  have hsame := h _ _ _ _ thought_streams (completed_single thought)
  revert hsame
  with_unfolding_all decide

/-- The streamed reasoning is not settled. -/
theorem thought_unsettled : ¬ ∀ (k : Nat) item, [thought][k]? = some item → Settled item (ofItem k (thoughtEvents.map (0, ·))) := by
  rw [← streamed_entries_iff thought_streams (completed_single thought) false false]
  with_unfolding_all decide

end Samples
end Abyss.AgentHook.OpenAi
