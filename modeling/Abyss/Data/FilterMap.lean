import Mathlib.Algebra.BigOperators.Group.List.Basic
import Mathlib.Algebra.Order.BigOperators.Group.List
import Mathlib.Algebra.Order.Group.Nat
import Mathlib.Algebra.Order.Ring.Int

/-! Lists seen through a partial map: when two maps over one list keep the same items, and folds
that depend on one view of the items. -/
namespace Abyss.Data
variable {α β : Type}

/-- Sums that agree although one summand is never the smaller agree summand by summand. -/
theorem eq_of_sum_le {p q : α → Nat} {l : List α} (hle : ∀ a ∈ l, p a ≤ q a)
    (hsum : (l.map q).sum ≤ (l.map p).sum) : ∀ a ∈ l, p a = q a := by
  induction l with
  | nil =>
    intro a ha
    cases ha
  | cons b l ih =>
    have hrest : (l.map p).sum ≤ (l.map q).sum :=
      List.sum_le_sum (fun a ha => hle a (List.mem_cons_of_mem _ ha))
    have hhead := hle b List.mem_cons_self
    rw [List.map_cons, List.map_cons, List.sum_cons, List.sum_cons] at hsum
    intro a ha
    obtain rfl | htail := List.mem_cons.mp ha
    · omega
    · exact ih (fun a ha => hle a (List.mem_cons_of_mem _ ha)) (by omega) a htail

theorem sum_filterMap (weight : β → Nat) (f : α → Option β) (l : List α) :
    ((l.filterMap f).map weight).sum = (l.map (fun a => (f a).elim 0 weight)).sum := by
  induction l with
  | nil => rfl
  | cons a l ih =>
    rw [List.filterMap_cons, List.map_cons, List.sum_cons]
    cases hf : f a with
    | none => simpa using ih
    | some b => simpa using ih

private theorem pointwise_of_isSome {f g : α → Option β} {l : List α} (hsome : ∀ a ∈ l, (f a).isSome = (g a).isSome)
    (heq : l.filterMap f = l.filterMap g) : ∀ a ∈ l, f a = g a := by
  induction l with
  | nil =>
    intro a ha
    cases ha
  | cons b l ih =>
    have hb := hsome b List.mem_cons_self
    have htail := fun a ha => hsome a (List.mem_cons_of_mem b ha)
    rw [List.filterMap_cons, List.filterMap_cons] at heq
    intro a ha
    cases hf : f b <;> cases hg : g b <;> rw [hf, hg] at hb heq
    · obtain rfl | hmem := List.mem_cons.mp ha
      · rw [hf, hg]
      · exact ih htail heq a hmem
    · cases hb
    · cases hb
    · injection heq with hhead hrest
      obtain rfl | hmem := List.mem_cons.mp ha
      · rw [hf, hg, hhead]
      · exact ih htail hrest a hmem

/-- Lists kept by two partial maps are equal exactly when the maps agree on every item, provided
some weight of what only one of them keeps cannot be made up elsewhere. -/
theorem filterMap_eq_iff (weight : β → Nat) {f g : α → Option β} {l : List α}
    (hle : ∀ a ∈ l, (g a).elim 0 weight ≤ (f a).elim 0 weight)
    (hlt : ∀ a ∈ l, ∀ b, f a = some b → g a = none → 0 < weight b) :
    l.filterMap f = l.filterMap g ↔ ∀ a ∈ l, f a = g a := by
  constructor
  · intro heq
    have hweights : ∀ a ∈ l, (g a).elim 0 weight = (f a).elim 0 weight := by
      apply eq_of_sum_le hle
      rw [← sum_filterMap, ← sum_filterMap, heq]
    have hkept : ∀ a ∈ l, ((f a).elim 0 fun _ => 1) ≤ ((g a).elim 0 fun _ => 1) := by
      intro a ha
      cases hf : f a with
      | none => exact Nat.zero_le _
      | some b =>
        cases hg : g a with
        | none =>
          have hpositive := hlt a ha b hf hg
          have hweight := hweights a ha
          rw [hf, hg] at hweight
          change 0 = weight b at hweight
          omega
        | some c => exact Nat.le_refl _
    have hcounts := eq_of_sum_le hkept (by rw [← sum_filterMap, ← sum_filterMap, heq])
    apply pointwise_of_isSome _ heq
    intro a ha
    have hcount := hcounts a ha
    cases hf : f a <;> cases hg : g a <;> rw [hf, hg] at hcount <;> first | rfl | cases hcount
  · intro hpointwise
    exact List.filterMap_congr hpointwise

/-- Lists joined from longer parts are equal exactly when the parts are. -/
theorem flatMap_eq_iff {f g : α → List β} {l : List α} (hle : ∀ a ∈ l, (f a).length ≤ (g a).length) :
    l.flatMap g = l.flatMap f ↔ ∀ a ∈ l, g a = f a := by
  constructor
  · intro heq
    have hlengths : ∀ a ∈ l, (f a).length = (g a).length := by
      apply eq_of_sum_le hle
      rw [← List.length_flatMap, ← List.length_flatMap, heq]
    induction l with
    | nil =>
      intro a ha
      cases ha
    | cons b l ih =>
      obtain ⟨hhead, hrest⟩ := List.append_inj heq (hlengths b List.mem_cons_self).symm
      intro a ha
      obtain rfl | hmem := List.mem_cons.mp ha
      · exact hhead
      · exact ih (fun a ha => hle a (List.mem_cons_of_mem _ ha)) hrest
          (fun a ha => hlengths a (List.mem_cons_of_mem _ ha)) a hmem
  · intro hpointwise
    exact List.flatMap_congr hpointwise

section Folds

/-- A part of the state that changes only by what the view keeps of an item is folded from the view
alone. -/
theorem read_foldl {σ ε β δ : Type} {step : σ → ε → σ} (read : σ → β) (stepAt : β → δ → β) (view : ε → Option δ)
    (hstep : ∀ s e, read (step s e) = ((view e).map (stepAt (read s))).getD (read s)) (es : List ε) (s : σ) :
    read (es.foldl step s) = (es.filterMap view).foldl stepAt (read s) := by
  induction es generalizing s with
  | nil => rfl
  | cons e es ih =>
    rw [List.foldl_cons, ih, hstep, List.filterMap_cons]
    cases view e with
    | none => rfl
    | some d => rfl

/-- Folds whose items correspond keep a relation that each step keeps. -/
theorem foldl_forall₂ {σ τ ε δ : Type} {step : σ → ε → σ} {step' : τ → δ → τ} {R : σ → τ → Prop} {P : ε → δ → Prop}
    (hstep : ∀ s t e d, R s t → P e d → R (step s e) (step' t d)) {es : List ε} {ds : List δ}
    (hitems : List.Forall₂ P es ds) {s : σ} {t : τ} (h : R s t) : R (es.foldl step s) (ds.foldl step' t) := by
  induction hitems generalizing s t with
  | nil => exact h
  | cons hed _ ih => exact ih (hstep _ _ _ _ h hed)

/-- The last value that is there, when every item has the same one or none. -/
theorem foldl_or {ε β : Type} {value : ε → Option β} {b : β} {es : List ε} (h : ∀ e ∈ es, value e = none ∨ value e = some b)
    (start : Option β) :
    es.foldl (fun held e => value e <|> held) start = if es.any (fun e => (value e).isSome) then some b else start := by
  induction es generalizing start with
  | nil => rfl
  | cons e es ih =>
    rw [List.foldl_cons, ih (fun e he => h e (List.mem_cons_of_mem _ he)), List.any_cons]
    obtain hnone | hsome := h e List.mem_cons_self
    · rw [hnone]
      rfl
    · rw [hsome]
      simp

end Folds
/-! Keyed lists through a view that hides the values of some keys. -/
section Keyed
variable {κ ν : Type} [BEq κ] [LawfulBEq κ] {shown : κ → Prop} {f : κ × ν → β}

/-- The values of a key, in order. -/
def valuesOf (l : List (κ × ν)) (k : κ) : List ν := (l.filter (fun entry => entry.1 == k)).map Prod.snd

/-- Two keyed lists look alike exactly when they have the same keys, and the same values of every key that is shown. -/
theorem map_eq_iff_keyed (hkey : ∀ a b, f a = f b → a.1 = b.1) (hshown : ∀ k v v', shown k → f (k, v) = f (k, v') → v = v')
    (hhidden : ∀ k v v', ¬ shown k → f (k, v) = f (k, v')) {l l' : List (κ × ν)} :
    l.map f = l'.map f ↔
      l.map Prod.fst = l'.map Prod.fst ∧ ∀ k, shown k → valuesOf l k = valuesOf l' k := by
  induction l generalizing l' with
  | nil =>
    constructor
    · intro h
      obtain rfl := List.map_eq_nil_iff.mp h.symm
      exact ⟨rfl, fun _ _ => rfl⟩
    · rintro ⟨h, -⟩
      obtain rfl := List.map_eq_nil_iff.mp h.symm
      rfl
  | cons a l ih =>
    cases l' with
    | nil => simp
    | cons b l' =>
      obtain ⟨k, v⟩ := a
      obtain ⟨k', v'⟩ := b
      simp only [List.map_cons, List.cons.injEq]
      constructor
      · rintro ⟨hhead, htail⟩
        obtain rfl : k = k' := hkey _ _ hhead
        obtain ⟨hkeys, hvalues⟩ := ih.mp htail
        refine ⟨⟨rfl, hkeys⟩, fun j hj => ?_⟩
        unfold valuesOf at hvalues ⊢
        by_cases hjk : k = j
        · subst hjk
          simp [hvalues k hj, hshown k v v' hj hhead]
        · simpa [hjk] using hvalues j hj
      · rintro ⟨⟨rfl, hkeys⟩, hvalues⟩
        have htail : ∀ j, shown j → valuesOf l j = valuesOf l' j := by
          intro j hj
          have hall := hvalues j hj
          unfold valuesOf at hall ⊢
          by_cases hjk : k = j
          · subst hjk
            simp only [List.filter_cons, BEq.rfl, if_true, List.map_cons, List.cons.injEq] at hall
            exact hall.2
          · simpa [hjk] using hall
        refine ⟨?_, ih.mpr ⟨hkeys, htail⟩⟩
        by_cases hk : shown k
        · have hall := hvalues k hk
          simp only [valuesOf, List.filter_cons, BEq.rfl, if_true, List.map_cons, List.cons.injEq] at hall
          rw [hall.1]
        · exact hhidden k v v' hk

end Keyed

end Abyss.Data
