import Mathlib.Data.List.Pairwise
import Mathlib.Data.List.Perm.Basic
import Mathlib.Data.List.Sort
import Mathlib.Order.Basic

/-! The greatest entries of a history, kept while it grows, and what an order by a part of the key leaves open. -/
namespace Abyss.Data
variable {α κ : Type} [LinearOrder κ]

/-- A rearrangement of images is the image of a rearrangement. -/
theorem exists_map_of_perm {β : Type} {f : α → β} {images : List β} {l : List α} (h : images.Perm (l.map f)) :
    ∃ l' : List α, l'.Perm l ∧ images = l'.map f := by
  induction images generalizing l with
  | nil =>
    obtain rfl := List.map_eq_nil_iff.mp h.symm.eq_nil
    exact ⟨[], .refl _, rfl⟩
  | cons image images ih =>
    obtain ⟨a, ha, rfl⟩ := List.mem_map.mp (h.mem_iff.mp List.mem_cons_self)
    obtain ⟨front, back, rfl⟩ := List.append_of_mem ha
    have hrest : images.Perm ((front ++ back).map f) := by
      rw [List.map_append, List.map_cons] at h
      rw [List.map_append]
      exact (h.trans List.perm_middle).cons_inv
    obtain ⟨l', hperm, rfl⟩ := ih hrest
    exact ⟨a :: l', (hperm.cons a).trans List.perm_middle.symm, rfl⟩

/-- The entries that have the names of the first ones are these. -/
theorem filter_names_perm {β : Type} [DecidableEq β] {name : α → β} {l sorted : List α} (hperm : sorted.Perm l) (hnodup : (l.map name).Nodup) (n : Nat) :
    (l.filter (fun a => name a ∈ (sorted.take n).map name)).Perm (sorted.take n) := by
  have hnames : (sorted.map name).Nodup := (hperm.map name).nodup_iff.mpr hnodup
  rw [← List.take_append_drop n sorted, List.map_append, List.nodup_append] at hnames
  have htake : (sorted.take n).filter (fun a => name a ∈ (sorted.take n).map name) = sorted.take n :=
    List.filter_eq_self.mpr fun a ha => decide_eq_true (List.mem_map_of_mem ha)
  have hdrop : (sorted.drop n).filter (fun a => name a ∈ (sorted.take n).map name) = [] := by
    rw [List.filter_eq_nil_iff]
    intro a ha hmem
    exact hnames.2.2 _ (of_decide_eq_true hmem) _ (List.mem_map_of_mem ha) rfl
  have hfilter : (sorted.take n ++ sorted.drop n).filter (fun a => name a ∈ (sorted.take n).map name) = sorted.take n := by
    rw [List.filter_append, htake, hdrop, List.append_nil]
  rw [List.take_append_drop] at hfilter
  refine (hperm.symm.filter _).trans ?_
  rw [hfilter]

section Retention
variable (key : α → κ)

/-- The entries with the greatest key first. -/
def descending (l : List α) : List α := l.mergeSort (fun a b => decide (key b ≤ key a))

variable {key}

theorem descending_perm (l : List α) : (descending key l).Perm l := List.mergeSort_perm l _

theorem descending_pairwise (l : List α) : (descending key l).Pairwise (fun a b => key b ≤ key a) := by
  have h := @List.pairwise_mergeSort α (fun a b => decide (key b ≤ key a))
    (by intro a b c; simpa using fun hba hcb => le_trans hcb hba) (by intro a b; simpa using le_total (key b) (key a)) l
  exact h.imp (fun h => by simpa using h)

/-- Different keys are in strict order. -/
theorem descending_strict {l : List α} (h : (l.map key).Nodup) : (descending key l).Pairwise (fun a b => key b < key a) := by
  have hnodup : (descending key l).Pairwise (fun a b => key a ≠ key b) := by
    rw [← List.pairwise_map]
    exact ((descending_perm l).map key).nodup_iff.mpr h
  exact (descending_pairwise l).imp₂ (fun a b hle hne => lt_of_le_of_ne hle (Ne.symm hne)) hnodup

/-- Entries in strict order have one arrangement. -/
theorem eq_of_strict {l l' : List α} (hperm : l.Perm l') (h : l.Pairwise (fun a b => key b < key a))
    (h' : l'.Pairwise (fun a b => key b < key a)) : l = l' := by
  apply List.Perm.eq_of_pairwise _ h h' hperm
  exact fun a b _ _ hab hba => absurd hab (lt_asymm hba)

/-- The `n` entries of the history with the greatest keys, in order. -/
structure Retains (key : α → κ) (n : Nat) (history kept : List α) : Prop where
  ordered : kept.Pairwise (fun a b => key b < key a)
  rest : ∃ dropped, history.Perm (kept ++ dropped) ∧ ∀ d ∈ dropped, ∀ s ∈ kept, key d < key s
  length : kept.length = min n history.length

theorem retains_nil (n : Nat) : Retains key n [] [] := ⟨.nil, ⟨[], .refl _, nofun⟩, by simp⟩

/-- One more entry: the greatest of what was kept and the new one. -/
theorem Retains.insert {n : Nat} {history kept : List α} (h : Retains key n history kept) {x : α}
    (hx : ∀ s ∈ kept, key s ≠ key x) : Retains key n (history ++ [x]) ((descending key (kept ++ [x])).take n) := by
  obtain ⟨hordered, ⟨dropped, hperm, hless⟩, hlength⟩ := h
  have hnodup : ((kept ++ [x]).map key).Nodup := by
    rw [List.map_append, List.nodup_append]
    refine ⟨?_, List.nodup_singleton _, ?_⟩
    · exact List.pairwise_map.mpr (hordered.imp fun hlt => ne_of_gt hlt)
    · simpa using hx
  have hstrict := descending_strict hnodup
  have hall : (descending key (kept ++ [x])).Perm (kept ++ [x]) := descending_perm _
  generalize descending key (kept ++ [x]) = sorted at hstrict hall
  have hcount : sorted.length = kept.length + 1 := by rw [hall.length_eq, List.length_append, List.length_singleton]
  have hsplit := List.take_append_drop n sorted
  rw [← hsplit, List.pairwise_append] at hstrict
  obtain ⟨htake, -, hcross⟩ := hstrict
  refine ⟨htake, ⟨sorted.drop n ++ dropped, ?_, ?_⟩, ?_⟩
  · have hnew : (history ++ [x]).Perm (kept ++ [x] ++ dropped) := by
      refine (hperm.append_right [x]).trans ?_
      rw [List.append_assoc, List.append_assoc]
      exact List.perm_append_comm.append_left kept
    rw [← List.append_assoc, hsplit]
    exact hnew.trans (hall.symm.append_right dropped)
  · intro d hd s hs
    rcases List.mem_append.mp hd with hd | hd
    · exact hcross s hs d hd
    · -- something was dropped, so that the kept entries were `n`, and the new order leaves one out
      have hfull : n < sorted.length := by
        have hlen := hperm.length_eq
        have hpos := List.length_pos_of_mem hd
        rw [List.length_append] at hlen
        omega
      have hs' := hall.mem_iff.mp (List.mem_of_mem_take hs)
      rcases List.mem_append.mp hs' with hkept | hnew
      · exact hless d hd s hkept
      · obtain rfl := List.mem_singleton.mp hnew
        obtain ⟨e, he⟩ := List.exists_mem_of_length_pos (l := sorted.drop n) (by rw [List.length_drop]; omega)
        have hes := hcross s hs e he
        rcases List.mem_append.mp (hall.mem_iff.mp (List.mem_of_mem_drop he)) with hkept | hself
        · exact lt_trans (hless d hd e hkept) hes
        · obtain rfl := List.mem_singleton.mp hself
          exact absurd hes (lt_irrefl _)
  · rw [List.length_take, hcount, hlength, List.length_append, List.length_singleton]
    omega

end Retention

section Ties
variable {ι : Type} [LinearOrder ι] {rank : α → κ} {name : α → ι} {l l' : List α} {n : Nat}

/-- An order by rank shows the first entries of any other one, where none of them shares its rank. -/
theorem take_eq_of_distinct (hperm : l.Perm l') (hl : l.Pairwise (fun a b => rank b ≤ rank a))
    (hl' : l'.Pairwise (fun a b => rank b ≤ rank a)) (h : ∀ r ∈ l'.take n, ∀ s ∈ l', rank s = rank r → s = r) :
    l.take n = l'.take n := by
  induction l' generalizing l n with
  | nil => rw [hperm.eq_nil]
  | cons b l' ih =>
    cases n with
    | zero => rfl
    | succ n =>
      cases l with
      | nil => exact absurd hperm.symm.eq_nil (List.cons_ne_nil _ _)
      | cons a l =>
        rw [List.pairwise_cons] at hl hl'
        have hab : a = b := by
          apply h b (List.mem_cons_self) a (hperm.mem_iff.mp List.mem_cons_self)
          apply le_antisymm
          · rcases List.mem_cons.mp (hperm.mem_iff.mp List.mem_cons_self) with rfl | ha
            · exact le_refl _
            · exact hl'.1 a ha
          · rcases List.mem_cons.mp (hperm.mem_iff.mpr List.mem_cons_self) with rfl | hb
            · exact le_refl _
            · exact hl.1 b hb
        subst hab
        rw [List.take_succ_cons, List.take_succ_cons, ih (List.Perm.cons_inv hperm) hl.2 hl'.2]
        exact fun r hr s hs => h r (List.mem_cons_of_mem _ hr) s (List.mem_cons_of_mem _ hs)

omit [LinearOrder κ] in
/-- Two orders that break ties by name in opposite directions show the same first entries only where there are none. -/
theorem distinct_of_take_eq (hl : l.Pairwise (fun a b => rank a = rank b → name a < name b))
    (hl' : l'.Pairwise (fun a b => rank a = rank b → name b < name a)) (hperm : l.Perm l') (h : l.take n = l'.take n) :
    ∀ r ∈ l'.take n, ∀ s ∈ l', rank s = rank r → s = r := by
  intro r hr s hs hrank
  by_contra hne
  rw [← List.take_append_drop n l, List.pairwise_append] at hl
  rw [← List.take_append_drop n l', List.pairwise_append] at hl'
  rw [h] at hl
  rw [← List.take_append_drop n l', List.mem_append] at hs
  rcases hs with hs | hs
  · have hboth : (l'.take n).Pairwise (fun a b => rank a ≠ rank b) :=
      hl.1.imp₂ (fun a b hlt hgt heq => lt_asymm (hlt heq) (hgt heq)) hl'.1
    have hsymm : Std.Symm (fun a b : α => rank a ≠ rank b) := ⟨fun _ _ hab heq => hab heq.symm⟩
    exact hboth.forall hs hr hne hrank
  · have hs' : s ∈ l.drop n := by
      have hdrop : (l.drop n).Perm (l'.drop n) := by
        have hsplit := hperm
        rw [← List.take_append_drop n l, ← List.take_append_drop n l', h] at hsplit
        exact (List.perm_append_left_iff _).mp hsplit
      exact hdrop.mem_iff.mpr hs
    exact lt_asymm (hl.2.2 r hr s hs' hrank.symm) (hl'.2.2 r hr s hs hrank.symm)

end Ties
end Abyss.Data
