import Mathlib.Data.List.Basic
import Mathlib.Data.List.Infix
import Mathlib.Tactic.Cases

/-! First occurrence of a marker in a list, as found by scanning windows, and how
the answer changes while the list grows at its end. -/
namespace Abyss.Stream
variable {β : Type} [DecidableEq β]

/-- Index of the first window equal to the marker. -/
@[grind =] def findMarker (marker : List β) : List β → Option Nat
  | [] => none
  | a :: as => if marker <+: a :: as then some 0 else (findMarker marker as).map (· + 1)

theorem findMarker_bound {marker l : List β} {i : Nat} (h : findMarker marker l = some i) :
    i + marker.length ≤ l.length := by
  induction l generalizing i with
  | nil => cases h
  | cons a as ih =>
    rw [findMarker] at h
    split at h
    · next hp =>
      cases h
      simpa using hp.length_le
    · obtain ⟨j, hj, rfl⟩ := Option.map_eq_some_iff.mp h
      have := ih hj
      rw [List.length_cons]
      omega

/-- A found marker stays the first one when the list grows. -/
theorem findMarker_append {marker l : List β} {i : Nat} (r : List β)
    (h : findMarker marker l = some i) : findMarker marker (l ++ r) = some i := by
  induction l generalizing i with
  | nil => cases h
  | cons a as ih =>
    rw [findMarker] at h
    rw [List.cons_append, findMarker]
    split at h
    · next hp =>
      have hq : marker <+: a :: (as ++ r) := hp.trans (List.prefix_append (a :: as) r)
      rw [if_pos hq]
      exact h
    · next hp =>
      obtain ⟨j, hj, rfl⟩ := Option.map_eq_some_iff.mp h
      have hb := findMarker_bound hj
      rw [if_neg, ih hj]
      · rfl
      · intro hq
        have hle : marker.length ≤ (a :: as).length := by rw [List.length_cons]; omega
        exact hp (List.prefix_of_prefix_length_le hq (List.prefix_append (a :: as) r) hle)

/-- A marker that lies inside the front part was found there already. -/
theorem findMarker_of_append {marker l r : List β} {i : Nat}
    (h : findMarker marker (l ++ r) = some i) (hi : i + marker.length ≤ l.length) (hm : marker ≠ []) :
    findMarker marker l = some i := by
  induction l generalizing i with
  | nil =>
    have := List.length_pos_of_ne_nil hm
    rw [List.length_nil] at hi
    omega
  | cons a as ih =>
    rw [List.cons_append, findMarker] at h
    rw [findMarker]
    split at h
    · next hp =>
      rw [if_pos]
      · exact h
      · cases h
        exact List.prefix_of_prefix_length_le hp (List.prefix_append (a :: as) r) (by omega)
    · next hp =>
      obtain ⟨j, hj, rfl⟩ := Option.map_eq_some_iff.mp h
      rw [if_neg, ih hj (by rw [List.length_cons] at hi; omega)]
      · rfl
      · exact fun hq => hp (hq.trans (List.prefix_append (a :: as) r))

/-- Scanning finds the first place at which the marker stands. -/
theorem findMarker_iff {marker l : List β} {i : Nat} (hm : marker ≠ []) :
    findMarker marker l = some i ↔ marker <+: l.drop i ∧ ∀ j < i, ¬ marker <+: l.drop j := by
  induction l generalizing i with
  | nil =>
    simp only [findMarker, reduceCtorEq, List.drop_nil, List.prefix_nil, hm, false_and]
  | cons a as ih =>
    rw [findMarker]
    split
    · next hp =>
      constructor
      · rintro ⟨⟩
        exact ⟨hp, fun j hj => absurd hj (Nat.not_lt_zero j)⟩
      · rintro ⟨-, hfirst⟩
        cases i with
        | zero => rfl
        | succ i => exact absurd hp (hfirst 0 (Nat.succ_pos i))
    · next hp =>
      cases i with
      | zero => simp [hp]
      | succ i =>
        rw [Option.map_eq_some_iff]
        constructor
        · rintro ⟨j, hj, hji⟩
          obtain rfl := Nat.succ.inj hji
          obtain ⟨hat, hfirst⟩ := ih.mp hj
          refine ⟨hat, ?_⟩
          intro k hk
          cases k with
          | zero => exact hp
          | succ k => exact hfirst k (Nat.lt_of_succ_lt_succ hk)
        · rintro ⟨hat, hfirst⟩
          exact ⟨i, ih.mpr ⟨hat, fun k hk => hfirst (k + 1) (Nat.succ_lt_succ hk)⟩, rfl⟩

/-- Scanning passes over items that lack the marker's first one. -/
theorem findMarker_skip {l m : List β} {b : β} (hl : b ∉ l) (r : List β) :
    findMarker (b :: m) (l ++ r) = (findMarker (b :: m) r).map (· + l.length) := by
  induction l with
  | nil => exact Option.map_id'.symm
  | cons a as ih =>
    rw [List.cons_append, findMarker, if_neg, ih (fun h => hl (List.mem_cons_of_mem _ h)), Option.map_map]
    · rfl
    · intro hp
      exact hl ((List.cons_prefix_cons.mp hp).1 ▸ List.mem_cons_self ..)

end Abyss.Stream
