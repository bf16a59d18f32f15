import Mathlib.Data.List.Basic

/-! The choice of the only candidate that a policy enables. -/
namespace Abyss.Data
variable {α : Type}

/-- One candidate is enabled and no other one is. -/
structure Sole (candidate enabled : α → Prop) (a : α) : Prop where
  isCandidate : candidate a
  isEnabled : enabled a
  only : ∀ b, candidate b → enabled b → b = a

namespace Sole
variable {candidate enabled enabled' : α → Prop} {a b : α}

theorem unique (ha : Sole candidate enabled a) (hb : Sole candidate enabled b) : b = a :=
  ha.only b hb.isCandidate hb.isEnabled

/-- Policies that choose differently each disable what the other one chooses. -/
theorem disabled (ha : Sole candidate enabled a) (hb : Sole candidate enabled' b) (hne : a ≠ b) :
    ¬ enabled b ∧ ¬ enabled' a :=
  ⟨fun h => hne (ha.only b hb.isCandidate h).symm, fun h => hne (hb.only a ha.isCandidate h)⟩

theorem congr {candidate' : α → Prop} (hc : ∀ b, candidate b ↔ candidate' b)
    (he : ∀ b, candidate b → (enabled b ↔ enabled' b)) : Sole candidate enabled a ↔ Sole candidate' enabled' a := by
  constructor
  · intro h
    refine ⟨(hc a).mp h.isCandidate, (he a h.isCandidate).mp h.isEnabled, fun b hb hb' => ?_⟩
    exact h.only b ((hc b).mpr hb) ((he b ((hc b).mpr hb)).mpr hb')
  · intro h
    have ha := (hc a).mpr h.isCandidate
    exact ⟨ha, (he a ha).mpr h.isEnabled, fun b hb hb' => h.only b ((hc b).mp hb) ((he b hb).mp hb')⟩

/-- No policy of a family changes the choice exactly when there is nothing to choose from,
provided the family has a policy that enables any one candidate alone. -/
theorem stable_iff {P : Type} {enabledBy : P → α → Prop}
    (halone : ∀ a, candidate a → ∃ p, ∀ b, candidate b → (enabledBy p b ↔ b = a)) :
    (∀ p q a b, Sole candidate (enabledBy p) a → Sole candidate (enabledBy q) b → a = b) ↔
      ∀ a b, candidate a → candidate b → a = b := by
  constructor
  · intro hstable a b ha hb
    obtain ⟨p, hp⟩ := halone a ha
    obtain ⟨q, hq⟩ := halone b hb
    exact hstable p q a b ⟨ha, (hp a ha).mpr rfl, fun c hc h => (hp c hc).mp h⟩
      ⟨hb, (hq b hb).mpr rfl, fun c hc h => (hq c hc).mp h⟩
  · intro hone p q a b ha hb
    exact hone a b ha.isCandidate hb.isCandidate

end Sole

/-- A filter of distinct items keeps one item alone exactly when that item is the only one it accepts. -/
theorem filter_eq_singleton_iff {p : α → Bool} {l : List α} {a : α} (hnodup : l.Nodup) :
    l.filter p = [a] ↔ Sole (· ∈ l) (p · = true) a := by
  have hkept : ∀ b, b ∈ l.filter p ↔ b ∈ l ∧ p b = true := fun b => List.mem_filter
  constructor
  · intro h
    rw [h] at hkept
    have ha := (hkept a).mp (List.mem_singleton_self a)
    exact ⟨ha.1, ha.2, fun b hb hp => List.mem_singleton.mp ((hkept b).mpr ⟨hb, hp⟩)⟩
  · intro h
    apply List.perm_singleton.mp
    rw [List.perm_ext_iff_of_nodup (hnodup.filter p) (List.pairwise_singleton _ a)]
    intro b
    rw [hkept, List.mem_singleton]
    constructor
    · exact fun hb => h.only b hb.1 hb.2
    · rintro rfl
      exact ⟨h.isCandidate, h.isEnabled⟩

/-- A list with one item is that item. -/
theorem getLast?_eq_sole {l : List α} {a : α} : (if l.length ≠ 1 then none else l.getLast?) = some a ↔ l = [a] := by
  match l with
  | [] => simp
  | [b] => simp
  | b :: c :: rest => simp

/-- Items collected in order, each with its own key if there is one, have their keys in that order. -/
theorem map_key_sublist {β κ : Type} {key : β → κ} {found : List (Option β)} {keys : List κ}
    (h : List.Forall₂ (fun item k => ∀ b, item = some b → key b = k) found keys) :
    ((found.filterMap id).map key).Sublist keys := by
  induction h with
  | nil => exact List.Sublist.slnil
  | @cons item k _ _ hitem _ ih =>
    cases item with
    | none => exact ih.cons k
    | some b =>
      change (key b :: (List.filterMap id _).map key).Sublist _
      rw [hitem b rfl]
      exact ih.cons_cons k

end Abyss.Data
