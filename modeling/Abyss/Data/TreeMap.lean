import Mathlib.Data.List.Dedup
import Mathlib.Data.List.Perm.Basic
import Mathlib.Data.List.Sort

/-! Values of ordered maps with natural keys, in key order. -/
namespace Abyss.Data
open Std

abbrev TreeMap (α : Type) := ExtTreeMap Nat α

namespace TreeMap
variable {α β γ : Type}

/-- `BTreeMap::values`. -/
def values (m : TreeMap α) : List α := m.toList.map Prod.snd

/-- Maps whose values look alike under `f` and `g` at every key give the same list. -/
theorem flatMap_values_congr {m₁ : TreeMap α} {m₂ : TreeMap γ} {f : α → List β} {g : γ → List β}
    (h : ∀ k : Nat, m₁[k]?.map f = m₂[k]?.map g) : m₁.values.flatMap f = m₂.values.flatMap g := by
  have hmap : m₁.map (fun _ => f) = m₂.map (fun _ => g) := by
    apply ExtTreeMap.ext_getElem?
    intro k
    rw [ExtTreeMap.getElem?_map, ExtTreeMap.getElem?_map, h]
  have hlist := congrArg (fun m => m.toList.map Prod.snd) hmap
  simp only [ExtTreeMap.toList_map, List.map_map] at hlist
  simp only [values, List.flatMap_def, List.map_map]
  exact congrArg List.flatten hlist

/-- An alteration that finds nothing to change changes nothing. -/
theorem alter_eq_self {m : TreeMap α} {k : Nat} {change : Option α → Option α} (h : change m[k]? = m[k]?) :
    m.alter k change = m := by
  apply ExtTreeMap.ext_getElem?
  intro i
  by_cases hi : k = i
  · subst hi
    rw [ExtTreeMap.getElem?_alter_self, h]
  · simp [ExtTreeMap.getElem?_alter, hi]

theorem alter_congr {m : TreeMap α} {k : Nat} {change change' : Option α → Option α} (h : change m[k]? = change' m[k]?) :
    m.alter k change = m.alter k change' := by
  apply ExtTreeMap.ext_getElem?
  intro i
  by_cases hi : k = i
  · subst hi
    rw [ExtTreeMap.getElem?_alter_self, ExtTreeMap.getElem?_alter_self, h]
  · simp [ExtTreeMap.getElem?_alter, hi]

theorem insert_eq_alter {m : TreeMap α} {k : Nat} {a : α} : m.insert k a = m.alter k (fun _ => some a) := by
  apply ExtTreeMap.ext_getElem?
  intro i
  simp [ExtTreeMap.getElem?_insert, ExtTreeMap.getElem?_alter]

/-- The pairs that a list keeps, by position. -/
private def positions (g : α → Option β) (l : List α) : List (Nat × β) :=
  l.zipIdx.filterMap (fun p => (g p.1).map (p.2, ·))

private theorem positions_ordered (g : α → Option β) (l : List α) :
    (positions g l).Pairwise (fun a b => a.1 < b.1) := by
  have hkeys : (l.zipIdx.map Prod.snd).Pairwise (· < ·) := by
    rw [List.zipIdx_map_snd]
    exact List.pairwise_lt_range'
  rw [List.pairwise_map] at hkeys
  rw [positions, List.pairwise_filterMap]
  apply hkeys.imp
  intro a b hlt c hc d hd
  obtain ⟨_, _, rfl⟩ := Option.map_eq_some_iff.mp hc
  obtain ⟨_, _, rfl⟩ := Option.map_eq_some_iff.mp hd
  exact hlt

private theorem toList_positions {m : TreeMap β} {l : List α} {g : α → Option β}
    (h : ∀ k : Nat, m[k]? = l[k]?.bind g) : m.toList = positions g l := by
  have hordered : m.toList.Pairwise (fun a b => a.1 < b.1) :=
    ExtTreeMap.ordered_keys_toList.imp (fun hlt => Nat.compare_eq_lt.mp hlt)
  have hnodup : ∀ {ps : List (Nat × β)}, ps.Pairwise (fun a b => a.1 < b.1) → ps.Nodup :=
    fun hp => hp.imp (fun hlt heq => absurd (congrArg Prod.fst heq) (Nat.ne_of_lt hlt))
  have hperm : m.toList.Perm (positions g l) := by
    rw [List.perm_ext_iff_of_nodup (hnodup hordered) (hnodup (positions_ordered g l))]
    rintro ⟨k, v⟩
    rw [ExtTreeMap.mem_toList_iff_getElem?_eq_some, h, positions, List.mem_filterMap]
    constructor
    · intro hk
      obtain ⟨a, ha, hv⟩ := Option.bind_eq_some_iff.mp hk
      exact ⟨(a, k), List.mem_zipIdx_iff_getElem?.mpr ha, by rw [hv]; rfl⟩
    · rintro ⟨⟨a, j⟩, hmem, heq⟩
      obtain ⟨w, hw, hpair⟩ := Option.map_eq_some_iff.mp heq
      cases hpair
      rw [List.mem_zipIdx_iff_getElem?.mp hmem, Option.bind_some, hw]
  apply hperm.eq_of_pairwise _ hordered (positions_ordered g l)
  intro a b _ _ hab hba
  exact absurd (Nat.lt_trans hab hba) (Nat.lt_irrefl _)

/-- A map indexed like the kept items of a list has those items as its values. -/
theorem values_eq_filterMap {m : TreeMap β} {l : List α} {g : α → Option β} (h : ∀ k : Nat, m[k]? = l[k]?.bind g) :
    m.values = l.filterMap g := by
  rw [values, toList_positions h, positions, List.map_filterMap]
  have hkept : (fun p : α × Nat => ((g p.1).map (p.2, ·)).map Prod.snd) = g ∘ Prod.fst := by
    funext p
    cases hg : g p.1 <;> simp [hg]
  rw [hkept, ← List.filterMap_map, List.zipIdx_map_fst]

/-- A map indexed like a list has that list as its values. -/
theorem values_eq {m : TreeMap α} {l : List α} (h : ∀ k : Nat, m[k]? = l[k]?) : m.values = l := by
  have hkept : ∀ k : Nat, m[k]? = l[k]?.bind some := fun k => by rw [h, Option.bind_fun_some]
  rw [values_eq_filterMap hkept, List.filterMap_some]

@[simp] theorem values_empty : (∅ : TreeMap α).values = [] := values_eq (fun k => by simp)

/-- Changing each position of a list in turn changes each key once. -/
theorem getElem?_foldl_alter (change : α → Option β → Option β) (l : List α) (m : TreeMap β) (k : Nat) :
    (l.zipIdx.foldl (fun m p => m.alter p.2 (change p.1)) m)[k]? = (l[k]?.map (change · m[k]?)).getD m[k]? := by
  have hoffset : ∀ (l : List α) (n : Nat) (m : TreeMap β),
      ((l.zipIdx n).foldl (fun m p => m.alter p.2 (change p.1)) m)[k]? =
        if n ≤ k then (l[k - n]?.map (change · m[k]?)).getD m[k]? else m[k]? := by
    intro l
    induction l with
    | nil => simp
    | cons a l ih =>
      intro n m
      rw [List.zipIdx_cons, List.foldl_cons, ih, ExtTreeMap.getElem?_alter]
      rcases Nat.lt_trichotomy k n with hlt | rfl | hgt
      · simp [Nat.not_le.mpr hlt, Nat.not_le.mpr (Nat.lt_succ_of_lt hlt), Nat.ne_of_gt hlt]
      · simp
      · obtain ⟨d, rfl⟩ := Nat.exists_eq_add_of_lt hgt
        have hd : n + d + 1 - n = d + 1 := by omega
        have hd' : n + d + 1 - (n + 1) = d := by omega
        simp [hd, hd', show n ≤ n + d + 1 by omega, show n ≠ n + d + 1 by omega]
  simpa using hoffset l 0 m

theorem alter_idem {change : Option α → Option α} (h : ∀ old, change (change old) = change old) (m : TreeMap α) (k : Nat) :
    (m.alter k change).alter k change = m.alter k change := by
  refine alter_eq_self ?_
  rw [ExtTreeMap.getElem?_alter_self]
  exact h _

/-- Changing the positions of a list again changes nothing when no change does anything twice. -/
theorem foldl_alter_idem {change : α → Option β → Option β} (h : ∀ a old, change a (change a old) = change a old) (l : List α)
    (m : TreeMap β) :
    l.zipIdx.foldl (fun m p => m.alter p.2 (change p.1)) (l.zipIdx.foldl (fun m p => m.alter p.2 (change p.1)) m) =
      l.zipIdx.foldl (fun m p => m.alter p.2 (change p.1)) m := by
  refine ExtTreeMap.ext_getElem? ?_
  intro k
  rw [getElem?_foldl_alter, getElem?_foldl_alter]
  cases l[k]? with
  | none => rfl
  | some a => exact h a _

/-- Slots that are changed by index, created fresh when absent, each see the items of their index. -/
theorem getElem?_foldl_slot (index : γ → Nat) (fresh : α) (change : α → γ → α) (items : List γ) (m : TreeMap α) (k : Nat) :
    (items.foldl (fun m item => m.alter (index item) (fun slot => some (change (slot.getD fresh) item))) m)[k]? =
      if items.filter (index · = k) = [] then m[k]?
      else some ((items.filter (index · = k)).foldl change (m[k]?.getD fresh)) := by
  induction items generalizing m with
  | nil => rfl
  | cons item items ih =>
    rw [List.foldl_cons, ih, ExtTreeMap.getElem?_alter]
    by_cases hk : index item = k
    · rw [List.filter_cons_of_pos (by simpa using hk), if_neg (List.cons_ne_nil _ _)]
      subst hk
      simp only [compare_self, if_true, Option.getD_some, List.foldl_cons]
      split
      · rename_i hnil
        rw [hnil]
        rfl
      · rfl
    · rw [List.filter_cons_of_neg (by simpa using hk)]
      simp [hk]

/-- The entries of a map are among those of a map that extends it, in order. -/
private theorem toList_sublist {m m' : TreeMap α} (h : ∀ (k : Nat) a, m[k]? = some a → m'[k]? = some a) :
    m.toList.Sublist m'.toList := by
  have hkept : m'.filter (fun k _ => m[k]?.isSome) = m := by
    apply ExtTreeMap.ext_getElem?
    intro k
    rw [ExtTreeMap.getElem?_filter']
    cases hk : m[k]? with
    | none => simp
    | some a => simp [h k a hk]
  rw [← hkept, ExtTreeMap.toList_filter]
  exact List.filter_sublist

theorem values_sublist {m m' : TreeMap α} (h : ∀ (k : Nat) a, m[k]? = some a → m'[k]? = some a) :
    m.values.Sublist m'.values :=
  (toList_sublist h).map Prod.snd

/-- A map that extends another one without more values is that map. -/
theorem eq_of_values_length {m m' : TreeMap α} (h : ∀ (k : Nat) a, m[k]? = some a → m'[k]? = some a)
    (hlength : m'.values.length ≤ m.values.length) : m' = m := by
  rw [values, values, List.length_map, List.length_map] at hlength
  exact ExtTreeMap.toList_inj.mp ((toList_sublist h).eq_of_length_le hlength).symm

/-- A map that extends another one and has only its keys is that map. -/
theorem eq_iff_of_extends {m m' : TreeMap α} (h : ∀ (k : Nat) a, m[k]? = some a → m'[k]? = some a) :
    m' = m ↔ ∀ k : Nat, m'[k]?.isSome → m[k]?.isSome := by
  constructor
  · rintro rfl k hk
    exact hk
  · intro hkeys
    apply ExtTreeMap.ext_getElem?
    intro k
    cases hk : m[k]? with
    | some a => exact h k a hk
    | none =>
      cases hk' : m'[k]? with
      | none => rfl
      | some a =>
        have hsome := hkeys k (by rw [hk']; rfl)
        rw [hk] at hsome
        cases hsome

theorem mem_values {m : TreeMap α} {a : α} : a ∈ m.values ↔ ∃ k : Nat, m[k]? = some a := by
  simp only [values, List.mem_map, Prod.exists, ExtTreeMap.mem_toList_iff_getElem?_eq_some]
  constructor
  · rintro ⟨k, a, hk, rfl⟩
    exact ⟨k, hk⟩
  · rintro ⟨k, hk⟩
    exact ⟨k, a, hk, rfl⟩

theorem values_eq_nil {m : TreeMap α} : m.values = [] ↔ ∀ k : Nat, m[k]? = none := by
  constructor
  · intro h k
    cases hk : m[k]? with
    | none => rfl
    | some a =>
      have hmem := mem_values.mpr ⟨k, hk⟩
      rw [h] at hmem
      cases hmem
  · intro h
    apply List.eq_nil_iff_forall_not_mem.mpr
    intro a hmem
    obtain ⟨k, hk⟩ := mem_values.mp hmem
    rw [h k] at hk
    cases hk

/-- A map has at most one value exactly when all its keys are the same. -/
theorem values_length_le_one {m : TreeMap α} :
    m.values.length ≤ 1 ↔ ∀ i j : Nat, m[i]?.isSome → m[j]?.isSome → i = j := by
  rw [values, List.length_map]
  have hmem : ∀ (k : Nat) a, (k, a) ∈ m.toList ↔ m[k]? = some a := fun k a => ExtTreeMap.mem_toList_iff_getElem?_eq_some
  constructor
  · intro h i j hi hj
    obtain ⟨a, ha⟩ := Option.isSome_iff_exists.mp hi
    obtain ⟨b, hb⟩ := Option.isSome_iff_exists.mp hj
    rw [← hmem] at ha hb
    match htoList : m.toList with
    | [] =>
      rw [htoList] at ha
      cases ha
    | [p] =>
      rw [htoList, List.mem_singleton] at ha hb
      exact congrArg Prod.fst (ha.trans hb.symm)
    | _ :: _ :: _ =>
      rw [htoList] at h
      simp at h
  · intro h
    match htoList : m.toList with
    | [] => exact Nat.zero_le 1
    | [_] => exact Nat.le_refl 1
    | (i, a) :: (j, b) :: rest =>
      have hi := (hmem i a).mp (by rw [htoList]; exact List.mem_cons_self)
      have hj := (hmem j b).mp (by rw [htoList]; exact List.mem_cons_of_mem _ List.mem_cons_self)
      have hordered := ExtTreeMap.ordered_keys_toList (t := m)
      rw [htoList, List.pairwise_cons] at hordered
      have hlt := Nat.compare_eq_lt.mp (hordered.1 _ List.mem_cons_self)
      exact absurd (h i j (by rw [hi]; rfl) (by rw [hj]; rfl)) (Nat.ne_of_lt hlt)

end TreeMap
end Abyss.Data
