import Mathlib.Algebra.Order.Ring.Int
import Mathlib.Data.List.DropRight
import Mathlib.Data.List.MinMax
import Abyss.Data.HashMap

/-! Counters that saturate, tables of counters for a bounded number of keys, queues of the latest items, and starts that
lie on a grid. -/
namespace Abyss.Data

/-- Addition up to a limit. -/
def addUpTo (limit a b : Nat) : Nat := min (a + b) limit

theorem addUpTo_le (limit a b : Nat) : addUpTo limit a b ≤ a + b := Nat.min_le_left ..

theorem addUpTo_min (limit a b : Nat) : addUpTo limit (min a limit) b = min (a + b) limit := by
  rw [addUpTo]
  omega

/-- A sum up to a limit is at most as many times the greatest weight as there are items. -/
theorem foldl_addUpTo_le {α : Type} (weight : α → Nat) {bound : Nat} (limit : Nat) {l : List α}
    (h : ∀ a ∈ l, weight a ≤ bound) (start : Nat) :
    l.foldl (fun sum a => addUpTo limit sum (weight a)) start ≤ start + l.length * bound := by
  induction l generalizing start with
  | nil => exact Nat.le_add_right ..
  | cons a l ih =>
    have hrest := ih (fun b hb => h b (List.mem_cons_of_mem _ hb)) (addUpTo limit start (weight a))
    have hstart := addUpTo_le limit start (weight a)
    have ha := h a (List.mem_cons_self ..)
    rw [List.foldl_cons, List.length_cons, Nat.add_mul, Nat.one_mul]
    omega

/-- Some item of a list that is not empty has the greatest weight. -/
theorem exists_greatest {α : Type} (weight : α → Nat) {l : List α} (h : l ≠ []) :
    ∃ greatest ∈ l, ∀ a ∈ l, weight a ≤ weight greatest := by
  cases hmax : l.argmax weight with
  | none => exact absurd (List.argmax_eq_none.mp hmax) h
  | some greatest => exact ⟨greatest, List.argmax_mem hmax, fun a ha => List.le_of_mem_argmax ha hmax⟩

/-- Ascending starts on a grid are at least a step of the grid apart. -/
theorem add_length_mul_le {α : Type} (start : α → Nat) {step last : Nat} {a : α} {l : List α}
    (hascending : (a :: l).Pairwise (fun b c => start b < start c)) (hgrid : ∀ b ∈ a :: l, step ∣ start b)
    (hlast : ∀ b ∈ a :: l, start b ≤ last) : start a + l.length * step ≤ last := by
  induction l generalizing a with
  | nil =>
    rw [List.length_nil, Nat.zero_mul, Nat.add_zero]
    exact hlast a (List.mem_cons_self ..)
  | cons b l ih =>
    have hnext := ih hascending.tail (fun c hc => hgrid c (List.mem_cons_of_mem _ hc))
      (fun c hc => hlast c (List.mem_cons_of_mem _ hc))
    have hlt : start a < start b := List.rel_of_pairwise_cons hascending (List.mem_cons_self ..)
    have hstep : step ≤ start b - start a :=
      Nat.le_of_dvd (Nat.sub_pos_of_lt hlt) (Nat.dvd_sub (hgrid b (by simp)) (hgrid a (by simp)))
    rw [List.length_cons, Nat.add_mul, Nat.one_mul]
    omega

section Tally
variable {κ : Type} [DecidableEq κ]

/-- The different keys, in the order in which they came. -/
def distinct (keys : List κ) : List κ := keys.eraseDups

theorem mem_distinct {keys : List κ} {key : κ} : key ∈ distinct keys ↔ key ∈ keys := List.mem_eraseDups

theorem distinct_concat (keys : List κ) (key : κ) :
    distinct (keys ++ [key]) = if key ∈ keys then distinct keys else distinct keys ++ [key] := by
  rw [distinct, List.eraseDups_append, List.cons_removeAll]
  by_cases h : key ∈ keys <;> simp [h, distinct, List.eraseDups_cons]

theorem nodup_distinct (keys : List κ) : (distinct keys).Nodup := by
  induction keys using List.reverseRecOn with
  | nil => exact List.nodup_nil
  | append_singleton keys key ih =>
    rw [distinct_concat]
    split
    · exact ih
    · next hnew => exact List.nodup_append.mpr ⟨ih, List.nodup_singleton _, fun other hother last hlast heq =>
        hnew (mem_distinct.mp (List.mem_singleton.mp hlast ▸ heq ▸ hother))⟩

/-- Keys from a list of labels are no more than these. -/
theorem length_distinct_le {keys labels : List κ} (h : keys ⊆ labels) : (distinct keys).length ≤ labels.length :=
  (List.subperm_of_subset (nodup_distinct keys) fun _ hkey => h (mem_distinct.mp hkey)).length_le

/-- Rearranged keys have as many different ones. -/
theorem length_distinct_perm {keys keys' : List κ} (h : keys.Perm keys') :
    (distinct keys).length = (distinct keys').length := by
  refine ((List.perm_ext_iff_of_nodup (nodup_distinct keys) (nodup_distinct keys')).mpr fun key => ?_).length_eq
  rw [mem_distinct, mem_distinct, h.mem_iff]

variable (most limit : Nat) (other : κ)

/-- Counts a key up to `most`. A table that has `limit` keys counts every new one as `other`. -/
def countKey (table : HashMap κ Nat) (key : κ) : HashMap κ Nat :=
  let target := if key ∈ table ∨ table.size < limit then key else other
  table.insert target (addUpTo most ((table.lookup target).getD 0) 1)

/-- The first `limit` different keys. -/
def tracked (keys : List κ) : List κ := (distinct keys).take limit

/-- The entry a key is counted at. -/
def entryOf (keys : List κ) (key : κ) : κ := if key ∈ tracked limit keys then key else other

/-- How many of the keys are counted at an entry. -/
def tally (keys : List κ) (entry : κ) : Nat := (keys.map (entryOf limit other keys)).count entry

/-- The table counts every key at its own entry, or at `other` when `limit` different keys came before it. -/
def Tallied (keys : List κ) (table : HashMap κ Nat) : Prop :=
  ∀ entry, table.lookup entry = if tally limit other keys entry = 0 then none else some (min (tally limit other keys entry) most)

variable {most limit other}

theorem mem_tracked_concat {keys : List κ} {key k : κ} (hk : k ∈ keys) :
    k ∈ tracked limit (keys ++ [key]) ↔ k ∈ tracked limit keys := by
  rw [tracked, distinct_concat]
  split
  · rfl
  · next hkey =>
    rw [List.take_append, List.mem_append, tracked]
    refine or_iff_left fun hmem => hkey ?_
    rwa [← List.mem_singleton.mp (List.mem_of_mem_take hmem)]

theorem entryOf_concat {keys : List κ} {key k : κ} (hk : k ∈ keys) :
    entryOf limit other (keys ++ [key]) k = entryOf limit other keys k := by
  simp only [entryOf, mem_tracked_concat hk]

theorem tally_concat (keys : List κ) (key entry : κ) : tally limit other (keys ++ [key]) entry =
    tally limit other keys entry + if entryOf limit other (keys ++ [key]) key = entry then 1 else 0 := by
  rw [tally, List.map_append, List.count_append, List.map_singleton, List.count_singleton,
    List.map_congr_left fun k hk => entryOf_concat hk, tally]
  simp only [beq_iff_eq]

theorem Tallied.mem_iff {keys : List κ} {table : HashMap κ Nat} (h : Tallied most limit other keys table) (entry : κ) :
    entry ∈ table ↔ entry ∈ keys.map (entryOf limit other keys) := by
  rw [← AList.lookup_isSome, h entry, ← List.count_pos_iff, ← tally]
  split <;> simp <;> omega

theorem Tallied.size_eq {keys : List κ} {table : HashMap κ Nat} (h : Tallied most limit other keys table) :
    table.size = (distinct (keys.map (entryOf limit other keys))).length := by
  refine HashMap.size_eq_length (nodup_distinct _) fun key => ?_
  rw [mem_distinct, h.mem_iff]

/-- With at most `limit` different keys every key has its own entry. -/
theorem entryOf_eq {keys : List κ} (h : (distinct keys).length ≤ limit) {key : κ} (hkey : key ∈ keys) :
    entryOf limit other keys key = key := by
  rw [entryOf, tracked, List.take_of_length_le h, if_pos (mem_distinct.mpr hkey)]

/-- With at most `limit` different keys the table is a plain count. -/
theorem tally_eq {keys : List κ} (h : (distinct keys).length ≤ limit) (entry : κ) :
    tally limit other keys entry = keys.countP (· = entry) := by
  rw [tally, List.map_congr_left fun key hkey => entryOf_eq h hkey, List.map_id', List.count]
  simp only [beq_eq_decide]

theorem nodup_tracked (keys : List κ) : (tracked limit keys).Nodup := (nodup_distinct keys).take

theorem tracked_subset (keys : List κ) : tracked limit keys ⊆ keys.map (entryOf limit other keys) := by
  intro key hkey
  refine List.mem_map.mpr ⟨key, mem_distinct.mp (List.mem_of_mem_take hkey), ?_⟩
  rw [entryOf, if_pos hkey]

theorem entries_subset (keys : List κ) : keys.map (entryOf limit other keys) ⊆ tracked limit keys ++ [other] := by
  intro entry hentry
  obtain ⟨key, -, rfl⟩ := List.mem_map.mp hentry
  rw [entryOf]
  split
  · next hkey => exact List.mem_append_left _ hkey
  · exact List.mem_append_right _ (List.mem_singleton.mpr rfl)

/-- The table has room exactly while fewer than `limit` different keys came. -/
theorem Tallied.size_lt_iff {keys : List κ} {table : HashMap κ Nat} (h : Tallied most limit other keys table) :
    table.size < limit ↔ (distinct keys).length < limit := by
  rw [h.size_eq]
  rcases Nat.lt_or_ge (distinct keys).length limit with hlt | hge
  · rw [List.map_congr_left fun key hkey => entryOf_eq hlt.le hkey, List.map_id']
  · have htracked : tracked limit keys ⊆ distinct (keys.map (entryOf limit other keys)) := fun key hkey =>
      mem_distinct.mpr (tracked_subset keys hkey)
    have hlength := (List.subperm_of_subset (nodup_tracked keys) htracked).length_le
    rw [tracked, List.length_take] at hlength
    omega

/-- A table never has more entries than the tracked keys and `other`. -/
theorem Tallied.size_le {keys : List κ} {table : HashMap κ Nat} (h : Tallied most limit other keys table) :
    table.size ≤ limit + 1 := by
  have hsubset : distinct (keys.map (entryOf limit other keys)) ⊆ tracked limit keys ++ [other] := fun entry hentry =>
    entries_subset keys (mem_distinct.mp hentry)
  have hlength := (List.subperm_of_subset (nodup_distinct _) hsubset).length_le
  rw [h.size_eq]
  rw [List.length_append, List.length_singleton, tracked, List.length_take] at hlength
  omega

theorem tallied_nil : Tallied most limit other [] (∅ : HashMap κ Nat) := fun _ => rfl

/-- A key is tracked when it already was, or when fewer than `limit` different keys came before it. -/
theorem mem_tracked_self {keys : List κ} {key : κ} :
    key ∈ tracked limit (keys ++ [key]) ↔ key ∈ tracked limit keys ∨ (distinct keys).length < limit := by
  by_cases hkey : key ∈ keys
  · rw [mem_tracked_concat hkey]
    refine (or_iff_left_of_imp fun hroom => ?_).symm
    rw [tracked, List.take_of_length_le hroom.le]
    exact mem_distinct.mpr hkey
  · have hfresh : key ∉ tracked limit keys := fun hmem => hkey (mem_distinct.mp (List.mem_of_mem_take hmem))
    have hlast : key ∈ [key].take (limit - (distinct keys).length) ↔ (distinct keys).length < limit := by
      rw [List.mem_take_iff_getElem]
      simpa using Nat.sub_pos_iff_lt
    rw [tracked, distinct_concat, if_neg hkey, List.take_append, List.mem_append, ← tracked, hlast]

/-- The entry that `countKey` chooses is the key's own. -/
theorem Tallied.target {keys : List κ} {table : HashMap κ Nat} (h : Tallied most limit other keys table) (key : κ) :
    (if key ∈ table ∨ table.size < limit then key else other) = entryOf limit other (keys ++ [key]) key := by
  rw [entryOf]
  by_cases hother : key = other
  · simp only [hother, ite_self]
  · have hmem : key ∈ table ↔ key ∈ tracked limit keys := by
      rw [h.mem_iff]
      refine ⟨fun hentry => ?_, fun htracked => tracked_subset keys htracked⟩
      rcases List.mem_append.mp (entries_subset keys hentry) with htracked | hlast
      · exact htracked
      · exact absurd (List.mem_singleton.mp hlast) hother
    simp only [mem_tracked_self, hmem, h.size_lt_iff]

theorem Tallied.countKey {keys : List κ} {table : HashMap κ Nat} (h : Tallied most limit other keys table) (key : κ) :
    Tallied most limit other (keys ++ [key]) (countKey most limit other table key) := by
  intro entry
  rw [Data.countKey, h.target key, tally_concat]
  by_cases hentry : entryOf limit other (keys ++ [key]) key = entry
  · subst hentry
    rw [AList.lookup_insert, h, if_pos rfl]
    split <;> simp [addUpTo] <;> omega
  · rw [AList.lookup_insert_ne (Ne.symm hentry), h, if_neg hentry, Nat.add_zero]

/-- A table that counted the keys in turn. -/
theorem tallied_foldl (keys : List κ) : Tallied most limit other keys (keys.foldl (Data.countKey most limit other) ∅) := by
  induction keys using List.reverseRecOn with
  | nil => exact tallied_nil
  | append_singleton keys key ih =>
    rw [List.foldl_append, List.foldl_cons, List.foldl_nil]
    exact ih.countKey key

theorem Tallied.getD_le {keys : List κ} {table : HashMap κ Nat} (h : Tallied most limit other keys table) (entry : κ) :
    (table.lookup entry).getD 0 ≤ keys.length := by
  have hcount : tally limit other keys entry ≤ keys.length := by
    rw [tally, ← List.length_map (entryOf limit other keys)]
    exact List.count_le_length
  rw [h entry]
  split
  · exact Nat.zero_le _
  · exact (Nat.min_le_left ..).trans hcount

/-- Nothing is lost: a table that no counter has filled up sums up to the number of keys. -/
theorem total_foldl_countKey {keys : List κ} (h : keys.length ≤ most) :
    HashMap.total id (keys.foldl (Data.countKey most limit other) ∅) = keys.length := by
  induction keys using List.reverseRecOn with
  | nil => rfl
  | append_singleton keys key ih =>
    rw [List.length_append, List.length_singleton] at h
    have htallied : Tallied most limit other keys _ := tallied_foldl keys
    have htotal := ih (Nat.le_of_succ_le h)
    rw [List.foldl_append, List.foldl_cons, List.foldl_nil, Data.countKey, htallied.target key]
    generalize keys.foldl (Data.countKey most limit other) ∅ = table at htallied htotal ⊢
    generalize entryOf limit other (keys ++ [key]) key = target
    have hbelow := htallied.getD_le target
    rw [addUpTo, Nat.min_eq_left (by omega), List.length_append, List.length_singleton, ← htotal]
    cases hlookup : table.lookup target with
    | none =>
      rw [HashMap.total_insert (AList.lookup_eq_none.mp hlookup), Option.getD_none, Nat.zero_add]
      exact Nat.add_comm ..
    | some value =>
      rw [← HashMap.total_erase hlookup, HashMap.total, AList.entries_insert, List.map_cons, List.sum_cons,
        ← HashMap.entries_erase, ← HashMap.total, Option.getD_some]
      simp only [id]
      omega

end Tally

section Recent
variable {α : Type}

/-- Keeps the `limit` latest items. -/
def pushLast (limit : Nat) (items : List α) (item : α) : List α := (items ++ [item]).rtake limit

theorem foldl_pushLast (limit : Nat) (items : List α) : items.foldl (pushLast limit) [] = items.rtake limit := by
  induction items using List.reverseRecOn with
  | nil => rw [List.foldl_nil, List.rtake_nil]
  | append_singleton items item ih =>
    rw [List.foldl_append, List.foldl_cons, List.foldl_nil, ih, pushLast]
    cases limit with
    | zero => rw [List.rtake_zero, List.rtake_zero]
    | succ limit =>
      rw [List.rtake_concat_succ, List.rtake_concat_succ, List.rtake, List.rtake, List.rtake, List.drop_drop,
        List.length_drop]
      congr 2
      omega

end Recent
end Abyss.Data
