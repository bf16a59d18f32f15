import Mathlib.Algebra.Order.Ring.Int
import Mathlib.Data.List.AList

/-! Totals over the values of a finite map. -/
namespace Abyss.Data

/-- Key-value maps without an order. -/
abbrev HashMap (κ α : Type) := AList (fun _ : κ => α)

namespace HashMap
variable {κ α : Type}

/-- The sum of a weight over the values. -/
def total (weight : α → Nat) (m : HashMap κ α) : Nat := (m.entries.map (fun e => weight e.2)).sum

def size (m : HashMap κ α) : Nat := m.entries.length

@[simp] theorem total_empty (weight : α → Nat) : total weight (∅ : HashMap κ α) = 0 := rfl

theorem total_of_size_eq_zero {weight : α → Nat} {m : HashMap κ α} (h : m.size = 0) : total weight m = 0 := by
  rw [total, List.length_eq_zero_iff.mp h]
  rfl

/-- A list that names each key once is as long as the map. -/
theorem size_eq_length {m : HashMap κ α} {order : List κ} (hnodup : order.Nodup) (hmem : ∀ key, key ∈ order ↔ key ∈ m) :
    m.size = order.length := by
  have hperm : m.keys.Perm order := by
    rw [List.perm_ext_iff_of_nodup m.keys_nodup hnodup]
    intro key
    rw [hmem, AList.mem_keys]
  rw [size, ← hperm.length_eq, AList.keys, List.keys, List.length_map]

theorem size_eq_total (m : HashMap κ α) : size m = total (fun _ => 1) m := by
  rw [size, total, List.map_const', List.sum_replicate_nat, Nat.mul_one]

/-- `HashMap::retain` by value. -/
def retain (keep : α → Bool) (m : HashMap κ α) : HashMap κ α where
  entries := m.entries.filter (fun e => keep e.2)
  nodupKeys := m.nodupKeys.sublist List.filter_sublist

theorem size_retain_le (keep : α → Bool) (m : HashMap κ α) : (m.retain keep).size ≤ m.size :=
  List.length_filter_le _ _

variable [DecidableEq κ]

theorem entries_erase (m : HashMap κ α) (key : κ) : (m.erase key).entries = m.entries.kerase key := rfl

theorem total_erase {weight : α → Nat} {m : HashMap κ α} {key : κ} {value : α} (h : m.lookup key = some value) :
    weight value + total weight (m.erase key) = total weight m := by
  obtain ⟨entries, hnodup⟩ := m
  have hmem : key ∈ List.keys entries := AList.lookup_isSome.mp (Option.isSome_of_eq_some h)
  obtain ⟨found, front, back, hfront, rfl, herase⟩ := List.exists_of_kerase hmem
  have hat : (⟨key, found⟩ : (_ : κ) × α) ∈ front ++ ⟨key, found⟩ :: back := by simp
  obtain rfl : found = value := Option.some.inj ((List.mem_dlookup hnodup hat).symm.trans h)
  simp only [total, entries_erase, herase, List.map_append, List.map_cons, List.sum_append, List.sum_cons]
  omega

theorem total_insert {weight : α → Nat} {m : HashMap κ α} {key : κ} {value : α} (h : key ∉ m) :
    total weight (m.insert key value) = weight value + total weight m := by
  rw [total, AList.entries_insert_of_notMem h, List.map_cons, List.sum_cons, total]

theorem lookup_retain (keep : α → Bool) (m : HashMap κ α) (key : κ) :
    (m.retain keep).lookup key = (m.lookup key).filter keep := by
  apply Option.ext
  intro value
  have hretained : value ∈ (m.retain keep).lookup key ↔ value ∈ m.lookup key ∧ keep value = true := by
    rw [AList.mem_lookup_iff, AList.mem_lookup_iff]
    exact List.mem_filter
  rw [Option.filter_eq_some_iff]
  exact hretained

theorem size_erase_le (m : HashMap κ α) (key : κ) : size (m.erase key) ≤ size m :=
  (List.kerase_sublist key m.entries).length_le

theorem size_erase {m : HashMap κ α} {key : κ} (h : key ∈ m) : size (m.erase key) + 1 = size m := by
  obtain ⟨value, hvalue⟩ := Option.isSome_iff_exists.mp (AList.lookup_isSome.mpr h)
  rw [size_eq_total, size_eq_total, ← total_erase hvalue, Nat.add_comm]

theorem size_insert_le {m : HashMap κ α} {key : κ} {value : α} : size (m.insert key value) ≤ size m + 1 := by
  rw [size, AList.entries_insert, List.length_cons]
  exact Nat.succ_le_succ (size_erase_le m key)

end HashMap
end Abyss.Data
