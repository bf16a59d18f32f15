import Mathlib.Algebra.Order.Ring.Int
import Mathlib.Data.List.Basic
import Mathlib.Tactic.Ring

/-! Little-endian numbers of a fixed width, and records taken apart from the front. -/
namespace Abyss.Data

/-- `to_le_bytes` of a number of `width` bytes. -/
def leBytes : Nat → Nat → List UInt8
  | 0, _ => []
  | width + 1, n => UInt8.ofNat n :: leBytes width (n / 256)

/-- `from_le_bytes`. -/
def ofLeBytes : List UInt8 → Nat
  | [] => 0
  | byte :: rest => byte.toNat + 256 * ofLeBytes rest

@[simp] theorem length_leBytes (width n : Nat) : (leBytes width n).length = width := by
  induction width generalizing n with
  | zero => rfl
  | succ width ih => rw [leBytes, List.length_cons, ih]

theorem ofLeBytes_leBytes {width n : Nat} (h : n < 256 ^ width) : ofLeBytes (leBytes width n) = n := by
  induction width generalizing n with
  | zero => simpa [leBytes, ofLeBytes, eq_comm] using h
  | succ width ih =>
    have hdiv : n / 256 < 256 ^ width := Nat.div_lt_of_lt_mul (by rwa [pow_succ'] at h)
    rw [leBytes, ofLeBytes, ih hdiv, UInt8.toNat_ofNat']
    omega

theorem ofLeBytes_lt (bytes : List UInt8) : ofLeBytes bytes < 256 ^ bytes.length := by
  induction bytes with
  | nil => exact Nat.one_pos
  | cons byte rest ih =>
    have hbyte := byte.toNat_lt
    rw [ofLeBytes, List.length_cons, pow_succ']
    omega

theorem leBytes_ofLeBytes (bytes : List UInt8) : leBytes bytes.length (ofLeBytes bytes) = bytes := by
  induction bytes with
  | nil => rfl
  | cons byte rest ih =>
    have hbyte := byte.toNat_lt
    have hlow : UInt8.ofNat (byte.toNat + 256 * ofLeBytes rest) = byte := by
      apply UInt8.toNat_inj.mp
      rw [UInt8.toNat_ofNat']
      omega
    have hhigh : (byte.toNat + 256 * ofLeBytes rest) / 256 = ofLeBytes rest := by omega
    rw [ofLeBytes, List.length_cons, leBytes, hlow, hhigh, ih]

section Split
variable {α : Type}

/-- `split_at_checked`. -/
def splitAtChecked (n : Nat) (l : List α) : Option (List α × List α) :=
  if n ≤ l.length then some (l.take n, l.drop n) else none

theorem splitAtChecked_append (front rest : List α) :
    splitAtChecked front.length (front ++ rest) = some (front, rest) := by
  simp [splitAtChecked]

theorem splitAtChecked_of_length {n : Nat} {front : List α} (h : front.length = n) (rest : List α) :
    splitAtChecked n (front ++ rest) = some (front, rest) := h ▸ splitAtChecked_append front rest

theorem splitAtChecked_eq_some {n : Nat} {l front rest : List α} :
    splitAtChecked n l = some (front, rest) ↔ l = front ++ rest ∧ front.length = n := by
  constructor
  · intro h
    unfold splitAtChecked at h
    split at h
    · next hn =>
      cases h
      exact ⟨(List.take_append_drop n l).symm, List.length_take_of_le hn⟩
    · cases h
  · rintro ⟨rfl, hn⟩
    exact splitAtChecked_of_length hn rest

end Split

/-- Read a number of `width` bytes from the front. -/
def takeLe (width : Nat) (bytes : List UInt8) : Option (Nat × List UInt8) :=
  (splitAtChecked width bytes).map fun parts => (ofLeBytes parts.1, parts.2)

theorem takeLe_append {width n : Nat} (h : n < 256 ^ width) (rest : List UInt8) :
    takeLe width (leBytes width n ++ rest) = some (n, rest) := by
  rw [takeLe, splitAtChecked_of_length (length_leBytes width n)]
  simp [ofLeBytes_leBytes h]

/-- Numbers of the given widths, one behind the other. -/
def putFields : List (Nat × Nat) → List UInt8
  | [] => []
  | (width, n) :: fields => leBytes width n ++ putFields fields

/-- Read numbers of the given widths from the front. -/
def takeFields : List Nat → List UInt8 → Option (List Nat × List UInt8)
  | [], bytes => some ([], bytes)
  | width :: widths, bytes => do
    let (n, bytes) ← takeLe width bytes
    let (numbers, bytes) ← takeFields widths bytes
    return (n :: numbers, bytes)

theorem takeFields_putFields {fields : List (Nat × Nat)} (h : ∀ field ∈ fields, field.2 < 256 ^ field.1)
    (rest : List UInt8) :
    takeFields (fields.map Prod.fst) (putFields fields ++ rest) = some (fields.map Prod.snd, rest) := by
  induction fields with
  | nil => rfl
  | cons field fields ih =>
    obtain ⟨width, n⟩ := field
    have hfits : n < 256 ^ width := h _ (List.mem_cons_self ..)
    rw [putFields, List.append_assoc, List.map_cons, takeFields, takeLe_append hfits]
    simp only [Option.bind_eq_bind, Option.bind_some, ih (fun field hfield => h field (List.mem_cons_of_mem _ hfield))]
    rfl

theorem length_putFields (fields : List (Nat × Nat)) : (putFields fields).length = (fields.map Prod.fst).sum := by
  induction fields with
  | nil => rfl
  | cons field fields ih => rw [putFields, List.length_append, length_leBytes, ih, List.map_cons, List.sum_cons]

end Abyss.Data
