import Mathlib.Algebra.Order.Ring.Int
import Mathlib.Data.List.DropRight
import Mathlib.Tactic.Cases

/-! Strings as lists of Unicode scalar values, with the operations of the Rust
string type: Unicode trimming, splitting, ASCII case and decimal parsing; and numbers
written with a fixed count of digits. -/
namespace Abyss.Text

/-- A string slice. `Char` ranges over the Unicode scalar values, as `char` does. -/
abbrev Str := List Char

instance : LawfulBEq Str := inferInstance

/-- The `White_Space` property, used by `str::trim`. -/
def isWhitespace (c : Char) : Bool :=
  (9 ≤ c.toNat && c.toNat ≤ 13) || c.toNat == 0x20 || c.toNat == 0x85 || c.toNat == 0xA0 ||
    c.toNat == 0x1680 || (0x2000 ≤ c.toNat && c.toNat ≤ 0x200A) || c.toNat == 0x2028 ||
    c.toNat == 0x2029 || c.toNat == 0x202F || c.toNat == 0x205F || c.toNat == 0x3000

def trim (s : Str) : Str := (s.dropWhile isWhitespace).rdropWhile isWhitespace

/-- `trim_end_matches` with a character pattern. -/
def trimEndMatches (s : Str) (c : Char) : Str := s.rdropWhile (· == c)

def toAsciiLowercase (s : Str) : Str := s.map Char.toLower

def eqIgnoreAsciiCase (s t : Str) : Bool := toAsciiLowercase s == toAsciiLowercase t

section Strip
variable {α : Type} [DecidableEq α]

/-- `strip_prefix`. -/
def stripFront (front l : List α) : Option (List α) := if front <+: l then some (l.drop front.length) else none

/-- `strip_suffix`. -/
def stripBack (back l : List α) : Option (List α) :=
  if back <:+ l then some (l.take (l.length - back.length)) else none

theorem stripFront_eq_some {front l r : List α} : stripFront front l = some r ↔ l = front ++ r := by
  unfold stripFront
  split
  · next h =>
    obtain ⟨t, rfl⟩ := h
    simp
  · next h =>
    simp only [reduceCtorEq, false_iff]
    rintro rfl
    exact h (List.prefix_append ..)

theorem stripBack_eq_some {back l r : List α} : stripBack back l = some r ↔ l = r ++ back := by
  unfold stripBack
  split
  · next h =>
    obtain ⟨t, rfl⟩ := h
    simp
  · next h =>
    simp only [reduceCtorEq, false_iff]
    rintro rfl
    exact h (List.suffix_append ..)

end Strip

/-- Value of a digit string, most significant digit first. -/
def decimal (s : Str) : Nat := s.foldl (fun n c => 10 * n + (c.toNat - 48)) 0

def withoutPlus : Str → Str
  | '+' :: rest => rest
  | s => s

theorem withoutPlus_eq {s : Str} (h : s.head? ≠ some '+') : withoutPlus s = s := by
  cases s with
  | nil => rfl
  | cons c rest =>
    have hc : c ≠ '+' := fun hc => h (congrArg some hc)
    simp [withoutPlus, hc]

/-- `str::parse` at an unsigned type with `bound` values: one optional plus sign,
then at least one ASCII digit and nothing else. -/
def parseUnsigned (bound : Nat) (s : Str) : Option Nat :=
  let digits := withoutPlus s
  if digits ≠ [] ∧ digits.all Char.isDigit ∧ decimal digits < bound then some (decimal digits)
  else none

/-- A parsed number without a sign is the value of its digits. -/
theorem parseUnsigned_some {bound n : Nat} {s : Str} (h : parseUnsigned bound s = some n) (hplus : s.head? ≠ some '+') :
    s ≠ [] ∧ s.all Char.isDigit = true ∧ decimal s = n ∧ n < bound := by
  simp only [parseUnsigned, withoutPlus_eq hplus] at h
  split at h
  · next hall =>
    cases h
    exact ⟨hall.1, hall.2.1, rfl, hall.2.2⟩
  · cases h

/-- A rendered number is parsed back. -/
theorem parseUnsigned_toDigits {bound n : Nat} (h : n < bound) : parseUnsigned bound (Nat.toDigits 10 n) = some n := by
  have hdigits : ∀ c ∈ Nat.toDigits 10 n, c.isDigit = true :=
    fun c hc => Nat.isDigit_of_mem_toDigits (by decide) (by decide) hc
  have hplus : (Nat.toDigits 10 n).head? ≠ some '+' :=
    fun hhead => absurd (hdigits '+' (List.mem_of_head? hhead)) (by decide)
  have hvalue : decimal (Nat.toDigits 10 n) = n := Nat.ofDigitChars_ten_toDigits
  simp only [parseUnsigned, withoutPlus_eq hplus, hvalue]
  exact if_pos ⟨Nat.toDigits_ne_nil, List.all_eq_true.mpr hdigits, h⟩

/-- The bytes of a string. -/
def toUtf8 (s : Str) : List UInt8 := s.flatMap String.utf8EncodeChar

/-- A printable ASCII character other than the space. -/
def isVisible (c : Char) : Bool := 33 ≤ c.toNat && c.toNat < 127

/-- A string of visible characters has one byte for each of them. -/
theorem toUtf8_eq_map {s : Str} (h : ∀ c ∈ s, isVisible c = true) : toUtf8 s = s.map (fun c => UInt8.ofNat c.toNat) := by
  unfold toUtf8
  rw [List.map_eq_flatMap]
  refine List.flatMap_congr ?_
  intro c hc
  have hvisible := h c hc
  simp only [isVisible, Bool.and_eq_true, decide_eq_true_eq] at hvisible
  exact if_pos (show c.toNat ≤ 127 by omega)

theorem toUtf8_visible {s : Str} (h : ∀ c ∈ s, isVisible c = true) : ∀ b ∈ toUtf8 s, 33 ≤ b ∧ b < 127 := by
  intro b hb
  rw [toUtf8_eq_map h] at hb
  obtain ⟨c, hc, rfl⟩ := List.mem_map.mp hb
  have hvisible := h c hc
  simp only [isVisible, Bool.and_eq_true, decide_eq_true_eq] at hvisible
  have hmod : c.toNat % 256 = c.toNat := Nat.mod_eq_of_lt (by omega)
  simp only [UInt8.le_iff_toNat_le, UInt8.lt_iff_toNat_lt, UInt8.toNat_ofNat', hmod]
  exact ⟨hvisible.1, hvisible.2⟩

/-- The character of a byte, as a string of ASCII bytes decodes. -/
def byteChar (b : UInt8) : Char := Char.ofNat b.toNat

theorem byteChar_ofNat {c : Char} (h : isVisible c = true) : byteChar (UInt8.ofNat c.toNat) = c := by
  simp only [isVisible, Bool.and_eq_true, decide_eq_true_eq] at h
  have hmod : c.toNat % 256 = c.toNat := Nat.mod_eq_of_lt (by omega)
  rw [byteChar, UInt8.toNat_ofNat', hmod, Char.ofNat_toNat]

theorem byteChar_isDigit (b : UInt8) : (byteChar b).isDigit = (48 ≤ b && b ≤ 57) := by
  have hall : ∀ n : Fin 256, (Char.ofNat n.val).isDigit = (decide (48 ≤ n.val) && decide (n.val ≤ 57)) := by
    decide +kernel
  exact hall ⟨b.toNat, b.toNat_lt⟩

theorem byteChar_eq_plus (b : UInt8) : byteChar b = '+' ↔ b = 43 := by
  have hall : ∀ n : Fin 256, Char.ofNat n.val = '+' ↔ n.val = 43 := by decide +kernel
  rw [byteChar, hall ⟨b.toNat, b.toNat_lt⟩, ← UInt8.toNat_inj]
  rfl

/-- `str::from_utf8`: every scalar value has exactly one accepted encoding. -/
def fromUtf8 : List UInt8 → Option Str
  | [] => some []
  | b₀ :: r₀ =>
    if b₀ < 0x80 then (fromUtf8 r₀).map (Char.ofNat b₀.toNat :: ·) else
    match r₀ with
    | [] => none
    | b₁ :: r₁ =>
      if ¬ continuation b₁ then none else
      if 0xC2 ≤ b₀ ∧ b₀ ≤ 0xDF then
        (fromUtf8 r₁).map (Char.ofNat ((b₀.toNat - 0xC0) * 64 + low b₁) :: ·) else
      match r₁ with
      | [] => none
      | b₂ :: r₂ =>
        if ¬ continuation b₂ then none else
        if 0xE0 ≤ b₀ ∧ b₀ ≤ 0xEF then
          let n := ((b₀.toNat - 0xE0) * 64 + low b₁) * 64 + low b₂
          if n < 0x800 ∨ (0xD800 ≤ n ∧ n ≤ 0xDFFF) then none else (fromUtf8 r₂).map (Char.ofNat n :: ·) else
        match r₂ with
        | [] => none
        | b₃ :: r₃ =>
          let n := (((b₀.toNat - 0xF0) * 64 + low b₁) * 64 + low b₂) * 64 + low b₃
          if ¬ continuation b₃ ∨ b₀ < 0xF0 ∨ 0xF4 < b₀ ∨ n < 0x10000 ∨ 0x10FFFF < n then none
          else (fromUtf8 r₃).map (Char.ofNat n :: ·)
where
  continuation (b : UInt8) : Bool := 0x80 ≤ b && b ≤ 0xBF
  low (b : UInt8) : Nat := b.toNat - 0x80

/-- ASCII bytes decode one by one. -/
theorem fromUtf8_ascii (bytes : List UInt8) (h : ∀ b ∈ bytes, b < 0x80) :
    fromUtf8 bytes = some (bytes.map byteChar) := by
  induction bytes with
  | nil => rfl
  | cons b rest ih =>
    rw [fromUtf8.eq_def]
    simp only [if_pos (h b (List.mem_cons_self ..)), ih (fun c hc => h c (List.mem_cons_of_mem _ hc))]
    rfl

section FixedDigits

/-- The last `width` decimal digits of a number, with leading zeros. -/
def fixed : Nat → Nat → Str
  | 0, _ => []
  | width + 1, n => fixed width (n / 10) ++ [Nat.digitChar (n % 10)]

/-- Exactly `width` digits from the front, and the rest. -/
def takeDigits (width : Nat) (s : Str) : Option (Nat × Str) :=
  let front := s.take width
  if front.length = width ∧ front.all Char.isDigit then some (decimal front, s.drop width) else none

@[simp] theorem length_fixed (width n : Nat) : (fixed width n).length = width := by
  induction width generalizing n with
  | zero => rfl
  | succ width ih => rw [fixed, List.length_append, ih, List.length_singleton]

theorem isDigit_of_mem_fixed {width n : Nat} {c : Char} (h : c ∈ fixed width n) : c.isDigit = true := by
  induction width generalizing n with
  | zero => cases h
  | succ width ih =>
    rcases List.mem_append.mp h with h | h
    · exact ih h
    · rw [List.mem_singleton.mp h, Nat.isDigit_digitChar]
      exact decide_eq_true (Nat.mod_lt _ (by decide))

private theorem digitChar_value {n : Nat} (h : n < 10) : (Nat.digitChar n).toNat - 48 = n := by
  have hall : ∀ m : Fin 10, (Nat.digitChar m.val).toNat - 48 = m.val := by decide
  exact hall ⟨n, h⟩

theorem decimal_fixed {width n : Nat} (h : n < 10 ^ width) : decimal (fixed width n) = n := by
  induction width generalizing n with
  | zero =>
    have hzero : n = 0 := by omega
    rw [hzero]
    rfl
  | succ width ih =>
    have hfront : decimal (fixed width (n / 10)) = n / 10 := ih (by rw [Nat.pow_succ] at h; omega)
    rw [fixed, decimal, List.foldl_append, ← decimal, hfront, List.foldl_cons, List.foldl_nil,
      digitChar_value (Nat.mod_lt _ (by decide))]
    omega

theorem takeDigits_fixed {width n : Nat} (h : n < 10 ^ width) (rest : Str) :
    takeDigits width (fixed width n ++ rest) = some (n, rest) := by
  have hfront : (fixed width n ++ rest).take width = fixed width n := List.take_left' (length_fixed width n)
  have hrest : (fixed width n ++ rest).drop width = rest := List.drop_left' (length_fixed width n)
  have hall : (fixed width n).all Char.isDigit = true := List.all_eq_true.mpr (fun _ hc => isDigit_of_mem_fixed hc)
  simp only [takeDigits, hfront, hrest, length_fixed, hall, decimal_fixed h, and_self, if_true]

theorem takeDigits_fixed_end {width n : Nat} (h : n < 10 ^ width) : takeDigits width (fixed width n) = some (n, []) := by
  have := takeDigits_fixed h []
  rwa [List.append_nil] at this

end FixedDigits

end Abyss.Text
