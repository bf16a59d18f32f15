import Abyss.Text.Scalar

/-! Strings as UTF-16 code units. -/
namespace Abyss.Text

/-- `char::encode_utf16`. -/
def encodeUtf16Char (c : Char) : List UInt16 :=
  if c.toNat < 0x10000 then [UInt16.ofNat c.toNat]
  else [UInt16.ofNat (0xD800 + (c.toNat - 0x10000) / 0x400), UInt16.ofNat (0xDC00 + (c.toNat - 0x10000) % 0x400)]

/-- `str::encode_utf16`. -/
def encodeUtf16 (s : Str) : List UInt16 := s.flatMap encodeUtf16Char

/-- `String::from_utf16`: a surrogate stands only in a pair, the high one first. -/
def fromUtf16 : List UInt16 → Option Str
  | [] => some []
  | unit :: rest =>
    if unit.toNat < 0xD800 ∨ 0xDFFF < unit.toNat then (fromUtf16 rest).map (Char.ofNat unit.toNat :: ·)
    else if 0xDC00 ≤ unit.toNat then none
    else match rest with
    | [] => none
    | low :: rest =>
      if low.toNat < 0xDC00 ∨ 0xDFFF < low.toNat then none
      else (fromUtf16 rest).map
        (Char.ofNat (0x10000 + (unit.toNat - 0xD800) * 0x400 + (low.toNat - 0xDC00)) :: ·)

section RoundTrip

private theorem toNat_unit {n : Nat} (h : n < 0x10000) : (UInt16.ofNat n).toNat = n := by
  rw [UInt16.toNat_ofNat', Nat.mod_eq_of_lt h]

/-- Decoding reads back one encoded scalar value. -/
theorem fromUtf16_encodeChar (c : Char) (rest : List UInt16) :
    fromUtf16 (encodeUtf16Char c ++ rest) = (fromUtf16 rest).map (c :: ·) := by
  have hc : Char.ofNat c.toNat = c := Char.ofNat_toNat c
  have hvalid : c.toNat < 0xD800 ∨ 0xDFFF < c.toNat ∧ c.toNat < 0x110000 := c.valid
  rw [encodeUtf16Char]
  generalize c.toNat = n at hc hvalid ⊢
  split
  · rw [List.singleton_append, fromUtf16.eq_def]
    simp only
    rw [toNat_unit (by omega), if_pos (by omega), hc]
  · simp only [List.cons_append, List.nil_append]
    rw [fromUtf16.eq_def]
    simp only
    rw [toNat_unit (by omega), toNat_unit (by omega), if_neg (by omega), if_neg (by omega), if_neg (by omega),
      show 0x10000 + (0xD800 + (n - 0x10000) / 0x400 - 0xD800) * 0x400 + (0xDC00 + (n - 0x10000) % 0x400 - 0xDC00) = n by
        omega, hc]

/-- Every string is read back from its code units. -/
theorem fromUtf16_encodeUtf16 (s : Str) : fromUtf16 (encodeUtf16 s) = some s := by
  induction s with
  | nil => rfl
  | cons c rest ih =>
    rw [encodeUtf16, List.flatMap_cons, fromUtf16_encodeChar]
    rw [encodeUtf16] at ih
    rw [ih]
    rfl

private theorem toNat_ofNat {n : Nat} (h : n < 0xD800 ∨ 0xDFFF < n ∧ n < 0x110000) : (Char.ofNat n).toNat = n := by
  rw [Char.ofNat, dif_pos h]
  rfl

/-- Only the code units of a string are accepted. -/
theorem encodeUtf16_fromUtf16 {units : List UInt16} {s : Str} (h : fromUtf16 units = some s) : encodeUtf16 s = units := by
  fun_induction fromUtf16 units generalizing s with
  | case1 =>
    cases h
    rfl
  | case2 unit rest hplain ih =>
    obtain ⟨tail, htail, rfl⟩ := Option.map_eq_some_iff.mp h
    have hlt := unit.toNat_lt
    rw [encodeUtf16, List.flatMap_cons, encodeUtf16Char, toNat_ofNat (by omega), if_pos (by omega), UInt16.ofNat_toNat,
      List.singleton_append]
    exact congrArg _ (ih htail)
  | case3 => cases h
  | case4 => cases h
  | case5 => cases h
  | case6 unit hsurrogate hhigh low rest hlow ih =>
    obtain ⟨tail, htail, rfl⟩ := Option.map_eq_some_iff.mp h
    have hunit : UInt16.ofNat (0xD800 + (0x10000 + (unit.toNat - 0xD800) * 0x400 + (low.toNat - 0xDC00) - 0x10000) / 0x400) =
        unit := by
      rw [show 0xD800 + (0x10000 + (unit.toNat - 0xD800) * 0x400 + (low.toNat - 0xDC00) - 0x10000) / 0x400 = unit.toNat by
        omega, UInt16.ofNat_toNat]
    have hlowUnit : UInt16.ofNat (0xDC00 + (0x10000 + (unit.toNat - 0xD800) * 0x400 + (low.toNat - 0xDC00) - 0x10000) % 0x400) =
        low := by
      rw [show 0xDC00 + (0x10000 + (unit.toNat - 0xD800) * 0x400 + (low.toNat - 0xDC00) - 0x10000) % 0x400 = low.toNat by
        omega, UInt16.ofNat_toNat]
    rw [encodeUtf16, List.flatMap_cons, encodeUtf16Char, toNat_ofNat (by omega), if_neg (by omega), hunit, hlowUnit]
    exact congrArg (fun tail => unit :: low :: tail) (ih htail)

/-- The zero unit stands for the NUL alone. -/
theorem zero_mem_encodeUtf16 {s : Str} : 0 ∈ encodeUtf16 s ↔ '\x00' ∈ s := by
  constructor
  · intro hmem
    obtain ⟨c, hc, hunit⟩ := List.mem_flatMap.mp hmem
    have hvalid : c.toNat < 0xD800 ∨ 0xDFFF < c.toNat ∧ c.toNat < 0x110000 := c.valid
    have hzero (n : Nat) (hn : n < 0x10000) (h : 0 = UInt16.ofNat n) : n = 0 := by
      have := congrArg UInt16.toNat h
      rw [toNat_unit hn] at this
      exact this.symm
    have hnul : c.toNat = 0 := by
      rw [encodeUtf16Char] at hunit
      split at hunit
      · exact hzero _ (by omega) (List.mem_singleton.mp hunit)
      · rcases List.mem_cons.mp hunit with hunit | hunit
        · have := hzero _ (by omega) hunit
          omega
        · have := hzero _ (by omega) (List.mem_singleton.mp hunit)
          omega
    have hchar : c = '\x00' := by rw [← Char.ofNat_toNat c, hnul]
    exact hchar ▸ hc
  · intro hmem
    exact List.mem_flatMap.mpr ⟨_, hmem, by decide⟩

end RoundTrip
end Abyss.Text
