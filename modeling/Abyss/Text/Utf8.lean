import Abyss.Text.Scalar

/-! Encoding a string as UTF-8 and decoding it again. -/
namespace Abyss.Text
open fromUtf8 (continuation low)

section Byte
variable {n x₀ x₁ x₂ x₃ : Nat} {rest : List UInt8}

private theorem toNat_byte (h : n < 256) : (UInt8.ofNat n).toNat = n := by
  rw [UInt8.toNat_ofNat', Nat.mod_eq_of_lt h]

/-- A continuation byte carries six bits. -/
private theorem continuation_byte (h : n < 64) : ¬ ¬ continuation (UInt8.ofNat (n + 0x80)) = true := by
  rw [not_not]
  simp only [continuation, Bool.and_eq_true, decide_eq_true_eq, UInt8.le_iff_toNat_le, toNat_byte (show n + 0x80 < 256 by omega)]
  exact ⟨show 0x80 ≤ n + 0x80 by omega, show n + 0x80 ≤ 0xBF by omega⟩

private theorem low_byte (h : n < 64) : low (UInt8.ofNat (n + 0x80)) = n := by
  have hlow : low (UInt8.ofNat (n + 0x80)) = (UInt8.ofNat (n + 0x80)).toNat - 0x80 := rfl
  have hbyte : (UInt8.ofNat (n + 0x80)).toNat = n + 0x80 := toNat_byte (by omega)
  omega

private theorem byte_le_iff {b : UInt8} (h : n < 256) : b ≤ UInt8.ofNat n ↔ b.toNat ≤ n := by
  rw [UInt8.le_iff_toNat_le, toNat_byte h]

private theorem le_byte_iff {b : UInt8} (h : n < 256) : UInt8.ofNat n ≤ b ↔ n ≤ b.toNat := by
  rw [UInt8.le_iff_toNat_le, toNat_byte h]

private theorem fromUtf8_one (h : n < 0x80) : fromUtf8 (UInt8.ofNat n :: rest) = (fromUtf8 rest).map (Char.ofNat n :: ·) := by
  have hlead : UInt8.ofNat n < 0x80 := by
    rw [UInt8.lt_iff_toNat_lt, toNat_byte (by omega)]
    exact h
  rw [fromUtf8.eq_def]
  simp only
  rw [if_pos hlead, toNat_byte (by omega)]

/-- The lead byte of a longer encoding is not ASCII. -/
private theorem not_ascii (h : 0x80 ≤ n) (hn : n < 256) : ¬ UInt8.ofNat n < 0x80 := by
  rw [UInt8.lt_iff_toNat_lt, toNat_byte hn, Nat.not_lt]
  exact h

private theorem fromUtf8_two (h₀ : 2 ≤ x₀ ∧ x₀ < 0x20) (h₁ : x₁ < 0x40) :
    fromUtf8 (UInt8.ofNat (x₀ + 0xC0) :: UInt8.ofNat (x₁ + 0x80) :: rest) =
      (fromUtf8 rest).map (Char.ofNat (x₀ * 64 + x₁) :: ·) := by
  have hrange : 0xC2 ≤ UInt8.ofNat (x₀ + 0xC0) ∧ UInt8.ofNat (x₀ + 0xC0) ≤ 0xDF := by
    rw [byte_le_iff (by omega), le_byte_iff (by omega)]
    exact ⟨show 0xC2 ≤ x₀ + 0xC0 by omega, show x₀ + 0xC0 ≤ 0xDF by omega⟩
  rw [fromUtf8.eq_def]
  simp only
  rw [if_neg (not_ascii (by omega) (by omega)), if_neg (continuation_byte h₁), if_pos hrange, low_byte h₁,
    toNat_byte (by omega), Nat.add_sub_cancel]

private theorem fromUtf8_three (h₀ : x₀ < 0x10) (h₁ : x₁ < 0x40) (h₂ : x₂ < 0x40) (hn : (x₀ * 64 + x₁) * 64 + x₂ = n)
    (hscalar : ¬ (n < 0x800 ∨ (0xD800 ≤ n ∧ n ≤ 0xDFFF))) :
    fromUtf8 (UInt8.ofNat (x₀ + 0xE0) :: UInt8.ofNat (x₁ + 0x80) :: UInt8.ofNat (x₂ + 0x80) :: rest) =
      (fromUtf8 rest).map (Char.ofNat n :: ·) := by
  have hrange : 0xE0 ≤ UInt8.ofNat (x₀ + 0xE0) ∧ UInt8.ofNat (x₀ + 0xE0) ≤ 0xEF := by
    rw [byte_le_iff (by omega), le_byte_iff (by omega)]
    exact ⟨show 0xE0 ≤ x₀ + 0xE0 by omega, show x₀ + 0xE0 ≤ 0xEF by omega⟩
  have hshort : ¬ (0xC2 ≤ UInt8.ofNat (x₀ + 0xE0) ∧ UInt8.ofNat (x₀ + 0xE0) ≤ 0xDF) := by
    rw [byte_le_iff (by omega), le_byte_iff (by omega)]
    exact fun h => absurd (show x₀ + 0xE0 ≤ 0xDF from h.2) (by omega)
  rw [fromUtf8.eq_def]
  simp only
  rw [if_neg (not_ascii (by omega) (by omega)), if_neg (continuation_byte h₁), if_neg hshort,
    if_neg (continuation_byte h₂), if_pos hrange]
  simp only [low_byte h₁, low_byte h₂, toNat_byte (show x₀ + 0xE0 < 256 by omega), Nat.add_sub_cancel, hn]
  exact if_neg hscalar

private theorem fromUtf8_four (h₀ : x₀ < 5) (h₁ : x₁ < 0x40) (h₂ : x₂ < 0x40) (h₃ : x₃ < 0x40)
    (hn : ((x₀ * 64 + x₁) * 64 + x₂) * 64 + x₃ = n) (hscalar : ¬ (n < 0x10000 ∨ 0x10FFFF < n)) :
    fromUtf8 (UInt8.ofNat (x₀ + 0xF0) :: UInt8.ofNat (x₁ + 0x80) :: UInt8.ofNat (x₂ + 0x80) ::
      UInt8.ofNat (x₃ + 0x80) :: rest) = (fromUtf8 rest).map (Char.ofNat n :: ·) := by
  have hshort : ¬ (0xC2 ≤ UInt8.ofNat (x₀ + 0xF0) ∧ UInt8.ofNat (x₀ + 0xF0) ≤ 0xDF) := by
    rw [byte_le_iff (by omega), le_byte_iff (by omega)]
    exact fun h => absurd (show x₀ + 0xF0 ≤ 0xDF from h.2) (by omega)
  have hmiddle : ¬ (0xE0 ≤ UInt8.ofNat (x₀ + 0xF0) ∧ UInt8.ofNat (x₀ + 0xF0) ≤ 0xEF) := by
    rw [byte_le_iff (by omega), le_byte_iff (by omega)]
    exact fun h => absurd (show x₀ + 0xF0 ≤ 0xEF from h.2) (by omega)
  have hlow : ¬ UInt8.ofNat (x₀ + 0xF0) < 0xF0 := by
    rw [UInt8.not_lt, byte_le_iff (by omega)]
    exact show 0xF0 ≤ x₀ + 0xF0 by omega
  have hhigh : ¬ 0xF4 < UInt8.ofNat (x₀ + 0xF0) := by
    rw [UInt8.not_lt, le_byte_iff (by omega)]
    exact show x₀ + 0xF0 ≤ 0xF4 by omega
  rw [fromUtf8.eq_def]
  simp only
  rw [if_neg (not_ascii (by omega) (by omega)), if_neg (continuation_byte h₁), if_neg hshort,
    if_neg (continuation_byte h₂), if_neg hmiddle]
  simp only [low_byte h₁, low_byte h₂, low_byte h₃, toNat_byte (show x₀ + 0xF0 < 256 by omega), Nat.add_sub_cancel, hn,
    not_not.mp (continuation_byte h₃), not_true_eq_false, hlow, hhigh, false_or]
  exact if_neg hscalar

end Byte

/-- Decoding reads back one encoded scalar value. -/
theorem fromUtf8_encodeChar (c : Char) (rest : List UInt8) :
    fromUtf8 (String.utf8EncodeChar c ++ rest) = (fromUtf8 rest).map (c :: ·) := by
  have hc : Char.ofNat c.toNat = c := Char.ofNat_toNat c
  have hvalid : c.toNat < 0xD800 ∨ 0xDFFF < c.toNat ∧ c.toNat < 0x110000 := c.valid
  rw [String.utf8EncodeChar, show c.val.toNat = c.toNat from rfl]
  generalize c.toNat = n at hc hvalid ⊢
  -- one case for each encoded length
  split
  · rw [List.singleton_append, fromUtf8_one (by omega), hc]
  split
  · simp only [List.cons_append, List.nil_append]
    rw [fromUtf8_two (by omega) (Nat.mod_lt _ (by omega)), show n / 64 % 32 * 64 + n % 64 = n by omega, hc]
  split
  · simp only [List.cons_append, List.nil_append]
    rw [@fromUtf8_three n _ _ _ _ (Nat.mod_lt _ (by omega)) (Nat.mod_lt _ (by omega)) (Nat.mod_lt _ (by omega))
      (by omega) (by omega), hc]
  · simp only [List.cons_append, List.nil_append]
    rw [@fromUtf8_four n _ _ _ _ _ (by omega) (Nat.mod_lt _ (by omega)) (Nat.mod_lt _ (by omega))
      (Nat.mod_lt _ (by omega)) (by omega) (by omega), hc]

/-- Every string is read back from its bytes. -/
theorem fromUtf8_toUtf8 (s : Str) : fromUtf8 (toUtf8 s) = some s := by
  induction s with
  | nil => rfl
  | cons c rest ih =>
    rw [toUtf8, List.flatMap_cons, fromUtf8_encodeChar]
    rw [toUtf8] at ih
    rw [ih]
    rfl

section Decoded
variable {n : Nat}

private theorem scalar_toNat (h : n < 0xD800 ∨ 0xDFFF < n ∧ n < 0x110000) : (Char.ofNat n).val.toNat = n := by
  rw [Char.ofNat, dif_pos h]
  rfl

private theorem byte_eq {b : UInt8} {m : Nat} (hm : m < 256) (h : b.toNat = m) : UInt8.ofNat m = b := by
  apply UInt8.toNat.inj
  rw [toNat_byte hm, h]

private theorem continuation_range {b : UInt8} (h : ¬ ¬ continuation b = true) : 0x80 ≤ b.toNat ∧ b.toNat ≤ 0xBF := by
  rw [not_not] at h
  simp only [continuation, Bool.and_eq_true, decide_eq_true_eq, UInt8.le_iff_toNat_le] at h
  exact h

/-- Decoded bytes are the encoding of what they decode to. -/
theorem toUtf8_of_fromUtf8 {bytes : List UInt8} {s : Str} (h : fromUtf8 bytes = some s) : toUtf8 s = bytes := by
  fun_induction fromUtf8 bytes generalizing s with
  | case1 =>
    cases h
    rfl
  | case2 b₀ r₀ hascii ih =>
    obtain ⟨t, ht, rfl⟩ := Option.map_eq_some_iff.mp h
    have hb : b₀.toNat < 0x80 := hascii
    rw [toUtf8, List.flatMap_cons, String.utf8EncodeChar, scalar_toNat (by omega), if_pos (by omega),
      byte_eq (by omega) rfl]
    exact congrArg (b₀ :: ·) (ih ht)
  | case5 b₀ hlong b₁ r₁ h₁ hrange ih =>
    obtain ⟨t, ht, rfl⟩ := Option.map_eq_some_iff.mp h
    have hlead : 0xC2 ≤ b₀.toNat ∧ b₀.toNat ≤ 0xDF := hrange
    have hfirst := continuation_range h₁
    change toUtf8 (Char.ofNat ((b₀.toNat - 0xC0) * 64 + (b₁.toNat - 0x80)) :: t) = _
    rw [toUtf8, List.flatMap_cons, String.utf8EncodeChar, scalar_toNat (by omega), if_neg (by omega), if_pos (by omega),
      @byte_eq b₀ _ (by omega) (by omega), @byte_eq b₁ _ (by omega) (by omega)]
    exact congrArg (fun tail => b₀ :: b₁ :: tail) (ih ht)
  | case9 b₀ hlong b₁ h₁ hshort b₂ r₂ h₂ hrange n hscalar =>
    rename_i ih
    obtain ⟨t, ht, rfl⟩ := Option.map_eq_some_iff.mp h
    have hlead : 0xE0 ≤ b₀.toNat ∧ b₀.toNat ≤ 0xEF := hrange
    have hfirst := continuation_range h₁
    have hsecond := continuation_range h₂
    have hn : n = ((b₀.toNat - 0xE0) * 64 + (b₁.toNat - 0x80)) * 64 + (b₂.toNat - 0x80) := rfl
    clear_value n
    rw [toUtf8, List.flatMap_cons, String.utf8EncodeChar, scalar_toNat (by omega), if_neg (by omega), if_neg (by omega),
      if_pos (by omega), @byte_eq b₀ _ (by omega) (by omega), @byte_eq b₁ _ (by omega) (by omega),
      @byte_eq b₂ _ (by omega) (by omega)]
    exact congrArg (fun tail => b₀ :: b₁ :: b₂ :: tail) (ih ht)
  | case12 b₀ hlong b₁ h₁ hshort b₂ h₂ hmiddle b₃ r₃ n hscalar =>
    rename_i ih
    obtain ⟨t, ht, rfl⟩ := Option.map_eq_some_iff.mp h
    simp only [not_or] at hscalar
    obtain ⟨h₃, hlow, hhigh, hmin, hmax⟩ := hscalar
    have hleast : 0xF0 ≤ b₀.toNat := Nat.le_of_not_lt hlow
    have hgreatest : b₀.toNat ≤ 0xF4 := Nat.le_of_not_lt hhigh
    have hfirst := continuation_range h₁
    have hsecond := continuation_range h₂
    have hthird := continuation_range h₃
    have hn : n = (((b₀.toNat - 0xF0) * 64 + (b₁.toNat - 0x80)) * 64 + (b₂.toNat - 0x80)) * 64 + (b₃.toNat - 0x80) := rfl
    clear_value n
    rw [toUtf8, List.flatMap_cons, String.utf8EncodeChar, scalar_toNat (by omega), if_neg (by omega), if_neg (by omega),
      if_neg (by omega), @byte_eq b₀ _ (by omega) (by omega), @byte_eq b₁ _ (by omega) (by omega),
      @byte_eq b₂ _ (by omega) (by omega), @byte_eq b₃ _ (by omega) (by omega)]
    exact congrArg (fun tail => b₀ :: b₁ :: b₂ :: b₃ :: tail) (ih ht)
  | _ => cases h

end Decoded

/-- A string whose bytes have an ASCII byte has its character. -/
theorem ascii_mem_toUtf8 {s : Str} {b : UInt8} (hb : b < 0x80) (h : b ∈ toUtf8 s) : Char.ofNat b.toNat ∈ s := by
  obtain ⟨c, hc, hbyte⟩ := List.mem_flatMap.mp h
  suffices heq : b.toNat = c.toNat by
    rw [heq, Char.ofNat_toNat]
    exact hc
  have hvalid : c.toNat < 0xD800 ∨ 0xDFFF < c.toNat ∧ c.toNat < 0x110000 := c.valid
  rw [String.utf8EncodeChar, show c.val.toNat = c.toNat from rfl] at hbyte
  generalize c.toNat = n at hbyte hvalid ⊢
  have hascii : b.toNat < 0x80 := hb
  have hofNat : ∀ m : Nat, m < 256 → b = UInt8.ofNat m → b.toNat = m := by
    intro m hm heq
    rw [heq, UInt8.toNat_ofNat', Nat.mod_eq_of_lt hm]
  -- every byte of a longer encoding is at least 0x80
  have hlong : ∀ m : Nat, 0x80 ≤ m ∧ m < 256 → b ≠ UInt8.ofNat m := by
    intro m hm heq
    have hvalue := hofNat m hm.2 heq
    omega
  repeat' split at hbyte
  · exact hofNat n (by omega) (List.mem_singleton.mp hbyte)
  all_goals simp only [List.mem_cons, List.not_mem_nil, or_false] at hbyte
  · exact absurd hbyte (not_or.mpr ⟨hlong _ (by omega), hlong _ (by omega)⟩)
  · exact absurd hbyte (not_or.mpr ⟨hlong _ (by omega), not_or.mpr ⟨hlong _ (by omega), hlong _ (by omega)⟩⟩)
  · exact absurd hbyte (not_or.mpr ⟨hlong _ (by omega), not_or.mpr ⟨hlong _ (by omega), not_or.mpr ⟨hlong _ (by omega),
      hlong _ (by omega)⟩⟩⟩)

end Abyss.Text
