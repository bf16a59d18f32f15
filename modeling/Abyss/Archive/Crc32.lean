import Mathlib.Algebra.Order.Ring.Int
import Mathlib.Logic.Function.Iterate

/-! CRC-32 with the reflected polynomial of ISO 3309: the shift register, and the table
that takes a byte at a time. -/
namespace Abyss.Archive.Crc32

def polynomial : UInt32 := 0xEDB88320

/-- One shift of the register. -/
def shift (crc : UInt32) : UInt32 :=
  if crc &&& 1 = 1 then polynomial ^^^ (crc >>> 1) else crc >>> 1

/-- The register, moved by eight shifts behind the next byte. -/
def shiftByte (crc : UInt32) (byte : UInt8) : UInt32 := shift^[8] (crc ^^^ byte.toUInt32)

/-- What eight shifts make of a lone byte. -/
def table (byte : UInt8) : UInt32 := shift^[8] byte.toUInt32

/-- The register, moved by one look into the table. -/
def lookByte (crc : UInt32) (byte : UInt8) : UInt32 := table (crc ^^^ byte.toUInt32).toUInt8 ^^^ (crc >>> 8)

/-- The checksum by table. -/
def checksum (bytes : List UInt8) : UInt32 := bytes.foldl lookByte 0xFFFFFFFF ^^^ 0xFFFFFFFF

section Linear

private theorem and_one (x : UInt32) : x &&& 1 = 0 ∨ x &&& 1 = 1 := by
  have hmod : (x &&& 1).toNat = x.toNat % 2 := by rw [UInt32.toNat_and, ← Nat.and_one_is_mod]; rfl
  rcases Nat.mod_two_eq_zero_or_one x.toNat with hbit | hbit
  · exact .inl (UInt32.toNat_inj.mp (hmod.trans hbit))
  · exact .inr (UInt32.toNat_inj.mp (hmod.trans hbit))

private theorem and_xor (x y mask : UInt32) : (x ^^^ y) &&& mask = (x &&& mask) ^^^ (y &&& mask) := by
  apply UInt32.toBitVec_inj.mp
  apply BitVec.eq_of_getElem_eq
  intro i hi
  simp only [UInt32.toBitVec_and, UInt32.toBitVec_xor, BitVec.getElem_and, BitVec.getElem_xor, Bool.and_xor_distrib_right]

/-- The register is linear. -/
theorem shift_xor (x y : UInt32) : shift (x ^^^ y) = shift x ^^^ shift y := by
  have hlow := and_xor x y 1
  unfold shift
  rcases and_one x with hx | hx <;> rcases and_one y with hy | hy
  · rw [hx, hy] at hlow
    rw [hx, hy, hlow]
    simp [UInt32.shiftRight_xor]
  · rw [hx, hy] at hlow
    rw [hx, hy, hlow]
    simp [UInt32.shiftRight_xor, ← UInt32.xor_assoc, UInt32.xor_comm polynomial]
  · rw [hx, hy] at hlow
    rw [hx, hy, hlow]
    simp [UInt32.shiftRight_xor, UInt32.xor_assoc]
  · rw [hx, hy] at hlow
    rw [hx, hy, hlow]
    have hcancel (u v : UInt32) : u ^^^ v = (polynomial ^^^ u) ^^^ (polynomial ^^^ v) := by
      rw [UInt32.xor_comm polynomial u, UInt32.xor_assoc, ← UInt32.xor_assoc polynomial, UInt32.xor_self, UInt32.zero_xor]
    simp [UInt32.shiftRight_xor, ← hcancel]

theorem iterate_shift_xor (n : Nat) (x y : UInt32) : shift^[n] (x ^^^ y) = shift^[n] x ^^^ shift^[n] y := by
  induction n generalizing x y with
  | zero => rfl
  | succ n ih => rw [Function.iterate_succ_apply, Function.iterate_succ_apply, Function.iterate_succ_apply, shift_xor, ih]

end Linear

section Table

/-- Shifting leaves a register without low bits as it is, up to its place. -/
private theorem shift_of_even {x : UInt32} (h : x.toNat % 2 = 0) : (shift x).toNat = x.toNat / 2 := by
  have hlow : ¬ x &&& 1 = 1 := by
    intro hone
    have := congrArg UInt32.toNat hone
    rw [UInt32.toNat_and, show (1 : UInt32).toNat = 1 from rfl, Nat.and_one_is_mod, h] at this
    cases this
  rw [shift, if_neg hlow, UInt32.toNat_shiftRight]
  exact Nat.shiftRight_eq_div_pow _ _

private theorem iterate_shift_of_dvd {n : Nat} {x : UInt32} (h : 2 ^ n ∣ x.toNat) :
    (shift^[n] x).toNat = x.toNat / 2 ^ n := by
  induction n generalizing x with
  | zero => simp
  | succ n ih =>
    obtain ⟨k, hk⟩ := h
    rw [pow_succ'] at hk
    have heven : x.toNat % 2 = 0 := by
      rw [hk, Nat.mul_assoc]
      exact Nat.mul_mod_right ..
    have hhalf : (shift x).toNat = 2 ^ n * k := by
      rw [shift_of_even heven, hk, Nat.mul_assoc, Nat.mul_div_cancel_left _ Nat.two_pos]
    rw [Function.iterate_succ_apply, ih ⟨k, hhalf⟩, hhalf, hk, pow_succ', Nat.mul_div_cancel_left _ (Nat.two_pow_pos n),
      Nat.mul_div_cancel_left _ (by rw [← pow_succ']; exact Nat.two_pow_pos _)]

/-- The low byte of a register and the rest of it. -/
private theorem xor_low (x : UInt32) : x = x.toUInt8.toUInt32 ^^^ (x ^^^ x.toUInt8.toUInt32) := by
  rw [UInt32.xor_comm x, ← UInt32.xor_assoc, UInt32.xor_self, UInt32.zero_xor]

private theorem nat_xor_low (n : Nat) : n ^^^ (n % 2 ^ 8) = 2 ^ 8 * (n / 2 ^ 8) := by
  apply Nat.eq_of_testBit_eq
  intro i
  rw [Nat.testBit_xor, Nat.testBit_mod_two_pow, Nat.testBit_two_pow_mul, Nat.testBit_div_two_pow]
  by_cases hi : i < 8
  · simp [hi, Nat.not_le.mpr hi]
  · simp [hi, Nat.not_lt.mp hi, Nat.sub_add_cancel (Nat.not_lt.mp hi)]

private theorem toNat_high (x : UInt32) : (x ^^^ x.toUInt8.toUInt32).toNat = 2 ^ 8 * (x.toNat / 2 ^ 8) := by
  rw [UInt32.toNat_xor, UInt8.toNat_toUInt32, UInt32.toNat_toUInt8, nat_xor_low]

/-- Eight shifts, by one look into the table. -/
theorem iterate_shift_table (x : UInt32) : shift^[8] x = table x.toUInt8 ^^^ (x >>> 8) := by
  have hhigh : shift^[8] (x ^^^ x.toUInt8.toUInt32) = x >>> 8 := by
    apply UInt32.toNat_inj.mp
    rw [iterate_shift_of_dvd ⟨_, toNat_high x⟩, toNat_high, Nat.mul_div_cancel_left _ (Nat.two_pow_pos 8),
      UInt32.toNat_shiftRight]
    exact (Nat.shiftRight_eq_div_pow _ _).symm
  calc shift^[8] x = shift^[8] (x.toUInt8.toUInt32 ^^^ (x ^^^ x.toUInt8.toUInt32)) := by rw [← xor_low]
    _ = table x.toUInt8 ^^^ (x >>> 8) := by rw [iterate_shift_xor, hhigh, table]

/-- The shift register and the table move the register alike. -/
theorem shiftByte_eq (crc : UInt32) (byte : UInt8) : shiftByte crc byte = lookByte crc byte := by
  have hbyte : byte.toUInt32 >>> 8 = 0 := by
    apply UInt32.toNat_inj.mp
    rw [UInt32.toNat_shiftRight, UInt8.toNat_toUInt32]
    exact (Nat.shiftRight_eq_div_pow _ _).trans (Nat.div_eq_of_lt byte.toNat_lt)
  rw [shiftByte, iterate_shift_table, UInt32.shiftRight_xor, hbyte, UInt32.xor_zero, lookByte]

/-- The checksum by shift register. -/
theorem foldl_shiftByte (bytes : List UInt8) : bytes.foldl shiftByte 0xFFFFFFFF ^^^ 0xFFFFFFFF = checksum bytes := by
  rw [checksum]
  congr 2
  funext crc byte
  exact shiftByte_eq crc byte

end Table

example : checksum [97] = 0xE8B7BE43 := by decide
end Abyss.Archive.Crc32
