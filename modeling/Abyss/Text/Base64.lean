import Abyss.Text.Scalar

/-! The standard base64 encoding with padding, and its decoding: only the canonical text of
some bytes is accepted. -/
namespace Abyss.Text.Base64

/-- The symbol of six bits. -/
def symbol (n : Nat) : Char :=
  if n < 26 then Char.ofNat (65 + n)
  else if n < 52 then Char.ofNat (97 + (n - 26))
  else if n < 62 then Char.ofNat (48 + (n - 52))
  else if n = 62 then '+' else '/'

def value (c : Char) : Option Nat :=
  if 65 ≤ c.toNat ∧ c.toNat ≤ 90 then some (c.toNat - 65)
  else if 97 ≤ c.toNat ∧ c.toNat ≤ 122 then some (c.toNat - 97 + 26)
  else if 48 ≤ c.toNat ∧ c.toNat ≤ 57 then some (c.toNat - 48 + 52)
  else if c = '+' then some 62
  else if c = '/' then some 63
  else none

/-- Three bytes are written as four symbols; a shorter end is filled with padding. -/
def encode : List UInt8 → Str
  | [] => []
  | [a] => [symbol (a.toNat / 4), symbol (a.toNat % 4 * 16), '=', '=']
  | [a, b] => [symbol (a.toNat / 4), symbol (a.toNat % 4 * 16 + b.toNat / 16), symbol (b.toNat % 16 * 4), '=']
  | a :: b :: c :: rest =>
    symbol (a.toNat / 4) :: symbol (a.toNat % 4 * 16 + b.toNat / 16) :: symbol (b.toNat % 16 * 4 + c.toNat / 64) ::
      symbol (c.toNat % 64) :: encode rest

def byte (n : Nat) : UInt8 := UInt8.ofNat n

/-- The end of a text with padding. The bits that no byte takes are zero. -/
def decodeLast (w x y : Char) : Option (List UInt8) := do
  let w ← value w
  let x ← value x
  if y = '=' then
    if x % 16 = 0 then return [byte (w * 4 + x / 16)] else none
  else
    let y ← value y
    if y % 4 = 0 then return [byte (w * 4 + x / 16), byte (x % 16 * 16 + y / 4)] else none

def decode : Str → Option (List UInt8)
  | [] => some []
  | w :: x :: y :: z :: rest =>
    if rest = [] ∧ z = '=' then decodeLast w x y
    else do
      let w ← value w
      let x ← value x
      let y ← value y
      let z ← value z
      return byte (w * 4 + x / 16) :: byte (x % 16 * 16 + y / 4) :: byte (y % 4 * 64 + z) :: (← decode rest)
  | _ => none

section RoundTrip
variable {n : Nat}

theorem value_symbol (h : n < 64) : value (symbol n) = some n := by
  have hall : ∀ m : Fin 64, value (symbol m.val) = some m.val := by decide
  exact hall ⟨n, h⟩

theorem symbol_ne (h : n < 64) : symbol n ≠ '=' := by
  have hall : ∀ m : Fin 64, symbol m.val ≠ '=' := by decide
  exact hall ⟨n, h⟩

private theorem byte_eq {a : UInt8} (h : n = a.toNat) : byte n = a := by
  rw [h]
  exact UInt8.ofNat_toNat

/-- Every list of bytes is read back. -/
theorem decode_encode (bytes : List UInt8) : decode (encode bytes) = some bytes := by
  fun_induction encode bytes with
  | case1 => rfl
  | case2 a =>
    have ha := a.toNat_lt
    rw [decode, if_pos ⟨rfl, rfl⟩, decodeLast, value_symbol (by omega), value_symbol (by omega)]
    change (if _ then _ else _) = _
    rw [if_pos (by omega), @byte_eq _ a (by omega)]
    rfl
  | case3 a b =>
    have ha := a.toNat_lt
    have hb := b.toNat_lt
    rw [decode, if_pos ⟨rfl, rfl⟩, decodeLast, value_symbol (by omega), value_symbol (by omega),
      value_symbol (by omega)]
    change (if _ then _ else if _ then _ else _) = _
    rw [if_neg (symbol_ne (by omega)), if_pos (by omega), @byte_eq _ a (by omega), @byte_eq _ b (by omega)]
    rfl
  | case4 a b c rest ih =>
    have ha := a.toNat_lt
    have hb := b.toNat_lt
    have hc := c.toNat_lt
    rw [decode, if_neg fun h => symbol_ne (by omega) h.2, value_symbol (by omega), value_symbol (by omega),
      value_symbol (by omega), value_symbol (by omega), ih]
    change some (_ :: _ :: _ :: rest) = _
    rw [@byte_eq _ a (by omega), @byte_eq _ b (by omega), @byte_eq _ c (by omega)]

theorem encode_injective {bytes other : List UInt8} (h : encode bytes = encode other) : bytes = other :=
  Option.some.inj ((decode_encode bytes).symm.trans ((congrArg decode h).trans (decode_encode other)))

end RoundTrip

end Abyss.Text.Base64
