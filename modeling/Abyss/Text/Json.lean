import Abyss.Text.IpAddr
import Abyss.Text.Utf8

/-! JSON values, their compact text as `serde_json` writes it, the parser of a whole document, and the access to fields that
`serde_json::Value` gives. -/
namespace Abyss.Text

/-- A number; `negInt n` is `-(n + 1)`. A literal outside the 64-bit integers keeps its text. -/
inductive JsonNumber where
  | posInt (n : UInt64)
  | negInt (n : Fin (2 ^ 63))
  | float (literal : Str)
  deriving DecidableEq, Repr

/-- A value. Members keep their order, and equal keys stay apart. -/
inductive Json where
  | null
  | bool (b : Bool)
  | num (n : JsonNumber)
  | str (s : Str)
  | arr (items : List Json)
  | obj (members : List (Str × Json))
  deriving Repr

namespace Json

section Write

/-- One character of a string literal. -/
def escapeChar (c : Char) : Str :=
  if c = '"' then ['\\', '"']
  else if c = '\\' then ['\\', '\\']
  else if c.toNat = 8 then ['\\', 'b']
  else if c.toNat = 9 then ['\\', 't']
  else if c.toNat = 10 then ['\\', 'n']
  else if c.toNat = 12 then ['\\', 'f']
  else if c.toNat = 13 then ['\\', 'r']
  else if c.toNat < 0x20 then ['\\', 'u', '0', '0', hexDigit (c.toNat / 16), hexDigit (c.toNat % 16)]
  else [c]

def stringText (s : Str) : Str := '"' :: s.flatMap escapeChar ++ ['"']

def numberText : JsonNumber → Str
  | .posInt n => Nat.toDigits 10 n.toNat
  | .negInt n => '-' :: Nat.toDigits 10 (n.val + 1)
  | .float literal => literal

mutual
/-- The text of the compact formatter. -/
def text : Json → Str
  | .null => ['n', 'u', 'l', 'l']
  | .bool true => ['t', 'r', 'u', 'e']
  | .bool false => ['f', 'a', 'l', 's', 'e']
  | .num n => numberText n
  | .str s => stringText s
  | .arr items => '[' :: itemsText items
  | .obj members => '{' :: membersText members

/-- The items of an array and its closing bracket. -/
def itemsText : List Json → Str
  | [] => [']']
  | [item] => item.text ++ [']']
  | item :: next :: rest => item.text ++ ',' :: itemsText (next :: rest)

/-- The members of an object and its closing brace. -/
def membersText : List (Str × Json) → Str
  | [] => ['}']
  | [(key, value)] => stringText key ++ ':' :: value.text ++ ['}']
  | (key, value) :: next :: rest => stringText key ++ ':' :: value.text ++ ',' :: membersText (next :: rest)
end

/-- `serde_json::to_vec`. -/
def toVec (j : Json) : List UInt8 := toUtf8 j.text

end Write

section Read

def skipSpace (s : Str) : Str := s.dropWhile (fun c => c == ' ' || c == '\n' || c == '\t' || c == '\r')

/-- The rest behind the next character that is not white space, when that is `c`. -/
def expect (c : Char) (s : Str) : Option Str := stripFront [c] (skipSpace s)

def hex4 (a b c d : Char) : Option Nat := do
  some ((((← hexValue a) * 16 + (← hexValue b)) * 16 + (← hexValue c)) * 16 + (← hexValue d))

/-- A `\u` escape behind its `u`. A surrogate stands only in a pair. -/
def parseUnicodeEscape : Str → Option (Char × Str)
  | a :: b :: c :: d :: rest => do
    let n ← hex4 a b c d
    if n < 0xD800 ∨ 0xDFFF < n then some (Char.ofNat n, rest)
    else if 0xDC00 ≤ n then none
    else match rest with
      | '\\' :: 'u' :: a :: b :: c :: d :: rest => do
        let low ← hex4 a b c d
        if 0xDC00 ≤ low ∧ low ≤ 0xDFFF then
          some (Char.ofNat (0x10000 + (n - 0xD800) * 0x400 + (low - 0xDC00)), rest)
        else none
      | _ => none
  | _ => none

/-- An escape behind its backslash. -/
def parseEscape : Str → Option (Char × Str)
  | [] => none
  | c :: rest =>
    if c = '"' ∨ c = '\\' ∨ c = '/' then some (c, rest)
    else if c = 'b' then some (Char.ofNat 8, rest)
    else if c = 't' then some (Char.ofNat 9, rest)
    else if c = 'n' then some (Char.ofNat 10, rest)
    else if c = 'f' then some (Char.ofNat 12, rest)
    else if c = 'r' then some (Char.ofNat 13, rest)
    else if c = 'u' then parseUnicodeEscape rest
    else none

theorem length_parseUnicodeEscape {s rest : Str} {c : Char} (h : parseUnicodeEscape s = some (c, rest)) :
    rest.length < s.length := by
  unfold parseUnicodeEscape at h
  split at h
  · simp only [Option.bind_eq_bind, Option.bind_eq_some_iff] at h
    obtain ⟨n, -, h⟩ := h
    split at h
    · obtain rfl := (Prod.mk.inj (Option.some.inj h)).2
      simp
      omega
    split at h
    · cases h
    split at h
    · simp only [Option.bind_eq_some_iff] at h
      obtain ⟨low, -, h⟩ := h
      split at h
      · obtain rfl := (Prod.mk.inj (Option.some.inj h)).2
        simp
        omega
      · cases h
    · cases h
  · cases h

theorem length_parseEscape {s rest : Str} {c : Char} (h : parseEscape s = some (c, rest)) :
    rest.length < s.length := by
  cases s with
  | nil => cases h
  | cons d s =>
    have hunicode : ∀ {c : Char} {rest : Str}, parseUnicodeEscape s = some (c, rest) → rest.length < (d :: s).length :=
      fun h => Nat.lt_succ_of_lt (length_parseUnicodeEscape h)
    simp only [parseEscape] at h
    repeat' split at h
    all_goals first
      | exact hunicode h
      | cases h
    all_goals exact Nat.lt_succ_self _

/-- A string literal behind its opening quote. -/
def parseString (s : Str) : Option (Str × Str) :=
  match s with
  | [] => none
  | c :: rest =>
    if c = '"' then some ([], rest)
    else if c = '\\' then
      match _h : parseEscape rest with
      | none => none
      | some (escaped, behind) => (parseString behind).map (fun p => (escaped :: p.1, p.2))
    else if c.toNat < 0x20 then none
    else (parseString rest).map (fun p => (c :: p.1, p.2))
termination_by s.length
decreasing_by
  · exact Nat.lt_succ_of_lt (length_parseEscape _h)
  · exact Nat.lt_succ_self _

def digits (s : Str) : Str × Str := (s.takeWhile Char.isDigit, s.dropWhile Char.isDigit)

/-- The fraction of a number literal, which may be absent. -/
def parseFraction : Str → Option (Str × Str)
  | '.' :: rest => if (digits rest).1 = [] then none else some ('.' :: (digits rest).1, (digits rest).2)
  | s => some ([], s)

def exponentSign : Str → Str × Str
  | '+' :: rest => (['+'], rest)
  | '-' :: rest => (['-'], rest)
  | s => ([], s)

/-- The exponent of a number literal, which may be absent. -/
def parseExponent : Str → Option (Str × Str)
  | [] => some ([], [])
  | c :: rest =>
    if c = 'e' ∨ c = 'E' then
      let (sign, rest) := exponentSign rest
      if (digits rest).1 = [] then none else some (c :: sign ++ (digits rest).1, (digits rest).2)
    else some ([], c :: rest)

/-- The number of an integer literal. -/
def integer (negative : Bool) (int : Str) : JsonNumber :=
  if negative then
    if h : 0 < decimal int ∧ decimal int ≤ 2 ^ 63 then .negInt ⟨decimal int - 1, by omega⟩
    else .float ('-' :: int)
  else if decimal int < 2 ^ 64 then .posInt (.ofNat (decimal int)) else .float int

/-- A number literal behind its sign. -/
def parseUnsignedNumber (negative : Bool) (s : Str) : Option (JsonNumber × Str) := do
  let (int, rest) := digits s
  if int = [] ∨ (int.head? = some '0' ∧ int ≠ ['0']) then none else
  let (fraction, rest) ← parseFraction rest
  let (exponent, rest) ← parseExponent rest
  if fraction = [] ∧ exponent = [] then some (integer negative int, rest)
  else some (.float ((if negative then ['-'] else []) ++ int ++ fraction ++ exponent), rest)

def parseNumber : Str → Option (JsonNumber × Str)
  | '-' :: rest => parseUnsignedNumber true rest
  | s => parseUnsignedNumber false s

/-- The items of a nonempty array, up to its closing bracket. Every item takes a character. -/
def parseItems (value : Str → Option (Json × Str)) : Nat → Str → Option (List Json × Str)
  | 0, _ => none
  | fuel + 1, s => do
    let (item, rest) ← value s
    match expect ',' rest with
    | some rest =>
      let (items, rest) ← parseItems value fuel rest
      some (item :: items, rest)
    | none => some ([item], ← expect ']' rest)

/-- The members of a nonempty object, up to its closing brace. -/
def parseMembers (value : Str → Option (Json × Str)) : Nat → Str → Option (List (Str × Json) × Str)
  | 0, _ => none
  | fuel + 1, s => do
    let (key, rest) ← parseString (← expect '"' s)
    let (item, rest) ← value (← expect ':' rest)
    match expect ',' rest with
    | some rest =>
      let (members, rest) ← parseMembers value fuel rest
      some ((key, item) :: members, rest)
    | none => some ([(key, item)], ← expect '}' rest)

def parseArray (value : Str → Option (Json × Str)) (s : Str) : Option (List Json × Str) :=
  match expect ']' s with
  | some rest => some ([], rest)
  | none => parseItems value s.length s

def parseObject (value : Str → Option (Json × Str)) (s : Str) : Option (List (Str × Json) × Str) :=
  match expect '}' s with
  | some rest => some ([], rest)
  | none => parseMembers value s.length s

/-- A value whose items are read by `nested`, where another level is allowed. -/
def parseWith (nested : Option (Str → Option (Json × Str))) (s : Str) : Option (Json × Str) :=
  match skipSpace s with
  | [] => none
  | c :: rest =>
    if c = '"' then (parseString rest).map (fun p => (.str p.1, p.2))
    else if c = '[' then nested.bind (fun value => (parseArray value rest).map (fun p => (.arr p.1, p.2)))
    else if c = '{' then nested.bind (fun value => (parseObject value rest).map (fun p => (.obj p.1, p.2)))
    else if c = 'n' then (stripFront ['u', 'l', 'l'] rest).map (fun rest => (.null, rest))
    else if c = 't' then (stripFront ['r', 'u', 'e'] rest).map (fun rest => (.bool true, rest))
    else if c = 'f' then (stripFront ['a', 'l', 's', 'e'] rest).map (fun rest => (.bool false, rest))
    else (parseNumber (c :: rest)).map (fun p => (.num p.1, p.2))

/-- A value with at most the given number of levels of arrays and objects. -/
def parseValue : Nat → Str → Option (Json × Str)
  | 0 => parseWith none
  | levels + 1 => parseWith (some (parseValue levels))

/-- The levels that the recursion limit of the parser admits. -/
def maxLevels : Nat := 127

def parse (s : Str) : Option Json := do
  let (j, rest) ← parseValue maxLevels s
  if skipSpace rest = [] then some j else none

/-- `serde_json::from_slice`, up to the conversion of the value. -/
def fromSlice (bytes : List UInt8) : Option Json := (fromUtf8 bytes).bind parse

end Read
end Json

section Access

/-- A literal of the source. -/
@[irreducible] def lit (s : String) : Str := s.toList

theorem lit_ofList (text : Str) : lit (String.ofList text) = text := by
  unfold lit
  exact String.toList_ofList

@[simp] theorem lit_inj {s t : String} : lit s = lit t ↔ s = t := by
  unfold lit
  exact String.toList_inj

@[simp] theorem lit_eq_nil {s : String} : lit s = [] ↔ s = "" := by
  unfold lit
  exact String.toList_eq_nil_iff

@[simp] theorem nil_eq_lit {s : String} : [] = lit s ↔ s = "" := eq_comm.trans lit_eq_nil

/-- `str::ends_with`. -/
def endsWith (s tail : Str) : Bool := decide (tail <:+ s)

/-- `str::starts_with`. -/
def startsWith (s front : Str) : Bool := decide (front <+: s)

/-- `[String]::join`. -/
def join (separator : Str) (parts : List Str) : Str := separator.intercalate parts

namespace Json

def asStr : Json → Option Str
  | .str s => some s
  | _ => none

def asArray : Json → Option (List Json)
  | .arr items => some items
  | _ => none

def asObject : Json → Option (List (Str × Json))
  | .obj members => some members
  | _ => none

def asBool : Json → Option Bool
  | .bool b => some b
  | _ => none

def asU64 : Json → Option UInt64
  | .num (.posInt n) => some n
  | _ => none

def asI64 : Json → Option Int
  | .num (.posInt n) => if n.toNat < 2 ^ 63 then some n.toNat else none
  | .num (.negInt n) => some (-(n.val + 1))
  | _ => none

/-- `Value::get` with a key. -/
def get (j : Json) (key : String) : Option Json :=
  match j with
  | .obj members => (members.find? (fun m => m.1 = lit key)).map Prod.snd
  | _ => none

/-- Indexing with a key: `null` stands for an absent member. -/
def index (j : Json) (key : String) : Json := (j.get key).getD .null

/-- A string member. -/
def field (j : Json) (key : String) : Option Str := (j.get key).bind asStr

/-- The `type` of an object. -/
def kind (j : Json) : Option Str := j.field "type"

@[simp] theorem get_null {key : String} : null.get key = none := rfl

@[simp] theorem get_nil {key : String} : (obj []).get key = none := rfl

@[simp] theorem get_cons {name key : String} {value : Json} {members : List (Str × Json)} :
    (obj ((lit name, value) :: members)).get key = if name = key then some value else (obj members).get key := by
  by_cases h : name = key <;> simp [get, h]

end Json

end Access

end Abyss.Text
