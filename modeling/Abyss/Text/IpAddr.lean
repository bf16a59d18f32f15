import Abyss.Text.Scalar

/-! IP address literals, with the parser and the canonical rendering of the Rust
standard library. -/
namespace Abyss.Text

/-- The octets of an IPv4 address. -/
structure Ipv4Addr where
  a : UInt8
  b : UInt8
  c : UInt8
  d : UInt8
  deriving DecidableEq, Repr

/-- The eight segments of an IPv6 address. -/
structure Ipv6Addr where
  segments : List UInt16
  eight : segments.length = 8
  deriving DecidableEq, Repr

inductive IpAddr where
  | v4 (address : Ipv4Addr)
  | v6 (address : Ipv6Addr)
  deriving DecidableEq, Repr

def hexDigit (n : Nat) : Char := if n < 10 then Char.ofNat (48 + n) else Char.ofNat (87 + n)

def hexValue (c : Char) : Option Nat :=
  if '0' ≤ c ∧ c ≤ '9' then some (c.toNat - 48)
  else if 'a' ≤ c ∧ c ≤ 'f' then some (c.toNat - 87)
  else if 'A' ≤ c ∧ c ≤ 'F' then some (c.toNat - 55)
  else none

/-- One octet: at most three digits, without leading zeros. -/
def parseOctet (s : Str) : Option UInt8 :=
  if s ≠ [] ∧ s.all Char.isDigit ∧ s.length ≤ 3 ∧ (s.head? = some '0' → s.length = 1) ∧ decimal s < 256 then
    some (UInt8.ofNat (decimal s))
  else none

def parseIpv4 (s : Str) : Option Ipv4Addr :=
  match (s.splitOn '.').map parseOctet with
  | [some a, some b, some c, some d] => some ⟨a, b, c, d⟩
  | _ => none

/-- One segment: one to four hexadecimal digits. -/
def parseSegment (s : Str) : Option UInt16 :=
  if s = [] ∨ 4 < s.length then none
  else (s.mapM hexValue).map (fun digits => UInt16.ofNat (digits.foldl (fun n d => 16 * n + d) 0))

/-- Segments separated by colons; the last two may be written as an IPv4 address. -/
def parseSegments (allowIpv4 : Bool) (s : Str) : Option (List UInt16) :=
  if s = [] then some [] else
  let parts := s.splitOn ':'
  match parts.dropLast.mapM parseSegment with
  | none => none
  | some front =>
    let last := parts.getLastD []
    match parseSegment last with
    | some segment => some (front ++ [segment])
    | none => if allowIpv4 then (parseIpv4 last).map (fun address => front ++
        [address.a.toUInt16 * 256 + address.b.toUInt16, address.c.toUInt16 * 256 + address.d.toUInt16]) else none

/-- The text before and behind the first double colon. -/
def splitDoubleColon : Str → Option (Str × Str)
  | [] => none
  | ':' :: ':' :: rest => some ([], rest)
  | c :: rest => (splitDoubleColon rest).map (fun parts => (c :: parts.1, parts.2))

def ipv6OfSegments (segments : List UInt16) : Option Ipv6Addr :=
  if h : segments.length = 8 then some ⟨segments, h⟩ else none

/-- Eight segments, or fewer with a double colon for at least one zero segment. -/
def parseIpv6 (s : Str) : Option Ipv6Addr :=
  match splitDoubleColon s with
  | none => (parseSegments true s).bind ipv6OfSegments
  | some (head, tail) => match parseSegments false head, parseSegments true tail with
    | some front, some back =>
      if front.length + back.length ≤ 7 then
        ipv6OfSegments (front ++ List.replicate (8 - front.length - back.length) 0 ++ back)
      else none
    | _, _ => none

/-- `IpAddr::from_str`. -/
def parseIpAddr (s : Str) : Option IpAddr :=
  match parseIpv4 s with
  | some address => some (.v4 address)
  | none => (parseIpv6 s).map .v6

def Ipv4Addr.display (address : Ipv4Addr) : Str :=
  ['.'].intercalate ([address.a, address.b, address.c, address.d].map (fun octet => Nat.toDigits 10 octet.toNat))

/-- A segment in hexadecimal, without leading zeros. -/
def displaySegment (segment : UInt16) : Str :=
  let n := segment.toNat
  ([n / 4096 % 16, n / 256 % 16, n / 16 % 16].dropWhile (· == 0) ++ [n % 16]).map hexDigit

def displaySegments (segments : List UInt16) : Str := [':'].intercalate (segments.map displaySegment)

/-- Start and length of the first longest run of zero segments. -/
def longestZeroes (segments : List UInt16) : Nat × Nat :=
  ((List.range segments.length).map (fun i => (i, ((segments.drop i).takeWhile (· == 0)).length))).foldl
    (fun best run => if best.2 < run.2 then run else best) (0, 0)

/-- The address that an IPv4-mapped address stands for. -/
def Ipv6Addr.toIpv4Mapped (address : Ipv6Addr) : Option Ipv4Addr :=
  match address.segments with
  | [0, 0, 0, 0, 0, 0xffff, high, low] =>
    some ⟨(high >>> 8).toUInt8, high.toUInt8, (low >>> 8).toUInt8, low.toUInt8⟩
  | _ => none

def Ipv6Addr.display (address : Ipv6Addr) : Str :=
  match address.toIpv4Mapped with
  | some mapped => ':' :: ':' :: 'f' :: 'f' :: 'f' :: 'f' :: ':' :: mapped.display
  | none =>
    let zeroes := longestZeroes address.segments
    if 1 < zeroes.2 then
      displaySegments (address.segments.take zeroes.1) ++ ':' :: ':' ::
        displaySegments (address.segments.drop (zeroes.1 + zeroes.2))
    else displaySegments address.segments

def IpAddr.display : IpAddr → Str
  | .v4 address => address.display
  | .v6 address => address.display

/-- An address and a port; the flow information and the scope of an IPv6 socket address are left out. -/
structure SocketAddr where
  ip : IpAddr
  port : UInt16
  deriving DecidableEq, Repr

def SocketAddr.display (address : SocketAddr) : Str :=
  match address.ip with
  | .v4 ip => ip.display ++ ':' :: Nat.toDigits 10 address.port.toNat
  | .v6 ip => '[' :: ip.display ++ ']' :: ':' :: Nat.toDigits 10 address.port.toNat

def IpAddr.isIpv4 : IpAddr → Bool
  | .v4 _ => true
  | .v6 _ => false

def IpAddr.isUnspecified : IpAddr → Bool
  | .v4 address => address = ⟨0, 0, 0, 0⟩
  | .v6 address => address.segments = [0, 0, 0, 0, 0, 0, 0, 0]

def IpAddr.isLoopback : IpAddr → Bool
  | .v4 address => address.a = 127
  | .v6 address => address.segments = [0, 0, 0, 0, 0, 0, 0, 1]

example : (parseIpAddr "2001:DB8::1".toList).map IpAddr.display = some "2001:db8::1".toList := by decide
example : (parseIpAddr "::ffff:192.0.2.1".toList).map IpAddr.display = some "::ffff:192.0.2.1".toList := by
  decide
example : parseIpAddr "192.0.02.1".toList = none := by decide

/-- The characters of a rendered address. -/
def isIpChar (c : Char) : Bool := c.isDigit || ('a' ≤ c && c ≤ 'f') || c == '.' || c == ':'

theorem mem_intercalate {sep : Str} {parts : List Str} {c : Char} (h : c ∈ sep.intercalate parts) :
    c ∈ sep ∨ ∃ part ∈ parts, c ∈ part := by
  induction parts with
  | nil => simp [List.intercalate] at h
  | cons first rest ih =>
    cases rest with
    | nil =>
      have hc : c ∈ first := by simpa [List.intercalate] using h
      exact .inr ⟨first, List.mem_cons_self, hc⟩
    | cons second more =>
      have hsplit : c ∈ first ++ (sep ++ sep.intercalate (second :: more)) := by simpa [List.intercalate] using h
      rcases List.mem_append.mp hsplit with hc | hsplit
      · exact .inr ⟨first, List.mem_cons_self, hc⟩
      · rcases List.mem_append.mp hsplit with hc | hc
        · exact .inl hc
        · rcases ih hc with hc | ⟨part, hpart, hc⟩
          · exact .inl hc
          · exact .inr ⟨part, List.mem_cons_of_mem _ hpart, hc⟩

theorem mem_intercalate_of_mem {sep : Str} {parts : List Str} {part : Str} (hpart : part ∈ parts) {c : Char}
    (hc : c ∈ part) : c ∈ sep.intercalate parts := by
  induction parts with
  | nil => cases hpart
  | cons first rest ih =>
    cases rest with
    | nil =>
      obtain rfl := List.mem_singleton.mp hpart
      simpa [List.intercalate] using hc
    | cons second rest =>
      rw [List.intercalate_cons_cons, List.mem_append, List.mem_append]
      rcases List.mem_cons.mp hpart with rfl | hpart
      · exact .inl (.inl hc)
      · exact .inr (ih hpart)

theorem hexDigit_char {n : Nat} (h : n < 16) : isIpChar (hexDigit n) = true := by
  have hall : ∀ n : Fin 16, isIpChar (hexDigit n.val) = true := by decide
  exact hall ⟨n, h⟩

theorem Ipv4Addr.display_chars (address : Ipv4Addr) : ∀ c ∈ address.display, isIpChar c = true := by
  intro c hc
  rcases mem_intercalate hc with hdot | ⟨part, hpart, hc⟩
  · obtain rfl := List.mem_singleton.mp hdot
    rfl
  · obtain ⟨octet, -, rfl⟩ := List.mem_map.mp hpart
    rw [isIpChar, Nat.isDigit_of_mem_toDigits (by decide) (by decide) hc]
    rfl

theorem displaySegment_chars (segment : UInt16) : ∀ c ∈ displaySegment segment, isIpChar c = true := by
  intro c hc
  obtain ⟨digit, hdigit, rfl⟩ := List.mem_map.mp hc
  apply hexDigit_char
  rcases List.mem_append.mp hdigit with hdigit | hdigit
  · have hmem := (List.dropWhile_suffix _).subset hdigit
    simp only [List.mem_cons, List.not_mem_nil, or_false] at hmem
    omega
  · have hmem := List.mem_singleton.mp hdigit
    omega

theorem displaySegments_chars (segments : List UInt16) : ∀ c ∈ displaySegments segments, isIpChar c = true := by
  intro c hc
  rcases mem_intercalate hc with hcolon | ⟨part, hpart, hc⟩
  · obtain rfl := List.mem_singleton.mp hcolon
    rfl
  · obtain ⟨segment, -, rfl⟩ := List.mem_map.mp hpart
    exact displaySegment_chars segment c hc

theorem Ipv6Addr.display_chars (address : Ipv6Addr) : ∀ c ∈ address.display, isIpChar c = true := by
  intro c hc
  unfold Ipv6Addr.display at hc
  split at hc
  · next mapped _ =>
    simp only [List.mem_cons] at hc
    rcases hc with rfl | rfl | rfl | rfl | rfl | rfl | rfl | hc
    all_goals first | rfl | exact mapped.display_chars c hc
  · simp only at hc
    split at hc
    · rcases List.mem_append.mp hc with hc | hc
      · exact displaySegments_chars _ c hc
      · simp only [List.mem_cons] at hc
        rcases hc with rfl | rfl | hc
        · rfl
        · rfl
        · exact displaySegments_chars _ c hc
    · exact displaySegments_chars _ c hc

/-- A rendered address consists of hexadecimal digits, dots and colons. -/
theorem IpAddr.display_chars (address : IpAddr) : ∀ c ∈ address.display, isIpChar c = true := by
  cases address with
  | v4 address => exact address.display_chars
  | v6 address => exact address.display_chars

end Abyss.Text
