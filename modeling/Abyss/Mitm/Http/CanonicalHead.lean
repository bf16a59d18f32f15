import Abyss.Mitm.Http.Head

/-! Request heads in their canonical spelling: single spaces in the request line and
one `name: value` line for each field. A byte string starts with at most one such
head, and this is all the pipeline relies on when it replays a head it has rewritten. -/
namespace Abyss.Mitm.Http
open Abyss.Stream Abyss.Text

section Plain
variable {α : Type}

/-- Collect bytes up to the first blank line, then decode them. -/
def untilBlankLine (decode : Bytes → Option α) : Incremental UInt8 α HttparseError :=
  Incremental.ofScan (fun (seen : Bytes) b =>
    if crlf ++ crlf <:+ seen ++ [b] then
      match decode (seen ++ [b]) with
      | some value => .done value
      | none => .bad .syntactic
    else .next (seen ++ [b])) []

/-- The lines of a head without their ends. -/
def headLines (bytes : Bytes) : List Bytes := ((bytes.splitOn 10).map List.dropLast).takeWhile (· ≠ [])

def plainHeader (line : Bytes) : RawHeader :=
  ⟨line.takeWhile (· ≠ 58), (((line.dropWhile (· ≠ 58)).drop 1).dropWhile (· == 32)).rdropWhile (· == 32)⟩

def plainVersion (token : Bytes) : Option Nat :=
  if token = ascii "HTTP/1.1" then some 1 else if token = ascii "HTTP/1.0" then some 0 else none

def plainNumber (digits : Bytes) : Option Nat := parseUnsigned 1000 (digits.map byteChar)

def plainRequest (bytes : Bytes) : Option RawRequest :=
  match headLines bytes with
  | [] => none
  | startLine :: fields =>
    match startLine.splitOn 32 with
    | [method, path, version] => some ⟨some method, some path, plainVersion version, fields.map plainHeader⟩
    | _ => none

def plainResponse (bytes : Bytes) : Option RawResponse :=
  match headLines bytes with
  | [] => none
  | startLine :: fields =>
    match startLine.splitOn 32 with
    | version :: code :: _ => some ⟨plainVersion version, plainNumber code, fields.map plainHeader⟩
    | _ => none

def plainHttparse : Httparse := ⟨untilBlankLine plainRequest, untilBlankLine plainResponse⟩

/-- Constructors of the `http` crate for origin-form targets. -/
def originTypes : HttpTypes where
  authorityTryFrom text :=
    let port := (parseUnsigned 65536 ((text.dropWhile (· ≠ ':')).drop 1)).map UInt16.ofNat
    some ⟨text.takeWhile (· ≠ ':'), port.isSome, port⟩
  methodFromBytes bytes := if bytes = [] then none else some bytes
  uriTryFrom bytes := if bytes.head? = some 47 then some ⟨none, none, some ⟨bytes, bytes⟩, bytes⟩ else none
  statusFromU16 code := if 100 ≤ code ∧ code < 1000 then some code else none
  headerNameFromBytes bytes := if bytes = [] then none else some (bytes.map asciiLower)
  headerValueFromBytes bytes :=
    if bytes.all (fun b => (32 ≤ b && b != 127) || b == 9) then some bytes else none

/-- A request without headers. -/
def getRequest : Request := ⟨ascii "GET", ⟨none, none, some ⟨ascii "/", ascii "/"⟩, ascii "/"⟩, .http11, ⟨[]⟩⟩

example : (parseResponseHead plainHttparse originTypes).run (ascii "HTTP/1.1 200 OK\r\nContent-Length: 2\r\n\r\nok") =
    .complete ⟨200, .http11, ⟨[(ascii "content-length", ascii "2")]⟩⟩ 38 := by
  decide

end Plain

/-- The characters of a token. -/
def isTchar (b : UInt8) : Bool :=
  (48 ≤ b && b ≤ 57) || (65 ≤ b && b ≤ 90) || (97 ≤ b && b ≤ 122) || (ascii "!#$%&'*+-.^_`|~").contains b

def IsToken (bytes : Bytes) : Prop := bytes ≠ [] ∧ ∀ b ∈ bytes, isTchar b = true

/-- A request target as the head parser reports it: no blank and no control character. -/
def IsTarget (bytes : Bytes) : Prop :=
  bytes ≠ [] ∧ (∀ b ∈ bytes, 32 < b ∧ b ≠ 127) ∧ (fromUtf8 bytes).isSome = true

def isBlank (b : UInt8) : Bool := b == 32 || b == 9

/-- A field value as the head parser reports it: without control characters, and without blanks around it. -/
def IsFieldValue (bytes : Bytes) : Prop :=
  (∀ b ∈ bytes, b = 9 ∨ 32 ≤ b ∧ b ≠ 127) ∧ bytes.head?.any isBlank = false ∧ bytes.getLast?.any isBlank = false

def IsField (header : RawHeader) : Prop := IsToken header.name ∧ IsFieldValue header.value

instance (bytes : Bytes) : Decidable (IsToken bytes) := inferInstanceAs (Decidable (_ ∧ _))
instance (bytes : Bytes) : Decidable (IsTarget bytes) := inferInstanceAs (Decidable (_ ∧ _))
instance (bytes : Bytes) : Decidable (IsFieldValue bytes) := inferInstanceAs (Decidable (_ ∧ _))
instance (header : RawHeader) : Decidable (IsField header) := inferInstanceAs (Decidable (_ ∧ _))

/-- One header line. -/
def fieldLine (header : RawHeader) : Bytes := header.name ++ ascii ": " ++ header.value ++ crlf

/-- The header lines and the blank line behind them. -/
def fieldSection (headers : List RawHeader) : Bytes := headers.flatMap fieldLine ++ crlf

def requestHeadText (method target : Bytes) (headers : List RawHeader) : Bytes :=
  method ++ ascii " " ++ target ++ ascii " HTTP/1.1\r\n" ++ fieldSection headers

/-- What the pipeline relies on when it parses a head that it has rewritten: reported parts are well formed, and
a canonical head of well-formed parts is reported as these parts. -/
structure HttparseLaws (httparse : Httparse) : Prop where
  sound {buffer : Bytes} {raw : RawRequest} {n : Nat} : httparse.request.run buffer = .complete raw n →
    (∀ method, raw.method = some method → IsToken method) ∧ (∀ target, raw.path = some target → IsTarget target) ∧
    (∀ header ∈ raw.headers, IsField header) ∧ raw.headers.length ≤ 64
  canonical {method target : Bytes} {headers : List RawHeader} (rest : Bytes) : IsToken method → IsTarget target →
    (∀ header ∈ headers, IsField header) → headers.length ≤ 64 →
    httparse.request.run (requestHeadText method target headers ++ rest) =
      .complete ⟨some method, some target, some 1, headers⟩ (requestHeadText method target headers).length

/-- The checked constructors on well-formed parts. -/
structure HttpTypesLaws (types : HttpTypes) : Prop where
  method {bytes : Bytes} : IsToken bytes → (types.methodFromBytes bytes).isSome = true
  headerName {bytes : Bytes} : IsToken bytes →
    types.headerNameFromBytes bytes = if bytes.length < 65536 then some (bytes.map asciiLower) else none
  headerValue {bytes : Bytes} : IsFieldValue bytes → types.headerValueFromBytes bytes = some bytes
  pathAndQuery {bytes : Bytes} {uri : Uri} {value : PathAndQuery} : IsTarget bytes →
    types.uriTryFrom bytes = some uri → uri.pathAndQuery = some value → IsTarget value.asStr

section Reader

/-- Split at the first occurrence of a byte. -/
def cutAt (b : UInt8) : Bytes → Option (Bytes × Bytes)
  | [] => none
  | c :: rest => if c = b then some ([], rest) else (cutAt b rest).map (fun parts => (c :: parts.1, parts.2))

theorem cutAt_eq_some {b : UInt8} {l x r : Bytes} : cutAt b l = some (x, r) ↔ b ∉ x ∧ l = x ++ b :: r := by
  induction l generalizing x with
  | nil => simp [cutAt]
  | cons c rest ih =>
    unfold cutAt
    split
    · next hc =>
      subst hc
      cases x with
      | nil => simp
      | cons d front =>
        refine iff_of_false (by simp) ?_
        rintro ⟨hb, h⟩
        exact hb ((List.cons.inj h).1 ▸ List.mem_cons_self)
    · next hc =>
      cases x with
      | nil => simp [hc]
      | cons d front =>
        simp only [Option.map_eq_some_iff, Prod.exists, Prod.mk.injEq, List.cons.injEq, List.cons_append, List.mem_cons]
        constructor
        · rintro ⟨x, r', hcut, ⟨rfl, rfl⟩, rfl⟩
          obtain ⟨hx, rfl⟩ := ih.mp hcut
          exact ⟨fun h => h.elim (fun h => hc h.symm) hx, rfl, rfl⟩
        · rintro ⟨hb, rfl, rfl⟩
          exact ⟨front, r, ih.mpr ⟨fun h => hb (.inr h), rfl⟩, ⟨rfl, rfl⟩, rfl⟩

/-- Read a field section with fewer than `room` fields. -/
def readFields : Nat → Bytes → Option (List RawHeader × Bytes)
  | 0, _ => none
  | room + 1, l =>
    match stripFront crlf l with
    | some rest => some ([], rest)
    | none => do
      let (name, l) ← cutAt 58 l
      let l ← stripFront [32] l
      let (value, l) ← cutAt 13 l
      let l ← stripFront [10] l
      if IsField ⟨name, value⟩ then
        let (fields, rest) ← readFields room l
        return (⟨name, value⟩ :: fields, rest)
      else none

theorem IsToken.not_mem {bytes : Bytes} (h : IsToken bytes) {b : UInt8} (hb : isTchar b = false) : b ∉ bytes := by
  intro hmem
  rw [h.2 b hmem] at hb
  cases hb

theorem IsTarget.not_mem_space {bytes : Bytes} (h : IsTarget bytes) : (32 : UInt8) ∉ bytes :=
  fun hmem => absurd (h.2.1 32 hmem).1 (by decide)

theorem IsFieldValue.not_mem_cr {bytes : Bytes} (h : IsFieldValue bytes) : (13 : UInt8) ∉ bytes := by
  intro hmem
  rcases h.1 13 hmem with h13 | h13
  · exact absurd h13 (by decide)
  · exact absurd h13.1 (by decide)

theorem fieldSection_cons (header : RawHeader) (headers : List RawHeader) (rest : Bytes) :
    fieldSection (header :: headers) ++ rest =
      header.name ++ 58 :: ([32] ++ (header.value ++ 13 :: ([10] ++ (fieldSection headers ++ rest)))) := by
  have hcolon : ascii ": " = [58, 32] := by decide
  simp [fieldSection, fieldLine, hcolon, crlf]

/-- A field section is read back, and nothing else is accepted. -/
theorem readFields_eq_some {room : Nat} {l rest : Bytes} {headers : List RawHeader} :
    readFields room l = some (headers, rest) ↔
      (∀ header ∈ headers, IsField header) ∧ headers.length < room ∧ l = fieldSection headers ++ rest := by
  induction room generalizing l headers with
  | zero => simp [readFields]
  | succ room ih =>
    unfold readFields
    split
    · next r hr =>
      obtain rfl := stripFront_eq_some.mp hr
      cases headers with
      | nil => simp [fieldSection]
      | cons header more =>
        refine iff_of_false (by simp) ?_
        rintro ⟨hall, -, h⟩
        rw [fieldSection_cons] at h
        have hname := (hall header List.mem_cons_self).1
        obtain ⟨b, bs, hbs⟩ := List.exists_cons_of_ne_nil hname.1
        rw [hbs] at h
        obtain rfl : (13 : UInt8) = b := (List.cons.inj h).1
        exact hname.not_mem (by decide : isTchar 13 = false) (by rw [hbs]; exact List.mem_cons_self)
    · next hnone =>
      simp only [Option.bind_eq_bind, Option.bind_eq_some_iff, Prod.exists, cutAt_eq_some, stripFront_eq_some]
      constructor
      · rintro ⟨name, l₁, ⟨-, rfl⟩, l₂, rfl, value, l₃, ⟨-, rfl⟩, l₄, rfl, h⟩
        split at h
        · next hfield =>
          simp only [Option.bind_eq_some_iff, Prod.exists, Option.pure_def, Option.some.injEq, Prod.mk.injEq] at h
          obtain ⟨fields, rest', hread, rfl, rfl⟩ := h
          obtain ⟨hall, hlen, rfl⟩ := ih.mp hread
          refine ⟨?_, Nat.succ_lt_succ hlen, (fieldSection_cons ⟨name, value⟩ fields rest').symm⟩
          intro header hmem
          rcases List.mem_cons.mp hmem with rfl | hmem
          · exact hfield
          · exact hall header hmem
        · cases h
      · rintro ⟨hall, hlen, rfl⟩
        cases headers with
        | nil =>
          rw [fieldSection, List.flatMap_nil, List.nil_append, stripFront_eq_some.mpr rfl] at hnone
          cases hnone
        | cons header more =>
          have hfield := hall header List.mem_cons_self
          refine ⟨header.name, _, ⟨hfield.1.not_mem (by decide), fieldSection_cons header more rest⟩, _, rfl,
            header.value, _, ⟨hfield.2.not_mem_cr, rfl⟩, _, rfl, ?_⟩
          rw [if_pos hfield, ih.mpr ⟨fun h hmem => hall h (List.mem_cons_of_mem _ hmem), Nat.lt_of_succ_lt_succ hlen, rfl⟩]
          rfl

/-- Read a canonical request head with at most 64 fields. -/
def readRequestHead (l : Bytes) : Option (RawRequest × Bytes) := do
  let (method, l) ← cutAt 32 l
  let (target, l) ← cutAt 32 l
  let l ← stripFront (ascii "HTTP/1.1\r\n") l
  let (headers, rest) ← readFields 65 l
  if IsToken method ∧ IsTarget target then return (⟨some method, some target, some 1, headers⟩, rest) else none

theorem requestHeadText_append (method target : Bytes) (headers : List RawHeader) (rest : Bytes) :
    requestHeadText method target headers ++ rest =
      method ++ 32 :: (target ++ 32 :: (ascii "HTTP/1.1\r\n" ++ (fieldSection headers ++ rest))) := by
  have hspace : ascii " " = [32] := by decide
  have hversion : ascii " HTTP/1.1\r\n" = 32 :: ascii "HTTP/1.1\r\n" := by decide
  simp [requestHeadText, hspace, hversion]

theorem readRequestHead_eq_some {l rest : Bytes} {raw : RawRequest} :
    readRequestHead l = some (raw, rest) ↔ ∃ method target headers, IsToken method ∧ IsTarget target ∧
      (∀ header ∈ headers, IsField header) ∧ headers.length ≤ 64 ∧
      raw = ⟨some method, some target, some 1, headers⟩ ∧ l = requestHeadText method target headers ++ rest := by
  unfold readRequestHead
  simp only [Option.bind_eq_bind, Option.bind_eq_some_iff, Prod.exists, cutAt_eq_some, stripFront_eq_some,
    readFields_eq_some]
  constructor
  · rintro ⟨method, l₁, ⟨-, rfl⟩, target, l₂, ⟨-, rfl⟩, l₃, rfl, headers, rest', ⟨hall, hlen, rfl⟩, h⟩
    split at h
    · next hparts =>
      obtain ⟨rfl, rfl⟩ := (by simpa using h : _ = raw ∧ _ = rest)
      exact ⟨method, target, headers, hparts.1, hparts.2, hall, Nat.le_of_lt_succ hlen, rfl,
        (requestHeadText_append ..).symm⟩
    · cases h
  · rintro ⟨method, target, headers, hmethod, htarget, hall, hlen, rfl, rfl⟩
    refine ⟨method, _, ⟨hmethod.not_mem (by decide), requestHeadText_append ..⟩, target, _,
      ⟨htarget.not_mem_space, rfl⟩, _, rfl, headers, rest, ⟨hall, Nat.lt_succ_of_le hlen, rfl⟩, ?_⟩
    rw [if_pos ⟨hmethod, htarget⟩]
    rfl

/-- A request parser that accepts canonical heads only. -/
def canonicalRequest : Incremental UInt8 RawRequest HttparseError where
  run l := match readRequestHead l with
    | some (raw, rest) => .complete raw (l.length - rest.length)
    | none => .incomplete
  consumed_le {l raw n} h := by
    split at h
    · cases h
      exact Nat.sub_le ..
    · cases h
  settled {l} r h := by
    split at h
    · next raw rest hread =>
      obtain ⟨method, target, headers, hm, ht, hh, hlen, rfl, rfl⟩ := readRequestHead_eq_some.mp hread
      have hmore := readRequestHead_eq_some.mpr ⟨method, target, headers, hm, ht, hh, hlen, rfl,
        List.append_assoc (requestHeadText method target headers) rest r⟩
      simp only [hmore]
      congr 1
      simp
    · exact absurd rfl h
  front {l raw n} h := by
    split at h
    · next raw' rest hread =>
      cases h
      obtain ⟨method, target, headers, hm, ht, hh, hlen, rfl, rfl⟩ := readRequestHead_eq_some.mp hread
      have hfront := readRequestHead_eq_some.mpr ⟨method, target, headers, hm, ht, hh, hlen, rfl,
        (List.append_nil (requestHeadText method target headers)).symm⟩
      have htake : (requestHeadText method target headers ++ rest).take
          ((requestHeadText method target headers ++ rest).length - rest.length) =
          requestHeadText method target headers := by
        rw [List.length_append, Nat.add_sub_cancel, List.take_left]
      simp only [htake, hfront]
      congr 1
      simp
    · cases h

theorem canonicalRequest_complete {l : Bytes} {raw : RawRequest} {n : Nat} :
    canonicalRequest.run l = .complete raw n ↔ ∃ rest, readRequestHead l = some (raw, rest) ∧ n = l.length - rest.length := by
  simp only [canonicalRequest]
  cases readRequestHead l with
  | none => simp
  | some parts =>
    obtain ⟨raw', rest'⟩ := parts
    simp only [Answer.complete.injEq, Option.some.injEq, Prod.mk.injEq]
    constructor
    · rintro ⟨rfl, rfl⟩
      exact ⟨rest', ⟨rfl, rfl⟩, rfl⟩
    · rintro ⟨rest, ⟨rfl, rfl⟩, rfl⟩
      exact ⟨rfl, rfl⟩

theorem canonicalRequest_laws (response : Incremental UInt8 RawResponse HttparseError) :
    HttparseLaws ⟨canonicalRequest, response⟩ where
  sound {buffer raw n} h := by
    obtain ⟨rest, hread, -⟩ := canonicalRequest_complete.mp h
    obtain ⟨method, target, headers, hm, ht, hh, hlen, rfl, -⟩ := readRequestHead_eq_some.mp hread
    refine ⟨?_, ?_, hh, hlen⟩
    · rintro _ ⟨⟩
      exact hm
    · rintro _ ⟨⟩
      exact ht
  canonical {method target headers} rest hm ht hh hlen := by
    refine canonicalRequest_complete.mpr ⟨rest, ?_, ?_⟩
    · exact readRequestHead_eq_some.mpr ⟨method, target, headers, hm, ht, hh, hlen, rfl, rfl⟩
    · rw [List.length_append, Nat.add_sub_cancel]

end Reader

section Types

/-- An absolute `http` URI behind its scheme. -/
def absoluteUri (bytes rest : Bytes) : Uri :=
  let target := rest.dropWhile (fun b => b ≠ 47 ∧ b ≠ 63)
  ⟨some (ascii "http"), some (rest.takeWhile (fun b => b ≠ 47 ∧ b ≠ 63)),
    some ⟨if target = [] then ascii "/" else target, target⟩, bytes⟩

/-- Checked constructors for well-formed parts, with visible ASCII targets in absolute or origin form. -/
def canonicalTypes : HttpTypes where
  authorityTryFrom text :=
    let port := (parseUnsigned 65536 ((text.dropWhile (· ≠ ':')).drop 1)).map UInt16.ofNat
    some ⟨text.takeWhile (· ≠ ':'), port.isSome, port⟩
  methodFromBytes bytes := if IsToken bytes then some bytes else none
  uriTryFrom bytes :=
    if ¬ bytes.all (fun b => 32 < b && b < 127) then none
    else match stripFront (ascii "http://") bytes with
      | some rest => some (absoluteUri bytes rest)
      | none => if bytes.head? = some 47 then some ⟨none, none, some ⟨bytes, bytes⟩, bytes⟩ else none
  statusFromU16 code := if 100 ≤ code ∧ code < 1000 then some code else none
  headerNameFromBytes bytes := if IsToken bytes ∧ bytes.length < 65536 then some (bytes.map asciiLower) else none
  headerValueFromBytes bytes := if bytes.all (fun b => (32 ≤ b && b != 127) || b == 9) then some bytes else none

/-- An accepted target is absolute or in origin form. -/
theorem canonicalTypes_uri {bytes : Bytes} {uri : Uri} (h : canonicalTypes.uriTryFrom bytes = some uri) :
    bytes.all (fun b => 32 < b && b < 127) = true ∧
      ((∃ rest, bytes = ascii "http://" ++ rest ∧ uri = absoluteUri bytes rest) ∨
        bytes.head? = some 47 ∧ uri = ⟨none, none, some ⟨bytes, bytes⟩, bytes⟩) := by
  simp only [canonicalTypes] at h
  split at h
  · cases h
  · next hvisible =>
    refine ⟨not_not.mp hvisible, ?_⟩
    split at h
    · next rest hrest => exact .inl ⟨rest, stripFront_eq_some.mp hrest, (Option.some.inj h).symm⟩
    · split at h
      · next hhead => exact .inr ⟨hhead, (Option.some.inj h).symm⟩
      · cases h

theorem canonicalTypes_origin {bytes : Bytes} (hvisible : bytes.all (fun b => 32 < b && b < 127) = true)
    (hhead : bytes.head? = some 47) :
    canonicalTypes.uriTryFrom bytes = some ⟨none, none, some ⟨bytes, bytes⟩, bytes⟩ := by
  have hscheme : stripFront (ascii "http://") bytes = none := by
    refine if_neg ?_
    rintro ⟨tail, rfl⟩
    have hfirst : (ascii "http://" ++ tail).head? = some 104 := rfl
    rw [hfirst] at hhead
    exact absurd hhead (by decide)
  simp only [canonicalTypes, hvisible, hscheme, hhead, not_true, if_false, if_true]

theorem isTarget_of_visible {bytes : Bytes} (hne : bytes ≠ []) (h : ∀ b ∈ bytes, (32 < b && b < 127) = true) :
    IsTarget bytes := by
  have hbounds : ∀ b ∈ bytes, 32 < b.toNat ∧ b.toNat < 127 := by
    intro b hb
    simpa [UInt8.lt_iff_toNat_lt] using h b hb
  refine ⟨hne, ?_, ?_⟩
  · intro b hb
    refine ⟨UInt8.lt_iff_toNat_lt.mpr (hbounds b hb).1, ?_⟩
    rintro rfl
    exact absurd (hbounds 127 hb).2 (by decide)
  · rw [fromUtf8_ascii bytes (fun b hb => Nat.lt_succ_of_lt (hbounds b hb).2)]
    rfl

theorem canonicalTypes_laws : HttpTypesLaws canonicalTypes where
  method {bytes} h := by simp only [canonicalTypes, if_pos h, Option.isSome_some]
  headerName {bytes} h := by simp only [canonicalTypes, h, true_and]
  headerValue {bytes} h := by
    have hall : bytes.all (fun b => (32 ≤ b && b != 127) || b == 9) = true := by
      rw [List.all_eq_true]
      intro b hb
      have := h.1 b hb
      simp only [Bool.or_eq_true, Bool.and_eq_true, decide_eq_true_eq, bne_iff_ne, beq_iff_eq]
      exact this.symm
    simp only [canonicalTypes, if_pos hall]
  pathAndQuery {bytes uri value} h huri hvalue := by
    simp only [canonicalTypes] at huri
    split at huri
    · cases huri
    · next hvisible =>
      rw [not_not, List.all_eq_true] at hvisible
      split at huri
      · next rest hrest =>
        obtain rfl := Option.some.inj huri
        obtain rfl := Option.some.inj hvalue
        obtain rfl := stripFront_eq_some.mp hrest
        change IsTarget (if _ = [] then ascii "/" else _)
        split
        · decide +kernel
        · next hne =>
          refine isTarget_of_visible hne ?_
          intro b hb
          exact hvisible b (List.mem_append_right _ ((List.dropWhile_sublist _).subset hb))
      · split at huri
        · obtain rfl := Option.some.inj huri
          obtain rfl := Option.some.inj hvalue
          exact h
        · cases huri

end Types

end Abyss.Mitm.Http
