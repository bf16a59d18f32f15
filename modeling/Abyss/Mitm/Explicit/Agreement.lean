import Abyss.Mitm.Explicit.Request
import Abyss.Mitm.Relay.RequestFraming
import Abyss.Text.Trim

/-! Framing of rewritten requests. The explicit decoder validates the framing fields
with Unicode string functions, and the relay reads the rewritten head with the
visible-ASCII rules of header values. They agree exactly where the values that
decide the framing are ASCII. -/
namespace Abyss.Mitm.Explicit
open Abyss.Stream Abyss.Text Abyss.Mitm.Http Abyss.Mitm.Relay

/-- The values of a field, in order. -/
def fieldValues (headers : List RawHeader) (name : Bytes) : List Bytes :=
  (headers.filter (isNamed · name)).map RawHeader.value

def isAsciiValue (value : Bytes) : Bool := value.all (· < 128)

/-- The framing that the explicit decoder has validated. -/
def validatedFraming (headers : List RawHeader) : BodyFraming :=
  if hasHeader headers (ascii "transfer-encoding") then .chunked
  else match parseContentLength headers with
    | .ok (some length) => .contentLength length
    | _ => .empty

section Values

theorem toStr_field {value : Bytes} (h : IsFieldValue value) :
    toStr value = if isAsciiValue value then some (value.map byteChar) else none := by
  have hsame : value.all (fun b => (32 ≤ b && b < 127) || b == 9) = isAsciiValue value := by
    unfold isAsciiValue
    rw [Bool.eq_iff_iff, List.all_eq_true, List.all_eq_true]
    refine forall₂_congr ?_
    intro b hb
    have hcases := h.1 b hb
    simp only [Bool.or_eq_true, Bool.and_eq_true, decide_eq_true_eq, beq_iff_eq]
    simp only [UInt8.le_iff_toNat_le, UInt8.lt_iff_toNat_lt, ← UInt8.toNat_inj, ne_eq] at hcases ⊢
    change b.toNat = 9 ∨ 32 ≤ b.toNat ∧ ¬ b.toNat = 127 at hcases
    change (32 ≤ b.toNat ∧ b.toNat < 127) ∨ b.toNat = 9 ↔ b.toNat < 128
    omega
  unfold toStr
  rw [hsame]

theorem fromUtf8_field {value : Bytes} (h : isAsciiValue value = true) : fromUtf8 value = some (value.map byteChar) := by
  refine fromUtf8_ascii value ?_
  intro b hb
  have := List.all_eq_true.mp h b hb
  simpa using this

/-- An ASCII byte of a field value is whitespace only if it is a blank. -/
theorem isWhitespace_byteChar {b : UInt8} (hascii : b < 128) (hfield : b = 9 ∨ 32 ≤ b ∧ b ≠ 127) :
    isWhitespace (byteChar b) = isBlank b := by
  have hall : ∀ n : Fin 128, (UInt8.ofNat n.val = 9 ∨ 32 ≤ UInt8.ofNat n.val ∧ UInt8.ofNat n.val ≠ 127) →
      isWhitespace (byteChar (UInt8.ofNat n.val)) = isBlank (UInt8.ofNat n.val) := by decide
  have hb := hall ⟨b.toNat, by simpa [UInt8.lt_iff_toNat_lt] using hascii⟩
  rw [UInt8.ofNat_toNat] at hb
  exact hb hfield

/-- The head parser has already removed what trimming could remove from an ASCII value. -/
theorem trim_field {value : Bytes} (h : IsFieldValue value) (hascii : isAsciiValue value = true) :
    trim (value.map byteChar) = value.map byteChar := by
  have hmap : ∀ b ∈ value, isWhitespace (byteChar b) = isBlank b := by
    intro b hb
    have hlt := List.all_eq_true.mp hascii b hb
    exact isWhitespace_byteChar (by simpa using hlt) (h.1 b hb)
  refine trim_eq_self ?_ ?_
  · rw [List.head?_map, ← h.2.1]
    cases hhead : value.head? with
    | none => rfl
    | some b => exact hmap b (List.mem_of_head? hhead)
  · rw [List.getLast?_map, ← h.2.2]
    cases hlast : value.getLast? with
    | none => rfl
    | some b => exact hmap b (List.mem_of_getLast? hlast)

end Values

section Lengths

/-- The loop accepts values that all declare the length it returns. -/
theorem contentLengthLoop_some {parsed : Option Nat} {headers : List RawHeader} {length : Nat}
    (h : contentLengthLoop parsed headers = .ok (some length)) :
    (parsed = none ∨ parsed = some length) ∧ ∀ header ∈ headers, ∃ raw, fromUtf8 header.value = some raw ∧
      parseUnsigned u64Bound (trim raw) = some length := by
  induction headers generalizing parsed with
  | nil =>
    obtain rfl := Except.ok.inj h
    exact ⟨.inr rfl, by simp⟩
  | cons header rest ih =>
    simp only [contentLengthLoop] at h
    split at h
    · cases h
    · next raw hraw =>
      split at h
      · cases h
      · next n hn =>
        split at h
        · cases h
        · next hsame =>
          obtain ⟨hparsed, hrest⟩ := ih h
          obtain rfl : n = length := by simpa using hparsed
          refine ⟨?_, ?_⟩
          · cases parsed with
            | none => exact .inl rfl
            | some m => exact .inr (by simpa using hsame)
          · intro header' hmem
            rcases List.mem_cons.mp hmem with rfl | hmem
            · exact ⟨raw, hraw, hn⟩
            · exact hrest header' hmem

theorem contentLengthLoop_none {parsed : Option Nat} {headers : List RawHeader}
    (h : contentLengthLoop parsed headers = .ok none) : parsed = none ∧ headers = [] := by
  induction headers generalizing parsed with
  | nil => exact ⟨Except.ok.inj h, rfl⟩
  | cons header rest ih =>
    simp only [contentLengthLoop] at h
    split at h
    · cases h
    · split at h
      · cases h
      · split at h
        · cases h
        · cases (ih h).1

/-- A set of values that all declare one length is accepted by the relay. -/
theorem contentLength_of_all {headers : HeaderMap} {length : Nat} (hne : contentLengths headers ≠ [])
    (hall : ∀ value ∈ contentLengths headers, parseContentLengthValue value = .ok length) :
    contentLength headers = .ok (some length) := by
  have hagree : ∀ values : List HeaderValue, (∀ value ∈ values, parseContentLengthValue value = .ok length) →
      agreeingLengths length values = .ok () := by
    intro values hvalues
    induction values with
    | nil => rfl
    | cons value rest ih =>
      simp only [agreeingLengths, hvalues value List.mem_cons_self, bind, Except.bind]
      rw [if_neg (not_not.mpr rfl)]
      exact ih (fun v hv => hvalues v (List.mem_cons_of_mem _ hv))
  obtain ⟨first, rest, hcons⟩ := List.exists_cons_of_ne_nil hne
  have hvalues : headers.getAll (ascii "content-length") = first :: rest := hcons
  rw [hcons] at hall
  simp only [contentLength, hvalues, hall first List.mem_cons_self, bind, Except.bind,
    hagree rest (fun v hv => hall v (List.mem_cons_of_mem _ hv))]
  rfl

/-- The relay reads an ASCII value as the explicit decoder does, and rejects any other. -/
theorem parseContentLengthValue_field {value : Bytes} {length : Nat} {raw : Str} (h : IsFieldValue value)
    (hraw : fromUtf8 value = some raw) (hlength : parseUnsigned u64Bound (trim raw) = some length) :
    parseContentLengthValue value = .ok length ↔ isAsciiValue value = true := by
  unfold parseContentLengthValue
  rw [toStr_field h]
  by_cases hascii : isAsciiValue value = true
  · rw [if_pos hascii]
    rw [fromUtf8_field hascii, Option.some.injEq] at hraw
    subst hraw
    rw [trim_field h hascii] at hlength
    simp only [Option.bind_some, hlength]
    exact iff_of_true trivial hascii
  · rw [if_neg hascii]
    simp [hascii]

end Lengths

section Codings

/-- The codings of one value. -/
def valueCodings (raw : Str) : List Str := (raw.splitOn ',').map trim

theorem transferCodings_cons {header : RawHeader} {rest : List RawHeader} {codings : List Str}
    (h : transferCodings (header :: rest) = .ok codings) :
    ∃ raw more, fromUtf8 header.value = some raw ∧ [] ∉ valueCodings raw ∧ transferCodings rest = .ok more ∧
      codings = valueCodings raw ++ more := by
  simp only [transferCodings] at h
  split at h
  · cases h
  · next raw hraw =>
    split at h
    · cases h
    · next hempty =>
      cases hmore : transferCodings rest with
      | error e =>
        rw [hmore] at h
        cases h
      | ok more =>
        rw [hmore] at h
        exact ⟨raw, more, hraw, hempty, rfl, (Except.ok.inj h).symm⟩

/-- The codings of the last value are the last codings. -/
theorem transferCodings_concat {front : List RawHeader} {last : RawHeader} {codings : List Str}
    (h : transferCodings (front ++ [last]) = .ok codings) :
    ∃ earlier raw, fromUtf8 last.value = some raw ∧ [] ∉ valueCodings raw ∧ codings = earlier ++ valueCodings raw ∧
      ∀ header ∈ front, ∀ raw', fromUtf8 header.value = some raw' → ∀ coding ∈ valueCodings raw', coding ∈ earlier := by
  induction front generalizing codings with
  | nil =>
    obtain ⟨raw, more, hraw, hempty, hmore, rfl⟩ := transferCodings_cons h
    obtain rfl : [] = more := Except.ok.inj hmore
    exact ⟨[], raw, hraw, hempty, by simp, by simp⟩
  | cons header rest ih =>
    obtain ⟨raw, more, hraw, -, hmore, rfl⟩ := transferCodings_cons h
    obtain ⟨earlier, raw', hraw', hempty', rfl, hfront⟩ := ih hmore
    refine ⟨valueCodings raw ++ earlier, raw', hraw', hempty', by rw [List.append_assoc], ?_⟩
    intro header' hmem raw'' hraw'' coding hcoding
    rcases List.mem_cons.mp hmem with rfl | hmem
    · obtain rfl := Option.some.inj (hraw.symm.trans hraw'')
      exact List.mem_append_left _ hcoding
    · exact List.mem_append_right _ (hfront header' hmem raw'' hraw'' coding hcoding)

theorem checkCodings_ok {codings : List Str} (h : checkCodings codings = .ok ()) :
    (∃ last, codings.getLast? = some last ∧ eqIgnoreAsciiCase last "chunked".toList = true) ∧
    ∀ coding ∈ codings.dropLast, eqIgnoreAsciiCase coding "chunked".toList = false := by
  unfold checkCodings at h
  split at h
  · cases h
  · next last hlast =>
    split at h
    · cases h
    · next hchunked =>
      split at h
      · cases h
      · next hearlier =>
        refine ⟨⟨last, hlast, not_not.mp hchunked⟩, ?_⟩
        intro coding hmem
        rw [List.any_eq_true] at hearlier
        by_contra hne
        exact hearlier ⟨coding, hmem, by simpa using hne⟩

variable {headers : HeaderMap} {front : List RawHeader} {last : RawHeader} {codings : List Str}

/-- With an ASCII last value the relay finds the final coding that was validated. -/
theorem isChunked_of_ascii (hvalues : headers.getAll (ascii "transfer-encoding") = (front ++ [last]).map RawHeader.value)
    (hfield : IsFieldValue last.value) (hcodings : transferCodings (front ++ [last]) = .ok codings)
    (hcheck : checkCodings codings = .ok ()) (hascii : isAsciiValue last.value = true) : isChunked headers = true := by
  obtain ⟨earlier, raw, hraw, hempty, rfl, -⟩ := transferCodings_concat hcodings
  rw [fromUtf8_field hascii, Option.some.injEq] at hraw
  obtain ⟨items, item, hitems⟩ : ∃ items item, raw.splitOn ',' = items ++ [item] := by
    obtain ⟨items, item, h⟩ := List.eq_nil_or_concat (raw.splitOn ',') |>.resolve_left (List.splitOn_ne_nil ',' raw)
    exact ⟨items, item, by simpa using h⟩
  have hlast : trim item ≠ [] := by
    intro h
    exact hempty (List.mem_map.mpr ⟨item, by simp [hitems], h⟩)
  have hcoding : eqIgnoreAsciiCase (trim item) "chunked".toList = true := by
    obtain ⟨⟨final, hfinal, hchunked⟩, -⟩ := checkCodings_ok hcheck
    simp only [valueCodings, hitems, List.map_append, List.map_singleton, ← List.append_assoc,
      List.getLast?_concat, Option.some.injEq] at hfinal
    rw [hfinal]
    exact hchunked
  have hstr : toStr last.value = some raw := by rw [toStr_field hfield, if_pos hascii, hraw]
  simp only [isChunked, hvalues, List.map_append, List.map_singleton, List.filterMap_append, List.filterMap_cons, hstr,
    List.filterMap_nil, List.flatMap_append, List.flatMap_cons, List.flatMap_nil, List.append_nil, hitems,
    ← List.append_assoc, List.reverse_append, List.reverse_singleton, List.cons_append]
  rw [List.find?_cons_of_pos (by simpa using hlast)]
  exact hcoding

/-- Without the last value no coding that the relay sees is `chunked`. -/
theorem isChunked_of_not_ascii
    (hvalues : headers.getAll (ascii "transfer-encoding") = (front ++ [last]).map RawHeader.value)
    (hfields : ∀ header ∈ front ++ [last], IsFieldValue header.value)
    (hcodings : transferCodings (front ++ [last]) = .ok codings) (hcheck : checkCodings codings = .ok ())
    (hascii : isAsciiValue last.value = false) : isChunked headers = false := by
  obtain ⟨earlier, raw, -, -, rfl, hfront⟩ := transferCodings_concat hcodings
  have hdropped : toStr last.value = none := by
    rw [toStr_field (hfields last (by simp)), if_neg (by simp [hascii])]
  by_contra hchunked
  rw [Bool.not_eq_false] at hchunked
  unfold isChunked at hchunked
  split at hchunked
  · next item hitem =>
    have hmem := List.mem_reverse.mp (List.mem_of_find?_eq_some hitem)
    rw [hvalues] at hmem
    simp only [List.map_append, List.map_singleton, List.filterMap_append, List.filterMap_cons, hdropped,
      List.filterMap_nil, List.append_nil, List.mem_flatMap, List.mem_filterMap, List.mem_map] at hmem
    obtain ⟨text, ⟨value, ⟨header, hheader, rfl⟩, htext⟩, hitem⟩ := hmem
    have hfield := hfields header (List.mem_append_left _ hheader)
    rw [toStr_field hfield] at htext
    split at htext
    · next hvisible =>
      have hraw : fromUtf8 header.value = some text := (fromUtf8_field hvisible).trans htext
      have hin := hfront header hheader text hraw (trim item) (List.mem_map.mpr ⟨item, hitem, rfl⟩)
      have hne : valueCodings raw ≠ [] := by simp [valueCodings]
      have hnot := (checkCodings_ok hcheck).2 (trim item)
        (by rw [List.dropLast_append_of_ne_nil hne]; exact List.mem_append_left _ hin)
      rw [hchunked] at hnot
      cases hnot
    · cases htext
  · cases hchunked

end Codings
section Framing

/-- The framing fields are read the same way by both: where they decide the framing they are ASCII. -/
structure AsciiFraming (headers : List RawHeader) : Prop where
  lengths : ∀ value ∈ fieldValues headers (ascii "content-length"), isAsciiValue value = true
  coding : ∀ value, (fieldValues headers (ascii "transfer-encoding")).getLast? = some value → isAsciiValue value = true

theorem hasHeader_iff {headers : List RawHeader} {name : Bytes} :
    hasHeader headers name = true ↔ headers.filter (isNamed · name) ≠ [] := by
  unfold hasHeader
  rw [ne_eq, List.filter_eq_nil_iff, List.any_eq_true]
  push Not
  rfl

/-- What the validation of the framing fields establishes. -/
theorem validateHttpFraming_ok {headers : List RawHeader} (h : validateHttpFraming headers = .ok ()) :
    ∃ length, parseContentLength headers = .ok length ∧
      ((hasHeader headers (ascii "transfer-encoding") = true ∧ length = none ∧
        ∃ codings, transferCodings (headers.filter (isNamed · (ascii "transfer-encoding"))) = .ok codings ∧
          checkCodings codings = .ok ()) ∨ hasHeader headers (ascii "transfer-encoding") = false) := by
  obtain ⟨length, hlength, h⟩ := bind_eq_ok.mp h
  refine ⟨length, hlength, ?_⟩
  simp only at h
  split at h
  · cases h
  · next hboth =>
    split at h
    · next hte =>
      left
      rw [hte, Bool.and_true, Bool.not_eq_true, Option.isSome_eq_false_iff, Option.isNone_iff_eq_none] at hboth
      exact ⟨hte, hboth, bind_eq_ok.mp h⟩
    · next hte => exact .inr (by simpa using hte)

variable {headers : List RawHeader} {request : Request}

/-- Where a transfer coding was validated. -/
theorem agrees_with_codings {codings : List Str} (hfields : ∀ header ∈ headers, IsField header)
    (hte : request.headers.getAll (ascii "transfer-encoding") = fieldValues headers (ascii "transfer-encoding"))
    (hhas : hasHeader headers (ascii "transfer-encoding") = true) (hlength : parseContentLength headers = .ok none)
    (hcodings : transferCodings (headers.filter (isNamed · (ascii "transfer-encoding"))) = .ok codings)
    (hcheck : checkCodings codings = .ok ()) :
    requestBodyFraming request = .ok (validatedFraming headers) ↔ AsciiFraming headers := by
  have hnil : fieldValues headers (ascii "content-length") = [] := by
    rw [fieldValues, (contentLengthLoop_none hlength).2, List.map_nil]
  have hchunkedFraming : validatedFraming headers = .chunked := by rw [validatedFraming, if_pos hhas]
  obtain ⟨front, last, hfront⟩ : ∃ front last, headers.filter (isNamed · (ascii "transfer-encoding")) = front ++ [last] := by
    obtain ⟨front, last, h⟩ := (List.eq_nil_or_concat _).resolve_left (hasHeader_iff.mp hhas)
    exact ⟨front, last, by simpa using h⟩
  have hvalues : request.headers.getAll (ascii "transfer-encoding") = (front ++ [last]).map RawHeader.value := by
    rw [hte, fieldValues, hfront]
  have hfieldValues : ∀ header ∈ front ++ [last], IsFieldValue header.value := by
    intro header hmem
    rw [← hfront] at hmem
    exact (hfields header (List.mem_of_mem_filter hmem)).2
  have hlast : (fieldValues headers (ascii "transfer-encoding")).getLast? = some last.value := by
    rw [fieldValues, hfront, List.map_append, List.map_singleton, List.getLast?_concat]
  rw [hfront] at hcodings
  rw [hchunkedFraming]
  constructor
  · intro h
    refine ⟨by simp [hnil], ?_⟩
    intro value hvalue
    obtain rfl := Option.some.inj (hlast.symm.trans hvalue)
    by_contra hascii
    have hnot := isChunked_of_not_ascii hvalues hfieldValues hcodings hcheck (by simpa using hascii)
    rcases requestBodyFraming_ok h with ⟨hchunked, -⟩ | ⟨-, -, hempty⟩ | ⟨length, -, -, hlength⟩
    · rw [hnot] at hchunked
      cases hchunked
    · cases hempty
    · cases hlength
  · intro h
    have hchunked := isChunked_of_ascii hvalues (hfieldValues last (by simp)) hcodings hcheck (h.coding _ hlast)
    simp only [requestBodyFraming, hchunked, if_true]

/-- Where no transfer coding is declared. -/
theorem agrees_with_lengths {length : Option Nat} (hfields : ∀ header ∈ headers, IsField header)
    (hte : request.headers.getAll (ascii "transfer-encoding") = fieldValues headers (ascii "transfer-encoding"))
    (hcl : request.headers.getAll (ascii "content-length") = fieldValues headers (ascii "content-length"))
    (hhas : hasHeader headers (ascii "transfer-encoding") = false) (hlength : parseContentLength headers = .ok length) :
    requestBodyFraming request = .ok (validatedFraming headers) ↔ AsciiFraming headers := by
  have hnone : headers.filter (isNamed · (ascii "transfer-encoding")) = [] := by
    by_contra hne
    rw [hasHeader_iff.mpr hne] at hhas
    cases hhas
  have htenil : fieldValues headers (ascii "transfer-encoding") = [] := by rw [fieldValues, hnone, List.map_nil]
  have hchunked : isChunked request.headers = false := isChunked_nil (hte.trans htenil)
  have hcoding : AsciiFraming headers ↔
      ∀ value ∈ fieldValues headers (ascii "content-length"), isAsciiValue value = true := by
    refine ⟨AsciiFraming.lengths, fun h => ⟨h, ?_⟩⟩
    simp [htenil]
  rw [hcoding, ← hcl]
  cases length with
  | none =>
    have hclnil : request.headers.getAll (ascii "content-length") = [] := by
      rw [hcl, fieldValues, (contentLengthLoop_none hlength).2, List.map_nil]
    have hempty : validatedFraming headers = .empty := by
      rw [validatedFraming, if_neg (by simp [hhas])]
      simp only [hlength]
    refine iff_of_true ?_ (by simp [hclnil])
    simp only [requestBodyFraming, hchunked, Bool.false_eq_true, if_false, contentLength, hclnil, hempty]
    rfl
  | some length =>
    have hall := (contentLengthLoop_some hlength).2
    have hvalue : ∀ value ∈ request.headers.getAll (ascii "content-length"),
        parseContentLengthValue value = .ok length ↔ isAsciiValue value = true := by
      intro value hmem
      rw [hcl] at hmem
      obtain ⟨header, hheader, rfl⟩ := List.mem_map.mp hmem
      obtain ⟨raw, hraw, hparsed⟩ := hall header hheader
      exact parseContentLengthValue_field (hfields header (List.mem_of_mem_filter hheader)).2 hraw hparsed
    have hne : contentLengths request.headers ≠ [] := by
      intro hnil
      have hfilter : headers.filter (isNamed · (ascii "content-length")) = [] := by
        rw [contentLengths, hcl, fieldValues] at hnil
        exact List.map_eq_nil_iff.mp hnil
      rw [parseContentLength, hfilter] at hlength
      cases hlength
    have hdeclared : validatedFraming headers = .contentLength length := by
      rw [validatedFraming, if_neg (by simp [hhas])]
      simp only [hlength]
    rw [hdeclared]
    constructor
    · intro h value hmem
      rcases requestBodyFraming_ok h with ⟨hyes, -⟩ | ⟨-, -, hempty⟩ | ⟨other, -, hother, hsame⟩
      · rw [hchunked] at hyes
        cases hyes
      · cases hempty
      · cases hsame
        exact (hvalue value hmem).mp ((contentLength_some hother).2 value hmem)
    · intro h
      have hok := contentLength_of_all hne (fun value hmem => (hvalue value hmem).mpr (h value hmem))
      simp only [requestBodyFraming, hchunked, Bool.false_eq_true, if_false, hok]
      rfl

/-- The relay selects the validated framing exactly where the deciding values are ASCII. -/
theorem agrees_iff_ascii (hfields : ∀ header ∈ headers, IsField header)
    (hte : request.headers.getAll (ascii "transfer-encoding") = fieldValues headers (ascii "transfer-encoding"))
    (hcl : request.headers.getAll (ascii "content-length") = fieldValues headers (ascii "content-length"))
    (hframing : validateHttpFraming headers = .ok ()) :
    requestBodyFraming request = .ok (validatedFraming headers) ↔ AsciiFraming headers := by
  obtain ⟨length, hlength, ⟨hhas, rfl, codings, hcodings, hcheck⟩ | hhas⟩ := validateHttpFraming_ok hframing
  · exact agrees_with_codings hfields hte hhas hlength hcodings hcheck
  · exact agrees_with_lengths hfields hte hcl hhas hlength

end Framing
end Abyss.Mitm.Explicit
