import Abyss.AgentHook.Harness.Detectors
import Abyss.Stream.Marker
import Abyss.Text.Trim
import Abyss.Text.Utf8

/-! Claude Web multipart uploads: the part of the body that is handed to image validation. -/
namespace Abyss.AgentHook.Anthropic.MultipartImage
open Text
open Abyss.Stream (findMarker)
open Harness (splitOnce)
open Mitm (Bytes)

section Model

def maxMultipartParts : Nat := 16

def maxMultipartHeaderBytes : Nat := 16 * 1024

def maxBoundaryBytes : Nat := 70

/-- `mime::Mime`, as far as the parser reads it: its essence and its `boundary` parameter. -/
structure Mime where
  essence : Str
  boundary : Option Str

/-! The literals of the source. -/

def contentDispositionName : Str :=
  ['c', 'o', 'n', 't', 'e', 'n', 't', '-', 'd', 'i', 's', 'p', 'o', 's', 'i', 't', 'i', 'o', 'n']

def contentTypeName : Str := ['c', 'o', 'n', 't', 'e', 'n', 't', '-', 't', 'y', 'p', 'e']

def multipartFormData : Str :=
  ['m', 'u', 'l', 't', 'i', 'p', 'a', 'r', 't', '/', 'f', 'o', 'r', 'm', '-', 'd', 'a', 't', 'a']

def formData : Str := ['f', 'o', 'r', 'm', '-', 'd', 'a', 't', 'a']

def nameParameter : Str := ['n', 'a', 'm', 'e']

def fileName : Str := ['f', 'i', 'l', 'e']

def crlf : Bytes := [13, 10]

def dashes : Bytes := [45, 45]

def findBytes (haystack needle : Bytes) : Option Nat := if needle.isEmpty then some 0 else findMarker needle haystack

/-- `str::split` at `"\r\n"`. -/
def splitCrlf : Str → List Str
  | [] => [[]]
  | '\r' :: '\n' :: rest => [] :: splitCrlf rest
  | c :: rest => (splitCrlf rest).modifyHead (c :: ·)

/-- `str::trim_matches` with a character. -/
def trimMatches (c : Char) (s : Str) : Str := (s.dropWhile (· == c)).rdropWhile (· == c)

def partHeader (headers : Bytes) (expectedName : Str) : Option Str :=
  (fromUtf8 headers).bind (fun headers => (splitCrlf headers).findSome? (fun line =>
    (splitOnce ':' line).bind (fun field =>
      if eqIgnoreAsciiCase (trim field.1) expectedName then some (trim field.2) else none)))

/-- Whether a parameter of the disposition, as it was split off, names the file part. -/
def namesFile (parameter : Str) : Bool :=
  match splitOnce '=' parameter with
  | none => false
  | some (name, value) =>
    eqIgnoreAsciiCase (trim name) nameParameter && eqIgnoreAsciiCase (trimMatches '"' (trim value)) fileName

def takesFile (disposition : Str) : Bool := (disposition.splitOn ';').tail.any namesFile

def isFilePart (headers : Bytes) : Bool := (partHeader headers contentDispositionName).any takesFile

/-- The loop over the parts; `rest` is the body behind the cursor, at a delimiter. -/
def parseParts {α : Type} (fromBytes : Str → Bytes → Option α) (delimiter : Bytes) : Nat → Bytes → Option α
  | 0, _ => none
  | parts + 1, rest =>
    let rest := rest.drop delimiter.length
    if dashes <+: rest then none
    else
      (stripFront crlf rest).bind (fun rest =>
        (findBytes rest (crlf ++ crlf)).bind (fun headerLength =>
          if maxMultipartHeaderBytes < headerLength then none
          else
            let headers := rest.take headerLength
            let rest := rest.drop (headerLength + 4)
            (findBytes rest (crlf ++ delimiter)).bind (fun contentLength =>
              if isFilePart headers then
                (partHeader headers contentTypeName).bind (fun mediaType =>
                  fromBytes mediaType (rest.take contentLength))
              else parseParts fromBytes delimiter parts (rest.drop (contentLength + 2)))))

/-- `fromBytes` stands for `ParsedImageAttachment::from_bytes`, the image validation. -/
def parse {α : Type} (parseMime : Str → Option Mime) (fromBytes : Str → Bytes → Option α) (contentType : Str)
    (body : Bytes) : Option α :=
  (parseMime contentType).bind (fun mediaType =>
    if mediaType.essence ≠ multipartFormData then none
    else
      mediaType.boundary.bind (fun boundary =>
        let boundary := toUtf8 boundary
        if boundary.isEmpty || maxBoundaryBytes < boundary.length then none
        else if dashes ++ boundary <+: body then parseParts fromBytes (dashes ++ boundary) maxMultipartParts body
        else none))

end Model

section Encoding

/-- A header field of a part. -/
structure Header where
  name : Str
  value : Str

def Header.line (header : Header) : Str := header.name ++ ':' :: ' ' :: header.value

/-- A text inside quotes: quotes and line ends are written as percent escapes. -/
def escape (text : Str) : Str :=
  text.flatMap (fun c =>
    if c = '"' then ['%', '2', '2'] else if c = '\r' then ['%', '0', 'D'] else if c = '\n' then ['%', '0', 'A'] else [c])

/-- A part of a form: the parameters of its disposition, the header fields around it, and its content. -/
structure Part where
  before : List Header
  dispositionName : Str
  parameters : List (Str × Str)
  after : List Header
  content : Bytes

namespace Part

def parameterText (parameter : Str × Str) : Str :=
  ';' :: ' ' :: parameter.1 ++ '=' :: '"' :: escape parameter.2 ++ ['"']

def disposition (part : Part) : Str := formData ++ part.parameters.flatMap parameterText

def headers (part : Part) : List Header := part.before ++ ⟨part.dispositionName, part.disposition⟩ :: part.after

def headerText (part : Part) : Str := ['\r', '\n'].intercalate (part.headers.map Header.line)

def isContentType (header : Header) : Bool := eqIgnoreAsciiCase header.name contentTypeName

def contentType (part : Part) : Option Str := (part.headers.find? isContentType).map Header.value

/-- The value of the `name` parameter. -/
def name (part : Part) : Option Str :=
  (part.parameters.find? (fun parameter => eqIgnoreAsciiCase parameter.1 nameParameter)).map Prod.snd

def isFile (part : Part) : Bool := part.name == some fileName

/-- Whether the disposition, split at its semicolons, reads as that of the file part. -/
def taken (part : Part) : Bool := takesFile part.disposition

/-- What a part gives to image validation. -/
def handed (part : Part) : Option (Str × Bytes) := part.contentType.map (fun contentType => (contentType, part.content))

def encode (delimiter : Bytes) (part : Part) : Bytes :=
  delimiter ++ crlf ++ toUtf8 part.headerText ++ crlf ++ crlf ++ part.content ++ crlf

/-- A header field in front of which no other line is read. -/
structure ValidField (header : Header) : Prop where
  colon : ':' ∉ header.name
  spaces : trim header.name = header.name
  other : eqIgnoreAsciiCase header.name contentDispositionName = false
  single : '\r' ∉ header.line
  mediaType : isContentType header = true → trim header.value = header.value

/-- A part as a form has it, of a body with the given delimiter. -/
structure Valid (delimiter : Bytes) (part : Part) : Prop where
  before : ∀ header ∈ part.before, ValidField header
  dispositionName : eqIgnoreAsciiCase part.dispositionName contentDispositionName = true
  parameters : ∀ parameter ∈ part.parameters, '\r' ∉ parameter.1
  after : ∀ header ∈ part.after, ValidField header
  limit : (toUtf8 part.headerText).length ≤ maxMultipartHeaderBytes
  content : ¬ crlf ++ delimiter <:+: part.content

end Part

/-- The body of a form, with whatever stands behind its closing delimiter. -/
def encode (delimiter : Bytes) (parts : List Part) (epilogue : Bytes) : Bytes :=
  parts.flatMap (Part.encode delimiter) ++ delimiter ++ dashes ++ epilogue

/-- Every body of the form hands on the first part whose name is `file`, and nothing if there is none. -/
def Recovers (boundary : Str) (parts : List Part) : Prop :=
  ∀ (α : Type) (parseMime : Str → Option Mime) (fromBytes : Str → Bytes → Option α) (contentType : Str) (epilogue : Bytes),
    parseMime contentType = some ⟨multipartFormData, some boundary⟩ →
      parse parseMime fromBytes contentType (encode (dashes ++ toUtf8 boundary) parts epilogue) =
        ((parts.find? Part.isFile).bind Part.handed).bind (fun image => fromBytes image.1 image.2)

end Encoding

/-! The header block of a part: where it ends, and the fields that are read from it. -/
section Headers

theorem crlf_mem_escape (text : Str) : '\r' ∉ escape text := by
  rw [escape, List.mem_flatMap]
  rintro ⟨c, -, hmem⟩
  split at hmem
  · exact absurd hmem (by decide)
  split at hmem
  · exact absurd hmem (by decide)
  split at hmem
  · exact absurd hmem (by decide)
  · next hcr _ => exact hcr (List.mem_singleton.mp hmem).symm

theorem splitCrlf_cons {c : Char} (h : c ≠ '\r') (rest : Str) :
    splitCrlf (c :: rest) = (splitCrlf rest).modifyHead (c :: ·) :=
  splitCrlf.eq_3 c rest (fun _ hc _ => h hc)

theorem splitCrlf_line {line : Str} (h : '\r' ∉ line) : splitCrlf line = [line] := by
  induction line with
  | nil => rfl
  | cons c line ih =>
    rw [splitCrlf_cons (fun hc => h (hc ▸ List.mem_cons_self)), ih (fun hmem => h (List.mem_cons_of_mem _ hmem))]
    rfl

theorem splitCrlf_append {line : Str} (h : '\r' ∉ line) (rest : Str) :
    splitCrlf (line ++ '\r' :: '\n' :: rest) = line :: splitCrlf rest := by
  induction line with
  | nil => rfl
  | cons c line ih =>
    rw [List.cons_append, splitCrlf_cons (fun hc => h (hc ▸ List.mem_cons_self)),
      ih (fun hmem => h (List.mem_cons_of_mem _ hmem))]
    rfl

theorem splitCrlf_intercalate {lines : List Str} (hne : lines ≠ []) (h : ∀ line ∈ lines, '\r' ∉ line) :
    splitCrlf (['\r', '\n'].intercalate lines) = lines := by
  induction lines with
  | nil => exact absurd rfl hne
  | cons line lines ih =>
    have hline := h line List.mem_cons_self
    cases lines with
    | nil =>
      rw [List.intercalate_singleton]
      exact splitCrlf_line hline
    | cons next lines =>
      have hsplit := splitCrlf_append hline (['\r', '\n'].intercalate (next :: lines))
      rw [List.intercalate_cons_cons, List.append_assoc]
      refine hsplit.trans ?_
      rw [ih (List.cons_ne_nil _ _) (fun l hl => h l (List.mem_cons_of_mem _ hl))]

theorem splitOnce_append {c : Char} {name : Str} (h : c ∉ name) (value : Str) :
    splitOnce c (name ++ c :: value) = some (name, value) := by
  have hname : ∀ d ∈ name, (d != c) = true := fun d hd => bne_iff_ne.mpr (fun heq => h (heq ▸ hd))
  have hstop : ¬ (c != c) = true := by simp
  rw [splitOnce, if_pos (List.mem_append_right _ List.mem_cons_self), List.takeWhile_append_of_pos hname,
    List.dropWhile_append_of_pos hname, List.takeWhile_cons_of_neg (p := (· != c)) hstop,
    List.dropWhile_cons_of_neg (p := (· != c)) hstop, List.append_nil, List.tail_cons]

/-- The field that is read from a header block. -/
theorem partHeader_headers {headers : List Header} (hne : headers ≠ [])
    (h : ∀ header ∈ headers, ':' ∉ header.name ∧ '\r' ∉ header.line) (expectedName : Str) :
    partHeader (toUtf8 (['\r', '\n'].intercalate (headers.map Header.line))) expectedName =
      (headers.find? (fun header => eqIgnoreAsciiCase (trim header.name) expectedName)).map
        (fun header => trim header.value) := by
  have hlines : ∀ line ∈ headers.map Header.line, '\r' ∉ line := by
    intro line hline
    obtain ⟨header, hmem, rfl⟩ := List.mem_map.mp hline
    exact (h header hmem).2
  rw [partHeader, fromUtf8_toUtf8, Option.bind_some, splitCrlf_intercalate (by simpa using hne) hlines]
  clear hlines hne
  induction headers with
  | nil => rfl
  | cons header headers ih =>
    rw [List.map_cons, List.findSome?_cons, ih (fun f hf => h f (List.mem_cons_of_mem _ hf)), Header.line,
      splitOnce_append (h header List.mem_cons_self).1, Option.bind_some, trim_cons (by decide), List.find?_cons]
    by_cases hname : eqIgnoreAsciiCase (trim header.name) expectedName = true
    · rw [if_pos hname, hname]
      rfl
    · rw [if_neg hname, Bool.eq_false_iff.mpr hname]

theorem toUtf8_append (s t : Str) : toUtf8 (s ++ t) = toUtf8 s ++ toUtf8 t := List.flatMap_append

theorem toUtf8_intercalate (lines : List Str) :
    toUtf8 (['\r', '\n'].intercalate lines) = crlf.intercalate (lines.map toUtf8) := by
  induction lines with
  | nil => rfl
  | cons line lines ih =>
    cases lines with
    | nil => rw [List.intercalate_singleton, List.map_cons, List.map_nil, List.intercalate_singleton]
    | cons next lines =>
      rw [List.intercalate_cons_cons, toUtf8_append, toUtf8_append, ih]
      exact List.intercalate_cons_cons.symm

/-- A header block ends at its first empty line. -/
theorem findBytes_headers {lines : List Bytes} (hne : lines ≠ []) (h : ∀ line ∈ lines, line ≠ [] ∧ 13 ∉ line) (rest : Bytes) :
    findBytes (crlf.intercalate lines ++ (crlf ++ crlf ++ rest)) (crlf ++ crlf) = some (crlf.intercalate lines).length := by
  change findMarker [13, 10, 13, 10] (crlf.intercalate lines ++ (crlf ++ crlf ++ rest)) = _
  induction lines with
  | nil => exact absurd rfl hne
  | cons line lines ih =>
    have hline := h line List.mem_cons_self
    cases lines with
    | nil =>
      rw [List.intercalate_singleton, Abyss.Stream.findMarker_skip hline.2]
      have hfound : findMarker [13, 10, 13, 10] (crlf ++ crlf ++ rest) = some 0 :=
        if_pos (List.prefix_append [13, 10, 13, 10] rest)
      rw [hfound, Option.map_some, Nat.zero_add]
    | cons next lines =>
      have hbehind := ih (List.cons_ne_nil _ _) (fun l hl => h l (List.mem_cons_of_mem _ hl))
      obtain ⟨hnext, hclean⟩ := h next (List.mem_cons_of_mem _ List.mem_cons_self)
      obtain ⟨b, next, rfl⟩ := List.exists_cons_of_ne_nil hnext
      have hb : ¬ (13 = b) := fun heq => hclean (heq ▸ List.mem_cons_self)
      have hskip : findMarker [13, 10, 13, 10] (crlf ++ (crlf.intercalate ((b :: next) :: lines) ++ (crlf ++ crlf ++ rest))) =
          some ((crlf.intercalate ((b :: next) :: lines)).length + 2) := by
        rw [List.intercalate_cons_cons_left] at hbehind ⊢
        change findMarker [13, 10, 13, 10] (13 :: 10 :: b :: (crlf.intercalate (next :: lines) ++ (crlf ++ crlf ++ rest))) = _
        change findMarker [13, 10, 13, 10] (b :: (crlf.intercalate (next :: lines) ++ (crlf ++ crlf ++ rest))) = _ at hbehind
        rw [findMarker, if_neg (by simp [hb]), findMarker, if_neg (by simp), hbehind]
        rfl
      rw [List.intercalate_cons_cons, List.append_assoc, List.append_assoc, Abyss.Stream.findMarker_skip hline.2, hskip,
        Option.map_some, List.length_append, List.length_append]
      have hcrlf : crlf.length = 2 := rfl
      congr 1
      omega

end Headers

/-! What is read from the header block of a part. -/
section Fields

variable {delimiter : Bytes} {part : Part} {header : Header}

theorem not_mem_of_lower {c : Char} {s t : Str} (h : eqIgnoreAsciiCase s t = true) (hc : c.toLower = c)
    (ht : c ∉ toAsciiLowercase t) : c ∉ s := by
  intro hmem
  rw [eqIgnoreAsciiCase, beq_iff_eq] at h
  exact ht (h ▸ List.mem_map.mpr ⟨c, hmem, hc⟩)

/-- Trimming sees no difference in case. -/
theorem eqIgnoreAsciiCase_trim {s t : Str} (h : eqIgnoreAsciiCase s t = true) (ht : trim (toAsciiLowercase t) = toAsciiLowercase t) :
    eqIgnoreAsciiCase (trim s) t = true := by
  rw [eqIgnoreAsciiCase, beq_iff_eq] at h ⊢
  rw [← trim_toAsciiLowercase, h, ht]

theorem eqIgnoreAsciiCase_ne {s t u : Str} (h : eqIgnoreAsciiCase s t = true) (hne : toAsciiLowercase t ≠ toAsciiLowercase u) :
    eqIgnoreAsciiCase s u = false := by
  rw [eqIgnoreAsciiCase, beq_iff_eq] at h
  rw [eqIgnoreAsciiCase, h]
  exact beq_false_of_ne hne

namespace Part

theorem headers_ne_nil (part : Part) : part.headers ≠ [] := List.append_ne_nil_of_right_ne_nil _ (List.cons_ne_nil _ _)

theorem headers_clean (h : part.Valid delimiter) : ∀ header ∈ part.headers, ':' ∉ header.name ∧ '\r' ∉ header.line := by
  intro header hmem
  obtain hbefore | hmem := List.mem_append.mp hmem
  · exact ⟨(h.before header hbefore).colon, (h.before header hbefore).single⟩
  obtain rfl | hafter := List.mem_cons.mp hmem
  · refine ⟨not_mem_of_lower h.dispositionName (by decide) (by decide), ?_⟩
    have hname := not_mem_of_lower h.dispositionName (show '\r'.toLower = '\r' by decide) (by decide)
    have hparameter : ∀ parameter ∈ part.parameters, '\r' ∉ parameterText parameter := by
      intro parameter hparameter
      have hclean := h.parameters parameter hparameter
      simp [parameterText, hclean, crlf_mem_escape]
    simp only [Header.line, disposition, List.mem_append, List.mem_cons, List.mem_flatMap, not_or, not_exists, not_and]
    exact ⟨hname, by decide, by decide, by decide, hparameter⟩
  · exact ⟨(h.after header hafter).colon, (h.after header hafter).single⟩

theorem trim_disposition (part : Part) : trim part.disposition = part.disposition := by
  refine trim_eq_self rfl ?_
  obtain hnil | ⟨front, parameter, hconcat⟩ := part.parameters.eq_nil_or_concat'
  · rw [disposition, hnil]
    rfl
  · rw [disposition, hconcat, List.flatMap_append, List.flatMap_singleton, parameterText, ← List.append_assoc,
      ← List.append_assoc, List.getLast?_concat]
    rfl

theorem partHeader_disposition (h : part.Valid delimiter) :
    partHeader (toUtf8 part.headerText) contentDispositionName = some part.disposition := by
  have hbefore : part.before.find? (fun header => eqIgnoreAsciiCase (trim header.name) contentDispositionName) = none := by
    refine List.find?_eq_none.mpr ?_
    intro header hmem
    rw [(h.before header hmem).spaces, (h.before header hmem).other]
    exact Bool.false_ne_true
  rw [headerText, partHeader_headers part.headers_ne_nil (headers_clean h), headers, List.find?_append, hbefore, Option.none_or,
    List.find?_cons_of_pos (p := fun header : Header => eqIgnoreAsciiCase (trim header.name) contentDispositionName)
      (eqIgnoreAsciiCase_trim h.dispositionName (by decide)), Option.map_some, trim_disposition]

theorem isFilePart_headerText (h : part.Valid delimiter) : isFilePart (toUtf8 part.headerText) = part.taken := by
  rw [isFilePart, partHeader_disposition h]
  rfl

theorem find?_congr {α : Type} {p q : α → Bool} {l : List α} (h : ∀ a ∈ l, p a = q a) : l.find? p = l.find? q := by
  induction l with
  | nil => rfl
  | cons a l ih =>
    rw [List.find?_cons, List.find?_cons, h a List.mem_cons_self, ih (fun b hb => h b (List.mem_cons_of_mem _ hb))]

theorem headers_field (h : part.Valid delimiter) :
    ∀ header ∈ part.headers, ValidField header ∨ eqIgnoreAsciiCase header.name contentDispositionName = true := by
  intro header hmem
  obtain hbefore | hmem := List.mem_append.mp hmem
  · exact .inl (h.before header hbefore)
  obtain rfl | hafter := List.mem_cons.mp hmem
  · exact .inr h.dispositionName
  · exact .inl (h.after header hafter)

theorem partHeader_contentType (h : part.Valid delimiter) :
    partHeader (toUtf8 part.headerText) contentTypeName = part.contentType := by
  have hsame : part.headers.find? (fun header => eqIgnoreAsciiCase (trim header.name) contentTypeName) =
      part.headers.find? isContentType := by
    refine find?_congr ?_
    intro header hmem
    obtain hfield | hdisposition := headers_field h header hmem
    · rw [hfield.spaces, isContentType]
    · rw [isContentType, eqIgnoreAsciiCase_ne hdisposition (by decide),
        eqIgnoreAsciiCase_ne (eqIgnoreAsciiCase_trim hdisposition (by decide)) (by decide)]
  rw [headerText, partHeader_headers part.headers_ne_nil (headers_clean h), hsame, contentType]
  refine Option.map_congr ?_
  intro header hfound
  have htype := List.find?_some hfound
  obtain hfield | hdisposition := headers_field h header (List.mem_of_find?_eq_some hfound)
  · exact hfield.mediaType htype
  · rw [isContentType, eqIgnoreAsciiCase_ne hdisposition (by decide)] at htype
    cases htype

theorem findBytes_headerText (h : part.Valid delimiter) (rest : Bytes) :
    findBytes (toUtf8 part.headerText ++ (crlf ++ crlf ++ rest)) (crlf ++ crlf) = some (toUtf8 part.headerText).length := by
  rw [headerText, toUtf8_intercalate]
  refine findBytes_headers (by simp [headers_ne_nil]) ?_ rest
  intro line hline
  simp only [List.map_map, List.mem_map, Function.comp_apply] at hline
  obtain ⟨header, hmem, rfl⟩ := hline
  constructor
  · rw [Header.line, toUtf8_append]
    exact List.append_ne_nil_of_right_ne_nil _ (List.cons_ne_nil _ _)
  · exact fun hcr => (headers_clean h header hmem).2 (ascii_mem_toUtf8 (by decide) hcr)

/-- Content ends at the delimiter behind it. -/
theorem findBytes_content (h : part.Valid delimiter) (hdelimiter : 13 ∉ delimiter) (rest : Bytes) :
    findBytes (part.content ++ (crlf ++ delimiter ++ rest)) (crlf ++ delimiter) = some part.content.length := by
  have hmarker : crlf ++ delimiter ≠ [] := List.cons_ne_nil _ _
  change findMarker (crlf ++ delimiter) _ = _
  rw [Abyss.Stream.findMarker_iff hmarker]
  constructor
  · rw [List.drop_left]
    exact List.prefix_append _ _
  · intro j hj hprefix
    rw [List.drop_append_of_le_length (by omega)] at hprefix
    have hinside : ¬ crlf ++ delimiter <+: part.content.drop j :=
      fun hinside => h.content (hinside.isInfix.trans (List.drop_suffix _ _).isInfix)
    obtain hbefore | ⟨behind, hbehind⟩ := List.prefix_or_prefix_of_prefix hprefix (List.prefix_append _ _)
    · exact hinside hbefore
    -- the marker would start again inside itself, at a carriage return
    rw [← hbehind] at hprefix
    cases behind with
    | nil => exact hinside (by rw [← hbehind, List.append_nil])
    | cons b behind =>
      have hstart := (List.prefix_append_right_inj _).mp hprefix
      obtain ⟨rfl, -⟩ := List.cons_prefix_cons.mp (show b :: behind <+: 13 :: _ from hbehind ▸ hstart)
      obtain ⟨c, front, hfront⟩ := List.exists_cons_of_ne_nil (show part.content.drop j ≠ [] by
        rw [Ne, List.drop_eq_nil_iff, Nat.not_le]
        exact hj)
      rw [hfront] at hbehind
      obtain ⟨-, htail⟩ := List.cons_eq_cons.mp (show c :: (front ++ 13 :: behind) = 13 :: (10 :: delimiter) from hbehind)
      have hmem : 13 ∈ 10 :: delimiter := htail ▸ List.mem_append_right _ List.mem_cons_self
      obtain heq | hmem := List.mem_cons.mp hmem
      · exact absurd heq (by decide)
      · exact hdelimiter hmem

end Part
end Fields

/-! The loop over the parts of a form. -/
section Loop

variable {α : Type} {fromBytes : Str → Bytes → Option α} {delimiter : Bytes}

/-- One turn of the loop reads one part. -/
theorem parseParts_part {part : Part} (h : part.Valid delimiter) (hdelimiter : 13 ∉ delimiter) (turns : Nat) (rest : Bytes) :
    parseParts fromBytes delimiter (turns + 1) (part.encode delimiter ++ (delimiter ++ rest)) =
      if part.taken then part.contentType.bind (fun mediaType => fromBytes mediaType part.content)
      else parseParts fromBytes delimiter turns (delimiter ++ rest) := by
  have hbody : part.encode delimiter ++ (delimiter ++ rest) = delimiter ++ (crlf ++ (toUtf8 part.headerText ++
      (crlf ++ crlf ++ (part.content ++ (crlf ++ delimiter ++ rest))))) := by
    simp only [Part.encode, List.append_assoc]
  have hopen : ¬ dashes <+: crlf ++ (toUtf8 part.headerText ++ (crlf ++ crlf ++ (part.content ++ (crlf ++ delimiter ++ rest)))) := by
    intro hprefix
    exact absurd (List.cons_prefix_cons.mp hprefix).1 (by decide)
  have hheaders : (toUtf8 part.headerText ++ (crlf ++ crlf ++ (part.content ++ (crlf ++ delimiter ++ rest)))).drop
      ((toUtf8 part.headerText).length + 4) = part.content ++ (crlf ++ delimiter ++ rest) := by
    rw [← List.drop_drop, List.drop_left]
    rfl
  have hcontent : (part.content ++ (crlf ++ delimiter ++ rest)).drop (part.content.length + 2) = delimiter ++ rest := by
    rw [← List.drop_drop, List.drop_left]
    rfl
  rw [hbody, parseParts]
  simp only [List.drop_left]
  rw [if_neg hopen, stripFront_eq_some.mpr rfl, Option.bind_some, Part.findBytes_headerText h, Option.bind_some,
    if_neg (Nat.not_lt.mpr h.limit), hheaders, List.take_left, Part.findBytes_content h hdelimiter, Option.bind_some, hcontent,
    List.take_left, Part.isFilePart_headerText h, Part.partHeader_contentType h]

theorem encode_start (delimiter : Bytes) (parts : List Part) (epilogue : Bytes) :
    ∃ rest, encode delimiter parts epilogue = delimiter ++ rest := by
  cases parts with
  | nil => exact ⟨dashes ++ epilogue, List.append_assoc _ _ _⟩
  | cons next parts =>
    rw [encode, List.flatMap_cons, Part.encode]
    simp only [List.append_assoc]
    exact ⟨_, rfl⟩

/-- A form of at most so many parts hands on its first taken part. -/
theorem parseParts_encode {parts : List Part} (h : ∀ part ∈ parts, part.Valid delimiter) (hdelimiter : 13 ∉ delimiter)
    (epilogue : Bytes) {turns : Nat} (hturns : parts.length ≤ turns) :
    parseParts fromBytes delimiter turns (encode delimiter parts epilogue) =
      ((parts.find? Part.taken).bind Part.handed).bind (fun image => fromBytes image.1 image.2) := by
  induction parts generalizing turns with
  | nil =>
    cases turns with
    | zero => rfl
    | succ turns =>
      have hbody : encode delimiter [] epilogue = delimiter ++ (dashes ++ epilogue) := List.append_assoc _ _ _
      rw [hbody, parseParts]
      simp only [List.drop_left]
      rw [if_pos (List.prefix_append _ _)]
      rfl
  | cons part parts ih =>
    obtain ⟨turns, rfl⟩ := Nat.exists_eq_succ_of_ne_zero (show turns ≠ 0 by rw [List.length_cons] at hturns; omega)
    have hbehind := ih (fun p hp => h p (List.mem_cons_of_mem _ hp)) (Nat.le_of_succ_le_succ hturns)
    have hbody : encode delimiter (part :: parts) epilogue = part.encode delimiter ++ encode delimiter parts epilogue := by
      simp only [encode, List.flatMap_cons, List.append_assoc]
    obtain ⟨rest, hrest⟩ := encode_start delimiter parts epilogue
    rw [hbody, hrest, parseParts_part (h part List.mem_cons_self) hdelimiter, ← hrest, hbehind]
    by_cases htaken : part.taken = true
    · rw [if_pos htaken, List.find?_cons_of_pos htaken, Option.bind_some, Part.handed, Option.bind_map]
      rfl
    · rw [if_neg htaken, List.find?_cons_of_neg htaken]

variable {boundary : Str} {parts : List Part}

/-- What the parser makes of the body of a form. -/
theorem parse_encode (hlength : 1 ≤ (toUtf8 boundary).length ∧ (toUtf8 boundary).length ≤ maxBoundaryBytes)
    (hcr : '\r' ∉ boundary) (hparts : parts.length ≤ maxMultipartParts)
    (hvalid : ∀ part ∈ parts, part.Valid (dashes ++ toUtf8 boundary)) {parseMime : Str → Option Mime} {contentType : Str}
    (hmime : parseMime contentType = some ⟨multipartFormData, some boundary⟩) (epilogue : Bytes) :
    parse parseMime fromBytes contentType (encode (dashes ++ toUtf8 boundary) parts epilogue) =
      ((parts.find? Part.taken).bind Part.handed).bind (fun image => fromBytes image.1 image.2) := by
  have hdelimiter : 13 ∉ dashes ++ toUtf8 boundary := by
    rw [List.mem_append, not_or]
    exact ⟨by decide, fun hmem => hcr (ascii_mem_toUtf8 (by decide) hmem)⟩
  have hbounds : ¬ ((toUtf8 boundary).isEmpty || maxBoundaryBytes < (toUtf8 boundary).length) = true := by
    rw [Bool.or_eq_true, not_or, List.isEmpty_iff, decide_eq_true_eq, Nat.not_lt]
    exact ⟨List.ne_nil_of_length_pos hlength.1, hlength.2⟩
  obtain ⟨rest, hrest⟩ := encode_start (dashes ++ toUtf8 boundary) parts epilogue
  rw [parse, hmime, Option.bind_some, if_neg (by simp), Option.bind_some]
  simp only
  rw [if_neg hbounds, if_pos ⟨rest, hrest.symm⟩, parseParts_encode hvalid hdelimiter epilogue hparts]

end Loop

/-! Which parts are taken for the file part. -/
section Taken

variable {parts : List Part}

theorem namesFile_file {name : Str} (h : eqIgnoreAsciiCase name nameParameter = true) :
    namesFile (' ' :: name ++ '=' :: ('"' :: fileName ++ ['"'])) = true := by
  have hequals : '=' ∉ ' ' :: name := by
    rw [List.mem_cons, not_or]
    exact ⟨by decide, not_mem_of_lower h (by decide) (by decide)⟩
  have hname : eqIgnoreAsciiCase (trim (' ' :: name)) nameParameter = true := by
    rw [trim_cons (by decide)]
    exact eqIgnoreAsciiCase_trim h (by decide)
  rw [namesFile, splitOnce_append hequals]
  exact Bool.and_eq_true_iff.mpr ⟨hname, by decide⟩

/-- The file part is taken for itself. -/
theorem taken_of_isFile {part : Part} (h : part.isFile = true) : part.taken = true := by
  rw [Part.isFile, beq_iff_eq, Part.name] at h
  obtain ⟨parameter, hfound, hvalue⟩ := Option.map_eq_some_iff.mp h
  obtain ⟨name, value⟩ := parameter
  obtain rfl : value = fileName := hvalue
  have hname : eqIgnoreAsciiCase name nameParameter = true := by
    have hfirst := List.find?_some hfound
    exact hfirst
  obtain ⟨front, back, hparameters⟩ := List.append_of_mem (List.mem_of_find?_eq_some hfound)
  have hclean : ';' ∉ ' ' :: name ++ '=' :: ('"' :: fileName ++ ['"']) := by
    have hsemicolon := not_mem_of_lower hname (show ';'.toLower = ';' by decide) (by decide)
    simp only [List.cons_append, List.mem_cons, List.mem_append, not_or]
    exact ⟨by decide, hsemicolon, by decide, by decide, by decide, by decide⟩
  have hdisposition : part.disposition = formData ++ front.flatMap Part.parameterText ++
      ';' :: (' ' :: name ++ '=' :: ('"' :: fileName ++ ['"']) ++ back.flatMap Part.parameterText) := by
    have hescape : escape fileName = fileName := rfl
    rw [Part.disposition, hparameters, List.flatMap_append, List.flatMap_cons, Part.parameterText, hescape]
    simp only [List.append_assoc, List.cons_append]
  have hmem : ' ' :: name ++ '=' :: ('"' :: fileName ++ ['"']) ∈
      (' ' :: name ++ '=' :: ('"' :: fileName ++ ['"']) ++ back.flatMap Part.parameterText).splitOn ';' := by
    cases back with
    | nil =>
      rw [List.flatMap_nil, List.append_nil, List.splitOn_eq_singleton hclean]
      exact List.mem_cons_self
    | cons next back =>
      rw [List.flatMap_cons, Part.parameterText]
      simp only [List.cons_append]
      rw [← List.cons_append, List.splitOn_append_cons_self_of_not_mem (by simpa using hclean)]
      exact List.mem_cons_self
  refine List.any_eq_true.mpr ⟨_, ?_, namesFile_file hname⟩
  rw [hdisposition, List.splitOn_append_cons_self, List.tail_append_of_ne_nil (List.splitOn_ne_nil _ _)]
  exact List.mem_append_right _ hmem

theorem find?_taken (parts : List Part) :
    parts.find? Part.taken =
      ((parts.takeWhile (fun part => !part.isFile)).find? Part.taken).or (parts.find? Part.isFile) := by
  induction parts with
  | nil => rfl
  | cons part parts ih =>
    by_cases hfile : part.isFile = true
    · rw [List.find?_cons_of_pos (taken_of_isFile hfile), List.takeWhile_cons_of_neg (by simp [hfile]),
        List.find?_cons_of_pos hfile]
      rfl
    · rw [List.takeWhile_cons_of_pos (by simp [hfile]), List.find?_cons_of_neg hfile]
      by_cases htaken : part.taken = true
      · rw [List.find?_cons_of_pos htaken, List.find?_cons_of_pos htaken]
        rfl
      · rw [List.find?_cons_of_neg htaken, List.find?_cons_of_neg htaken, ih]

end Taken

section Recovery

variable {boundary : Str} {parts : List Part}

/-- A form gives its file part unless a part ahead of it is taken for it and hands on something else. -/
theorem recovers_iff (hlength : 1 ≤ (toUtf8 boundary).length ∧ (toUtf8 boundary).length ≤ maxBoundaryBytes)
    (hcr : '\r' ∉ boundary) (hparts : parts.length ≤ maxMultipartParts)
    (hvalid : ∀ part ∈ parts, part.Valid (dashes ++ toUtf8 boundary)) :
    Recovers boundary parts ↔ ∀ part, (parts.takeWhile (fun part => !part.isFile)).find? Part.taken = some part →
      part.handed = (parts.find? Part.isFile).bind Part.handed := by
  constructor
  · intro h part hahead
    have hparse := h (Str × Bytes) (fun _ => some ⟨multipartFormData, some boundary⟩)
      (fun contentType content => some (contentType, content)) [] [] rfl
    rw [parse_encode hlength hcr hparts hvalid rfl, find?_taken, hahead] at hparse
    have hid : ∀ image : Option (Str × Bytes), image.bind (fun image => some (image.1, image.2)) = image := by
      intro image
      cases image <;> rfl
    rw [hid, hid] at hparse
    exact hparse
  · intro h α parseMime fromBytes contentType epilogue hmime
    rw [parse_encode hlength hcr hparts hvalid hmime, find?_taken]
    cases hahead : (parts.takeWhile (fun part => !part.isFile)).find? Part.taken with
    | none => rfl
    | some part =>
      change (part.handed).bind _ = _
      rw [h part hahead]

def filenameParameter : Str := ['f', 'i', 'l', 'e', 'n', 'a', 'm', 'e']

/-- `Content-Type: image/png`. -/
def imageType : Header := ⟨contentTypeName, ['i', 'm', 'a', 'g', 'e', '/', 'p', 'n', 'g']⟩

def formPart (name filename : Str) : Part :=
  ⟨[], contentDispositionName, [(nameParameter, name), (filenameParameter, filename)], [imageType], [137]⟩

/-- The file part of a form. -/
def filePart : Part := formPart fileName ['a', '.', 'p', 'n', 'g']

/-- A part of another name, whose file is called `x; name=file`. -/
def otherPart : Part := formPart ['o', 't', 'h', 'e', 'r'] ['x', ';', ' ', 'n', 'a', 'm', 'e', '=', 'f', 'i', 'l', 'e']

private theorem formPart_valid {name filename : Str} {delimiter : Bytes} (hdelimiter : delimiter ≠ [])
    (hlimit : (toUtf8 (formPart name filename).headerText).length ≤ maxMultipartHeaderBytes) :
    (formPart name filename).Valid delimiter where
  before := fun header hmem => absurd hmem List.not_mem_nil
  dispositionName := show eqIgnoreAsciiCase contentDispositionName contentDispositionName = true by decide
  parameters := by
    intro parameter hmem
    obtain rfl | rfl : parameter = (nameParameter, name) ∨ parameter = (filenameParameter, filename) := by
      simpa [formPart] using hmem
    · exact show '\r' ∉ nameParameter by decide
    · exact show '\r' ∉ filenameParameter by decide
  after := by
    intro header hmem
    obtain rfl := List.mem_singleton.mp hmem
    exact ⟨by decide, by decide, by decide, by decide, fun _ => by decide⟩
  limit := hlimit
  content := by
    rintro ⟨front, back, heq⟩
    have hlength := congrArg List.length heq
    have hpos := List.length_pos_of_ne_nil hdelimiter
    simp only [List.length_append, formPart, crlf, List.length_cons] at hlength
    omega

theorem filePart_recovers : Recovers ['b'] [filePart] := by
  refine (recovers_iff (by decide) (by decide) (by decide) ?_).mpr ?_
  · intro part hmem
    obtain rfl := List.mem_singleton.mp hmem
    exact formPart_valid (by decide) (by decide)
  · intro part hahead
    rw [List.takeWhile_cons_of_neg (by decide)] at hahead
    cases hahead

theorem otherPart_not_recovered :
    ¬ ∀ (boundary : Str) (parts : List Part),
      1 ≤ (toUtf8 boundary).length ∧ (toUtf8 boundary).length ≤ maxBoundaryBytes → '\r' ∉ boundary →
      parts.length ≤ maxMultipartParts → (∀ part ∈ parts, part.Valid (dashes ++ toUtf8 boundary)) → Recovers boundary parts := by
  intro h
  have hvalid : ∀ part ∈ [otherPart], part.Valid (dashes ++ toUtf8 ['b']) := by
    intro part hmem
    obtain rfl := List.mem_singleton.mp hmem
    exact formPart_valid (by decide) (by decide)
  have hparse := h ['b'] [otherPart] (by decide) (by decide) (by decide) hvalid Bytes
    (fun _ => some ⟨multipartFormData, some ['b']⟩) (fun _ content => some content) [] [] rfl
  rw [parse_encode (by decide) (by decide) (by decide) hvalid rfl] at hparse
  exact absurd hparse (by decide)

end Recovery
end Abyss.AgentHook.Anthropic.MultipartImage
