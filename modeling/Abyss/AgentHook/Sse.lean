import Abyss.Mitm.Hook.ContentDecoding
import Abyss.Text.JsonLines
import Abyss.Text.JsonPrefix

/-! Decoding a captured event stream into its JSON documents. -/
namespace Abyss.AgentHook
open Text
open Mitm (Bytes)
open Mitm.Hook (isAsciiWhitespace trimAsciiWhitespace)

/-- JSON payloads decoded from a Server-Sent Events byte stream. -/
structure SseDocuments where
  values : List Json
  incomplete : Bool

namespace SseDocuments

/-- `data:`. -/
def dataField : Bytes := [100, 97, 116, 97, 58]

/-- `[DONE]`. -/
def sentinel : Bytes := [91, 68, 79, 78, 69, 93]

def payload (data : List Bytes) : Bytes := [newline].intercalate data

def finishEvent (result : SseDocuments) (data : List Bytes) : SseDocuments :=
  if data.isEmpty then result
  else if trimAsciiWhitespace (payload data) = sentinel then result
  else
    match Json.fromSlice (payload data) with
    | some value => { result with values := result.values ++ [value] }
    | none => { result with incomplete := true }

/-- One turn of the loop over the lines, with the result and the data lines collected so far. -/
def readLine (state : SseDocuments × List Bytes) (line : Bytes) : SseDocuments × List Bytes :=
  let line := (stripBack [13] line).getD line
  if line.isEmpty then (state.1.finishEvent state.2, [])
  else
    match stripFront dataField line with
    | some value => (state.1, state.2 ++ [(stripFront [32] value).getD value])
    | none => state

/-- Decodes every event of one captured stream. -/
def decode (bytes : Bytes) : SseDocuments :=
  ((bytes.splitOn newline ++ [[]]).foldl readLine (⟨[], false⟩, [])).1

end SseDocuments

/-- A line of an event: `data:` with a part of the event's data behind it, or any line that carries no data
(a comment, or another field). -/
inductive SseField where
  | ignored (content : Bytes)
  | data (space : Bool) (part : Bytes)

namespace SseField

def content : SseField → Bytes
  | .ignored content => content
  | .data true part => SseDocuments.dataField ++ 32 :: part
  | .data false part => SseDocuments.dataField ++ part

def part : SseField → Option Bytes
  | .ignored _ => none
  | .data _ part => some part

/-- What a line may hold: no end of a line, and nothing that makes it another kind of line. -/
structure Valid (field : SseField) : Prop where
  single : newline ∉ field.content ∧ 13 ∉ field.content
  ignored : ∀ content, field = .ignored content → content ≠ [] ∧ ¬ SseDocuments.dataField <+: content
  unspaced : ∀ part, field = .data false part → part.head? ≠ some 32

end SseField

/-- An event: its lines, each with whether it ends in CRLF, and the blank lines behind it. -/
structure SseEvent where
  fields : List (SseField × Bool)
  blanks : List Bool

namespace SseEvent

/-- A line as the stream holds it, without its LF. -/
def rawLine (line : Bytes × Bool) : Bytes := line.1 ++ (if line.2 then [13] else [])

def lines (event : SseEvent) : List Bytes :=
  event.fields.map (fun field => rawLine (field.1.content, field.2)) ++ event.blanks.map (fun crlf => rawLine ([], crlf))

def parts (event : SseEvent) : List Bytes := event.fields.filterMap (fun field => field.1.part)

structure Valid (event : SseEvent) : Prop where
  fields : ∀ field ∈ event.fields, field.1.Valid
  closed : event.blanks ≠ []

end SseEvent

/-- The stream of some events. -/
def sseStream (events : List SseEvent) : Bytes := (events.flatMap SseEvent.lines).flatMap endLine

/-- What an event carries: the document its data is a text of, or nothing when it has no data or only the sentinel. -/
inductive SseEvent.Carries (event : SseEvent) : Option Json → Prop where
  | document {members : List (Str × Json)} (hdata : event.parts ≠ [])
      (htext : Json.fromSlice (SseDocuments.payload event.parts) = some (.obj members)) : Carries event (some (.obj members))
  | noData (hdata : event.parts = []) : Carries event none
  | sentinel (htext : trimAsciiWhitespace (SseDocuments.payload event.parts) = SseDocuments.sentinel) : Carries event none

/-- The events are an encoding of the documents. -/
inductive SseEncodes : List SseEvent → List Json → Prop where
  | nil : SseEncodes [] []
  | cons {event : SseEvent} {events : List SseEvent} {carried : Option Json} {documents : List Json} (hvalid : event.Valid)
      (hcarries : event.Carries carried) (hrest : SseEncodes events documents) :
      SseEncodes (event :: events) (carried.toList ++ documents)

namespace SseDocuments

/-! The text of the sentinel is no document, and no front part of it is one. -/
section Sentinel
open Json

/-- No value starts here. -/
def Valueless (s : Str) : Prop := ∀ c ∈ (skipSpace s).head?, c = '\x0C' ∨ c = 'D'

variable {nested : Option (Str → Option (Json × Str))} {s rest : Str} {levels : Nat}

theorem parseWith_valueless (h : Valueless s) : parseWith nested s = none := by
  unfold parseWith
  cases hskip : skipSpace s with
  | nil => rfl
  | cons c rest =>
    obtain rfl | rfl := h c (by rw [hskip]; rfl)
    · rfl
    · rfl

theorem parseValue_valueless (h : Valueless s) : parseValue levels s = none := by
  cases levels with
  | zero => exact parseWith_valueless h
  | succ levels => exact parseWith_valueless h

theorem parseArray_valueless (h : Valueless s) : parseArray (parseValue levels) s = none := by
  have hclose : expect ']' s = none := by
    cases hexpect : expect ']' s with
    | none => rfl
    | some rest =>
      obtain hc | hc := h ']' (by rw [expect_some hexpect]; rfl)
      · exact absurd hc (by decide)
      · exact absurd hc (by decide)
  rw [parseArray, hclose]
  change parseItems (parseValue levels) s.length s = none
  cases s.length with
  | zero => rfl
  | succ fuel =>
    rw [parseItems, parseValue_valueless h]
    rfl

/-- A bracket without an item behind it starts no value. -/
theorem parseValue_bracket (h : skipSpace s = '[' :: rest) (hrest : Valueless rest) : parseValue levels s = none := by
  cases levels with
  | zero =>
    rw [parseValue, parseWith, h]
    rfl
  | succ levels =>
    rw [parseValue, parseWith, h]
    dsimp only
    rw [if_neg (by decide), if_pos rfl, Option.bind_some, parseArray_valueless hrest]
    rfl

theorem parse_none (h : parseValue maxLevels s = none) : parse s = none := by
  rw [parse, h]
  rfl

theorem parse_space {c : Char} (h : skipSpace (c :: s) = skipSpace s) : parse (c :: s) = parse s := by
  have hvalue : parseValue maxLevels (c :: s) = parseValue maxLevels s := by
    rw [maxLevels, parseValue, parseWith, h, ← parseWith]
  rw [parse, hvalue, ← parse]

theorem fromUtf8_ascii {b : UInt8} (h : b < 0x80) (bytes : Bytes) :
    fromUtf8 (b :: bytes) = (fromUtf8 bytes).map (Char.ofNat b.toNat :: ·) := by
  rw [fromUtf8.eq_def]
  simp only
  rw [if_pos h]

theorem fromSlice_nil : fromSlice [] = none := rfl

theorem fromSlice_cons {b : UInt8} (h : b < 0x80) (bytes : Bytes) :
    fromSlice (b :: bytes) = (fromUtf8 bytes).bind (fun s => parse (Char.ofNat b.toNat :: s)) := by
  rw [fromSlice, fromUtf8_ascii h, Option.bind_map]
  rfl

theorem fromSlice_space {b : UInt8} (h : isAsciiWhitespace b = true) (bytes : Bytes) :
    fromSlice (b :: bytes) = none ∨ fromSlice (b :: bytes) = fromSlice bytes := by
  have hspace : ∀ {c : Char} {s : Str}, c ∈ [' ', '\n', '\t', '\r'] → parse (c :: s) = parse s := by
    intro c s hc
    refine parse_space ?_
    rw [skipSpace, List.dropWhile_cons_of_pos (by simpa [or_assoc] using hc), ← skipSpace]
  simp only [isAsciiWhitespace, Bool.or_eq_true, beq_iff_eq, or_assoc] at h
  obtain rfl | rfl | rfl | rfl | rfl := h
  · rw [fromSlice_cons (by decide)]
    exact .inr (congrArg _ (funext (fun s => hspace (by decide))))
  · rw [fromSlice_cons (by decide)]
    exact .inr (congrArg _ (funext (fun s => hspace (by decide))))
  · rw [fromSlice_cons (by decide)]
    exact .inr (congrArg _ (funext (fun s => hspace (by decide))))
  · rw [fromSlice_cons (by decide)]
    refine .inl (Option.bind_eq_none_iff.mpr (fun s _ => parse_none (parseValue_valueless ?_)))
    intro c hc
    exact .inl (Option.some.inj hc).symm
  · rw [fromSlice_cons (by decide)]
    exact .inr (congrArg _ (funext (fun s => hspace (by decide))))

theorem fromSlice_bracket {front tail : Bytes} (h : front <+: sentinel ++ tail) : fromSlice front = none := by
  cases front with
  | nil => rfl
  | cons b front =>
    obtain ⟨rfl, hbehind⟩ := List.cons_prefix_cons.mp h
    rw [fromSlice_cons (by decide)]
    refine Option.bind_eq_none_iff.mpr (fun s hs => parse_none (parseValue_bracket rfl ?_))
    cases front with
    | nil =>
      cases hs
      intro c hc
      cases hc
    | cons b front =>
      obtain ⟨rfl, -⟩ := List.cons_prefix_cons.mp hbehind
      rw [fromUtf8_ascii (by decide)] at hs
      obtain ⟨behind, -, rfl⟩ := Option.map_eq_some_iff.mp hs
      intro c hc
      exact .inr (Option.some.inj hc).symm

/-- No front part of a text that trims to the sentinel is a document. -/
theorem fromSlice_sentinel {text front : Bytes} (htext : trimAsciiWhitespace text = sentinel) (h : front <+: text) :
    fromSlice front = none := by
  unfold trimAsciiWhitespace at htext
  induction text generalizing front with
  | nil => cases htext
  | cons b text ih =>
    by_cases hb : isAsciiWhitespace b = true
    · rw [List.dropWhile_cons_of_pos hb] at htext
      cases front with
      | nil => rfl
      | cons c front =>
        obtain ⟨rfl, hbehind⟩ := List.cons_prefix_cons.mp h
        obtain hnone | hrest := fromSlice_space hb front
        · exact hnone
        · exact hrest.trans (ih htext hbehind)
    · rw [List.dropWhile_cons_of_neg hb] at htext
      obtain ⟨tail, htail⟩ := List.rdropWhile_prefix isAsciiWhitespace (b :: text)
      rw [htext] at htail
      exact fromSlice_bracket (htail ▸ h)

end Sentinel

/-! What one line does to the state, whole or cut. -/
section Lines

variable {result : SseDocuments} {data : List Bytes} {content line : Bytes} {field : SseField}

theorem unterminated (h : 13 ∉ content) (crlf : Bool) :
    (stripBack [13] (SseEvent.rawLine (content, crlf))).getD (SseEvent.rawLine (content, crlf)) = content := by
  cases crlf with
  | true =>
    change (stripBack [13] (content ++ [13])).getD (content ++ [13]) = content
    rw [stripBack_eq_some.mpr rfl]
    rfl
  | false =>
    have hnone : stripBack [13] content = none := by
      cases hstrip : stripBack [13] content with
      | none => rfl
      | some rest =>
        rw [stripBack_eq_some.mp hstrip] at h
        exact absurd (List.mem_append_right rest List.mem_cons_self) h
    change (stripBack [13] (content ++ [])).getD (content ++ []) = content
    rw [List.append_nil, hnone]
    rfl

/-- A cut of a line is a cut of its content. -/
theorem unterminated_cut (h : 13 ∉ content) {crlf : Bool} (hcut : line <+: SseEvent.rawLine (content, crlf)) :
    (stripBack [13] line).getD line <+: content := by
  have hinside : ∀ {cut : Bytes}, cut <+: content → (stripBack [13] cut).getD cut <+: content := by
    intro cut hprefix
    have hclean : 13 ∉ cut := fun hmem => h ( hprefix.subset hmem)
    have heq := unterminated hclean false
    change (stripBack [13] (cut ++ [])).getD (cut ++ []) = cut at heq
    rw [List.append_nil] at heq
    exact heq.symm ▸ hprefix
  cases crlf with
  | false =>
    rw [SseEvent.rawLine, if_neg Bool.false_ne_true, List.append_nil] at hcut
    exact hinside hcut
  | true =>
    obtain rfl | hprefix := List.prefix_concat_iff.mp hcut
    · rw [stripBack_eq_some.mpr rfl]
      exact List.prefix_rfl
    · exact hinside hprefix

theorem readLine_blank (state : SseDocuments × List Bytes) (h : (stripBack [13] line).getD line = []) :
    readLine state line = (state.1.finishEvent state.2, []) := by
  rw [readLine, h]
  rfl

theorem readLine_content (state : SseDocuments × List Bytes) (h : (stripBack [13] line).getD line = content)
    (hne : content ≠ []) :
    readLine state line = match stripFront dataField content with
      | some value => (state.1, state.2 ++ [(stripFront [32] value).getD value])
      | none => state := by
  rw [readLine, h, if_neg (by simpa using hne)]

theorem SseField.content_ne_nil (h : field.Valid) : field.content ≠ [] := by
  cases field with
  | ignored content => exact (h.ignored content rfl).1
  | data space part => cases space <;> exact List.cons_ne_nil _ _

theorem stripFront_append (front rest : Bytes) : stripFront front (front ++ rest) = some rest := stripFront_eq_some.mpr rfl

theorem stripFront_none {front l : Bytes} (h : ¬ front <+: l) : stripFront front l = none := if_neg h

/-- A part is read as it was written: a space in front of it is dropped exactly when one was put there. -/
theorem unspaced {part : Bytes} (h : part.head? ≠ some 32) : (stripFront [32] part).getD part = part := by
  rw [stripFront_none]
  · rfl
  · rintro ⟨rest, rfl⟩
    exact h rfl

theorem readLine_field (h : field.Valid) (crlf : Bool) (state : SseDocuments × List Bytes) :
    readLine state (SseEvent.rawLine (field.content, crlf)) = (state.1, state.2 ++ field.part.toList) := by
  rw [readLine_content state (unterminated h.single.2 crlf) (SseField.content_ne_nil h)]
  cases field with
  | ignored content =>
    rw [SseField.content, stripFront_none (h.ignored content rfl).2, SseField.part, Option.toList_none, List.append_nil]
  | data space part =>
    cases space with
    | true =>
      rw [SseField.content, stripFront_append]
      change (state.1, state.2 ++ [(stripFront [32] ([32] ++ part)).getD _]) = _
      rw [stripFront_append]
      rfl
    | false =>
      rw [SseField.content, stripFront_append]
      change (state.1, state.2 ++ [(stripFront [32] part).getD part]) = _
      rw [unspaced (h.unspaced part rfl)]
      rfl

/-- What a line that was cut does: it ends the event, does nothing, or adds the front of the part it held. -/
theorem readLine_cut (h : field.Valid) {crlf : Bool} (hcut : line <+: SseEvent.rawLine (field.content, crlf))
    (state : SseDocuments × List Bytes) :
    readLine state line = (state.1.finishEvent state.2, []) ∨ readLine state line = state ∨
      ∃ part front, field.part = some part ∧ front <+: part ∧ readLine state line = (state.1, state.2 ++ [front]) := by
  have hprefix := unterminated_cut h.single.2 hcut
  by_cases hne : (stripBack [13] line).getD line = []
  · exact .inl (readLine_blank state hne)
  right
  rw [readLine_content state rfl hne]
  by_cases hdata : dataField <+: (stripBack [13] line).getD line
  · obtain ⟨value, hvalue⟩ := hdata
    rw [← hvalue] at hprefix ⊢
    rw [stripFront_append]
    right
    cases field with
    | ignored content => exact absurd ((List.prefix_append _ _).trans hprefix) (h.ignored content rfl).2
    | data space part =>
      refine ⟨part, (stripFront [32] value).getD value, rfl, ?_, rfl⟩
      cases space with
      | true =>
        have hspaced : value <+: 32 :: part := (List.prefix_append_right_inj _).mp hprefix
        cases value with
        | nil => exact List.nil_prefix
        | cons b value =>
          obtain ⟨rfl, hpart⟩ := List.cons_prefix_cons.mp hspaced
          change (stripFront [32] ([32] ++ value)).getD _ <+: part
          rw [stripFront_append]
          exact hpart
      | false =>
        have hpart : value <+: part := (List.prefix_append_right_inj _).mp hprefix
        rw [unspaced ?_]
        · exact hpart
        · intro hhead
          obtain ⟨rest, rfl⟩ := hpart
          refine h.unspaced _ rfl ?_
          rw [List.head?_append, hhead]
          rfl
  · exact .inl (by rw [stripFront_none hdata])

end Lines

/-! Whole events, and an event that was cut. -/
section Events

variable {result : SseDocuments} {data : List Bytes} {event : SseEvent} {carried : Option Json} {line : Bytes}

def rawField (field : SseField × Bool) : Bytes := SseEvent.rawLine (field.1.content, field.2)

def rawBlank (crlf : Bool) : Bytes := SseEvent.rawLine ([], crlf)

theorem foldl_fields {fields : List (SseField × Bool)} (h : ∀ field ∈ fields, field.1.Valid) (result : SseDocuments)
    (data : List Bytes) :
    (fields.map rawField).foldl readLine (result, data) = (result, data ++ fields.filterMap (fun field => field.1.part)) := by
  induction fields generalizing data with
  | nil => rw [List.map_nil, List.foldl_nil, List.filterMap_nil, List.append_nil]
  | cons field fields ih =>
    rw [List.map_cons, List.foldl_cons, rawField, readLine_field (h field List.mem_cons_self),
      ih (fun f hf => h f (List.mem_cons_of_mem _ hf)), List.append_assoc, List.filterMap_cons]
    cases field.1.part <;> rfl

theorem finishEvent_nil (result : SseDocuments) : result.finishEvent [] = result := rfl

theorem readLine_rawBlank (crlf : Bool) (state : SseDocuments × List Bytes) :
    readLine state (rawBlank crlf) = (state.1.finishEvent state.2, []) :=
  readLine_blank state (unterminated List.not_mem_nil crlf)

/-- Blank lines end an event once. -/
theorem foldl_blanks {blanks : List Bool} (h : blanks ≠ []) (result : SseDocuments) (data : List Bytes) :
    (blanks.map rawBlank).foldl readLine (result, data) = (result.finishEvent data, []) := by
  induction blanks generalizing result data with
  | nil => exact absurd rfl h
  | cons crlf blanks ih =>
    rw [List.map_cons, List.foldl_cons, readLine_rawBlank]
    cases blanks with
    | nil => rfl
    | cons next blanks =>
      rw [ih (List.cons_ne_nil _ _)]
      rfl

theorem foldl_event (h : event.Valid) (result : SseDocuments) :
    event.lines.foldl readLine (result, []) = (result.finishEvent event.parts, []) := by
  change ((event.fields.map rawField) ++ (event.blanks.map rawBlank)).foldl readLine (result, []) = _
  rw [List.foldl_append, foldl_fields h.fields, List.nil_append, foldl_blanks h.closed]
  rfl

theorem finishEvent_sentinel (htext : trimAsciiWhitespace (payload data) = sentinel) : result.finishEvent data = result := by
  rw [finishEvent, if_pos htext, ite_self]

theorem finishEvent_text (hdata : data ≠ []) (htext : trimAsciiWhitespace (payload data) ≠ sentinel) :
    result.finishEvent data = match Json.fromSlice (payload data) with
      | some value => { result with values := result.values ++ [value] }
      | none => { result with incomplete := true } := by
  rw [finishEvent, if_neg (by simpa using hdata), if_neg htext]

/-- A document is no sentinel. -/
theorem ne_sentinel {text : Bytes} {value : Json} (h : Json.fromSlice text = some value) :
    trimAsciiWhitespace text ≠ sentinel := by
  intro htext
  rw [fromSlice_sentinel htext List.prefix_rfl] at h
  cases h

theorem finishEvent_carries (h : event.Carries carried) (result : SseDocuments) :
    result.finishEvent event.parts = ⟨result.values ++ carried.toList, result.incomplete⟩ := by
  cases h with
  | document hdata htext =>
    rw [finishEvent_text hdata (ne_sentinel htext), htext]
    rfl
  | noData hdata =>
    rw [hdata, finishEvent_nil, Option.toList_none, List.append_nil]
  | sentinel htext =>
    rw [finishEvent_sentinel htext, Option.toList_none, List.append_nil]

/-- Data that is a front part of an event's data. -/
def Front (data parts : List Bytes) : Prop := data = [] ∨ (parts ≠ [] ∧ payload data <+: payload parts)

theorem payload_cons (part : Bytes) {parts : List Bytes} (h : parts ≠ []) :
    payload (part :: parts) = part ++ newline :: payload parts := by
  rw [payload, List.intercalate_cons_of_ne_nil h, List.append_assoc]
  rfl

theorem payload_cut (data : List Bytes) {part front : Bytes} (h : front <+: part) (rest : List Bytes) :
    payload (data ++ [front]) <+: payload (data ++ part :: rest) := by
  induction data with
  | nil =>
    have hone : ∀ text : Bytes, payload [text] = text := List.append_nil
    rw [List.nil_append, List.nil_append, hone]
    refine h.trans ?_
    cases rest with
    | nil => exact (hone part).symm ▸ List.prefix_rfl
    | cons next rest =>
      rw [payload_cons part (List.cons_ne_nil _ _)]
      exact List.prefix_append _ _
  | cons first data ih =>
    rw [List.cons_append, List.cons_append, payload_cons first (List.append_ne_nil_of_right_ne_nil _ (List.cons_ne_nil _ _)),
      payload_cons first (List.append_ne_nil_of_right_ne_nil _ (List.cons_ne_nil _ _))]
    exact (List.prefix_append_right_inj _).mpr (List.cons_prefix_cons.mpr ⟨rfl, ih⟩)

theorem front_cut (data : List Bytes) {part front : Bytes} (h : front <+: part) (rest : List Bytes) :
    Front (data ++ [front]) (data ++ part :: rest) :=
  .inr ⟨List.append_ne_nil_of_right_ne_nil _ (List.cons_ne_nil _ _), payload_cut data h rest⟩

theorem front_append (data rest : List Bytes) : Front data (data ++ rest) := by
  obtain rfl | ⟨init, last, rfl⟩ := data.eq_nil_or_concat'
  · exact .inl rfl
  · rw [List.append_assoc]
    exact front_cut init List.prefix_rfl rest

/-- Less data of an event gives its document, or none. -/
theorem finishEvent_front (h : event.Carries carried) (hfront : Front data event.parts) (result : SseDocuments) :
    (result.finishEvent data).values <+: result.values ++ carried.toList := by
  by_cases hdata : data = []
  · rw [hdata, finishEvent_nil]
    exact List.prefix_append _ _
  obtain ⟨hparts, htail⟩ := hfront.resolve_left hdata
  by_cases htext : trimAsciiWhitespace (payload data) = sentinel
  · rw [finishEvent_sentinel htext]
    exact List.prefix_append _ _
  rw [finishEvent_text hdata htext]
  cases hvalue : Json.fromSlice (payload data) with
  | none => exact List.prefix_append _ _
  | some value =>
    cases h with
    | document hne hdocument =>
      obtain ⟨tail, htail⟩ := htail
      rw [← htail] at hdocument
      rw [Json.fromSlice_front hdocument hvalue]
      exact List.prefix_rfl
    | noData hnone => exact absurd hnone hparts
    | sentinel hsentinel =>
      rw [fromSlice_sentinel hsentinel htail] at hvalue
      cases hvalue

/-- The end of the stream ends an event too. -/
def close (state : SseDocuments × List Bytes) : SseDocuments := state.1.finishEvent state.2

/-- An event cut within its lines gives its document, or none. -/
theorem close_cut (h : event.Carries carried) (hvalid : event.Valid) {done rest : List Bytes} {next : Bytes}
    (hlines : event.lines = done ++ next :: rest) (hcut : line <+: next) (result : SseDocuments) :
    (close (readLine (done.foldl readLine (result, [])) line)).values <+: result.values ++ carried.toList := by
  have hwhole : (result.finishEvent event.parts).values <+: result.values ++ carried.toList := by
    rw [finishEvent_carries h]
  change event.fields.map rawField ++ event.blanks.map rawBlank = done ++ next :: rest at hlines
  have hblank : ∀ {blanks : List Bytes}, done = event.fields.map rawField ++ blanks →
      event.blanks.map rawBlank = blanks ++ next :: rest →
      (close (readLine (done.foldl readLine (result, [])) line)).values <+: result.values ++ carried.toList := by
    intro blanks hdone hblanks
    obtain ⟨before, behind, -, rfl, hbehind⟩ := List.map_eq_append_iff.mp hblanks
    obtain ⟨crlf, after, rfl, rfl, -⟩ := List.map_eq_cons_iff.mp hbehind
    have hempty : (stripBack [13] line).getD line = [] :=
      List.prefix_nil.mp (unterminated_cut List.not_mem_nil hcut)
    rw [hdone, List.foldl_append, foldl_fields hvalid.fields, List.nil_append, readLine_blank _ hempty]
    by_cases hbefore : before = []
    · subst hbefore
      exact hwhole
    · rw [foldl_blanks hbefore]
      exact hwhole
  obtain ⟨blanks, hdone, hblanks⟩ | ⟨fields, hfields, hnext⟩ := List.append_eq_append_iff.mp hlines
  · exact hblank hdone hblanks
  cases fields with
  | nil => exact hblank (by rw [List.append_nil] at hfields ⊢; exact hfields.symm) (by rw [List.nil_append] at hnext ⊢; exact hnext.symm)
  | cons head fields =>
    obtain ⟨rfl, -⟩ := List.cons_eq_cons.mp hnext
    obtain ⟨before, behind, hsplit, rfl, hbehind⟩ := List.map_eq_append_iff.mp hfields
    obtain ⟨field, after, rfl, rfl, -⟩ := List.map_eq_cons_iff.mp hbehind
    have hbefore : ∀ f ∈ before, f.1.Valid := fun f hf => hvalid.fields f (hsplit ▸ List.mem_append_left _ hf)
    have hfield : field.1.Valid := hvalid.fields field (hsplit ▸ List.mem_append_right _ List.mem_cons_self)
    have hparts : event.parts = before.filterMap (fun field => field.1.part) ++
        (field.1.part.toList ++ after.filterMap (fun field => field.1.part)) := by
      rw [SseEvent.parts, hsplit, List.filterMap_append, List.filterMap_cons]
      cases field.1.part <;> rfl
    rw [foldl_fields hbefore, List.nil_append]
    have hfront : Front (before.filterMap (fun field => field.1.part)) event.parts := hparts ▸ front_append _ _
    obtain hline | hline | ⟨part, front, hpart, hcutPart, hline⟩ := readLine_cut hfield hcut
      (result, before.filterMap (fun field => field.1.part))
    · rw [hline]
      exact finishEvent_front h hfront result
    · rw [hline]
      exact finishEvent_front h hfront result
    · rw [hline]
      refine finishEvent_front h ?_ result
      rw [hparts, hpart]
      exact front_cut _ hcutPart _

end Events

/-! The stream of an encoding, whole or cut. -/
section Streams

variable {events before after : List SseEvent} {event : SseEvent} {documents : List Json} {lines : List Bytes}

theorem splitOn_lines (h : ∀ line ∈ lines, newline ∉ line) {line : Bytes} (hline : newline ∉ line) :
    (lines.flatMap endLine ++ line).splitOn newline = lines ++ [line] := by
  induction lines with
  | nil => exact List.splitOn_eq_singleton hline
  | cons first lines ih =>
    have hcons : (first :: lines).flatMap endLine ++ line = first ++ newline :: (lines.flatMap endLine ++ line) := by
      simp [endLine]
    rw [hcons, List.splitOn_append_cons_self_of_not_mem (h first List.mem_cons_self),
      ih (fun l hl => h l (List.mem_cons_of_mem _ hl)), List.cons_append]

theorem decode_lines (h : ∀ line ∈ lines, newline ∉ line) {line : Bytes} (hline : newline ∉ line) :
    decode (lines.flatMap endLine ++ line) = close (readLine (lines.foldl readLine (⟨[], false⟩, [])) line) := by
  have hend : ∀ state : SseDocuments × List Bytes, (readLine state []).1 = close state := fun _ => rfl
  rw [decode, splitOn_lines h hline, List.foldl_append, List.foldl_append]
  exact hend _

theorem newline_not_mem_rawLine {content : Bytes} (h : newline ∉ content) (crlf : Bool) :
    newline ∉ SseEvent.rawLine (content, crlf) := by
  rw [SseEvent.rawLine, List.mem_append, not_or]
  refine ⟨h, ?_⟩
  cases crlf with
  | true => exact fun hmem => absurd (List.mem_singleton.mp hmem) (by decide)
  | false => exact List.not_mem_nil

theorem newline_not_mem_event (h : event.Valid) : ∀ line ∈ event.lines, newline ∉ line := by
  intro line hline
  obtain hfield | hblank := List.mem_append.mp hline
  · obtain ⟨field, hmem, rfl⟩ := List.mem_map.mp hfield
    exact newline_not_mem_rawLine (h.fields field hmem).single.1 _
  · obtain ⟨crlf, -, rfl⟩ := List.mem_map.mp hblank
    exact newline_not_mem_rawLine List.not_mem_nil _

theorem newline_not_mem_events (h : ∀ event ∈ events, event.Valid) : ∀ line ∈ events.flatMap SseEvent.lines, newline ∉ line := by
  intro line hline
  obtain ⟨event, hmem, hline⟩ := List.mem_flatMap.mp hline
  exact newline_not_mem_event (h event hmem) line hline

theorem decode_events (h : ∀ event ∈ events, event.Valid) :
    decode (sseStream events) = close ((events.flatMap SseEvent.lines).foldl readLine (⟨[], false⟩, [])) := by
  have hdecode := @decode_lines _ (newline_not_mem_events h) [] List.not_mem_nil
  rw [List.append_nil] at hdecode
  exact hdecode

theorem encodes_valid (h : SseEncodes events documents) : ∀ event ∈ events, event.Valid := by
  induction h with
  | nil => exact fun _ hmem => absurd hmem List.not_mem_nil
  | cons hvalid _ _ ih =>
    intro event hmem
    obtain rfl | hmem := List.mem_cons.mp hmem
    · exact hvalid
    · exact ih event hmem

theorem foldl_encodes (h : SseEncodes events documents) (result : SseDocuments) :
    (events.flatMap SseEvent.lines).foldl readLine (result, []) = (⟨result.values ++ documents, result.incomplete⟩, []) := by
  induction h generalizing result with
  | nil =>
    rw [List.append_nil]
    rfl
  | cons hvalid hcarries _ ih =>
    rw [List.flatMap_cons, List.foldl_append, foldl_event hvalid, finishEvent_carries hcarries, ih, List.append_assoc]

/-- The front part of some lines: whole lines, and the cut of the next one. -/
theorem cut_lines {front : Bytes} (h : front <+: lines.flatMap endLine) :
    ∃ done rest line, lines = done ++ rest ∧ front = done.flatMap endLine ++ line ∧
      ((rest = [] ∧ line = []) ∨ ∃ next behind, rest = next :: behind ∧ line <+: next) := by
  induction lines generalizing front with
  | nil => exact ⟨[], [], [], rfl, List.prefix_nil.mp h, .inl ⟨rfl, rfl⟩⟩
  | cons first lines ih =>
    obtain ⟨tail, htail⟩ := h
    rw [List.flatMap_cons] at htail
    obtain ⟨inside, hinside, -⟩ | ⟨behind, rfl, hbehind⟩ := List.append_eq_append_iff.mp htail
    · obtain rfl | hprefix := List.prefix_concat_iff.mp (show front <+: first ++ [newline] from ⟨inside, hinside.symm⟩)
      · refine ⟨[first], lines, [], rfl, by simp [endLine], ?_⟩
        cases lines with
        | nil => exact .inl ⟨rfl, rfl⟩
        | cons next lines => exact .inr ⟨next, lines, rfl, List.nil_prefix⟩
      · exact ⟨[], first :: lines, front, rfl, rfl, .inr ⟨first, lines, rfl, hprefix⟩⟩
    · obtain ⟨done, rest, line, rfl, rfl, hcut⟩ := ih ⟨tail, hbehind.symm⟩
      exact ⟨first :: done, rest, line, rfl, by rw [List.flatMap_cons, List.append_assoc], hcut⟩

theorem values_cut (h : SseEncodes events documents) {done rest : List Bytes} {line : Bytes}
    (hlines : events.flatMap SseEvent.lines = done ++ rest)
    (hcut : (rest = [] ∧ line = []) ∨ ∃ next behind, rest = next :: behind ∧ line <+: next) (result : SseDocuments) :
    (close (readLine (done.foldl readLine (result, [])) line)).values <+: result.values ++ documents := by
  induction h generalizing done result with
  | nil =>
    obtain ⟨rfl, rfl⟩ := List.append_eq_nil_iff.mp hlines.symm
    obtain ⟨-, rfl⟩ | ⟨next, behind, hnext, -⟩ := hcut
    · exact (List.append_nil result.values).symm ▸ List.prefix_rfl
    · cases hnext
  | @cons event events carried documents hvalid hcarries hrest ih =>
    have hbehind : ∀ {behind : List Bytes}, done = event.lines ++ behind → events.flatMap SseEvent.lines = behind ++ rest →
        (close (readLine (done.foldl readLine (result, [])) line)).values <+: result.values ++ (carried.toList ++ documents) := by
      intro behind hdone hevents
      have hprefix := ih hevents ⟨result.values ++ carried.toList, result.incomplete⟩
      rw [hdone, List.foldl_append, foldl_event hvalid, finishEvent_carries hcarries]
      rwa [List.append_assoc] at hprefix
    obtain ⟨behind, hdone, hevents⟩ | ⟨behind, hevent, hnext⟩ := List.append_eq_append_iff.mp hlines
    · exact hbehind hdone hevents
    cases behind with
    | nil => exact hbehind (by rw [List.append_nil] at hevent ⊢; exact hevent.symm) (by rw [List.nil_append] at hnext ⊢; exact hnext.symm)
    | cons next behind =>
      obtain ⟨rfl, -⟩ | ⟨head, tail, rfl, hline⟩ := hcut
      · cases hnext
      · obtain ⟨rfl, -⟩ := List.cons_eq_cons.mp hnext
        refine (close_cut hcarries hvalid hevent hline result).trans ?_
        rw [← List.append_assoc]
        exact List.prefix_append _ _

theorem encodes_append (h : SseEncodes (before ++ event :: after) documents) :
    ∃ front carried back, SseEncodes before front ∧ event.Carries carried ∧ SseEncodes after back ∧
      documents = front ++ (carried.toList ++ back) := by
  induction before generalizing documents with
  | nil =>
    cases h with
    | @cons _ _ carried back hvalid hcarries hrest => exact ⟨[], carried, back, .nil, hcarries, hrest, rfl⟩
  | cons first before ih =>
    cases h with
    | @cons _ _ leading documents hvalid hcarries hrest =>
      obtain ⟨front, carried, back, hfront, hcarried, hback, rfl⟩ := ih hrest
      exact ⟨leading.toList ++ front, carried, back, .cons hvalid hcarries hfront, hcarried, hback,
        (List.append_assoc _ _ _).symm⟩

/-- An encoding is decoded to its documents; a cut of it to a front part of them; and an event whose data is replaced by
a line that is neither a document nor the sentinel loses its own document only, and is noted. -/
theorem decode_encodes (h : SseEncodes events documents) :
    decode (sseStream events) = ⟨documents, false⟩ ∧
    (∀ n, (decode ((sseStream events).take n)).values <+: documents) ∧
    ∀ before event after, events = before ++ event :: after → ∀ (replaced : SseEvent) (line : Bytes), replaced.Valid →
      replaced.parts = [line] → Json.fromSlice line = none → trimAsciiWhitespace line ≠ sentinel →
      ∃ front carried back, SseEncodes before front ∧ event.Carries carried ∧ SseEncodes after back ∧
        documents = front ++ (carried.toList ++ back) ∧
        decode (sseStream (before ++ replaced :: after)) = ⟨front ++ back, true⟩ := by
  refine ⟨?_, ?_, ?_⟩
  · rw [decode_events (encodes_valid h), foldl_encodes h]
    rfl
  · intro n
    obtain ⟨done, rest, line, hlines, hfront, hcut⟩ := cut_lines (List.take_prefix n (sseStream events))
    have hclean := newline_not_mem_events (encodes_valid h)
    have hdone : ∀ l ∈ done, newline ∉ l := fun l hl => hclean l (hlines ▸ List.mem_append_left _ hl)
    have hline : newline ∉ line := by
      obtain ⟨-, rfl⟩ | ⟨next, behind, rfl, hprefix⟩ := hcut
      · exact List.not_mem_nil
      · exact fun hmem => hclean next (hlines ▸ List.mem_append_right _ List.mem_cons_self) ( hprefix.subset hmem)
    rw [hfront, decode_lines hdone hline]
    exact values_cut h hlines hcut ⟨[], false⟩
  · rintro before event after rfl replaced line hvalid hparts htext hline
    obtain ⟨front, carried, back, hbefore, hcarried, hafter, rfl⟩ := encodes_append h
    refine ⟨front, carried, back, hbefore, hcarried, hafter, rfl, ?_⟩
    have hpayload : payload [line] = line := List.append_nil line
    have hreplaced : ∀ e ∈ before ++ replaced :: after, e.Valid := by
      intro e hmem
      obtain hmem | hmem := List.mem_append.mp hmem
      · exact encodes_valid hbefore e hmem
      obtain rfl | hmem := List.mem_cons.mp hmem
      · exact hvalid
      · exact encodes_valid hafter e hmem
    rw [decode_events hreplaced, List.flatMap_append, List.flatMap_cons, List.foldl_append, List.foldl_append,
      foldl_encodes hbefore, foldl_event hvalid, hparts, finishEvent_text (List.cons_ne_nil _ _) (by rwa [hpayload]), hpayload,
      htext, foldl_encodes hafter]
    rfl

/-- A comment, and an object over two data lines. -/
def objectEvent : SseEvent := ⟨[(.ignored [58, 104], true), (.data true [123], true), (.data false [125], false)], [true]⟩

def sentinelEvent : SseEvent := ⟨[(.data true sentinel, false)], [false, true]⟩

private theorem data_valid {space : Bool} {part : Bytes} (hlf : newline ∉ (SseField.data space part).content)
    (hcr : 13 ∉ (SseField.data space part).content) (hspace : part.head? ≠ some 32) : (SseField.data space part).Valid := by
  refine ⟨⟨hlf, hcr⟩, ?_, ?_⟩
  · intro content heq
    cases heq
  · intro held heq
    cases heq
    exact hspace

private theorem sample_encodes : SseEncodes [objectEvent, sentinelEvent] [.obj []] := by
  have hobject : objectEvent.Carries (some (.obj [])) := .document (by decide) rfl
  refine .cons ⟨?_, by decide⟩ hobject (.cons ⟨?_, by decide⟩ (.sentinel (by decide)) .nil)
  · intro field hfield
    rw [objectEvent] at hfield
    simp only [List.mem_cons, List.not_mem_nil, or_false] at hfield
    obtain rfl | rfl | rfl := hfield
    · refine ⟨by decide, ?_, ?_⟩
      · intro content heq
        cases heq
        decide
      · intro part heq
        cases heq
    · exact data_valid (by decide) (by decide) (by decide)
    · exact data_valid (by decide) (by decide) (by decide)
  · intro field hfield
    obtain rfl := List.mem_singleton.mp hfield
    exact data_valid (by decide) (by decide) (by decide)

theorem sample_decoded :
    decode (sseStream [objectEvent, sentinelEvent]) = ⟨[.obj []], false⟩ ∧
      ∀ n, (decode ((sseStream [objectEvent, sentinelEvent]).take n)).values <+: [.obj []] :=
  have h := decode_encodes sample_encodes
  ⟨h.1, h.2.1⟩

end Streams
end SseDocuments
end Abyss.AgentHook
