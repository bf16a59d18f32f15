import Abyss.Mitm.Http.Message
import Abyss.Stream.Incremental

/-! HTTP/1 head decoding. A decoder keeps every byte it consumed while looking
for the end of a head, since one read may also bring early body bytes. -/
namespace Abyss.Mitm.Http
open Abyss.Stream

/-- `HEADER_READ_CHUNK_BYTES`. -/
def headerReadChunkBytes : Nat := 1024

/-- A header line as `httparse` reports it. -/
structure RawHeader where
  name : Bytes
  value : Bytes
  deriving DecidableEq, Repr

structure RawRequest where
  method : Option Bytes
  path : Option Bytes
  version : Option Nat
  headers : List RawHeader
  deriving DecidableEq, Repr

structure RawResponse where
  version : Option Nat
  code : Option Nat
  headers : List RawHeader
  deriving DecidableEq, Repr

/-- The errors of `httparse` that are told apart. -/
inductive HttparseError where
  | tooManyHeaders
  | syntactic
  deriving DecidableEq, Repr

/-- The head parsers of `httparse`, with room for 64 headers, run again on a growing buffer. -/
structure Httparse where
  request : Incremental UInt8 RawRequest HttparseError
  response : Incremental UInt8 RawResponse HttparseError

/-- What is read from a checked authority. -/
structure Authority where
  host : Text.Str
  hasPort : Bool
  portU16 : Option UInt16
  deriving DecidableEq, Repr

/-- The checked constructors of the `http` crate. -/
structure HttpTypes where
  authorityTryFrom : Text.Str → Option Authority
  methodFromBytes : Bytes → Option Method
  uriTryFrom : Bytes → Option Uri
  statusFromU16 : Nat → Option Nat
  headerNameFromBytes : Bytes → Option HeaderName
  headerValueFromBytes : Bytes → Option HeaderValue

/-- `ok_or` and the error conversions of `?`. -/
def okOr {α : Type} (e : Http1Error) : Option α → Except Http1Error α
  | some value => .ok value
  | none => .error e

theorem okOr_eq_ok {α : Type} {e : Http1Error} {o : Option α} {value : α} : okOr e o = .ok value ↔ o = some value := by
  cases o <;> simp [okOr]

def httpVersionFromHttparse : Nat → Except Http1Error Version
  | 0 => .ok .http10
  | 1 => .ok .http11
  | _ => .error (.invalidRequest "unsupported HTTP version")

def appendHeaders (types : HttpTypes) (headers : HeaderMap) : List RawHeader → Except Http1Error HeaderMap
  | [] => .ok headers
  | header :: rest => do
    let name ← okOr .invalidHeaderName (types.headerNameFromBytes header.name)
    let value ← okOr .invalidHeaderValue (types.headerValueFromBytes header.value)
    appendHeaders types (headers.append name value) rest

def requestFromRaw (types : HttpTypes) (raw : RawRequest) : Except Http1Error Request := do
  let methodBytes ← okOr (.invalidRequest "missing method") raw.method
  let method ← okOr .invalidMethod (types.methodFromBytes methodBytes)
  let path ← okOr (.invalidRequest "missing request target") raw.path
  let uri ← okOr .invalidUri (types.uriTryFrom path)
  let versionNumber ← okOr (.invalidRequest "missing HTTP version") raw.version
  let version ← httpVersionFromHttparse versionNumber
  let headers ← appendHeaders types ⟨[]⟩ raw.headers
  return ⟨method, uri, version, headers⟩

/-- A converted head, part by part. -/
theorem requestFromRaw_ok {types : HttpTypes} {raw : RawRequest} {request : Request} :
    requestFromRaw types raw = .ok request ↔ ∃ methodBytes path versionNumber,
      raw.method = some methodBytes ∧ types.methodFromBytes methodBytes = some request.method ∧
      raw.path = some path ∧ types.uriTryFrom path = some request.uri ∧
      raw.version = some versionNumber ∧ httpVersionFromHttparse versionNumber = .ok request.version ∧
      appendHeaders types ⟨[]⟩ raw.headers = .ok request.headers := by
  unfold requestFromRaw
  simp only [bind_eq_ok, okOr_eq_ok, pure, Except.pure, Except.ok.injEq]
  constructor
  · rintro ⟨methodBytes, hm, method, hmethod, path, hp, uri, huri, number, hn, version, hversion, headers, hheaders, rfl⟩
    exact ⟨methodBytes, path, number, hm, hmethod, hp, huri, hn, hversion, hheaders⟩
  · rintro ⟨methodBytes, path, number, hm, hmethod, hp, huri, hn, hversion, hheaders⟩
    exact ⟨methodBytes, hm, _, hmethod, path, hp, _, huri, number, hn, _, hversion, _, hheaders, rfl⟩

def responseFromRaw (types : HttpTypes) (raw : RawResponse) : Except Http1Error Response := do
  let versionNumber ← okOr (.invalidResponse "missing HTTP version") raw.version
  let version ← httpVersionFromHttparse versionNumber
  let code ← okOr (.invalidResponse "missing status code") raw.code
  let status ← okOr .invalidStatusCode (types.statusFromU16 code)
  let headers ← appendHeaders types ⟨[]⟩ raw.headers
  return ⟨status, version, headers⟩

def parseRequestHead (httparse : Httparse) (types : HttpTypes) : Incremental UInt8 Request Http1Error :=
  httparse.request.tryMap (requestFromRaw types) (fun _ => .parse)

def parseResponseHead (httparse : Httparse) (types : HttpTypes) : Incremental UInt8 Response Http1Error :=
  httparse.response.tryMap (responseFromRaw types) (fun _ => .parse)

/-- Bytes consumed while decoding a head, cut at the end of the head. -/
structure Http1HeadBuffer where
  bytes : Bytes
  headLen : Nat
  within : headLen ≤ bytes.length

def Http1HeadBuffer.headBytes (buffer : Http1HeadBuffer) : Bytes := buffer.bytes.take buffer.headLen

def Http1HeadBuffer.bufferedBody (buffer : Http1HeadBuffer) : Bytes := buffer.bytes.drop buffer.headLen

theorem Http1HeadBuffer.parts (buffer : Http1HeadBuffer) :
    buffer.headBytes ++ buffer.bufferedBody = buffer.bytes := List.take_append_drop ..

section Decoding
variable {α : Type} (parseHead : Incremental UInt8 α Http1Error) (incompleteError : Http1Error)

/-- Read until the head parser answers; `buffer` holds what was read before. -/
def readHttp1Head (buffer : Bytes) (reader : Reader) : Except Http1Error (α × Http1HeadBuffer) × Reader :=
  match _h : reader.read headerReadChunkBytes with
  | (.error source, reader) => (.error (.io source), reader)
  | (.ok [], reader) => (.error incompleteError, reader)
  | (.ok (b :: bs), reader) =>
    match hp : parseHead.run (buffer ++ (b :: bs)) with
    | .invalid e => (.error e, reader)
    | .complete head headLen => (.ok (head, ⟨buffer ++ (b :: bs), headLen, parseHead.consumed_le hp⟩), reader)
    | .incomplete =>
      if maxHttp1HeaderBytes ≤ (buffer ++ (b :: bs)).length then (.error .headerTooLarge, reader)
      else readHttp1Head (buffer ++ (b :: bs)) reader
termination_by reader.contents.length
decreasing_by exact Source.read_shrinks _h

/-- A decoded head is the front of the stream, and nothing that was read is lost. -/
theorem readHttp1Head_ok {buffer : Bytes} {reader reader' : Reader} {head : α} {headBuffer : Http1HeadBuffer}
    (h : readHttp1Head parseHead incompleteError buffer reader = (.ok (head, headBuffer), reader')) :
    parseHead.run headBuffer.bytes = .complete head headBuffer.headLen ∧
    buffer ++ reader.contents = headBuffer.bytes ++ reader'.contents ∧ reader'.ending = reader.ending := by
  fun_induction readHttp1Head parseHead incompleteError buffer reader with
  | case1 => simp at h
  | case2 => simp at h
  | case3 => simp at h
  | case4 buffer reader b bs reader₁ hr value n hp =>
    obtain ⟨hc, -, he⟩ := Source.read_contents hr
    simp only [Prod.mk.injEq, Except.ok.injEq] at h
    obtain ⟨⟨rfl, rfl⟩, rfl⟩ := h
    exact ⟨hp, by rw [hc, List.append_assoc], he⟩
  | case5 => simp at h
  | case6 buffer reader b bs reader₁ hr hp hlen ih =>
    obtain ⟨hc, -, he⟩ := Source.read_contents hr
    obtain ⟨hrun, hcontents, hending⟩ := ih h
    refine ⟨hrun, ?_, hending.trans he⟩
    rw [hc, ← hcontents, List.append_assoc]

/-- A bounded head at the front of a stream is decoded, whatever the boundaries of the reads. -/
theorem readHttp1Head_complete {buffer : Bytes} {reader : Reader} {head : α} {n : Nat}
    (h : parseHead.run (buffer ++ reader.contents) = .complete head n) (hn : n ≤ maxHttp1HeaderBytes)
    (hmore : buffer.length < n) :
    ∃ headBuffer reader', readHttp1Head parseHead incompleteError buffer reader =
      (.ok (head, headBuffer), reader') ∧ headBuffer.headLen = n := by
  fun_induction readHttp1Head parseHead incompleteError buffer reader with
  | case1 buffer reader source reader₁ hr =>
    rw [(Source.read_error hr).2.1, List.append_nil] at h
    exact absurd (parseHead.consumed_le h) (Nat.not_le.mpr hmore)
  | case2 buffer reader reader₁ hr =>
    rw [(Source.read_empty (by decide) hr).2.1, List.append_nil] at h
    exact absurd (parseHead.consumed_le h) (Nat.not_le.mpr hmore)
  | case3 buffer reader b bs reader₁ hr e hp =>
    rw [(Source.read_contents hr).1, ← List.append_assoc, parseHead.invalid_append _ hp] at h
    cases h
  | case4 buffer reader b bs reader₁ hr value m hp =>
    rw [(Source.read_contents hr).1, ← List.append_assoc, parseHead.complete_append _ hp] at h
    cases h
    exact ⟨_, _, rfl, rfl⟩
  | case5 buffer reader b bs reader₁ hr hp hlen =>
    rw [(Source.read_contents hr).1, ← List.append_assoc] at h
    rw [parseHead.complete_of_append h (Nat.le_trans hn hlen)] at hp
    cases hp
  | case6 buffer reader b bs reader₁ hr hp hlen ih =>
    rw [(Source.read_contents hr).1, ← List.append_assoc] at h
    refine ih h ?_
    by_contra hle
    rw [parseHead.complete_of_append h (Nat.le_of_not_lt hle)] at hp
    cases hp

end Decoding
end Abyss.Mitm.Http
