import Abyss.Mitm.Http.Message

/-! The observation side of the relay: a body capture keeps the decoded bytes
that fit its limit while the network side keeps forwarding. -/
namespace Abyss.Mitm.Relay
open Abyss.Text Abyss.Mitm.Http

inductive BodyDecodingStatus where
  | pending | complete | truncated | unsupportedEncoding | invalidEncoding
  | unsupportedTransferEncoding | invalidData | budgetExceeded
  deriving DecidableEq, Repr

/-- Body made available to hooks. The structured JSON view is a function of
`bytes` and `status` and is not stored. -/
structure CapturedBody where
  rawBytes : Bytes
  rawTruncated : Bool
  decodeLimit : Nat
  status : BodyDecodingStatus
  bytes : Bytes
  truncated : Bool
  deriving DecidableEq, Repr

/-- `DEFAULT_MAX_HTTP1_BODY_BYTES`. -/
def defaultMaxHttp1BodyBytes : Nat := 0x01000000

namespace CapturedBody

def fromBytes (bytes : Bytes) : CapturedBody :=
  ⟨bytes, false, defaultMaxHttp1BodyBytes, .complete, bytes, false⟩

def fromTruncatedBytes (bytes : Bytes) : CapturedBody :=
  ⟨bytes, true, defaultMaxHttp1BodyBytes, .truncated, bytes, true⟩

def withDecodeLimit (body : CapturedBody) (limit : Nat) : CapturedBody :=
  { body with decodeLimit := limit }

def setDecoded (body : CapturedBody) (bytes : Bytes) (status : BodyDecodingStatus) : CapturedBody :=
  { body with bytes := bytes, status := status, truncated := status != .complete }

end CapturedBody

inductive ContentCoding where
  | gzip | deflate | brotli | zstd | identity
  deriving DecidableEq, Repr

namespace ContentDecoder

/-- `MAX_CODINGS`. -/
def maxCodings : Nat := 4

def parseCoding (value : Str) : Except BodyDecodingStatus ContentCoding :=
  if eqIgnoreAsciiCase value "gzip".toList || eqIgnoreAsciiCase value "x-gzip".toList then .ok .gzip
  else if eqIgnoreAsciiCase value "deflate".toList then .ok .deflate
  else if eqIgnoreAsciiCase value "br".toList then .ok .brotli
  else if eqIgnoreAsciiCase value "zstd".toList then .ok .zstd
  else if eqIgnoreAsciiCase value "identity".toList then .ok .identity
  else .error .unsupportedEncoding

/-- Only `chunked` transfer framing is removed by the relay. -/
def checkTransferEncoding : List HeaderValue → Except BodyDecodingStatus Unit
  | [] => .ok ()
  | value :: rest =>
    match toStr value with
    | none => .error .invalidEncoding
    | some text =>
      if eqIgnoreAsciiCase (trim text) "chunked".toList then checkTransferEncoding rest
      else .error .unsupportedTransferEncoding

def pushCodings (codings : List ContentCoding) : List Str → Except BodyDecodingStatus (List ContentCoding)
  | [] => .ok codings
  | item :: rest => do
    if trim item = [] then .error .invalidEncoding
    else if codings.length = maxCodings then .error .budgetExceeded
    else pushCodings (codings ++ [← parseCoding (trim item)]) rest

def collectCodings (codings : List ContentCoding) :
    List HeaderValue → Except BodyDecodingStatus (List ContentCoding)
  | [] => .ok codings
  | value :: rest =>
    match toStr value with
    | none => .error .invalidEncoding
    | some text => do collectCodings (← pushCodings codings (text.splitOn ',')) rest

def codings (headers : HeaderMap) : Except BodyDecodingStatus (List ContentCoding) := do
  checkTransferEncoding (headers.getAll (ascii "transfer-encoding"))
  collectCodings [] (headers.getAll (ascii "content-encoding"))

def identityOnly (headers : HeaderMap) : Bool :=
  match codings headers with
  | .ok list => list.all (· == .identity)
  | .error _ => false

/-- Encoded captures wait for the hook worker; identity captures stay ready. -/
def prepareBody (headers : HeaderMap) (body : CapturedBody) : CapturedBody :=
  if identityOnly headers then body else body.setDecoded [] .pending

end ContentDecoder

/-- One append step of a capture: the retained bytes and whether it still grows.
The retained length never overflows `usize`: the branch for that is the second. -/
def appendBodyForCapture (body : Bytes) (captureBody : Bool) (bytes : Bytes) (maxBodyBytes : Nat) :
    Bytes × Bool :=
  if !captureBody then (body, captureBody)
  else if u64Bound ≤ body.length + bytes.length then (body, false)
  else if maxBodyBytes < body.length + bytes.length then
    (body ++ bytes.take (maxBodyBytes - body.length), false)
  else (body ++ bytes, captureBody)

def capturedBody (body : Bytes) (captureCompletedWithinLimit : Bool) (maxBodyBytes : Nat) : CapturedBody :=
  (if captureCompletedWithinLimit then CapturedBody.fromBytes body
    else CapturedBody.fromTruncatedBytes body).withDecodeLimit maxBodyBytes

/-- Direction-specific context for diagnostics while copying a body. -/
inductive BodyDirection where
  | request | response
  deriving DecidableEq, Repr

def bodyReadOperation : BodyDirection → FlowOperation
  | .request => .readAgentRequestBody
  | .response => .readProviderResponseBody

def bodyForwardOperation : BodyDirection → FlowOperation
  | .request => .writeProviderRequestBody
  | .response => .writeAgentResponseBody

def bodyHttp1Operation : BodyDirection → FlowOperation
  | .request => .readAgentRequestBody
  | .response => .readProviderResponseBody

/-- A framing error while forwarding a body. -/
def bodyError (direction : BodyDirection) (source : Http1Error) : TransparentFlowError :=
  .http1 (bodyHttp1Operation direction) source

/-- Bytes of the next message arrived with this one. -/
def pipelinedError (direction : BodyDirection) : TransparentFlowError :=
  bodyError direction (.unsupportedBody "pipelined HTTP/1 bytes")

/-- Body data captured while forwarding a single HTTP message. Only a complete response
may retain a final Agent write failure. -/
structure BodyCapture where
  body : CapturedBody
  forwardedBytes : Nat
  agentWriteError : Option TransparentFlowError
  deriving DecidableEq, Repr

/-- What hooks should see of a payload: its first `maxBodyBytes` bytes, marked
truncated exactly when bytes are missing. -/
def observed (payload : Bytes) (maxBodyBytes : Nat) : CapturedBody :=
  capturedBody (payload.take maxBodyBytes) (payload.length ≤ maxBodyBytes) maxBodyBytes

/-- State of a capture that has consumed `payload`, while lengths fit `usize`. -/
def Captured (payload : Bytes) (maxBodyBytes : Nat) (body : Bytes) (captureBody : Bool) : Prop :=
  payload.length < u64Bound →
    body = payload.take maxBodyBytes ∧ captureBody = decide (payload.length ≤ maxBodyBytes)

theorem captured_start (maxBodyBytes : Nat) : Captured [] maxBodyBytes [] true := by
  intro _
  simp

theorem Captured.append {payload body bytes : Bytes} {captureBody : Bool} {maxBodyBytes : Nat}
    (h : Captured payload maxBodyBytes body captureBody) :
    Captured (payload ++ bytes) maxBodyBytes
      (appendBodyForCapture body captureBody bytes maxBodyBytes).1
      (appendBodyForCapture body captureBody bytes maxBodyBytes).2 := by
  intro hlen
  rw [List.length_append] at hlen
  obtain ⟨rfl, rfl⟩ := h (by omega)
  unfold appendBodyForCapture
  by_cases hfit : payload.length ≤ maxBodyBytes
  · rw [List.take_of_length_le hfit]
    simp only [hfit, decide_true, Bool.not_true, Bool.false_eq_true, if_false, if_neg (Nat.not_le.mpr hlen)]
    split
    · next hover =>
      refine ⟨by rw [List.take_append, List.take_of_length_le hfit], ?_⟩
      simp [hover]
    · next hover =>
      have hall : (payload ++ bytes).length ≤ maxBodyBytes := by rw [List.length_append]; omega
      exact ⟨(List.take_of_length_le hall).symm, (decide_eq_true hall).symm⟩
  · simp only [hfit, decide_false, Bool.not_false, if_true]
    have hzero : maxBodyBytes - payload.length = 0 := by omega
    refine ⟨by rw [List.take_append, hzero, List.take_zero, List.append_nil], ?_⟩
    simp
    omega

/-- The finished capture of a payload is its observation. -/
theorem Captured.finish {payload body : Bytes} {captureBody : Bool} {maxBodyBytes : Nat}
    (h : Captured payload maxBodyBytes body captureBody) (hlen : payload.length < u64Bound) :
    capturedBody body captureBody maxBodyBytes = observed payload maxBodyBytes := by
  obtain ⟨rfl, rfl⟩ := h hlen
  rfl

/-- An observation retains the limited front part and says whether it is all. -/
theorem observed_view (payload : Bytes) (maxBodyBytes : Nat) :
    (observed payload maxBodyBytes).bytes = payload.take maxBodyBytes ∧
    (observed payload maxBodyBytes).rawBytes = payload.take maxBodyBytes ∧
    ((observed payload maxBodyBytes).truncated = true ↔ maxBodyBytes < payload.length) ∧
    ((observed payload maxBodyBytes).rawTruncated = true ↔ maxBodyBytes < payload.length) := by
  unfold observed capturedBody
  by_cases h : payload.length ≤ maxBodyBytes
  · simp [h, CapturedBody.fromBytes, CapturedBody.withDecodeLimit]
  · simp [h, CapturedBody.fromTruncatedBytes, CapturedBody.withDecodeLimit, Nat.lt_of_not_le h]

end Abyss.Mitm.Relay
