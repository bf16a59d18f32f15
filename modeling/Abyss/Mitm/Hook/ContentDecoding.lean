import Abyss.Mitm.Relay.Exchange

/-! Content decoding of captured exchanges. The hook worker decodes both bodies under a
limit, unless both are ready as they were captured. -/
namespace Abyss.Mitm.Hook
open Abyss.Mitm.Http Abyss.Mitm.Relay

/-- What decoding takes from outside: `serde_json`, the readers of the decompressors and the clock they run against. -/
structure DecodingEnv (Value : Type) where
  fromSlice : Bytes → Option Value
  Reader : Type
  newReader : ContentCoding → Bytes → Option Reader
  read : Reader → Nat → Except ErrorKind Bytes × Reader
  read_length : ∀ {reader n bytes}, (read reader n).1 = .ok bytes → bytes.length ≤ n
  expired : Reader → Bool

/-- A captured body with its structured view. -/
structure HookBody (Value : Type) extends CapturedBody where
  json : Option Value
  deriving DecidableEq

/-- A captured pair as the worker receives it. -/
structure HookExchange (Flow Value : Type) where
  flow : Flow
  request : Request
  requestBody : HookBody Value
  response : Response
  responseBody : HookBody Value

/-- `u8::is_ascii_whitespace`. -/
def isAsciiWhitespace (byte : UInt8) : Bool :=
  byte == 32 || byte == 9 || byte == 10 || byte == 12 || byte == 13

def trimAsciiWhitespace (bytes : Bytes) : Bytes :=
  (bytes.dropWhile isAsciiWhitespace).rdropWhile isAsciiWhitespace

/-- `CHUNK_BYTES`. -/
def chunkBytes : Nat := 16 * 1024

variable {Flow Value : Type} (env : DecodingEnv Value)

def parseJsonBody (bytes : Bytes) : Option Value :=
  let trimmed := trimAsciiWhitespace bytes
  if trimmed.head? = some 123 ∨ trimmed.head? = some 91 then env.fromSlice trimmed else none

namespace HookBody

def fromBytes (bytes : Bytes) : HookBody Value := ⟨CapturedBody.fromBytes bytes, parseJsonBody env bytes⟩

def fromTruncatedBytes (bytes : Bytes) : HookBody Value :=
  ⟨CapturedBody.fromTruncatedBytes bytes, parseJsonBody env bytes⟩

def withDecodeLimit (body : HookBody Value) (limit : Nat) : HookBody Value :=
  { body with toCapturedBody := body.toCapturedBody.withDecodeLimit limit }

def setDecoded (body : HookBody Value) (bytes : Bytes) (status : BodyDecodingStatus) : HookBody Value :=
  ⟨body.toCapturedBody.setDecoded bytes status,
    if status = .complete ∨ status = .truncated then parseJsonBody env bytes else none⟩

end HookBody

/-- The body of one message as the relay captures it. -/
def capturedBody (body : Bytes) (captureCompletedWithinLimit : Bool) (maxBodyBytes : Nat) : HookBody Value :=
  (if captureCompletedWithinLimit then HookBody.fromBytes env body
    else HookBody.fromTruncatedBytes env body).withDecodeLimit maxBodyBytes

namespace ContentDecoder
open Relay.ContentDecoder (codings identityOnly)

def prepareBody (headers : HeaderMap) (body : HookBody Value) : HookBody Value :=
  if identityOnly headers then body else body.setDecoded env [] .pending

def responseHasNoBody (exchange : HookExchange Flow Value) : Bool :=
  exchange.request.method == ascii "HEAD" || statusHasNoBody exchange.response.status

/-- The limit of the decoded view. -/
def decodeLimit (body : HookBody Value) : Nat := min body.decodeLimit defaultMaxHttp1BodyBytes

def bodyReady (headers : HeaderMap) (body : HookBody Value) (noBody : Bool) : Bool :=
  if noBody then body.status == .complete && body.bytes.isEmpty
  else identityOnly headers && (body.status == .complete || body.status == .truncated) &&
    body.rawBytes.length ≤ decodeLimit body

def requiresProcessing (exchange : HookExchange Flow Value) : Bool :=
  !bodyReady exchange.request.headers exchange.requestBody false ||
    !bodyReady exchange.response.headers exchange.responseBody (responseHasNoBody exchange)

section Decoder
variable (limit : Nat)

/-- Reads one byte more than fits, to tell a full representation from a limited one. -/
def collect (reader : env.Reader) (output : Bytes) (inputTruncated : Bool) : Except BodyDecodingStatus (Bytes × Bool) :=
  if env.expired reader then .error .budgetExceeded else
  match _hread : env.read reader (min chunkBytes (limit - output.length + 1)) with
  | (.ok [], reader) => match (env.read reader 1).1 with
    | .ok [] => .ok (output, inputTruncated)
    | .error .timedOut => .error .budgetExceeded
    | _ => .error .invalidData
  | (.ok (byte :: rest), reader) =>
    if _hover : limit - output.length < (byte :: rest).length then
      .ok (output ++ (byte :: rest).take (limit - output.length), true)
    else collect reader (output ++ byte :: rest) inputTruncated
  | (.error .timedOut, _) => .error .budgetExceeded
  | (.error .unexpectedEof, _) => if inputTruncated then .ok (output, true) else .error .invalidData
  | (.error _, _) => .error .invalidData
termination_by limit - output.length
decreasing_by
  simp only [List.length_append, List.length_cons] at _hover ⊢
  omega

def decodeLayer (coding : ContentCoding) (bytes : Bytes) (truncated : Bool) : Except BodyDecodingStatus (Bytes × Bool) :=
  if coding = .identity then .ok (bytes, truncated)
  else match env.newReader coding bytes with
    | none => .error .invalidData
    | some reader => collect env limit reader [] truncated

/-- The loop over the codings, last applied first. -/
def decodeLayers (bytes : Bytes) (truncated : Bool) : List ContentCoding → Except BodyDecodingStatus (Bytes × Bool)
  | [] => .ok (bytes, truncated)
  | coding :: rest =>
    if coding = .identity then decodeLayers bytes truncated rest
    else do
      let (decoded, cut) ← decodeLayer env limit coding bytes truncated
      decodeLayers decoded (truncated || cut) rest

def decode (headers : HeaderMap) (bytes : Bytes) (truncated : Bool) :
    Except BodyDecodingStatus (Bytes × BodyDecodingStatus) := do
  let list ← codings headers
  let (bytes, truncated) ← decodeLayers env limit (bytes.take limit) (truncated || limit < bytes.length) list.reverse
  return (bytes, if truncated then .truncated else .complete)

end Decoder

/-- `decode_body` behind its readiness check: the full decode of a body. -/
def decodeFully (headers : HeaderMap) (body : HookBody Value) (noBody : Bool) : HookBody Value :=
  if noBody then body.setDecoded env [] .complete
  else match decode env (decodeLimit body) headers body.rawBytes body.rawTruncated with
    | .ok (bytes, status) => body.setDecoded env bytes status
    | .error status => body.setDecoded env [] status

def decodeBody (headers : HeaderMap) (body : HookBody Value) (noBody : Bool) : HookBody Value :=
  if bodyReady headers body noBody then body else decodeFully env headers body noBody

/-- Apply a decoder of single bodies to both sides. -/
def mapBodies (decoder : HeaderMap → HookBody Value → Bool → HookBody Value) (exchange : HookExchange Flow Value) :
    HookExchange Flow Value :=
  { exchange with
    requestBody := decoder exchange.request.headers exchange.requestBody false
    responseBody := decoder exchange.response.headers exchange.responseBody (responseHasNoBody exchange) }

def decodeExchange : HookExchange Flow Value → HookExchange Flow Value := mapBodies (decodeBody env)

end ContentDecoder

open ContentDecoder in
/-- The exchange that `submit_captured_exchange` hands to the dispatcher. -/
def submitCapturedExchange (flow : Flow) (request : Request) (response : Response)
    (requestBody responseBody : HookBody Value) : HookExchange Flow Value :=
  ⟨flow, request, prepareBody env request.headers requestBody, response,
    prepareBody env response.headers responseBody⟩

open ContentDecoder in
/-- The step of `run_hook_worker` in front of the hooks. -/
def workerStep (exchange : HookExchange Flow Value) : HookExchange Flow Value :=
  if requiresProcessing exchange then decodeExchange env exchange else exchange

section Bounds
open ContentDecoder
open Relay.ContentDecoder (codings identityOnly parseCoding checkTransferEncoding pushCodings collectCodings)
variable {env}

/-- The statuses that decoding can fail with. -/
def IsFailure (status : BodyDecodingStatus) : Prop := status ≠ .pending ∧ status ≠ .complete ∧ status ≠ .truncated

/-- A bounded output, or a failure. -/
def Bounded (limit : Nat) : Except BodyDecodingStatus (Bytes × Bool) → Prop
  | .ok (bytes, _) => bytes.length ≤ limit
  | .error status => IsFailure status

theorem collect_bounded {limit : Nat} {reader : env.Reader} {output : Bytes} {inputTruncated : Bool}
    (h : output.length ≤ limit) : Bounded limit (collect env limit reader output inputTruncated) := by
  fun_induction collect env limit reader output inputTruncated with
  | case1 => simp [Bounded, IsFailure]
  | case2 => exact h
  | case3 => simp [Bounded, IsFailure]
  | case4 => simp [Bounded, IsFailure]
  | case5 reader output _ byte rest reader' _ hover =>
    simp only [Bounded, List.length_append, List.length_take]
    omega
  | case6 reader output _ byte rest reader' _ hover ih =>
    apply ih
    rw [List.length_append]
    omega
  | case7 => simp [Bounded, IsFailure]
  | case8 => exact h
  | case9 => simp [Bounded, IsFailure]
  | case10 => simp [Bounded, IsFailure]

theorem decodeLayers_bounded {limit : Nat} {bytes : Bytes} {truncated : Bool} (list : List ContentCoding)
    (h : bytes.length ≤ limit) : Bounded limit (decodeLayers env limit bytes truncated list) := by
  induction list generalizing bytes truncated with
  | nil => exact h
  | cons coding rest ih =>
    unfold decodeLayers
    split
    · exact ih h
    · next hcoding =>
      have hlayer : Bounded limit (decodeLayer env limit coding bytes truncated) := by
        unfold decodeLayer
        rw [if_neg hcoding]
        split
        · simp [Bounded, IsFailure]
        · exact collect_bounded (Nat.zero_le _)
      cases hresult : decodeLayer env limit coding bytes truncated with
      | error status =>
        rw [hresult] at hlayer
        exact hlayer
      | ok decoded =>
        rw [hresult] at hlayer
        exact ih hlayer

private theorem parseCoding_error {value : Text.Str} {status : BodyDecodingStatus}
    (h : parseCoding value = .error status) : IsFailure status := by
  unfold parseCoding at h
  repeat' split at h
  all_goals cases h
  simp [IsFailure]

private theorem checkTransferEncoding_error {values : List HeaderValue} {status : BodyDecodingStatus}
    (h : checkTransferEncoding values = .error status) : IsFailure status := by
  induction values with
  | nil => cases h
  | cons value rest ih =>
    unfold checkTransferEncoding at h
    split at h
    · cases h
      simp [IsFailure]
    · split at h
      · exact ih h
      · cases h
        simp [IsFailure]

private theorem pushCodings_error {list : List ContentCoding} {items : List Text.Str} {status : BodyDecodingStatus}
    (h : pushCodings list items = .error status) : IsFailure status := by
  induction items generalizing list with
  | nil => cases h
  | cons item rest ih =>
    unfold pushCodings at h
    split at h
    · cases h
      simp [IsFailure]
    · split at h
      · cases h
        simp [IsFailure]
      · cases hcoding : parseCoding (Text.trim item) with
        | error failure =>
          simp only [hcoding, bind, Except.bind, Except.error.injEq] at h
          exact h ▸ parseCoding_error hcoding
        | ok coding =>
          rw [hcoding] at h
          exact ih h

private theorem collectCodings_error {list : List ContentCoding} {values : List HeaderValue} {status : BodyDecodingStatus}
    (h : collectCodings list values = .error status) : IsFailure status := by
  induction values generalizing list with
  | nil => cases h
  | cons value rest ih =>
    unfold collectCodings at h
    split at h
    · cases h
      simp [IsFailure]
    · next text _ =>
      cases hpush : pushCodings list (text.splitOn ',') with
      | error failure =>
        simp only [hpush, bind, Except.bind, Except.error.injEq] at h
        exact h ▸ pushCodings_error hpush
      | ok list' =>
        rw [hpush] at h
        exact ih h

theorem codings_error {headers : HeaderMap} {status : BodyDecodingStatus} (h : codings headers = .error status) :
    IsFailure status := by
  unfold codings at h
  cases hcheck : checkTransferEncoding (headers.getAll (ascii "transfer-encoding")) with
  | error failure =>
    simp only [hcheck, bind, Except.bind, Except.error.injEq] at h
    exact h ▸ checkTransferEncoding_error hcheck
  | ok _ =>
    rw [hcheck] at h
    exact collectCodings_error h

/-- What decoding yields: a bounded representation with its status, or a failure. -/
theorem decode_bounded (limit : Nat) (headers : HeaderMap) (bytes : Bytes) (truncated : Bool) :
    match decode env limit headers bytes truncated with
    | .ok (decoded, status) => decoded.length ≤ limit ∧ (status = .complete ∨ status = .truncated)
    | .error status => IsFailure status := by
  unfold decode
  cases hcodings : codings headers with
  | error status => exact codings_error hcodings
  | ok list =>
    have htake : (bytes.take limit).length ≤ limit := List.length_take_le ..
    have hlayers := @decodeLayers_bounded _ env _ _ (truncated || decide (limit < bytes.length)) list.reverse htake
    simp only [bind, Except.bind]
    cases hresult : decodeLayers env limit (bytes.take limit) (truncated || decide (limit < bytes.length)) list.reverse with
    | error status =>
      rw [hresult] at hlayers
      exact hlayers
    | ok decoded =>
      rw [hresult] at hlayers
      refine ⟨hlayers, ?_⟩
      split
      · exact .inr rfl
      · exact .inl rfl

end Bounds
end Abyss.Mitm.Hook
