import Abyss.Mitm.Hook.ContentDecoding
import Abyss.Mitm.Http.CanonicalHead

/-! The fast path of the hook worker: a captured exchange that is ready is what the full decode
of both bodies would make of it, and behind the worker's step every exchange is settled. -/
namespace Abyss.Mitm.Hook
open Abyss.Mitm.Http Abyss.Mitm.Relay Hook.ContentDecoder
open Relay.ContentDecoder (codings identityOnly)
variable {Flow Value : Type} {env : DecodingEnv Value} {headers : HeaderMap} {body : HookBody Value} {noBody : Bool}

/-- The decoded view agrees with its status: only a decoded representation has a structured view. -/
def JsonAgrees (env : DecodingEnv Value) (body : HookBody Value) : Prop :=
  body.json = if body.status = .complete ∨ body.status = .truncated then parseJsonBody env body.bytes else none

/-- The flag of a view agrees with its status. -/
def TruncatedAgrees (body : HookBody Value) : Prop := body.truncated = (body.status != .complete)

/-- A body as it is handed to the dispatcher: an identity capture as it was taken, or one that waits. -/
structure Prepared (env : DecodingEnv Value) (headers : HeaderMap) (body : HookBody Value) : Prop where
  identity : identityOnly headers = true →
    body.bytes = body.rawBytes ∧ body.status = if body.rawTruncated then .truncated else .complete
  waiting : identityOnly headers = false → body.status = .pending
  truncated : TruncatedAgrees body
  json : JsonAgrees env body

theorem prepared (env : DecodingEnv Value) (headers : HeaderMap) (bytes : Bytes) (complete : Bool) (limit : Nat) :
    Prepared env headers (prepareBody env headers (capturedBody env bytes complete limit)) := by
  unfold prepareBody
  cases hidentity : identityOnly headers with
  | true => cases complete <;> exact ⟨fun _ => ⟨rfl, rfl⟩, by simp [hidentity], rfl, rfl⟩
  | false => exact ⟨by simp [hidentity], fun _ => rfl, rfl, rfl⟩

/-- Setting the view a body has changes nothing. -/
theorem setDecoded_self (htruncated : TruncatedAgrees body) (hjson : JsonAgrees env body) :
    body.setDecoded env body.bytes body.status = body := by
  obtain ⟨captured, json⟩ := body
  unfold HookBody.setDecoded CapturedBody.setDecoded
  rw [← hjson, ← htruncated]

/-- Decoding an identity capture that fits its limit gives it back. -/
theorem decode_identity {limit : Nat} {bytes : Bytes} {truncated : Bool} (h : identityOnly headers = true)
    (hlen : bytes.length ≤ limit) :
    decode env limit headers bytes truncated = .ok (bytes, if truncated then .truncated else .complete) := by
  unfold identityOnly at h
  split at h
  · next list hcodings =>
    have hlayers : ∀ layers : List ContentCoding, layers.all (· == .identity) = true →
        decodeLayers env limit bytes truncated layers = .ok (bytes, truncated) := by
      intro layers hall
      induction layers with
      | nil => rfl
      | cons coding rest ih =>
        simp only [List.all_cons, Bool.and_eq_true, beq_iff_eq] at hall
        rw [decodeLayers, if_pos hall.1, ih hall.2]
    have hfits : decide (limit < bytes.length) = false := decide_eq_false (Nat.not_lt.mpr hlen)
    simp only [decode, hcodings, bind, Except.bind, List.take_of_length_le hlen, hfits, Bool.or_false,
      hlayers list.reverse (by simpa using h)]
    rfl
  · cases h

/-- A ready body is its own full decode. -/
theorem decodeFully_of_ready (hprepared : Prepared env headers body) (hready : bodyReady headers body noBody = true) :
    decodeFully env headers body noBody = body := by
  unfold bodyReady at hready
  have hself := setDecoded_self hprepared.truncated hprepared.json
  cases noBody with
  | true =>
    simp only [if_true, Bool.and_eq_true, beq_iff_eq, List.isEmpty_iff] at hready
    rwa [hready.1, hready.2] at hself
  | false =>
    simp only [Bool.false_eq_true, if_false, Bool.and_eq_true, decide_eq_true_eq] at hready
    obtain ⟨hbytes, hstatus⟩ := hprepared.identity hready.1.1
    rw [hbytes, hstatus] at hself
    simp only [decodeFully, Bool.false_eq_true, if_false, decode_identity hready.1.1 hready.2]
    exact hself

/-- The view that the full decode sets; it depends on what was captured alone. -/
def decodedView (env : DecodingEnv Value) (headers : HeaderMap) (captured : CapturedBody) (noBody : Bool) :
    Bytes × BodyDecodingStatus :=
  if noBody then ([], .complete)
  else match decode env (min captured.decodeLimit defaultMaxHttp1BodyBytes) headers captured.rawBytes
      captured.rawTruncated with
    | .ok view => view
    | .error status => ([], status)

theorem decodeFully_eq (body : HookBody Value) : decodeFully env headers body noBody =
    body.setDecoded env (decodedView env headers body.toCapturedBody noBody).1
      (decodedView env headers body.toCapturedBody noBody).2 := by
  unfold decodeFully decodedView decodeLimit
  split
  · rfl
  · cases decode env (min body.decodeLimit defaultMaxHttp1BodyBytes) headers body.rawBytes body.rawTruncated <;> rfl

/-- The view of a body behind the worker's step. -/
structure Settled (env : DecodingEnv Value) (body : HookBody Value) : Prop where
  processed : body.status ≠ .pending
  bounded : body.bytes.length ≤ min body.decodeLimit defaultMaxHttp1BodyBytes
  json : JsonAgrees env body

theorem decodeFully_settled (body : HookBody Value) : Settled env (decodeFully env headers body noBody) := by
  have hview : (decodedView env headers body.toCapturedBody noBody).2 ≠ .pending ∧
      (decodedView env headers body.toCapturedBody noBody).1.length ≤ min body.decodeLimit defaultMaxHttp1BodyBytes := by
    unfold decodedView
    split
    · exact ⟨by simp, Nat.zero_le _⟩
    · have hbounded := @decode_bounded _ env (min body.decodeLimit defaultMaxHttp1BodyBytes) headers body.rawBytes
        body.rawTruncated
      split
      · next view hdecode =>
        rw [hdecode] at hbounded
        refine ⟨?_, hbounded.1⟩
        intro hpending
        rcases hbounded.2 with hstatus | hstatus <;> simp [hpending] at hstatus
      · next status hdecode =>
        rw [hdecode] at hbounded
        exact ⟨hbounded.1, Nat.zero_le _⟩
  rw [decodeFully_eq]
  exact ⟨hview.1, hview.2, rfl⟩

/-- Decoding a prepared body is its full decode, ready or not. -/
theorem decodeBody_eq_fully (hprepared : Prepared env headers body) :
    decodeBody env headers body noBody = decodeFully env headers body noBody := by
  unfold decodeBody
  split
  · next hready => exact (decodeFully_of_ready hprepared hready).symm
  · rfl

theorem decodeBody_settled (hprepared : Prepared env headers body) :
    Settled env (decodeBody env headers body noBody) := by
  rw [decodeBody_eq_fully hprepared]
  exact decodeFully_settled body

/-- Decoding a body again changes nothing. -/
theorem decodeBody_idempotent (body : HookBody Value) :
    decodeBody env headers (decodeBody env headers body noBody) noBody = decodeBody env headers body noBody := by
  unfold decodeBody
  split
  · rfl
  · split
    · rfl
    · -- Neither of the two is ready: the second decode reads the same capture as the first.
      rw [decodeFully_eq (decodeFully env headers body noBody), decodeFully_eq body]
      rfl

/-- What was captured is not touched. -/
structure SameCapture (before after : HookBody Value) : Prop where
  rawBytes : after.rawBytes = before.rawBytes
  rawTruncated : after.rawTruncated = before.rawTruncated
  decodeLimit : after.decodeLimit = before.decodeLimit

theorem decodeBody_sameCapture (body : HookBody Value) : SameCapture body (decodeBody env headers body noBody) := by
  unfold decodeBody
  split
  · exact ⟨rfl, rfl, rfl⟩
  · rw [decodeFully_eq]
    exact ⟨rfl, rfl, rfl⟩

theorem decodeExchange_idempotent (exchange : HookExchange Flow Value) :
    decodeExchange env (decodeExchange env exchange) = decodeExchange env exchange := by
  unfold decodeExchange mapBodies
  rw [decodeBody_idempotent]
  simp only [responseHasNoBody, decodeBody_idempotent]

/-- The worker's step decodes both bodies, also when it takes the fast path. -/
theorem workerStep_eq (exchange : HookExchange Flow Value) : workerStep env exchange = decodeExchange env exchange := by
  unfold workerStep
  split
  · rfl
  · next hready =>
    simp only [requiresProcessing, Bool.or_eq_true, Bool.not_eq_true', not_or, Bool.not_eq_false] at hready
    simp only [decodeExchange, mapBodies, decodeBody, hready.1, hready.2, if_true]

/-- The exchange as the relay sees it, without structured views. -/
def HookExchange.toHttpExchange (exchange : HookExchange Flow Value) : HttpExchange Flow :=
  ⟨exchange.flow, exchange.request, exchange.requestBody.toCapturedBody, exchange.response,
    exchange.responseBody.toCapturedBody⟩

private theorem capturedBody_relay (bytes : Bytes) (complete : Bool) (limit : Nat) :
    (capturedBody env bytes complete limit).toCapturedBody = Relay.capturedBody bytes complete limit := by
  cases complete <;> rfl

private theorem prepareBody_relay (body : HookBody Value) :
    (prepareBody env headers body).toCapturedBody = Relay.ContentDecoder.prepareBody headers body.toCapturedBody := by
  unfold prepareBody Relay.ContentDecoder.prepareBody
  split <;> rfl

section Exchanges
variable (env) (flow : Flow) (request : Request) (response : Response) (requestBytes responseBytes : Bytes)
  (requestComplete responseComplete : Bool) (requestLimit responseLimit : Nat)

/-- The worker receives the exchange that the relay captured. -/
theorem submitCapturedExchange_relay (requestBytesForwarded responseBytesForwarded : Nat)
    (requestError responseError : Option TransparentFlowError) :
    (submitCapturedExchange env flow request response (capturedBody env requestBytes requestComplete requestLimit)
      (capturedBody env responseBytes responseComplete responseLimit)).toHttpExchange =
    capturedExchange flow request response
      ⟨Relay.capturedBody requestBytes requestComplete requestLimit, requestBytesForwarded, requestError⟩
      ⟨Relay.capturedBody responseBytes responseComplete responseLimit, responseBytesForwarded, responseError⟩ := by
  simp only [HookExchange.toHttpExchange, submitCapturedExchange, capturedExchange, prepareBody_relay, capturedBody_relay]

end Exchanges

/-- An exchange that the relay submits: any heads, captures and limits. -/
def Submitted (env : DecodingEnv Value) (exchange : HookExchange Flow Value) : Prop :=
  ∃ requestBytes requestComplete requestLimit responseBytes responseComplete responseLimit,
    exchange = submitCapturedExchange env exchange.flow exchange.request exchange.response
      (capturedBody env requestBytes requestComplete requestLimit)
      (capturedBody env responseBytes responseComplete responseLimit)

/-- Observation decoding of every exchange that the relay submits. When the worker takes the fast path, the full decode
of both bodies would give the same exchange. Behind the worker's step both views are settled, heads and captures are
unchanged, and decoding again changes nothing. -/
theorem worker_observation {exchange : HookExchange Flow Value} (h : Submitted env exchange) :
    (requiresProcessing exchange = false →
      workerStep env exchange = exchange ∧ mapBodies (decodeFully env) exchange = exchange) ∧
    Settled env (workerStep env exchange).requestBody ∧ Settled env (workerStep env exchange).responseBody ∧
    SameCapture exchange.requestBody (workerStep env exchange).requestBody ∧
    SameCapture exchange.responseBody (workerStep env exchange).responseBody ∧
    (workerStep env exchange).request = exchange.request ∧ (workerStep env exchange).response = exchange.response ∧
    decodeExchange env (workerStep env exchange) = workerStep env exchange := by
  obtain ⟨_, _, _, _, _, _, hexchange⟩ := h
  have hrequest : Prepared env exchange.request.headers exchange.requestBody := by
    rw [hexchange]
    exact prepared ..
  have hresponse : Prepared env exchange.response.headers exchange.responseBody := by
    rw [hexchange]
    exact prepared ..
  rw [workerStep_eq exchange]
  refine ⟨?_, decodeBody_settled hrequest, decodeBody_settled hresponse, decodeBody_sameCapture _,
    decodeBody_sameCapture _, rfl, rfl, decodeExchange_idempotent exchange⟩
  intro hfast
  refine ⟨(workerStep_eq exchange).symm.trans (if_neg (by simp [hfast])), ?_⟩
  simp only [requiresProcessing, Bool.or_eq_false_iff, Bool.not_eq_false'] at hfast
  unfold mapBodies
  rw [decodeFully_of_ready hrequest hfast.1, decodeFully_of_ready hresponse hfast.2]


section Sample

/-- The empty JSON array is parsed, and no decompressor is asked. -/
def sampleEnv : DecodingEnv Unit where
  fromSlice bytes := if bytes = ascii "[]" then some () else none
  Reader := Unit
  newReader _ _ := none
  read reader _ := (.ok [], reader)
  read_length := by
    rintro _ n bytes h
    obtain rfl := Except.ok.inj h
    exact Nat.zero_le n
  expired _ := false

def jsonAnswer : Response := ⟨200, .http11, ⟨[(ascii "content-encoding", ascii "identity")]⟩⟩

/-- A truncated identity answer to a request without body. -/
def readyExchange : HookExchange Unit Unit :=
  submitCapturedExchange sampleEnv () getRequest jsonAnswer (capturedBody sampleEnv [] true 16)
    (capturedBody sampleEnv (ascii " []") false 16)

theorem worker_observation_ready : requiresProcessing readyExchange = false ∧
    workerStep sampleEnv readyExchange = readyExchange ∧ readyExchange.responseBody.json = some () := by
  have hready : requiresProcessing readyExchange = false := by decide
  have hsubmitted : Submitted sampleEnv readyExchange := ⟨[], true, 16, ascii " []", false, 16, rfl⟩
  exact ⟨hready, ((worker_observation hsubmitted).1 hready).1, by decide⟩

end Sample
end Abyss.Mitm.Hook
