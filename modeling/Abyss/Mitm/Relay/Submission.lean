import Abyss.Mitm.Http.CanonicalHead
import Abyss.Mitm.Relay.Transparency

/-! Hook submission. An exchange is submitted once its response is complete and the
client has taken everything before the final attempt; how that attempt and the
shutdown behind it end only decides the result of the relay. -/
namespace Abyss.Mitm.Relay
open Abyss.Stream Abyss.Mitm.Http

section Flow
variable {Flow : Type}

/-- The request reached the upstream and the head of its response was decoded; `flow'` is the flow behind
the request. -/
def Answered (httparse : Httparse) (types : HttpTypes) (parser : ChunkSizeParser) (flow : DecodedClientFlow Flow)
    (upstream : Duplex) (maxBodyBytes : Nat) (flow' : DecodedClientFlow Flow) (response : DecodedUpstreamResponse)
    (requestCapture : MessageCapture) : Prop :=
  ∃ upstreamWriter rest,
    decodeResponseFromUpstream httparse types { upstream with writer := upstreamWriter } = (.ok response, rest) ∧
    flow' = { flow with stream := flow'.stream } ∧
    if isWebsocketUpgradeRequest flow.firstRequest then
      ∃ requestHead requestHeadBytes, websocketRequestHeadBytes flow.firstRequest = .ok requestHead ∧
        forwardWebsocketRequestHead upstream.writer requestHead = (.ok requestHeadBytes, upstreamWriter) ∧
        flow'.stream = flow.stream ∧ requestCapture = emptyMessageCapture requestHeadBytes
    else forwardRequest parser flow.stream upstream.writer flow.firstRequest flow.requestHeadBuffer maxBodyBytes =
      (.ok requestCapture, flow'.stream, upstreamWriter)

/-- The upstream completes a response body and the client takes the head and every piece before the
last one; `client` is its stream before the final attempt. The counters are those of the code. -/
structure Delivers (parser : ChunkSizeParser) (flow : DecodedClientFlow Flow) (response : DecodedUpstreamResponse)
    (framing : BodyFraming) (earlier : List Bytes) (last payload : Bytes) (client : Writer) : Prop where
  framed : responseBodyFraming flow.firstRequest.method response.head = .ok framing
  completes : ∃ reader', Completes parser framing response.headBuffer.bufferedBody response.stream.reader earlier last
    payload reader'
  taken : flow.stream.writer.writeEach .writeZero (response.headBuffer.headBytes :: earlier) = (none, client)
  countable : (earlier.flatten ++ last).length < u64Bound
  counted : (finalWrite framing client last).2.accepted.length - flow.stream.writer.accepted.length < u64Bound

/-- How a relay ends behind its final client attempt: a failed attempt is its result, else the client
stream is shut down, and a failed shutdown is its result unless the Agent only closed its connection. -/
def Closes (attempt : Option ErrorKind × Writer) (relayed : Relayed Flow) : Prop :=
  match attempt with
  | (some source, client) =>
    relayed.client.writer = client ∧ relayed.result = .error (.io .writeAgentResponseBody source)
  | (none, client) => relayed.client.writer = client.shutdown.2 ∧
    match client.shutdown.1 with
    | none => ∃ outcome, relayed.result = .ok outcome
    | some source =>
      if (TransparentFlowError.io .shutdownAgent source).isAgentConnectionClose then
        ∃ outcome, relayed.result = .ok outcome
      else relayed.result = .error (.io .shutdownAgent source)

section Response
variable {parser : ChunkSizeParser} {flow : DecodedClientFlow Flow} {response : DecodedUpstreamResponse}
  {framing : BodyFraming} {earlier : List Bytes} {last payload : Bytes} {client : Writer}

/-- A write of the head and the earlier pieces, cut behind the head. -/
theorem writeEach_head {writer writer' : Writer} {head : Bytes} {pieces : List Bytes}
    (h : writer.writeEach .writeZero (head :: pieces) = (none, writer')) :
    ∃ writer₁, writer.writeAll .writeZero head = (none, writer₁) ∧
      writer₁.writeEach .writeZero pieces = (none, writer') := by
  simp only [Sink.writeEach] at h
  split at h
  · cases h
  · next writer₁ hw => exact ⟨writer₁, hw, h⟩

/-- What the final attempt on a client adds to the capture. -/
theorem afterAttempt_response (capture : BodyCapture) (failure : Option ErrorKind)
    (hnone : capture.agentWriteError = none) :
    capture.afterAttempt .response failure =
      .ok { capture with agentWriteError := failure.map (.io .writeAgentResponseBody) } := by
  cases failure with
  | none =>
    obtain ⟨body, forwardedBytes, agentWriteError⟩ := capture
    obtain rfl : agentWriteError = none := hnone
    rfl
  | some source => rfl

/-- The bytes a client has taken behind the final attempt. -/
theorem taken_length {writer : Writer} {head : Bytes}
    (htaken : writer.writeEach .writeZero (head :: earlier) = (none, client)) (hempty : framing = .empty → last = []) :
    (finalWrite framing client last).2.accepted.length = writer.accepted.length + (head.length +
      (earlier.flatten.length + ((finalWrite framing client last).2.accepted.length - client.accepted.length))) := by
  obtain ⟨done, left, -, hacc, -⟩ := finalWrite_accepted framing client last hempty
  have hlen := congrArg List.length (Sink.writeEach_none htaken)
  rw [hacc]
  simp only [List.flatten_cons, List.length_append] at hlen ⊢
  omega

/-- Forwarding a response that is delivered up to its final attempt returns the complete capture,
whatever becomes of the attempt. -/
theorem Delivers.forwardResponse (h : Delivers parser flow response framing earlier last payload client)
    (maxBodyBytes : Nat) :
    ∃ bodyCapture client₁ reader', Captures payload maxBodyBytes (earlier.flatten ++ last) bodyCapture ∧
      checkedSub bodyCapture.forwardedBytes last.length = .ok earlier.flatten.length ∧
      flow.stream.writer.writeAll .writeZero response.headBuffer.headBytes = (none, client₁) ∧
      forwardBody parser response.stream.reader client₁ framing response.headBuffer.bufferedBody maxBodyBytes .response =
        ((lastStep framing .response bodyCapture client last).1, reader',
          (lastStep framing .response bodyCapture client last).2) ∧
      Relay.forwardResponse parser response.stream.reader flow.stream.writer flow.firstRequest response.head
          response.headBuffer maxBodyBytes =
        (.ok ⟨bodyCapture.body, (finalWrite framing client last).2.accepted.length - flow.stream.writer.accepted.length,
          (finalWrite framing client last).1.map (.io .writeAgentResponseBody)⟩, reader',
          (finalWrite framing client last).2) := by
  obtain ⟨hframed, ⟨reader', hcomp⟩, htaken, hlen, hcounted⟩ := h
  obtain ⟨client₁, hhead, hearly⟩ := writeEach_head htaken
  obtain ⟨bodyCapture, hcap, hforward⟩ := hcomp.forwardBody hlen maxBodyBytes .response
  have hbody := hforward client₁
  simp only [hearly] at hbody
  obtain ⟨-, -, -, -, hcount, hnone, -⟩ := id hcap
  rw [List.length_append] at hcount
  have hsub : checkedSub bodyCapture.forwardedBytes last.length = .ok earlier.flatten.length := by
    rw [checkedSub_of_le (by omega), hcount, Nat.add_sub_cancel]
  refine ⟨bodyCapture, client₁, reader', hcap, hsub, hhead, hbody, ?_⟩
  have hlast := lastStep_eq framing .response bodyCapture client last hcount
    (by rw [hcount, ← List.length_append]; exact hlen) hcomp.last_empty
  rw [afterAttempt_response _ _ (by exact hnone)] at hlast
  rw [hlast] at hbody
  have htotal : (finalWrite framing client last).2.accepted.length - flow.stream.writer.accepted.length =
      response.headBuffer.headBytes.length + (earlier.flatten.length +
        ((finalWrite framing client last).2.accepted.length - client.accepted.length)) :=
    Nat.sub_eq_of_eq_add' (taken_length htaken hcomp.last_empty)
  unfold Relay.forwardResponse
  simp only [writeAllFor_ok.mpr hhead, hframed, hbody]
  refine Prod.ext (messageCapture_ok.mpr ⟨?_, ?_⟩) rfl
  · rw [htotal] at hcounted
    exact hcounted
  · rw [htotal]
    rfl

/-- Forwarding returns a capture only where a response was delivered up to its final attempt. -/
theorem forwardResponse_delivers {upstream' : Reader} {client' : Writer} {maxBodyBytes : Nat} {capture : MessageCapture}
    (h : forwardResponse parser response.stream.reader flow.stream.writer flow.firstRequest response.head
      response.headBuffer maxBodyBytes = (.ok capture, upstream', client')) :
    ∃ framing earlier last payload client, Delivers parser flow response framing earlier last payload client := by
  obtain ⟨framing, body, client₁, hframed, hhead, hbody, hlt, -⟩ := forwardResponse_ok h
  obtain ⟨earlier, last, payload, bodyCapture, client, hcomp, hcap, hearly, hlast⟩ := forwardBody_ok hbody
  obtain ⟨-, -, -, -, hcount, hnone, hlen⟩ := hcap
  rw [List.length_append] at hcount
  have htaken : flow.stream.writer.writeEach .writeZero (response.headBuffer.headBytes :: earlier) = (none, client) := by
    simp only [Sink.writeEach, hhead, hearly]
  rw [lastStep_eq framing .response bodyCapture client last hcount
    (by rw [hcount, ← List.length_append]; exact hlen) hcomp.last_empty,
    afterAttempt_response _ _ (by exact hnone)] at hlast
  obtain ⟨hresult, rfl⟩ := Prod.mk.inj hlast
  obtain rfl := Except.ok.inj hresult
  refine ⟨framing, earlier, last, payload, client, hframed, ⟨upstream', hcomp⟩, htaken, hlen, ?_⟩
  rw [Nat.sub_eq_of_eq_add' (taken_length htaken hcomp.last_empty)]
  exact hlt

theorem forwardHttpResponseAndSubmit_ok {requestCapture responseCapture : MessageCapture} {maxBodyBytes : Nat}
    {reader' : Reader} {client' : Writer}
    (hforward : Relay.forwardResponse parser response.stream.reader flow.stream.writer flow.firstRequest response.head
      response.headBuffer maxBodyBytes = (.ok responseCapture, reader', client')) :
    forwardHttpResponseAndSubmit parser flow response requestCapture maxBodyBytes =
      ⟨(closeResult responseCapture client').1.map (fun _ => relayOutcome (capturedExchange flow.context
          flow.firstRequest response.head requestCapture responseCapture) requestCapture responseCapture),
        { flow.stream with writer := (closeResult responseCapture client').2 },
        { response.stream with reader := reader' },
        [⟨capturedExchange flow.context flow.firstRequest response.head requestCapture responseCapture,
          (closeResult responseCapture client').2⟩]⟩ := by
  simp only [forwardHttpResponseAndSubmit, hforward]

theorem closeResult_accepted (capture : MessageCapture) (client : Writer) :
    (closeResult capture client).2.accepted = client.accepted := by
  unfold closeResult
  split
  · rfl
  · unfold shutdownCompletedAgentStream
    have hsame := Sink.shutdown_accepted client
    split
    · next hshutdown => rwa [hshutdown] at hsame
    · next hshutdown => rwa [hshutdown] at hsame

/-- The close behind the final attempt, as the relay reports it. -/
theorem closeResult_closes {capture : MessageCapture} {attempt : Option ErrorKind × Writer}
    (hattempt : capture.agentWriteError = attempt.1.map (.io .writeAgentResponseBody)) (outcome : RelayOutcome)
    (reader : Reader) (upstream : Duplex) (submitted : List (Submission Flow)) :
    Closes attempt ⟨(closeResult capture attempt.2).1.map (fun _ => outcome),
      ⟨reader, (closeResult capture attempt.2).2⟩, upstream, submitted⟩ := by
  obtain ⟨failure, client⟩ := attempt
  cases failure with
  | some source =>
    simp only [closeResult, hattempt]
    exact ⟨rfl, rfl⟩
  | none =>
    simp only [closeResult, hattempt, Closes, shutdownCompletedAgentStream, Option.map_none]
    cases hshutdown : client.shutdown with
    | mk failure client₁ =>
      cases failure with
      | none => exact ⟨rfl, outcome, rfl⟩
      | some source =>
        refine ⟨rfl, ?_⟩
        simp only
        split
        · exact ⟨outcome, rfl⟩
        · rfl

/-- A delivered response is submitted behind the attempt that ends the relay. -/
theorem Delivers.submit (h : Delivers parser flow response framing earlier last payload client)
    (requestCapture : MessageCapture) (maxBodyBytes : Nat) {responseCapture : MessageCapture} {reader' : Reader}
    (hforward : Relay.forwardResponse parser response.stream.reader flow.stream.writer flow.firstRequest response.head
      response.headBuffer maxBodyBytes = (.ok responseCapture, reader', (finalWrite framing client last).2))
    (hattempt : responseCapture.agentWriteError =
      (finalWrite framing client last).1.map (.io .writeAgentResponseBody))
    (hcount : responseCapture.forwardedBytes =
      (finalWrite framing client last).2.accepted.length - flow.stream.writer.accepted.length) :
    let relayed := forwardHttpResponseAndSubmit parser flow response requestCapture maxBodyBytes
    let exchange := capturedExchange flow.context flow.firstRequest response.head requestCapture responseCapture
    relayed.submitted = [⟨exchange, relayed.client.writer⟩] ∧
    relayed.client.writer.accepted.length = flow.stream.writer.accepted.length + responseCapture.forwardedBytes ∧
    (∀ outcome, relayed.result = .ok outcome → outcome = relayOutcome exchange requestCapture responseCapture) ∧
    Closes (finalWrite framing client last) relayed := by
  intro relayed exchange
  obtain ⟨reader₁, hcomp⟩ := h.completes
  have htaken := @taken_length framing _ last _ _ _ h.taken hcomp.last_empty
  have hrelayed := @forwardHttpResponseAndSubmit_ok _ _ _ _ requestCapture _ _ _ _ hforward
  refine ⟨?_, ?_, ?_, ?_⟩
  · simp only [relayed, exchange, hrelayed]
  · simp only [relayed, hrelayed, closeResult_accepted, hcount]
    omega
  · intro outcome houtcome
    simp only [relayed, hrelayed] at houtcome
    cases hclose : (closeResult responseCapture (finalWrite framing client last).2).1 with
    | error e =>
      rw [hclose] at houtcome
      cases houtcome
    | ok done =>
      rw [hclose] at houtcome
      exact (Except.ok.inj houtcome).symm
  · simp only [relayed, hrelayed]
    exact closeResult_closes hattempt _ _ _ _

/-- A response that is not delivered up to its final attempt is not submitted. -/
theorem submitted_of_not_delivers (requestCapture : MessageCapture) (maxBodyBytes : Nat)
    (h : ¬ ∃ framing earlier last payload client, Delivers parser flow response framing earlier last payload client) :
    (forwardHttpResponseAndSubmit parser flow response requestCapture maxBodyBytes).submitted = [] := by
  unfold forwardHttpResponseAndSubmit
  split
  · rfl
  · next hforward => exact absurd (forwardResponse_delivers hforward) h

end Response

section Exchange
variable {httparse : Httparse} {types : HttpTypes} {parser : ChunkSizeParser} (websocket : WebSocketRelay Flow)
  {flow : DecodedClientFlow Flow} {upstream : Duplex} {maxBodyBytes : Nat}

/-- Behind its request and a response head, a flow that stays HTTP forwards the response. -/
theorem Answered.relayTo {flow' : DecodedClientFlow Flow} {response : DecodedUpstreamResponse}
    {requestCapture : MessageCapture}
    (h : Answered httparse types parser flow upstream maxBodyBytes flow' response requestCapture)
    (hhttp : isWebsocketUpgradeRequest flow.firstRequest = true → response.head.status ≠ 101) :
    Relay.relayTo httparse types parser websocket flow upstream maxBodyBytes =
      forwardHttpResponseAndSubmit parser flow' response requestCapture maxBodyBytes := by
  obtain ⟨upstreamWriter, rest, hdecode, hflow, hrequest⟩ := h
  unfold Relay.relayTo
  split
  · next hws =>
    rw [if_pos hws] at hrequest
    obtain ⟨requestHead, requestHeadBytes, hhead, hforward, hstream, rfl⟩ := hrequest
    rw [hstream] at hflow
    subst hflow
    simp only [relayWebsocketTo, hhead, hforward, hdecode, if_pos (hhttp hws)]
  · next hws =>
    rw [if_neg hws] at hrequest
    rw [hflow]
    simp only [relayPlainHttpTo, hrequest, hdecode]

/-- A flow without a decoded response head submits nothing. -/
theorem submitted_of_not_answered
    (h : ∀ flow' response requestCapture,
      ¬ Answered httparse types parser flow upstream maxBodyBytes flow' response requestCapture) :
    (Relay.relayTo httparse types parser websocket flow upstream maxBodyBytes).submitted = [] := by
  unfold Relay.relayTo
  split
  · next hws =>
    unfold relayWebsocketTo
    split
    · rfl
    · next requestHead hhead =>
      split
      · rfl
      · next requestHeadBytes upstreamWriter hforward =>
        split
        · rfl
        · next response rest hdecode =>
          refine absurd ⟨upstreamWriter, rest, hdecode, rfl, ?_⟩ (h flow response (emptyMessageCapture requestHeadBytes))
          rw [if_pos hws]
          exact ⟨requestHead, requestHeadBytes, hhead, hforward, rfl, rfl⟩
  · next hws =>
    unfold relayPlainHttpTo
    split
    · rfl
    · next requestCapture client upstreamWriter hforward =>
      split
      · rfl
      · next response rest hdecode =>
        refine absurd ⟨upstreamWriter, rest, hdecode, rfl, ?_⟩ (h { flow with stream := client } response requestCapture)
        rw [if_neg hws]
        exact hforward

end Exchange

/-- Hook submission of an HTTP exchange: once where the response is delivered up to its final attempt, and
not at all otherwise. The submission carries the complete capture and the client stream behind the last
call on it, the count is what the client accepted, and the lowered count of the last piece never
underflows. -/
theorem relayTo_submits_once (httparse : Httparse) (types : HttpTypes) (parser : ChunkSizeParser)
    (websocket : WebSocketRelay Flow) (flow : DecodedClientFlow Flow) (upstream : Duplex) (maxBodyBytes : Nat) :
    let relayed := relayTo httparse types parser websocket flow upstream maxBodyBytes
    (∀ flow' response requestCapture,
      Answered httparse types parser flow upstream maxBodyBytes flow' response requestCapture →
      (isWebsocketUpgradeRequest flow.firstRequest = true → response.head.status ≠ 101) →
      ((∃ submission, relayed.submitted = [submission]) ↔
        ∃ framing earlier last payload client, Delivers parser flow' response framing earlier last payload client) ∧
      (relayed.submitted = [] ↔
        ¬ ∃ framing earlier last payload client, Delivers parser flow' response framing earlier last payload client) ∧
      ∀ framing earlier last payload client, Delivers parser flow' response framing earlier last payload client →
        ∃ bodyCapture responseCapture client₁ reader',
          Captures payload maxBodyBytes (earlier.flatten ++ last) bodyCapture ∧
          checkedSub bodyCapture.forwardedBytes last.length = .ok earlier.flatten.length ∧
          flow'.stream.writer.writeAll .writeZero response.headBuffer.headBytes = (none, client₁) ∧
          forwardBody parser response.stream.reader client₁ framing response.headBuffer.bufferedBody maxBodyBytes
              .response = ((lastStep framing .response bodyCapture client last).1, reader',
            (lastStep framing .response bodyCapture client last).2) ∧
          responseCapture.body = bodyCapture.body ∧
          relayed.submitted = [⟨capturedExchange flow.context flow.firstRequest response.head requestCapture
            responseCapture, relayed.client.writer⟩] ∧
          relayed.client.writer.accepted.length =
            flow'.stream.writer.accepted.length + responseCapture.forwardedBytes ∧
          (∀ outcome, relayed.result = .ok outcome →
            outcome.upstreamToClientBytes = responseCapture.forwardedBytes) ∧
          Closes (finalWrite framing client last) relayed) ∧
    ((∀ flow' response requestCapture,
      ¬ Answered httparse types parser flow upstream maxBodyBytes flow' response requestCapture) →
      relayed.submitted = []) := by
  intro relayed
  refine ⟨?_, submitted_of_not_answered websocket⟩
  intro flow' response requestCapture hanswered hhttp
  have hrelayed : relayed = forwardHttpResponseAndSubmit parser flow' response requestCapture maxBodyBytes :=
    hanswered.relayTo websocket hhttp
  obtain ⟨_, _, _, hflow, _⟩ := hanswered
  have hall : ∀ framing earlier last payload client,
      Delivers parser flow' response framing earlier last payload client →
      ∃ bodyCapture responseCapture client₁ reader',
        Captures payload maxBodyBytes (earlier.flatten ++ last) bodyCapture ∧
        checkedSub bodyCapture.forwardedBytes last.length = .ok earlier.flatten.length ∧
        flow'.stream.writer.writeAll .writeZero response.headBuffer.headBytes = (none, client₁) ∧
        forwardBody parser response.stream.reader client₁ framing response.headBuffer.bufferedBody maxBodyBytes
            .response = ((lastStep framing .response bodyCapture client last).1, reader',
          (lastStep framing .response bodyCapture client last).2) ∧
        responseCapture.body = bodyCapture.body ∧
        relayed.submitted = [⟨capturedExchange flow.context flow.firstRequest response.head requestCapture
          responseCapture, relayed.client.writer⟩] ∧
        relayed.client.writer.accepted.length =
          flow'.stream.writer.accepted.length + responseCapture.forwardedBytes ∧
        (∀ outcome, relayed.result = .ok outcome →
          outcome.upstreamToClientBytes = responseCapture.forwardedBytes) ∧
        Closes (finalWrite framing client last) relayed := by
    intro framing earlier last payload client hdelivers
    obtain ⟨bodyCapture, client₁, reader', hcap, hsub, hhead, hbody, hforward⟩ := hdelivers.forwardResponse maxBodyBytes
    obtain ⟨hsubmitted, hcount, houtcome, hcloses⟩ := hdelivers.submit requestCapture maxBodyBytes hforward rfl rfl
    rw [← hrelayed] at hsubmitted hcount houtcome hcloses
    refine ⟨bodyCapture, _, client₁, reader', hcap, hsub, hhead, hbody, rfl, ?_, hcount, ?_, hcloses⟩
    · rw [hsubmitted, hflow]
    · intro outcome hok
      rw [houtcome outcome hok]
      rfl
  have hnone := @submitted_of_not_delivers Flow parser flow' response requestCapture maxBodyBytes
  rw [← hrelayed] at hnone
  refine ⟨⟨?_, ?_⟩, ⟨?_, hnone⟩, hall⟩
  · intro hsubmitted
    by_contra hnot
    obtain ⟨submission, hone⟩ := hsubmitted
    rw [hnone hnot] at hone
    cases hone
  · intro hdelivers
    obtain ⟨framing, earlier, last, payload, client, hdelivers⟩ := hdelivers
    obtain ⟨_, _, _, _, -, -, -, -, -, hone, -⟩ := hall framing earlier last payload client hdelivers
    exact ⟨_, hone⟩
  · intro hempty hdelivers
    obtain ⟨framing, earlier, last, payload, client, hdelivers⟩ := hdelivers
    obtain ⟨_, _, _, _, -, -, -, -, -, hone, -⟩ := hall framing earlier last payload client hdelivers
    rw [hempty] at hone
    cases hone

/-- On the plain path a forwarded request and a decoded response head are an answer. -/
theorem answered_of_isOk {httparse : Httparse} {types : HttpTypes} {parser : ChunkSizeParser}
    {flow : DecodedClientFlow Flow} {upstream : Duplex} {maxBodyBytes : Nat}
    (hplain : isWebsocketUpgradeRequest flow.firstRequest = false)
    (hrequest : (forwardRequest parser flow.stream upstream.writer flow.firstRequest flow.requestHeadBuffer
      maxBodyBytes).1.isOk = true)
    (hresponse : (decodeResponseFromUpstream httparse types { upstream with writer := (forwardRequest parser flow.stream
      upstream.writer flow.firstRequest flow.requestHeadBuffer maxBodyBytes).2.2 }).1.isOk = true) :
    ∃ flow' response requestCapture,
      Answered httparse types parser flow upstream maxBodyBytes flow' response requestCapture := by
  generalize hforward : forwardRequest parser flow.stream upstream.writer flow.firstRequest flow.requestHeadBuffer
    maxBodyBytes = forwarded at *
  obtain ⟨result, client, upstreamWriter⟩ := forwarded
  generalize hdecode : decodeResponseFromUpstream httparse types { upstream with writer := upstreamWriter } = decoded at *
  obtain ⟨answer, rest⟩ := decoded
  cases result with
  | error e => cases hrequest
  | ok requestCapture =>
    cases answer with
    | error e => cases hresponse
    | ok response =>
      refine ⟨{ flow with stream := client }, response, requestCapture, upstreamWriter, rest, hdecode, rfl, ?_⟩
      rw [hplain]
      exact hforward

end Flow

/-- A client that takes one write and fails the next. -/
def closingWriter : Writer := ⟨[], [.accept 64, .fail .brokenPipe], [], []⟩

theorem originGet_length : 18 ≤ (ascii "GET / HTTP/1.1\r\n\r\n").length := by decide

/-- A request without a body from a client that closes behind the first write. -/
def closingGet : DecodedClientFlow Unit :=
  ⟨⟨endedReader, closingWriter⟩, (), getRequest, ⟨ascii "GET / HTTP/1.1\r\n\r\n", 18, originGet_length⟩⟩

def boundedAnswerHead : Bytes := ascii "HTTP/1.1 200 OK\r\nContent-Length: 2\r\n\r\n"

/-- An upstream that answers with a two-byte body of declared length. -/
def boundedUpstream : Duplex :=
  ⟨⟨[⟨boundedAnswerHead, by decide⟩, ⟨ascii "ok", by decide⟩], none⟩, willingWriter⟩

theorem relayTo_submits_once_closed_client :
    ∃ flow' response requestCapture framing earlier last payload client,
      Answered plainHttparse originTypes plainSizeParser closingGet boundedUpstream 16 flow' response requestCapture ∧
      Delivers plainSizeParser flow' response framing earlier last payload client ∧
      Closes (finalWrite framing client last)
        (relayTo plainHttparse originTypes plainSizeParser noWebSocket closingGet boundedUpstream 16) := by
  obtain ⟨flow', response, requestCapture, hanswered⟩ := @answered_of_isOk Unit plainHttparse originTypes plainSizeParser
    closingGet boundedUpstream 16 (by decide +kernel) (by decide +kernel) (by decide +kernel)
  have hplain : isWebsocketUpgradeRequest closingGet.firstRequest = false := by decide
  have hone : (relayTo plainHttparse originTypes plainSizeParser noWebSocket closingGet boundedUpstream
      16).submitted.length = 1 := by decide +kernel
  obtain ⟨hiff, -, hall⟩ := (relayTo_submits_once plainHttparse originTypes plainSizeParser noWebSocket closingGet
    boundedUpstream 16).1 flow' response requestCapture hanswered (by rw [hplain]; intro h; cases h)
  obtain ⟨framing, earlier, last, payload, client, hdelivers⟩ := hiff.mp (List.length_eq_one_iff.mp hone)
  obtain ⟨_, _, _, _, -, -, -, -, -, -, -, -, hcloses⟩ := hall framing earlier last payload client hdelivers
  exact ⟨flow', response, requestCapture, framing, earlier, last, payload, client, hanswered, hdelivers, hcloses⟩

def endlessAnswerHead : Bytes := ascii "HTTP/1.1 200 OK\r\n\r\n"

/-- An upstream whose body ends with its stream. -/
def endlessUpstream : Duplex :=
  ⟨⟨[⟨endlessAnswerHead, by decide⟩, ⟨ascii "ok", by decide⟩], none⟩, willingWriter⟩

/-- The final write of a body that ends with its stream fails, and the exchange is not submitted although
the upstream has sent the complete response and the client took everything before that write. -/
theorem untilEof_final_write_not_submitted :
    (parseResponseHead plainHttparse originTypes).run endlessUpstream.reader.contents =
      .complete ⟨200, .http11, ⟨[]⟩⟩ endlessAnswerHead.length ∧
    responseBodyFraming getRequest.method ⟨200, .http11, ⟨[]⟩⟩ = .ok .untilEof ∧
    endlessUpstream.reader.contents = endlessAnswerHead ++ ascii "ok" ∧ endlessUpstream.reader.ending = none ∧
    (relayTo plainHttparse originTypes plainSizeParser noWebSocket closingGet endlessUpstream
      16).client.writer.accepted = endlessAnswerHead ∧
    (relayTo plainHttparse originTypes plainSizeParser noWebSocket closingGet endlessUpstream
      16).upstream.reader.contents = [] ∧
    (relayTo plainHttparse originTypes plainSizeParser noWebSocket closingGet endlessUpstream 16).result.map
      (fun _ => ()) = .error (.io .writeAgentResponseBody .brokenPipe) ∧
    (relayTo plainHttparse originTypes plainSizeParser noWebSocket closingGet endlessUpstream
      16).submitted.length = 0 := by
  decide +kernel

end Abyss.Mitm.Relay
