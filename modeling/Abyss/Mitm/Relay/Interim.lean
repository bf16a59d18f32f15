import Abyss.Mitm.Relay.Submission

/-! Interim responses. The relay takes the first head of the upstream for the answer,
so a final response is delivered exactly when no informational head precedes it. -/
namespace Abyss.Mitm.Relay
open Abyss.Stream Abyss.Mitm.Http

/-- The bytes of one response head, with what they decode to. -/
structure HeadOf (parseHead : Incremental UInt8 Response Http1Error) where
  bytes : Bytes
  response : Response
  parsed : parseHead.run bytes = .complete response bytes.length
  nonempty : bytes ≠ []

/-- `StatusCode::is_informational`. -/
def isInformational (status : Nat) : Bool := 100 ≤ status && status < 200

section Flow
variable {Flow : Type}

/-- The client received `bytes` before its stream was shut down, and the one submitted exchange carries
`response`. What a relay may write in front of the bytes is left open. -/
def FinalDelivered (client : Writer) (response : Response) (bytes : Bytes) (relayed : Relayed Flow) : Prop :=
  (∃ delivered : Writer, client.StaysOpen delivered ∧ delivered.log <+: relayed.client.writer.log ∧
    ∃ interim, delivered.accepted = client.accepted ++ interim ++ bytes) ∧
  ∃ submission, relayed.submitted = [submission] ∧ submission.exchange.response = response

section Decoding
variable {httparse : Httparse} {types : HttpTypes} {upstream rest : Duplex} {response : DecodedUpstreamResponse}

/-- The decoded response is the first head of the stream, and everything behind it is kept. -/
theorem decoded_front (hdecode : decodeResponseFromUpstream httparse types upstream = (.ok response, rest))
    (head : HeadOf (parseResponseHead httparse types)) {tail : Bytes}
    (hstream : upstream.reader.contents = head.bytes ++ tail) :
    response.head = head.response ∧ response.headBuffer.headBytes = head.bytes ∧
    response.headBuffer.bufferedBody ++ response.stream.reader.contents = tail ∧
    response.stream.reader.ending = upstream.reader.ending := by
  unfold decodeResponseFromUpstream at hdecode
  split at hdecode
  · simp at hdecode
  · next value headBuffer reader hread =>
    simp only [Prod.mk.injEq, Except.ok.injEq] at hdecode
    obtain ⟨rfl, -⟩ := hdecode
    obtain ⟨hrun, hcontents, hending⟩ := readHttp1Head_ok _ _ hread
    rw [List.nil_append, hstream] at hcontents
    have hfirst := (parseResponseHead httparse types).complete_append tail head.parsed
    rw [hcontents, (parseResponseHead httparse types).complete_append _ hrun, Answer.complete.injEq] at hfirst
    obtain ⟨hhead, hlen⟩ := hfirst
    have hparts : head.bytes ++ tail = headBuffer.headBytes ++ (headBuffer.bufferedBody ++ reader.contents) := by
      rw [hcontents, ← List.append_assoc, headBuffer.parts]
    have hsize : headBuffer.headBytes.length = head.bytes.length := by
      rw [Http1HeadBuffer.headBytes, List.length_take_of_le headBuffer.within, hlen]
    obtain ⟨hbytes, htail⟩ := List.append_inj hparts hsize.symm
    exact ⟨hhead, hbytes.symm, htail.symm, hending⟩

/-- A bounded head at the front of the stream is decoded. -/
theorem decode_front (head : HeadOf (parseResponseHead httparse types)) {tail : Bytes}
    (hstream : upstream.reader.contents = head.bytes ++ tail) (hbounded : head.bytes.length ≤ maxHttp1HeaderBytes) :
    ∃ response rest, decodeResponseFromUpstream httparse types upstream = (.ok response, rest) := by
  have hrun : (parseResponseHead httparse types).run ([] ++ upstream.reader.contents) =
      .complete head.response head.bytes.length := by
    rw [List.nil_append, hstream]
    exact (parseResponseHead httparse types).complete_append tail head.parsed
  obtain ⟨headBuffer, reader', hread, -⟩ := readHttp1Head_complete _ .incompleteResponse hrun hbounded
    (List.length_pos_of_ne_nil head.nonempty)
  unfold decodeResponseFromUpstream
  rw [hread]
  exact ⟨_, _, rfl⟩

end Decoding

section Relay
variable {parser : ChunkSizeParser} {flow : DecodedClientFlow Flow} {response : DecodedUpstreamResponse}
  {requestCapture : MessageCapture} {maxBodyBytes : Nat}

/-- Whatever is submitted carries the decoded response head. -/
theorem submitted_response {submission : Submission Flow}
    (h : submission ∈ (forwardHttpResponseAndSubmit parser flow response requestCapture maxBodyBytes).submitted) :
    submission.exchange.response = response.head := by
  unfold forwardHttpResponseAndSubmit at h
  split at h
  · cases h
  · obtain rfl := List.mem_singleton.mp h
    rfl

theorem finalWrite_open (framing : BodyFraming) (writer : Writer) (last : Bytes) :
    writer.StaysOpen (finalWrite framing writer last).2 := by
  cases framing with
  | empty => exact writer.flush_open
  | contentLength length => exact writer.writeAll_open .writeZero last
  | chunked => exact writer.writeAll_open .writeZero last
  | untilEof => exact writer.writeAll_open .writeZero last

theorem Closes.log {attempt : Option ErrorKind × Writer} {relayed : Relayed Flow} (h : Closes attempt relayed) :
    attempt.2.log <+: relayed.client.writer.log := by
  obtain ⟨failure, client⟩ := attempt
  cases failure with
  | some source =>
    rw [h.1]
  | none =>
    rw [h.1]
    exact List.prefix_append ..

variable {framing : BodyFraming} {earlier : List Bytes} {last payload : Bytes} {client : Writer}

/-- Behind the final attempt a client whose writes succeed holds the head and the wire bytes. -/
theorem taken_accepted {writer : Writer} {head : Bytes} (hw : writer.WritesSucceed)
    (htaken : writer.writeEach .writeZero (head :: earlier) = (none, client)) (hempty : framing = .empty → last = []) :
    (finalWrite framing client last).2.accepted = writer.accepted ++ (head ++ (earlier.flatten ++ last)) := by
  obtain ⟨client', htaken', hw'⟩ := hw.writeEach .writeZero (head :: earlier)
  obtain rfl : client = client' := (Prod.mk.inj (htaken.symm.trans htaken')).2
  rw [finalWrite_succeeds hw' hempty, Sink.writeEach_none htaken, List.flatten_cons]
  simp only [List.append_assoc]

/-- A response at the end of its stream is delivered to a client whose writes succeed, if its bytes can be
counted. -/
theorem forward_final {wire : Bytes} (hw : flow.stream.writer.WritesSucceed)
    (hframed : responseBodyFraming flow.firstRequest.method response.head = .ok framing)
    (hbody : WireBody parser framing wire payload)
    (hstream : response.headBuffer.bufferedBody ++ response.stream.reader.contents = wire)
    (hend : framing = .untilEof → response.stream.reader.ending = none)
    (hlen : (response.headBuffer.headBytes ++ wire).length < u64Bound) :
    FinalDelivered flow.stream.writer response.head (response.headBuffer.headBytes ++ wire)
      (forwardHttpResponseAndSubmit parser flow response requestCapture maxBodyBytes) := by
  have hwire : wire.length < u64Bound := by
    rw [List.length_append] at hlen
    omega
  obtain ⟨earlier, last, reader', hcomp, rfl⟩ := completes_of_wire hbody hstream hwire hend
  obtain ⟨client, htaken, -⟩ := hw.writeEach .writeZero (response.headBuffer.headBytes :: earlier)
  have haccepted := taken_accepted hw htaken hcomp.last_empty
  have hdelivers : Delivers parser flow response framing earlier last payload client := by
    refine ⟨hframed, ⟨reader', hcomp⟩, htaken, hwire, ?_⟩
    rw [haccepted, List.length_append, Nat.add_sub_cancel_left]
    exact hlen
  obtain ⟨bodyCapture, client₁, reader₁, -, -, -, -, hforward⟩ := hdelivers.forwardResponse maxBodyBytes
  obtain ⟨hsubmitted, -, -, hcloses⟩ := hdelivers.submit requestCapture maxBodyBytes hforward rfl rfl
  refine ⟨⟨(finalWrite framing client last).2, ?_, hcloses.log, [], ?_⟩, _, hsubmitted, rfl⟩
  · have hopen := flow.stream.writer.writeEach_open .writeZero (response.headBuffer.headBytes :: earlier)
    rw [htaken] at hopen
    exact hopen.trans (finalWrite_open framing client last)
  · rw [haccepted, List.append_nil]

/-- A response that was submitted for a client whose writes succeed could be counted. -/
theorem countable_of_submitted {wire : Bytes} (hw : flow.stream.writer.WritesSucceed)
    (hframed : responseBodyFraming flow.firstRequest.method response.head = .ok framing)
    (hbody : WireBody parser framing wire payload)
    (hstream : response.headBuffer.bufferedBody ++ response.stream.reader.contents = wire)
    (h : (forwardHttpResponseAndSubmit parser flow response requestCapture maxBodyBytes).submitted ≠ []) :
    (response.headBuffer.headBytes ++ wire).length < u64Bound := by
  by_contra hover
  refine h (submitted_of_not_delivers requestCapture maxBodyBytes ?_)
  rintro ⟨framing', earlier, last, payload', client, hdelivers⟩
  obtain rfl : framing' = framing := Except.ok.inj (hdelivers.framed.symm.trans hframed)
  obtain ⟨reader', hcomp⟩ := hdelivers.completes
  have hcounted := hdelivers.counted
  rw [taken_accepted hw hdelivers.taken hcomp.last_empty, List.length_append, Nat.add_sub_cancel_left] at hcounted
  obtain ⟨hbody', hfront, -⟩ := hcomp.wire
  have hwire : earlier.flatten ++ last = wire := by
    by_cases hf : framing' = .untilEof
    · rw [← hcomp.untilEof_wire hf, hstream]
    · refine (hbody'.unique hf hbody (t := wire) ?_ (List.prefix_refl _)).1
      rw [← hstream, hfront]
      exact List.prefix_append ..
  rw [hwire] at hcounted
  exact hover hcounted

/-- The submitted exchange of a stream that starts with a given head carries that head. -/
theorem submitted_first {httparse : Httparse} {types : HttpTypes} {upstream rest : Duplex}
    (hdecode : decodeResponseFromUpstream httparse types upstream = (.ok response, rest))
    (head : HeadOf (parseResponseHead httparse types)) {tail : Bytes}
    (hstream : upstream.reader.contents = head.bytes ++ tail) {submission : Submission Flow}
    (h : submission ∈ (forwardHttpResponseAndSubmit parser flow response requestCapture maxBodyBytes).submitted) :
    submission.exchange.response = head.response := by
  rw [submitted_response h]
  exact (decoded_front hdecode head hstream).1

end Relay

/-- Behind a forwarded request, a stream of informational heads and one final response is relayed as that
final response exactly when there is no informational head and the bytes of the response can be counted. -/
theorem relayTo_delivers_final_iff (httparse : Httparse) (types : HttpTypes) (parser : ChunkSizeParser)
    (websocket : WebSocketRelay Flow) (flow : DecodedClientFlow Flow) (upstream : Duplex) (maxBodyBytes : Nat)
    (interims : List (HeadOf (parseResponseHead httparse types))) (final : HeadOf (parseResponseHead httparse types))
    {framing : BodyFraming} {wire payload : Bytes} {requestCapture : MessageCapture} {client : Duplex}
    {upstreamWriter : Writer} (hplain : isWebsocketUpgradeRequest flow.firstRequest = false)
    (hrequest : forwardRequest parser flow.stream upstream.writer flow.firstRequest flow.requestHeadBuffer maxBodyBytes =
      (.ok requestCapture, client, upstreamWriter))
    (hclient : client.writer.WritesSucceed)
    (hinterims : ∀ head ∈ interims, isInformational head.response.status = true ∧ head.response.status ≠ 101)
    (hfinal : isInformational final.response.status = false) (hbounded : final.bytes.length ≤ maxHttp1HeaderBytes)
    (hframed : responseBodyFraming flow.firstRequest.method final.response = .ok framing)
    (hbody : WireBody parser framing wire payload)
    (hstream : upstream.reader.contents = (interims.map HeadOf.bytes).flatten ++ (final.bytes ++ wire))
    (hend : framing = .untilEof → upstream.reader.ending = none) :
    FinalDelivered client.writer final.response (final.bytes ++ wire)
      (relayTo httparse types parser websocket flow upstream maxBodyBytes) ↔
    interims = [] ∧ (final.bytes ++ wire).length < u64Bound := by
  have hrelay : ∀ {response rest},
      decodeResponseFromUpstream httparse types { upstream with writer := upstreamWriter } = (.ok response, rest) →
      relayTo httparse types parser websocket flow upstream maxBodyBytes =
        forwardHttpResponseAndSubmit parser { flow with stream := client } response requestCapture maxBodyBytes := by
    intro response rest hdecode
    simp only [relayTo, hplain, Bool.false_eq_true, if_false, relayPlainHttpTo, hrequest, hdecode]
  have hnone : (∀ response rest, decodeResponseFromUpstream httparse types { upstream with writer := upstreamWriter } ≠
      (.ok response, rest)) → (relayTo httparse types parser websocket flow upstream maxBodyBytes).submitted = [] := by
    intro hno
    simp only [relayTo, hplain, Bool.false_eq_true, if_false, relayPlainHttpTo, hrequest]
    split
    · rfl
    · next hdecode => exact absurd hdecode (hno _ _)
  cases interims with
  | nil =>
    obtain ⟨response, rest, hdecode⟩ := @decode_front httparse types { upstream with writer := upstreamWriter } final
      wire hstream hbounded
    obtain ⟨hhead, hbytes, htail, hending⟩ := decoded_front hdecode final hstream
    rw [hrelay hdecode, ← hhead, ← hbytes]
    rw [← hhead] at hframed
    constructor
    · intro hdelivered
      obtain ⟨-, submission, hsubmitted, -⟩ := hdelivered
      have hne : (forwardHttpResponseAndSubmit parser { flow with stream := client } response requestCapture
          maxBodyBytes).submitted ≠ [] := by
        rw [hsubmitted]
        exact List.cons_ne_nil submission []
      exact ⟨rfl, @countable_of_submitted Flow parser { flow with stream := client } response requestCapture maxBodyBytes
        framing payload wire hclient hframed hbody htail hne⟩
    · intro hlen
      exact @forward_final Flow parser { flow with stream := client } response requestCapture maxBodyBytes framing payload
        wire hclient hframed hbody htail (fun hf => hending.trans (hend hf)) hlen.2
  | cons first more =>
    refine iff_of_false ?_ (by simp)
    rintro ⟨-, submission, hsubmitted, hresponse⟩
    have hfirst : upstream.reader.contents = first.bytes ++ ((more.map HeadOf.bytes).flatten ++ (final.bytes ++ wire)) := by
      rw [hstream, List.map_cons, List.flatten_cons, List.append_assoc]
    have hdecoded : ∃ response rest, decodeResponseFromUpstream httparse types
        { upstream with writer := upstreamWriter } = (.ok response, rest) := by
      by_contra hno
      rw [hnone (fun response rest hdecode => hno ⟨response, rest, hdecode⟩)] at hsubmitted
      cases hsubmitted
    obtain ⟨response, rest, hdecode⟩ := hdecoded
    rw [hrelay hdecode] at hsubmitted
    have hsame := submitted_first hdecode first hfirst (hsubmitted ▸ List.mem_singleton_self submission)
    rw [hresponse] at hsame
    rw [hsame, (hinterims first (List.mem_cons_self ..)).1] at hfinal
    cases hfinal

end Flow

/-- A request without a body from a client that takes everything. -/
def plainGet : DecodedClientFlow Unit :=
  ⟨⟨endedReader, willingWriter⟩, (), getRequest, ⟨ascii "GET / HTTP/1.1\r\n\r\n", 18, originGet_length⟩⟩

/-- The head of `boundedUpstream`. -/
def boundedAnswer : HeadOf (parseResponseHead plainHttparse originTypes) :=
  ⟨boundedAnswerHead, ⟨200, .http11, ⟨[(ascii "content-length", ascii "2")]⟩⟩, by decide, by decide⟩

theorem relayTo_delivers_final_bounded : ∃ client : Duplex,
    FinalDelivered client.writer boundedAnswer.response (boundedAnswer.bytes ++ ascii "ok")
      (relayTo plainHttparse originTypes plainSizeParser noWebSocket plainGet boundedUpstream 16) := by
  have hok : (forwardRequest plainSizeParser plainGet.stream boundedUpstream.writer plainGet.firstRequest
      plainGet.requestHeadBuffer 16).1.isOk = true := by decide +kernel
  have hwrites : (forwardRequest plainSizeParser plainGet.stream boundedUpstream.writer plainGet.firstRequest
      plainGet.requestHeadBuffer 16).2.1.writer.writes.length = 0 := by decide +kernel
  generalize hrequest : forwardRequest plainSizeParser plainGet.stream boundedUpstream.writer plainGet.firstRequest
    plainGet.requestHeadBuffer 16 = forwarded at hok hwrites
  obtain ⟨result, client, upstreamWriter⟩ := forwarded
  cases result with
  | error e => cases hok
  | ok requestCapture =>
    have hclient : client.writer.WritesSucceed := by
      intro reply hreply
      rw [List.length_eq_zero_iff.mp hwrites] at hreply
      cases hreply
    have hframed : responseBodyFraming plainGet.firstRequest.method boundedAnswer.response = .ok (.contentLength 2) := by
      decide
    have hbody : WireBody plainSizeParser (.contentLength 2) (ascii "ok") (ascii "ok") := ⟨by decide, rfl⟩
    have hiff := relayTo_delivers_final_iff plainHttparse originTypes plainSizeParser noWebSocket plainGet
      boundedUpstream 16 [] boundedAnswer (by decide) hrequest hclient (by simp) (by decide) (by decide) hframed
      hbody (by decide) (by simp)
    exact ⟨client, hiff.mpr ⟨rfl, by decide⟩⟩

/-- An informational head in front of the same answer. -/
def earlyHints : HeadOf (parseResponseHead plainHttparse originTypes) :=
  ⟨ascii "HTTP/1.1 103 Early Hints\r\n\r\n", ⟨103, .http11, ⟨[]⟩⟩, by decide, by decide⟩

def earlyHintsUpstream : Duplex :=
  ⟨⟨⟨earlyHints.bytes, earlyHints.nonempty⟩ :: boundedUpstream.reader.arrivals, none⟩, willingWriter⟩

/-- The relay delivers the informational head as the response and closes the client stream. -/
theorem early_hints_swallow_answer :
    earlyHintsUpstream.reader.contents = earlyHints.bytes ++ (boundedAnswer.bytes ++ ascii "ok") ∧
    isInformational earlyHints.response.status = true ∧ isInformational boundedAnswer.response.status = false ∧
    responseBodyFraming plainGet.firstRequest.method boundedAnswer.response = .ok (.contentLength 2) ∧
    (relayTo plainHttparse originTypes plainSizeParser noWebSocket plainGet earlyHintsUpstream
      16).client.writer.accepted = earlyHints.bytes ∧
    (relayTo plainHttparse originTypes plainSizeParser noWebSocket plainGet earlyHintsUpstream
      16).submitted.map (fun submission => submission.exchange.response.status) = [103] ∧
    ¬ FinalDelivered plainGet.stream.writer boundedAnswer.response (boundedAnswer.bytes ++ ascii "ok")
      (relayTo plainHttparse originTypes plainSizeParser noWebSocket plainGet earlyHintsUpstream 16) := by
  have hstatus : (relayTo plainHttparse originTypes plainSizeParser noWebSocket plainGet earlyHintsUpstream
      16).submitted.map (fun submission => submission.exchange.response.status) = [103] := by decide +kernel
  refine ⟨by decide, by decide, by decide, by decide +kernel, by decide +kernel, hstatus, ?_⟩
  rintro ⟨-, submission, hsubmitted, hresponse⟩
  rw [hsubmitted, List.map_singleton, hresponse] at hstatus
  exact absurd hstatus (by decide)

end Abyss.Mitm.Relay
