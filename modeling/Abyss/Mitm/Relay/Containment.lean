import Abyss.Mitm.Http.CanonicalHead
import Abyss.Mitm.Relay.ChunkedFeeds
import Abyss.Mitm.Relay.Transparency

/-! No byte behind the first request message reaches the upstream: a read that
brings surplus bytes is rejected before any of it is written. -/
namespace Abyss.Mitm.Relay
open Abyss.Stream Abyss.Mitm.Http

/-- A read is withheld: it brought bytes behind the message, or it exhausts the byte counter. -/
def PieceWithheld (wire seen : Bytes) (direction : BodyDirection) (e : TransparentFlowError) : Prop :=
  (wire.length < seen.length ∧ (e = pipelinedError direction ∨ e = bodyError direction .headerTooLarge)) ∨
  (u64Bound ≤ seen.length ∧ e = .byteCountOverflow)

section Bodies
variable {parser : ChunkSizeParser} {framing : BodyFraming} {bufferedBody : Bytes} {reader : Reader}

private theorem front_of_longer {x y t : Bytes} (hx : x <+: t) (hy : y <+: t) (h : x.length < y.length) : x <+: y :=
  List.prefix_of_prefix_length_le hx hy (Nat.le_of_lt h)

/-- The pieces passed on before a verdict lie inside the message. -/
theorem Judges.earlier_front {maxBodyBytes : Nat} {direction : BodyDirection} {plan : BodyPlan}
    (h : Judges parser framing bufferedBody reader maxBodyBytes direction plan) (hf : framing ≠ .untilEof)
    {wire payload tail : Bytes} (hbody : WireBody parser framing wire payload)
    (hstream : bufferedBody ++ reader.contents = wire ++ tail) : plan.earlier.flatten <+: wire := by
  obtain ⟨earlier, verdict, rest⟩ := plan
  have hwire : wire <+: bufferedBody ++ reader.contents := hstream ▸ List.prefix_append ..
  -- An unfinished part of the stream is shorter than every message on it.
  have hopen : ∀ more, bufferedBody ++ reader.contents = earlier.flatten ++ more →
      Unfinished parser framing earlier.flatten → earlier.flatten <+: wire := by
    intro more hall hunf
    rw [hall] at hwire
    exact front_of_longer (List.prefix_append ..) hwire (hunf more wire payload hbody hwire)
  cases verdict with
  | decided piece decision =>
    cases decision with
    | done capture =>
      obtain ⟨payload', hcomp, -⟩ := h
      obtain ⟨hbody', hstream', -⟩ := hcomp.wire
      rw [hstream'] at hwire
      rw [(hbody.unique hf hbody' hwire (List.prefix_append ..)).1]
      exact List.prefix_append ..
    | fail e =>
      obtain ⟨-, hunf, ⟨reads, hreads, hpieces⟩, -⟩ := h
      rcases hunf hf with hunf | ⟨hnil, -⟩
      · refine hopen (piece ++ rest.contents) ?_ hunf
        have hflat := congrArg List.flatten hpieces
        rw [Decoder.pieces_flatten] at hflat
        rw [hreads.contents.1, ← List.append_assoc, hflat]
        simp
      · obtain rfl : earlier = [] := hnil
        exact List.nil_prefix
    | spoil e => exact absurd h.1 hf
  | ended result =>
    cases result with
    | ok capture => exact absurd h.1 hf
    | error e =>
      obtain ⟨-, hunf, hall⟩ := h
      exact hopen [] (by rw [hall, List.append_nil]) hunf
  | broken source =>
    obtain ⟨-, hall, hunf⟩ := h
    exact hopen [] (by rw [hall, List.append_nil]) (hunf hf)

/-- A stream that starts with a message is either read up to its end, or a read is withheld. -/
theorem Judges.verdict {maxBodyBytes : Nat} {direction : BodyDirection} {plan : BodyPlan}
    (h : Judges parser framing bufferedBody reader maxBodyBytes direction plan) (hf : framing ≠ .untilEof)
    {wire payload tail : Bytes} (hbody : WireBody parser framing wire payload)
    (hstream : bufferedBody ++ reader.contents = wire ++ tail) :
    (∃ last capture, plan.verdict = .decided last (.done capture) ∧ wire = plan.earlier.flatten ++ last ∧
      plan.rest.contents = tail ∧ capture.forwardedBytes = wire.length ∧ wire.length < u64Bound ∧
      (framing = .empty → last = [])) ∨
    (∃ piece e, plan.verdict = .decided piece (.fail e) ∧
      bufferedBody ++ reader.contents = plan.earlier.flatten ++ piece ++ plan.rest.contents ∧
      (plan.earlier.flatten.length < wire.length ∨ plan.earlier = []) ∧
      PieceWithheld wire (plan.earlier.flatten ++ piece) direction e) := by
  obtain ⟨earlier, verdict, rest⟩ := plan
  have hwire : wire <+: bufferedBody ++ reader.contents := hstream ▸ List.prefix_append ..
  -- A message on the stream ends inside it.
  have hends : Unfinished parser framing earlier.flatten → bufferedBody ++ reader.contents ≠ earlier.flatten := by
    intro hunf hall
    rw [hall] at hwire
    have hlt := hunf [] wire payload hbody (by rwa [List.append_nil])
    exact absurd hwire.length_le (Nat.not_le.mpr hlt)
  cases verdict with
  | decided piece decision =>
    cases decision with
    | done capture =>
      obtain ⟨payload', hcomp, hcap⟩ := h
      obtain ⟨hbody', hstream', -⟩ := hcomp.wire
      have hsame : wire = earlier.flatten ++ piece :=
        (hbody.unique hf hbody' hwire (hstream' ▸ List.prefix_append ..)).1
      have htail : rest.contents = tail := by
        rw [hstream, hsame] at hstream'
        exact (List.append_cancel_left hstream').symm
      obtain ⟨-, -, -, -, hcount, -, hlen⟩ := hcap
      exact .inl ⟨piece, capture, rfl, hsame, htail, hsame ▸ hcount, hsame ▸ hlen, hcomp.last_empty⟩
    | fail e =>
      obtain ⟨-, hunf, ⟨reads, hreads, hpieces⟩, hw⟩ := h
      have hall : bufferedBody ++ reader.contents = earlier.flatten ++ piece ++ rest.contents := by
        have hflat := congrArg List.flatten hpieces
        rw [Decoder.pieces_flatten] at hflat
        rw [hreads.contents.1, ← List.append_assoc, hflat]
        simp
      refine .inr ⟨piece, e, rfl, hall, ?_, ?_⟩
      · rcases hunf hf with hunf | ⟨hnil, -⟩
        · rw [hall, List.append_assoc] at hwire
          exact .inl (hunf _ wire payload hbody hwire)
        · exact .inr hnil
      · rcases hw with ⟨rfl, hover⟩ | hw
        · exact .inr ⟨hover, rfl⟩
        · exact .inl (hw rest.contents wire payload hbody (hall ▸ hwire))
    | spoil e => exact absurd h.1 hf
  | ended result =>
    cases result with
    | ok capture => exact absurd h.1 hf
    | error e =>
      obtain ⟨-, hunf, hall⟩ := h
      exact absurd hall (hends hunf)
  | broken source =>
    obtain ⟨-, hall, hunf⟩ := h
    exact absurd hall (hends (hunf hf))

/-- How far a request body gets: up to its end, up to a failed write, or up to a withheld read. -/
def BodyContained (wire stream tail written : Bytes) (result : Except TransparentFlowError BodyCapture)
    (rest : Reader) : Prop :=
  (written = wire ∧ rest.contents = tail ∧ ∃ capture, result = .ok capture) ∨
  (∃ source, result = .error (.io .writeProviderRequestBody source)) ∨
  (∃ earlier piece e, result = .error e ∧ stream = List.flatten earlier ++ piece ++ rest.contents ∧
    written = earlier.flatten ∧ (earlier.flatten.length < wire.length ∨ earlier = []) ∧
    PieceWithheld wire (earlier.flatten ++ piece) .request e)

/-- Whatever the peer does, only bytes of the request message reach it. -/
theorem forwardBody_contained (hf : framing ≠ .untilEof) (writer : Writer) (maxBodyBytes : Nat) :
    ∃ written, (forwardBody parser reader writer framing bufferedBody maxBodyBytes .request).2.2.accepted =
        writer.accepted ++ written ∧
      ∀ wire payload tail, WireBody parser framing wire payload →
        bufferedBody ++ reader.contents = wire ++ tail → written <+: wire ∧
        BodyContained wire (bufferedBody ++ reader.contents) tail written
          (forwardBody parser reader writer framing bufferedBody maxBodyBytes .request).1
          (forwardBody parser reader writer framing bufferedBody maxBodyBytes .request).2.1 := by
  obtain ⟨hresult, hwriter, hrest⟩ := forwardBody_follows parser reader writer framing bufferedBody maxBodyBytes .request
  have hjudge := bodyPlan_judges parser reader framing bufferedBody maxBodyBytes .request
  generalize bodyPlan parser reader framing bufferedBody maxBodyBytes .request = plan at *
  rw [hresult, hwriter]
  unfold replay
  cases hearly : writer.writeEach .writeZero plan.earlier with
  | mk failure writer₁ =>
    cases failure with
    | some source =>
      obtain ⟨done, hdone, hacc⟩ := Sink.writeEach_accepted .writeZero writer plan.earlier
      rw [hearly] at hacc
      refine ⟨done, hacc, fun wire payload tail hbody hstream => ⟨?_, ?_⟩⟩
      · exact hdone.trans (hjudge.earlier_front hf hbody hstream)
      · exact .inr (.inl ⟨source, rfl⟩)
    | none =>
      have hacc₁ := Sink.writeEach_none hearly
      rw [hrest writer₁ hearly]
      have hverdict := fun wire payload tail => @Judges.verdict _ _ _ _ _ _ _ hjudge hf wire payload tail
      obtain ⟨earlier, verdict, rest⟩ := plan
      cases verdict with
      | decided piece decision =>
        cases decision with
        | done capture =>
          obtain ⟨payload₀, hcomp, -, -, -, -, hcount, -, hlen⟩ := hjudge
          obtain ⟨done, left, hsplit, hacc, hall⟩ := finalWrite_accepted framing writer₁ piece hcomp.last_empty
          simp only [replayVerdict]
          rw [lastStep_eq framing .request capture writer₁ piece (hcount.trans List.length_append)
            (hcount ▸ hlen) hcomp.last_empty]
          refine ⟨earlier.flatten ++ done, by rw [hacc, hacc₁, List.append_assoc], ?_⟩
          intro wire payload tail hbody hstream
          rcases hverdict wire payload tail hbody hstream with
            ⟨last, capture', hv, hwire, htail, -⟩ | ⟨_, _, hv, -⟩
          · injection hv with hlast
            subst hlast
            refine ⟨?_, ?_⟩
            · rw [hwire, hsplit, ← List.append_assoc]
              exact List.prefix_append ..
            · cases hfinal : (finalWrite framing writer₁ piece).1 with
              | none =>
                refine .inl ⟨?_, htail, _, rfl⟩
                rw [hwire, hsplit, hall hfinal, List.append_nil]
              | some source => exact .inr (.inl ⟨source, rfl⟩)
          · cases hv
        | fail e =>
          refine ⟨earlier.flatten, hacc₁, ?_⟩
          intro wire payload tail hbody hstream
          refine ⟨hjudge.earlier_front hf hbody hstream, ?_⟩
          rcases hverdict wire payload tail hbody hstream with ⟨_, _, hv, -⟩ | ⟨piece', e', hv, hall, hin, hw⟩
          · cases hv
          · cases hv
            exact .inr (.inr ⟨earlier, piece, e, rfl, hall, rfl, hin, hw⟩)
        | spoil e => exact absurd hjudge.1 hf
      | ended result =>
        refine ⟨earlier.flatten, hacc₁, ?_⟩
        intro wire payload tail hbody hstream
        rcases hverdict wire payload tail hbody hstream with ⟨_, _, hv, -⟩ | ⟨_, _, hv, -⟩ <;> cases hv
      | broken source =>
        refine ⟨earlier.flatten, hacc₁, ?_⟩
        intro wire payload tail hbody hstream
        rcases hverdict wire payload tail hbody hstream with ⟨_, _, hv, -⟩ | ⟨_, _, hv, -⟩ <;> cases hv

end Bodies

theorem requestBodyFraming_inside {request : Request} {framing : BodyFraming}
    (h : requestBodyFraming request = .ok framing) : framing ≠ .untilEof := by
  unfold requestBodyFraming at h
  split at h
  · cases h
    simp
  · cases hl : contentLength request.headers with
    | error e => simp [hl, bind, Except.bind] at h
    | ok length =>
      simp only [hl, bind, Except.bind, pure, Except.pure] at h
      split at h <;> cases h <;> simp

section Requests
variable {parser : ChunkSizeParser}

theorem writeAllFor_accepted (operation : FlowOperation) (writer : Writer) (bytes : Bytes) :
    ∃ done, done <+: bytes ∧ (writeAllFor operation writer bytes).2.accepted = writer.accepted ++ done := by
  obtain ⟨done, left, hsplit, hacc, -⟩ := Sink.writeAll_accepted .writeZero writer bytes
  refine ⟨done, hsplit ▸ List.prefix_append .., ?_⟩
  unfold writeAllFor
  split
  · next w hw =>
    rw [hw] at hacc
    exact hacc
  · next e w hw =>
    rw [hw] at hacc
    exact hacc

theorem flushFor_accepted (operation : FlowOperation) (writer : Writer) :
    (flushFor operation writer).2.accepted = writer.accepted := by
  unfold flushFor
  have hflush := Sink.flush_accepted writer
  split
  · next w hw => simpa [hw] using hflush
  · next e w hw => simpa [hw] using hflush

/-- A request whose framing or head is refused writes nothing. -/
theorem forwardRequest_refused {request : Request} {headBuffer : Http1HeadBuffer}
    (h : ∀ framing head, requestBodyFraming request = .ok framing →
      requestHeadForRelay request headBuffer (handleExpectContinue request framing) ≠ .ok head)
    (client : Duplex) (upstream : Writer) (maxBodyBytes : Nat) :
    (forwardRequest parser client upstream request headBuffer maxBodyBytes).2.2 = upstream := by
  unfold forwardRequest
  split
  · rfl
  · next framing hframing =>
    split
    · rfl
    · next head hhead => exact absurd hhead (h framing head hframing)

end Requests

section Flows
variable {Flow : Type} (httparse : Httparse) (types : HttpTypes) (parser : ChunkSizeParser)

theorem submit_streams (flow : DecodedClientFlow Flow) (response : DecodedUpstreamResponse)
    (requestCapture : MessageCapture) (maxBodyBytes : Nat) :
    (forwardHttpResponseAndSubmit parser flow response requestCapture maxBodyBytes).upstream.writer =
        response.stream.writer ∧
    (forwardHttpResponseAndSubmit parser flow response requestCapture maxBodyBytes).client.reader =
        flow.stream.reader := by
  unfold forwardHttpResponseAndSubmit
  split <;> exact ⟨rfl, rfl⟩

theorem decode_writer {upstream upstream' : Duplex} {response : DecodedUpstreamResponse}
    (h : decodeResponseFromUpstream httparse types upstream = (.ok response, upstream')) :
    response.stream.writer = upstream.writer := by
  unfold decodeResponseFromUpstream at h
  split at h
  · simp at h
  · simp only [Prod.mk.injEq, Except.ok.injEq] at h
    obtain ⟨rfl, -⟩ := h
    rfl

/-- On the plain path everything written upstream is written while the request is forwarded. -/
theorem relayPlainHttpTo_request (flow : DecodedClientFlow Flow) (upstream : Duplex) (maxBodyBytes : Nat) :
    let forwarded := forwardRequest parser flow.stream upstream.writer flow.firstRequest flow.requestHeadBuffer maxBodyBytes
    let relayed := relayPlainHttpTo httparse types parser flow upstream maxBodyBytes
    relayed.upstream.writer = forwarded.2.2 ∧ relayed.client.reader = forwarded.2.1.reader ∧
      ∀ e, forwarded.1 = .error e → relayed.result = .error e := by
  intro forwarded relayed
  have hrel : relayed = relayPlainHttpTo httparse types parser flow upstream maxBodyBytes := rfl
  unfold relayPlainHttpTo at hrel
  cases hf : forwardRequest parser flow.stream upstream.writer flow.firstRequest flow.requestHeadBuffer maxBodyBytes with
  | mk result streams =>
    have hforwarded : forwarded = (result, streams) := hf
    rw [hforwarded]
    cases result with
    | error e =>
      simp only [hf] at hrel
      rw [hrel]
      exact ⟨rfl, rfl, fun e' he => by cases he; rfl⟩
    | ok requestCapture =>
      simp only [hf] at hrel
      refine ⟨?_, ?_, fun e he => by cases he⟩
      · rw [hrel]
        split
        · next e upstream' hd =>
          unfold decodeResponseFromUpstream at hd
          split at hd <;> simp only [Prod.mk.injEq] at hd
          · rw [← hd.2]
          · cases hd.1
        · next response upstream' hd =>
          rw [(submit_streams parser _ response requestCapture maxBodyBytes).1, decode_writer httparse types hd]
      · rw [hrel]
        split
        · rfl
        · next response upstream' hd => exact (submit_streams parser _ response requestCapture maxBodyBytes).2

end Flows

section Trailers
variable {parser : ChunkSizeParser}

namespace ChunkedBodyCapture

end ChunkedBodyCapture

end Trailers

/-- A request without a body, read together with the first byte of the next one. -/
def pipelinedGet : DecodedClientFlow Unit :=
  ⟨⟨endedReader, willingWriter⟩, (), getRequest, ⟨ascii "GET / HTTP/1.1\r\n\r\nG", 18, by decide⟩⟩

section TrailerUpload
variable {fields : Fragment UInt8}

end TrailerUpload

end Abyss.Mitm.Relay
