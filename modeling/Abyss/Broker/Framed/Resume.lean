import Abyss.Broker.Framed.Codec

/-! The partial frame that `FrameReadState` keeps between polls: which bytes it holds, and
what every poll makes of them. -/
namespace Abyss.Broker.Framed
open Abyss.Mitm (Bytes ErrorKind)
open Abyss.Stream
namespace FrameReadState

/-- The bytes of the unfinished frame that a state holds. -/
def front (st : FrameReadState) : Bytes :=
  match st.payloadLen with
  | none => st.header.take st.headerLen
  | some _ => st.header ++ st.payload.take st.payloadOffset

/-- A state that is reading the header of a frame. -/
structure InHeader (st : FrameReadState) : Prop where
  length_header : st.header.length = frameHeaderLen
  headerLen : st.headerLen ≤ frameHeaderLen
  payloadLen : st.payloadLen = none

/-- A state that is reading the payload its header announces. -/
structure InPayload (st : FrameReadState) (decoded : FlowFrameHeader) : Prop where
  length_header : st.header.length = frameHeaderLen
  headerLen : st.headerLen = frameHeaderLen
  payloadLen : st.payloadLen = some decoded.payloadLen
  decodes : FlowFrameHeader.decode st.header = .ok decoded
  length_payload : st.payload.length = decoded.payloadLen
  payloadOffset : st.payloadOffset ≤ decoded.payloadLen

theorem InHeader.front {st : FrameReadState} (h : InHeader st) : st.front = st.header.take st.headerLen := by
  simp [FrameReadState.front, h.payloadLen]

theorem InPayload.front {st : FrameReadState} {decoded : FlowFrameHeader} (h : InPayload st decoded) :
    st.front = st.header ++ st.payload.take st.payloadOffset := by
  simp [FrameReadState.front, h.payloadLen]

/-- The offsets and lengths of a state fit its buffers. -/
inductive WellFormed (st : FrameReadState) : Prop
  | header (h : InHeader st)
  | payload {decoded : FlowFrameHeader} (h : InPayload st decoded)

theorem wellFormed_new : WellFormed new := .header ⟨by simp [new], by simp [new], rfl⟩

theorem wellFormed_resetFrame (st : FrameReadState) : WellFormed st.resetFrame :=
  .header ⟨by simp [resetFrame], by simp [resetFrame], rfl⟩

/-- What a decoder has not yet turned into frames: the bytes it holds and the rest of its stream. -/
structure Awaits (bytes : Bytes) (ending : Option ErrorKind) (st : FrameReadState) (stream : Socket) : Prop where
  wellFormed : st.WellFormed
  bytes_eq : st.front ++ stream.contents = bytes
  ending_eq : stream.ending = ending

end FrameReadState

/-- The error of `FrameReadState` for a stream that stops. -/
def FrameFault.ioError : FrameFault → IoError
  | .broken e => .socket e
  | .cut _ (some e) => .socket e
  | .cut .header none => .message .unexpectedEof "EOF while reading frame header"
  | .cut .payload none => .message .unexpectedEof "EOF while reading frame payload"
  | .malformed e => Framed.ioError e

/-- The error of `FlowFrameCodec` for a stream that stops. -/
def FrameFault.protocolError : FrameFault → FlowProtocolError
  | .broken e => .io "read frame header" e
  | .cut .header ending => mapReadExactError "read frame header" (ending.getD .unexpectedEof)
  | .cut .payload ending => mapReadExactError "read frame payload" (ending.getD .unexpectedEof)
  | .malformed e => e

theorem length_overwrite {buffer items : Bytes} {offset : Nat} (h : offset + items.length ≤ buffer.length) :
    (overwrite buffer offset items).length = buffer.length := by
  simp only [overwrite, List.length_append, List.length_take, List.length_drop]
  omega

theorem take_overwrite {buffer items : Bytes} {offset : Nat} (h : offset ≤ buffer.length) :
    (overwrite buffer offset items).take (offset + items.length) = buffer.take offset ++ items := by
  have hlen : (buffer.take offset ++ items).length = offset + items.length := by
    rw [List.length_append, List.length_take]
    omega
  rw [overwrite, ← hlen, List.take_left]

namespace FrameReadState

/-- The state after header bytes arrived. -/
def tookHeader (st : FrameReadState) (items : Bytes) : FrameReadState :=
  { st with header := overwrite st.header st.headerLen items, headerLen := st.headerLen + items.length }

theorem InHeader.tookHeader {st : FrameReadState} {items : Bytes} (h : InHeader st)
    (hle : st.headerLen + items.length ≤ frameHeaderLen) :
    InHeader (st.tookHeader items) ∧ (st.tookHeader items).front = st.front ++ items := by
  have hlen := h.length_header
  have hin : InHeader (st.tookHeader items) :=
    ⟨(length_overwrite (by omega)).trans hlen, hle, h.payloadLen⟩
  exact ⟨hin, by rw [hin.front, h.front]; exact take_overwrite (by omega)⟩

/-- What one poll for header bytes can come to. -/
inductive HeaderPoll (st : FrameReadState) (stream : Socket) :
    Poll (Except IoError (Option Unit)) → FrameReadState → Socket → Prop
  | pending {stream' : Socket} (hc : stream'.contents = stream.contents) (he : stream'.ending = stream.ending)
      (hw : stream'.waits < stream.waits) : HeaderPoll st stream .pending st stream'
  | items {items : Bytes} {stream' : Socket} (hle : st.headerLen + items.length ≤ frameHeaderLen)
      (hc : stream.contents = items ++ stream'.contents) (he : stream'.ending = stream.ending)
      (hw : stream'.waits = stream.waits) :
      HeaderPoll st stream (.ready (.ok (some ()))) (st.tookHeader items) stream'
  | ended (hbytes : st.front ++ stream.contents = []) (he : stream.ending = none) :
      HeaderPoll st stream (.ready (.ok none)) st stream
  | failed {fault : FrameFault} (hstops : Stops (st.front ++ stream.contents) stream.ending fault) :
      HeaderPoll st stream (.ready (.error fault.ioError)) st stream

private theorem InHeader.stops {st : FrameReadState} (h : InHeader st) (hlt : st.headerLen < frameHeaderLen)
    (hpos : st.headerLen ≠ 0) (ending : Option ErrorKind) : Stops (st.front ++ []) ending (.cut .header ending) := by
  have hfront : (st.header.take st.headerLen).length = st.headerLen := by
    rw [List.length_take, h.length_header]
    omega
  rw [h.front, List.append_nil]
  apply Stops.inHeader
  · exact List.ne_nil_of_length_pos (by omega)
  · omega

theorem pollReadHeader_polls {st : FrameReadState} (stream : Socket) (h : InHeader st)
    (hlt : st.headerLen < frameHeaderLen) :
    HeaderPoll st stream (st.pollReadHeader stream).1 (st.pollReadHeader stream).2.1
      (st.pollReadHeader stream).2.2 := by
  have hlen := h.length_header
  have hpoll := @Polled.poll_polls _ _ stream (st.header.length - st.headerLen) (by omega)
  simp only [pollReadHeader]
  generalize stream.poll (st.header.length - st.headerLen) = answer at hpoll
  obtain ⟨result, stream'⟩ := answer
  cases hpoll with
  | pending hc he hw => exact .pending hc he hw
  | @items items _ hne hcap hc he hw =>
    have hle : st.headerLen + items.length ≤ frameHeaderLen := by omega
    have hadd := checkedAdd_of_le hle (by simp [frameHeaderLen, maxFramePayloadLen])
    have hpos : ¬ items.length = 0 := by simpa using hne
    simp only [hpos, if_false, hadd]
    exact .items hle hc he hw
  | ended hc he =>
    by_cases hzero : st.headerLen = 0
    · simp only [List.length_nil, if_true, hzero]
      exact .ended (by simp [h.front, hzero, hc]) he
    · simp only [List.length_nil, if_true, hzero, if_false]
      apply @HeaderPoll.failed _ _ (.cut .header none)
      rw [hc, he]
      exact h.stops hlt hzero none
  | @failed e hc he =>
    by_cases hzero : st.headerLen = 0
    · apply @HeaderPoll.failed _ _ (.broken e)
      rw [h.front, hc, he, hzero]
      exact .broken e
    · apply @HeaderPoll.failed _ _ (.cut .header (some e))
      rw [hc, he]
      exact h.stops hlt hzero (some e)

/-- What completing the header can come to. -/
inductive Fills (bytes : Bytes) (stream : Socket) :
    Poll (Except IoError (Option Unit)) → FrameReadState → Socket → Prop
  | pending {st' : FrameReadState} {stream' : Socket} (h : Awaits bytes stream.ending st' stream')
      (hwaits : stream'.waits < stream.waits) : Fills bytes stream .pending st' stream'
  | filled {st' : FrameReadState} {stream' : Socket} (h : Awaits bytes stream.ending st' stream')
      (hin : InHeader st') (hfull : st'.headerLen = frameHeaderLen) (hwaits : stream'.waits = stream.waits) :
      Fills bytes stream (.ready (.ok (some ()))) st' stream'
  | ended {st' : FrameReadState} {stream' : Socket} (h : Awaits bytes stream.ending st' stream')
      (hbytes : bytes = []) (hend : stream.ending = none) : Fills bytes stream (.ready (.ok none)) st' stream'
  | failed {fault : FrameFault} {st' : FrameReadState} {stream' : Socket} (h : Awaits bytes stream.ending st' stream')
      (hstops : Stops bytes stream.ending fault) : Fills bytes stream (.ready (.error fault.ioError)) st' stream'

private theorem Fills.after {bytes : Bytes} {stream next : Socket} {result : Poll (Except IoError (Option Unit))}
    {st' : FrameReadState} {stream' : Socket} (h : Fills bytes next result st' stream')
    (he : next.ending = stream.ending) (hw : next.waits = stream.waits) : Fills bytes stream result st' stream' := by
  cases h with
  | pending h hwaits => exact .pending (he ▸ h) (hw ▸ hwaits)
  | filled h hin hfull hwaits => exact .filled (he ▸ h) hin hfull (hw ▸ hwaits)
  | ended h hbytes hend => exact .ended (he ▸ h) hbytes (he ▸ hend)
  | failed h hstops => exact .failed (he ▸ h) (he ▸ hstops)

theorem fillHeader_fills {st : FrameReadState} (stream : Socket) (h : InHeader st) :
    Fills (st.front ++ stream.contents) stream (st.fillHeader stream).1 (st.fillHeader stream).2.1
      (st.fillHeader stream).2.2 := by
  fun_induction fillHeader st stream with
  | case1 st stream hlt st' stream' hpoll ih =>
    have hpolls := pollReadHeader_polls stream h hlt
    rw [hpoll] at hpolls
    cases hpolls with
    | @items items _ hle hc he hw =>
      obtain ⟨hin, hfront⟩ := h.tookHeader hle
      have hbytes : (st.tookHeader items).front ++ stream'.contents = st.front ++ stream.contents := by
        rw [hfront, List.append_assoc, hc]
      rw [← hbytes]
      exact (ih hin).after he hw
  | case2 st stream hlt hpoll =>
    have hpolls := pollReadHeader_polls stream h hlt
    generalize st.pollReadHeader stream = answer at hpolls hpoll
    obtain ⟨result, st', stream'⟩ := answer
    cases hpolls with
    | pending hc he hw => exact .pending ⟨.header h, by rw [hc], he⟩ hw
    | items => exact absurd rfl (hpoll _ _)
    | ended hbytes he => exact .ended ⟨.header h, rfl, rfl⟩ hbytes he
    | failed hstops => exact .failed ⟨.header h, rfl, rfl⟩ hstops
  | case3 st stream hge =>
    have hfull : st.headerLen = frameHeaderLen := Nat.le_antisymm h.headerLen (Nat.not_lt.mp hge)
    exact .filled ⟨.header h, rfl, rfl⟩ h hfull rfl

/-- The state after payload bytes arrived. -/
def tookPayload (st : FrameReadState) (items : Bytes) : FrameReadState :=
  { st with payload := overwrite st.payload st.payloadOffset items, payloadOffset := st.payloadOffset + items.length }

theorem InPayload.tookPayload {st : FrameReadState} {decoded : FlowFrameHeader} {items : Bytes}
    (h : InPayload st decoded) (hle : st.payloadOffset + items.length ≤ decoded.payloadLen) :
    InPayload (st.tookPayload items) decoded ∧ (st.tookPayload items).front = st.front ++ items := by
  have hlen := h.length_payload
  have hin : InPayload (st.tookPayload items) decoded :=
    { h with
      length_payload := (length_overwrite (by omega)).trans hlen
      payloadOffset := hle }
  refine ⟨hin, ?_⟩
  rw [hin.front, h.front, List.append_assoc]
  exact congrArg (st.header ++ ·) (take_overwrite (by omega))

/-- What completing the payload can come to. -/
inductive FillsPayload (decoded : FlowFrameHeader) (bytes : Bytes) (stream : Socket) :
    Poll (Except IoError Unit) → FrameReadState → Socket → Prop
  | pending {st' : FrameReadState} {stream' : Socket} (h : Awaits bytes stream.ending st' stream')
      (hwaits : stream'.waits < stream.waits) : FillsPayload decoded bytes stream .pending st' stream'
  | filled {st' : FrameReadState} {stream' : Socket} (hin : InPayload st' decoded)
      (hbytes : bytes = st'.header ++ st'.payload ++ stream'.contents) (he : stream'.ending = stream.ending)
      (hwaits : stream'.waits = stream.waits) : FillsPayload decoded bytes stream (.ready (.ok ())) st' stream'
  | failed {fault : FrameFault} {st' : FrameReadState} {stream' : Socket} (h : Awaits bytes stream.ending st' stream')
      (hstops : Stops bytes stream.ending fault) :
      FillsPayload decoded bytes stream (.ready (.error fault.ioError)) st' stream'

private theorem FillsPayload.after {decoded : FlowFrameHeader} {bytes : Bytes} {stream next : Socket}
    {result : Poll (Except IoError Unit)} {st' : FrameReadState} {stream' : Socket}
    (h : FillsPayload decoded bytes next result st' stream') (he : next.ending = stream.ending)
    (hw : next.waits = stream.waits) : FillsPayload decoded bytes stream result st' stream' := by
  cases h with
  | pending h hwaits => exact .pending (he ▸ h) (hw ▸ hwaits)
  | filled hin hbytes he' hwaits => exact .filled hin hbytes (he'.trans he) (hwaits.trans hw)
  | failed h hstops => exact .failed (he ▸ h) (he ▸ hstops)

private theorem InPayload.stops {st : FrameReadState} {decoded : FlowFrameHeader} (h : InPayload st decoded)
    (hlt : st.payloadOffset < decoded.payloadLen) (ending : Option ErrorKind) :
    Stops (st.front ++ []) ending (.cut .payload ending) := by
  have hheader := h.length_header
  rw [h.front, List.append_nil]
  apply @Stops.inPayload _ _ decoded
  · rw [List.length_append]
    omega
  · rw [← hheader, List.take_left]
    exact h.decodes
  · rw [← hheader, List.drop_left, List.length_take, h.length_payload]
    omega

private theorem InPayload.polls {st : FrameReadState} {decoded : FlowFrameHeader} {stream stream' : Socket}
    {result : Poll (Except ErrorKind Bytes)} (h : InPayload st decoded) (hlt : st.payloadOffset < decoded.payloadLen)
    (hpoll : stream.poll (st.payload.length - st.payloadOffset) = (result, stream')) :
    Polled.Polls (decoded.payloadLen - st.payloadOffset) stream result stream' := by
  rw [h.length_payload] at hpoll
  have hpolls := @Polled.poll_polls _ _ stream (decoded.payloadLen - st.payloadOffset) (by omega)
  rw [hpoll] at hpolls
  exact hpolls

theorem pollReadPayload_fills {st : FrameReadState} {decoded : FlowFrameHeader} (stream : Socket)
    (h : InPayload st decoded) :
    FillsPayload decoded (st.front ++ stream.contents) stream (st.pollReadPayload decoded.payloadLen stream).1
      (st.pollReadPayload decoded.payloadLen stream).2.1 (st.pollReadPayload decoded.payloadLen stream).2.2 := by
  have hmax := (decode_ok h.decodes).2
  fun_induction pollReadPayload st decoded.payloadLen stream with
  | case1 st stream hlt stream' hpoll =>
    cases h.polls hlt hpoll with
    | pending hc he hw => exact .pending ⟨.payload h, by rw [hc], he⟩ hw
  | case2 st stream hlt e stream' hpoll =>
    cases h.polls hlt hpoll with
    | failed hc he =>
      apply @FillsPayload.failed _ _ _ (.cut .payload (some e)) _ _ ⟨.payload h, rfl, rfl⟩
      rw [hc, he]
      exact h.stops hlt (some e)
  | case3 st stream hlt items stream' hpoll hnil =>
    cases h.polls hlt hpoll with
    | items hne => exact absurd (List.eq_nil_of_length_eq_zero hnil) hne
    | ended hc he =>
      apply @FillsPayload.failed _ _ _ (.cut .payload none) _ _ ⟨.payload h, rfl, rfl⟩
      rw [hc, he]
      exact h.stops hlt none
  | case4 st stream hlt items stream' hpoll hnonempty payload hadd =>
    cases h.polls hlt hpoll with
    | items hne hcap =>
      rw [checkedAdd_of_le (show st.payloadOffset + items.length ≤ decoded.payloadLen by omega) hmax] at hadd
      cases hadd
    | ended => exact absurd rfl hnonempty
  | case5 st stream hlt items stream' hpoll hnonempty payload payloadOffset hadd ih =>
    cases h.polls hlt hpoll with
    | items hne hcap hc he hw =>
      have hle : st.payloadOffset + items.length ≤ decoded.payloadLen := by omega
      rw [checkedAdd_of_le hle hmax] at hadd
      obtain rfl := Option.some.inj hadd
      obtain ⟨hin, hfront⟩ := h.tookPayload hle
      have hbytes : (st.tookPayload items).front ++ stream'.contents = st.front ++ stream.contents := by
        rw [hfront, List.append_assoc, hc]
      rw [← hbytes]
      exact (ih hin).after he hw
    | ended => exact absurd rfl hnonempty
  | case6 st stream hge =>
    have hfull : st.payload.take st.payloadOffset = st.payload :=
      List.take_of_length_le (by rw [h.length_payload]; omega)
    exact .filled h (by rw [h.front, hfull]) rfl rfl

/-- What one poll for the next frame of the unread bytes can come to. -/
inductive PollsFrame (bytes : Bytes) (stream : Socket) : FramePoll → Prop
  | pending {st' : FrameReadState} {stream' : Socket} {allocated : List Nat}
      (h : Awaits bytes stream.ending st' stream') (hwaits : stream'.waits < stream.waits) :
      PollsFrame bytes stream ⟨.pending, st', stream', allocated⟩
  | frame {frame : FlowFrame} {wire rest : Bytes} {st' : FrameReadState} {stream' : Socket} {allocated : List Nat}
      (h : Awaits rest stream.ending st' stream') (hframe : IsFrame wire frame) (hbytes : bytes = wire ++ rest)
      (hwaits : stream'.waits = stream.waits) :
      PollsFrame bytes stream ⟨.ready (.ok (some frame)), st', stream', allocated⟩
  | ended {st' : FrameReadState} {stream' : Socket} {allocated : List Nat}
      (h : Awaits bytes stream.ending st' stream') (hbytes : bytes = []) (hend : stream.ending = none) :
      PollsFrame bytes stream ⟨.ready (.ok none), st', stream', allocated⟩
  | failed {fault : FrameFault} {st' : FrameReadState} {stream' : Socket} {allocated : List Nat}
      (h : Awaits bytes stream.ending st' stream') (hstops : Stops bytes stream.ending fault) :
      PollsFrame bytes stream ⟨.ready (.error fault.ioError), st', stream', allocated⟩

private theorem PollsFrame.after {bytes : Bytes} {stream next : Socket} {p : FramePoll}
    (h : PollsFrame bytes next p) (he : next.ending = stream.ending) (hw : next.waits = stream.waits) :
    PollsFrame bytes stream p := by
  cases h with
  | pending h hwaits => exact .pending (he ▸ h) (hw ▸ hwaits)
  | frame h hframe hbytes hwaits => exact .frame (he ▸ h) hframe hbytes (hwaits.trans hw)
  | ended h hbytes hend => exact .ended (he ▸ h) hbytes (he ▸ hend)
  | failed h hstops => exact .failed (he ▸ h) (he ▸ hstops)

theorem PollsFrame.wellFormed {bytes : Bytes} {stream : Socket} {p : FramePoll} (h : PollsFrame bytes stream p) :
    p.state.WellFormed := by
  cases h with
  | pending h => exact h.wellFormed
  | frame h => exact h.wellFormed
  | ended h => exact h.wellFormed
  | failed h => exact h.wellFormed

theorem completeFrame_polls {st : FrameReadState} {decoded : FlowFrameHeader} (stream : Socket)
    (allocated : List Nat) (h : InPayload st decoded) :
    PollsFrame (st.front ++ stream.contents) stream (st.completeFrame decoded.payloadLen stream allocated) := by
  have hfills := pollReadPayload_fills stream h
  rw [completeFrame]
  generalize st.pollReadPayload decoded.payloadLen stream = answer at hfills ⊢
  obtain ⟨result, st', stream'⟩ := answer
  cases hfills with
  | pending h hwaits => exact .pending h hwaits
  | failed h hstops => exact .failed h hstops
  | filled hin hbytes he hwaits =>
    have hdecode : FlowFrame.decode st'.header st'.payload =
        .ok ⟨decoded.frameType, decoded.direction, decoded.flowId, st'.payload⟩ := by
      rw [FlowFrame.decode, hin.decodes]
      rfl
    have hheader := hin.length_header
    simp only [hdecode]
    refine .frame ⟨wellFormed_resetFrame _, rfl, he⟩ ⟨?_, ?_, ?_⟩ hbytes hwaits
    · rw [List.length_append]
      omega
    · rw [← hheader, List.take_left, hin.decodes, hin.length_payload]
    · rw [← hheader, List.drop_left]

theorem fillHeader_full {st : FrameReadState} (stream : Socket) (h : st.headerLen = frameHeaderLen) :
    st.fillHeader stream = (.ready (.ok (some ())), st, stream) := by
  rw [fillHeader, if_neg (by omega)]

/-- Every poll moves the unread bytes on towards their next frame. -/
theorem pollNextFrame_polls {st : FrameReadState} (stream : Socket) (h : st.WellFormed) :
    PollsFrame (st.front ++ stream.contents) stream (st.pollNextFrame stream) := by
  rw [pollNextFrame]
  cases h with
  | payload hin =>
    simp only [fillHeader_full stream hin.headerLen, hin.payloadLen]
    exact completeFrame_polls stream [] hin
  | header hin =>
    have hfills := fillHeader_fills stream hin
    generalize st.front ++ stream.contents = bytes at hfills ⊢
    generalize st.fillHeader stream = answer at hfills ⊢
    obtain ⟨result, st', stream'⟩ := answer
    change Fills bytes stream result st' stream' at hfills
    cases hfills with
    | pending h hwaits => exact .pending h hwaits
    | ended h hbytes hend => exact .ended h hbytes hend
    | failed h hstops => exact .failed h hstops
    | filled h hin hfull hwaits =>
      have hheader := hin.length_header
      have hfront : st'.front = st'.header := by
        rw [hin.front, hfull, ← hheader, List.take_length]
      have hbytes := h.bytes_eq
      rw [hfront] at hbytes
      subst hbytes
      simp only [hin.payloadLen, FlowFrame.payloadLen]
      cases hdecode : FlowFrameHeader.decode st'.header with
      | error e =>
        refine @PollsFrame.failed _ _ (.malformed e) _ _ _ h (.malformed ?_ ?_)
        · rw [List.length_append]
          omega
        · rw [← hheader, List.take_left, hdecode]
      | ok decoded =>
        have hnext : InPayload (st'.startPayload decoded.payloadLen) decoded :=
          ⟨hheader, hfull, rfl, hdecode, List.length_replicate, Nat.zero_le _⟩
        have hpolls := completeFrame_polls stream' [decoded.payloadLen] hnext
        rw [hnext.front, startPayload, List.take_zero, List.append_nil] at hpolls
        exact hpolls.after h.ending_eq hwaits

end FrameReadState
end Abyss.Broker.Framed
