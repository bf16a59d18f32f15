import Abyss.Broker.Framed.FlowWriter
import Abyss.Broker.Framed.Decoders

/-! The `AsyncWrite` contract of `FramedFlowIo`: the data frames on the wire against the lengths
that `poll_write` reported, and the calls under which it is kept. -/
namespace Abyss.Broker.Framed
open Abyss.Mitm (Bytes ErrorKind)
open Abyss.Stream

/-- Every byte of a frame on the wire. -/
def FlowFrame.wire (frame : FlowFrame) : Bytes := frame.header ++ frame.payload

/-- The frames that a peer decodes from what the socket accepted, and why it stops. -/
def FramedFlowWriter.wireFrames (io : FramedFlowWriter) : List FlowFrame × Option FrameFault :=
  frames.drain ⟨io.stream.accepted, none⟩

def dataOf (fs : List FlowFrame) : Bytes := (fs.filter (·.frameType = .data)).flatMap FlowFrame.payload

/-- The buffer front that an answer reports as accepted. -/
def WriteAnswer.reported : WriteAnswer → Bytes
  | .wrote buffer (.ready (.ok n)) => buffer.take n
  | _ => []

/-- What the answers of a run promise about the wire. -/
structure ObeysContract (answers : List WriteAnswer) (io : FramedFlowWriter) : Prop where
  data : dataOf io.wireFrames.1 = answers.flatMap WriteAnswer.reported
  bounded : ∀ buffer n, .wrote buffer (.ready (.ok n)) ∈ answers → n ≤ buffer.length
  shutdown : .shut (.ready (.error (invalidData "write frame already pending"))) ∉ answers
  closed : .shut (.ready (.ok ())) ∈ answers → ∃ data close, io.wireFrames = (data ++ [close], none) ∧
    (∀ f ∈ data, f.frameType = .data) ∧ close.frameType = .close ∧
    data.flatMap FlowFrame.payload = answers.flatMap WriteAnswer.reported

namespace FrameWriteState

/-- The bytes of the pending frame that are not yet written. -/
def rest (st : FrameWriteState) : Nat := st.frame.length - st.offset

/-- A data frame whose bytes were not yet reported is pending. -/
def DataPending (st : FrameWriteState) : Prop := st.frame ≠ [] ∧ st.consumedLen ≠ 0

/-- The payload of the pending frame. -/
def pendingPayload (st : FrameWriteState) : Bytes := st.frame.drop frameHeaderLen

end FrameWriteState

/-- The calls that cannot separate a pending data frame from its report: a write that finishes a
pending data frame offers its payload again, nothing but such a write finishes one, the shutdown
waits for it, and nothing is written behind the close. -/
def FramedFlowWriter.Orderly (io : FramedFlowWriter) : WriteCall → Prop
  | .write buffer => buffer = [] ∨
      (io.writeState.DataPending → io.writeState.pendingPayload <+: buffer ∨
        io.stream.takes io.writeState.rest = false) ∧
      (io.writeState.shutdownQueued = true → io.writeState.frame ≠ [])
  | .flush => io.writeState.DataPending → io.stream.takes io.writeState.rest = false
  | .shutdown => ¬ io.writeState.DataPending

instance (st : FrameWriteState) : Decidable st.DataPending :=
  inferInstanceAs (Decidable (st.frame ≠ [] ∧ st.consumedLen ≠ 0))

instance (io : FramedFlowWriter) : (c : WriteCall) → Decidable (io.Orderly c)
  | .write buffer => inferInstanceAs (Decidable (buffer = [] ∨
      (io.writeState.DataPending → io.writeState.pendingPayload <+: buffer ∨
        io.stream.takes io.writeState.rest = false) ∧
      (io.writeState.shutdownQueued = true → io.writeState.frame ≠ [])))
  | .flush => inferInstanceAs (Decidable (io.writeState.DataPending → io.stream.takes io.writeState.rest = false))
  | .shutdown => inferInstanceAs (Decidable (¬ io.writeState.DataPending))

/-- Every call of the run is made in an orderly state. -/
def FramedFlowWriter.OrderlyRun (io : FramedFlowWriter) : List WriteCall → Prop
  | [] => True
  | c :: rest => io.Orderly c ∧ (io.call c).2.OrderlyRun rest

instance : (cs : List WriteCall) → (io : FramedFlowWriter) → Decidable (io.OrderlyRun cs)
  | [], _ => .isTrue trivial
  | c :: rest, io =>
    have : Decidable ((io.call c).2.OrderlyRun rest) := instDecidableOrderlyRun rest (io.call c).2
    inferInstanceAs (Decidable (io.Orderly c ∧ (io.call c).2.OrderlyRun rest))

/-- What draining a pending frame can come to. -/
inductive Drains (st : FrameWriteState) (stream : SocketWriter) (base : Bytes) :
    Poll (Except IoError Unit) → FrameWriteState → SocketWriter → Prop
  | finished {stream' : SocketWriter} (ht : stream.takes st.rest = true) (ha : stream'.accepted = base ++ st.frame) :
      Drains st stream base (.ready (.ok ())) { st with
        frame := [], offset := 0, completedLen := st.consumedLen, consumedLen := 0 } stream'
  | paused {offset : Nat} {result : Poll (Except IoError Unit)} {stream' : SocketWriter}
      (ht : stream.takes st.rest = false) (hlt : offset < st.frame.length)
      (ha : stream'.accepted = base ++ st.frame.take offset) (hresult : result ≠ .ready (.ok ()))
      (herror : result ≠ .ready (.error (invalidData "write frame already pending"))) :
      Drains st stream base result { st with offset } stream'

private theorem takes_zero (stream : SocketWriter) : stream.takes 0 = true := by
  unfold PolledSink.takes PolledSink.takesAll
  rfl

private theorem writes_rest {st : FrameWriteState} {stream stream' : SocketWriter}
    {result : Poll (Except ErrorKind Nat)} (hlt : st.offset < st.frame.length)
    (hwrite : stream.pollWrite (st.frame.drop st.offset) = (result, stream')) :
    PolledSink.Writes stream (st.frame.drop st.offset) result stream' := by
  have hne : st.frame.drop st.offset ≠ [] := by
    rw [ne_eq, List.drop_eq_nil_iff]
    omega
  have hwrites := stream.pollWrite_writes hne
  rw [hwrite] at hwrites
  exact hwrites

private theorem Drains.after {st : FrameWriteState} {stream next : SocketWriter} {base : Bytes} {offset : Nat}
    {result : Poll (Except IoError Unit)} {st' : FrameWriteState} {stream' : SocketWriter}
    (h : Drains { st with offset } next base result st' stream')
    (ht : stream.takes st.rest = next.takes (st.frame.length - offset)) :
    Drains st stream base result st' stream' := by
  cases h with
  | finished ht' ha => exact .finished (ht.trans ht') ha
  | paused ht' hlt ha hresult herror => exact .paused (ht.trans ht') hlt ha hresult herror

theorem pollDrain_drains {st : FrameWriteState} {stream : SocketWriter} {base : Bytes} (hne : st.frame ≠ [])
    (hle : st.offset ≤ st.frame.length) (hlen : st.frame.length ≤ maxFramePayloadLen)
    (ha : stream.accepted = base ++ st.frame.take st.offset) :
    Drains st stream base (st.pollDrain stream).1 (st.pollDrain stream).2.1 (st.pollDrain stream).2.2 := by
  fun_induction FrameWriteState.pollDrain st stream with
  | case1 st stream hlt stream' hwrite =>
    cases writes_rest hlt hwrite with
    | refused _ ha' ht =>
      rw [List.length_drop] at ht
      exact .paused ht hlt (ha'.trans ha) (by simp) (by simp)
  | case2 st stream hlt e stream' hwrite =>
    cases writes_rest hlt hwrite with
    | refused _ ha' ht =>
      rw [List.length_drop] at ht
      exact .paused ht hlt (ha'.trans ha) (by simp) (by simp [invalidData])
  | case3 st stream hlt stream' hwrite =>
    cases writes_rest hlt hwrite with
    | refused _ ha' ht =>
      rw [List.length_drop] at ht
      exact .paused ht hlt (ha'.trans ha) (by simp) (by simp [invalidData])
    | accepted hpos => omega
  | case4 st stream hlt n stream' hwrite hpos hadd =>
    cases writes_rest hlt hwrite with
    | refused hresult => exact absurd (hresult n rfl) hpos
    | accepted _ hn =>
      rw [List.length_drop] at hn
      rw [checkedAdd_of_le (show st.offset + n ≤ st.frame.length by omega) hlen] at hadd
      cases hadd
  | case5 st stream hlt n stream' hwrite hpos offset hadd ih =>
    cases writes_rest hlt hwrite with
    | refused hresult => exact absurd (hresult n rfl) hpos
    | accepted _ hn ha' ht =>
      rw [List.length_drop] at hn ht
      have hle' : st.offset + n ≤ st.frame.length := by omega
      rw [checkedAdd_of_le hle' hlen] at hadd
      obtain rfl := Option.some.inj hadd
      have haccepted : stream'.accepted = base ++ st.frame.take (st.offset + n) := by
        rw [ha', ha, List.append_assoc, List.take_add]
      have htakes : stream.takes st.rest = stream'.takes (st.frame.length - (st.offset + n)) := by
        rw [FrameWriteState.rest, ht, Nat.sub_sub]
      exact (ih hne hle' hlen haccepted).after htakes
  | case6 st stream hge =>
    have hend : st.offset = st.frame.length := by omega
    rw [FrameWriteState.finish, if_neg hne]
    apply Drains.finished
    · rw [FrameWriteState.rest, hend, Nat.sub_self]
      exact takes_zero stream
    · rw [ha, hend, List.take_length]

/-- A payload that `poll_write` puts into one frame. -/
abbrev Payload := { payload : Bytes // payload.length ≤ writeFramePayloadCap }

def dataFrame (flowId : Uuid) (payload : Payload) : FlowFrame := .brokerToClient flowId payload.val

def wireOf (flowId : Uuid) (payloads : List Payload) : Bytes := payloads.flatMap fun p => (dataFrame flowId p).wire

namespace FramedFlowWriter

/-- The data frames that are completely on the wire, and what is written behind them. -/
inductive Phase (io : FramedFlowWriter) (payloads : List Payload) : Prop
  | idle (ha : io.stream.accepted = wireOf io.flowId payloads) (hst : io.writeState = ⟨[], 0, 0, 0, false⟩)
  | writing {payload : Payload} {offset : Nat} (hne : payload.val ≠ [])
      (hlt : offset < (dataFrame io.flowId payload).wire.length)
      (ha : io.stream.accepted = wireOf io.flowId payloads ++ (dataFrame io.flowId payload).wire.take offset)
      (hst : io.writeState = ⟨(dataFrame io.flowId payload).wire, offset, payload.val.length, 0, false⟩)
  | closing {offset : Nat} (hlt : offset < (FlowFrame.brokerToClientEof io.flowId).wire.length)
      (ha : io.stream.accepted =
        wireOf io.flowId payloads ++ (FlowFrame.brokerToClientEof io.flowId).wire.take offset)
      (hst : io.writeState = ⟨(FlowFrame.brokerToClientEof io.flowId).wire, offset, 0, 0, true⟩)
  | closed (ha : io.stream.accepted = wireOf io.flowId payloads ++ (FlowFrame.brokerToClientEof io.flowId).wire)
      (hst : io.writeState = ⟨[], 0, 0, 0, true⟩)

/-- The close frame is completely written. -/
def IsClosed (io : FramedFlowWriter) : Prop := io.writeState = ⟨[], 0, 0, 0, true⟩

/-- What an orderly call keeps. -/
structure Keeps (io : FramedFlowWriter) (payloads : List Payload) (answer : WriteAnswer) (io' : FramedFlowWriter) :
    Prop where
  next : ∃ more : List Payload, io'.Phase (payloads ++ more) ∧ more.flatMap Subtype.val = answer.reported
  bounded : ∀ buffer n, answer = .wrote buffer (.ready (.ok n)) → n ≤ buffer.length
  shutdown : answer ≠ .shut (.ready (.error (invalidData "write frame already pending")))
  closed : answer = .shut (.ready (.ok ())) ∨ io.IsClosed → io'.IsClosed

end FramedFlowWriter

theorem length_hexBytes (bytes : Bytes) : (hexBytes bytes).length = 2 * bytes.length := by
  simp [hexBytes, Nat.mul_comm]

theorem length_brokerToClientEof (flowId : Uuid) : (FlowFrame.brokerToClientEof flowId).payload.length = 75 := by
  simp only [FlowFrame.brokerToClientEof, closePayloadJson, Uuid.hyphenated, List.length_append, length_hexBytes,
    List.length_take, List.length_drop, flowId.length_bytes, Mitm.ascii, List.length_map]
  rfl

theorem length_wire (frame : FlowFrame) : frame.wire.length = frameHeaderLen + frame.payload.length := by
  rw [FlowFrame.wire, List.length_append, length_header]

private theorem wire_ne_nil (frame : FlowFrame) : frame.wire ≠ [] := by
  apply List.ne_nil_of_length_pos
  rw [length_wire, frameHeaderLen]
  omega

private theorem length_dataFrame_le (flowId : Uuid) (payload : Payload) :
    (dataFrame flowId payload).wire.length ≤ maxFramePayloadLen := by
  have hcap := payload.property
  rw [length_wire]
  simp only [dataFrame, FlowFrame.brokerToClient, frameHeaderLen, writeFramePayloadCap, maxFramePayloadLen] at *
  omega

private theorem length_eof_le (flowId : Uuid) :
    (FlowFrame.brokerToClientEof flowId).wire.length ≤ maxFramePayloadLen := by
  rw [length_wire, length_brokerToClientEof]
  simp [frameHeaderLen, maxFramePayloadLen]

private theorem wireOf_concat (flowId : Uuid) (payloads : List Payload) (payload : Payload) :
    wireOf flowId (payloads ++ [payload]) = wireOf flowId payloads ++ (dataFrame flowId payload).wire := by
  simp [wireOf]

private theorem queueFrame_new {shutdownQueued : Bool} {frame : FlowFrame} (consumedLen : Nat)
    (hlen : frame.wire.length ≤ maxFramePayloadLen) :
    FrameWriteState.queueFrame ⟨[], 0, 0, 0, shutdownQueued⟩ frame consumedLen =
      .ok ⟨frame.wire, 0, consumedLen, 0, shutdownQueued⟩ := by
  rw [length_wire] at hlen
  simp only [FrameWriteState.queueFrame, FrameWriteState.hasPendingFrame, List.isEmpty_nil, Bool.not_true,
    Bool.false_eq_true, if_false, encode_eq (show frame.payload.length ≤ maxFramePayloadLen by omega)]
  rfl

private theorem pollDrain_nothing (shutdownQueued : Bool) (stream : SocketWriter) :
    FrameWriteState.pollDrain ⟨[], 0, 0, 0, shutdownQueued⟩ stream =
      (.ready (.ok ()), ⟨[], 0, 0, 0, shutdownQueued⟩, stream) := by
  rw [FrameWriteState.pollDrain]
  rfl

namespace FramedFlowWriter

/-- A call that leaves the frames on the wire as they are and reports nothing. -/
private theorem Keeps.nothing {io io' : FramedFlowWriter} {payloads : List Payload} {answer : WriteAnswer}
    (h : io'.Phase payloads) (hreported : answer.reported = [])
    (hbounded : ∀ buffer n, answer = .wrote buffer (.ready (.ok n)) → n ≤ buffer.length)
    (hshutdown : answer ≠ .shut (.ready (.error (invalidData "write frame already pending"))))
    (hclosed : answer = .shut (.ready (.ok ())) ∨ io.IsClosed → io'.IsClosed) : io.Keeps payloads answer io' :=
  ⟨⟨[], by rwa [List.append_nil], by simp [hreported]⟩, hbounded, hshutdown, hclosed⟩

/-- A poll that stopped before the pending frame was written. -/
structure Halted (result : Poll (Except IoError Unit)) : Prop where
  ne_ok : result ≠ .ready (.ok ())
  ne_queued : result ≠ .ready (.error (invalidData "write frame already pending"))

theorem drain_nothing (io : FramedFlowWriter) {shutdownQueued : Bool}
    (h : io.writeState = ⟨[], 0, 0, 0, shutdownQueued⟩) : io.drain io.writeState = (.ready (.ok ()), io) := by
  rw [drain, h, pollDrain_nothing, ← h]

/-- Draining a data frame completes it exactly when the socket takes the rest at once. -/
theorem drain_data {io : FramedFlowWriter} {payloads : List Payload} {payload : Payload} {offset : Nat}
    (hne : payload.val ≠ []) (hle : offset ≤ (dataFrame io.flowId payload).wire.length)
    (ha : io.stream.accepted = wireOf io.flowId payloads ++ (dataFrame io.flowId payload).wire.take offset) :
    (∃ io', io.drain ⟨(dataFrame io.flowId payload).wire, offset, payload.val.length, 0, false⟩ =
        (.ready (.ok ()), io') ∧
      io.stream.takes ((dataFrame io.flowId payload).wire.length - offset) = true ∧
      io'.writeState = ⟨[], 0, 0, payload.val.length, false⟩ ∧ io'.flowId = io.flowId ∧
      io'.stream.accepted = wireOf io.flowId (payloads ++ [payload])) ∨
    ∃ result io', io.drain ⟨(dataFrame io.flowId payload).wire, offset, payload.val.length, 0, false⟩ =
        (result, io') ∧
      io.stream.takes ((dataFrame io.flowId payload).wire.length - offset) = false ∧ Halted result ∧
      io'.writeState.shutdownQueued = false ∧ io'.Phase payloads := by
  have hdrains := @pollDrain_drains ⟨(dataFrame io.flowId payload).wire, offset, payload.val.length, 0, false⟩
    io.stream _ (wire_ne_nil _) hle (length_dataFrame_le _ _) ha
  rw [drain]
  generalize FrameWriteState.pollDrain _ io.stream = drained at hdrains ⊢
  obtain ⟨result, writeState, stream⟩ := drained
  change Drains _ io.stream _ result writeState stream at hdrains
  cases hdrains with
  | finished ht ha' =>
    refine .inl ⟨_, rfl, ht, rfl, rfl, ?_⟩
    rw [wireOf_concat]
    exact ha'
  | paused ht hlt ha' hresult herror =>
    exact .inr ⟨_, _, rfl, ht, ⟨hresult, herror⟩, rfl, .writing hne hlt ha' rfl⟩

theorem drain_eof {io : FramedFlowWriter} {payloads : List Payload} {offset : Nat}
    (hle : offset ≤ (FlowFrame.brokerToClientEof io.flowId).wire.length)
    (ha : io.stream.accepted = wireOf io.flowId payloads ++ (FlowFrame.brokerToClientEof io.flowId).wire.take offset) :
    (∃ io', io.drain ⟨(FlowFrame.brokerToClientEof io.flowId).wire, offset, 0, 0, true⟩ = (.ready (.ok ()), io') ∧
      io'.writeState = ⟨[], 0, 0, 0, true⟩ ∧ io'.Phase payloads) ∨
    ∃ result io', io.drain ⟨(FlowFrame.brokerToClientEof io.flowId).wire, offset, 0, 0, true⟩ = (result, io') ∧
      Halted result ∧ io'.Phase payloads := by
  have hdrains := @pollDrain_drains ⟨(FlowFrame.brokerToClientEof io.flowId).wire, offset, 0, 0, true⟩
    io.stream _ (wire_ne_nil _) hle (length_eof_le _) ha
  rw [drain]
  generalize FrameWriteState.pollDrain _ io.stream = drained at hdrains ⊢
  obtain ⟨result, writeState, stream⟩ := drained
  change Drains _ io.stream _ result writeState stream at hdrains
  cases hdrains with
  | finished ht ha' => exact .inl ⟨_, rfl, rfl, .closed ha' rfl⟩
  | paused ht hlt ha' hresult herror => exact .inr ⟨_, _, rfl, ⟨hresult, herror⟩, .closing hlt ha' rfl⟩

private theorem not_closed_of_frame {io : FramedFlowWriter} {frame : FlowFrame} {offset consumedLen : Nat}
    {shutdownQueued : Bool} (h : io.writeState = ⟨frame.wire, offset, consumedLen, 0, shutdownQueued⟩) :
    ¬ io.IsClosed := by
  intro hclosed
  rw [IsClosed, h, FrameWriteState.mk.injEq] at hclosed
  exact wire_ne_nil frame hclosed.1

private theorem dataPending_of_writing {io : FramedFlowWriter} {frame : FlowFrame} {payload : Payload} {offset : Nat}
    (hne : payload.val ≠ []) (h : io.writeState = ⟨frame.wire, offset, payload.val.length, 0, false⟩) :
    io.writeState.DataPending := by
  rw [FrameWriteState.DataPending, h]
  exact ⟨wire_ne_nil frame, by simpa using hne⟩

private theorem Halted.cases {result : Poll (Except IoError Unit)} (h : Halted result) :
    result = .pending ∨ ∃ e, result = .ready (.error e) ∧ e ≠ invalidData "write frame already pending" := by
  match result, h with
  | .pending, _ => exact .inl rfl
  | .ready (.ok ()), h => exact absurd rfl h.ne_ok
  | .ready (.error e), h => exact .inr ⟨e, rfl, fun he => h.ne_queued (by rw [he])⟩

/-- The end of `poll_write` behind a queued data frame. -/
private theorem writes_data {io : FramedFlowWriter} {payloads : List Payload} {payload : Payload} {offset : Nat}
    {buffer : Bytes} (hne : payload.val ≠ []) (hle : offset ≤ (dataFrame io.flowId payload).wire.length)
    (ha : io.stream.accepted = wireOf io.flowId payloads ++ (dataFrame io.flowId payload).wire.take offset)
    (hopen : io.writeState.shutdownQueued = false)
    (hbuffer : io.stream.takes ((dataFrame io.flowId payload).wire.length - offset) = true → payload.val <+: buffer)
    (hempty : buffer ≠ [])
    (hqueue : io.queueWrite buffer = .ok ⟨(dataFrame io.flowId payload).wire, offset, payload.val.length, 0, false⟩) :
    io.Keeps payloads (.wrote buffer (io.pollWrite buffer).1) (io.pollWrite buffer).2 := by
  have hnot : ¬ io.IsClosed := by
    intro h
    rw [h] at hopen
    cases hopen
  rcases drain_data hne hle ha with ⟨io', hdrain, ht, hst, hid, ha'⟩ | ⟨result, io', hdrain, ht, hhalted, _, hphase⟩
  · have hwrite : io.pollWrite buffer = (.ready (.ok io'.writeState.takeCompletedLen.1),
        { io' with writeState := io'.writeState.takeCompletedLen.2 }) := by
      simp only [pollWrite, if_neg hempty, hqueue, hdrain]
    rw [hwrite]
    have hfront := hbuffer ht
    refine ⟨⟨[payload], .idle ?_ ?_, ?_⟩, ?_, by simp, ?_⟩
    · exact ha'.trans (by rw [hid])
    · simp [hst, FrameWriteState.takeCompletedLen]
    · simp only [WriteAnswer.reported, FrameWriteState.takeCompletedLen, hst, List.flatMap_cons, List.flatMap_nil,
        List.append_nil]
      exact List.prefix_iff_eq_take.mp hfront
    · intro buffer' n heq
      obtain ⟨rfl, hn⟩ := WriteAnswer.wrote.inj heq
      obtain rfl := Except.ok.inj (Poll.ready.inj hn)
      simp only [FrameWriteState.takeCompletedLen, hst]
      exact hfront.length_le
    · rintro (h | h)
      · cases h
      · exact absurd h hnot
  · rcases hhalted.cases with rfl | ⟨e, rfl, _⟩
    · have hwrite : io.pollWrite buffer = (.pending, io') := by
        simp only [pollWrite, if_neg hempty, hqueue, hdrain]
      rw [hwrite]
      exact .nothing hphase rfl (by simp) (by simp) (by simp [hnot])
    · have hwrite : io.pollWrite buffer = (.ready (.error e), io') := by
        simp only [pollWrite, if_neg hempty, hqueue, hdrain]
      rw [hwrite]
      exact .nothing hphase rfl (by simp) (by simp) (by simp [hnot])

theorem pollWrite_keeps {io : FramedFlowWriter} {payloads : List Payload} {buffer : Bytes}
    (h : io.Phase payloads) (ho : io.Orderly (.write buffer)) :
    io.Keeps payloads (.wrote buffer (io.pollWrite buffer).1) (io.pollWrite buffer).2 := by
  by_cases hempty : buffer = []
  · subst hempty
    have hwrite : io.pollWrite [] = (.ready (.ok 0), io) := rfl
    rw [hwrite]
    exact .nothing h rfl (by simp) (by simp) (by simp)
  · obtain ⟨hpending, hclose⟩ := ho.resolve_left hempty
    cases h with
    | idle ha hst =>
      have hcap : (buffer.take (min buffer.length writeFramePayloadCap)).length ≤ writeFramePayloadCap := by
        rw [List.length_take]
        omega
      have hlen : (buffer.take (min buffer.length writeFramePayloadCap)).length =
          min buffer.length writeFramePayloadCap := by
        rw [List.length_take]
        omega
      have hne : buffer.take (min buffer.length writeFramePayloadCap) ≠ [] := by
        have hpos := List.length_pos_iff.mpr hempty
        apply List.ne_nil_of_length_pos
        rw [hlen, writeFramePayloadCap]
        omega
      apply @writes_data io payloads ⟨_, hcap⟩ 0 buffer hne (Nat.zero_le _)
      · rw [List.take_zero, List.append_nil]
        exact ha
      · rw [hst]
      · exact fun _ => List.take_prefix _ _
      · exact hempty
      · have hqueue := @queueFrame_new false (dataFrame io.flowId ⟨_, hcap⟩) (min buffer.length writeFramePayloadCap)
          (length_dataFrame_le _ _)
        rw [queueWrite, hst, hlen]
        exact hqueue
    | @writing payload offset hne hlt ha hst =>
      have hpayload : io.writeState.pendingPayload = payload.val := by
        rw [FrameWriteState.pendingPayload, hst, FlowFrame.wire, ← length_header, List.drop_left]
        rfl
      apply writes_data hne (Nat.le_of_lt hlt) ha
      · rw [hst]
      · intro ht
        rcases hpending (dataPending_of_writing hne hst) with hfront | hnot
        · rwa [hpayload] at hfront
        · rw [FrameWriteState.rest, hst, ht] at hnot
          cases hnot
      · exact hempty
      · rw [queueWrite, hst, FrameWriteState.hasPendingFrame]
        simp [wire_ne_nil]
    | @closing offset hlt ha hst =>
      have hqueue : io.queueWrite buffer = .ok ⟨(FlowFrame.brokerToClientEof io.flowId).wire, offset, 0, 0, true⟩ := by
        rw [queueWrite, hst, FrameWriteState.hasPendingFrame]
        simp [wire_ne_nil]
      have hnot := not_closed_of_frame hst
      rcases drain_eof (Nat.le_of_lt hlt) ha with ⟨io', hdrain, hst', hphase⟩ | ⟨result, io', hdrain, hhalted, hphase⟩
      · have hwrite : io.pollWrite buffer = (.ready (.ok 0), io') := by
          simp only [pollWrite, if_neg hempty, hqueue, hdrain, FrameWriteState.takeCompletedLen, hst']
          rw [← hst']
        rw [hwrite]
        refine .nothing hphase rfl ?_ (by simp) (by simp [hnot])
        intro buffer' n heq
        obtain rfl := Except.ok.inj (Poll.ready.inj (WriteAnswer.wrote.inj heq).2)
        exact Nat.zero_le _
      · rcases hhalted.cases with rfl | ⟨e, rfl, _⟩
        · have hwrite : io.pollWrite buffer = (.pending, io') := by
            simp only [pollWrite, if_neg hempty, hqueue, hdrain]
          rw [hwrite]
          exact .nothing hphase rfl (by simp) (by simp) (by simp [hnot])
        · have hwrite : io.pollWrite buffer = (.ready (.error e), io') := by
            simp only [pollWrite, if_neg hempty, hqueue, hdrain]
          rw [hwrite]
          exact .nothing hphase rfl (by simp) (by simp) (by simp [hnot])
    | closed ha hst => exact absurd (by rw [hst]) (hclose (by rw [hst]))

/-- The socket's own flush or shutdown leaves the frames alone. -/
private theorem Phase.with_stream {io : FramedFlowWriter} {payloads : List Payload} (h : io.Phase payloads)
    {stream : SocketWriter} (hs : stream.accepted = io.stream.accepted) :
    Phase { io with stream } payloads := by
  cases h with
  | idle ha hst => exact .idle (hs.trans ha) hst
  | writing hne hlt ha hst => exact .writing hne hlt (hs.trans ha) hst
  | closing hlt ha hst => exact .closing hlt (hs.trans ha) hst
  | closed ha hst => exact .closed (hs.trans ha) hst

private theorem socketResult_ne (answer : Poll (Option ErrorKind)) :
    socketResult answer ≠ .ready (.error (invalidData "write frame already pending")) := by
  match answer with
  | .pending => simp [socketResult]
  | .ready none => simp [socketResult]
  | .ready (some e) => simp [socketResult, invalidData]

theorem pollFlush_keeps {io : FramedFlowWriter} {payloads : List Payload} (h : io.Phase payloads)
    (ho : io.Orderly .flush) : io.Keeps payloads (.flushed io.pollFlush.1) io.pollFlush.2 := by
  have hdone {io' : FramedFlowWriter} (hdrain : io.drain io.writeState = (.ready (.ok ()), io'))
      (hphase : io'.Phase payloads) (hclosed : io.IsClosed → io'.IsClosed) :
      io.Keeps payloads (.flushed io.pollFlush.1) io.pollFlush.2 := by
    rw [pollFlush, hdrain]
    exact .nothing (hphase.with_stream rfl) rfl (by simp) (by simp) (fun h => hclosed (h.resolve_left (by simp)))
  have hhalt {result : Poll (Except IoError Unit)} {io' : FramedFlowWriter}
      (hdrain : io.drain io.writeState = (result, io')) (hhalted : Halted result) (hphase : io'.Phase payloads)
      (hnot : ¬ io.IsClosed) : io.Keeps payloads (.flushed io.pollFlush.1) io.pollFlush.2 := by
    rw [pollFlush, hdrain]
    rcases hhalted.cases with rfl | ⟨e, rfl, _⟩
    · exact .nothing hphase rfl (by simp) (by simp) (by simp [hnot])
    · exact .nothing hphase rfl (by simp) (by simp) (by simp [hnot])
  cases h with
  | idle ha hst => exact hdone (drain_nothing io hst) (.idle ha hst) id
  | closed ha hst => exact hdone (drain_nothing io hst) (.closed ha hst) id
  | writing hne hlt ha hst =>
    have hdata := dataPending_of_writing hne hst
    rcases drain_data hne (Nat.le_of_lt hlt) ha with ⟨io', _, ht, _⟩ | ⟨result, io', hdrain, _, hhalted, _, hphase⟩
    · have hnot := ho hdata
      rw [FrameWriteState.rest, hst, ht] at hnot
      cases hnot
    · rw [← hst] at hdrain
      exact hhalt hdrain hhalted hphase (not_closed_of_frame hst)
  | closing hlt ha hst =>
    rcases drain_eof (Nat.le_of_lt hlt) ha with ⟨io', hdrain, hst', hphase⟩ | ⟨result, io', hdrain, hhalted, hphase⟩
    · rw [← hst] at hdrain
      exact hdone hdrain hphase (fun _ => hst')
    · rw [← hst] at hdrain
      exact hhalt hdrain hhalted hphase (not_closed_of_frame hst)

theorem pollShutdown_keeps {io : FramedFlowWriter} {payloads : List Payload} (h : io.Phase payloads)
    (ho : io.Orderly .shutdown) : io.Keeps payloads (.shut io.pollShutdown.1) io.pollShutdown.2 := by
  have hdone {st : FrameWriteState} {io' : FramedFlowWriter} (hqueue : io.queueShutdown = .ok st)
      (hdrain : io.drain st = (.ready (.ok ()), io')) (hphase : io'.Phase payloads) (hclosed : io'.IsClosed) :
      io.Keeps payloads (.shut io.pollShutdown.1) io.pollShutdown.2 := by
    rw [pollShutdown, hqueue]
    simp only [hdrain]
    refine .nothing (hphase.with_stream rfl) rfl (by simp) ?_ (fun _ => hclosed)
    intro heq
    exact socketResult_ne _ (WriteAnswer.shut.inj heq)
  have hhalt {st : FrameWriteState} {result : Poll (Except IoError Unit)} {io' : FramedFlowWriter}
      (hqueue : io.queueShutdown = .ok st) (hdrain : io.drain st = (result, io')) (hhalted : Halted result)
      (hphase : io'.Phase payloads) (hnot : ¬ io.IsClosed) :
      io.Keeps payloads (.shut io.pollShutdown.1) io.pollShutdown.2 := by
    rw [pollShutdown, hqueue]
    simp only [hdrain]
    rcases hhalted.cases with rfl | ⟨e, rfl, he⟩
    · exact .nothing hphase rfl (by simp) (by simp) (by simp [hnot])
    · exact .nothing hphase rfl (by simp) (by simpa using he) (by simp [hnot])
  have heof {offset : Nat} (hqueue : io.queueShutdown =
        .ok ⟨(FlowFrame.brokerToClientEof io.flowId).wire, offset, 0, 0, true⟩) (hnot : ¬ io.IsClosed)
      (hle : offset ≤ (FlowFrame.brokerToClientEof io.flowId).wire.length)
      (ha : io.stream.accepted =
        wireOf io.flowId payloads ++ (FlowFrame.brokerToClientEof io.flowId).wire.take offset) :
      io.Keeps payloads (.shut io.pollShutdown.1) io.pollShutdown.2 := by
    rcases drain_eof hle ha with ⟨io', hdrain, hst', hphase⟩ | ⟨result, io', hdrain, hhalted, hphase⟩
    · exact hdone hqueue hdrain hphase hst'
    · exact hhalt hqueue hdrain hhalted hphase hnot
  cases h with
  | idle ha hst =>
    refine heof ?_ ?_ (Nat.zero_le _) (by rw [List.take_zero, List.append_nil]; exact ha)
    · rw [queueShutdown, hst, queueFrame_new 0 (length_eof_le io.flowId)]
      rfl
    · simp [IsClosed, hst]
  | writing hne hlt ha hst => exact absurd (dataPending_of_writing hne hst) ho
  | closing hlt ha hst =>
    refine heof ?_ (not_closed_of_frame hst) (Nat.le_of_lt hlt) ha
    rw [queueShutdown, hst]
    rfl
  | closed ha hst =>
    have hqueue : io.queueShutdown = .ok io.writeState := by
      rw [queueShutdown, if_pos (by rw [hst])]
    exact hdone hqueue (drain_nothing io hst) (.closed ha hst) hst

/-- Every orderly call keeps the correspondence of wire and reports. -/
theorem call_keeps {io : FramedFlowWriter} {payloads : List Payload} (h : io.Phase payloads) {c : WriteCall}
    (ho : io.Orderly c) : io.Keeps payloads (io.call c).1 (io.call c).2 := by
  cases c with
  | write buffer => exact pollWrite_keeps h ho
  | flush => exact pollFlush_keeps h ho
  | shutdown => exact pollShutdown_keeps h ho

/-- What an orderly run keeps. -/
theorem Phase.calls_keep {io : FramedFlowWriter} {payloads : List Payload} (h : io.Phase payloads) {cs : List WriteCall}
    (ho : io.OrderlyRun cs) :
    (∃ more : List Payload, (io.calls cs).2.Phase (payloads ++ more) ∧
      more.flatMap Subtype.val = (io.calls cs).1.flatMap WriteAnswer.reported) ∧
    (∀ buffer n, .wrote buffer (.ready (.ok n)) ∈ (io.calls cs).1 → n ≤ buffer.length) ∧
    .shut (.ready (.error (invalidData "write frame already pending"))) ∉ (io.calls cs).1 ∧
    (.shut (.ready (.ok ())) ∈ (io.calls cs).1 ∨ io.IsClosed → (io.calls cs).2.IsClosed) := by
  induction cs generalizing io payloads with
  | nil => exact ⟨⟨[], by rwa [List.append_nil], rfl⟩, by simp [calls], by simp [calls], by simp [calls]⟩
  | cons c cs ih =>
    obtain ⟨hc, hrest⟩ := ho
    obtain ⟨⟨more, hphase, hreported⟩, hbounded, hshutdown, hclosed⟩ := call_keeps h hc
    obtain ⟨⟨later, hphase', hreported'⟩, hbounded', hshutdown', hclosed'⟩ := ih hphase hrest
    simp only [calls, List.flatMap_cons, List.mem_cons]
    refine ⟨⟨more ++ later, ?_, ?_⟩, ?_, ?_, ?_⟩
    · rwa [List.append_assoc] at hphase'
    · rw [List.flatMap_append, hreported, hreported']
    · rintro buffer n (heq | hmem)
      · exact hbounded buffer n heq.symm
      · exact hbounded' buffer n hmem
    · rintro (heq | hmem)
      · exact hshutdown heq.symm
      · exact hshutdown' hmem
    · rintro ((heq | hmem) | hio)
      · exact hclosed' (.inr (hclosed (.inl heq.symm)))
      · exact hclosed' (.inl hmem)
      · exact hclosed' (.inr (hclosed (.inr hio)))

end FramedFlowWriter

private theorem isFrame_dataFrame (flowId : Uuid) (payload : Payload) :
    IsFrame (dataFrame flowId payload).wire (dataFrame flowId payload) := by
  apply isFrame_encode
  have hlen := length_dataFrame_le flowId payload
  rw [length_wire] at hlen
  omega

private theorem isFrame_eof (flowId : Uuid) :
    IsFrame (FlowFrame.brokerToClientEof flowId).wire (FlowFrame.brokerToClientEof flowId) := by
  apply isFrame_encode
  have hlen := length_eof_le flowId
  rw [length_wire] at hlen
  omega

private theorem areFrames_wireOf (flowId : Uuid) (payloads : List Payload) :
    AreFrames (wireOf flowId payloads) (payloads.map (dataFrame flowId)) := by
  induction payloads with
  | nil => exact .nil
  | cons payload payloads ih => exact .cons (isFrame_dataFrame flowId payload) ih

private theorem payload_dataFrames (flowId : Uuid) (payloads : List Payload) :
    (payloads.map (dataFrame flowId)).flatMap FlowFrame.payload = payloads.flatMap Subtype.val := by
  rw [List.flatMap_map]
  rfl

private theorem dataOf_dataFrames (flowId : Uuid) (payloads : List Payload) :
    dataOf (payloads.map (dataFrame flowId)) = payloads.flatMap Subtype.val := by
  rw [dataOf, List.filter_eq_self.mpr, payload_dataFrames]
  intro f hf
  obtain ⟨payload, _, rfl⟩ := List.mem_map.mp hf
  rfl

private theorem drain_closed (flowId : Uuid) (payloads : List Payload) :
    frames.drain ⟨wireOf flowId payloads ++ (FlowFrame.brokerToClientEof flowId).wire, none⟩ =
      (payloads.map (dataFrame flowId) ++ [FlowFrame.brokerToClientEof flowId], none) := by
  have heof : AreFrames ((FlowFrame.brokerToClientEof flowId).wire ++ []) [FlowFrame.brokerToClientEof flowId] :=
    .cons (isFrame_eof flowId) .nil
  rw [List.append_nil] at heof
  rw [(areFrames_wireOf flowId payloads).drain_append, heof.drain]

namespace FramedFlowWriter

theorem Phase.dataOf {io : FramedFlowWriter} {payloads : List Payload} (h : io.Phase payloads) :
    Framed.dataOf io.wireFrames.1 = payloads.flatMap Subtype.val := by
  have hframes := areFrames_wireOf io.flowId payloads
  cases h with
  | idle ha =>
    rw [wireFrames, ha, hframes.drain, dataOf_dataFrames]
  | writing hne hlt ha =>
    rw [wireFrames, ha, hframes.drain_append, (isFrame_dataFrame _ _).drain_take hlt, List.append_nil,
      dataOf_dataFrames]
  | closing hlt ha =>
    rw [wireFrames, ha, hframes.drain_append, (isFrame_eof _).drain_take hlt, List.append_nil, dataOf_dataFrames]
  | closed ha =>
    rw [wireFrames, ha, drain_closed]
    have hdata := dataOf_dataFrames io.flowId payloads
    simp only [Framed.dataOf, List.filter_append, List.flatMap_append] at hdata ⊢
    rw [hdata]
    simp [FlowFrame.brokerToClientEof]

theorem Phase.wireFrames_closed {io : FramedFlowWriter} {payloads : List Payload} (h : io.Phase payloads)
    (hclosed : io.IsClosed) :
    io.wireFrames = (payloads.map (dataFrame io.flowId) ++ [FlowFrame.brokerToClientEof io.flowId], none) := by
  cases h with
  | idle ha hst =>
    rw [IsClosed, hst] at hclosed
    cases hclosed
  | writing hne hlt ha hst => exact absurd hclosed (not_closed_of_frame hst)
  | closing hlt ha hst => exact absurd hclosed (not_closed_of_frame hst)
  | closed ha hst => rw [wireFrames, ha, drain_closed]

end FramedFlowWriter

/-- In a run of orderly calls the wire holds what was reported, the shutdown is never refused for a
pending frame, and once it succeeded the wire ends with the close frame. -/
theorem orderly_run_obeys {writes : List (Poll (Reply ErrorKind))} {flushes shutdowns : List (Poll (Option ErrorKind))}
    {flowId : Uuid} {cs : List WriteCall}
    (h : (FramedFlowWriter.new ⟨[], writes, flushes, shutdowns⟩ flowId).OrderlyRun cs) :
    ObeysContract ((FramedFlowWriter.new ⟨[], writes, flushes, shutdowns⟩ flowId).calls cs).1
      ((FramedFlowWriter.new ⟨[], writes, flushes, shutdowns⟩ flowId).calls cs).2 := by
  have hstart : (FramedFlowWriter.new ⟨[], writes, flushes, shutdowns⟩ flowId).Phase [] := .idle rfl rfl
  obtain ⟨⟨payloads, hphase, hreported⟩, hbounded, hshutdown, hclosed⟩ := hstart.calls_keep h
  rw [List.nil_append] at hphase
  refine ⟨hphase.dataOf.trans hreported, hbounded, hshutdown, ?_⟩
  intro hshut
  refine ⟨_, _, hphase.wireFrames_closed (hclosed (.inl hshut)), ?_, rfl, ?_⟩
  · intro f hf
    obtain ⟨payload, _, rfl⟩ := List.mem_map.mp hf
    rfl
  · rw [payload_dataFrames, hreported]

/-- A flow whose socket takes five bytes of the first frame and then has no room for one poll. -/
def pausingWriter : FramedFlowWriter := .new ⟨[], [.ready (.accept 5), .pending], [], []⟩ sampleId

theorem orderly_run_obeys_retry :
    ObeysContract (pausingWriter.calls [.write [1, 2, 3], .write [1, 2, 3, 4], .flush, .shutdown]).1
      (pausingWriter.calls [.write [1, 2, 3], .write [1, 2, 3, 4], .flush, .shutdown]).2 :=
  orderly_run_obeys (by decide +kernel)

/-- After a write that found no room: a flush makes the retry send the data twice, another buffer
is credited with the length of the first, and the shutdown fails. -/
theorem interrupted_write_breaks_contract :
    ¬ ObeysContract (pausingWriter.calls [.write [1, 2, 3], .flush, .write [1, 2, 3]]).1
        (pausingWriter.calls [.write [1, 2, 3], .flush, .write [1, 2, 3]]).2 ∧
    ¬ ObeysContract (pausingWriter.calls [.write [1, 2, 3], .write [9]]).1
        (pausingWriter.calls [.write [1, 2, 3], .write [9]]).2 ∧
    ¬ ObeysContract (pausingWriter.calls [.write [1, 2, 3], .shutdown]).1
        (pausingWriter.calls [.write [1, 2, 3], .shutdown]).2 := by
  refine ⟨fun h => ?_, fun h => ?_, fun h => ?_⟩
  · exact absurd h.data (by decide +kernel)
  · exact absurd (h.bounded [9] 3 (by decide +kernel)) (by decide)
  · exact h.shutdown (by decide +kernel)

end Abyss.Broker.Framed
