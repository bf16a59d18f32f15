import Abyss.Broker.Framed.Decoders
import Abyss.Text.Scalar

/-! The read side of `FramedFlowIo`: client data frames turned back into a byte stream. The
decoder of `FlowClose` payloads is a parameter. -/
namespace Abyss.Broker.Framed
open Abyss.Mitm (Bytes ErrorKind)
open Abyss.Stream

namespace FrameReadState

def setReadyPayload (st : FrameReadState) (payload : Bytes) : FrameReadState :=
  { st with readyPayload := payload, readyPayloadOffset := 0 }

/-- Copy buffered payload into a buffer with room for `remaining` bytes; `none` when there
is no payload left. -/
def copyReadyPayload (st : FrameReadState) (remaining : Nat) : Option Bytes × FrameReadState :=
  if st.readyPayload.length ≤ st.readyPayloadOffset then
    (none, { st with readyPayload := [], readyPayloadOffset := 0 })
  else
    let copied := (st.readyPayload.drop st.readyPayloadOffset).take remaining
    (some copied, { st with readyPayloadOffset := st.readyPayloadOffset + copied.length })

/-- The buffered payload bytes that are not yet copied. -/
def ready (st : FrameReadState) : Bytes := st.readyPayload.drop st.readyPayloadOffset

/-- Only the buffered payload differs. -/
structure SameFrame (st st' : FrameReadState) : Prop where
  header : st'.header = st.header
  headerLen : st'.headerLen = st.headerLen
  payload : st'.payload = st.payload
  payloadLen : st'.payloadLen = st.payloadLen
  payloadOffset : st'.payloadOffset = st.payloadOffset

theorem SameFrame.front {st st' : FrameReadState} (h : SameFrame st st') : st'.front = st.front := by
  simp only [FrameReadState.front, h.header, h.headerLen, h.payload, h.payloadLen, h.payloadOffset]

theorem SameFrame.wellFormed {st st' : FrameReadState} (h : SameFrame st st') (hst : st.WellFormed) :
    st'.WellFormed := by
  cases hst with
  | header hin => exact .header ⟨h.header ▸ hin.length_header, h.headerLen ▸ hin.headerLen, h.payloadLen ▸ hin.payloadLen⟩
  | payload hin =>
    exact .payload ⟨h.header ▸ hin.length_header, h.headerLen ▸ hin.headerLen, h.payloadLen ▸ hin.payloadLen,
      h.header ▸ hin.decodes, h.payload ▸ hin.length_payload, h.payloadOffset ▸ hin.payloadOffset⟩

theorem sameFrame_setReadyPayload (st : FrameReadState) (payload : Bytes) : SameFrame st (st.setReadyPayload payload) :=
  ⟨rfl, rfl, rfl, rfl, rfl⟩

theorem sameFrame_copyReadyPayload (st : FrameReadState) (remaining : Nat) :
    SameFrame st (st.copyReadyPayload remaining).2 := by
  unfold copyReadyPayload
  split <;> exact ⟨rfl, rfl, rfl, rfl, rfl⟩

end FrameReadState

namespace FrameReadState

/-- Only the partial frame differs. -/
structure SameReady (st st' : FrameReadState) : Prop where
  readyPayload : st'.readyPayload = st.readyPayload
  readyPayloadOffset : st'.readyPayloadOffset = st.readyPayloadOffset

theorem SameReady.trans {st st' st'' : FrameReadState} (h : SameReady st st') (h' : SameReady st' st'') :
    SameReady st st'' :=
  ⟨h'.readyPayload.trans h.readyPayload, h'.readyPayloadOffset.trans h.readyPayloadOffset⟩

theorem pollReadHeader_ready (st : FrameReadState) (stream : Socket) :
    SameReady st (st.pollReadHeader stream).2.1 := by
  simp only [pollReadHeader]
  split
  · exact ⟨rfl, rfl⟩
  · exact ⟨rfl, rfl⟩
  · split
    · split <;> exact ⟨rfl, rfl⟩
    · split <;> exact ⟨rfl, rfl⟩

theorem fillHeader_ready (st : FrameReadState) (stream : Socket) : SameReady st (st.fillHeader stream).2.1 := by
  fun_induction fillHeader st stream with
  | case1 st stream hlt st' stream' hpoll ih =>
    have hready := st.pollReadHeader_ready stream
    rw [hpoll] at hready
    exact hready.trans ih
  | case2 st stream => exact st.pollReadHeader_ready stream
  | case3 => exact ⟨rfl, rfl⟩

theorem pollReadPayload_ready (st : FrameReadState) (n : Nat) (stream : Socket) :
    SameReady st (st.pollReadPayload n stream).2.1 := by
  fun_induction pollReadPayload st n stream with
  | case5 _ _ _ _ _ _ _ _ _ _ ih => exact ⟨ih.readyPayload, ih.readyPayloadOffset⟩
  | _ => exact ⟨rfl, rfl⟩

theorem completeFrame_ready (st : FrameReadState) (n : Nat) (stream : Socket) (allocated : List Nat) :
    SameReady st (st.completeFrame n stream allocated).state := by
  have hready := st.pollReadPayload_ready n stream
  rw [completeFrame]
  generalize st.pollReadPayload n stream = answer at hready ⊢
  split
  · exact hready
  · exact hready
  · split <;> exact ⟨hready.readyPayload, hready.readyPayloadOffset⟩

/-- Decoding frames leaves the buffered payload alone. -/
theorem pollNextFrame_ready (st : FrameReadState) (stream : Socket) :
    SameReady st (st.pollNextFrame stream).state := by
  have hready := st.fillHeader_ready stream
  rw [pollNextFrame]
  generalize st.fillHeader stream = answer at hready ⊢
  split
  · exact hready
  · exact hready
  · exact hready
  · next st' stream' =>
    split
    · exact hready.trans (completeFrame_ready _ _ _ _)
    · split
      · exact hready
      · next n _ =>
        have hstart : SameReady st' (st'.startPayload n) := ⟨rfl, rfl⟩
        exact hready.trans (hstart.trans (completeFrame_ready _ _ _ _))

end FrameReadState

structure FlowClosePayload where
  flowId : Uuid
  reason : Text.Str

/-- The parts of `FramedFlowIo` that its read side uses. -/
structure FramedFlowReader where
  reader : FrameReader
  flowId : Uuid
  clientInputClosed : Bool

namespace FramedFlowReader

def new (stream : Socket) (flowId : Uuid) : FramedFlowReader := ⟨.new stream, flowId, false⟩

def setReadyPayload (io : FramedFlowReader) (payload : Bytes) : FramedFlowReader :=
  { io with reader := ⟨io.reader.state.setReadyPayload payload, io.reader.stream,
      (FrameReadState.sameFrame_setReadyPayload _ payload).wellFormed io.reader.wellFormed⟩ }

def copyReadyPayload (io : FramedFlowReader) (remaining : Nat) : Option Bytes × FramedFlowReader :=
  ((io.reader.state.copyReadyPayload remaining).1,
    { io with reader := ⟨(io.reader.state.copyReadyPayload remaining).2, io.reader.stream,
      (FrameReadState.sameFrame_copyReadyPayload _ remaining).wellFormed io.reader.wellFormed⟩ })

section
variable (closePayload : Bytes → Option FlowClosePayload)

def pollNextClientFrame (io : FramedFlowReader) : Poll (Except IoError (Option Bytes)) × FramedFlowReader :=
  if io.clientInputClosed then (.ready (.ok none), io) else
  match io.reader.poll with
  | (.pending, reader) => (.pending, { io with reader })
  | (.ready (.error e), reader) => (.ready (.error e), { io with reader })
  | (.ready (.ok none), reader) => (.ready (.ok none), { io with reader, clientInputClosed := true })
  | (.ready (.ok (some frame)), reader) =>
    let io := { io with reader }
    if frame.flowId ≠ io.flowId then (.ready (.error (invalidData "framed flow_id mismatch")), io) else
    match frame.frameType, frame.direction with
    | .data, .clientToBroker => (.ready (.ok (some frame.payload)), io)
    | .close, .clientToBroker =>
      match closePayload frame.payload with
      | none => (.ready (.error (ioError (.json "decode FlowClose payload"))), io)
      | some close =>
        if close.flowId ≠ io.flowId then
          (.ready (.error (invalidData "FlowClose payload flow_id does not match frame header")), io)
        else (.ready (.ok none), { io with clientInputClosed := true })
    | _, _ => (.ready (.error (invalidData "unexpected framed flow frame")), io)

theorem unread_setReadyPayload (io : FramedFlowReader) (payload : Bytes) :
    (io.setReadyPayload payload).reader.unread = io.reader.unread :=
  congrArg (· ++ io.reader.stream.contents) (FrameReadState.sameFrame_setReadyPayload _ payload).front

theorem unread_copyReadyPayload (io : FramedFlowReader) (remaining : Nat) :
    (io.copyReadyPayload remaining).2.reader.unread = io.reader.unread :=
  congrArg (· ++ io.reader.stream.contents) (FrameReadState.sameFrame_copyReadyPayload _ remaining).front

theorem pollNextClientFrame_shrinks {io io' : FramedFlowReader} {payload : Bytes}
    (h : io.pollNextClientFrame closePayload = (.ready (.ok (some payload)), io')) :
    io'.reader.unread.length < io.reader.unread.length := by
  have hpolls := io.reader.poll_polls
  rw [pollNextClientFrame] at h
  split at h
  · cases h
  · generalize io.reader.poll = answer at hpolls h
    obtain ⟨result, reader⟩ := answer
    cases hpolls with
    | pending => cases h
    | ended => cases h
    | failed => cases h
    | @frame frame wire _ hframe hu _ _ =>
      have hreader : io'.reader = reader := by
        simp only at h
        split at h
        · cases h
        · split at h
          · cases h
            rfl
          · split at h
            · cases h
            · split at h <;> cases h
          · cases h
      have hlen := hframe.length_le
      rw [hreader, hu]
      simp only [List.length_append, frameHeaderLen] at hlen ⊢
      omega

/-- Fill a buffer that has room for `remaining` bytes. -/
def pollRead (io : FramedFlowReader) (remaining : Nat) : Poll (Except IoError Bytes) × FramedFlowReader :=
  match _hcopy : io.copyReadyPayload remaining with
  | (some copied, next) => (.ready (.ok copied), next)
  | (none, next) =>
    if remaining = 0 then (.ready (.ok []), next) else
    match _hframe : next.pollNextClientFrame closePayload with
    | (.pending, last) => (.pending, last)
    | (.ready (.error e), last) => (.ready (.error e), last)
    | (.ready (.ok none), last) => (.ready (.ok []), last)
    | (.ready (.ok (some payload)), last) => pollRead (last.setReadyPayload payload) remaining
termination_by io.reader.unread.length
decreasing_by
  have hshrinks := pollNextClientFrame_shrinks closePayload _hframe
  have hcopied := unread_copyReadyPayload io remaining
  rw [_hcopy] at hcopied
  rw [unread_setReadyPayload, ← hcopied]
  exact hshrinks

/-- The answers to a sequence of reads with these buffer sizes. -/
def reads (io : FramedFlowReader) : List Nat → List (Poll (Except IoError Bytes)) × FramedFlowReader
  | [] => ([], io)
  | remaining :: rest =>
    ((io.pollRead closePayload remaining).1 :: (reads (io.pollRead closePayload remaining).2 rest).1,
      (reads (io.pollRead closePayload remaining).2 rest).2)

end
end FramedFlowReader

end Abyss.Broker.Framed
