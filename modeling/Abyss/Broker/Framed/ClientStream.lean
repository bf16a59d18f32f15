import Abyss.Broker.Framed.FlowReader

/-! What a consumer of `FramedFlowIo` sees of the client: the payloads of its data frames, an
error for every frame that does not belong, and then the end. -/
namespace Abyss.Broker.Framed
open Abyss.Mitm (Bytes ErrorKind)
open Abyss.Stream

/-- What a consumer sees of the client: one byte, or an error. -/
inductive ClientEvent where
  | byte (b : UInt8)
  | error (e : IoError)
  deriving DecidableEq, Repr

section
variable (closePayload : Bytes → Option FlowClosePayload) (flowId : Uuid)

/-- Client data of the flow. -/
structure IsClientData (frame : FlowFrame) : Prop where
  flow : frame.flowId = flowId
  frameType : frame.frameType = .data
  direction : frame.direction = .clientToBroker

/-- The close frame of the client direction of the flow. -/
structure IsClientClose (frame : FlowFrame) : Prop where
  flow : frame.flowId = flowId
  frameType : frame.frameType = .close
  direction : frame.direction = .clientToBroker
  payload : (closePayload frame.payload).map FlowClosePayload.flowId = some flowId

/-- Why a frame is neither data nor the close of the flow. -/
def rejection (frame : FlowFrame) : IoError :=
  if frame.flowId ≠ flowId then invalidData "framed flow_id mismatch"
  else if frame.frameType = .close ∧ frame.direction = .clientToBroker then
    match closePayload frame.payload with
    | none => ioError (.json "decode FlowClose payload")
    | some _ => invalidData "FlowClose payload flow_id does not match frame header"
  else invalidData "unexpected framed flow frame"

instance (frame : FlowFrame) : Decidable (IsClientData flowId frame) :=
  decidable_of_iff (frame.flowId = flowId ∧ frame.frameType = .data ∧ frame.direction = .clientToBroker)
    ⟨fun h => ⟨h.1, h.2.1, h.2.2⟩, fun h => ⟨h.flow, h.frameType, h.direction⟩⟩

/-- Data contributes its payload; every other frame is one error. -/
def frameEvents (frame : FlowFrame) : List ClientEvent :=
  if IsClientData flowId frame then frame.payload.map .byte else [.error (rejection closePayload flowId frame)]

/-- The events of a byte stream of whole frames up to the close or the end of the socket. -/
inductive Upcoming (ending : Option ErrorKind) : Bytes → List ClientEvent → Prop
  | ended (h : ending = none) : Upcoming ending [] []
  | close {wire rest : Bytes} {frame : FlowFrame} (hframe : IsFrame wire frame)
      (hclose : IsClientClose closePayload flowId frame) : Upcoming ending (wire ++ rest) []
  | frame {wire rest : Bytes} {frame : FlowFrame} {events : List ClientEvent} (hframe : IsFrame wire frame)
      (hopen : ¬ IsClientClose closePayload flowId frame) (ht : Upcoming ending rest events) :
      Upcoming ending (wire ++ rest) (frameEvents closePayload flowId frame ++ events)

theorem frameEvents_data {frame : FlowFrame} (h : IsClientData flowId frame) :
    frameEvents closePayload flowId frame = frame.payload.map .byte := if_pos h

theorem frameEvents_rejected {frame : FlowFrame} (h : ¬ IsClientData flowId frame) :
    frameEvents closePayload flowId frame = [.error (rejection closePayload flowId frame)] := if_neg h

/-- A frame is on the wire in one way only. -/
theorem IsFrame.unique {wire wire' rest rest' : Bytes} {frame frame' : FlowFrame} (h : IsFrame wire frame)
    (h' : IsFrame wire' frame') (heq : wire ++ rest = wire' ++ rest') : frame = frame' ∧ rest = rest' := by
  have hnext := h.next rest none
  rw [heq, h'.next rest' none] at hnext
  simp only [Prod.mk.injEq, Except.ok.injEq, Option.some.injEq, FrameStream.mk.injEq, and_true] at hnext
  exact ⟨hnext.1.symm, hnext.2.symm⟩

variable {closePayload flowId}

/-- The whole frame at the front of a stream decides its first events. -/
theorem Upcoming.split {ending : Option ErrorKind} {wire rest : Bytes} {frame : FlowFrame}
    {events : List ClientEvent} (h : Upcoming closePayload flowId ending (wire ++ rest) events)
    (hframe : IsFrame wire frame) :
    IsClientClose closePayload flowId frame ∧ events = [] ∨
      ¬ IsClientClose closePayload flowId frame ∧ ∃ later,
        events = frameEvents closePayload flowId frame ++ later ∧ Upcoming closePayload flowId ending rest later := by
  generalize hbytes : wire ++ rest = bytes at h
  cases h with
  | ended =>
    have hlen := hframe.length_le
    simp [(List.append_eq_nil_iff.mp hbytes).1, frameHeaderLen] at hlen
  | close hframe' hclose =>
    obtain ⟨rfl, rfl⟩ := hframe.unique hframe' hbytes
    exact .inl ⟨hclose, rfl⟩
  | frame hframe' hopen ht =>
    obtain ⟨rfl, rfl⟩ := hframe.unique hframe' hbytes
    exact .inr ⟨hopen, _, rfl, ht⟩

theorem Upcoming.of_nil {ending : Option ErrorKind} {events : List ClientEvent}
    (h : Upcoming closePayload flowId ending [] events) : events = [] := by
  generalize hbytes : ([] : Bytes) = bytes at h
  cases h with
  | ended => rfl
  | close => rfl
  | frame hframe =>
    have hlen := hframe.length_le
    simp [(List.append_eq_nil_iff.mp hbytes.symm).1, frameHeaderLen] at hlen

/-- A stream of whole frames does not stop inside one. -/
theorem Upcoming.not_stops {ending : Option ErrorKind} {bytes : Bytes} {events : List ClientEvent}
    (h : Upcoming closePayload flowId ending bytes events) (fault : FrameFault) : ¬ Stops bytes ending fault := by
  intro hstops
  have hnext := hstops.next
  cases h with
  | ended hend =>
    subst hend
    cases hstops with
    | inHeader hne => exact hne rfl
    | malformed h => simp [frameHeaderLen] at h
    | inPayload h => simp [frameHeaderLen] at h
  | close hframe => rw [hframe.next] at hnext; cases hnext
  | frame hframe => rw [hframe.next] at hnext; cases hnext

namespace FramedFlowReader

/-- A reader whose client input is open, with the events still to come from its stream. -/
structure Serving (closePayload : Bytes → Option FlowClosePayload) (io : FramedFlowReader)
    (later : List ClientEvent) : Prop where
  notClosed : io.clientInputClosed = false
  upcoming : Upcoming closePayload io.flowId io.reader.stream.ending io.reader.unread later

/-- What polling for the next client frame can come to. -/
inductive ClientPoll (closePayload : Bytes → Option FlowClosePayload) (io : FramedFlowReader)
    (later : List ClientEvent) : Poll (Except IoError (Option Bytes)) → FramedFlowReader → Prop
  | pending {io' : FramedFlowReader} (h : Serving closePayload io' later)
      (hw : io'.reader.stream.waits < io.reader.stream.waits) : ClientPoll closePayload io later .pending io'
  | data {payload : Bytes} {rest : List ClientEvent} {io' : FramedFlowReader} (h : Serving closePayload io' rest)
      (hlater : later = payload.map .byte ++ rest) (hw : io'.reader.stream.waits = io.reader.stream.waits) :
      ClientPoll closePayload io later (.ready (.ok (some payload))) io'
  | rejected {e : IoError} {rest : List ClientEvent} {io' : FramedFlowReader} (h : Serving closePayload io' rest)
      (hlater : later = .error e :: rest) (hw : io'.reader.stream.waits = io.reader.stream.waits) :
      ClientPoll closePayload io later (.ready (.error e)) io'
  | ended {io' : FramedFlowReader} (hclosed : io'.clientInputClosed = true) (hlater : later = []) :
      ClientPoll closePayload io later (.ready (.ok none)) io'

theorem pollNextClientFrame_polls {io : FramedFlowReader} {later : List ClientEvent}
    (h : Serving closePayload io later) :
    ClientPoll closePayload io later (io.pollNextClientFrame closePayload).1
      (io.pollNextClientFrame closePayload).2 := by
  obtain ⟨hopen, hupcoming⟩ := h
  have hpolls := io.reader.poll_polls
  rw [pollNextClientFrame, hopen]
  simp only [Bool.false_eq_true, if_false]
  generalize io.reader.poll = answer at hpolls
  obtain ⟨result, reader⟩ := answer
  change io.reader.Polls result reader at hpolls
  cases hpolls with
  | pending hu he hw => exact .pending ⟨rfl, by rw [hu, he]; exact hupcoming⟩ hw
  | ended hu he =>
    rw [hu] at hupcoming
    exact .ended rfl hupcoming.of_nil
  | failed hstops => exact absurd hstops (hupcoming.not_stops _)
  | @frame frame wire _ hframe hu he hw =>
    rw [hu] at hupcoming
    simp only
    rcases hupcoming.split hframe with ⟨hclose, rfl⟩ | ⟨hnot, rest, rfl, ht⟩
    · obtain ⟨close, hpayload, hid⟩ := Option.map_eq_some_iff.mp hclose.payload
      simp only [hclose.flow, hclose.frameType, hclose.direction, hpayload, hid, ne_eq, not_true_eq_false, if_false]
      exact .ended rfl rfl
    · have hserving : Serving closePayload ⟨reader, io.flowId, false⟩ rest := ⟨rfl, by rw [he]; exact ht⟩
      by_cases hdata : IsClientData io.flowId frame
      · rw [frameEvents_data closePayload _ hdata]
        simp only [hdata.flow, hdata.frameType, hdata.direction, ne_eq, not_true_eq_false, if_false]
        exact .data hserving rfl hw
      · have hrejected : ClientPoll closePayload io (.error (rejection closePayload io.flowId frame) :: rest)
            (.ready (.error (rejection closePayload io.flowId frame))) ⟨reader, io.flowId, false⟩ :=
          .rejected hserving rfl hw
        rw [frameEvents_rejected closePayload _ hdata, List.singleton_append]
        by_cases hid : frame.flowId = io.flowId
        · split
          · next hne => exact absurd hid hne
          · split
            · next htype hdirection => exact absurd ⟨hid, htype, hdirection⟩ hdata
            · next htype hdirection =>
              rw [rejection, if_neg (not_not.mpr hid), if_pos ⟨htype, hdirection⟩] at hrejected ⊢
              cases hpayload : closePayload frame.payload with
              | none => rwa [hpayload] at hrejected
              | some close =>
                rw [hpayload] at hrejected
                have hmismatch : close.flowId ≠ io.flowId := by
                  intro hclose
                  exact hnot ⟨hid, htype, hdirection, by rw [hpayload, Option.map_some, hclose]⟩
                simp only [hmismatch, ne_eq, not_false_eq_true, if_true]
                exact hrejected
            · next hdata' hclose' =>
              rw [rejection, if_neg (not_not.mpr hid), if_neg (fun h => hclose' h.1 h.2)] at hrejected ⊢
              exact hrejected
        · rw [rejection, if_pos hid] at hrejected ⊢
          simp only [hid, ne_eq, not_false_eq_true, if_true]
          exact hrejected

theorem pollNextClientFrame_ready (io : FramedFlowReader) :
    (io.pollNextClientFrame closePayload).2.reader.state.ready = io.reader.state.ready := by
  have hready : io.reader.poll.2.state.ready = io.reader.state.ready := by
    have h := io.reader.state.pollNextFrame_ready io.reader.stream
    simp only [FrameReadState.ready, FrameReader.poll, h.readyPayload, h.readyPayloadOffset]
  simp only [pollNextClientFrame]
  split
  · rfl
  · generalize io.reader.poll = answer at hready ⊢
    split
    · exact hready
    · exact hready
    · exact hready
    · split
      · exact hready
      · split
        · exact hready
        · split
          · exact hready
          · split <;> exact hready
        · exact hready

theorem copyReadyPayload_cases (io : FramedFlowReader) (remaining : Nat) :
    io.reader.state.ready = [] ∧ (io.copyReadyPayload remaining).1 = none ∧
        (io.copyReadyPayload remaining).2.reader.state.ready = [] ∨
      io.reader.state.ready ≠ [] ∧ (io.copyReadyPayload remaining).1 = some (io.reader.state.ready.take remaining) ∧
        (io.copyReadyPayload remaining).2.reader.state.ready = io.reader.state.ready.drop remaining := by
  simp only [copyReadyPayload, FrameReadState.copyReadyPayload, FrameReadState.ready]
  split
  · next hle => exact .inl ⟨List.drop_eq_nil_iff.mpr hle, rfl, rfl⟩
  · next hlt =>
    refine .inr ⟨fun h => hlt (List.drop_eq_nil_iff.mp h), rfl, ?_⟩
    dsimp only
    rw [List.length_take, List.length_drop, List.drop_drop]
    rcases Nat.le_total remaining (io.reader.state.readyPayload.length - io.reader.state.readyPayloadOffset) with h | h
    · rw [Nat.min_eq_left h]
    · rw [Nat.min_eq_right h, List.drop_eq_nil_iff.mpr (by omega), List.drop_eq_nil_iff.mpr (by omega)]

/-- A reader that has seen the end of the client input and delivered everything. -/
structure Exhausted (io : FramedFlowReader) : Prop where
  closed : io.clientInputClosed = true
  ready : io.reader.state.ready = []

/-- The events that reads of `io` still deliver. -/
inductive Serves (closePayload : Bytes → Option FlowClosePayload) (io : FramedFlowReader) : List ClientEvent → Prop
  | exhausted (h : Exhausted io) : Serves closePayload io []
  | serving {later : List ClientEvent} (h : Serving closePayload io later) :
      Serves closePayload io (io.reader.state.ready.map .byte ++ later)

/-- What one read can come to. -/
inductive Reads (closePayload : Bytes → Option FlowClosePayload) (io : FramedFlowReader) (remaining : Nat)
    (events : List ClientEvent) : Poll (Except IoError Bytes) → FramedFlowReader → Prop
  | pending {io' : FramedFlowReader} (h : Serves closePayload io' events)
      (hw : io'.reader.stream.waits < io.reader.stream.waits) : Reads closePayload io remaining events .pending io'
  | bytes {copied : Bytes} {rest : List ClientEvent} {io' : FramedFlowReader} (h : Serves closePayload io' rest)
      (hne : copied ≠ []) (hevents : events = copied.map .byte ++ rest) (hw : io'.reader.stream.waits = io.reader.stream.waits) :
      Reads closePayload io remaining events (.ready (.ok copied)) io'
  | error {e : IoError} {rest : List ClientEvent} {io' : FramedFlowReader} (h : Serves closePayload io' rest)
      (hevents : events = .error e :: rest) (hw : io'.reader.stream.waits = io.reader.stream.waits) :
      Reads closePayload io remaining events (.ready (.error e)) io'
  | idle {io' : FramedFlowReader} (h : Serves closePayload io' events) (hzero : remaining = 0)
      (hw : io'.reader.stream.waits = io.reader.stream.waits) :
      Reads closePayload io remaining events (.ready (.ok [])) io'
  | ended {io' : FramedFlowReader} (h : Exhausted io') (hpos : remaining ≠ 0) (hevents : events = []) :
      Reads closePayload io remaining events (.ready (.ok [])) io'

private theorem Reads.after {io next io' : FramedFlowReader} {remaining : Nat} {events : List ClientEvent}
    {result : Poll (Except IoError Bytes)} (h : Reads closePayload next remaining events result io')
    (hw : next.reader.stream.waits = io.reader.stream.waits) :
    Reads closePayload io remaining events result io' := by
  cases h with
  | pending h hw' => exact .pending h (hw ▸ hw')
  | bytes h hne hevents hw' => exact .bytes h hne hevents (hw'.trans hw)
  | error h hevents hw' => exact .error h hevents (hw'.trans hw)
  | idle h hzero hw' => exact .idle h hzero (hw'.trans hw)
  | ended h hpos hevents => exact .ended h hpos hevents

/-- Copying leaves the frames still to come alone. -/
theorem Serving.copied {io : FramedFlowReader} {later : List ClientEvent} (h : Serving closePayload io later)
    (remaining : Nat) : Serving closePayload (io.copyReadyPayload remaining).2 later :=
  ⟨h.notClosed, by rw [unread_copyReadyPayload]; exact h.upcoming⟩

theorem Exhausted.pollRead {io : FramedFlowReader} (h : Exhausted io) (remaining : Nat) :
    (io.pollRead closePayload remaining).1 = .ready (.ok []) ∧ Exhausted (io.pollRead closePayload remaining).2 ∧
      (io.pollRead closePayload remaining).2.reader.stream = io.reader.stream := by
  rcases io.copyReadyPayload_cases remaining with ⟨_, hcopy, hready⟩ | ⟨hne, _, _⟩
  · have hclosed : (io.copyReadyPayload remaining).2.clientInputClosed = true := h.closed
    have hstream : (io.copyReadyPayload remaining).2.reader.stream = io.reader.stream := rfl
    rw [FramedFlowReader.pollRead]
    split
    · next hsome =>
      rw [hsome] at hcopy
      cases hcopy
    · next next hnext =>
      rw [hnext] at hclosed hready hstream
      split
      · exact ⟨rfl, ⟨hclosed, hready⟩, hstream⟩
      · have hpoll : next.pollNextClientFrame closePayload = (.ready (.ok none), next) := by
          rw [pollNextClientFrame, if_pos hclosed]
        rw [hpoll]
        exact ⟨rfl, ⟨hclosed, hready⟩, hstream⟩
  · exact absurd h.ready hne

private theorem copied_none {io next : FramedFlowReader} {remaining : Nat} {later : List ClientEvent}
    (h : Serving closePayload io later) (hcopy : io.copyReadyPayload remaining = (none, next)) :
    io.reader.state.ready = [] ∧ next.reader.state.ready = [] ∧ Serving closePayload next later ∧
      next.reader.stream.waits = io.reader.stream.waits := by
  have hnext := h.copied remaining
  have hstream : (io.copyReadyPayload remaining).2.reader.stream = io.reader.stream := rfl
  rcases io.copyReadyPayload_cases remaining with ⟨hready, _, hready'⟩ | ⟨_, hsome, _⟩
  · rw [hcopy] at hnext hstream hready'
    exact ⟨hready, hready', hnext, by rw [← hstream]⟩
  · rw [hcopy] at hsome
    cases hsome

/-- A payload that was just received is what the next reads deliver. -/
private theorem Serving.received {io : FramedFlowReader} {later : List ClientEvent} (h : Serving closePayload io later)
    (payload : Bytes) : Serving closePayload (io.setReadyPayload payload) later :=
  ⟨h.notClosed, by rw [unread_setReadyPayload]; exact h.upcoming⟩

/-- One read delivers the next events, waits, or reports the end. -/
theorem Serving.pollRead {io : FramedFlowReader} {later : List ClientEvent} (h : Serving closePayload io later)
    (remaining : Nat) :
    Reads closePayload io remaining (io.reader.state.ready.map .byte ++ later) (io.pollRead closePayload remaining).1
      (io.pollRead closePayload remaining).2 := by
  fun_induction FramedFlowReader.pollRead closePayload io remaining generalizing later with
  | case1 io copied next hcopy =>
    have hnext := h.copied remaining
    have hstream : (io.copyReadyPayload remaining).2.reader.stream = io.reader.stream := rfl
    rcases io.copyReadyPayload_cases remaining with ⟨_, hnone, _⟩ | ⟨hne, hsome, hrest⟩
    · rw [hcopy] at hnone
      cases hnone
    · rw [hcopy] at hnext hsome hrest hstream
      obtain rfl : copied = io.reader.state.ready.take remaining := Option.some.inj hsome
      have hevents : io.reader.state.ready.map ClientEvent.byte ++ later =
          (io.reader.state.ready.take remaining).map ClientEvent.byte ++ (next.reader.state.ready.map .byte ++ later) := by
        rw [← List.append_assoc, ← List.map_append, hrest, List.take_append_drop]
      have hw : next.reader.stream.waits = io.reader.stream.waits := by rw [← hstream]
      by_cases hzero : remaining = 0
      · subst hzero
        rw [hevents]
        exact .idle (.serving hnext) rfl hw
      · refine .bytes (.serving hnext) ?_ hevents hw
        simp only [ne_eq, List.take_eq_nil_iff, not_or]
        exact ⟨hzero, hne⟩
  | case2 io next hcopy =>
    obtain ⟨hready, hready', hnext, hw⟩ := copied_none h hcopy
    have hserves : Serves closePayload next (next.reader.state.ready.map .byte ++ later) := .serving hnext
    rw [hready'] at hserves
    rw [hready]
    exact .idle hserves ‹_› hw
  | case3 io next hcopy hpos last hpoll =>
    obtain ⟨hready, hready', hnext, hw⟩ := copied_none h hcopy
    have hpolls := pollNextClientFrame_polls hnext
    have hkept := @pollNextClientFrame_ready closePayload next
    rw [hpoll] at hpolls hkept
    cases hpolls with
    | pending hserving hw' =>
      rw [hready, ← hready', ← hkept]
      exact .pending (.serving hserving) (hw ▸ hw')
  | case4 io next hcopy hpos e last hpoll =>
    obtain ⟨hready, hready', hnext, hw⟩ := copied_none h hcopy
    have hpolls := pollNextClientFrame_polls hnext
    have hkept := @pollNextClientFrame_ready closePayload next
    rw [hpoll] at hpolls hkept
    cases hpolls with
    | rejected hserving hlater hw' =>
      refine .error (.serving hserving) ?_ (hw'.trans hw)
      rw [hready, hlater, hkept, hready']
      rfl
  | case5 io next hcopy hpos last hpoll =>
    obtain ⟨hready, hready', hnext, hw⟩ := copied_none h hcopy
    have hpolls := pollNextClientFrame_polls hnext
    have hkept := @pollNextClientFrame_ready closePayload next
    rw [hpoll] at hpolls hkept
    cases hpolls with
    | ended hclosed hlater =>
      refine .ended ⟨hclosed, hkept.trans hready'⟩ hpos ?_
      rw [hready, hlater]
      rfl
  | case6 io next hcopy hpos payload last hpoll ih =>
    obtain ⟨hready, hready', hnext, hw⟩ := copied_none h hcopy
    have hpolls := pollNextClientFrame_polls hnext
    rw [hpoll] at hpolls
    cases hpolls with
    | data hserving hlater hw' =>
      rw [hready, hlater]
      exact (ih (hserving.received payload)).after (hw'.trans hw)

theorem Serves.pollRead {io : FramedFlowReader} {events : List ClientEvent} (h : Serves closePayload io events)
    (remaining : Nat) :
    Reads closePayload io remaining events (io.pollRead closePayload remaining).1
      (io.pollRead closePayload remaining).2 := by
  cases h with
  | serving h => exact h.pollRead remaining
  | exhausted h =>
    obtain ⟨hresult, hio, hstream⟩ := @Exhausted.pollRead closePayload io h remaining
    rw [hresult]
    by_cases hzero : remaining = 0
    · exact .idle (.exhausted hio) hzero (by rw [hstream])
    · exact .ended hio hzero rfl

/-- What an answer shows of the client. -/
def eventsOf : Poll (Except IoError Bytes) → List ClientEvent
  | .pending => []
  | .ready (.ok bytes) => bytes.map .byte
  | .ready (.error e) => [.error e]

theorem Serves.reads {io : FramedFlowReader} {events : List ClientEvent} (h : Serves closePayload io events)
    (sizes : List Nat) :
    ∃ rest, Serves closePayload (io.reads closePayload sizes).2 rest ∧
      (io.reads closePayload sizes).1.flatMap eventsOf ++ rest = events := by
  induction sizes generalizing io events with
  | nil => exact ⟨events, h, rfl⟩
  | cons n sizes ih =>
    have hread := h.pollRead n
    simp only [FramedFlowReader.reads, List.flatMap_cons]
    generalize io.pollRead closePayload n = answer at hread ⊢
    obtain ⟨result, io'⟩ := answer
    change Reads closePayload io n events result io' at hread
    cases hread with
    | pending h hw => exact ih h
    | bytes h hne hevents hw =>
      obtain ⟨rest, hrest, heq⟩ := ih h
      exact ⟨rest, hrest, by rw [hevents, ← heq, List.append_assoc]; rfl⟩
    | error h hevents hw =>
      obtain ⟨rest, hrest, heq⟩ := ih h
      exact ⟨rest, hrest, by rw [hevents, ← heq, List.append_assoc]; rfl⟩
    | idle h hzero hw => exact ih h
    | ended h hpos hevents =>
      rw [hevents]
      exact ih (.exhausted h)

theorem Exhausted.reads {io : FramedFlowReader} (h : Exhausted io) (sizes : List Nat) :
    ∀ answer ∈ (io.reads closePayload sizes).1, answer = .ready (.ok []) := by
  induction sizes generalizing io with
  | nil => simp [FramedFlowReader.reads]
  | cons n sizes ih =>
    obtain ⟨hresult, hio, _⟩ := @Exhausted.pollRead closePayload io h n
    simp only [FramedFlowReader.reads, List.mem_cons, forall_eq_or_imp]
    exact ⟨hresult, ih hio⟩

/-- An empty answer to a buffer with room is the end. -/
theorem Serves.pollRead_empty {io : FramedFlowReader} {events : List ClientEvent} (h : Serves closePayload io events)
    {n : Nat} (hn : n ≠ 0) (hempty : (io.pollRead closePayload n).1 = .ready (.ok [])) :
    events = [] ∧ Exhausted (io.pollRead closePayload n).2 := by
  have hread := h.pollRead n
  rw [hempty] at hread
  cases hread with
  | bytes h hne => exact absurd rfl hne
  | idle h hzero => exact absurd hzero hn
  | ended h hpos hevents => exact ⟨hevents, h⟩

/-- Enough reads with room reach the end. -/
theorem Serves.finishes {io : FramedFlowReader} {events : List ClientEvent} (h : Serves closePayload io events)
    {sizes : List Nat} (hsizes : events.length + io.reader.stream.waits < sizes.countP (· ≠ 0)) :
    ∃ front n back, sizes = front ++ n :: back ∧ n ≠ 0 ∧
      ((io.reads closePayload front).2.pollRead closePayload n).1 = .ready (.ok []) := by
  induction sizes generalizing io events with
  | nil => simp at hsizes
  | cons n sizes ih =>
    have hread := h.pollRead n
    generalize hanswer : io.pollRead closePayload n = answer at hread
    obtain ⟨result, io'⟩ := answer
    change Reads closePayload io n events result io' at hread
    have hlater {events' : List ClientEvent} (h' : Serves closePayload io' events')
        (hlt : events'.length + io'.reader.stream.waits < sizes.countP (· ≠ 0)) :
        ∃ front k back, n :: sizes = front ++ k :: back ∧ k ≠ 0 ∧
          ((io.reads closePayload front).2.pollRead closePayload k).1 = .ready (.ok []) := by
      obtain ⟨front, k, back, hsplit, hk, hend⟩ := ih h' hlt
      refine ⟨n :: front, k, back, by rw [hsplit]; rfl, hk, ?_⟩
      simpa only [FramedFlowReader.reads, hanswer] using hend
    rw [List.countP_cons] at hsizes
    cases hread with
    | pending h hw =>
      apply hlater h
      split at hsizes <;> omega
    | @bytes copied rest _ h hne hevents hw =>
      have hpos := List.length_pos_iff.mpr hne
      rw [hevents, List.length_append, List.length_map] at hsizes
      apply hlater h
      split at hsizes <;> omega
    | error h hevents hw =>
      rw [hevents, List.length_cons] at hsizes
      apply hlater h
      split at hsizes <;> omega
    | idle h hzero hw =>
      apply hlater h
      simpa [hzero, hw] using hsizes
    | ended h hpos hevents => exact ⟨[], n, sizes, rfl, hpos, by rw [FramedFlowReader.reads, hanswer]⟩

end FramedFlowReader

variable (closePayload flowId)

/-- How client input ends: with the socket, or with the close of the flow before anything. -/
inductive ClientEnds : Bytes → Option ErrorKind → Prop
  | socket : ClientEnds [] none
  | close {wire rest : Bytes} {frame : FlowFrame} {ending : Option ErrorKind} (hframe : IsFrame wire frame)
      (hclose : IsClientClose closePayload flowId frame) : ClientEnds (wire ++ rest) ending

variable {closePayload flowId}

theorem AreFrames.upcoming {bytes tail : Bytes} {ending : Option ErrorKind} {fs : List FlowFrame}
    (h : AreFrames bytes fs) (hopen : ∀ f ∈ fs, ¬ IsClientClose closePayload flowId f)
    (htail : ClientEnds closePayload flowId tail ending) :
    Upcoming closePayload flowId ending (bytes ++ tail) (fs.flatMap (frameEvents closePayload flowId)) := by
  induction h with
  | nil =>
    rw [List.nil_append]
    cases htail with
    | socket => exact .ended rfl
    | close hframe hclose => exact .close hframe hclose
  | @cons wire bytes frame fs hframe _ ih =>
    rw [List.append_assoc]
    exact .frame hframe (hopen frame List.mem_cons_self) (ih (fun f hf => hopen f (List.mem_cons_of_mem _ hf)))

/-- Reads deliver the payloads of the client data frames in order and nothing else; any other frame
is one error in its place. An empty answer to a buffer with room comes only behind all of them, is
reached by enough reads, and is then the answer to every read. -/
theorem framed_flow_reads {fs : List FlowFrame} {bytes tail : Bytes} {stream : Socket}
    (hframes : AreFrames bytes fs) (hopen : ∀ f ∈ fs, ¬ IsClientClose closePayload flowId f)
    (hstream : stream.contents = bytes ++ tail) (htail : ClientEnds closePayload flowId tail stream.ending) :
    (∀ sizes, ((FramedFlowReader.new stream flowId).reads closePayload sizes).1.flatMap FramedFlowReader.eventsOf <+:
      fs.flatMap (frameEvents closePayload flowId)) ∧
    (∀ sizes n, n ≠ 0 →
      ((((FramedFlowReader.new stream flowId).reads closePayload sizes).2).pollRead closePayload n).1 = .ready (.ok []) →
      ((FramedFlowReader.new stream flowId).reads closePayload sizes).1.flatMap FramedFlowReader.eventsOf =
          fs.flatMap (frameEvents closePayload flowId) ∧
        ∀ more, ∀ answer ∈ (((((FramedFlowReader.new stream flowId).reads closePayload sizes).2).pollRead closePayload
          n).2.reads closePayload more).1, answer = .ready (.ok [])) ∧
    (∀ sizes : List Nat,
      (fs.flatMap (frameEvents closePayload flowId)).length + stream.waits < sizes.countP (· ≠ 0) →
      ∃ front n back, sizes = front ++ n :: back ∧ n ≠ 0 ∧
        ((((FramedFlowReader.new stream flowId).reads closePayload front).2).pollRead closePayload n).1 =
          .ready (.ok [])) ∧
    ((∀ f ∈ fs, IsClientData flowId f) →
      fs.flatMap (frameEvents closePayload flowId) = (fs.flatMap FlowFrame.payload).map .byte) ∧
    ∀ f ∈ fs, (f.flowId ≠ flowId ∨ f.frameType ≠ .data ∨ f.direction ≠ .clientToBroker) →
      ∃ e, frameEvents closePayload flowId f = [.error e] := by
  have hserves : (FramedFlowReader.new stream flowId).Serves closePayload
      (fs.flatMap (frameEvents closePayload flowId)) := by
    apply FramedFlowReader.Serves.serving
    refine ⟨rfl, ?_⟩
    have hunread : (FramedFlowReader.new stream flowId).reader.unread = bytes ++ tail := hstream
    rw [hunread]
    exact hframes.upcoming hopen htail
  refine ⟨?_, ?_, ?_, ?_, ?_⟩
  · intro sizes
    obtain ⟨rest, _, heq⟩ := hserves.reads sizes
    exact ⟨rest, heq⟩
  · intro sizes n hn hempty
    obtain ⟨rest, hrest, heq⟩ := hserves.reads sizes
    obtain ⟨rfl, hexhausted⟩ := hrest.pollRead_empty hn hempty
    rw [List.append_nil] at heq
    exact ⟨heq, hexhausted.reads⟩
  · intro sizes hsizes
    exact hserves.finishes hsizes
  · intro hdata
    rw [List.map_flatMap]
    exact List.flatMap_congr (fun f hf => frameEvents_data closePayload flowId (hdata f hf))
  · intro f _ hother
    refine ⟨_, frameEvents_rejected closePayload flowId ?_⟩
    intro hdata
    rcases hother with h | h | h
    · exact h hdata.flow
    · exact h hdata.frameType
    · exact h hdata.direction

end

theorem sampleFrames_wire :
    AreFrames (sampleFrames.flatMap fun f => f.header ++ f.payload) sampleFrames := by
  have hle : ∀ f ∈ sampleFrames, f.payload.length ≤ maxFramePayloadLen := by decide
  exact .cons (isFrame_encode (hle _ (by simp [sampleFrames])))
    (.cons (isFrame_encode (hle _ (by simp [sampleFrames]))) .nil)

/-- Six one-byte reads of the sample flow see its two bytes, its three waits and its end. -/
theorem framed_flow_reads_sample :
    (sampleFrames.flatMap (frameEvents (fun _ => none) sampleId) = [.byte 104, .byte 105]) ∧
    ∃ front n back, List.replicate 6 1 = front ++ n :: back ∧ n ≠ 0 ∧
      ((((FramedFlowReader.new sampleStream sampleId).reads (fun _ => none) front).2).pollRead (fun _ => none) n).1 =
        .ready (.ok []) := by
  have hdata : ∀ f ∈ sampleFrames, IsClientData sampleId f := by decide
  have hopen : ∀ f ∈ sampleFrames, ¬ IsClientClose (fun _ => none) sampleId f := by
    intro f hf hclose
    have htype := (hdata f hf).frameType
    rw [hclose.frameType] at htype
    cases htype
  obtain ⟨_, _, hfinishes, hbytes, _⟩ :=
    @framed_flow_reads (fun _ => none) sampleId _ _ [] sampleStream sampleFrames_wire hopen (by decide) .socket
  have hevents := hbytes hdata
  refine ⟨hevents, hfinishes (List.replicate 6 1) ?_⟩
  rw [hevents]
  decide

end Abyss.Broker.Framed
