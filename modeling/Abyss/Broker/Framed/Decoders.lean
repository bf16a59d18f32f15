import Abyss.Broker.Framed.Resume

/-! Both decoders of a frame stream draw the frames of its bytes, however they arrive. -/
namespace Abyss.Broker.Framed
open Abyss.Mitm (Bytes ErrorKind bind_eq_ok)
open Abyss.Stream

/-- What reading one header can come to. -/
inductive ReadsHeader (reader : Socket) : Except FlowProtocolError (Option Bytes) → Socket → Prop
  | header {reader' : Socket} (hlen : frameHeaderLen ≤ reader.contents.length)
      (hc : reader'.contents = reader.contents.drop frameHeaderLen) (he : reader'.ending = reader.ending) :
      ReadsHeader reader (.ok (some (reader.contents.take frameHeaderLen))) reader'
  | ended {reader' : Socket} (hc : reader.contents = []) (he : reader.ending = none) :
      ReadsHeader reader (.ok none) reader'
  | failed {reader' : Socket} {fault : FrameFault} (hlen : reader.contents.length < frameHeaderLen)
      (hstops : Stops reader.contents reader.ending fault) :
      ReadsHeader reader (.error fault.protocolError) reader'

theorem readHeader_reads (reader : Socket) : ReadsHeader reader (readHeader reader).1 (readHeader reader).2 := by
  have hread := @Polled.read_delivers _ _ reader 1 (by omega)
  rw [readHeader]
  generalize (Polled.read 1).await reader = answer at hread ⊢
  obtain ⟨result, next⟩ := answer
  change Polled.Delivers 1 reader result next at hread
  cases hread with
  | ended hc he => exact .ended hc he
  | @failed e _ hc he =>
    refine @ReadsHeader.failed _ _ (.broken e) (by simp [hc, frameHeaderLen]) ?_
    rw [hc, he]
    exact .broken e
  | @items item items _ hcap hc he =>
    obtain rfl := List.eq_nil_of_length_eq_zero (Nat.lt_one_iff.mp hcap)
    have hlen : reader.contents.length = next.contents.length + 1 := by simp [hc]
    simp only [List.length_cons, List.length_nil, Nat.zero_add, Nat.one_ne_zero, if_false]
    by_cases hshort : next.contents.length < frameHeaderLen - 1
    · have hexact := next.readExact_short .unexpectedEof _ hshort
      generalize next.readExact .unexpectedEof (frameHeaderLen - 1) = answer at hexact ⊢
      obtain ⟨result, reader'⟩ := answer
      obtain rfl : result = _ := hexact
      rw [he]
      have hlt : reader.contents.length < frameHeaderLen := by omega
      exact @ReadsHeader.failed _ _ (.cut .header reader.ending) hlt (.inHeader (by simp [hc]) hlt)
    · obtain ⟨reader', hexact, hc', he'⟩ :=
        next.readExact_ok .unexpectedEof (frameHeaderLen - 1) (Nat.not_lt.mp hshort)
      have htake : reader.contents.take frameHeaderLen = [item] ++ next.contents.take (frameHeaderLen - 1) := by
        rw [hc]
        rfl
      simp only [hexact, ← htake]
      exact .header (by omega) (by rw [hc', hc]; rfl) (he'.trans he)

/-- A decoder's answer to the next frame of its unread bytes, and the bytes it leaves. -/
inductive Draws {ε : Type} (render : FrameFault → ε) (bytes : Bytes) (ending : Option ErrorKind) :
    Except ε (Option FlowFrame) → Bytes → Option ErrorKind → Prop
  | frame {frame : FlowFrame} {wire rest : Bytes} {ending' : Option ErrorKind} (hframe : IsFrame wire frame)
      (hbytes : bytes = wire ++ rest) (hend : ending' = ending) :
      Draws render bytes ending (.ok (some frame)) rest ending'
  | ended {rest : Bytes} {ending' : Option ErrorKind} (hbytes : bytes = []) (hend : ending = none) :
      Draws render bytes ending (.ok none) rest ending'
  | failed {fault : FrameFault} {rest : Bytes} {ending' : Option ErrorKind} (hstops : Stops bytes ending fault) :
      Draws render bytes ending (.error (render fault)) rest ending'

/-- A decoder that draws every next frame draws the frames of its stream. -/
theorem drain_draws {σ ε : Type} (p : Producer σ FlowFrame ε) {render : FrameFault → ε} {bytes : σ → Bytes}
    {ending : σ → Option ErrorKind}
    (h : ∀ s, Draws render (bytes s) (ending s) (p.next s).1 (bytes (p.next s).2) (ending (p.next s).2)) (s : σ) :
    p.drain s = ((frames.drain ⟨bytes s, ending s⟩).1, (frames.drain ⟨bytes s, ending s⟩).2.map render) := by
  fun_induction Producer.drain p s with
  | case1 s item s' hnext ih =>
    have hs := h s
    rw [hnext] at hs
    cases hs with
    | frame hframe hbytes hend => rw [hbytes, Producer.drain_item (p := frames) (hframe.next _ _), ih, hend]
  | case2 s s' hnext =>
    have hs := h s
    rw [hnext] at hs
    cases hs with
    | ended hbytes hend =>
      rw [hbytes, hend, Producer.drain_end (show frames.next ⟨[], none⟩ = (.ok none, ⟨[], none⟩) from rfl)]
      rfl
  | case3 s e s' hnext =>
    have hs := h s
    rw [hnext] at hs
    cases hs with
    | failed hstops =>
      rw [Producer.drain_error (p := frames) hstops.next]
      rfl

theorem readFrame_draws (reader : Socket) :
    Draws FrameFault.protocolError reader.contents reader.ending (readFrame reader).result
      (readFrame reader).reader.contents (readFrame reader).reader.ending := by
  have hheader := readHeader_reads reader
  rw [readFrame]
  generalize readHeader reader = answer at hheader ⊢
  obtain ⟨result, next⟩ := answer
  change ReadsHeader reader result next at hheader
  cases hheader with
  | ended hc he => exact .ended hc he
  | failed _ hstops => exact .failed hstops
  | header hlen hc he =>
    simp only [FlowFrame.payloadLen]
    cases hdecode : FlowFrameHeader.decode (reader.contents.take frameHeaderLen) with
    | error e => exact @Draws.failed _ _ _ _ (.malformed e) _ _ (.malformed hlen hdecode)
    | ok decoded =>
      simp only [bind, Except.bind]
      by_cases hshort : next.contents.length < decoded.payloadLen
      · have hexact := next.readExact_short .unexpectedEof _ hshort
        generalize next.readExact .unexpectedEof decoded.payloadLen = answer at hexact ⊢
        obtain ⟨result, reader'⟩ := answer
        obtain rfl : result = _ := hexact
        rw [he]
        exact @Draws.failed _ _ _ _ (.cut .payload reader.ending) _ _ (.inPayload hlen hdecode (hc ▸ hshort))
      · obtain ⟨reader', hexact, hc', he'⟩ := next.readExact_ok .unexpectedEof _ (Nat.not_lt.mp hshort)
        simp only [hexact, FlowFrame.decode, hdecode, bind, Except.bind, Except.map, he', he]
        rw [hc]
        refine Draws.frame (isFrame_take hlen hdecode (hc ▸ Nat.not_lt.mp hshort)) ?_ rfl
        rw [hc', hc, List.drop_drop, List.take_append_drop]

private theorem Draws.shrinks {ε : Type} {render : FrameFault → ε} {bytes rest : Bytes}
    {ending ending' : Option ErrorKind} {frame : FlowFrame}
    (h : Draws render bytes ending (.ok (some frame)) rest ending') : rest.length < bytes.length := by
  cases h with
  | frame hframe hbytes =>
    have hlen := hframe.length_le
    simp only [hbytes, List.length_append, frameHeaderLen] at hlen ⊢
    omega

/-- The frames that repeated calls of `read_frame` give. -/
def codecFrames : Producer Socket FlowFrame FlowProtocolError where
  next := fun reader => ((readFrame reader).result, (readFrame reader).reader)
  size := fun reader => reader.contents.length
  shrinks := by
    intro reader reader' frame h
    have hdraws := readFrame_draws reader
    obtain ⟨hresult, rfl⟩ := Prod.mk.inj h
    rw [hresult] at hdraws
    exact hdraws.shrinks

/-- A resumable decoder on its stream. -/
structure FrameReader where
  state : FrameReadState
  stream : Socket
  wellFormed : state.WellFormed

namespace FrameReader

def new (stream : Socket) : FrameReader := ⟨.new, stream, FrameReadState.wellFormed_new⟩

/-- The bytes that are not yet turned into frames. -/
def unread (r : FrameReader) : Bytes := r.state.front ++ r.stream.contents

theorem pollsFrame (r : FrameReader) : FrameReadState.PollsFrame r.unread r.stream (r.state.pollNextFrame r.stream) :=
  FrameReadState.pollNextFrame_polls r.stream r.wellFormed

def poll (r : FrameReader) : Poll (Except IoError (Option FlowFrame)) × FrameReader :=
  ((r.state.pollNextFrame r.stream).result,
    ⟨(r.state.pollNextFrame r.stream).state, (r.state.pollNextFrame r.stream).stream, r.pollsFrame.wellFormed⟩)

/-- What one poll can come to. -/
inductive Polls (r : FrameReader) : Poll (Except IoError (Option FlowFrame)) → FrameReader → Prop
  | pending {r' : FrameReader} (hu : r'.unread = r.unread) (he : r'.stream.ending = r.stream.ending)
      (hw : r'.stream.waits < r.stream.waits) : Polls r .pending r'
  | frame {frame : FlowFrame} {wire : Bytes} {r' : FrameReader} (hframe : IsFrame wire frame)
      (hu : r.unread = wire ++ r'.unread) (he : r'.stream.ending = r.stream.ending)
      (hw : r'.stream.waits = r.stream.waits) : Polls r (.ready (.ok (some frame))) r'
  | ended {r' : FrameReader} (hu : r.unread = []) (he : r.stream.ending = none) : Polls r (.ready (.ok none)) r'
  | failed {fault : FrameFault} {r' : FrameReader} (hstops : Stops r.unread r.stream.ending fault) :
      Polls r (.ready (.error fault.ioError)) r'

private theorem polls_of {r : FrameReader} {p : FramePoll} (h : FrameReadState.PollsFrame r.unread r.stream p) :
    r.Polls p.result ⟨p.state, p.stream, h.wellFormed⟩ := by
  cases h with
  | pending h hwaits => exact .pending h.bytes_eq h.ending_eq hwaits
  | frame h hframe hbytes hwaits =>
    exact .frame hframe (hbytes.trans (congrArg _ h.bytes_eq.symm)) h.ending_eq hwaits
  | ended h hbytes hend => exact .ended hbytes hend
  | failed h hstops => exact .failed hstops

theorem poll_polls (r : FrameReader) : r.Polls r.poll.1 r.poll.2 := polls_of r.pollsFrame

/-- The next frame, polled for until there is an answer. -/
def nextFrame : Future FrameReader (Except IoError (Option FlowFrame)) where
  poll := poll
  waits := fun r => r.stream.waits
  progress := by
    intro r r' h
    have hpolls := r.poll_polls
    rw [h] at hpolls
    cases hpolls with
    | pending hu he hw => exact hw

theorem nextFrame_draws (r : FrameReader) :
    Draws FrameFault.ioError r.unread r.stream.ending (nextFrame.await r).1 (nextFrame.await r).2.unread
      (nextFrame.await r).2.stream.ending := by
  apply @Future.await_rule _ _ nextFrame (fun t => t.unread = r.unread ∧ t.stream.ending = r.stream.ending)
    (fun result t => Draws FrameFault.ioError r.unread r.stream.ending result t.unread t.stream.ending)
  · intro t t' ht hpoll
    have hpolls := t.poll_polls
    rw [show t.poll = _ from hpoll] at hpolls
    cases hpolls with
    | pending hu he hw => exact ⟨hu.trans ht.1, he.trans ht.2⟩
  · intro t result t' ht hpoll
    have hpolls := t.poll_polls
    rw [show t.poll = _ from hpoll] at hpolls
    rw [← ht.1, ← ht.2]
    cases hpolls with
    | frame hframe hu he hw => exact .frame hframe hu he
    | ended hu he => exact .ended hu he
    | failed hstops => exact .failed hstops
  · exact ⟨rfl, rfl⟩

/-- The frames that repeated polls give. -/
def frames : Producer FrameReader FlowFrame IoError where
  next := nextFrame.await
  size := fun r => r.unread.length
  shrinks := by
    intro r r' frame h
    have hdraws := r.nextFrame_draws
    rw [h] at hdraws
    exact hdraws.shrinks

end FrameReader

theorem codecFrames_drain (stream : Socket) :
    codecFrames.drain stream = ((frames.drain ⟨stream.contents, stream.ending⟩).1,
      (frames.drain ⟨stream.contents, stream.ending⟩).2.map FrameFault.protocolError) :=
  drain_draws codecFrames readFrame_draws stream

theorem readerFrames_drain (stream : Socket) :
    FrameReader.frames.drain (.new stream) = ((frames.drain ⟨stream.contents, stream.ending⟩).1,
      (frames.drain ⟨stream.contents, stream.ending⟩).2.map FrameFault.ioError) :=
  drain_draws FrameReader.frames FrameReader.nextFrame_draws (.new stream)

/-- Frames within the payload limit encode, and their encodings are whole frames. -/
theorem mapM_encode {fs : List FlowFrame} (h : ∀ f ∈ fs, f.payload.length ≤ maxFramePayloadLen) :
    ∃ wires, fs.mapM FlowFrame.encode = .ok wires ∧ AreFrames wires.flatten fs := by
  induction fs with
  | nil => exact ⟨[], rfl, .nil⟩
  | cons f fs ih =>
    obtain ⟨wires, hwires, hframes⟩ := ih (fun f hf => h f (List.mem_cons_of_mem _ hf))
    have hf := h f List.mem_cons_self
    refine ⟨(f.header ++ f.payload) :: wires, ?_, ?_⟩
    · rw [List.mapM_cons, encode_eq hf, hwires]
      rfl
    · exact .cons (isFrame_encode hf) hframes

theorem readFrame_allocated (stream : Socket) : ∀ n ∈ (readFrame stream).allocated, n ≤ maxFramePayloadLen := by
  rw [readFrame]
  split
  · simp
  · simp
  · next header reader _ =>
    split
    · simp
    · next n hn =>
      obtain ⟨decoded, hdecoded, h⟩ := bind_eq_ok.mp hn
      obtain rfl := Except.ok.inj h
      have hle := (decode_ok hdecoded).2
      split <;> simpa using hle

theorem completeFrame_allocated (st : FrameReadState) (n : Nat) (stream : Socket) (allocated : List Nat) :
    (st.completeFrame n stream allocated).allocated = allocated := by
  rw [FrameReadState.completeFrame]
  split
  · rfl
  · rfl
  · split <;> rfl

theorem pollNextFrame_allocated (st : FrameReadState) (stream : Socket) :
    ∀ n ∈ (st.pollNextFrame stream).allocated, n ≤ maxFramePayloadLen := by
  rw [FrameReadState.pollNextFrame]
  split
  · simp
  · simp
  · simp
  · split
    · simp [completeFrame_allocated]
    · split
      · simp
      · next n hn =>
        obtain ⟨decoded, hdecoded, h⟩ := bind_eq_ok.mp hn
        obtain rfl := Except.ok.inj h
        simpa [completeFrame_allocated] using (decode_ok hdecoded).2

/-- Encoded frames are decoded back by both decoders, whatever the arrival boundaries and the
polls that find nothing. On any bytes both draw the whole frames at their front; they end cleanly
only behind the last whole frame, and they never allocate more than the payload limit. -/
theorem frame_stream_codec :
    (∀ fs : List FlowFrame, (∀ f ∈ fs, f.payload.length ≤ maxFramePayloadLen) →
      ∃ wires, fs.mapM FlowFrame.encode = .ok wires ∧
        ∀ stream : Socket, stream.contents = wires.flatten → stream.ending = none →
          codecFrames.drain stream = (fs, none) ∧ FrameReader.frames.drain (.new stream) = (fs, none)) ∧
    (∀ stream : Socket, ∃ fs front rest, stream.contents = front ++ rest ∧ AreFrames front fs ∧
      (codecFrames.drain stream).1 = fs ∧ (FrameReader.frames.drain (.new stream)).1 = fs ∧
      ((codecFrames.drain stream).2 = none ∧ (FrameReader.frames.drain (.new stream)).2 = none ∧
          rest = [] ∧ stream.ending = none ∨
        ∃ fault, (codecFrames.drain stream).2 = some fault.protocolError ∧
          (FrameReader.frames.drain (.new stream)).2 = some fault.ioError ∧ Stops rest stream.ending fault)) ∧
    (∀ stream, ∀ n ∈ (readFrame stream).allocated, n ≤ maxFramePayloadLen) ∧
    ∀ st stream, ∀ n ∈ (FrameReadState.pollNextFrame st stream).allocated, n ≤ maxFramePayloadLen := by
  refine ⟨?_, ?_, readFrame_allocated, pollNextFrame_allocated⟩
  · intro fs hfs
    obtain ⟨wires, hwires, hframes⟩ := mapM_encode hfs
    refine ⟨wires, hwires, ?_⟩
    intro stream hcontents hending
    rw [codecFrames_drain, readerFrames_drain, hcontents, hending, hframes.drain]
    exact ⟨rfl, rfl⟩
  · intro stream
    obtain ⟨front, rest, hsplit, hfront, hstop⟩ := frames_drain ⟨stream.contents, stream.ending⟩
    rw [codecFrames_drain, readerFrames_drain]
    refine ⟨_, front, rest, hsplit, hfront, rfl, rfl, ?_⟩
    rcases hstop with ⟨hnone, hrest, hend⟩ | ⟨fault, hfault, hstops⟩
    · exact .inl ⟨by rw [hnone]; rfl, by rw [hnone]; rfl, hrest, hend⟩
    · exact .inr ⟨fault, by rw [hfault]; rfl, by rw [hfault]; rfl, hstops⟩

/-- A flow with one request byte pair and an empty data frame. -/
def sampleId : Uuid := ⟨.replicate 16 7, rfl⟩

def sampleFrames : List FlowFrame :=
  [⟨.data, .clientToBroker, sampleId, [104, 105]⟩, ⟨.data, .clientToBroker, sampleId, []⟩]

/-- The sample frames, cut inside the first header and before its payload. -/
def sampleStream : Socket where
  arrivals := [none, some ⟨[0x41, 0x42, 0x59, 0x31, 2, 1, 0, 0, 7, 7, 7, 7, 7, 7, 7], by simp⟩, none,
    some ⟨[7, 7, 7, 7, 7, 7, 7, 7, 7, 0, 0, 0, 2], by simp⟩, none, some ⟨[104], by simp⟩,
    some ⟨[105, 0x41, 0x42, 0x59, 0x31, 2, 1, 0, 0, 7, 7, 7, 7, 7, 7, 7, 7, 7, 7, 7, 7, 7, 7, 7, 7, 0, 0, 0, 0], by simp⟩]
  ending := none

theorem frame_stream_codec_sample :
    codecFrames.drain sampleStream = (sampleFrames, none) ∧
      FrameReader.frames.drain (.new sampleStream) = (sampleFrames, none) := by
  obtain ⟨wires, hwires, hdecode⟩ := frame_stream_codec.1 sampleFrames (by decide)
  have hcontents : (sampleFrames.mapM FlowFrame.encode).map List.flatten = .ok sampleStream.contents := by
    decide
  rw [hwires] at hcontents
  exact hdecode sampleStream (Except.ok.inj hcontents).symm rfl

end Abyss.Broker.Framed
