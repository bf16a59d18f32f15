import Abyss.Mitm.Types
import Abyss.Stream.Polled
import Mathlib.Data.List.GetD

/-! `ABY1` frames of the macOS wrapper protocol: the header codec and the frames of a byte
stream as the protocol defines them. -/
namespace Abyss.Broker.Framed
open Abyss.Mitm (Bytes ErrorKind bind_eq_ok)

def magic : Bytes := [0x41, 0x42, 0x59, 0x31]

/-- `FRAME_HEADER_LEN`. -/
def frameHeaderLen : Nat := 28

/-- `MAX_FRAME_PAYLOAD_LEN`. -/
def maxFramePayloadLen : Nat := 16 * 1024 * 1024

def u32Max : Nat := 2 ^ 32 - 1

inductive FlowProtocolError where
  | invalidMagic
  | invalidFrameType (value : UInt8)
  | invalidDirection (value : UInt8)
  | invalidUuid
  | payloadTooLarge (length maximum : Nat)
  | unexpectedEof (operation : String)
  | io (operation : String) (source : ErrorKind)
  | json (operation : String)
  deriving DecidableEq, Repr

inductive FlowFrameType where
  | open | data | close
  deriving DecidableEq, Repr

def FlowFrameType.wireValue : FlowFrameType → UInt8
  | .open => 1
  | .data => 2
  | .close => 3

def FlowFrameType.fromWire (value : UInt8) : Except FlowProtocolError FlowFrameType :=
  if value = 1 then .ok .open
  else if value = 2 then .ok .data
  else if value = 3 then .ok .close
  else .error (.invalidFrameType value)

inductive FlowFrameDirection where
  | none | clientToBroker | brokerToClient
  deriving DecidableEq, Repr

def FlowFrameDirection.wireValue : FlowFrameDirection → UInt8
  | .none => 0
  | .clientToBroker => 1
  | .brokerToClient => 2

def FlowFrameDirection.fromWire (value : UInt8) : Except FlowProtocolError FlowFrameDirection :=
  if value = 0 then .ok .none
  else if value = 1 then .ok .clientToBroker
  else if value = 2 then .ok .brokerToClient
  else .error (.invalidDirection value)

structure Uuid where
  bytes : Bytes
  length_bytes : bytes.length = 16
  deriving DecidableEq, Repr

def Uuid.fromSlice (bytes : Bytes) : Except FlowProtocolError Uuid :=
  if h : bytes.length = 16 then .ok ⟨bytes, h⟩ else .error .invalidUuid

structure FlowFrame where
  frameType : FlowFrameType
  direction : FlowFrameDirection
  flowId : Uuid
  payload : Bytes
  deriving DecidableEq, Repr

def FlowFrame.brokerToClient (flowId : Uuid) (payload : Bytes) : FlowFrame :=
  ⟨.data, .brokerToClient, flowId, payload⟩

def validatePayloadLen (length : Nat) : Except FlowProtocolError Unit :=
  if maxFramePayloadLen < length then .error (.payloadTooLarge length maxFramePayloadLen) else .ok ()

/-- `u32::to_be_bytes`. -/
def payloadLenBytes (length : Nat) : Bytes :=
  [.ofNat (length / 2 ^ 24), .ofNat (length / 2 ^ 16), .ofNat (length / 2 ^ 8), .ofNat length]

/-- The header that `encode` writes in front of the payload. -/
def FlowFrame.header (frame : FlowFrame) : Bytes :=
  magic ++ [frame.frameType.wireValue, frame.direction.wireValue, 0, 0] ++ frame.flowId.bytes ++
    payloadLenBytes frame.payload.length

def FlowFrame.encode (frame : FlowFrame) : Except FlowProtocolError Bytes :=
  if u32Max < frame.payload.length then .error (.payloadTooLarge u32Max maxFramePayloadLen) else do
  validatePayloadLen frame.payload.length
  .ok (frame.header ++ frame.payload)

structure FlowFrameHeader where
  frameType : FlowFrameType
  direction : FlowFrameDirection
  flowId : Uuid
  payloadLen : Nat
  deriving DecidableEq, Repr

/-- `u32::from_be_bytes` of the last four header bytes. -/
def payloadLenFromHeader (header : Bytes) : Nat :=
  (((header.getD 24 0).toNat * 2 ^ 8 + (header.getD 25 0).toNat) * 2 ^ 8 + (header.getD 26 0).toNat) * 2 ^ 8 +
    (header.getD 27 0).toNat

/-- Decode the 28 bytes of a header. -/
def FlowFrameHeader.decode (header : Bytes) : Except FlowProtocolError FlowFrameHeader :=
  if header.take 4 ≠ magic then .error .invalidMagic else do
  validatePayloadLen (payloadLenFromHeader header)
  let frameType ← FlowFrameType.fromWire (header.getD 4 0)
  let direction ← FlowFrameDirection.fromWire (header.getD 5 0)
  let flowId ← Uuid.fromSlice ((header.drop 8).take 16)
  .ok ⟨frameType, direction, flowId, payloadLenFromHeader header⟩

def FlowFrame.decode (header payload : Bytes) : Except FlowProtocolError FlowFrame := do
  let header ← FlowFrameHeader.decode header
  .ok ⟨header.frameType, header.direction, header.flowId, payload⟩

def FlowFrame.payloadLen (header : Bytes) : Except FlowProtocolError Nat := do
  .ok (← FlowFrameHeader.decode header).payloadLen

theorem fromWire_wireValue (t : FlowFrameType) : FlowFrameType.fromWire t.wireValue = .ok t := by
  cases t <;> rfl

theorem direction_fromWire_wireValue (d : FlowFrameDirection) :
    FlowFrameDirection.fromWire d.wireValue = .ok d := by
  cases d <;> rfl

theorem length_header (frame : FlowFrame) : frame.header.length = frameHeaderLen := by
  simp [FlowFrame.header, magic, payloadLenBytes, frame.flowId.length_bytes, frameHeaderLen]

theorem encode_eq {frame : FlowFrame} (h : frame.payload.length ≤ maxFramePayloadLen) :
    frame.encode = .ok (frame.header ++ frame.payload) := by
  rw [FlowFrame.encode, if_neg (by simp only [u32Max, maxFramePayloadLen] at *; omega), validatePayloadLen,
    if_neg (by omega)]
  rfl

/-- What a decoded header says about its bytes. -/
theorem decode_ok {header : Bytes} {decoded : FlowFrameHeader}
    (h : FlowFrameHeader.decode header = .ok decoded) :
    decoded.payloadLen = payloadLenFromHeader header ∧ decoded.payloadLen ≤ maxFramePayloadLen := by
  unfold FlowFrameHeader.decode at h
  split at h
  · cases h
  · obtain ⟨_, hlen, h⟩ := bind_eq_ok.mp h
    obtain ⟨_, _, h⟩ := bind_eq_ok.mp h
    obtain ⟨_, _, h⟩ := bind_eq_ok.mp h
    obtain ⟨_, _, h⟩ := bind_eq_ok.mp h
    obtain rfl := Except.ok.inj h
    unfold validatePayloadLen at hlen
    split at hlen
    · cases hlen
    · next hle => exact ⟨rfl, Nat.not_lt.mp hle⟩

theorem payloadLenFromHeader_header {frame : FlowFrame} (h : frame.payload.length ≤ maxFramePayloadLen) :
    payloadLenFromHeader frame.header = frame.payload.length := by
  obtain ⟨frameType, direction, ⟨bytes, hbytes⟩, payload⟩ := frame
  simp only [maxFramePayloadLen] at h
  have hget (i : Nat) (rest : Bytes) : (magic ++ [frameType.wireValue, direction.wireValue, 0, 0] ++ bytes ++ rest).getD
      (24 + i) 0 = rest.getD i 0 := by
    have hfront : (magic ++ [frameType.wireValue, direction.wireValue, 0, 0] ++ bytes).length = 24 := by
      simp [magic, hbytes]
    rw [List.getD_append_right _ _ _ _ (by omega), hfront, Nat.add_sub_cancel_left]
  simp only [payloadLenFromHeader, FlowFrame.header]
  rw [hget 0, hget 1, hget 2, hget 3]
  simp [payloadLenBytes]
  omega

/-- Decoding an encoded header gives back what was encoded. -/
theorem decode_header {frame : FlowFrame} (h : frame.payload.length ≤ maxFramePayloadLen) :
    FlowFrameHeader.decode frame.header =
      .ok ⟨frame.frameType, frame.direction, frame.flowId, frame.payload.length⟩ := by
  unfold FlowFrameHeader.decode
  rw [payloadLenFromHeader_header h]
  obtain ⟨frameType, direction, ⟨bytes, hbytes⟩, payload⟩ := frame
  have hmagic : (FlowFrame.header ⟨frameType, direction, ⟨bytes, hbytes⟩, payload⟩).take 4 = magic := rfl
  have hid : ((FlowFrame.header ⟨frameType, direction, ⟨bytes, hbytes⟩, payload⟩).drop 8).take 16 = bytes := by
    simp [FlowFrame.header, magic, ← hbytes]
  have htype : (FlowFrame.header ⟨frameType, direction, ⟨bytes, hbytes⟩, payload⟩).getD 4 0 = frameType.wireValue := rfl
  have hdirection : (FlowFrame.header ⟨frameType, direction, ⟨bytes, hbytes⟩, payload⟩).getD 5 0 =
      direction.wireValue := rfl
  simp only [hmagic, hid, htype, hdirection, ne_eq, not_true_eq_false, if_false, validatePayloadLen,
    if_neg (Nat.not_lt.mpr h), fromWire_wireValue, direction_fromWire_wireValue, Uuid.fromSlice, hbytes, dif_pos]
  rfl

/-- The part of a frame that a stream can end in. -/
inductive FramePart where
  | header | payload
  deriving DecidableEq, Repr

/-- Why a stream of frames stops other than by a clean end. -/
inductive FrameFault where
  | broken (e : ErrorKind)
  | cut (part : FramePart) (ending : Option ErrorKind)
  | malformed (e : FlowProtocolError)
  deriving DecidableEq, Repr

/-- The bytes of a frame stream and how they end, without arrival boundaries. -/
structure FrameStream where
  bytes : Bytes
  ending : Option ErrorKind

/-- The next frame as the protocol defines it. -/
def FrameStream.next (s : FrameStream) : Except FrameFault (Option FlowFrame) × FrameStream :=
  if s.bytes = [] then (match s.ending with | none => .ok none | some e => .error (.broken e), s)
  else if s.bytes.length < frameHeaderLen then (.error (.cut .header s.ending), s)
  else match FlowFrameHeader.decode (s.bytes.take frameHeaderLen) with
    | .error e => (.error (.malformed e), s)
    | .ok header =>
      if (s.bytes.drop frameHeaderLen).length < header.payloadLen then (.error (.cut .payload s.ending), s)
      else (.ok (some ⟨header.frameType, header.direction, header.flowId,
          (s.bytes.drop frameHeaderLen).take header.payloadLen⟩),
        { s with bytes := (s.bytes.drop frameHeaderLen).drop header.payloadLen })

/-- One whole frame on the wire: 28 bytes that decode as a header, then the announced payload. -/
structure IsFrame (wire : Bytes) (frame : FlowFrame) : Prop where
  length_le : frameHeaderLen ≤ wire.length
  header : FlowFrameHeader.decode (wire.take frameHeaderLen) =
    .ok ⟨frame.frameType, frame.direction, frame.flowId, frame.payload.length⟩
  payload : wire.drop frameHeaderLen = frame.payload

theorem isFrame_take {bytes : Bytes} {header : FlowFrameHeader} (h : frameHeaderLen ≤ bytes.length)
    (hd : FlowFrameHeader.decode (bytes.take frameHeaderLen) = .ok header)
    (hlen : header.payloadLen ≤ (bytes.drop frameHeaderLen).length) :
    IsFrame (bytes.take (frameHeaderLen + header.payloadLen))
      ⟨header.frameType, header.direction, header.flowId, (bytes.drop frameHeaderLen).take header.payloadLen⟩ := by
  refine ⟨?_, ?_, ?_⟩
  · rw [List.length_take]
    omega
  · rw [List.take_take, Nat.min_eq_left (Nat.le_add_right _ _), hd, List.length_take, Nat.min_eq_left hlen]
  · rw [List.drop_take, Nat.add_sub_cancel_left]

/-- Bytes that consist of whole frames. -/
inductive AreFrames : Bytes → List FlowFrame → Prop
  | nil : AreFrames [] []
  | cons {wire bytes : Bytes} {frame : FlowFrame} {frames : List FlowFrame} (h : IsFrame wire frame)
      (ht : AreFrames bytes frames) : AreFrames (wire ++ bytes) (frame :: frames)

/-- Bytes behind the last whole frame at which a stream with this ending stops. -/
inductive Stops : Bytes → Option ErrorKind → FrameFault → Prop
  | broken (e : ErrorKind) : Stops [] (some e) (.broken e)
  | inHeader {bytes : Bytes} {ending : Option ErrorKind} (hne : bytes ≠ []) (h : bytes.length < frameHeaderLen) :
      Stops bytes ending (.cut .header ending)
  | malformed {bytes : Bytes} {ending : Option ErrorKind} {e : FlowProtocolError} (h : frameHeaderLen ≤ bytes.length)
      (he : FlowFrameHeader.decode (bytes.take frameHeaderLen) = .error e) : Stops bytes ending (.malformed e)
  | inPayload {bytes : Bytes} {ending : Option ErrorKind} {header : FlowFrameHeader} (h : frameHeaderLen ≤ bytes.length)
      (hd : FlowFrameHeader.decode (bytes.take frameHeaderLen) = .ok header)
      (hshort : (bytes.drop frameHeaderLen).length < header.payloadLen) : Stops bytes ending (.cut .payload ending)

/-- What the next frame of a stream is. -/
inductive FrameStream.Next (s : FrameStream) : Except FrameFault (Option FlowFrame) → FrameStream → Prop
  | frame {wire rest : Bytes} {frame : FlowFrame} (h : IsFrame wire frame) (hs : s.bytes = wire ++ rest) :
      Next s (.ok (some frame)) ⟨rest, s.ending⟩
  | ended (h : s.bytes = []) (he : s.ending = none) : Next s (.ok none) s
  | stopped {fault : FrameFault} (h : Stops s.bytes s.ending fault) : Next s (.error fault) s

theorem FrameStream.next_spec (s : FrameStream) : s.Next s.next.1 s.next.2 := by
  obtain ⟨bytes, ending⟩ := s
  simp only [next]
  split
  · next h =>
    subst h
    cases ending with
    | none => exact .ended rfl rfl
    | some e => exact .stopped (.broken e)
  · next hne =>
    split
    · next h => exact .stopped (.inHeader hne h)
    · next h =>
      have hle := Nat.not_lt.mp h
      split
      · next e he => exact .stopped (.malformed hle he)
      · next header hd =>
        split
        · next hshort => exact .stopped (.inPayload hle hd hshort)
        · next hlong =>
          have hlen := Nat.not_lt.mp hlong
          apply Next.frame (isFrame_take hle hd hlen)
          rw [List.drop_drop, List.take_append_drop]

theorem IsFrame.next {wire : Bytes} {frame : FlowFrame} (h : IsFrame wire frame) (rest : Bytes)
    (ending : Option ErrorKind) : FrameStream.next ⟨wire ++ rest, ending⟩ = (.ok (some frame), ⟨rest, ending⟩) := by
  have hne : wire ++ rest ≠ [] := by
    intro hnil
    have hlen := h.length_le
    simp [(List.append_eq_nil_iff.mp hnil).1, frameHeaderLen] at hlen
  have hlen : ¬ (wire ++ rest).length < frameHeaderLen := by
    have := h.length_le
    rw [List.length_append]
    omega
  simp only [FrameStream.next, if_neg hne, if_neg hlen, List.take_append_of_le_length h.length_le, h.header,
    List.drop_append_of_le_length h.length_le, h.payload]
  simp

theorem Stops.next {bytes : Bytes} {ending : Option ErrorKind} {fault : FrameFault} (h : Stops bytes ending fault) :
    FrameStream.next ⟨bytes, ending⟩ = (.error fault, ⟨bytes, ending⟩) := by
  have hne {bytes : Bytes} (hlen : frameHeaderLen ≤ bytes.length) : bytes ≠ [] := by
    rintro rfl
    simp [frameHeaderLen] at hlen
  cases h with
  | broken e => rfl
  | inHeader hne hlt => simp only [FrameStream.next, if_neg hne, if_pos hlt]
  | malformed hlen he => simp only [FrameStream.next, if_neg (hne hlen), if_neg (Nat.not_lt.mpr hlen), he]
  | inPayload hlen hd hshort =>
    simp only [FrameStream.next, if_neg (hne hlen), if_neg (Nat.not_lt.mpr hlen), hd, if_pos hshort]

theorem isFrame_encode {frame : FlowFrame} (h : frame.payload.length ≤ maxFramePayloadLen) :
    IsFrame (frame.header ++ frame.payload) frame := by
  refine ⟨?_, ?_, ?_⟩
  · simp [length_header]
  · rw [← length_header frame, List.take_left, decode_header h]
  · rw [← length_header frame, List.drop_left]

/-- The frames of a stream, drawn one after another. -/
def frames : Stream.Producer FrameStream FlowFrame FrameFault where
  next := FrameStream.next
  size := fun s => s.bytes.length
  shrinks := by
    intro s s' frame h
    have hnext := s.next_spec
    rw [h] at hnext
    cases hnext with
    | @frame wire rest _ hframe hs =>
      have hlen := hframe.length_le
      simp only [hs, List.length_append, frameHeaderLen] at hlen ⊢
      omega

/-- The frames of a stream are the whole frames at its front; it stops behind the last of them. -/
theorem frames_drain (s : FrameStream) :
    ∃ front rest, s.bytes = front ++ rest ∧ AreFrames front (frames.drain s).1 ∧
      ((frames.drain s).2 = none ∧ rest = [] ∧ s.ending = none ∨
        ∃ fault, (frames.drain s).2 = some fault ∧ Stops rest s.ending fault) := by
  fun_induction Stream.Producer.drain frames s with
  | case1 s frame s' h ih =>
    have hnext := s.next_spec
    rw [show s.next = _ from h] at hnext
    cases hnext with
    | @frame wire rest _ hframe hs =>
      obtain ⟨front, back, hsplit, hfront, hstop⟩ := ih
      refine ⟨wire ++ front, back, ?_, .cons hframe hfront, hstop⟩
      rw [hs, List.append_assoc, ← hsplit]
  | case2 s s' h =>
    have hnext := s.next_spec
    rw [show s.next = _ from h] at hnext
    cases hnext with
    | ended hbytes hending => exact ⟨[], [], hbytes, .nil, .inl ⟨rfl, rfl, hending⟩⟩
  | case3 s fault s' h =>
    have hnext := s.next_spec
    rw [show s.next = _ from h] at hnext
    cases hnext with
    | stopped hstops => exact ⟨[], _, rfl, .nil, .inr ⟨fault, rfl, hstops⟩⟩

/-- Whole frames at the front of a stream are drawn first. -/
theorem AreFrames.drain_append {bytes : Bytes} {fs : List FlowFrame} (h : AreFrames bytes fs) (rest : Bytes)
    (ending : Option ErrorKind) : frames.drain ⟨bytes ++ rest, ending⟩ =
      (fs ++ (frames.drain ⟨rest, ending⟩).1, (frames.drain ⟨rest, ending⟩).2) := by
  induction h with
  | nil => rfl
  | cons hframe _ ih =>
    rw [List.append_assoc, Stream.Producer.drain_item (p := frames) (hframe.next _ _), ih]
    rfl

/-- A stream of whole frames with a clean ending gives exactly these frames. -/
theorem AreFrames.drain {bytes : Bytes} {fs : List FlowFrame} (h : AreFrames bytes fs) :
    frames.drain ⟨bytes, none⟩ = (fs, none) := by
  have hdrain := h.drain_append [] none
  rwa [Stream.Producer.drain_end (show frames.next ⟨[], none⟩ = (.ok none, ⟨[], none⟩) from rfl), List.append_nil,
    List.append_nil] at hdrain

/-- An unfinished frame is not drawn. -/
theorem IsFrame.drain_take {wire : Bytes} {frame : FlowFrame} (h : IsFrame wire frame) {n : Nat}
    (hn : n < wire.length) : (frames.drain ⟨wire.take n, none⟩).1 = [] := by
  have hlen : (wire.take n).length = n := by
    rw [List.length_take]
    omega
  by_cases hzero : n = 0
  · subst hzero
    rw [Stream.Producer.drain_end (show frames.next ⟨wire.take 0, none⟩ = (.ok none, ⟨[], none⟩) from rfl)]
  · by_cases hheader : n < frameHeaderLen
    · have hstops : Stops (wire.take n) none (.cut .header none) :=
        .inHeader (List.ne_nil_of_length_pos (by omega)) (by omega)
      rw [Stream.Producer.drain_error (p := frames) hstops.next]
    · have hpayload := congrArg List.length h.payload
      rw [List.length_drop] at hpayload
      have hstops : Stops (wire.take n) none (.cut .payload none) := by
        refine .inPayload (by omega) (by rw [List.take_take, Nat.min_eq_left (by omega)]; exact h.header) ?_
        rw [List.length_drop, hlen]
        simp only
        omega
      rw [Stream.Producer.drain_error (p := frames) hstops.next]

end Abyss.Broker.Framed
