import Abyss.Broker.Framed.Frame

/-! The two decoders of a frame stream: `FlowFrameCodec`, which awaits exact reads, and
`FrameReadState`, which keeps a partial frame between polls. -/
namespace Abyss.Broker.Framed
open Abyss.Mitm (Bytes ErrorKind u64Bound)
open Abyss.Stream

abbrev Socket := Polled UInt8 ErrorKind

/-- `std::io::Error`: from the socket, with a message, or around a protocol error. -/
inductive IoError where
  | socket (kind : ErrorKind)
  | message (kind : ErrorKind) (text : String)
  | protocol (source : FlowProtocolError)
  deriving DecidableEq, Repr

def invalidData (message : String) : IoError := .message .invalidData message

def ioError (error : FlowProtocolError) : IoError := .protocol error

/-- `checked_add` of two `usize` values. -/
def checkedAdd (left right : Nat) : Option Nat :=
  if left + right < u64Bound then some (left + right) else none

theorem checkedAdd_of_le {left right bound : Nat} (h : left + right ≤ bound) (hb : bound ≤ maxFramePayloadLen) :
    checkedAdd left right = some (left + right) := by
  apply if_pos
  simp only [maxFramePayloadLen, u64Bound] at *
  omega

def mapReadExactError (operation : String) (source : ErrorKind) : FlowProtocolError :=
  if source = .unexpectedEof then .unexpectedEof operation else .io operation source

def readHeader (reader : Socket) : Except FlowProtocolError (Option Bytes) × Socket :=
  match (Polled.read 1).await reader with
  | (.error e, reader) => (.error (.io "read frame header" e), reader)
  | (.ok first, reader) =>
    if first.length = 0 then (.ok none, reader) else
    match reader.readExact .unexpectedEof (frameHeaderLen - 1) with
    | (.error e, reader) => (.error (mapReadExactError "read frame header" e), reader)
    | (.ok rest, reader) => (.ok (some (first ++ rest)), reader)

/-- Outcome of `read_frame`, with the sizes of the payload buffers it allocated. -/
structure FrameRead where
  result : Except FlowProtocolError (Option FlowFrame)
  reader : Socket
  allocated : List Nat

/-- Read one frame; `none` only when the stream ends before a frame starts. The announced
length is a `u32`, which always fits `usize`. -/
def readFrame (reader : Socket) : FrameRead :=
  match readHeader reader with
  | (.error e, reader) => ⟨.error e, reader, []⟩
  | (.ok none, reader) => ⟨.ok none, reader, []⟩
  | (.ok (some header), reader) =>
    match FlowFrame.payloadLen header with
    | .error e => ⟨.error e, reader, []⟩
    | .ok payloadLen =>
      match reader.readExact .unexpectedEof payloadLen with
      | (.error e, reader) => ⟨.error (mapReadExactError "read frame payload" e), reader, [payloadLen]⟩
      | (.ok payload, reader) => ⟨(FlowFrame.decode header payload).map some, reader, [payloadLen]⟩

/-- Put `items` into a fixed buffer at `offset`. -/
def overwrite (buffer : Bytes) (offset : Nat) (items : Bytes) : Bytes :=
  buffer.take offset ++ items ++ buffer.drop (offset + items.length)

structure FrameReadState where
  header : Bytes
  headerLen : Nat
  payload : Bytes
  payloadLen : Option Nat
  payloadOffset : Nat
  readyPayload : Bytes
  readyPayloadOffset : Nat
  deriving DecidableEq, Repr

namespace FrameReadState

def new : FrameReadState := ⟨.replicate frameHeaderLen 0, 0, [], none, 0, [], 0⟩

def resetFrame (st : FrameReadState) : FrameReadState :=
  { st with header := .replicate frameHeaderLen 0, headerLen := 0, payloadLen := none, payloadOffset := 0 }

/-- Allocate the announced payload. -/
def startPayload (st : FrameReadState) (payloadLen : Nat) : FrameReadState :=
  { st with payload := .replicate payloadLen 0, payloadLen := some payloadLen, payloadOffset := 0 }

/-- One poll for header bytes; `none` is a clean end before the first of them. -/
def pollReadHeader (st : FrameReadState) (stream : Socket) :
    Poll (Except IoError (Option Unit)) × FrameReadState × Socket :=
  match stream.poll (st.header.length - st.headerLen) with
  | (.pending, stream) => (.pending, st, stream)
  | (.ready (.error e), stream) => (.ready (.error (.socket e)), st, stream)
  | (.ready (.ok items), stream) =>
    if items.length = 0 then
      if st.headerLen = 0 then (.ready (.ok none), st, stream)
      else (.ready (.error (.message .unexpectedEof "EOF while reading frame header")), st, stream)
    else
      let st := { st with header := overwrite st.header st.headerLen items }
      match checkedAdd st.headerLen items.length with
      | none => (.ready (.error (invalidData "frame header offset overflow")), st, stream)
      | some headerLen => (.ready (.ok (some ())), { st with headerLen }, stream)

theorem pollReadHeader_advances {st st' : FrameReadState} {stream stream' : Socket}
    (h : st.pollReadHeader stream = (.ready (.ok (some ())), st', stream')) : st.headerLen < st'.headerLen := by
  simp only [pollReadHeader, checkedAdd] at h
  split at h
  · cases h
  · cases h
  · next items _ _ =>
    split at h
    · split at h <;> cases h
    · split at h
      · cases h
      · next hadd =>
        split at hadd
        · obtain rfl := Option.some.inj hadd
          cases h
          simp only
          omega
        · cases hadd

/-- The loop of `poll_next_frame` that completes the header. -/
def fillHeader (st : FrameReadState) (stream : Socket) :
    Poll (Except IoError (Option Unit)) × FrameReadState × Socket :=
  if st.headerLen < frameHeaderLen then
    match _h : st.pollReadHeader stream with
    | (.ready (.ok (some ())), st', stream') => fillHeader st' stream'
    | answer => answer
  else (.ready (.ok (some ())), st, stream)
termination_by frameHeaderLen - st.headerLen
decreasing_by
  have := pollReadHeader_advances _h
  omega

/-- Read until the payload is complete. -/
def pollReadPayload (st : FrameReadState) (payloadLen : Nat) (stream : Socket) :
    Poll (Except IoError Unit) × FrameReadState × Socket :=
  if _hlt : st.payloadOffset < payloadLen then
    match stream.poll (st.payload.length - st.payloadOffset) with
    | (.pending, stream) => (.pending, st, stream)
    | (.ready (.error e), stream) => (.ready (.error (.socket e)), st, stream)
    | (.ready (.ok items), stream) =>
      if _hne : items.length = 0 then
        (.ready (.error (.message .unexpectedEof "EOF while reading frame payload")), st, stream)
      else
        let payload := overwrite st.payload st.payloadOffset items
        match _hadd : checkedAdd st.payloadOffset items.length with
        | none => (.ready (.error (invalidData "frame payload offset overflow")), { st with payload }, stream)
        | some payloadOffset => pollReadPayload { st with payload, payloadOffset } payloadLen stream
  else (.ready (.ok ()), st, stream)
termination_by payloadLen - st.payloadOffset
decreasing_by
  simp only [checkedAdd] at _hadd
  split at _hadd
  · obtain rfl := Option.some.inj _hadd
    omega
  · cases _hadd

end FrameReadState

/-- Outcome of `poll_next_frame`, with the sizes of the payload buffers it allocated. -/
structure FramePoll where
  result : Poll (Except IoError (Option FlowFrame))
  state : FrameReadState
  stream : Socket
  allocated : List Nat

namespace FrameReadState

/-- The part of `poll_next_frame` behind the allocation of the payload. -/
def completeFrame (st : FrameReadState) (payloadLen : Nat) (stream : Socket) (allocated : List Nat) : FramePoll :=
  match st.pollReadPayload payloadLen stream with
  | (.pending, st, stream) => ⟨.pending, st, stream, allocated⟩
  | (.ready (.error e), st, stream) => ⟨.ready (.error e), st, stream, allocated⟩
  | (.ready (.ok ()), st, stream) =>
    match FlowFrame.decode st.header st.payload with
    | .error e => ⟨.ready (.error (ioError e)), { st with payload := [] }, stream, allocated⟩
    | .ok frame => ⟨.ready (.ok (some frame)), { st with payload := [] }.resetFrame, stream, allocated⟩

def pollNextFrame (st : FrameReadState) (stream : Socket) : FramePoll :=
  match st.fillHeader stream with
  | (.pending, st, stream) => ⟨.pending, st, stream, []⟩
  | (.ready (.error e), st, stream) => ⟨.ready (.error e), st, stream, []⟩
  | (.ready (.ok none), st, stream) => ⟨.ready (.ok none), st, stream, []⟩
  | (.ready (.ok (some ())), st, stream) =>
    match st.payloadLen with
    | some payloadLen => st.completeFrame payloadLen stream []
    | none =>
      match FlowFrame.payloadLen st.header with
      | .error e => ⟨.ready (.error (ioError e)), st, stream, []⟩
      | .ok payloadLen => (st.startPayload payloadLen).completeFrame payloadLen stream [payloadLen]

end FrameReadState
end Abyss.Broker.Framed
