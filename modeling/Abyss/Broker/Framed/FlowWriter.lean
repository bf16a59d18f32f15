import Abyss.Broker.Framed.Codec
import Abyss.Stream.Polled

/-! The write side of `FramedFlowIo`: broker output as data frames, and the close frame that
ends it. -/
namespace Abyss.Broker.Framed
open Abyss.Mitm (Bytes ErrorKind ascii)
open Abyss.Stream

abbrev SocketWriter := PolledSink UInt8 ErrorKind

/-- `WRITE_FRAME_PAYLOAD_CAP`. -/
def writeFramePayloadCap : Nat := 64 * 1024

/-- A lower-case hexadecimal digit. -/
def hexDigit (n : Nat) : UInt8 := .ofNat (if n < 10 then 48 + n else 87 + n)

def hexBytes (bytes : Bytes) : Bytes := bytes.flatMap fun b => [hexDigit (b.toNat / 16), hexDigit (b.toNat % 16)]

/-- The hyphenated form in which a UUID is serialized. -/
def Uuid.hyphenated (id : Uuid) : Bytes :=
  hexBytes (id.bytes.take 4) ++ ascii "-" ++ hexBytes ((id.bytes.drop 4).take 2) ++ ascii "-" ++
    hexBytes ((id.bytes.drop 6).take 2) ++ ascii "-" ++ hexBytes ((id.bytes.drop 8).take 2) ++ ascii "-" ++
    hexBytes (id.bytes.drop 10)

/-- The JSON text of a close payload whose reason needs no escapes. -/
def closePayloadJson (flowId : Uuid) (reason : String) : Bytes :=
  ascii "\x7b\"flow_id\":\"" ++ flowId.hyphenated ++ ascii "\",\"reason\":\"" ++ ascii reason ++ ascii "\"\x7d"

/-- The close frame that `poll_shutdown` queues. -/
def FlowFrame.brokerToClientEof (flowId : Uuid) : FlowFrame :=
  ⟨.close, .brokerToClient, flowId, closePayloadJson flowId "core_shutdown"⟩

structure FrameWriteState where
  frame : Bytes
  offset : Nat
  consumedLen : Nat
  completedLen : Nat
  shutdownQueued : Bool
  deriving DecidableEq, Repr

namespace FrameWriteState

def new : FrameWriteState := ⟨[], 0, 0, 0, false⟩

def hasPendingFrame (st : FrameWriteState) : Bool := !st.frame.isEmpty

def queueFrame (st : FrameWriteState) (frame : FlowFrame) (consumedLen : Nat) : Except IoError FrameWriteState :=
  if st.hasPendingFrame then .error (invalidData "write frame already pending") else
  match frame.encode with
  | .error e => .error (ioError e)
  | .ok encoded => .ok { st with frame := encoded, offset := 0, consumedLen, completedLen := 0 }

/-- The end of `poll_drain`: a frame that is completely written is forgotten. -/
def finish (st : FrameWriteState) : FrameWriteState :=
  if st.frame = [] then st
  else { st with frame := [], offset := 0, completedLen := st.consumedLen, consumedLen := 0 }

def pollDrain (st : FrameWriteState) (stream : SocketWriter) :
    Poll (Except IoError Unit) × FrameWriteState × SocketWriter :=
  if _hlt : st.offset < st.frame.length then
    match stream.pollWrite (st.frame.drop st.offset) with
    | (.pending, stream) => (.pending, st, stream)
    | (.ready (.error e), stream) => (.ready (.error (.socket e)), st, stream)
    | (.ready (.ok writeLen), stream) =>
      if _hpos : writeLen = 0 then
        (.ready (.error (.message .writeZero "failed to write framed flow bytes")), st, stream)
      else
        match _hadd : checkedAdd st.offset writeLen with
        | none => (.ready (.error (invalidData "frame write offset overflow")), st, stream)
        | some offset => pollDrain { st with offset } stream
  else (.ready (.ok ()), st.finish, stream)
termination_by st.frame.length - st.offset
decreasing_by
  simp only [checkedAdd] at _hadd
  split at _hadd
  · obtain rfl := Option.some.inj _hadd
    omega
  · cases _hadd

/-- The completed length, and the state that has forgotten it. -/
def takeCompletedLen (st : FrameWriteState) : Nat × FrameWriteState :=
  (st.completedLen, { st with completedLen := 0 })

end FrameWriteState

/-- The parts of `FramedFlowIo` that its write side uses. -/
structure FramedFlowWriter where
  stream : SocketWriter
  flowId : Uuid
  writeState : FrameWriteState

namespace FramedFlowWriter

def new (stream : SocketWriter) (flowId : Uuid) : FramedFlowWriter := ⟨stream, flowId, .new⟩

/-- Drain the pending frame of `writeState`. -/
def drain (io : FramedFlowWriter) (writeState : FrameWriteState) : Poll (Except IoError Unit) × FramedFlowWriter :=
  ((writeState.pollDrain io.stream).1,
    { io with writeState := (writeState.pollDrain io.stream).2.1, stream := (writeState.pollDrain io.stream).2.2 })

/-- Queue the front of `buffer`, unless a frame is pending. -/
def queueWrite (io : FramedFlowWriter) (buffer : Bytes) : Except IoError FrameWriteState :=
  if io.writeState.hasPendingFrame then .ok io.writeState
  else io.writeState.queueFrame
    (.brokerToClient io.flowId (buffer.take (min buffer.length writeFramePayloadCap)))
    (min buffer.length writeFramePayloadCap)

def pollWrite (io : FramedFlowWriter) (buffer : Bytes) : Poll (Except IoError Nat) × FramedFlowWriter :=
  if buffer = [] then (.ready (.ok 0), io) else
  match io.queueWrite buffer with
  | .error e => (.ready (.error e), io)
  | .ok writeState =>
    match io.drain writeState with
    | (.pending, io) => (.pending, io)
    | (.ready (.error e), io) => (.ready (.error e), io)
    | (.ready (.ok ()), io) =>
      (.ready (.ok io.writeState.takeCompletedLen.1), { io with writeState := io.writeState.takeCompletedLen.2 })

/-- The result of the socket's own flush or shutdown. -/
def socketResult : Poll (Option ErrorKind) → Poll (Except IoError Unit)
  | .pending => .pending
  | .ready none => .ready (.ok ())
  | .ready (some e) => .ready (.error (.socket e))

def pollFlush (io : FramedFlowWriter) : Poll (Except IoError Unit) × FramedFlowWriter :=
  match io.drain io.writeState with
  | (.pending, io) => (.pending, io)
  | (.ready (.error e), io) => (.ready (.error e), io)
  | (.ready (.ok ()), io) => (socketResult io.stream.pollFlush.1, { io with stream := io.stream.pollFlush.2 })

/-- Queue the close frame once. -/
def queueShutdown (io : FramedFlowWriter) : Except IoError FrameWriteState :=
  if io.writeState.shutdownQueued then .ok io.writeState
  else (io.writeState.queueFrame (.brokerToClientEof io.flowId) 0).map fun st => { st with shutdownQueued := true }

def pollShutdown (io : FramedFlowWriter) : Poll (Except IoError Unit) × FramedFlowWriter :=
  match io.queueShutdown with
  | .error e => (.ready (.error e), io)
  | .ok writeState =>
    match io.drain writeState with
    | (.pending, io) => (.pending, io)
    | (.ready (.error e), io) => (.ready (.error e), io)
    | (.ready (.ok ()), io) => (socketResult io.stream.pollShutdown.1, { io with stream := io.stream.pollShutdown.2 })

end FramedFlowWriter

/-- A call of the `AsyncWrite` interface. -/
inductive WriteCall where
  | write (buffer : Bytes)
  | flush
  | shutdown

/-- A call together with its answer. -/
inductive WriteAnswer where
  | wrote (buffer : Bytes) (result : Poll (Except IoError Nat))
  | flushed (result : Poll (Except IoError Unit))
  | shut (result : Poll (Except IoError Unit))
  deriving DecidableEq

namespace FramedFlowWriter

def call (io : FramedFlowWriter) : WriteCall → WriteAnswer × FramedFlowWriter
  | .write buffer => (.wrote buffer (io.pollWrite buffer).1, (io.pollWrite buffer).2)
  | .flush => (.flushed io.pollFlush.1, io.pollFlush.2)
  | .shutdown => (.shut io.pollShutdown.1, io.pollShutdown.2)

/-- The answers to a sequence of calls. -/
def calls (io : FramedFlowWriter) : List WriteCall → List WriteAnswer × FramedFlowWriter
  | [] => ([], io)
  | c :: rest => ((io.call c).1 :: ((io.call c).2.calls rest).1, ((io.call c).2.calls rest).2)

end FramedFlowWriter
end Abyss.Broker.Framed
