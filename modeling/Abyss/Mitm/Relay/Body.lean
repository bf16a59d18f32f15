import Abyss.Mitm.Relay.Chunked

/-! Forwarding one HTTP body. Every framing keeps the wire bytes on the network
side and returns the decoded bytes for hooks. -/
namespace Abyss.Mitm.Relay
open Abyss.Stream Abyss.Mitm.Http

/-- `RELAY_CHUNK_BYTES`. -/
def relayChunkBytes : Nat := 16 * 1024

/-- Outcome of a copy together with both streams behind it. -/
abbrev Copied (α : Type) := Except TransparentFlowError α × Reader × Writer

/-- `write_all` with the error of an operation. -/
def writeAllFor (operation : FlowOperation) (writer : Writer) (bytes : Bytes) :
    Except TransparentFlowError Unit × Writer :=
  match writer.writeAll .writeZero bytes with
  | (none, writer) => (.ok (), writer)
  | (some e, writer) => (.error (.io operation e), writer)

namespace BodyCapture

/-- A failed final write: provider errors fail at once, client errors stay with the capture. -/
def failLast (capture : BodyCapture) (direction : BodyDirection) (source : ErrorKind) :
    Except TransparentFlowError BodyCapture :=
  match direction with
  | .request => .error (.io (bodyForwardOperation direction) source)
  | .response => .ok { capture with agentWriteError := some (.io (bodyForwardOperation direction) source) }

/-- The write loop of `forwardLastBytes`; the count follows what the writer accepts. -/
def lastWrites (capture : BodyCapture) (writer : Writer) (bytes : Bytes) (direction : BodyDirection) :
    Except TransparentFlowError BodyCapture × Writer :=
  if bytes = [] then (.ok capture, writer) else
  match _h : writer.write bytes with
  | (.error source, writer) => (capture.failLast direction source, writer)
  | (.ok written, writer) =>
    if written = 0 then (capture.failLast direction .writeZero, writer) else
    match usizeToU64 written >>= addLen capture.forwardedBytes with
    | .error e => (.error e, writer)
    | .ok forwardedBytes => lastWrites { capture with forwardedBytes } writer (bytes.drop written) direction
termination_by bytes.length
decreasing_by
  have := (Sink.write_ok _h).1
  rw [List.length_drop]
  omega

/-- Finish the last write attempt before returning the complete capture. -/
def forwardLastBytes (capture : BodyCapture) (writer : Writer) (bytes : Bytes) (direction : BodyDirection) :
    Except TransparentFlowError BodyCapture × Writer :=
  match usizeToU64 bytes.length >>= checkedSub capture.forwardedBytes with
  | .error e => (.error e, writer)
  | .ok forwardedBytes => lastWrites { capture with forwardedBytes } writer bytes direction

end BodyCapture

def forwardEmptyBody (writer : Writer) (bufferedBody : Bytes) (direction : BodyDirection) :
    Except TransparentFlowError BodyCapture × Writer :=
  if bufferedBody ≠ [] then (.error (pipelinedError direction), writer) else
  let capture : BodyCapture := ⟨CapturedBody.fromBytes [], 0, none⟩
  match writer.flush with
  | (none, writer) => (.ok capture, writer)
  | (some source, writer) => (capture.failLast direction source, writer)

/-- The loop of `forwardContentLengthBody`, entered with the next bytes to forward. -/
def contentLengthLoop (length maxBodyBytes : Nat) (direction : BodyDirection) (reader : Reader)
    (writer : Writer) (body : Bytes) (captureBody : Bool) (remaining : Nat) (bytes : Bytes) :
    Copied BodyCapture :=
  let captured := appendBodyForCapture body captureBody bytes maxBodyBytes
  match checkedSub remaining bytes.length with
  | .error e => (.error e, reader, writer)
  | .ok 0 =>
    match usizeToU64 length with
    | .error e => (.error e, reader, writer)
    | .ok forwardedBytes =>
      let capture : BodyCapture := ⟨capturedBody captured.1 captured.2 maxBodyBytes, forwardedBytes, none⟩
      let (result, writer) := capture.forwardLastBytes writer bytes direction
      (result, reader, writer)
  | .ok (left + 1) =>
    match writeAllFor (bodyForwardOperation direction) writer bytes with
    | (.error e, writer) => (.error e, reader, writer)
    | (.ok (), writer) =>
      match _h : reader.read (min (left + 1) relayChunkBytes) with
      | (.error source, reader) => (.error (.io (bodyReadOperation direction) source), reader, writer)
      | (.ok [], reader) =>
        (.error (bodyError direction (.invalidBody "content-length body ended early")), reader, writer)
      | (.ok (b :: bs), reader) =>
        contentLengthLoop length maxBodyBytes direction reader writer captured.1 captured.2 (left + 1) (b :: bs)
termination_by reader.contents.length
decreasing_by exact Source.read_shrinks _h

def forwardContentLengthBody (reader : Reader) (writer : Writer) (bufferedBody : Bytes) (length maxBodyBytes : Nat)
    (direction : BodyDirection) : Copied BodyCapture :=
  if length < bufferedBody.length then (.error (pipelinedError direction), reader, writer)
  else contentLengthLoop length maxBodyBytes direction reader writer [] true length bufferedBody

/-- Validate one read of a chunked body, then pass it on: a final result, or a parser that goes on. -/
def chunkedRead (parser : ChunkSizeParser) (maxBodyBytes : Nat) (direction : BodyDirection)
    (chunked : ChunkedBodyCapture) (bytes : Bytes) (writer : Writer) :
    (Except TransparentFlowError BodyCapture ⊕ ChunkedBodyCapture) × Writer :=
  match chunked.feed parser bytes maxBodyBytes with
  | .error e => (.inl (.error e), writer)
  | .ok (some capture, _) =>
    let (result, writer) := capture.forwardLastBytes writer bytes direction
    (.inl result, writer)
  | .ok (none, chunked) =>
    match writeAllFor (bodyForwardOperation direction) writer bytes with
    | (.error e, writer) => (.inl (.error e), writer)
    | (.ok (), writer) => (.inr chunked, writer)

def chunkedLoop (parser : ChunkSizeParser) (maxBodyBytes : Nat) (direction : BodyDirection)
    (chunked : ChunkedBodyCapture) (reader : Reader) (writer : Writer) : Copied BodyCapture :=
  match _h : reader.read relayChunkBytes with
  | (.error source, reader) => (.error (.io (bodyReadOperation direction) source), reader, writer)
  | (.ok [], reader) => (.error (bodyError direction (.invalidBody "chunked body ended early")), reader, writer)
  | (.ok (b :: bs), reader) =>
    match chunkedRead parser maxBodyBytes direction chunked (b :: bs) writer with
    | (.inl result, writer) => (result, reader, writer)
    | (.inr chunked, writer) => chunkedLoop parser maxBodyBytes direction chunked reader writer
termination_by reader.contents.length
decreasing_by exact Source.read_shrinks _h

def forwardChunkedBody (parser : ChunkSizeParser) (reader : Reader) (writer : Writer) (bufferedBody : Bytes)
    (maxBodyBytes : Nat) (direction : BodyDirection) : Copied BodyCapture :=
  let chunked := ChunkedBodyCapture.new direction
  if bufferedBody = [] then chunkedLoop parser maxBodyBytes direction chunked reader writer else
  match chunkedRead parser maxBodyBytes direction chunked bufferedBody writer with
  | (.inl result, writer) => (result, reader, writer)
  | (.inr chunked, writer) => chunkedLoop parser maxBodyBytes direction chunked reader writer

def untilEofLoop (maxBodyBytes : Nat) (direction : BodyDirection) (body : Bytes) (captureBody : Bool)
    (forwardedBytes : Nat) (reader : Reader) (writer : Writer) : Copied BodyCapture :=
  match _h : reader.read relayChunkBytes with
  | (.error source, reader) => (.error (.io (bodyReadOperation direction) source), reader, writer)
  | (.ok [], reader) => (.ok ⟨capturedBody body captureBody maxBodyBytes, forwardedBytes, none⟩, reader, writer)
  | (.ok (b :: bs), reader) =>
    match writeAllFor (bodyForwardOperation direction) writer (b :: bs) with
    | (.error e, writer) => (.error e, reader, writer)
    | (.ok (), writer) =>
      match usizeToU64 (b :: bs).length >>= addLen forwardedBytes with
      | .error e => (.error e, reader, writer)
      | .ok forwardedBytes =>
        let captured := appendBodyForCapture body captureBody (b :: bs) maxBodyBytes
        untilEofLoop maxBodyBytes direction captured.1 captured.2 forwardedBytes reader writer
termination_by reader.contents.length
decreasing_by exact Source.read_shrinks _h

def forwardUntilEofBody (reader : Reader) (writer : Writer) (bufferedBody : Bytes) (maxBodyBytes : Nat)
    (direction : BodyDirection) : Copied BodyCapture :=
  match usizeToU64 bufferedBody.length with
  | .error e => (.error e, reader, writer)
  | .ok forwardedBytes =>
    let captured := appendBodyForCapture [] true bufferedBody maxBodyBytes
    match writeAllFor (bodyForwardOperation direction) writer bufferedBody with
    | (.error e, writer) => (.error e, reader, writer)
    | (.ok (), writer) =>
      untilEofLoop maxBodyBytes direction captured.1 captured.2 forwardedBytes reader writer

/-- Forward a body according to the already selected framing. -/
def forwardBody (parser : ChunkSizeParser) (reader : Reader) (writer : Writer) (framing : BodyFraming)
    (bufferedBody : Bytes) (maxBodyBytes : Nat) (direction : BodyDirection) : Copied BodyCapture :=
  match framing with
  | .empty =>
    let (result, writer) := forwardEmptyBody writer bufferedBody direction
    (result, reader, writer)
  | .contentLength length => forwardContentLengthBody reader writer bufferedBody length maxBodyBytes direction
  | .chunked => forwardChunkedBody parser reader writer bufferedBody maxBodyBytes direction
  | .untilEof => forwardUntilEofBody reader writer bufferedBody maxBodyBytes direction

end Abyss.Mitm.Relay
