import Abyss.PluginProtocol.Codec
import Abyss.PluginProtocol.RoundTrip

/-! The plugin client of the SDK: its handshake and its stream of Agent events. -/
namespace Abyss.Sdk
open Abyss.Text Abyss.PluginProtocol
open Abyss.Mitm (Bytes Writer)

/-- The errors of a connected client; a frame error is reported as its text. -/
inductive BrokerPluginError where
  | frame (source : PluginFrameError)
  | decode (phase : String)
  | handshakeRejected (code : UInt32) (reason : Str)
  | unexpectedEof
  deriving DecidableEq, Repr

section Handshake

inductive HandshakeResponse where
  | accepted (hello : BrokerHello)
  | rejected (error : BrokerError)
  deriving DecidableEq, Repr

/-- `#[serde(untagged)]`: the first variant that the document fits. -/
def HandshakeResponse.fromJson (document : Json) : Option HandshakeResponse :=
  (BrokerHello.codec.fromJson document).map .accepted <|> (BrokerError.codec.fromJson document).map .rejected

def HandshakeResponse.fromSlice (payload : Bytes) : Option HandshakeResponse := (Json.fromSlice payload).bind fromJson

/-- `BrokerPlugin::handshake` on a connected stream. -/
def handshake (pluginId : Str) (reader : Socket) (writer : Writer) : Except BrokerPluginError Unit × Socket × Writer :=
  match writeJson PluginHello.codec writer (.new pluginId) with
  | (.error e, writer) => (.error (.frame e), reader, writer)
  | (.ok (), writer) =>
    match readPayload reader with
    | (.error e, reader) => (.error (.frame e), reader, writer)
    | (.ok none, reader) => (.error .unexpectedEof, reader, writer)
    | (.ok (some payload), reader) =>
      match HandshakeResponse.fromSlice payload with
      | none => (.error (.decode "handshake response"), reader, writer)
      | some (.accepted _) => (.ok (), reader, writer)
      | some (.rejected error) => (.error (.handshakeRejected error.code error.reason), reader, writer)

theorem fromSlice_hello (hello : BrokerHello) :
    HandshakeResponse.fromSlice (BrokerHello.codec.toJson hello).toVec = some (.accepted hello) := by
  rw [HandshakeResponse.fromSlice, JsonCodec.fromSlice_toVec (by decide), Option.bind_some, HandshakeResponse.fromJson,
    BrokerHello.codec_reads hello]
  rfl

theorem fromSlice_error (error : BrokerError) :
    HandshakeResponse.fromSlice (BrokerError.codec.toJson error).toVec = some (.rejected error) := by
  rw [HandshakeResponse.fromSlice, JsonCodec.fromSlice_toVec (by decide), Option.bind_some, HandshakeResponse.fromJson,
    BrokerError.not_hello error, BrokerError.codec_reads error]
  rfl

end Handshake

section EventStream
variable {Time : Type} (time : Rfc3339 Time)

inductive StreamMessage (Time : Type) where
  | event (event : AgentEvent Time)
  | close (close : BrokerClose)

/-- `#[serde(untagged)]`: the first variant that the document fits. -/
def StreamMessage.fromJson (document : Json) : Option (StreamMessage Time) :=
  ((AgentEvent.codec time).fromJson document).map .event <|> (BrokerClose.codec.fromJson document).map .close

def StreamMessage.fromSlice (payload : Bytes) : Option (StreamMessage Time) :=
  (Json.fromSlice payload).bind (StreamMessage.fromJson time)

def readStreamMessage (stream : Socket) : Except BrokerPluginError (StreamMessage Time) × Socket :=
  match readPayload stream with
  | (.error e, stream) => (.error (.frame e), stream)
  | (.ok none, stream) => (.error .unexpectedEof, stream)
  | (.ok (some payload), stream) =>
    match StreamMessage.fromSlice time payload with
    | some message => (.ok message, stream)
    | none => (.error (.decode "event stream frame"), stream)

structure EventStreamState where
  stream : Socket
  close : Option BrokerClose
  terminated : Bool

def EventStreamState.new (stream : Socket) : EventStreamState := ⟨stream, none, false⟩

/-- One step of `AgentEventStream`; `none` is its end. -/
def EventStreamState.next (state : EventStreamState) : Option (Except BrokerPluginError (AgentEvent Time)) × EventStreamState :=
  if state.terminated then (none, state) else
  match readStreamMessage time state.stream with
  | (.ok (.event event), stream) => (some (.ok event), { state with stream })
  | (.ok (.close close), stream) => (none, { state with stream, close := some close })
  | (.error e, stream) => (some (.error e), { state with stream, terminated := true })

/-- How much the stream may still yield. -/
def EventStreamState.size (state : EventStreamState) : Nat :=
  if state.terminated then 0 else state.stream.contents.length + 1

theorem EventStreamState.next_size {state next : EventStreamState} {item : Except BrokerPluginError (AgentEvent Time)}
    (h : state.next time = (some item, next)) : next.size < state.size := by
  unfold EventStreamState.next at h
  split at h
  · cases h
  · rename_i hrunning
    rw [Bool.not_eq_true] at hrunning
    split at h
    · rename_i event stream hread
      obtain ⟨-, rfl⟩ := Prod.mk.inj h
      unfold readStreamMessage at hread
      split at hread
      · cases hread
      · cases hread
      · rename_i payload stream' hpayload
        split at hread
        · cases hread
          have hshrinks := readPayload_shrinks hpayload
          simp only [EventStreamState.size, hrunning, Bool.false_eq_true, if_false]
          omega
        · cases hread
    · cases h
    · obtain ⟨-, rfl⟩ := Prod.mk.inj h
      simp [EventStreamState.size, hrunning]

/-- Everything that the stream yields until it ends. -/
def EventStreamState.collect (state : EventStreamState) : List (Except BrokerPluginError (AgentEvent Time)) × EventStreamState :=
  match _h : state.next time with
  | (none, next) => ([], next)
  | (some item, next) => (item :: (next.collect).1, (next.collect).2)
termination_by state.size
decreasing_by all_goals exact EventStreamState.next_size time _h

/-- `AgentEventStream::take_close`. -/
def EventStreamState.takeClose (state : EventStreamState) : Option BrokerClose × EventStreamState :=
  (state.close, { state with close := none })

end EventStream
end Abyss.Sdk
