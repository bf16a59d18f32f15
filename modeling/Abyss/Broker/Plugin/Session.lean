import Abyss.PluginProtocol.Codec
import Abyss.PluginProtocol.RoundTrip
import Abyss.System.Channels
import Abyss.System.Machine

/-! Handshake state machine and live event writer for one plugin connection; the local plugin listener, live event broadcaster
and connection lifecycle. A phase is a point where a task may be suspended, so that anything may happen between two of its
steps; a schedule is a list of actions of the publishers, of whoever holds the shutdown sender, of the server and of its
sessions. -/
namespace Abyss.Broker.Plugin
open Abyss.Text Abyss.PluginProtocol Abyss.System
open Abyss.Mitm (Bytes Writer)

/-- `EVENT_BROADCAST_CAPACITY`. -/
def eventBroadcastCapacity : Nat := 64

abbrev EventRing (Time : Type) := Ring eventBroadcastCapacity (AgentEvent Time)

/-- Timestamps on the wire, and the text of the error for a payload that is no hello. -/
structure SessionEnv (Time : Type) where
  time : Rfc3339 Time
  jsonError : Bytes → Str

section Hello
open JsonFields JsonField

structure RawPluginHello where
  protocolVersion : UInt16
  pluginId : Str
  deriving DecidableEq, Repr

def RawPluginHello.codec : JsonCodec RawPluginHello :=
  (cons (required "protocol_version".toList .u16) (cons (required "plugin_id".toList .string) nil)).struct
    (fun h => (h.protocolVersion, h.pluginId, ())) (fun p => ⟨p.1, p.2.1⟩)

def RawPluginHello.fromSlice (payload : Bytes) : Option RawPluginHello :=
  (Json.fromSlice payload).bind RawPluginHello.codec.fromJson

def isAsciiAlphanumeric (byte : UInt8) : Bool :=
  (0x30 ≤ byte && byte ≤ 0x39) || (0x41 ≤ byte && byte ≤ 0x5a) || (0x61 ≤ byte && byte ≤ 0x7a)

def validPluginId (pluginId : Str) : Bool :=
  let bytes := toUtf8 pluginId
  (1 ≤ bytes.length && bytes.length ≤ 128) &&
    bytes.all (fun byte => isAsciiAlphanumeric byte || byte == 0x2e || byte == 0x5f || byte == 0x2d)

end Hello

inductive Outcome where
  | returned (result : Except PluginFrameError Unit)
  | aborted

/-- Where the task of a session is suspended, with its position in the event ring once it has subscribed. -/
inductive Phase (Time : Type) where
  /-- `taken` bytes are in the hands of a pending `read_payload`. -/
  | handshake (taken : Nat)
  | handshakeChanged (taken : Nat)
  | reading (taken : Nat)
  | rejecting (error : PluginProtocol.BrokerError)
  | validated (version : PluginProtocolVersion)
  | accepting (version : PluginProtocolVersion) (events : Nat)
  | streaming (events : Nat)
  | changed (events : Nat)
  | receiving (events : Nat)
  | delivering (events : Nat) (event : AgentEvent Time)
  | closing (events : Nat) (close : BrokerClose)
  | ended (outcome : Outcome)

/-- Whether the session holds a receiver. -/
def Phase.subscribed {Time : Type} : Phase Time → Bool
  | .accepting .. | .streaming _ | .changed _ | .receiving _ | .delivering .. | .closing .. => true
  | _ => false

/-- Whether the session has been accepted, and has not ended. -/
def Phase.accepted {Time : Type} : Phase Time → Bool
  | .streaming _ | .changed _ | .receiving _ | .delivering .. | .closing .. => true
  | _ => false

def Phase.isEnded {Time : Type} : Phase Time → Bool
  | .ended _ => true
  | _ => false

/-- One accepted connection. `subscribedAt` counts the events published before the subscription,
and `transport` is the output as it was when the connection was accepted. -/
structure Session (Time : Type) where
  phase : Phase Time
  reader : Socket
  writer : Writer
  shutdown : Nat
  subscribedAt : Nat
  transport : Writer

section Steps
variable {Time : Type} (env : SessionEnv Time)

def Session.new (reader : Socket) (writer : Writer) (shutdown : Nat) : Session Time :=
  ⟨.handshake 0, reader, writer, shutdown, 0, writer⟩

/-- Write one payload and go on, or end with the error. -/
def Session.write {α : Type} (session : Session Time) (codec : JsonCodec α) (value : α) (next : Phase Time) : Session Time :=
  match writeJson codec session.writer value with
  | (.ok (), writer) => { session with writer, phase := next }
  | (.error e, writer) => { session with writer, phase := .ended (.returned (.error e)) }

def invalidHandshake (reason : Str) : Phase Time := .rejecting (.new .invalidHandshake reason)

/-- The first check of the payload that fails rejects the handshake. -/
def handshakeReply (payload : Bytes) : Phase Time :=
  match RawPluginHello.fromSlice payload with
  | none => invalidHandshake ("invalid PluginHello: ".toList ++ env.jsonError payload)
  | some hello =>
    match PluginProtocolVersion.tryFrom hello.protocolVersion with
    | none => .rejecting (.new .unsupportedProtocolVersion
        ("unsupported protocol version ".toList ++ (toString hello.protocolVersion.toNat).toList))
    | some version =>
      if validPluginId hello.pluginId then .validated version
      else invalidHandshake "plugin_id must contain 1 to 128 ASCII letters, digits, '.', '_', or '-'".toList

/-- What becomes of the payload, once `read_payload` is ready. -/
def handshakePayload : Except PluginFrameError (Option Bytes) → Phase Time
  | .ok none => .ended (.returned (.ok ()))
  | .ok (some payload) => handshakeReply env payload
  | .error (.payloadTooLarge length maximum) => invalidHandshake ("plugin frame payload length ".toList ++
      (toString length).toList ++ " exceeds maximum ".toList ++ (toString maximum).toList)
  | .error e => .ended (.returned (.error e))

def shutdownClose : BrokerClose := .new .brokerShutdown "broker is shutting down".toList

def tooSlowClose : BrokerClose := .new .eventStreamTooSlow "plugin event stream is too slow".toList

def streamClosedClose : BrokerClose := .new .brokerShutdown "broker event stream closed".toList

/-- `handle_event`, up to its write. -/
def handleEvent (events : Nat) : Except RecvError (AgentEvent Time) → Phase Time
  | .ok event => .delivering events event
  | .error (.lagged _) => .closing events tooSlowClose
  | .error .closed => .closing events streamClosedClose

/-- The next step of the task. In both loops the shutdown is looked at first, and then the other
future, which may still be pending: it is polled again after the next wake-up. -/
def Session.proceed (ring : EventRing Time) (shutdown : Watch Bool) (published : Nat) (session : Session Time) :
    Option (Session Time) :=
  match session.phase with
  | .handshake taken =>
    match shutdown.changed session.shutdown with
    | some (.ok version) => some { session with phase := .handshakeChanged taken, shutdown := version }
    | some (.error ()) => some { session with phase := .ended (.returned (.ok ())) }
    | none => some { session with phase := .reading taken }
  | .handshakeChanged taken =>
    if shutdown.value then some { session with phase := .ended (.returned (.ok ())) }
    -- a new iteration starts a new `read_payload`: what the dropped one has taken is lost
    else some { session with phase := .handshake 0, reader := (session.reader.readExact .unexpectedEof taken).2 }
  | .reading _ =>
    match readPayload session.reader with
    | (payload, reader) => some { session with phase := handshakePayload env payload, reader }
  | .rejecting error => some (session.write PluginProtocol.BrokerError.codec error (.ended (.returned (.ok ()))))
  | .validated version => some { session with phase := .accepting version ring.subscribe, subscribedAt := published }
  | .accepting version events => some (session.write BrokerHello.codec ⟨version⟩ (.streaming events))
  | .streaming events =>
    match shutdown.changed session.shutdown with
    | some (.ok version) => some { session with phase := .changed events, shutdown := version }
    | some (.error ()) => some { session with phase := .closing events shutdownClose }
    | none => some { session with phase := .receiving events }
  | .changed events =>
    if shutdown.value then some { session with phase := .closing events shutdownClose }
    else some { session with phase := .streaming events }
  | .receiving events =>
    match ring.recv events with
    | none => some { session with phase := .streaming events }
    | some (received, events) => some { session with phase := handleEvent events received }
  | .delivering events event => some (session.write (AgentEvent.codec env.time) event (.streaming events))
  | .closing _ close => some (session.write BrokerClose.codec close (.ended (.returned (.ok ()))))
  | .ended _ => none

inductive SessionAction where
  | proceed
  /-- The read of the hello is pending with `taken` bytes, and the task is woken up. -/
  | wake (taken : Nat)
  | timeOut
  | abort

def Session.step (ring : EventRing Time) (shutdown : Watch Bool) (published : Nat) (session : Session Time) :
    SessionAction → Option (Session Time)
  | .proceed => session.proceed env ring shutdown published
  | .wake taken =>
    match session.phase with
    | .reading before =>
      if before ≤ taken ∧ taken + (readPayload session.reader).2.contents.length ≤ session.reader.contents.length then
        some { session with phase := .handshake taken }
      else none
    | _ => none
  | .timeOut =>
    match session.phase with
    | .reading _ => some { session with phase := .ended (.returned (.ok ())) }
    | _ => none
  | .abort => if session.phase.isEnded then none else some { session with phase := .ended .aborted }

end Steps

section Server
open Abyss.PluginProtocol Abyss.System
open Abyss.Stream (Reply)
open Abyss.Mitm (ErrorKind)
variable {Time : Type}

/-- Where the task of `PluginServer::run` is suspended. -/
inductive ServerPhase where
  | running
  | changed
  /-- The shutdown is unchanged: a connection or the end of a session is awaited. -/
  | waiting
  /-- The listener is shut down, and the remaining sessions are joined. -/
  | joining
  | stopped
  | failed
  deriving DecidableEq, Repr

/-- The server, its channels and its sessions in the order of their connections. `published` is
every event that was published. -/
structure Server (Time : Type) where
  phase : ServerPhase
  seen : Nat
  ring : EventRing Time
  shutdown : Watch Bool
  sessions : List (Session Time)
  published : List (AgentEvent Time)

/-- `PluginServer::bind`, and a shutdown channel that says `false`. -/
def Server.bind : Server Time := ⟨.running, 0, .empty, ⟨false, 0, false⟩, [], []⟩

inductive Action (Time : Type) where
  | publish (event : AgentEvent Time)
  | sendShutdown (value : Bool)
  | dropShutdown
  | proceed
  /-- A connection, with what its peer sends and how its output will answer writes. -/
  | accept (reader : Socket) (writes : List (Reply ErrorKind))
  | acceptFailed
  /-- The server is woken up for nothing, or to log the end of a session. -/
  | wake
  | session (index : Nat) (action : SessionAction)

/-- `PluginEventBroadcaster::publish`. A channel without receivers refuses the event, and the
refusal is dropped. -/
def Server.publish (server : Server Time) (event : AgentEvent Time) : Server Time :=
  { server with
    ring := if server.sessions.any (·.phase.subscribed) then server.ring.send event else server.ring
    published := server.published ++ [event] }

/-- The next step of the server's task that nothing from outside decides. -/
def Server.proceed (server : Server Time) : Option (Server Time) :=
  match server.phase with
  | .running =>
    match server.shutdown.changed server.seen with
    | some (.ok version) => some { server with phase := .changed, seen := version }
    | some (.error ()) => some { server with phase := .joining }
    | none => some { server with phase := .waiting }
  | .changed => some { server with phase := if server.shutdown.value then .joining else .running }
  | .joining => if server.sessions.all (·.phase.isEnded) then some { server with phase := .stopped } else none
  | .waiting | .stopped | .failed => none

/-- A session acts. It is aborted only by the `JoinSet` of a server that has returned an error. -/
def Server.stepSession (env : SessionEnv Time) (server : Server Time) (index : Nat) (action : SessionAction) :
    Option (Server Time) :=
  match action, server.phase with
  | .abort, .running | .abort, .changed | .abort, .waiting | .abort, .joining | .abort, .stopped => none
  | action, _ => do
    let session ← server.sessions[index]?
    let session ← session.step env server.ring server.shutdown server.published.length action
    some { server with sessions := server.sessions.set index session }

def Server.step (env : SessionEnv Time) (server : Server Time) : Action Time → Option (Server Time)
  | .publish event => some (server.publish event)
  | .sendShutdown value =>
    if server.shutdown.closed then none else some { server with shutdown := server.shutdown.send value }
  | .dropShutdown => some { server with shutdown := server.shutdown.close }
  | .proceed => server.proceed
  | .accept reader writes =>
    if server.phase = .waiting then
      some { server with
        phase := .running
        sessions := server.sessions ++ [.new reader ⟨[], writes, [], []⟩ server.seen] }
    else none
  | .acceptFailed => if server.phase = .waiting then some { server with phase := .failed } else none
  | .wake => if server.phase = .waiting then some { server with phase := .running } else none
  | .session index action => server.stepSession env index action

end Server

end Abyss.Broker.Plugin
