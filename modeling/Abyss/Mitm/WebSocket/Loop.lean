import Mathlib.Logic.Function.Basic
import Abyss.Mitm.Http.Message
import Abyss.System.Machine

/-! The WebSocket relay behind an upgrade: a select loop over two message streams, which
submits each message to the hook queue, sends it to the other side and counts its bytes. -/
namespace Abyss.Mitm.WebSocket
open Abyss.Text Abyss.Mitm.Http

inductive WebSocketDirection where
  | clientToServer
  | serverToClient
  deriving DecidableEq, Repr

/-- A message of the `tungstenite` crate; a close frame carries an optional reason. -/
inductive Message where
  | text (content : Str)
  | binary (bytes : Bytes)
  | ping (bytes : Bytes)
  | pong (bytes : Bytes)
  | close (reason : Option Str)
  | frame (bytes : Bytes)
  deriving DecidableEq, Repr

/-- `Message::len`. -/
def Message.len : Message → Nat
  | .text content => (toUtf8 content).length
  | .binary bytes | .ping bytes | .pong bytes | .frame bytes => bytes.length
  | .close reason => (toUtf8 (reason.getD [])).length

def Message.isClose : Message → Bool
  | .close _ => true
  | _ => false

/-- What a stream yields; at the end of the list it ends. -/
inductive ReadEvent where
  | message (message : Message)
  | failed (source : WebSocketError)
  deriving DecidableEq, Repr

def WebSocketDirection.readOperation : WebSocketDirection → FlowOperation
  | .clientToServer => .readAgentWebSocket
  | .serverToClient => .readProviderWebSocket

def WebSocketDirection.writeOperation : WebSocketDirection → FlowOperation
  | .clientToServer => .writeProviderWebSocket
  | .serverToClient => .writeAgentWebSocket

/-- An Agent-side transport error that only means that the Agent stopped using the connection. -/
def isAgentStreamEnd (direction : WebSocketDirection) (error : WebSocketError) : Bool :=
  direction == .clientToServer && match error with
    | .connectionClosed => true
    | .io kind => isPeerCloseKind kind
    | .other => false

/-- Metadata attached to every message of a tunnel. -/
structure Tunnel (Flow : Type) where
  flow : Flow
  request : Request
  response : Response

structure WebSocketMessage (Flow : Type) where
  flow : Flow
  upgradeRequest : Request
  upgradeResponse : Response
  direction : WebSocketDirection
  sequence : Nat
  text : Option Str
  binary : Option Bytes
  deriving DecidableEq

section Hooks
variable {Event : Type}

inductive HookDispatchStatus where
  | noHooks | enqueued | dropped | closed
  deriving DecidableEq, Repr

/-- The bounded queue to the hook worker; `none` in the queue is an event of another flow. -/
structure HookDispatcher (Event : Type) where
  hasHooks : Bool
  queueCapacity : Nat
  queue : List (Option Event)
  delivered : List Event
  workerRuns : Bool

/-- Queue pressure drops events instead of blocking traffic. -/
def HookDispatcher.submitEvent (hooks : HookDispatcher Event) (event : Option Event) :
    HookDispatchStatus × HookDispatcher Event :=
  if !hooks.hasHooks then (.noHooks, hooks)
  else if !hooks.workerRuns then (.closed, hooks)
  else if hooks.queueCapacity ≤ hooks.queue.length then (.dropped, hooks)
  else (.enqueued, { hooks with queue := hooks.queue ++ [event] })

/-- The worker hands the first event of the queue to the hooks. -/
def HookDispatcher.work (hooks : HookDispatcher Event) : Option (HookDispatcher Event) :=
  match hooks.workerRuns, hooks.queue with
  | true, event :: rest => some { hooks with queue := rest, delivered := hooks.delivered ++ event.toList }
  | _, _ => none

end Hooks

def hookMessageFromWebsocket {Flow : Type} (tunnel : Tunnel Flow) (direction : WebSocketDirection) (sequence : Nat) :
    Message → Option (WebSocketMessage Flow)
  | .text text => some ⟨tunnel.flow, tunnel.request, tunnel.response, direction, sequence, some text, none⟩
  | .binary bytes => some ⟨tunnel.flow, tunnel.request, tunnel.response, direction, sequence, none, some bytes⟩
  | .ping _ | .pong _ | .close _ | .frame _ => none

structure WebSocketRelayOutcome where
  clientToUpstreamBytes : Nat
  upstreamToClientBytes : Nat
  deriving DecidableEq, Repr

/-- The select loop. `seen` records what the loop read, `none` for the end of a stream, and `submitted` what it gave to
the hooks; neither is read by a step. -/
structure RelayLoop (Flow : Type) where
  remaining : WebSocketDirection → List ReadEvent
  sequence : Nat
  bytes : WebSocketDirection → Nat
  sent : WebSocketDirection → List Message
  hooks : HookDispatcher (WebSocketMessage Flow)
  result : Option (Except TransparentFlowError WebSocketRelayOutcome)
  seen : List (WebSocketDirection × Option Message)
  submitted : List (WebSocketMessage Flow × HookDispatchStatus)

/-- The dispatcher of a new tunnel, whose queue may hold events of other flows. -/
structure Dispatch where
  hasHooks : Bool
  queueCapacity : Nat
  others : Nat
  workerRuns : Bool
  deriving DecidableEq, Repr

def Dispatch.dispatcher {Event : Type} (dispatch : Dispatch) : HookDispatcher Event :=
  ⟨dispatch.hasHooks, dispatch.queueCapacity, List.replicate dispatch.others none, [], dispatch.workerRuns⟩

/-- The loop before its first turn. -/
def RelayLoop.new {Flow : Type} (streams : WebSocketDirection → List ReadEvent) (dispatch : Dispatch) : RelayLoop Flow :=
  ⟨streams, 0, fun _ => 0, fun _ => [], dispatch.dispatcher, none, [], []⟩

section Turns
variable {Flow : Type} (tunnel : Tunnel Flow) (loop : RelayLoop Flow) (direction : WebSocketDirection)

def RelayLoop.fail (error : TransparentFlowError) : RelayLoop Flow := { loop with result := some (.error error) }

/-- Leave the loop with its counters. -/
def RelayLoop.finish : RelayLoop Flow :=
  { loop with result := some (.ok ⟨loop.bytes .clientToServer, loop.bytes .serverToClient⟩) }

def RelayLoop.consume (rest : List ReadEvent) : RelayLoop Flow :=
  { loop with remaining := Function.update loop.remaining direction rest }

def RelayLoop.note (message : Option Message) : RelayLoop Flow :=
  { loop with seen := loop.seen ++ [(direction, message)] }

/-- `next_sequence` and the submission of messages with a payload. -/
def RelayLoop.submitHookMessage (message : Message) : Except TransparentFlowError (RelayLoop Flow) :=
  match addLen loop.sequence 1 with
  | .error e => .error e
  | .ok sequence =>
    match hookMessageFromWebsocket tunnel direction sequence message with
    | none => .ok { loop with sequence }
    | some hookMessage =>
      .ok { loop with
        sequence
        hooks := (loop.hooks.submitEvent (some hookMessage)).2
        submitted := loop.submitted ++ [(hookMessage, (loop.hooks.submitEvent (some hookMessage)).1)] }

/-- Count a message that was sent, and leave the loop behind a close message. -/
def RelayLoop.count (message : Message) (payloadBytes : Nat) : RelayLoop Flow :=
  match addLen (loop.bytes direction) payloadBytes with
  | .error e => loop.fail e
  | .ok total =>
    if message.isClose then { loop with bytes := Function.update loop.bytes direction total }.finish
    else { loop with bytes := Function.update loop.bytes direction total }

def RelayLoop.send (message : Message) (payloadBytes : Nat) : Except WebSocketError Unit → RelayLoop Flow
  | .error source => loop.fail (.webSocket direction.writeOperation source)
  | .ok () =>
    { loop with sent := Function.update loop.sent direction (loop.sent direction ++ [message]) }.count direction message
      payloadBytes

def RelayLoop.forward (message : Message) (payloadBytes : Nat) (sending : Except WebSocketError Unit) : RelayLoop Flow :=
  match loop.submitHookMessage tunnel direction message with
  | .error e => loop.fail e
  | .ok loop => loop.send direction message payloadBytes sending

/-- One turn of the loop, on the side whose read is ready first. -/
def RelayLoop.turn (sending : Except WebSocketError Unit) : RelayLoop Flow :=
  match loop.remaining direction with
  | [] => (loop.note direction none).finish
  | .failed source :: rest =>
    if isAgentStreamEnd direction source then ((loop.consume direction rest).note direction none).finish
    else (loop.consume direction rest).fail (.webSocket direction.readOperation source)
  | .message message :: rest =>
    match usizeToU64 message.len with
    | .error e => (loop.consume direction rest).fail e
    | .ok payloadBytes =>
      ((loop.consume direction rest).note direction (some message)).forward tunnel direction message payloadBytes sending

/-- What can happen next: a turn of the loop, work of the hook worker, its end, or an event of another flow. -/
inductive Action where
  | turn (direction : WebSocketDirection) (sending : Except WebSocketError Unit)
  | work
  | workerStops
  | otherFlow

def RelayLoop.step : Action → Option (RelayLoop Flow)
  | .turn direction sending => if loop.result.isSome then none else some (loop.turn tunnel direction sending)
  | .work => loop.hooks.work.map (fun hooks => { loop with hooks })
  | .workerStops => some { loop with hooks := { loop.hooks with queue := [], workerRuns := false } }
  | .otherFlow => some { loop with hooks := (loop.hooks.submitEvent none).2 }

end Turns
end Abyss.Mitm.WebSocket
