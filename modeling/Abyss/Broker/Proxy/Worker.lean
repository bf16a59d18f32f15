import Mathlib.Algebra.Order.Ring.Int
import Abyss.System.Machine

/-! The worker of an ingress: its accept loop, the tasks of its connections and its shutdown. -/
namespace Abyss.Broker.Proxy

section Telemetry

/-- `u64::saturating_add(1)`. -/
def increment (counter : Nat) : Nat := min (counter + 1) (2 ^ 64 - 1)

/-- The counters of `FlowDiagnosticsState`. -/
structure FlowDiagnosticsState where
  acceptedTotal : Nat
  completedTotal : Nat
  inFlight : Nat
  acceptErrorsTotal : Nat
  deriving DecidableEq, Repr

def FlowDiagnosticsState.recordAccepted (state : FlowDiagnosticsState) : FlowDiagnosticsState :=
  { state with
    acceptedTotal := increment state.acceptedTotal
    inFlight := increment state.inFlight }

def FlowDiagnosticsState.recordAcceptError (state : FlowDiagnosticsState) : FlowDiagnosticsState :=
  { state with acceptErrorsTotal := increment state.acceptErrorsTotal }

def FlowDiagnosticsState.recordCompleted (state : FlowDiagnosticsState) : FlowDiagnosticsState :=
  { state with
    completedTotal := increment state.completedTotal
    inFlight := state.inFlight - 1 }

/-- The active flows of `TrafficState`, and the identifier of the next one. -/
structure TrafficState where
  flows : List Nat
  nextId : Nat
  deriving DecidableEq, Repr

def TrafficState.startFlow (state : TrafficState) : TrafficState :=
  ⟨state.nextId :: state.flows, state.nextId + 1⟩

def TrafficState.finishFlow (state : TrafficState) (id : Nat) : TrafficState :=
  { state with flows := state.flows.erase id }

/-- What all workers share. The last counter records the past: the accepted flows whose task was aborted or
has panicked. -/
structure Telemetry where
  diagnostics : FlowDiagnosticsState
  traffic : TrafficState
  lost : Nat
  deriving DecidableEq, Repr

def Telemetry.new : Telemetry := ⟨⟨0, 0, 0, 0⟩, ⟨[], 0⟩, 0⟩

end Telemetry

section Connections

/-- Where the task of a connection is suspended. -/
inductive ConnectionPhase where
  | preparing
  | handling (flowId : Nat)
  | ended
  deriving DecidableEq, Repr

/-- A task of the `JoinSet` that is not joined yet. -/
structure Connection where
  phase : ConnectionPhase
  aborted : Bool
  deriving DecidableEq, Repr

inductive ConnectionEvent where
  | prepared
  | rejected
  | handled
  | panicked
  | cancelled
  deriving DecidableEq, Repr

/-- The task ends without a result. Of what it holds only the guard of the traffic flow does something. -/
def Connection.unwind (connection : Connection) (telemetry : Telemetry) : Option (Connection × Telemetry) :=
  match connection.phase with
  | .preparing => some ({ connection with phase := .ended }, telemetry)
  | .handling flowId => some ({ connection with phase := .ended },
      { telemetry with traffic := telemetry.traffic.finishFlow flowId, lost := telemetry.lost + 1 })
  | .ended => none

/-- `ProxyConnection::run`, from one await to the next. -/
def Connection.step (connection : Connection) (telemetry : Telemetry) : ConnectionEvent → Option (Connection × Telemetry)
  | .prepared =>
    match connection.phase with
    | .preparing => some ({ connection with phase := .handling telemetry.traffic.nextId },
        { telemetry with diagnostics := telemetry.diagnostics.recordAccepted, traffic := telemetry.traffic.startFlow })
    | _ => none
  | .rejected =>
    match connection.phase with
    | .preparing => some ({ connection with phase := .ended },
        { telemetry with diagnostics := telemetry.diagnostics.recordAcceptError })
    | _ => none
  | .handled =>
    match connection.phase with
    | .handling flowId => some ({ connection with phase := .ended },
        { telemetry with
          diagnostics := telemetry.diagnostics.recordCompleted
          traffic := telemetry.traffic.finishFlow flowId })
    | _ => none
  | .panicked => connection.unwind telemetry
  | .cancelled => if connection.aborted then connection.unwind telemetry else none

end Connections

section Worker

inductive WorkerPhase where
  | accepting
  | draining
  | aborting
  | closing
  | returned
  | failed
  deriving DecidableEq, Repr

structure ProxyWorker where
  phase : WorkerPhase
  /-- Whether the shutdown channel has fired. -/
  shutdown : Bool
  connections : List Connection
  deriving DecidableEq, Repr

inductive WorkerEvent where
  | accepted
  | acceptFailed
  | shutdown
  | joined (k : Nat)
  | drainTimeout
  | drained
  | closed
  /-- The task of the worker panics. -/
  | panicked
  | connection (k : Nat) (event : ConnectionEvent)
  deriving DecidableEq, Repr

namespace ProxyWorker

def new : ProxyWorker := ⟨.accepting, false, []⟩

def maxConcurrentProxyConnections : Nat := 256

/-- Whether the task of the worker exists, which owns the ingress. -/
def alive (worker : ProxyWorker) : Bool :=
  match worker.phase with
  | .returned | .failed => false
  | _ => true

/-- `JoinSet::abort_all`, which the drop of the set does as well. -/
def abortAll (worker : ProxyWorker) : ProxyWorker :=
  { worker with connections := worker.connections.map fun connection => { connection with aborted := true } }

/-- `ProxyWorker::run` and the tasks of its connections. -/
def step (worker : ProxyWorker) (telemetry : Telemetry) : WorkerEvent → Option (ProxyWorker × Telemetry)
  | .accepted =>
    if worker.phase = .accepting ∧ worker.connections.length < maxConcurrentProxyConnections then
      some ({ worker with connections := worker.connections ++ [⟨.preparing, false⟩] }, telemetry)
    else none
  | .acceptFailed =>
    if worker.phase = .accepting ∧ worker.connections.length < maxConcurrentProxyConnections then
      some (worker, { telemetry with diagnostics := telemetry.diagnostics.recordAcceptError })
    else none
  | .shutdown =>
    if worker.phase = .accepting ∧ worker.shutdown then some ({ worker with phase := .draining }, telemetry) else none
  | .joined k =>
    if worker.phase ∈ [.accepting, .draining, .aborting] ∧ (worker.connections[k]?).map (·.phase) = some .ended then
      some ({ worker with connections := worker.connections.eraseIdx k }, telemetry)
    else none
  | .drainTimeout =>
    if worker.phase = .draining ∧ worker.connections ≠ [] then
      some ({ worker.abortAll with phase := .aborting }, telemetry)
    else none
  | .drained =>
    if worker.phase ∈ [.draining, .aborting] ∧ worker.connections = [] then
      some ({ worker with phase := .closing }, telemetry)
    else none
  | .closed => if worker.phase = .closing then some ({ worker with phase := .returned }, telemetry) else none
  | .panicked => if worker.alive then some ({ worker.abortAll with phase := .failed }, telemetry) else none
  | .connection k event => do
    let (connection, telemetry) ← (← worker.connections[k]?).step telemetry event
    some ({ worker with connections := worker.connections.set k connection }, telemetry)

end ProxyWorker

end Worker
end Abyss.Broker.Proxy
