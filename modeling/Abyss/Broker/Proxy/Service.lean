import Abyss.Broker.Proxy.Worker
import Abyss.Text.Scalar

/-! The proxy service: every call is a task whose phases are its await points, and it can be cancelled at each
of them. -/
namespace Abyss.Broker.Proxy
open Abyss.Text Abyss.System

section State

inductive BrokerError where
  | proxyAlreadyRunning (current requested : Str)
  | ingress (text : Str)
  | task (operation : Str)
  deriving DecidableEq, Repr

/-- The validated ingress endpoints of a proxy, and what the status and the errors show of them. -/
class ProxyPlan (Plan : Type) extends BEq Plan where
  mode : Plan → Str
  endpointLabel : Plan → Str

variable (Plan Ingress : Type)

/-- `IngressTask` with the index of its worker. -/
structure IngressTask where
  status : Ingress
  worker : Nat

structure StartedProxyRuntime where
  processId : Nat
  requestedPlan : Plan
  task : IngressTask Ingress

inductive ProxyRuntimeState where
  | stopped (processId : Nat)
  | started (runtime : StartedProxyRuntime Plan Ingress)

inductive ProxyStatus where
  | started (processId : Nat) (mode : Str) (ingress : Ingress)
  | stopped (processId : Nat)

/-- A call of the service. -/
inductive Operation where
  | start (plan : Plan)
  | stop
  | status

/-- Where the task of a call is suspended. -/
inductive CallPhase where
  | locking (operation : Operation Plan)
  | binding (processId : Nat) (plan : Plan)
  | joining (runtime : StartedProxyRuntime Plan Ingress)
  | done (result : Except BrokerError (ProxyStatus Ingress))
  | cancelled

/-- `ProxyService` with its calls, and its workers in the order of their start. -/
structure ProxyService where
  state : ProxyRuntimeState Plan Ingress
  lock : Option Nat
  calls : List (CallPhase Plan Ingress)
  workers : List ProxyWorker
  telemetry : Telemetry

/-- What a call waits for. -/
inductive Outcome where
  | ready
  | bound (ingress : Ingress)
  | failed (text : Str)

inductive Action where
  | call (operation : Operation Plan)
  | proceed (i : Nat) (outcome : Outcome Ingress)
  | cancel (i : Nat)
  | worker (w : Nat) (event : WorkerEvent)

end State

namespace ProxyService
variable {Plan Ingress : Type} [ProxyPlan Plan] (processId : Nat) (service : ProxyService Plan Ingress)

def initial : ProxyService Plan Ingress := ⟨.stopped processId, none, [], [], .new⟩

def goto (i : Nat) (phase : CallPhase Plan Ingress) : ProxyService Plan Ingress :=
  { service with calls := service.calls.set i phase }

/-- Return, which releases the lock of the state. -/
def finish (i : Nat) (result : Except BrokerError (ProxyStatus Ingress)) : ProxyService Plan Ingress :=
  { service.goto i (.done result) with lock := none }

def startedStatus (runtime : StartedProxyRuntime Plan Ingress) : ProxyStatus Ingress :=
  .started runtime.processId (ProxyPlan.mode runtime.requestedPlan) runtime.task.status

def status : ProxyStatus Ingress :=
  match service.state with
  | .stopped processId => .stopped processId
  | .started runtime => startedStatus runtime

/-- Send on the shutdown channel of a worker. -/
def signal (w : Nat) : ProxyService Plan Ingress :=
  { service with workers := service.workers.modify w fun worker => { worker with shutdown := true } }

/-- The call has the lock of the state, and runs up to its next await. -/
def locked (i : Nat) : Operation Plan → ProxyService Plan Ingress
  | .start plan =>
    match service.state with
    | .started runtime =>
      if runtime.requestedPlan == plan then service.finish i (.ok (startedStatus runtime))
      else service.finish i (.error (.proxyAlreadyRunning (ProxyPlan.endpointLabel runtime.requestedPlan)
        (ProxyPlan.endpointLabel plan)))
    | .stopped id => { service.goto i (.binding id plan) with state := .stopped processId, lock := some i }
  | .stop =>
    match service.state with
    | .stopped id => service.finish i (.ok (.stopped id))
    | .started runtime => { (service.signal runtime.task.worker).goto i (.joining runtime) with
        state := .stopped processId
        lock := some i }
  | .status => service.finish i (.ok service.status)

/-- The worker is spawned, and the call returns. -/
def spawnStarted (i id : Nat) (plan : Plan) (ingress : Ingress) : ProxyService Plan Ingress :=
  let runtime : StartedProxyRuntime Plan Ingress := ⟨id, plan, ⟨ingress, service.workers.length⟩⟩
  { service.finish i (.ok (startedStatus runtime)) with
    state := .started runtime
    workers := service.workers ++ [.new] }

/-- The join of a worker, which has to be over. -/
def joined (i : Nat) (runtime : StartedProxyRuntime Plan Ingress) (worker : ProxyWorker) : Option (ProxyService Plan Ingress) :=
  match worker.phase with
  | .returned => some { service.finish i (.ok (.stopped runtime.processId)) with state := .stopped runtime.processId }
  | .failed => some (service.finish i (.error (.task "stop proxy listener".toList)))
  | _ => none

def proceed (i : Nat) : CallPhase Plan Ingress → Outcome Ingress → Option (ProxyService Plan Ingress)
  | .locking operation, .ready => if service.lock = none then some (service.locked processId i operation) else none
  | .binding id plan, .bound ingress => some (service.spawnStarted i id plan ingress)
  | .binding _ _, .failed text => some (service.finish i (.error (.ingress text)))
  | .joining runtime, .ready => service.workers[runtime.task.worker]?.bind (service.joined i runtime)
  | _, _ => none

/-- The future of a call is dropped. The worker that it waits for goes on. -/
def cancel (i : Nat) : CallPhase Plan Ingress → Option (ProxyService Plan Ingress)
  | .locking _ => some (service.goto i .cancelled)
  | .binding _ _ | .joining _ => some { service.goto i .cancelled with lock := none }
  | _ => none

def step : Action Plan Ingress → Option (ProxyService Plan Ingress)
  | .call operation => some { service with calls := service.calls ++ [.locking operation] }
  | .proceed i outcome => do service.proceed processId i (← service.calls[i]?) outcome
  | .cancel i => do service.cancel i (← service.calls[i]?)
  | .worker w event => do
    let (worker, telemetry) ← (← service.workers[w]?).step service.telemetry event
    some { service with workers := service.workers.set w worker, telemetry }

end ProxyService
end Abyss.Broker.Proxy
