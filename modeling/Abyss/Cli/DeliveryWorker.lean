import Abyss.System.Machine
import Abyss.Text.Scalar

/-! The launcher of the delivery worker and the workers that it launches: two lock files and a readiness record. -/
namespace Abyss.Cli
open Abyss.Text

section Records

/-- A process that can hold a locked handle: a command that ensures the worker, or a worker. -/
inductive Process where
  | launcher (i : Nat)
  | worker (j : Nat)
  deriving DecidableEq, Repr

/-- The readiness record. The last field records the past: the worker that has published it. -/
structure WorkerStartupInfo where
  workerPid : UInt32
  brokerPid : UInt32
  controlEndpoint : Str
  controlTokenFile : Str
  publisher : Option Nat
  deriving DecidableEq, Repr

inductive CliError where
  | filesystem (operation : String)
  | invalidConfiguration (details : Str)
  deriving DecidableEq, Repr

/-- Fixed paths of an Abyss home, and `Url::parse` as the scheme and the host of a URL. -/
structure CliPaths where
  controlTokenFile : Str
  log : Str
  parseUrl : Str → Option (Str × Option Str)

structure DeliveryConnection where
  endpoint : Str
  authorization : Str
  deriving DecidableEq, Repr

/-- `DeliveryConnection::from_startup_info`; `token` is what reading the token file gives. -/
def DeliveryConnection.fromStartupInfo (paths : CliPaths) (info : WorkerStartupInfo) (token : Option Str) :
    Except CliError DeliveryConnection :=
  if info.controlTokenFile ≠ paths.controlTokenFile then
    .error (.invalidConfiguration
      ("delivery worker advertised an unexpected control token path: ".toList ++ info.controlTokenFile))
  else match paths.parseUrl info.controlEndpoint with
    | none => .error (.invalidConfiguration "delivery worker advertised an invalid control endpoint".toList)
    | some (scheme, host) =>
      if scheme ≠ "http".toList ∨ host ≠ some "127.0.0.1".toList then
        .error (.invalidConfiguration "delivery worker control endpoint must use IPv4 loopback HTTP".toList)
      else match token with
        | none => .error (.filesystem "read delivery worker control token")
        | some token =>
          if trim token = [] then .error (.invalidConfiguration "delivery worker control token is empty".toList)
          else .ok ⟨info.controlEndpoint, "Bearer ".toList ++ trim token⟩

end Records

section Phases

/-- Where a call of `ensure_running` is. What it remembers as `probed` and `atRead` records the past: who had the lifetime
lock open when the call found it locked or passed it on, and when it read the record. -/
inductive CallPhase where
  | idle
  | startLock (broker : UInt32)
  | probe (broker : UInt32)
  | readRecord (broker : UInt32) (probed : List Process)
  | removeStale (broker : UInt32)
  | spawn (broker : UInt32)
  | readOwn (broker : UInt32) (child : Nat)
  | tryWait (broker : UInt32) (child : Nat)
  | kill (child : Nat) (error : CliError)
  | reap (child : Nat) (error : CliError)
  | removeFailed (error : CliError)
  | connect (broker : UInt32) (info : WorkerStartupInfo) (probed atRead : List Process)
  deriving DecidableEq, Repr

/-- Where a worker is; `exiting` is behind its readiness guard. -/
inductive WorkerPhase where
  | starting
  | ready
  | removing
  | exiting
  | dead
  deriving DecidableEq, Repr

structure Worker where
  pid : UInt32
  broker : UInt32
  phase : WorkerPhase
  deriving DecidableEq, Repr

/-- A call that returns `Ok`, and what it has seen. -/
structure Ready where
  broker : UInt32
  info : WorkerStartupInfo
  probed : List Process
  atRead : List Process
  connection : DeliveryConnection
  deriving DecidableEq, Repr

/-- The processes, the locks and the record. A lock is a list of the processes that have its locked handle open. -/
structure WorkerSystem where
  calls : List CallPhase
  workers : List Worker
  start : Option Nat
  lifetime : List Process
  record : Option WorkerStartupInfo
  returned : List (Except CliError Ready)

/-- What the next operation of a process does; `expired` is a success behind which the time of the loop is over. -/
inductive Outcome where
  | start (broker : UInt32)
  | ok
  | fail
  | expired
  | spawned (pid : UInt32)
  | token (token : Option Str)
  | publish (endpoint : Str)
  | publishUnprotected (endpoint : Str)
  | exit
  | killed
  deriving DecidableEq, Repr

structure Action where
  process : Process
  outcome : Outcome
  deriving DecidableEq, Repr

end Phases

namespace WorkerSystem
variable (paths : CliPaths) (s : WorkerSystem)

section Launcher
variable (i : Nat)

def goto (phase : CallPhase) : WorkerSystem := { s with calls := s.calls.set i phase }

/-- The handles of a call are closed, and the start lock is given up. -/
def close : WorkerSystem :=
  { s with
    calls := s.calls.set i .idle
    start := if s.start = some i then none else s.start
    lifetime := s.lifetime.filter (· ≠ .launcher i) }

def finish (result : Except CliError Ready) : WorkerSystem :=
  { s.close i with returned := s.returned ++ [result] }

def fail (error : CliError) : WorkerSystem := s.finish i (.error error)

/-- `WorkerStartLock::acquire`, one attempt. -/
def acquireStart (broker : UInt32) (expired : Bool) : WorkerSystem :=
  if s.start = none then { s.goto i (.probe broker) with start := some i }
  else if expired then s.fail i (.invalidConfiguration
    "another Abyss CLI command did not finish delivery worker startup before the timeout".toList)
  else s

/-- `WorkerLifetimeLock::try_acquire`. -/
def tryAcquireLifetime (broker : UInt32) : WorkerSystem :=
  if s.lifetime = [] then { s.goto i (.removeStale broker) with lifetime := [.launcher i] }
  else s.goto i (.readRecord broker s.lifetime)

/-- The loop goes on with the next attempt, unless its time is over. -/
def again (broker : UInt32) (expired : Bool) : WorkerSystem :=
  if expired then s.fail i (.invalidConfiguration
    ("the delivery worker for the previous broker did not exit before starting broker process ".toList ++
      Nat.toDigits 10 broker.toNat))
  else s.goto i (.probe broker)

/-- The record of a worker that somebody else has launched. -/
def readRecord (broker : UInt32) (probed : List Process) (expired : Bool) : WorkerSystem :=
  match s.record with
  | some info =>
    if info.brokerPid = broker ∧ info.workerPid ≠ 0 then s.goto i (.connect broker info probed s.lifetime)
    else s.again i broker expired
  | none => s.again i broker expired

/-- The record of the child, in `wait_until_ready`. -/
def readOwn (broker : UInt32) (child : Nat) : WorkerSystem :=
  match s.record with
  | some info =>
    if some info.workerPid = s.workers[child]?.map (·.pid) ∧ info.brokerPid = broker then
      s.goto i (.connect broker info [.worker child] s.lifetime)
    else s.goto i (.tryWait broker child)
  | none => s.goto i (.tryWait broker child)

/-- The child was waited for. -/
def Dead (child : Nat) : Prop := ∃ worker : Worker, s.workers[child]? = some worker ∧ worker.phase = .dead

instance (child : Nat) : Decidable (s.Dead child) :=
  match h : s.workers[child]? with
  | none => isFalse (by rintro ⟨worker, hworker, -⟩; rw [h] at hworker; cases hworker)
  | some worker =>
    if hdead : worker.phase = .dead then isTrue ⟨worker, h, hdead⟩
    else isFalse (by
      rintro ⟨other, hother, hphase⟩
      obtain rfl := Option.some.inj (h.symm.trans hother)
      exact hdead hphase)

def exitedDetails : Str := "abyss-delivery-plugin exited before connecting to the broker; see ".toList ++ paths.log

def timeoutDetails : Str :=
  "abyss-delivery-plugin did not connect to the broker before the timeout; see ".toList ++ paths.log

/-- `ensure_running_with_executable`, one operation. -/
def callStep : CallPhase → Outcome → Option WorkerSystem
  | .idle, .start broker => some (s.goto i (.startLock broker))
  | .idle, _ => none
  | _, .killed => some (s.close i)
  | .startLock broker, .ok => some (s.acquireStart i broker false)
  | .startLock broker, .expired => some (s.acquireStart i broker true)
  | .startLock _, .fail => some (s.fail i (.filesystem "lock delivery worker start lock"))
  | .probe broker, .ok => some (s.tryAcquireLifetime i broker)
  | .probe _, .fail => some (s.fail i (.filesystem "lock delivery worker lifetime lock"))
  | .readRecord broker probed, .ok => some (s.readRecord i broker probed false)
  | .readRecord broker probed, .expired => some (s.readRecord i broker probed true)
  | .readRecord _ _, .fail => some (s.fail i (.filesystem "read delivery worker startup info"))
  | .removeStale broker, .ok => some { s.goto i (.spawn broker) with record := none }
  | .removeStale _, .fail => some (s.fail i (.filesystem "remove stale delivery worker startup info"))
  -- the child inherits the locked handle as its standard input
  | .spawn broker, .spawned pid =>
    some { s.goto i (.readOwn broker s.workers.length) with
      workers := s.workers ++ [⟨pid, broker, .starting⟩]
      lifetime := s.lifetime ++ [.worker s.workers.length] }
  | .spawn _, .fail => some (s.fail i (.filesystem "start abyss-delivery-plugin"))
  | .readOwn broker child, .ok => some (s.readOwn i broker child)
  | .readOwn _ child, .expired => some (s.goto i (.kill child (.invalidConfiguration (timeoutDetails paths))))
  | .readOwn _ child, .fail => some (s.goto i (.kill child (.filesystem "read delivery worker startup info")))
  | .tryWait broker child, .ok =>
    some (s.goto i (if s.Dead child then .removeFailed (.invalidConfiguration (exitedDetails paths)) else .readOwn broker child))
  | .tryWait _ _, .fail => some (s.fail i (.filesystem "poll abyss-delivery-plugin startup"))
  | .kill child error, .ok => some (s.goto i (.reap child error))
  | .kill _ _, .fail => some (s.fail i (.filesystem "terminate failed abyss-delivery-plugin startup"))
  | .reap child error, .ok => if s.Dead child then some (s.goto i (.removeFailed error)) else none
  | .reap _ _, .fail => some (s.fail i (.filesystem "reap failed abyss-delivery-plugin startup"))
  | .removeFailed error, .ok => some { s.fail i error with record := none }
  | .removeFailed _, .fail => some (s.fail i (.filesystem "remove stale delivery worker startup info"))
  | .connect broker info probed atRead, .token token =>
    some (s.finish i ((DeliveryConnection.fromStartupInfo paths info token).map (⟨broker, info, probed, atRead, ·⟩)))
  | _, _ => none

end Launcher

section Worker
variable (j : Nat) (worker : Worker)

def enter (phase : WorkerPhase) : WorkerSystem := { s with workers := s.workers.set j { worker with phase } }

/-- The process ends, and its handles are closed. -/
def die : WorkerSystem := { s.enter j worker .dead with lifetime := s.lifetime.filter (· ≠ .worker j) }

/-- The record of a worker for the broker that its launcher has named. -/
def published (endpoint : Str) : WorkerStartupInfo :=
  ⟨worker.pid, worker.broker, endpoint, paths.controlTokenFile, some j⟩

/-- A worker, one operation: `publish`, and the drop of the guard. -/
def workerStep : WorkerPhase → Outcome → Option WorkerSystem
  | .dead, _ => none
  | _, .killed => some (s.die j worker)
  | .starting, .publish endpoint => some { s.enter j worker .ready with record := some (published paths j worker endpoint) }
  -- the record is in place, and setting its mode fails
  | .starting, .publishUnprotected endpoint =>
    some { s.enter j worker .exiting with record := some (published paths j worker endpoint) }
  | .starting, .exit => some (s.enter j worker .exiting)
  | .ready, .exit =>
    match s.record with
    | some info =>
      if info.workerPid = worker.pid ∧ info.brokerPid = worker.broker then some (s.enter j worker .removing)
      else some (s.enter j worker .exiting)
    | none => some (s.enter j worker .exiting)
  | .ready, .fail => some (s.enter j worker .exiting)
  | .removing, .ok => some { s.enter j worker .exiting with record := none }
  | .removing, .fail => some (s.enter j worker .exiting)
  | .exiting, .ok => some (s.die j worker)
  | _, _ => none

end Worker

def step (action : Action) : Option WorkerSystem :=
  match action.process with
  | .launcher i => s.calls[i]?.bind fun phase => s.callStep paths i phase action.outcome
  | .worker j => s.workers[j]?.bind fun worker => s.workerStep paths j worker worker.phase action.outcome

/-- No call has begun; a record may be left from before. -/
def initial (calls : Nat) (stale : Option WorkerStartupInfo) : WorkerSystem :=
  ⟨List.replicate calls .idle, [], none, [], stale.map ({ · with publisher := none }), []⟩

end WorkerSystem
end Abyss.Cli
