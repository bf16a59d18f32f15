import Mathlib.Data.List.Infix
import Abyss.System.Fallible
import Abyss.Text.Json

/-! Private files and generated configuration of a local deployment, and the lifecycle of its managed backend and dashboard
processes. -/
namespace Abyss.Cli.DeployLocal
open Abyss.Text Abyss.System

section Configuration
open Abyss.Text

inductive CliError where
  | filesystem (operation : String)
  | invalidConfiguration (details : Str)
  | json
  deriving DecidableEq, Repr

/-- The file at a path: none, something that is not a regular file, one that cannot be decoded, or its value. -/
inductive PrivateFile (α : Type) where
  | absent
  | irregular
  | malformed
  | contents (value : α)
  deriving DecidableEq, Repr

def backendVersion : Str := lit "2.0.1"

def dashboardPackage : Str := lit "@lexmount.com/abyss-dashboard@0.4.0"

def stateSchemaVersion : UInt32 := 1

def productPluginId : Str := lit "lexmount.abyss.local"

def decimal (n : Nat) : Str := Nat.toDigits 10 n

/-- `http://` and the socket address of a loopback port. -/
def loopbackUrl (port : UInt16) : Str := lit "http://127.0.0.1:" ++ decimal port.toNat

structure DeploymentState where
  schemaVersion : UInt32
  backendPort : UInt16
  dashboardPort : UInt16
  backendVersion : Str
  dashboardPackage : Str
  deriving DecidableEq, Repr

namespace DeploymentState

def new (backendPort dashboardPort : UInt16) : DeploymentState :=
  ⟨stateSchemaVersion, backendPort, dashboardPort, DeployLocal.backendVersion, DeployLocal.dashboardPackage⟩

/-- The checks on a state that was read. -/
def validate (state : DeploymentState) : Except CliError DeploymentState :=
  if state.schemaVersion ≠ stateSchemaVersion then
    .error (.invalidConfiguration (lit "unsupported local deployment schema_version " ++
      decimal state.schemaVersion.toNat ++ lit "; expected " ++ decimal stateSchemaVersion.toNat))
  else if state.backendPort = state.dashboardPort then
    .error (.invalidConfiguration (lit "local backend and dashboard ports must differ"))
  else .ok state

def usesCurrentArtifacts (state : DeploymentState) : Bool :=
  state.backendVersion = DeployLocal.backendVersion && state.dashboardPackage = DeployLocal.dashboardPackage

def backendUrl (state : DeploymentState) : Str := loopbackUrl state.backendPort

def dashboardUrl (state : DeploymentState) : Str := loopbackUrl state.dashboardPort

end DeploymentState

/-- The document that `write_product_config` writes. -/
def productConfig (state : DeploymentState) : Json :=
  .obj [
    (lit "schema_version", .num (.posInt 1)),
    (lit "product", .obj [
      (lit "kind", .str (lit "cli")),
      (lit "dashboard", .obj [(lit "url", .str state.dashboardUrl)])]),
    (lit "delivery_worker", .obj [
      (lit "plugin_id", .str productPluginId),
      (lit "delivery", .obj [
        (lit "endpoint", .str (state.backendUrl ++ lit "/v1/agent-usage/events")),
        (lit "spool_enabled", .bool true),
        (lit "spool_path", .str (lit "local/delivery/failed-events.jsonl"))]),
      (lit "authentication", .obj [
        (lit "mode", .str (lit "authorization_header_file")),
        (lit "path", .str (lit "local/backend.authorization"))])])]

/-- Whether a product configuration was written by a local deployment. -/
def ownedProductConfig (value : Json) : Bool :=
  (((value.get "delivery_worker").bind (·.get "plugin_id")).bind Json.asStr) = some productPluginId

end Configuration

section World

inductive ManagedService where
  | backend
  | dashboard
  deriving DecidableEq, Repr

namespace ManagedService

def name : ManagedService → Str
  | .backend => lit "backend"
  | .dashboard => lit "dashboard"

/-- The URL of the readiness path on a loopback port. -/
def healthUrl : ManagedService → UInt16 → Str
  | .backend, port => loopbackUrl port ++ lit "/readyz"
  | .dashboard, port => loopbackUrl port ++ lit "/healthz"

end ManagedService

structure ProcessRecord where
  pid : UInt32
  marker : Str
  deriving DecidableEq, Repr

/-- A running process: its command line, the service whose locked lifetime file is its standard input, the loopback
port that it listens on, the readiness paths that it answers with success, whether `SIGTERM` ends it in time, and
whether the call at hand has launched it. -/
structure Process where
  pid : UInt32
  commandLine : List Str
  service : Option ManagedService
  port : Option UInt16
  answers : List ManagedService
  terminates : Bool
  launched : Bool
  deriving DecidableEq, Repr

/-- What `ps` prints for a process. -/
def Process.shown (process : Process) : Str := join (lit " ") process.commandLine

inductive Signal where
  | term
  | kill
  deriving DecidableEq, Repr

/-- A signal that was sent, with the marker that identifies its target and what `ps` shows of the target. -/
structure SentSignal where
  pid : UInt32
  signal : Signal
  marker : Str
  shown : Option Str
  deriving DecidableEq, Repr

/-- The processes of the machine and the files of a deployment. The last three fields record the past: the signals that
were sent, the number of operations, and the number of the first one that has failed. -/
structure World where
  processes : List Process
  lockFile : ManagedService → Bool
  pidFile : ManagedService → PrivateFile ProcessRecord
  state : PrivateFile DeploymentState
  productConfig : PrivateFile Json
  signals : List SentSignal
  clock : Nat
  failedAt : Option Nat

/-- What a launched process does: whether it listens on its port and answers there, whether `SIGTERM` ends it in time, and
the exit status if it ends before it is ready. -/
structure Launch where
  pid : UInt32
  listens : Bool
  terminates : Bool
  exit : Option Str
  deriving DecidableEq, Repr

inductive DashboardArtifact where
  | direct (path : Str)
  | nodeScript (node script : Str)
  deriving DecidableEq, Repr

structure RuntimeArtifacts where
  backend : Str
  dashboard : DashboardArtifact
  deriving DecidableEq, Repr

/-- The paths of a deployment that commands and errors mention. -/
structure LocalPaths where
  databaseFile : Str
  tokenFile : Str
  stateFile : Str
  productConfigFile : Str
  pidFile : ManagedService → Str
  logFile : ManagedService → Str

/-- The machine: which operations fail, by their number, what launched processes do, the ports and the error texts of the
operating system, and the artifacts and the token digest that a deployment finds. -/
structure Machine where
  faults : Nat → Bool
  launch : Nat → Launch
  ephemeral : Nat → UInt16
  errorText : Str
  artifacts : RuntimeArtifacts
  tokenSha256 : Str
  paths : LocalPaths

abbrev Op := Fallible World CliError

namespace World
variable (w : World)

/-- The lifetime lock of a service is held. -/
def held (service : ManagedService) : Bool := w.processes.any (fun p => p.service = some service)

/-- Another program or service listens on a port. -/
def taken (port : UInt16) : Bool := w.processes.any (fun p => p.port = some port)

/-- `http_ready` on the readiness path of a service. -/
def httpReady (service : ManagedService) (port : UInt16) : Bool :=
  w.processes.any (fun p => decide (p.port = some port) && decide (service ∈ p.answers))

def process (pid : UInt32) : Option Process := w.processes.find? (fun p => p.pid = pid)

/-- `process_matches`: what `ps` shows of the recorded process contains the marker. -/
def matchesRecord (record : ProcessRecord) : Bool :=
  (w.process record.pid).any (fun p => decide (record.marker <:+: p.shown))

def tick : World := { w with clock := w.clock + 1 }

def setPidFile (service : ManagedService) (file : PrivateFile ProcessRecord) : World :=
  { w with pidFile := Function.update w.pidFile service file }

/-- The first failure is remembered. -/
def failNow : World := { w.tick with failedAt := w.failedAt <|> some w.clock }

/-- The effect of a signal on the processes. -/
def deliver (pid : UInt32) : Signal → List Process
  | .term => w.processes.filter (fun p => !(decide (p.pid = pid) && p.terminates))
  | .kill => w.processes.filter (fun p => decide (p.pid ≠ pid))

def send (pid : UInt32) (signal : Signal) (marker : Str) : World :=
  { w with
    processes := w.deliver pid signal
    signals := w.signals ++ [⟨pid, signal, marker, (w.process pid).map Process.shown⟩] }

end World
end World

section Steps
variable (machine : Machine)

def fail {α : Type} (error : CliError) : Op α := fun w => (.error error, w.failNow)

/-- One operation that the machine may let fail. -/
def io (error : CliError) : Op Unit := fun w =>
  if machine.faults w.clock then fail error w else (.ok (), w.tick)

/-- An operation whose failure is ignored. -/
def ignored (effect : World → World) : Op Unit := fun w =>
  (.ok (), if machine.faults w.clock then w.tick else effect w.tick)

def openLockFile (service : ManagedService) : Op Unit := do
  io machine (.filesystem "open local deployment lock")
  Fallible.modify fun w => { w with lockFile := Function.update w.lockFile service true }

/-- Whether the lock was free. -/
def tryLock (service : ManagedService) (operation : String) : Op Bool := do
  io machine (.filesystem operation)
  return !(← Fallible.get).held service

def removePidFile (service : ManagedService) : Op Unit := ignored machine fun w => w.setPidFile service .absent

def readProcessRecord (service : ManagedService) : Op (Option ProcessRecord) := do
  io machine (.filesystem "read local process record")
  match (← Fallible.get).pidFile service with
  | .absent => return none
  | .irregular => fail (.invalidConfiguration
      (lit "local process record must be a regular non-symlink file: " ++ machine.paths.pidFile service))
  | .malformed => fail .json
  | .contents record => return some record

def writeProcessRecord (service : ManagedService) (record : ProcessRecord) : Op Unit := do
  io machine (.filesystem "create temporary local deployment file")
  match (← Fallible.get).pidFile service with
  | .irregular => fail (.invalidConfiguration
      (lit "local process record must not be a symbolic link: " ++ machine.paths.pidFile service))
  | _ => Fallible.modify fun w => w.setPidFile service (.contents record)

def processMatches (record : ProcessRecord) : Op Bool := do
  io machine (.filesystem "inspect local managed process")
  return (← Fallible.get).matchesRecord record

def requireProcessMatch (record : ProcessRecord) (service : ManagedService) : Op Unit := do
  if ← processMatches machine record then return
  else fail (.invalidConfiguration (lit "refusing to signal " ++ service.name ++ lit " process " ++
    decimal record.pid.toNat ++ lit " because its identity no longer matches " ++ record.marker))

def Signal.text : Signal → Str
  | .term => lit "SIGTERM"
  | .kill => lit "SIGKILL"

/-- `signal_process`; process IDs of the system are positive 32-bit integers. -/
def signalProcess (record : ProcessRecord) (signal : Signal) (service : ManagedService) : Op Unit := do
  if 2 ^ 31 ≤ record.pid.toNat then
    fail (.invalidConfiguration (service.name ++ lit " process ID is outside the supported range"))
  else
    io machine (.invalidConfiguration (lit "failed to send " ++ signal.text ++ lit " to " ++ service.name ++
      lit " process " ++ decimal record.pid.toNat ++ lit ": " ++ machine.errorText))
    Fallible.modify fun w => w.send record.pid signal record.marker

/-- Whether the lock was given up before the timeout. -/
def waitForUnlock (service : ManagedService) : Op Bool :=
  tryLock machine service "wait for local service lifetime"

end Steps

section Service
variable (machine : Machine) (service : ManagedService)

structure ServiceCommand where
  program : Str
  arguments : List Str
  environment : List (Str × Str)
  marker : Str
  deriving DecidableEq, Repr

inductive ServiceStatus where
  | running (pid : UInt32)
  | stopped
  | unhealthy (pid : Option UInt32) (reason : Str)
  deriving DecidableEq, Repr

inductive StartDisposition where
  | existing
  | started
  deriving DecidableEq, Repr

def ServiceStatus.label : ServiceStatus → Str
  | .running pid => lit "running (pid " ++ decimal pid.toNat ++ lit ")"
  | .stopped => lit "stopped"
  | .unhealthy none reason => lit "unhealthy (" ++ reason ++ lit ")"
  | .unhealthy (some pid) reason =>
    lit "unhealthy (pid " ++ decimal pid.toNat ++ lit ", " ++ reason ++ lit ")"

def StartDisposition.wasStarted : StartDisposition → Bool
  | .existing => false
  | .started => true

/-- The status of a service whose lifetime lock is held. -/
def heldStatus (port : UInt16) : Op ServiceStatus := do
  match ← readProcessRecord machine service with
  | none => return .unhealthy none (service.name ++ lit " process record is missing")
  | some record =>
    if ← processMatches machine record then
      if (← Fallible.get).httpReady service port then return .running record.pid
      else return .unhealthy (some record.pid) (lit "health check failed at " ++ service.healthUrl port)
    else return .unhealthy (some record.pid) (lit "process identity does not match its ownership record")

def ManagedService.status (port : UInt16) : Op ServiceStatus := do
  if (← Fallible.get).lockFile service then
    openLockFile machine service
    if ← tryLock machine service "inspect local service lifetime" then
      io machine (.filesystem "unlock stopped local service")
      removePidFile machine service
      return .stopped
    else heldStatus machine service port
  else return .stopped

/-- A process of the system gets an unused ID, and it cannot listen on a port that is taken. -/
def World.spawned (w : World) (launch : Launch) (command : ServiceCommand) (port : UInt16) : Process :=
  let ready := launch.listens && !w.taken port && decide (port ≠ 0)
  ⟨launch.pid, command.program :: command.arguments, some service, if ready then some port else none,
    if ready then [service] else [], launch.terminates, true⟩

def World.unusedPid (w : World) (pid : UInt32) : Bool :=
  decide (0 < pid.toNat) && decide (pid.toNat < 2 ^ 31) && w.processes.all (fun p => decide (p.pid ≠ pid))

/-- `Command::spawn`, with the locked lifetime file as standard input. -/
def spawn (command : ServiceCommand) (port : UInt16) : Op Launch := do
  let launch := machine.launch (← Fallible.get).clock
  io machine (.filesystem "start local managed service")
  if (← Fallible.get).unusedPid launch.pid then
    Fallible.modify fun w => { w with processes := w.processes ++ [w.spawned service launch command port] }
    return launch
  else fail (.filesystem "start local managed service")

/-- `terminate_child`: the child is killed and waited for. -/
def terminateChild (pid : UInt32) (marker : Str) : Op Unit := Fallible.modify fun w => w.send pid .kill marker

def waitUntilReady (launch : Launch) (port : UInt16) : Op Unit := do
  io machine (.filesystem "poll local managed service")
  if (← Fallible.get).httpReady service port then return
  else match launch.exit with
    | some status => fail (.invalidConfiguration (service.name ++ lit " exited before becoming ready with " ++ status ++
        lit "; see " ++ machine.paths.logFile service))
    | none => fail (.invalidConfiguration (service.name ++ lit " did not become ready at " ++ service.healthUrl port ++
        lit "; see " ++ machine.paths.logFile service))

/-- `ManagedService::start` once the lifetime lock is taken. -/
def launchService (command : ServiceCommand) (port : UInt16) : Op StartDisposition := do
  removePidFile machine service
  io machine (.filesystem "open local service log")
  let launch ← spawn machine service command port
  Fallible.onError (writeProcessRecord machine service ⟨launch.pid, command.marker⟩)
    (terminateChild launch.pid command.marker)
  Fallible.onError (waitUntilReady machine service launch port)
    (do terminateChild launch.pid command.marker; removePidFile machine service)
  return .started

def ManagedService.start (command : ServiceCommand) (port : UInt16) : Op StartDisposition := do
  openLockFile machine service
  if ← tryLock machine service "lock local service lifetime" then launchService machine service command port
  else match ← service.status machine port with
    | .running _ => return .existing
    | .stopped => fail (.invalidConfiguration (service.name ++ lit " lifetime ownership disappeared during startup"))
    | .unhealthy _ reason => fail (.invalidConfiguration
        (service.name ++ lit " process is owned but unhealthy: " ++ reason))

/-- `ManagedService::stop` of a recorded process. -/
def stopRecorded (record : ProcessRecord) : Op Bool := do
  requireProcessMatch machine record service
  signalProcess machine record .term service
  if ← waitForUnlock machine service then
    removePidFile machine service
    return true
  else
    requireProcessMatch machine record service
    signalProcess machine record .kill service
    if ← waitForUnlock machine service then
      removePidFile machine service
      return true
    else fail (.invalidConfiguration (service.name ++ lit " process " ++ decimal record.pid.toNat ++
      lit " did not stop after SIGKILL"))

def ManagedService.stop : Op Bool := do
  if (← Fallible.get).lockFile service then
    openLockFile machine service
    if ← tryLock machine service "inspect local service lifetime" then
      io machine (.filesystem "unlock stopped local service")
      removePidFile machine service
      return false
    else match ← readProcessRecord machine service with
      | none => fail (.invalidConfiguration
          (lit "refusing to stop owned " ++ service.name ++ lit " process without an identity record"))
      | some record => stopRecorded machine service record
  else
    removePidFile machine service
    return false

end Service

end Abyss.Cli.DeployLocal
