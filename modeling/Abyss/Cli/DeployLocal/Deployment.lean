import Abyss.Cli.DeployLocal.Process

/-! Start, rollback and stop of a local deployment. -/
namespace Abyss.Cli.DeployLocal
open Abyss.Text Abyss.System

section Files
variable (machine : Machine)

/-- `DeploymentState::load`. -/
def loadState : Op (Option DeploymentState) := do
  io machine (.filesystem "read local deployment file")
  match (← Fallible.get).state with
  | .absent => return none
  | .irregular => fail (.invalidConfiguration
      (lit "deployment state must be a regular non-symlink file: " ++ machine.paths.stateFile))
  | .malformed => fail .json
  | .contents state => match state.validate with
    | .ok state => return some state
    | .error error => fail error

def writeState (state : DeploymentState) : Op Unit := do
  io machine (.filesystem "create temporary local deployment file")
  match (← Fallible.get).state with
  | .irregular => fail (.invalidConfiguration
      (lit "deployment state must not be a symbolic link: " ++ machine.paths.stateFile))
  | _ => Fallible.modify fun w => { w with state := .contents state }

def validateProductConfigOwnership : Op Unit := do
  io machine (.filesystem "read local deployment file")
  match (← Fallible.get).productConfig with
  | .absent => return
  | .irregular => fail (.invalidConfiguration
      (lit "product configuration must be a regular non-symlink file: " ++ machine.paths.productConfigFile))
  | .malformed => fail .json
  | .contents value =>
    if ownedProductConfig value then return
    else fail (.invalidConfiguration
      (machine.paths.productConfigFile ++
        lit " belongs to another deployment; set ABYSS_HOME to a separate directory"))

def writeProductConfig (state : DeploymentState) : Op Unit := do
  io machine (.filesystem "create temporary local deployment file")
  match (← Fallible.get).productConfig with
  | .irregular => fail (.invalidConfiguration
      (lit "product configuration must not be a symbolic link: " ++ machine.paths.productConfigFile))
  | _ =>
    Fallible.modify fun w => { w with productConfig := .contents (productConfig state) }
    io machine (.filesystem "protect local deployment directory")

end Files

section Ports
variable (machine : Machine)

/-- Whether a listener can be bound to a port. -/
def canBind (port : UInt16) : Op Bool := fun w =>
  (.ok (!machine.faults w.clock && !w.taken port), w.tick)

/-- Ports that the operating system chooses, until one differs from the excluded port. -/
def ephemeralPort (excluded : Option UInt16) : Nat → Op UInt16
  | 0 => fail (.invalidConfiguration (lit "could not allocate distinct backend and dashboard ports"))
  | attempts + 1 => do
    let port := machine.ephemeral (← Fallible.get).clock
    io machine (.filesystem "allocate local deployment port")
    io machine (.filesystem "inspect local deployment port")
    if some port ≠ excluded then return port else ephemeralPort excluded attempts

def availablePort (preferred excluded : Option UInt16) : Op UInt16 := do
  match preferred with
  | some port =>
    if some port ≠ excluded then
      if ← canBind machine port then return port else ephemeralPort machine excluded 20
    else ephemeralPort machine excluded 20
  | none => ephemeralPort machine excluded 20

end Ports

section Services
variable (machine : Machine)

structure PortStart where
  port : UInt16
  started : Bool
  deriving DecidableEq, Repr

def backendCommand (port : UInt16) : ServiceCommand where
  program := machine.artifacts.backend
  arguments := []
  environment := [(lit "ABYSS_BACKEND_ADDR", lit "127.0.0.1:" ++ decimal port.toNat),
    (lit "ABYSS_BACKEND_ENV", lit "local"),
    (lit "ABYSS_BACKEND_DATABASE_URL", machine.paths.databaseFile),
    (lit "ABYSS_BACKEND_API_TOKEN_SHA256", machine.tokenSha256),
    (lit "ABYSS_BACKEND_RUN_MIGRATIONS", lit "true")]
  marker := machine.artifacts.backend

/-- The program of the dashboard, the arguments before its own, and its marker. -/
def DashboardArtifact.program : DashboardArtifact → Str × List Str × Str
  | .direct path => (path, [], path)
  | .nodeScript node script => (node, [script], script)

def dashboardCommand (port backendPort : UInt16) : ServiceCommand where
  program := machine.artifacts.dashboard.program.1
  arguments := machine.artifacts.dashboard.program.2.1 ++ [lit "--host", lit "127.0.0.1", lit "--port",
    decimal port.toNat, lit "--backend", loopbackUrl backendPort, lit "--token-file", machine.paths.tokenFile]
  environment := []
  marker := machine.artifacts.dashboard.program.2.2

/-- Reuse a running service, or launch it on an available port; `ensure_backend` and `ensure_dashboard`. -/
def ensureService (service : ManagedService) (command : UInt16 → ServiceCommand) (previousPort excluded : Option UInt16) :
    Op PortStart := do
  let launched : Op PortStart := do
    let port ← availablePort machine previousPort excluded
    let disposition ← service.start machine (command port) port
    return ⟨port, disposition.wasStarted⟩
  match previousPort with
  | none => launched
  | some port => match ← service.status machine port with
    | .running _ => return ⟨port, false⟩
    | .stopped => launched
    | unhealthy => fail (.invalidConfiguration (lit "local " ++ service.name ++ lit " is " ++ unhealthy.label ++
        lit "; run `abyss deploy-local stop` before retrying"))

def ensureBackend (previousPort : Option UInt16) : Op PortStart :=
  ensureService machine .backend (backendCommand machine) previousPort none

def ensureDashboard (backendPort : UInt16) (previousPort : Option UInt16) : Op PortStart :=
  ensureService machine .dashboard (dashboardCommand machine · backendPort) previousPort (some backendPort)

end Services

section Start
variable (machine : Machine)

structure StartedLocalServices where
  state : DeploymentState
  backendStarted : Bool
  dashboardStarted : Bool
  deriving DecidableEq, Repr

def ensureDirectories : Op Unit := io machine (.filesystem "create local deployment directory")

def acquireOperationLock : Op Unit := io machine (.filesystem "lock local deployment operation")

def stopServices : Op Unit := do
  let _ ← ManagedService.dashboard.stop machine
  let _ ← ManagedService.backend.stop machine
  return

/-- `LocalDeployment::start` up to the launch of the services: the state of a deployment that can be continued. -/
def prepare : Op (Option DeploymentState) := do
  ensureDirectories machine
  acquireOperationLock machine
  validateProductConfigOwnership machine
  io machine (.filesystem "prepare local deployment artifacts")
  io machine (.filesystem "prepare local deployment credentials")
  match ← loadState machine with
  | some state =>
    if state.usesCurrentArtifacts then return some state
    else
      stopServices machine
      return none
  | none =>
    stopServices machine
    return none

/-- `LocalDeployment::start` up to a ready backend. -/
def startBackend : Op (Option DeploymentState × PortStart) := do
  let previous ← prepare machine
  let backend ← ensureBackend machine (previous.map (·.backendPort))
  return (previous, backend)

def backendAddressChanged (previous : Option DeploymentState) (backend : PortStart) : Bool :=
  previous.any (fun state => decide (state.backendPort ≠ backend.port))

def stopLaunched (service : ManagedService) (started : Bool) : Op Unit :=
  Fallible.when started (Fallible.attempt (service.stop machine))

def start : Op StartedLocalServices := do
  let (previous, backend) ← startBackend machine
  -- an error of this stop is returned without a cleanup
  Fallible.when (backendAddressChanged previous backend) (do let _ ← ManagedService.dashboard.stop machine; return)
  let dashboard ← Fallible.onError
    (ensureDashboard machine backend.port (previous.map (·.dashboardPort)))
    (stopLaunched machine .backend backend.started)
  let state := DeploymentState.new backend.port dashboard.port
  Fallible.onError (do writeState machine state; writeProductConfig machine state)
    (do
      stopLaunched machine .dashboard dashboard.started
      stopLaunched machine .backend backend.started)
  return ⟨state, backend.started, dashboard.started⟩

def rollback (started : StartedLocalServices) : Op Unit := Fallible.attempt (do
  ensureDirectories machine
  acquireOperationLock machine
  stopLaunched machine .dashboard started.dashboardStarted
  stopLaunched machine .backend started.backendStarted)

/-- `LocalDeployment::stop` of a deployment whose directory exists. -/
def stop : Op Unit := do
  ensureDirectories machine
  acquireOperationLock machine
  stopServices machine

end Start
end Abyss.Cli.DeployLocal
