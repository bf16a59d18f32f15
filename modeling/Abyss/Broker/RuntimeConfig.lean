import Abyss.Mitm.Tls.DecryptPolicy
import Abyss.System.Machine

/-! Runtime policy of the broker: one snapshot of the MITM, hooks and network sections,
updated by transactions that write a file and then publish the live configuration. -/
namespace Abyss.Broker
open Abyss.Text Abyss.Mitm Abyss.Mitm.Http Abyss.Mitm.Explicit Abyss.Mitm.Tls

inductive UpstreamProxyProtocol where
  | httpConnect
  deriving DecidableEq, Repr

/-- Next-hop settings. -/
structure UpstreamProxyConfig where
  protocol : UpstreamProxyProtocol
  endpoint : Str
  connectTimeoutMs : Nat
  handshakeTimeoutMs : Nat
  deriving DecidableEq, Repr

/-- `TargetAuthority::parse` behind the checks of an endpoint. -/
def UpstreamProxyConfig.target (types : HttpTypes) (config : UpstreamProxyConfig) : Except String TargetAuthority :=
  match stripFront "http://".toList config.endpoint with
  | none => .error "endpoint must use http://; proxy TLS is not supported"
  | some endpoint =>
    let authority := (stripBack ['/'] endpoint).getD endpoint
    if authority.any (fun c => c == '/' || c == '?' || c == '#' || c == '@') then
      .error "endpoint must not contain credentials, paths, queries, or fragments"
    else match parseTargetAuthority types authority none with
      | .error _ => .error "endpoint must contain a valid host and explicit nonzero port"
      | .ok target => .ok target

def UpstreamProxyConfig.validate (types : HttpTypes) (config : UpstreamProxyConfig) : Except String Unit := do
  let _ ← config.target types
  if [config.connectTimeoutMs, config.handshakeTimeoutMs].any (fun timeout => timeout < 1 || 120000 < timeout) then
    .error "timeouts must be in 1..=120000 ms"
  else .ok ()

/-- A validated next hop. -/
structure HttpConnectProxy where
  endpoint : TargetAuthority
  connectTimeoutMs : Nat
  handshakeTimeoutMs : Nat
  deriving DecidableEq, Repr

def HttpConnectProxy.new (types : HttpTypes) (config : UpstreamProxyConfig) : Except String HttpConnectProxy := do
  config.validate types
  let endpoint ← config.target types
  return ⟨endpoint, config.connectTimeoutMs, config.handshakeTimeoutMs⟩

/-- Outbound route; no upstream means direct routing. -/
structure NetworkConfig where
  upstream : Option UpstreamProxyConfig
  deriving DecidableEq, Repr

structure NetworkSnapshot where
  config : NetworkConfig
  proxy : Option HttpConnectProxy
  deriving DecidableEq, Repr

/-- `NetworkRuntime::validate`. -/
def NetworkConfig.snapshot (types : HttpTypes) (config : NetworkConfig) : Except String NetworkSnapshot :=
  match config.upstream with
  | none => .ok ⟨config, none⟩
  | some upstream => (HttpConnectProxy.new types upstream).map (fun proxy => ⟨config, some proxy⟩)

structure MitmConfig where
  tlsDecryption : TlsDecryptionPolicy
  deriving DecidableEq, Repr

/-- Durable snapshot of the three sections; no network section inherits the startup route. -/
structure RuntimePolicies (H : Type) where
  mitm : MitmConfig
  hooks : H
  network : Option NetworkConfig

/-- `RUNTIME_POLICY_SCHEMA_VERSION`. -/
def runtimePolicySchemaVersion : Nat := 1

structure RuntimePolicyFile (H : Type) where
  schemaVersion : Nat
  policies : RuntimePolicies H

/-- The `toml` crate at the type of the policy file. -/
structure PolicyToml (H : Type) where
  toStringPretty : RuntimePolicyFile H → Option Str
  fromStr : Str → Option (RuntimePolicyFile H)

/-- A written file reads back; the newline behind it is whitespace. -/
def PolicyToml.RoundTrips {H : Type} (toml : PolicyToml H) : Prop :=
  ∀ file text, toml.toStringPretty file = some text → toml.fromStr (text ++ ['\n']) = some file

inductive RuntimePolicyError where
  | network (reason : String)
  | toml
  | unsupportedSchema (actual : Nat)
  | mitm (source : TlsDecryptionPolicyError)
  | persist (operation : String)
  | serialize
  deriving DecidableEq, Repr

inductive BrokerError where
  | invalidMitm (source : TlsDecryptionPolicyError)
  | invalidNetwork (reason : String)
  | runtimePolicy (source : RuntimePolicyError)
  deriving DecidableEq, Repr

/-- The operations of `persist` up to the rename, by the texts of their errors. -/
inductive PersistStep where
  | createParent | secureParent | openParent | createTemporary | writeTemporary | syncTemporary
  | syncTemporaryParent | install
  deriving DecidableEq, Repr

def PersistStep.operation : PersistStep → String
  | .createParent => "create parent directory for"
  | .secureParent => "secure parent directory for"
  | .openParent => "open parent directory for syncing"
  | .createTemporary => "create temporary"
  | .writeTemporary => "write temporary"
  | .syncTemporary => "sync temporary"
  | .syncTemporaryParent => "sync temporary parent directory for"
  | .install => "install"

/-- Steps inside `write_and_replace`, whose failure removes the temporary file. -/
def PersistStep.replaces : PersistStep → Bool
  | .createParent | .secureParent => false
  | _ => true

inductive Os where
  | linux | macos | windows
  deriving DecidableEq, Repr

def persistSteps : Os → List PersistStep
  | .linux => [.createParent, .secureParent, .openParent, .createTemporary, .writeTemporary, .syncTemporary,
      .syncTemporaryParent, .install]
  | .macos => [.createParent, .openParent, .createTemporary, .writeTemporary, .syncTemporary, .syncTemporaryParent,
      .install]
  | .windows => [.createParent, .createTemporary, .writeTemporary, .syncTemporary, .install]

/-- What the broker is built for and with. -/
structure Build (H : Type) where
  os : Os
  platform : Platform
  types : HttpTypes
  toml : PolicyToml H

section Policies
variable {H : Type} (build : Build H)

/-- `RuntimePolicies::load` on an existing file. -/
def RuntimePolicies.load (contents : Str) : Except RuntimePolicyError (RuntimePolicies H) :=
  match build.toml.fromStr contents with
  | none => .error .toml
  | some file =>
    if file.schemaVersion ≠ runtimePolicySchemaVersion then .error (.unsupportedSchema file.schemaVersion)
    else match file.policies.mitm.tlsDecryption.validate build.platform with
      | .error source => .error (.mitm source)
      | .ok () =>
        match (file.policies.network.bind NetworkConfig.upstream).map (UpstreamProxyConfig.validate build.types) with
        | some (.error reason) => .error (.network reason)
        | _ => .ok file.policies

/-- The text that `persist` writes for a snapshot. -/
def RuntimePolicies.render (policies : RuntimePolicies H) : Option Str :=
  (build.toml.toStringPretty ⟨runtimePolicySchemaVersion, policies⟩).map (· ++ ['\n'])

/-- One call of the service. -/
inductive Update (H : Type) where
  | mitm (config : MitmConfig)
  | hooks (config : H)
  | network (config : NetworkConfig)

/-- The candidate snapshot of an update. -/
def Update.applyTo (policies : RuntimePolicies H) : Update H → RuntimePolicies H
  | .mitm config => { policies with mitm := config }
  | .hooks config => { policies with hooks := config }
  | .network config => { policies with network := some config }

/-- The live cells that flows and hooks read. -/
structure Live where
  mitm : ValidatedTlsDecryptionPolicy build.platform
  hooks : H
  network : NetworkSnapshot

/-- A validated section, ready for infallible publication. -/
inductive Publication where
  | mitm (policy : ValidatedTlsDecryptionPolicy build.platform)
  | hooks (config : H)
  | network (snapshot : NetworkSnapshot)

variable {build} in
def Live.publish (live : Live build) : Publication build → Live build
  | .mitm policy => { live with mitm := policy }
  | .hooks config => { live with hooks := config }
  | .network snapshot => { live with network := snapshot }

/-- The checks in front of a transaction. -/
def Update.prepare : Update H → Except BrokerError (Publication build)
  | .mitm config =>
    match ValidatedTlsDecryptionPolicy.new build.platform config.tlsDecryption with
    | .error source => .error (.invalidMitm source)
    | .ok policy => .ok (.mitm policy)
  | .hooks config => .ok (.hooks config)
  | .network config =>
    match config.snapshot build.types with
    | .error reason => .error (.invalidNetwork reason)
    | .ok snapshot => .ok (.network snapshot)

end Policies

section Service
variable {H : Type} (build : Build H)

inductive Phase where
  | persisting (remaining : List PersistStep)
  | cleaning (error : RuntimePolicyError)
  | installed
  | published
  deriving DecidableEq, Repr

/-- A spawned transaction; it owns the lock until it ends. -/
structure Transaction where
  caller : Nat
  update : Update H
  candidate : RuntimePolicies H
  publication : Publication build
  contents : Str
  phase : Phase

inductive Holder where
  | starting (caller : Nat) (update : Update H)
  | running (transaction : Transaction build)

/-- What an observer can compare between transactions. -/
structure View where
  current : RuntimePolicies H
  live : Live build
  file : Option Str

/-- A transaction that ran, with what it left behind. -/
structure Entry where
  caller : Nat
  update : Update H
  outcome : Except BrokerError Unit
  after : View build

/-- The service with its callers. `log` and `cancelled` record the history and are read by no step. -/
structure Service where
  issued : Nat
  waiting : List (Nat × Update H)
  holder : Option (Holder build)
  view : View build
  temporary : Option Str
  log : List (Entry build)
  cancelled : List Nat

/-- How an operation of the file system ends; a failed write may have written some of its bytes. -/
inductive Outcome where
  | done
  | failed (written : Nat)
  deriving DecidableEq, Repr

inductive Action (H : Type) where
  | call (update : Update H)
  | cancel (caller : Nat)
  | acquire (caller : Nat)
  | advance (outcome : Outcome)

variable {build}

/-- Release the lock and answer the caller. -/
def Service.finish (s : Service build) (caller : Nat) (update : Update H) (outcome : Except BrokerError Unit) :
    Service build :=
  { s with holder := none, log := s.log ++ [⟨caller, update, outcome, s.view⟩] }

def Service.runs (s : Service build) (transaction : Transaction build) (phase : Phase) : Service build :=
  { s with holder := some (.running { transaction with phase := phase }) }

/-- Validation, the candidate and its serialization, up to the first operation of the file system. -/
def Service.start (s : Service build) (caller : Nat) (update : Update H) : Service build :=
  match update.prepare build with
  | .error e => s.finish caller update (.error e)
  | .ok publication =>
    match (update.applyTo s.view.current).render build with
    | none => s.finish caller update (.error (.runtimePolicy .serialize))
    | some contents =>
      { s with holder := some (.running ⟨caller, update, update.applyTo s.view.current, publication, contents,
        .persisting (persistSteps build.os)⟩) }

/-- The effect of a successful operation; `install` is the rename. -/
def Service.perform (s : Service build) (contents : Str) : PersistStep → Service build
  | .createTemporary => { s with temporary := some [] }
  | .writeTemporary => { s with temporary := some contents }
  | .install => { s with view := { s.view with file := s.temporary }, temporary := none }
  | _ => s

/-- The effect of a failed operation. -/
def Service.spoil (s : Service build) (contents : Str) (written : Nat) : PersistStep → Service build
  | .writeTemporary => { s with temporary := some (contents.take written) }
  | _ => s

def Service.persistFailed (s : Service build) (transaction : Transaction build) (step : PersistStep) (written : Nat) :
    Service build :=
  let error := RuntimePolicyError.persist step.operation
  if step.replaces then (s.spoil transaction.contents written step).runs transaction (.cleaning error)
  else s.finish transaction.caller transaction.update (.error (.runtimePolicy error))

def Service.advance (s : Service build) (transaction : Transaction build) (outcome : Outcome) : Service build :=
  match transaction.phase, outcome with
  | .persisting [], _ => s.runs transaction .installed
  | .persisting (step :: rest), .done =>
    (s.perform transaction.contents step).runs transaction (if rest = [] then .installed else .persisting rest)
  | .persisting (step :: _), .failed written => s.persistFailed transaction step written
  | .cleaning error, outcome =>
    { s with temporary := if outcome = Outcome.done then none else s.temporary }.finish transaction.caller transaction.update
      (.error (.runtimePolicy error))
  -- The directory is synced once more; a failure is only logged.
  | .installed, _ =>
    { s with view := { s.view with live := s.view.live.publish transaction.publication } }.runs transaction .published
  | .published, _ =>
    { s with view := { s.view with current := transaction.candidate } }.finish transaction.caller transaction.update
      (.ok ())

def Service.step (s : Service build) : Action H → Option (Service build)
  | .call update => some { s with issued := s.issued + 1, waiting := s.waiting ++ [(s.issued, update)] }
  -- A caller that no longer waits has no influence on its transaction.
  | .cancel caller =>
    if caller ∈ s.waiting.map Prod.fst then
      some { s with waiting := s.waiting.filter (fun request => request.1 != caller), cancelled := caller :: s.cancelled }
    else some s
  | .acquire caller =>
    match s.holder, s.waiting.find? (fun request => request.1 == caller) with
    | none, some request =>
      some { s with holder := some (.starting caller request.2),
                    waiting := s.waiting.filter (fun request => request.1 != caller) }
    | _, _ => none
  | .advance outcome =>
    match s.holder with
    | none => none
    | some (.starting caller update) => some (s.start caller update)
    | some (.running transaction) => some (s.advance transaction outcome)

/-- `NetworkRuntime::new`: a durable route over the startup route. -/
def startupNetwork (startupUpstream : Option UpstreamProxyConfig) (persisted : Option NetworkConfig) : NetworkConfig :=
  persisted.getD ⟨startupUpstream⟩

variable (build) in
/-- What the service is created from. -/
structure Startup where
  mitm : ValidatedTlsDecryptionPolicy build.platform
  hooks : H
  upstream : Option UpstreamProxyConfig
  persisted : Option NetworkConfig
  network : NetworkSnapshot
  routed : (startupNetwork upstream persisted).snapshot build.types = .ok network
  file : Option Str

def Startup.view (startup : Startup build) : View build :=
  ⟨⟨⟨startup.mitm.policy⟩, startup.hooks, startup.persisted⟩, ⟨startup.mitm, startup.hooks, startup.network⟩, startup.file⟩

/-- `RuntimeConfigService::new`. -/
def Startup.service (startup : Startup build) : Service build := ⟨0, [], none, startup.view, none, [], []⟩

end Service
end Abyss.Broker
