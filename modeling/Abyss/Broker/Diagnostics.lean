import Abyss.Broker.NetworkDiagnostics.Observation
import Abyss.Broker.Proxy.Worker
import Abyss.Data.Buckets
import Abyss.Mitm.Flow.HttpFlow

/-! The flow diagnostics of the broker: one record for every completed flow, tables of counts over the records and the
latest records. Every update runs under one lock. -/
namespace Abyss.Broker.Diagnostics
open Abyss.Text Abyss.Data Abyss.Mitm Abyss.Mitm.Http Abyss.Mitm.Explicit Abyss.Mitm.Flow
open NetworkDiagnostics (NetworkObservation normalizedOptionalString)

def maxRecentFlows : Nat := 100
def maxRecentAcceptErrors : Nat := 25
def maxAggregateKeys : Nat := 100
def otherKey : Str := "<other>".toList
def unknownKey : Str := "<unknown>".toList

section Flows

inductive TransparentFlowSource where
  | macosNetworkExtension | windowsWfp | linuxTransparent | unattributed
  deriving DecidableEq, Repr

inductive FlowIngress where
  | transparent (source : TransparentFlowSource)
  | explicitProxy (protocol : ExplicitProxyProtocol) (target : TargetAuthority) (upstreamProxy : Option SocketAddr)
      (proxyEndpoint : Option Str)
  deriving DecidableEq, Repr

/-- What an observation shows of an ingress. -/
def FlowIngress.observed : FlowIngress → NetworkDiagnostics.FlowIngress
  | .transparent .macosNetworkExtension => .macosNetworkExtension
  | .transparent .windowsWfp => .windowsWfp
  | .transparent .linuxTransparent => .linuxTransparent
  | .transparent .unattributed => .unattributed
  | .explicitProxy _ target upstreamProxy proxyEndpoint =>
    .explicitProxy target (upstreamProxy.map SocketAddr.display) proxyEndpoint

def FlowIngress.sourceLabel (ingress : FlowIngress) : Str := ingress.observed.sourceLabel

def FlowIngress.proxyProtocol : FlowIngress → Option ExplicitProxyProtocol
  | .explicitProxy protocol _ _ _ => some protocol
  | .transparent _ => none

inductive DestinationAddress where
  | known (address : SocketAddr)
  | unknown
  deriving DecidableEq, Repr

def DestinationAddress.socketAddr : DestinationAddress → Option SocketAddr
  | .known address => some address
  | .unknown => none

def DestinationAddress.display : DestinationAddress → Str
  | .known address => address.display
  | .unknown => "unresolved".toList

inductive DestinationAddressRange where
  | ipv4BenchmarkNet
  deriving DecidableEq, Repr

def DestinationAddressRange.name : DestinationAddressRange → Str
  | .ipv4BenchmarkNet => "fake_ip_candidate".toList

def DestinationAddressRange.cidr : DestinationAddressRange → Str
  | .ipv4BenchmarkNet => "198.18.0.0/15".toList

def DestinationAddressRange.reason : DestinationAddressRange → Str
  | .ipv4BenchmarkNet => "destination_ip_in_ipv4_benchmark_net_commonly_used_for_proxy_fake_ip".toList

/-- `OriginalDestination::special_address_range`. -/
def specialAddressRange (address : SocketAddr) : Option DestinationAddressRange :=
  match address.ip with
  | .v4 ip => if ip.a = 198 ∧ (ip.b = 18 ∨ ip.b = 19) then some .ipv4BenchmarkNet else none
  | .v6 _ => none

def destinationAddressRange (destination : DestinationAddress) : Option DestinationAddressRange :=
  destination.socketAddr.bind specialAddressRange

structure SourceProcess extends NetworkDiagnostics.SourceProcess where
  workingDirectory : Option Str
  entryPoint : Option Str

/-- What a record shows of a decrypted flow; `host` is the first `host` field of the first request. -/
structure InterceptedHttpOutcome where
  peerAddr : Option SocketAddr
  localAddr : Option SocketAddr
  protocol : TransparentProtocol
  host : Option HeaderValue
  method : Str
  path : Str
  status : UInt16
  clientToUpstreamBytes : UInt64
  upstreamToClientBytes : UInt64

inductive TransparentPassthroughProtocol where
  | tls (serverName : Option Str)
  deriving DecidableEq, Repr

structure TransparentPassthroughOutcome where
  peerAddr : Option SocketAddr
  localAddr : Option SocketAddr
  protocol : TransparentPassthroughProtocol
  clientToUpstreamBytes : UInt64
  upstreamToClientBytes : UInt64

inductive TransparentFlowOutcome where
  | intercepted (outcome : InterceptedHttpOutcome)
  | passthrough (outcome : TransparentPassthroughOutcome)
  | other

/-- What an observation shows of an outcome. -/
def TransparentFlowOutcome.observed : TransparentFlowOutcome → NetworkDiagnostics.TransparentFlowOutcome
  | .intercepted outcome => .intercepted outcome.status outcome.method outcome.path outcome.clientToUpstreamBytes
      outcome.upstreamToClientBytes
  | .passthrough outcome => .passthrough outcome.clientToUpstreamBytes outcome.upstreamToClientBytes
  | .other => .other

structure FlowDiagnosticContext (Uuid : Type) where
  ingress : FlowIngress
  peerAddr : Option SocketAddr
  localAddr : Option SocketAddr
  originalDestination : DestinationAddress
  destinationHost : Option Str
  sourceProcess : Option SourceProcess
  flowId : Option Uuid
  startedAtUnixMs : Option UInt64

end Flows

section Records

inductive FlowDecision where
  | intercepted | passthrough | failed | unknown
  deriving DecidableEq, Repr

def FlowDecision.name : FlowDecision → Str
  | .intercepted => "intercepted".toList
  | .passthrough => "passthrough".toList
  | .failed => "failed".toList
  | .unknown => "unknown".toList

structure IngressSnapshot where
  source : Str
  proxyProtocol : Option Str
  target : Option Str
  proxyEndpoint : Option Str
  proxyPeer : Option Str
  deriving DecidableEq, Repr

structure FakeIpSnapshot where
  candidate : Bool
  addressClass : Str
  cidr : Str
  reason : Str
  deriving DecidableEq, Repr

structure SourceProcessSnapshot where
  pid : Option UInt32
  name : Option Str
  executablePath : Option Str
  workingDirectory : Option Str
  entryPoint : Option Str
  bundleId : Option Str
  label : Str
  deriving DecidableEq, Repr

structure HttpSnapshot where
  method : Str
  path : Str
  status : UInt16
  deriving DecidableEq, Repr

structure ByteCountSnapshot where
  clientToUpstream : UInt64
  upstreamToClient : UInt64
  deriving DecidableEq, Repr

structure FlowRecord where
  observedAtUnixMs : UInt64
  ingress : IngressSnapshot
  decision : FlowDecision
  missReason : Option Str
  peerAddr : Option Str
  localAddr : Option Str
  originalDestination : Option Str
  platformDestinationHost : Option Str
  fakeIp : Option FakeIpSnapshot
  protocol : Option Str
  serverName : Option Str
  host : Str
  sourceProcess : SourceProcessSnapshot
  http : Option HttpSnapshot
  bytes : Option ByteCountSnapshot
  deriving DecidableEq, Repr

def explicitProxyProtocolLabel : ExplicitProxyProtocol → Str
  | .httpConnect => "http_connect".toList
  | .httpAbsoluteForm => "http_absolute_form".toList

def IngressSnapshot.fromIngress (ingress : FlowIngress) : IngressSnapshot where
  source := ingress.sourceLabel
  proxyProtocol := ingress.proxyProtocol.map explicitProxyProtocolLabel
  target := ingress.observed.proxyTarget.map TargetAuthority.display
  proxyEndpoint := ingress.observed.proxyEndpoint
  proxyPeer := ingress.observed.upstreamProxy

def FakeIpSnapshot.fromAddressRange (range : DestinationAddressRange) : FakeIpSnapshot :=
  ⟨true, range.name, range.cidr, range.reason⟩

def FakeIpSnapshot.fromDestination (destination : DestinationAddress) : Option FakeIpSnapshot :=
  (destinationAddressRange destination).map fromAddressRange

def destinationLabel (destination : DestinationAddress) : Option Str := destination.socketAddr.map SocketAddr.display

def transparentProtocolSnapshot : TransparentProtocol → Str × Option Str
  | .plainHttp => ("plain_http".toList, none)
  | .tlsHttp serverName => ("tls_http".toList, some serverName)

def passthroughProtocolSnapshot : TransparentPassthroughProtocol → Str × Option Str
  | .tls serverName => ("tls_passthrough".toList, serverName)

def flowErrorReason : NetworkDiagnostics.TransparentFlowError → Str
  | .clientClosedBeforeProtocol => "client_closed_before_protocol".toList
  | .unsupportedProtocol => "unsupported_protocol".toList
  | .missingSni => "missing_sni".toList
  | .upstreamProxy .. => "upstream_proxy_error".toList
  | .tls _ => "tls_error".toList
  | .http1 .. => "http1_decode_error".toList
  | .webSocket .. => "websocket_error".toList
  | .io .. => "io_error".toList
  | .timeout _ => "timeout".toList
  | .byteCountOverflow => "byte_count_overflow".toList
  | .tlsClientHelloTooLarge => "tls_client_hello_too_large".toList
  | .malformedTlsClientHello => "malformed_tls_client_hello".toList
  | .proxyTargetServerNameMismatch => "proxy_target_server_name_mismatch".toList
  | .proxyTargetHostMismatch => "proxy_target_host_mismatch".toList
  | .proxyTargetRequestForm => "proxy_target_request_form".toList
  | .tlsConfiguration => "tls_configuration_error".toList
  | .tlsDecryptionPolicy => "invalid_tls_decryption_policy".toList

-- `fileName` is `Path::file_name` of the build target, as far as it is text
variable (fileName : Str → Option Str)

def executableFileName (path : Option Str) : Option Str := path.bind fileName

def sourceProcessLabel (source : SourceProcess) : Str :=
  ((source.applicationId.or source.name).or (executableFileName fileName source.executablePath)).getD unknownKey

def SourceProcessSnapshot.fromSource : Option SourceProcess → SourceProcessSnapshot
  | none => ⟨none, none, none, none, none, none, unknownKey⟩
  | some source => {
      pid := source.pid
      name := source.name
      executablePath := source.executablePath
      workingDirectory := source.workingDirectory
      entryPoint := source.entryPoint
      bundleId := source.applicationId
      label := sourceProcessLabel fileName source }

variable {Uuid : Type}

def FlowRecord.fromOutcome (context : FlowDiagnosticContext Uuid) (outcome : TransparentFlowOutcome)
    (observedAtUnixMs : UInt64) : FlowRecord :=
  let platformDestinationHost := normalizedOptionalString context.destinationHost
  let fakeIp := FakeIpSnapshot.fromDestination context.originalDestination
  let ingress := IngressSnapshot.fromIngress context.ingress
  let originalDestination := destinationLabel context.originalDestination
  let sourceProcess := SourceProcessSnapshot.fromSource fileName context.sourceProcess
  match outcome with
  | .intercepted outcome =>
    let (protocol, serverName) := transparentProtocolSnapshot outcome.protocol
    { observedAtUnixMs, ingress, platformDestinationHost, fakeIp, originalDestination, sourceProcess, serverName
      decision := .intercepted
      missReason := none
      peerAddr := outcome.peerAddr.map SocketAddr.display
      localAddr := outcome.localAddr.map SocketAddr.display
      protocol := some protocol
      host := (((outcome.host.bind toStr).or serverName).or platformDestinationHost).getD context.originalDestination.display
      http := some ⟨outcome.method, outcome.path, outcome.status⟩
      bytes := some ⟨outcome.clientToUpstreamBytes, outcome.upstreamToClientBytes⟩ }
  | .passthrough outcome =>
    let (protocol, serverName) := passthroughProtocolSnapshot outcome.protocol
    { observedAtUnixMs, ingress, platformDestinationHost, fakeIp, originalDestination, sourceProcess, serverName
      decision := .passthrough
      missReason := some "tls_decryption_policy_passthrough".toList
      peerAddr := outcome.peerAddr.map SocketAddr.display
      localAddr := outcome.localAddr.map SocketAddr.display
      protocol := some protocol
      host := (serverName.or platformDestinationHost).getD context.originalDestination.display
      http := none
      bytes := some ⟨outcome.clientToUpstreamBytes, outcome.upstreamToClientBytes⟩ }
  | .other =>
    { observedAtUnixMs, ingress, platformDestinationHost, fakeIp, originalDestination, sourceProcess
      decision := .unknown
      missReason := some "unknown_outcome".toList
      peerAddr := context.peerAddr.map SocketAddr.display
      localAddr := context.localAddr.map SocketAddr.display
      protocol := none
      serverName := none
      host := platformDestinationHost.getD context.originalDestination.display
      http := none
      bytes := none }

def FlowRecord.fromFailure (context : FlowDiagnosticContext Uuid) (error : NetworkDiagnostics.TransparentFlowError)
    (observedAtUnixMs : UInt64) : FlowRecord :=
  let platformDestinationHost := normalizedOptionalString context.destinationHost
  { observedAtUnixMs, platformDestinationHost
    ingress := .fromIngress context.ingress
    decision := .failed
    missReason := some (flowErrorReason error)
    peerAddr := context.peerAddr.map SocketAddr.display
    localAddr := context.localAddr.map SocketAddr.display
    originalDestination := destinationLabel context.originalDestination
    fakeIp := FakeIpSnapshot.fromDestination context.originalDestination
    protocol := none
    serverName := none
    host := platformDestinationHost.getD context.originalDestination.display
    sourceProcess := .fromSource fileName context.sourceProcess
    http := none
    bytes := none }

end Records

section State

structure AcceptErrorRecord where
  observedAtUnixMs : UInt64
  error : Str
  deriving DecidableEq, Repr

structure FlowDiagnosticsState (Uuid : Type) where
  totals : Proxy.FlowDiagnosticsState
  byDecision : HashMap Str Nat
  byIngress : HashMap Str Nat
  byHost : HashMap Str Nat
  byProcess : HashMap Str Nat
  byBundleId : HashMap Str Nat
  byMissReason : HashMap Str Nat
  byDestinationAddressClass : HashMap Str Nat
  byFakeIpHost : HashMap Str Nat
  byFakeIpProcess : HashMap Str Nat
  recentFlows : List FlowRecord
  recentObservations : List (NetworkObservation Uuid)
  recentAcceptErrors : List AcceptErrorRecord

def incrementBounded (map : HashMap Str Nat) (key : Str) : HashMap Str Nat :=
  let target := if key ∈ map ∨ map.size < maxAggregateKeys then key else otherKey
  map.insert target (Proxy.increment ((map.lookup target).getD 0))

/-- Nothing is counted for a key that is not there. -/
def incrementOptional (map : HashMap Str Nat) : Option Str → HashMap Str Nat
  | some key => incrementBounded map key
  | none => map

/-- The oldest records go until at most `maxRecords` are left. -/
def pushBounded {α : Type} (records : List α) (record : α) (maxRecords : Nat) : List α :=
  let records := records ++ [record]
  records.drop (records.length - maxRecords)

/-- A flow that was handled: its context, how it ended (an error with its text), when, and the identifier of its
observation. -/
structure FinishedFlow (Uuid : Type) where
  context : FlowDiagnosticContext Uuid
  result : Except (NetworkDiagnostics.TransparentFlowError × Str) TransparentFlowOutcome
  endedAtUnixMs : UInt64
  observationId : Uuid

variable {Uuid : Type} (fileName : Str → Option Str)

def FinishedFlow.record (flow : FinishedFlow Uuid) : FlowRecord :=
  match flow.result with
  | .ok outcome => FlowRecord.fromOutcome fileName flow.context outcome flow.endedAtUnixMs
  | .error (error, _) => FlowRecord.fromFailure fileName flow.context error flow.endedAtUnixMs

def FinishedFlow.observation (flow : FinishedFlow Uuid) : NetworkObservation Uuid :=
  let context := flow.context
  let startedAt := context.startedAtUnixMs.getD flow.endedAtUnixMs
  let source := context.sourceProcess.map SourceProcess.toSourceProcess
  let observation := match flow.result with
    | .ok outcome => NetworkObservation.fromOutcome flow.observationId context.flowId context.ingress.observed
        context.destinationHost source startedAt flow.endedAtUnixMs outcome.observed
    | .error (error, text) => NetworkObservation.fromError flow.observationId context.flowId context.ingress.observed
        context.destinationHost source startedAt flow.endedAtUnixMs error text
  { observation with destinationAddr := context.originalDestination.socketAddr.map SocketAddr.display }

/-- What one closure does to the state under the lock. The two parts of `record_ingress_error` lock it twice. -/
inductive Update (Uuid : Type) where
  | accepted
  | acceptError (record : AcceptErrorRecord)
  | ingressObservation (observation : NetworkObservation Uuid)
  | completed (flow : FinishedFlow Uuid)

/-- A call of the recorder. -/
inductive Call (Uuid : Type) where
  | recordAccepted
  | recordAcceptError (record : AcceptErrorRecord)
  | recordIngressError (record : AcceptErrorRecord) (observation : Option (NetworkObservation Uuid))
  | record (flow : FinishedFlow Uuid)

/-- The closures of a call; of the ingress errors only a failed next hop has an observation. -/
def Call.updates : Call Uuid → List (Update Uuid)
  | .recordAccepted => [.accepted]
  | .recordAcceptError error => [.acceptError error]
  | .recordIngressError error observation => .acceptError error :: (observation.map Update.ingressObservation).toList
  | .record flow => [.completed flow]

namespace FlowDiagnosticsState

def initial : FlowDiagnosticsState Uuid := ⟨⟨0, 0, 0, 0⟩, ∅, ∅, ∅, ∅, ∅, ∅, ∅, ∅, ∅, [], [], []⟩

def recordCompleted (state : FlowDiagnosticsState Uuid) (record : FlowRecord) (observation : NetworkObservation Uuid) :
    FlowDiagnosticsState Uuid where
  totals := state.totals.recordCompleted
  byDecision := incrementBounded state.byDecision record.decision.name
  byIngress := incrementBounded state.byIngress record.ingress.source
  byHost := incrementBounded state.byHost record.host
  byProcess := incrementBounded state.byProcess record.sourceProcess.label
  byBundleId := incrementOptional state.byBundleId record.sourceProcess.bundleId
  byMissReason := incrementOptional state.byMissReason record.missReason
  byDestinationAddressClass := incrementBounded state.byDestinationAddressClass
    (match record.fakeIp with
      | some fakeIp => fakeIp.addressClass
      | none => "ordinary".toList)
  byFakeIpHost := if record.fakeIp.isSome then incrementBounded state.byFakeIpHost record.host else state.byFakeIpHost
  byFakeIpProcess :=
    if record.fakeIp.isSome then incrementBounded state.byFakeIpProcess record.sourceProcess.label else state.byFakeIpProcess
  recentFlows := pushBounded state.recentFlows record maxRecentFlows
  recentObservations := pushBounded state.recentObservations observation maxRecentFlows
  recentAcceptErrors := state.recentAcceptErrors

def apply (state : FlowDiagnosticsState Uuid) : Update Uuid → FlowDiagnosticsState Uuid
  | .accepted => { state with totals := state.totals.recordAccepted }
  | .acceptError record => { state with
      totals := state.totals.recordAcceptError
      recentAcceptErrors := pushBounded state.recentAcceptErrors record maxRecentAcceptErrors }
  | .ingressObservation observation => { state with
      recentObservations := pushBounded state.recentObservations observation maxRecentFlows }
  | .completed flow => state.recordCompleted (flow.record fileName) flow.observation

/-- The state after updates of any tasks, in the order in which they took the lock. -/
def run (updates : List (Update Uuid)) : FlowDiagnosticsState Uuid := updates.foldl (apply fileName) initial

end FlowDiagnosticsState

end State

section Histories
variable {Uuid : Type}

def Update.isAccepted : Update Uuid → Bool
  | .accepted => true
  | _ => false

def Update.flow : Update Uuid → Option (FinishedFlow Uuid)
  | .completed flow => some flow
  | _ => none

def Update.acceptErrorRecord : Update Uuid → Option AcceptErrorRecord
  | .acceptError record => some record
  | _ => none

def Update.observation : Update Uuid → Option (NetworkObservation Uuid)
  | .ingressObservation observation => some observation
  | .completed flow => some flow.observation
  | _ => none

/-- The tables of a snapshot. -/
inductive Aggregate where
  | decision | ingress | host | process | bundleId | missReason | destinationAddressClass | fakeIpHost | fakeIpProcess
  deriving DecidableEq, Repr

namespace Aggregate

/-- What a table counts of a record. -/
def key : Aggregate → FlowRecord → Option Str
  | decision, record => some record.decision.name
  | ingress, record => some record.ingress.source
  | host, record => some record.host
  | process, record => some record.sourceProcess.label
  | bundleId, record => record.sourceProcess.bundleId
  | missReason, record => record.missReason
  | destinationAddressClass, record => some ((record.fakeIp.map FakeIpSnapshot.addressClass).getD "ordinary".toList)
  | fakeIpHost, record => record.fakeIp.map (fun _ => record.host)
  | fakeIpProcess, record => record.fakeIp.map (fun _ => record.sourceProcess.label)

def table (state : FlowDiagnosticsState Uuid) : Aggregate → HashMap Str Nat
  | decision => state.byDecision
  | ingress => state.byIngress
  | host => state.byHost
  | process => state.byProcess
  | bundleId => state.byBundleId
  | missReason => state.byMissReason
  | destinationAddressClass => state.byDestinationAddressClass
  | fakeIpHost => state.byFakeIpHost
  | fakeIpProcess => state.byFakeIpProcess

/-- The keys of the tables that count labels of the broker's own. -/
def labels : Aggregate → Option (List Str)
  | decision => some (["intercepted", "passthrough", "failed", "unknown"].map String.toList)
  | ingress => some (["macos_network_extension", "windows_wfp", "linux_transparent", "unattributed_transparent",
      "explicit_proxy"].map String.toList)
  | missReason => some (["client_closed_before_protocol", "unsupported_protocol", "missing_sni", "upstream_proxy_error",
      "tls_error", "http1_decode_error", "websocket_error", "io_error", "timeout", "byte_count_overflow",
      "tls_client_hello_too_large", "malformed_tls_client_hello", "proxy_target_server_name_mismatch",
      "proxy_target_host_mismatch", "proxy_target_request_form", "tls_configuration_error", "invalid_tls_decryption_policy",
      "tls_decryption_policy_passthrough", "unknown_outcome"].map String.toList)
  | destinationAddressClass => some (["ordinary", "fake_ip_candidate"].map String.toList)
  | _ => none

theorem labels_length {aggregate : Aggregate} {labels : List Str} (h : aggregate.labels = some labels) :
    labels.length ≤ maxAggregateKeys := by
  cases aggregate <;> simp only [Aggregate.labels, Option.some.injEq, reduceCtorEq] at h <;> subst h <;>
    rw [List.length_map] <;> decide

end Aggregate

variable (fileName : Str → Option Str)

/-- What a table counts of a history. -/
def keys (updates : List (Update Uuid)) (aggregate : Aggregate) : List Str :=
  (updates.filterMap Update.flow).filterMap (fun flow => aggregate.key (flow.record fileName))

theorem flowErrorReason_mem (error : NetworkDiagnostics.TransparentFlowError) {labels : List Str}
    (h : Aggregate.missReason.labels = some labels) : flowErrorReason error ∈ labels := by
  obtain rfl := Option.some.inj h
  cases error <;> exact List.mem_map_of_mem (by decide)

variable {fileName}

theorem record_ingress (flow : FinishedFlow Uuid) :
    (flow.record fileName).ingress = IngressSnapshot.fromIngress flow.context.ingress := by
  obtain ⟨context, result, endedAt, observationId⟩ := flow
  rcases result with _ | outcome | outcome | _ <;> rfl

theorem record_fakeIp (flow : FinishedFlow Uuid) :
    (flow.record fileName).fakeIp = FakeIpSnapshot.fromDestination flow.context.originalDestination := by
  obtain ⟨context, result, endedAt, observationId⟩ := flow
  rcases result with _ | outcome | outcome | _ <;> rfl

theorem sourceLabel_mem (ingress : FlowIngress) {labels : List Str} (h : Aggregate.ingress.labels = some labels) :
    ingress.sourceLabel ∈ labels := by
  obtain rfl := Option.some.inj h
  rcases ingress with source | _
  · cases source <;> exact List.mem_map_of_mem (by decide)
  · exact List.mem_map_of_mem (by decide)

theorem addressClass_mem (fakeIp : Option DestinationAddressRange) {labels : List Str}
    (h : Aggregate.destinationAddressClass.labels = some labels) :
    ((fakeIp.map FakeIpSnapshot.fromAddressRange).map FakeIpSnapshot.addressClass).getD "ordinary".toList ∈ labels := by
  obtain rfl := Option.some.inj h
  cases fakeIp with
  | none => exact List.mem_map_of_mem (by decide)
  | some range =>
    cases range
    exact List.mem_map_of_mem (by decide)

/-- The records of handled flows have no other labels. -/
theorem record_key_mem {flow : FinishedFlow Uuid} {aggregate : Aggregate} {labels : List Str} {key : Str}
    (h : aggregate.labels = some labels) (hkey : aggregate.key (flow.record fileName) = some key) : key ∈ labels := by
  cases aggregate with
  | decision =>
    obtain rfl := Option.some.inj h
    obtain rfl := Option.some.inj hkey
    obtain ⟨context, result, endedAt, observationId⟩ := flow
    rcases result with _ | outcome | outcome | _ <;> exact List.mem_map_of_mem (by decide)
  | ingress =>
    obtain rfl := Option.some.inj hkey
    rw [record_ingress]
    exact sourceLabel_mem _ h
  | missReason =>
    obtain ⟨context, result, endedAt, observationId⟩ := flow
    rcases result with ⟨error, text⟩ | outcome | outcome | _
    · obtain rfl := Option.some.inj hkey
      exact flowErrorReason_mem error h
    · cases hkey
    · obtain rfl := Option.some.inj h
      obtain rfl := Option.some.inj hkey
      exact List.mem_map_of_mem (by decide)
    · obtain rfl := Option.some.inj h
      obtain rfl := Option.some.inj hkey
      exact List.mem_map_of_mem (by decide)
  | destinationAddressClass =>
    obtain rfl := Option.some.inj hkey
    rw [record_fakeIp]
    exact addressClass_mem _ h
  | host | process | bundleId | fakeIpHost | fakeIpProcess => cases h

end Histories

section Accounts
variable {Uuid : Type} (fileName : Str → Option Str)

/-- The largest `u64`. -/
def counterMax : Nat := 2 ^ 64 - 1

/-- A counter that counted `n` times. -/
def counted (n : Nat) : Option Nat := if n = 0 then none else some (min n counterMax)

/-- What a snapshot shows after the updates, which are those that were issued in the order in which they took the lock.
A table counts every flow: each key on its own until it has 100 keys, and every later key as `<other>`. While the flows
have at most 100 keys, as they always do in a table of labels, the order does not matter. -/
structure Accounts (issued updates : List (Update Uuid)) (state : FlowDiagnosticsState Uuid) : Prop where
  accepted : state.totals.acceptedTotal = min (issued.countP Update.isAccepted) counterMax
  completed : state.totals.completedTotal = min (issued.filterMap Update.flow).length counterMax
  acceptErrors : state.totals.acceptErrorsTotal = min (issued.filterMap Update.acceptErrorRecord).length counterMax
  inFlight : (∀ seen, seen <+: updates → (seen.filterMap Update.flow).length ≤ seen.countP Update.isAccepted) →
    issued.countP Update.isAccepted ≤ counterMax →
    state.totals.inFlight + (issued.filterMap Update.flow).length = issued.countP Update.isAccepted
  tallied : ∀ aggregate : Aggregate,
    Tallied counterMax maxAggregateKeys otherKey (keys fileName updates aggregate) (aggregate.table state)
  bounded : ∀ aggregate : Aggregate, (aggregate.table state).size ≤ maxAggregateKeys + 1
  complete : ∀ aggregate : Aggregate, (keys fileName issued aggregate).length ≤ counterMax →
    (aggregate.table state).total id = (keys fileName issued aggregate).length
  exact : ∀ aggregate : Aggregate,
    aggregate.labels.isSome ∨ (distinct (keys fileName issued aggregate)).length ≤ maxAggregateKeys →
    ∀ key, (aggregate.table state).lookup key = counted ((keys fileName issued aggregate).countP (· = key))
  recentFlows : state.recentFlows = ((updates.filterMap Update.flow).map (FinishedFlow.record fileName)).rtake maxRecentFlows
  recentObservations : state.recentObservations = (updates.filterMap Update.observation).rtake maxRecentFlows
  recentAcceptErrors : state.recentAcceptErrors = (updates.filterMap Update.acceptErrorRecord).rtake maxRecentAcceptErrors

variable {fileName}

theorem run_concat (updates : List (Update Uuid)) (update : Update Uuid) :
    FlowDiagnosticsState.run fileName (updates ++ [update]) =
      (FlowDiagnosticsState.run fileName updates).apply fileName update := by
  rw [FlowDiagnosticsState.run, List.foldl_append, List.foldl_cons, List.foldl_nil, ← FlowDiagnosticsState.run]

theorem incrementBounded_eq (map : HashMap Str Nat) (key : Str) :
    incrementBounded map key = countKey counterMax maxAggregateKeys otherKey map key := rfl

theorem table_recordCompleted (state : FlowDiagnosticsState Uuid) (record : FlowRecord)
    (observation : NetworkObservation Uuid) (aggregate : Aggregate) :
    aggregate.table (state.recordCompleted record observation) =
      (aggregate.key record).toList.foldl (countKey counterMax maxAggregateKeys otherKey) (aggregate.table state) := by
  cases aggregate with
  | decision | ingress | host | process => rfl
  | bundleId =>
    simp only [Aggregate.table, Aggregate.key, FlowDiagnosticsState.recordCompleted]
    cases record.sourceProcess.bundleId <;> rfl
  | missReason =>
    simp only [Aggregate.table, Aggregate.key, FlowDiagnosticsState.recordCompleted]
    cases record.missReason <;> rfl
  | destinationAddressClass =>
    simp only [Aggregate.table, Aggregate.key, FlowDiagnosticsState.recordCompleted]
    cases record.fakeIp <;> rfl
  | fakeIpHost | fakeIpProcess =>
    simp only [Aggregate.table, Aggregate.key, FlowDiagnosticsState.recordCompleted]
    cases record.fakeIp <;> rfl

/-- A completed flow is counted in each table under its key, and no other update touches a table. -/
theorem table_apply (state : FlowDiagnosticsState Uuid) (update : Update Uuid) (aggregate : Aggregate) :
    aggregate.table (state.apply fileName update) =
      (update.flow.bind fun flow => aggregate.key (flow.record fileName)).toList.foldl
        (countKey counterMax maxAggregateKeys otherKey) (aggregate.table state) := by
  cases update with
  | accepted | acceptError | ingressObservation => cases aggregate <;> rfl
  | completed flow => exact table_recordCompleted ..

/-- A part of the state that every update extends by at most one entry is the fold over the entries of all updates. -/
theorem run_filterMap {α β : Type} (part : FlowDiagnosticsState Uuid → β) (entry : Update Uuid → Option α) {f : β → α → β}
    (h : ∀ state update, part (state.apply fileName update) = (entry update).toList.foldl f (part state))
    (updates : List (Update Uuid)) :
    part (FlowDiagnosticsState.run fileName updates) = (updates.filterMap entry).foldl f (part .initial) := by
  induction updates using List.reverseRecOn with
  | nil => rfl
  | append_singleton updates update ih =>
    rw [run_concat, h, ih, List.filterMap_append, List.foldl_append]
    cases hentry : entry update <;> simp [hentry]

theorem table_run (updates : List (Update Uuid)) (aggregate : Aggregate) :
    aggregate.table (FlowDiagnosticsState.run fileName updates) =
      (keys fileName updates aggregate).foldl (countKey counterMax maxAggregateKeys otherKey) ∅ := by
  rw [keys, List.filterMap_filterMap, run_filterMap aggregate.table _ (fun state update => table_apply state update aggregate)]
  cases aggregate <;> rfl

theorem recentFlows_run (updates : List (Update Uuid)) : (FlowDiagnosticsState.run fileName updates).recentFlows =
    ((updates.filterMap Update.flow).map (FinishedFlow.record fileName)).foldl (pushLast maxRecentFlows) [] := by
  rw [List.map_filterMap]
  exact run_filterMap FlowDiagnosticsState.recentFlows _ (fun state update => by cases update <;> rfl) updates

theorem recentObservations_run (updates : List (Update Uuid)) :
    (FlowDiagnosticsState.run fileName updates).recentObservations =
      (updates.filterMap Update.observation).foldl (pushLast maxRecentFlows) [] :=
  run_filterMap FlowDiagnosticsState.recentObservations _ (fun state update => by cases update <;> rfl) updates

theorem recentAcceptErrors_run (updates : List (Update Uuid)) :
    (FlowDiagnosticsState.run fileName updates).recentAcceptErrors =
      (updates.filterMap Update.acceptErrorRecord).foldl (pushLast maxRecentAcceptErrors) [] :=
  run_filterMap FlowDiagnosticsState.recentAcceptErrors _ (fun state update => by cases update <;> rfl) updates

theorem keys_subset_labels {updates : List (Update Uuid)} {aggregate : Aggregate} {labels : List Str}
    (h : aggregate.labels = some labels) : keys fileName updates aggregate ⊆ labels := by
  intro key hkey
  obtain ⟨flow, -, hflow⟩ := List.mem_filterMap.mp hkey
  exact record_key_mem h hflow

theorem increment_min (n : Nat) : Proxy.increment (min n counterMax) = min (n + 1) counterMax := addUpTo_min ..

theorem totals_run (updates : List (Update Uuid)) :
    let totals := (FlowDiagnosticsState.run fileName updates).totals
    totals.acceptedTotal = min (updates.countP Update.isAccepted) counterMax ∧
    totals.completedTotal = min (updates.filterMap Update.flow).length counterMax ∧
    totals.acceptErrorsTotal = min (updates.filterMap Update.acceptErrorRecord).length counterMax := by
  induction updates using List.reverseRecOn with
  | nil => exact ⟨rfl, rfl, rfl⟩
  | append_singleton updates update ih =>
    obtain ⟨haccepted, hcompleted, herrors⟩ := ih
    rw [run_concat, List.countP_append, List.filterMap_append, List.filterMap_append, List.length_append, List.length_append]
    cases update with
    | accepted => exact ⟨(congrArg Proxy.increment haccepted).trans (increment_min _), hcompleted, herrors⟩
    | acceptError record => exact ⟨haccepted, hcompleted, (congrArg Proxy.increment herrors).trans (increment_min _)⟩
    | ingressObservation observation => exact ⟨haccepted, hcompleted, herrors⟩
    | completed flow => exact ⟨haccepted, (congrArg Proxy.increment hcompleted).trans (increment_min _), herrors⟩

/-- As long as flows complete after they were accepted, the flows in flight are the accepted ones that have not completed. -/
theorem inFlight_run {updates : List (Update Uuid)}
    (h : ∀ seen, seen <+: updates → (seen.filterMap Update.flow).length ≤ seen.countP Update.isAccepted)
    (hcounted : updates.countP Update.isAccepted ≤ counterMax) :
    (FlowDiagnosticsState.run fileName updates).totals.inFlight + (updates.filterMap Update.flow).length =
      updates.countP Update.isAccepted := by
  induction updates using List.reverseRecOn with
  | nil => rfl
  | append_singleton updates update ih =>
    have hwhole := h _ (List.prefix_refl _)
    rw [List.countP_append] at hcounted hwhole
    have hbefore := ih (fun seen hseen => h seen (hseen.trans (List.prefix_append ..))) (by omega)
    rw [run_concat, List.countP_append, List.filterMap_append, List.length_append]
    rw [List.filterMap_append, List.length_append] at hwhole
    cases update with
    | accepted =>
      have hone : [@Update.accepted Uuid].countP Update.isAccepted = 1 := rfl
      change min (_ + 1) counterMax + (_ + 0) = _
      omega
    | acceptError record => exact hbefore
    | ingressObservation observation => exact hbefore
    | completed flow =>
      have hone : ([Update.completed flow].filterMap Update.flow).length = 1 := rfl
      have hnone : [Update.completed flow].countP Update.isAccepted = 0 := rfl
      change _ - 1 + _ = _
      omega

/-- Whatever calls the tasks make and whichever order their closures take the lock in, a snapshot accounts for all of them. -/
theorem snapshot_accounts (fileName : Str → Option Str) {calls : List (Call Uuid)} {updates : List (Update Uuid)}
    (h : updates.Perm (calls.flatMap Call.updates)) :
    Accounts fileName (calls.flatMap Call.updates) updates (FlowDiagnosticsState.run fileName updates) := by
  generalize calls.flatMap Call.updates = issued at h
  have hkeys : ∀ aggregate, (keys fileName updates aggregate).Perm (keys fileName issued aggregate) := fun aggregate =>
    (h.filterMap _).filterMap _
  obtain ⟨haccepted, hcompleted, herrors⟩ := @totals_run Uuid fileName updates
  rw [h.countP_eq] at haccepted
  rw [(h.filterMap _).length_eq] at hcompleted herrors
  have htallied : ∀ aggregate : Aggregate, Tallied counterMax maxAggregateKeys otherKey (keys fileName updates aggregate)
      (aggregate.table (FlowDiagnosticsState.run fileName updates)) := by
    intro aggregate
    rw [table_run]
    exact tallied_foldl _
  refine ⟨haccepted, hcompleted, herrors, ?_, htallied, fun aggregate => (htallied aggregate).size_le, ?_, ?_, ?_, ?_, ?_⟩
  · intro hprefix hcounted
    rw [← h.countP_eq, ← (h.filterMap _).length_eq]
    rw [← h.countP_eq] at hcounted
    exact inFlight_run hprefix hcounted
  · intro aggregate hlength
    rw [← (hkeys aggregate).length_eq] at hlength ⊢
    rw [table_run]
    exact total_foldl_countKey hlength
  · intro aggregate hfew key
    have hdifferent : (distinct (keys fileName updates aggregate)).length ≤ maxAggregateKeys := by
      rcases hfew with hlabels | hfew
      · obtain ⟨labels, hlabels⟩ := Option.isSome_iff_exists.mp hlabels
        exact (length_distinct_le (keys_subset_labels hlabels)).trans (Aggregate.labels_length hlabels)
      · exact (length_distinct_perm (hkeys aggregate)).trans_le hfew
    rw [htallied aggregate key, tally_eq hdifferent, (hkeys aggregate).countP_eq, counted]
  · rw [recentFlows_run, foldl_pushLast]
  · rw [recentObservations_run, foldl_pushLast]
  · rw [recentAcceptErrors_run, foldl_pushLast]

/-- A flow to a fake address, without a host name, that ended without SNI. -/
def namelessFlow : FinishedFlow Nat where
  context := ⟨.transparent .linuxTransparent, none, none, .known ⟨.v4 ⟨198, 18, 0, 7⟩, 443⟩, none, none, some 1, some 5⟩
  result := .error (.missingSni, "missing SNI".toList)
  endedAtUnixMs := 9
  observationId := 2

def proxyRefused : NetworkObservation Nat :=
  .fromIngressError 3 4 6 7 ⟨.dns "api".toList, 80, httpPort_ne_zero⟩ "proxy:3128".toList (.rejected 407) "refused".toList

/-- The flow is accepted between the two closures of an ingress error. -/
theorem interleaved_accounts :
    let error : AcceptErrorRecord := ⟨6, "refused".toList⟩
    let updates : List (Update Nat) :=
      [.acceptError error, .accepted, .ingressObservation proxyRefused, .completed namelessFlow]
    let state := FlowDiagnosticsState.run some updates
    Accounts some (List.flatMap Call.updates [.recordIngressError error (some proxyRefused), .recordAccepted,
      .record namelessFlow]) updates state ∧
    state.byFakeIpHost.lookup "198.18.0.7:443".toList = some 1 ∧ state.byMissReason.lookup "missing_sni".toList = some 1 := by
  refine ⟨snapshot_accounts some (.cons _ (.swap ..)), by decide, by decide⟩

end Accounts

end Abyss.Broker.Diagnostics
