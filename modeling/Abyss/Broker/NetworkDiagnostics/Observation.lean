import Abyss.Broker.NetworkDiagnostics.Failure

/-! The observation of one flow, from its outcome or from its failure. -/
namespace Abyss.Broker.NetworkDiagnostics
open Abyss.Text Abyss.Mitm Abyss.Mitm.Explicit

section Sources

/-- `FlowIngress`; the peer of an outbound tunnel is its socket address as text. -/
inductive FlowIngress where
  | macosNetworkExtension
  | windowsWfp
  | linuxTransparent
  | unattributed
  | explicitProxy (target : TargetAuthority) (upstreamProxy proxyEndpoint : Option Str)

namespace FlowIngress

def sourceLabel : FlowIngress → Str
  | .macosNetworkExtension => "macos_network_extension".toList
  | .windowsWfp => "windows_wfp".toList
  | .linuxTransparent => "linux_transparent".toList
  | .unattributed => "unattributed_transparent".toList
  | .explicitProxy .. => "explicit_proxy".toList

def proxyTarget : FlowIngress → Option TargetAuthority
  | .explicitProxy target _ _ => some target
  | _ => none

def upstreamProxy : FlowIngress → Option Str
  | .explicitProxy _ peer _ => peer
  | _ => none

def proxyEndpoint : FlowIngress → Option Str
  | .explicitProxy _ _ endpoint => endpoint
  | _ => none

end FlowIngress

structure SourceProcess where
  pid : Option UInt32
  name : Option Str
  executablePath : Option Str
  applicationId : Option Str

/-- What `TransparentFlowOutcome` shows of a flow. -/
inductive TransparentFlowOutcome where
  | intercepted (status : UInt16) (method path : Str) (clientToUpstreamBytes upstreamToClientBytes : UInt64)
  | passthrough (clientToUpstreamBytes upstreamToClientBytes : UInt64)
  | other

def normalizedOptionalString (value : Option Str) : Option Str := (value.map trim).filter (fun value => !value.isEmpty)

def maxErrorDetailChars : Nat := 1024

/-- The display of an error, cut to the limit. -/
def boundedErrorDetail (error : Str) : Str :=
  if error.length ≤ maxErrorDetailChars then error else error.take maxErrorDetailChars ++ ['…']

end Sources

structure NetworkTiming where
  startedAt : UInt64
  endedAt : UInt64
  elapsedMs : UInt64
  deriving DecidableEq, Repr

def NetworkTiming.fromUnixMs (startedAt endedAt : UInt64) : NetworkTiming :=
  ⟨startedAt, endedAt, if startedAt ≤ endedAt then endedAt - startedAt else 0⟩

/-- One metadata-only technical observation. -/
structure NetworkObservation (Uuid : Type) where
  observationId : Uuid
  flowId : Option Uuid
  observedAtUnixMs : UInt64
  ingressSource : Str
  destinationHost : Option Str
  destinationAddr : Option Str
  targetAuthority : Option Str
  proxyEndpoint : Option Str
  proxyPeer : Option Str
  proxyStatus : Option UInt16
  sourcePid : Option UInt32
  sourceProcessName : Option Str
  sourceExecutablePath : Option Str
  sourceBundleId : Option Str
  hop : NetworkHop
  direction : Option NetworkDirection
  operation : Option FlowOperation
  stage : NetworkStage
  outcome : NetworkOutcome
  failureClass : Option NetworkFailureClass
  technicalErrorCode : Option NetworkErrorCode
  timing : NetworkTiming
  httpStatus : Option UInt16
  requestMethod : Option Str
  requestPath : Option Str
  bytesUp : UInt64
  bytesDown : UInt64
  error : Option Str
  deriving DecidableEq, Repr

namespace NetworkObservation
variable {Uuid : Type}

section Build
variable (observationId : Uuid) (flowId : Option Uuid) (ingress : FlowIngress) (destinationHost : Option Str)
  (sourceProcess : Option SourceProcess) (startedAt endedAt : UInt64)

/-- Build an observation from a completed outcome. -/
def fromOutcome (outcome : TransparentFlowOutcome) : NetworkObservation Uuid :=
  let build (hop : NetworkHop) (direction : Option NetworkDirection) (operation : Option FlowOperation) (stage : NetworkStage)
      (networkOutcome : NetworkOutcome) (httpStatus : Option UInt16) (bytesUp bytesDown : UInt64) (error : Option Str)
      (request : Option (Str × Str)) : NetworkObservation Uuid :=
    { observationId, flowId
      observedAtUnixMs := endedAt
      ingressSource := ingress.sourceLabel
      destinationHost := normalizedOptionalString destinationHost
      destinationAddr := none
      targetAuthority := ingress.proxyTarget.map TargetAuthority.display
      proxyEndpoint := ingress.proxyEndpoint
      proxyPeer := ingress.upstreamProxy
      proxyStatus := none
      sourcePid := sourceProcess.bind (·.pid)
      sourceProcessName := sourceProcess.bind (fun source => normalizedOptionalString source.name)
      sourceExecutablePath := sourceProcess.bind (fun source => normalizedOptionalString source.executablePath)
      sourceBundleId := sourceProcess.bind (fun source => normalizedOptionalString source.applicationId)
      hop, direction, operation, stage
      outcome := networkOutcome
      failureClass := none
      technicalErrorCode := NetworkErrorCode.fromObservation hop stage networkOutcome none httpStatus
      timing := NetworkTiming.fromUnixMs startedAt endedAt
      httpStatus
      requestMethod := request.map (·.1)
      requestPath := request.map (·.2)
      bytesUp, bytesDown, error }
  match outcome with
  | .intercepted status method path up down =>
      build .abyssToProvider none none .stream .succeeded (some status) up down none (some (method, path))
  | .passthrough up down => build .abyssToProvider none none .stream .skipped none up down none none
  | .other => build .crossBoundary (some .localSide) (some .localRelay) .localRelay .failed none 0 0
      (some "unsupported transparent flow outcome".toList) none

/-- The code of a failure: a proxy that asks for authentication has its own. -/
def failureCode (proxyStatus : Option UInt16) (location : NetworkLocation) (outcome : NetworkOutcome)
    (failureClass : NetworkFailureClass) : Option NetworkErrorCode :=
  if proxyStatus = some 407 then some .upstreamProxyAuthRequired
  else NetworkErrorCode.fromObservation location.hop location.stage outcome (some failureClass) none

/-- Build an observation from a failed flow, whose error displays as `text`. -/
def fromError (error : TransparentFlowError) (text : Str) : NetworkObservation Uuid :=
  let location := NetworkLocation.ofFlow error
  let failureClass := NetworkFailureClass.ofFlow error
  let outcome := outcomeForError error
  let proxy : Option (TargetAuthority × Str × Option UInt16) := match error with
    | .upstreamProxy target endpoint source => some (target, endpoint, source.proxyStatus)
    | _ => none
  let proxyStatus := proxy.bind (·.2.2)
  { observationId, flowId
    observedAtUnixMs := endedAt
    ingressSource := ingress.sourceLabel
    destinationHost := (proxy.map (·.1.host.display)).or (normalizedOptionalString destinationHost)
    destinationAddr := none
    targetAuthority := ((proxy.map (·.1)).or ingress.proxyTarget).map TargetAuthority.display
    proxyEndpoint := (proxy.map (·.2.1)).or ingress.proxyEndpoint
    proxyPeer := ingress.upstreamProxy
    proxyStatus
    sourcePid := sourceProcess.bind (·.pid)
    sourceProcessName := sourceProcess.bind (fun source => normalizedOptionalString source.name)
    sourceExecutablePath := sourceProcess.bind (fun source => normalizedOptionalString source.executablePath)
    sourceBundleId := sourceProcess.bind (fun source => normalizedOptionalString source.applicationId)
    hop := location.hop
    direction := some location.direction
    operation := some location.operation
    stage := location.stage
    outcome
    failureClass := some failureClass
    technicalErrorCode := failureCode proxyStatus location outcome failureClass
    timing := NetworkTiming.fromUnixMs startedAt endedAt
    httpStatus := none
    requestMethod := none
    requestPath := none
    bytesUp := 0
    bytesDown := 0
    error := some (boundedErrorDetail text) }

/-- The socket address of a target that is an address. -/
def destinationAddrOf (target : TargetAuthority) : Option Str :=
  match target.host with
  | .ip _ => some target.display
  | .dns _ => none

/-- Build an observation from a next hop that could not be prepared, for a flow that gets its identifier here. -/
def fromIngressError (newFlowId : Uuid) (target : TargetAuthority) (endpoint : Str) (source : UpstreamProxyError)
    (text : Str) : NetworkObservation Uuid :=
  let location := NetworkLocation.ofUpstreamProxy source
  let failureClass := NetworkFailureClass.ofUpstreamProxy source
  { observationId
    flowId := some newFlowId
    observedAtUnixMs := endedAt
    ingressSource := "explicit_proxy".toList
    destinationHost := some target.host.display
    destinationAddr := destinationAddrOf target
    targetAuthority := some target.display
    proxyEndpoint := some endpoint
    proxyPeer := none
    proxyStatus := source.proxyStatus
    sourcePid := none
    sourceProcessName := none
    sourceExecutablePath := none
    sourceBundleId := none
    hop := .abyssToUpstreamProxy
    direction := some location.direction
    operation := some location.operation
    stage := location.stage
    outcome := .failed
    failureClass := some failureClass
    technicalErrorCode := failureCode source.proxyStatus location .failed failureClass
    timing := NetworkTiming.fromUnixMs startedAt endedAt
    httpStatus := none
    requestMethod := none
    requestPath := none
    bytesUp := 0
    bytesDown := 0
    error := some (text.take maxErrorDetailChars) }

end Build

/-- The observations that the broker inserts. The recorder of a flow sets the address of the destination. -/
inductive Built : NetworkObservation Uuid → Prop
  | outcome (observationId : Uuid) (flowId : Option Uuid) (ingress : FlowIngress) (destinationHost : Option Str)
      (sourceProcess : Option SourceProcess) (startedAt endedAt : UInt64) (outcome : TransparentFlowOutcome)
      (destinationAddr : Option Str) :
      Built { fromOutcome observationId flowId ingress destinationHost sourceProcess startedAt endedAt outcome with
        destinationAddr }
  | error (observationId : Uuid) (flowId : Option Uuid) (ingress : FlowIngress) (destinationHost : Option Str)
      (sourceProcess : Option SourceProcess) (startedAt endedAt : UInt64) (error : TransparentFlowError) (text : Str)
      (destinationAddr : Option Str) :
      Built { fromError observationId flowId ingress destinationHost sourceProcess startedAt endedAt error text with
        destinationAddr }
  | ingressError (observationId : Uuid) (startedAt endedAt : UInt64) (newFlowId : Uuid) (target : TargetAuthority)
      (endpoint : Str) (source : UpstreamProxyError) (text : Str) :
      Built (fromIngressError observationId startedAt endedAt newFlowId target endpoint source text)

/-- Without a code, the other fields have none either. -/
def Coded (observation : NetworkObservation Uuid) : Prop :=
  observation.technicalErrorCode = none →
    NetworkErrorCode.fromObservation observation.hop observation.stage observation.outcome observation.failureClass
      observation.httpStatus = none

theorem failureCode_isSome (proxyStatus : Option UInt16) (location : NetworkLocation) {outcome : NetworkOutcome}
    (failureClass : NetworkFailureClass) (h : outcome.passed = false) :
    (failureCode proxyStatus location outcome failureClass).isSome = true := by
  unfold failureCode
  split
  · rfl
  · exact NetworkErrorCode.fromObservation_failed _ _ _ _ h

theorem Built.coded {observation : NetworkObservation Uuid} (h : Built observation) : Coded observation := by
  intro hnone
  have habsurd : ∀ {proxyStatus : Option UInt16} {location : NetworkLocation} {outcome : NetworkOutcome}
      {failureClass : NetworkFailureClass}, outcome.passed = false →
      failureCode proxyStatus location outcome failureClass ≠ none := by
    intro proxyStatus location outcome failureClass hpassed hcode
    have hsome := failureCode_isSome proxyStatus location failureClass hpassed
    rw [hcode] at hsome
    cases hsome
  cases h with
  | outcome observationId flowId ingress destinationHost sourceProcess startedAt endedAt outcome =>
    cases outcome <;> exact hnone
  | error observationId flowId ingress destinationHost sourceProcess startedAt endedAt error text =>
    exact absurd hnone (habsurd (outcomeForError_passed error))
  | ingressError observationId startedAt endedAt newFlowId target endpoint source text => exact absurd hnone (habsurd rfl)

end NetworkObservation
end Abyss.Broker.NetworkDiagnostics
