import Abyss.Mitm.Explicit.Target

/-! TLS decryption policy. Ordered rules over the source process and the destination
host decide whether a connection is decrypted or relayed as it is. -/
namespace Abyss.Mitm.Tls
open Abyss.Text Abyss.Mitm.Explicit

inductive TlsDecryptionAction where
  | intercept
  | passthrough
  deriving DecidableEq, Repr

/-- Dimensions of a rule are combined with AND, values inside one dimension with OR. -/
structure TlsDecryptionRule where
  id : Str
  enabled : Bool
  action : TlsDecryptionAction
  processNames : List Str
  applicationIds : List Str
  processEntryPoints : List Str
  destinationHosts : List Str
  deriving DecidableEq, Repr

structure TlsDecryptionPolicy where
  defaultAction : TlsDecryptionAction
  missingSniAction : Option TlsDecryptionAction
  rules : List TlsDecryptionRule
  deriving DecidableEq, Repr

/-- The attributes of a source process that rules select on. -/
structure SourceProcess where
  name : Option Str
  applicationId : Option Str
  entryPoint : Option Str
  deriving DecidableEq, Repr

/-- What the build target decides: how source selectors and paths are compared. -/
structure Platform where
  selectorValueMatches : Str → Str → Bool
  isAbsolute : Str → Bool
  samePath : Str → Str → Bool

/-- The components of a Unix path; separators and `.` count only at the front. -/
def unixComponents (path : Str) : List Str :=
  let parts := path.splitOn '/'
  let names := parts.filter (fun part => part ≠ [] ∧ part ≠ ['.'])
  if path.head? = some '/' then ['/'] :: names
  else if parts.head? = some ['.'] then ['.'] :: names
  else names

def Platform.unix : Platform where
  selectorValueMatches selector candidate := selector == candidate
  isAbsolute path := path.head? == some '/'
  samePath left right := unixComponents left == unixComponents right

/-- Windows compares names and identities without case. -/
def Platform.windows (isAbsolute : Str → Bool) (samePath : Str → Str → Bool) : Platform :=
  ⟨eqIgnoreAsciiCase, isAbsolute, samePath⟩

inductive TlsDecryptionDecision where
  | intercept (matchedRuleId : Option Str)
  | passthrough (matchedRuleId : Option Str)
  deriving DecidableEq, Repr

def decisionForAction (matchedRuleId : Option Str) : TlsDecryptionAction → TlsDecryptionDecision
  | .intercept => .intercept matchedRuleId
  | .passthrough => .passthrough matchedRuleId

def TlsDecryptionDecision.action : TlsDecryptionDecision → TlsDecryptionAction
  | .intercept _ => .intercept
  | .passthrough _ => .passthrough

/-- A host name without port, surrounding whitespace and trailing dots, in lower case. -/
def normalizeHost (host : Str) : Option Str :=
  let normalized := toAsciiLowercase (trimEndMatches (trim ((host.splitOn ':').head?.getD host)) '.')
  if normalized = [] then none else some normalized

/-- `server_name` is one nonempty label before the suffix. -/
def wildcardMatches (suffix serverName : Str) : Bool :=
  decide (suffix <:+ serverName) && (stripBack suffix serverName).any (fun front =>
    (stripBack ['.'] front).any (fun label => !label.isEmpty && !label.contains '.'))

def hostPatternMatches (pattern serverName : Str) : Bool :=
  match normalizeHost pattern with
  | none => false
  | some pattern =>
    match stripFront "*.".toList pattern with
    | some suffix => wildcardMatches suffix serverName
    | none => pattern == serverName

/-- An empty dimension is unconstrained; a missing attribute satisfies no other. -/
def dimensionMatches (matchesValue : Str → Str → Bool) (selectors : List Str) (candidate : Option Str) : Bool :=
  selectors.isEmpty || candidate.any (fun candidate => selectors.any (matchesValue · candidate))

section Evaluation
variable (platform : Platform)

def selectorMatches : List Str → Option Str → Bool := dimensionMatches platform.selectorValueMatches

def entryPointSelectorMatches : List Str → Option Str → Bool := dimensionMatches platform.samePath

def destinationSelectorMatches : List Str → Option Str → Bool := dimensionMatches hostPatternMatches

def TlsDecryptionRule.matches (rule : TlsDecryptionRule) (destinationDomain : Option Str)
    (sourceProcess : Option SourceProcess) : Bool :=
  selectorMatches platform rule.processNames (sourceProcess.bind SourceProcess.name) &&
    selectorMatches platform rule.applicationIds (sourceProcess.bind SourceProcess.applicationId) &&
    entryPointSelectorMatches platform rule.processEntryPoints (sourceProcess.bind SourceProcess.entryPoint) &&
    destinationSelectorMatches rule.destinationHosts destinationDomain

namespace TlsDecryptionPolicy
variable (policy : TlsDecryptionPolicy)

def requiresSniPeek : Bool :=
  policy.missingSniAction.isSome || !policy.rules.isEmpty || policy.defaultAction == .passthrough

/-- The action of a flow that no rule selects. -/
def fallbackAction (destinationDomain : Option Str) : TlsDecryptionAction :=
  if destinationDomain.isNone then policy.missingSniAction.getD policy.defaultAction else policy.defaultAction

def decide (destinationDomain : Option Str) (sourceProcess : Option SourceProcess) : TlsDecryptionDecision :=
  let destinationDomain := destinationDomain.bind normalizeHost
  match policy.rules.find? (fun rule => rule.enabled && rule.matches platform destinationDomain sourceProcess) with
  | some rule => decisionForAction (some rule.id) rule.action
  | none => decisionForAction none (policy.fallbackAction destinationDomain)

end TlsDecryptionPolicy
end Evaluation

inductive TlsDecryptionPolicyError where
  | emptyRuleId
  | emptySelectors (ruleId : Str)
  | emptyProcessName (ruleId : Str)
  | emptyApplicationId (ruleId : Str)
  | invalidProcessEntryPoint (ruleId entryPoint : Str)
  | invalidHostPattern (ruleId pattern : Str) (reason : String)
  deriving DecidableEq, Repr

def validateHostPattern (pattern : Str) : Except String Unit :=
  match normalizeHost pattern with
  | none => .error "host pattern is empty"
  | some normalized =>
    let suffix := stripFront "*.".toList normalized
    if normalized.contains '*' && suffix.isNone then
      .error "wildcards are only supported as a leading `*.` suffix match"
    else if normalized = "*.".toList then .error "wildcard suffix is empty"
    else if [] ∈ (suffix.getD normalized).splitOn '.' then .error "host contains an empty label"
    else .ok ()

def validateEntryPoints (platform : Platform) (ruleId : Str) : List Str → Except TlsDecryptionPolicyError Unit
  | [] => .ok ()
  | entryPoint :: rest =>
    if platform.isAbsolute entryPoint then validateEntryPoints platform ruleId rest
    else .error (.invalidProcessEntryPoint ruleId entryPoint)

def validateHostPatterns (ruleId : Str) : List Str → Except TlsDecryptionPolicyError Unit
  | [] => .ok ()
  | pattern :: rest =>
    match validateHostPattern pattern with
    | .error reason => .error (.invalidHostPattern ruleId pattern reason)
    | .ok () => validateHostPatterns ruleId rest

def validateRule (platform : Platform) (rule : TlsDecryptionRule) : Except TlsDecryptionPolicyError Unit :=
  if trim rule.id = [] then .error .emptyRuleId
  else if rule.processNames = [] ∧ rule.applicationIds = [] ∧ rule.processEntryPoints = [] ∧
      rule.destinationHosts = [] then .error (.emptySelectors rule.id)
  else if rule.processNames.any (fun name => trim name == []) then .error (.emptyProcessName rule.id)
  else if rule.applicationIds.any (fun applicationId => trim applicationId == []) then
    .error (.emptyApplicationId rule.id)
  else do
    validateEntryPoints platform rule.id rule.processEntryPoints
    validateHostPatterns rule.id rule.destinationHosts

def TlsDecryptionPolicy.validate (platform : Platform) (policy : TlsDecryptionPolicy) :
    Except TlsDecryptionPolicyError Unit := policy.rules.forM (validateRule platform)

/-- A policy that can be published to the engine. -/
structure ValidatedTlsDecryptionPolicy (platform : Platform) where
  policy : TlsDecryptionPolicy
  valid : policy.validate platform = .ok ()

def ValidatedTlsDecryptionPolicy.new (platform : Platform) (policy : TlsDecryptionPolicy) :
    Except TlsDecryptionPolicyError (ValidatedTlsDecryptionPolicy platform) :=
  match h : policy.validate platform with
  | .error e => .error e
  | .ok () => .ok ⟨policy, h⟩

/-- How a flow entered the proxy. -/
inductive FlowIngress where
  | transparent
  | explicitProxy (target : TargetAuthority)
  deriving DecidableEq, Repr

def FlowIngress.requiresTlsServerNameValidation : FlowIngress → Bool
  | .explicitProxy ⟨.dns _, _, _⟩ => true
  | _ => false

/-- The SNI of a tunnel to a DNS name must be that name. -/
def FlowIngress.validateTlsServerName (serverName : Option Str) : FlowIngress → Except TransparentFlowError Unit
  | .explicitProxy ⟨.dns targetName, port, h⟩ =>
    match serverName with
    | none => .error .missingSni
    | some serverName =>
      if eqIgnoreAsciiCase (trimEndMatches targetName '.') (trimEndMatches serverName '.') then .ok ()
      else .error (.proxyTargetServerNameMismatch (TargetAuthority.display ⟨.dns targetName, port, h⟩) serverName)
  | _ => .ok ()

/-- A detected TLS flow. `clientHello` is what inspecting the stream yields: the SNI, or the reason it cannot be read. -/
structure TlsFlow where
  clientHello : Except TransparentFlowError (Option Str)
  destinationHost : Option Str
  sourceProcess : Option SourceProcess
  ingress : FlowIngress

def policyTargetDomain (serverName platformDestinationHost : Option Str) : Option Str :=
  serverName.or platformDestinationHost

/-- The lower-level path a flow is handed to: `TlsHttpFlow` terminates client TLS, `TlsPassthroughFlow` does not. -/
inductive TlsRoute where
  | tlsHttp
  | passthrough
  deriving DecidableEq, Repr

def routeForAction : TlsDecryptionAction → TlsRoute
  | .intercept => .tlsHttp
  | .passthrough => .passthrough

def TlsFlow.handle (platform : Platform) (policy : TlsDecryptionPolicy) (flow : TlsFlow) :
    Except TransparentFlowError TlsRoute :=
  if !policy.requiresSniPeek && !flow.ingress.requiresTlsServerNameValidation then .ok .tlsHttp else do
    let serverName ← flow.clientHello
    flow.ingress.validateTlsServerName serverName
    let decision := policy.decide platform (policyTargetDomain serverName flow.destinationHost) flow.sourceProcess
    return routeForAction decision.action

end Abyss.Mitm.Tls
