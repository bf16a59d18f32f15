import Mathlib.Data.Char
import Mathlib.Data.List.Lex
import Mathlib.Data.Prod.Lex
import Abyss.Broker.NetworkDiagnostics.Observation
import Abyss.Data.Retention
import Abyss.System.Machine

/-! The durable observations: their rows, and the transactions that insert and prune them. -/
namespace Abyss.Broker.NetworkDiagnostics
open Abyss.Text Abyss.Mitm Abyss.Data

section Rows

inductive NetworkObservationStoreError where
  | storage
  | invalidValue (field : String) (value : Str)
  | integerOutOfRange (field : String)
  deriving DecidableEq, Repr

/-- The columns of `network_observations`; an integer of the database is signed. -/
structure NetworkObservationRow where
  observationId : Str
  flowId : Option Str
  observedAtUnixMs : Int
  ingressSource : Str
  destinationHost : Option Str
  destinationAddr : Option Str
  targetAuthority : Option Str
  proxyEndpoint : Option Str
  proxyPeer : Option Str
  proxyStatus : Option Int
  sourcePid : Option Int
  sourceProcessName : Option Str
  sourceExecutablePath : Option Str
  sourceBundleId : Option Str
  hop : String
  direction : Option String
  operation : Option String
  stage : String
  outcome : String
  failureClass : Option String
  technicalErrorCode : Option String
  startedAtUnixMs : Int
  endedAtUnixMs : Int
  elapsedMs : Int
  httpStatus : Option Int
  requestMethod : Option Str
  requestPath : Option Str
  bytesUp : Int
  bytesDown : Int
  error : Option Str
  deriving DecidableEq, Repr

/-- `Uuid::to_string` and `Uuid::parse_str`. -/
structure UuidFormat (Uuid : Type) where
  text : Uuid → Str
  parse : Str → Option Uuid
  parse_text : ∀ id, parse (text id) = some id

def sqliteInteger (value : UInt64) (field : String) : Except NetworkObservationStoreError Int :=
  if value.toNat < 2 ^ 63 then .ok value.toNat else .error (.integerOutOfRange field)

def nonNegativeInteger (value : Int) (field : String) : Except NetworkObservationStoreError UInt64 :=
  if 0 ≤ value then .ok (.ofNat value.toNat) else .error (.invalidValue field (toString value).toList)

/-- `u16::try_from`. -/
def u16TryFrom (value : Int) : Option UInt16 := if 0 ≤ value ∧ value < 2 ^ 16 then some (.ofNat value.toNat) else none

def statusInteger (value : Int) (field : String) : Except NetworkObservationStoreError UInt16 :=
  match u16TryFrom value with
  | some status => .ok status
  | none => .error (.invalidValue field (toString value).toList)

/-- The two conversions of `source_pid`. -/
def pidInteger (value : Int) : Except NetworkObservationStoreError UInt32 := do
  let value ← nonNegativeInteger value "source_pid"
  if value.toNat < 2 ^ 32 then .ok value.toUInt32 else .error (.invalidValue "source_pid" (toString value.toNat).toList)

def parseEnum {α : Type} (value : String) (field : String) (parser : String → Option α) :
    Except NetworkObservationStoreError α :=
  match parser value with
  | some label => .ok label
  | none => .error (.invalidValue field value.toList)

variable {Uuid : Type} (format : UuidFormat Uuid)

def parseUuid (value : Str) (field : String) : Except NetworkObservationStoreError Uuid :=
  match format.parse value with
  | some id => .ok id
  | none => .error (.invalidValue field value)

/-- `NewNetworkObservationRow::try_from`. -/
def NetworkObservationRow.tryFrom (observation : NetworkObservation Uuid) :
    Except NetworkObservationStoreError NetworkObservationRow := do
  .ok {
    observationId := format.text observation.observationId
    flowId := observation.flowId.map format.text
    observedAtUnixMs := ← sqliteInteger observation.observedAtUnixMs "observed_at"
    ingressSource := observation.ingressSource
    destinationHost := observation.destinationHost
    destinationAddr := observation.destinationAddr
    targetAuthority := observation.targetAuthority
    proxyEndpoint := observation.proxyEndpoint
    proxyPeer := observation.proxyPeer
    proxyStatus := observation.proxyStatus.map (·.toNat)
    sourcePid := ← observation.sourcePid.mapM (fun value => sqliteInteger value.toUInt64 "source_pid")
    sourceProcessName := observation.sourceProcessName
    sourceExecutablePath := observation.sourceExecutablePath
    sourceBundleId := observation.sourceBundleId
    hop := observation.hop.asStr
    direction := observation.direction.map NetworkDirection.asStr
    operation := observation.operation.map FlowOperation.asStr
    stage := observation.stage.asStr
    outcome := observation.outcome.asStr
    failureClass := observation.failureClass.map NetworkFailureClass.asStr
    technicalErrorCode := observation.technicalErrorCode.map NetworkErrorCode.asStr
    startedAtUnixMs := ← sqliteInteger observation.timing.startedAt "started_at"
    endedAtUnixMs := ← sqliteInteger observation.timing.endedAt "ended_at"
    elapsedMs := ← sqliteInteger observation.timing.elapsedMs "elapsed_ms"
    httpStatus := observation.httpStatus.map (·.toNat)
    requestMethod := observation.requestMethod
    requestPath := observation.requestPath
    bytesUp := ← sqliteInteger observation.bytesUp "bytes_up"
    bytesDown := ← sqliteInteger observation.bytesDown "bytes_down"
    error := observation.error }

/-- The code of a row without one, from its other columns. -/
def NetworkObservationRow.derivedCode (row : NetworkObservationRow) : Option NetworkErrorCode := do
  NetworkErrorCode.fromObservation (← NetworkHop.parse row.hop) (← NetworkStage.parse row.stage)
    (← NetworkOutcome.parse row.outcome) (row.failureClass.bind NetworkFailureClass.parse) (row.httpStatus.bind u16TryFrom)

/-- `NetworkObservation::try_from`. -/
def NetworkObservation.tryFrom (row : NetworkObservationRow) : Except NetworkObservationStoreError (NetworkObservation Uuid) := do
  .ok {
    observationId := ← parseUuid format row.observationId "observation_id"
    flowId := ← row.flowId.mapM (parseUuid format · "flow_id")
    observedAtUnixMs := ← nonNegativeInteger row.observedAtUnixMs "observed_at_unix_ms"
    ingressSource := row.ingressSource
    destinationHost := row.destinationHost
    destinationAddr := row.destinationAddr
    targetAuthority := row.targetAuthority
    proxyEndpoint := row.proxyEndpoint
    proxyPeer := row.proxyPeer
    proxyStatus := ← row.proxyStatus.mapM (statusInteger · "proxy_status")
    sourcePid := ← row.sourcePid.mapM pidInteger
    sourceProcessName := row.sourceProcessName
    sourceExecutablePath := row.sourceExecutablePath
    sourceBundleId := row.sourceBundleId
    hop := ← parseEnum row.hop "hop" NetworkHop.parse
    direction := ← row.direction.mapM (parseEnum · "direction" NetworkDirection.parse)
    operation := ← row.operation.mapM (parseEnum · "operation" FlowOperation.parse)
    stage := ← parseEnum row.stage "stage" NetworkStage.parse
    outcome := ← parseEnum row.outcome "outcome" NetworkOutcome.parse
    failureClass := ← row.failureClass.mapM (parseEnum · "failure_class" NetworkFailureClass.parse)
    technicalErrorCode :=
      (← row.technicalErrorCode.mapM (parseEnum · "technical_error_code" NetworkErrorCode.parse)).or row.derivedCode
    timing := ⟨← nonNegativeInteger row.startedAtUnixMs "started_at_unix_ms",
      ← nonNegativeInteger row.endedAtUnixMs "ended_at_unix_ms", ← nonNegativeInteger row.elapsedMs "elapsed_ms"⟩
    httpStatus := ← row.httpStatus.mapM (statusInteger · "http_status")
    requestMethod := row.requestMethod
    requestPath := row.requestPath
    bytesUp := ← nonNegativeInteger row.bytesUp "bytes_up"
    bytesDown := ← nonNegativeInteger row.bytesDown "bytes_down"
    error := row.error }

end Rows

section Store
variable {Uuid : Type} (format : UuidFormat Uuid)

def maxPersistedObservations : Nat := 10000

/-- What the pruning orders rows by. -/
def NetworkObservationRow.key (row : NetworkObservationRow) : Int ×ₗ Str := toLex (row.observedAtUnixMs, row.observationId)

/-- A `SELECT` of all rows with `ORDER BY observed_at_unix_ms DESC`, which leaves open how the rows of one time are ordered. -/
structure SelectOrder where
  order : List NetworkObservationRow → List NetworkObservationRow
  perm : ∀ rows, (order rows).Perm rows
  sorted : ∀ rows, (order rows).Pairwise (fun a b => b.observedAtUnixMs ≤ a.observedAtUnixMs)

/-- The table, in the order of its inserts. The list at the end records the past: the observations that were inserted. -/
structure NetworkObservationStore (Uuid : Type) where
  rows : List NetworkObservationRow
  inserted : List (NetworkObservation Uuid)

/-- `prune_observations`. -/
def pruneObservations (rows : List NetworkObservationRow) (retainedRows : Nat) : List NetworkObservationRow :=
  let retainedIds := ((descending NetworkObservationRow.key rows).take retainedRows).map (·.observationId)
  rows.filter (fun row => row.observationId ∈ retainedIds)

namespace NetworkObservationStore
variable (store : NetworkObservationStore Uuid)

def initial : NetworkObservationStore Uuid := ⟨[], []⟩

/-- Persist one completed observation, in a transaction that may fail. -/
def insert (observation : NetworkObservation Uuid) (commits : Bool) :
    Except NetworkObservationStoreError Unit × NetworkObservationStore Uuid :=
  match NetworkObservationRow.tryFrom format observation with
  | .error e => (.error e, store)
  | .ok row =>
    if commits ∧ row.observationId ∉ store.rows.map (·.observationId) then
      (.ok (), ⟨pruneObservations (store.rows ++ [row]) maxPersistedObservations, store.inserted ++ [observation]⟩)
    else (.error .storage, store)

/-- The newest observations first, bounded by the caller's limit. -/
def latest (select : SelectOrder) (limit : Nat) : Except NetworkObservationStoreError (List (NetworkObservation Uuid)) :=
  if limit < 2 ^ 63 then ((select.order store.rows).take limit).mapM (NetworkObservation.tryFrom format)
  else .error (.integerOutOfRange "limit")

/-- A transaction of one of the inserters. -/
structure Action (Uuid : Type) where
  observation : NetworkObservation Uuid
  commits : Bool

def step (action : Action Uuid) : Option (NetworkObservationStore Uuid) :=
  some (store.insert format action.observation action.commits).2

end NetworkObservationStore

end Store
end Abyss.Broker.NetworkDiagnostics
