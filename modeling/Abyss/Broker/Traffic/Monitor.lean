import Abyss.Data.Buckets
import Abyss.Data.HashMap
import Abyss.Text.Scalar
import Mathlib.Data.Char
import Mathlib.Data.List.Lex

/-! Live traffic telemetry: the flows that are active, the bytes of each recent second and the
totals since the start. -/
namespace Abyss.Broker.Traffic
open Abyss.Text Abyss.Data

def RATE_BUCKET_MS : Nat := 1000
def RATE_WINDOW_MS : Nat := 5000
def MAX_RATE_BUCKETS : Nat := 6
def MAX_VISIBLE_FLOWS : Nat := 24

/-- `u64::saturating_add`. -/
def saturatingAdd (a b : Nat) : Nat := addUpTo (2 ^ 64 - 1) a b

/-- `u64::saturating_mul`. -/
def saturatingMul (a b : Nat) : Nat := min (a * b) (2 ^ 64 - 1)

abbrev Uuid := Nat

inductive TrafficDirection where
  | clientToUpstream | upstreamToClient
  deriving DecidableEq, Repr

/-- A number for each direction. -/
structure Counts where
  upload : Nat
  download : Nat
  deriving DecidableEq, Repr

namespace Counts

def of (counts : Counts) : TrafficDirection → Nat
  | .clientToUpstream => counts.upload
  | .upstreamToClient => counts.download

/-- Bytes that are observed in one direction. -/
def observe (counts : Counts) (direction : TrafficDirection) (bytes : Nat) : Counts :=
  match direction with
  | .clientToUpstream => { counts with upload := saturatingAdd counts.upload bytes }
  | .upstreamToClient => { counts with download := saturatingAdd counts.download bytes }

end Counts

structure TrafficFlowMetadata where
  host : Str
  process : Option Str
  pid : Option UInt32
  applicationId : Option Str

structure ActiveFlow where
  metadata : TrafficFlowMetadata
  bytes : Counts

structure RateBucket where
  startMs : Nat
  bytes : Counts
  deriving DecidableEq, Repr

structure TrafficState where
  flows : HashMap Uuid ActiveFlow
  buckets : List RateBucket
  totals : Counts

/-- `TrafficMonitor::new`. -/
def TrafficState.new : TrafficState := ⟨∅, [], ⟨0, 0⟩⟩

section Buckets

/-- The loop that pops buckets while there are too many. -/
def popExcess : List RateBucket → List RateBucket
  | [] => []
  | bucket :: buckets => if (bucket :: buckets).length > MAX_RATE_BUCKETS then popExcess buckets else bucket :: buckets

def bucketStart (now : Nat) : Nat := now - now % RATE_BUCKET_MS

/-- Whether the last bucket is not the one of the current second. -/
def needsBucket (now : Nat) (buckets : List RateBucket) : Bool :=
  buckets.getLast?.all (fun bucket => bucket.startMs ≠ bucketStart now)

/-- The buckets whose last one is that of the current second. -/
def ensureBucket (now : Nat) (buckets : List RateBucket) : List RateBucket :=
  popExcess (if needsBucket now buckets then buckets ++ [⟨bucketStart now, ⟨0, 0⟩⟩] else buckets)

/-- What is done through the reference to the last bucket. -/
def updateLast (update : RateBucket → RateBucket) : List RateBucket → List RateBucket
  | [] => []
  | [bucket] => [update bucket]
  | bucket :: next :: buckets => bucket :: updateLast update (next :: buckets)

def windowCutoff (now : Nat) : Nat := now - RATE_WINDOW_MS

/-- Whether a bucket with this start is in the window that ends now. -/
def inWindow (now startMs : Nat) : Bool := windowCutoff now ≤ saturatingAdd startMs RATE_BUCKET_MS

def pruneBuckets (now : Nat) (buckets : List RateBucket) : List RateBucket :=
  buckets.dropWhile (fun bucket => saturatingAdd bucket.startMs RATE_BUCKET_MS < windowCutoff now)

def recentBytes (now : Nat) (buckets : List RateBucket) : Counts :=
  (buckets.filter (fun bucket => inWindow now bucket.startMs)).foldl
    (fun counts bucket => ⟨saturatingAdd counts.upload bucket.bytes.upload,
      saturatingAdd counts.download bucket.bytes.download⟩) ⟨0, 0⟩

def rateElapsedMs (now : Nat) (buckets : List RateBucket) : Nat :=
  match buckets.head? with
  | none => RATE_BUCKET_MS
  | some bucket => max RATE_BUCKET_MS (min (saturatingAdd (now - bucket.startMs) RATE_BUCKET_MS) RATE_WINDOW_MS)

def bytesPerSecond (bytes elapsedMs : Nat) : Nat := saturatingMul bytes 1000 / max elapsedMs 1

end Buckets

section Monitor

def startFlow (id : Uuid) (metadata : TrafficFlowMetadata) (state : TrafficState) : TrafficState :=
  { state with flows := state.flows.insert id ⟨metadata, ⟨0, 0⟩⟩ }

def finishFlow (id : Uuid) (state : TrafficState) : TrafficState := { state with flows := state.flows.erase id }

def recordBytes (now : Nat) (id : Uuid) (direction : TrafficDirection) (bytes : UInt64) (state : TrafficState) :
    TrafficState :=
  match state.flows.lookup id with
  | none => state
  | some flow =>
    { flows := state.flows.insert id { flow with bytes := flow.bytes.observe direction bytes.toNat }
      totals := state.totals.observe direction bytes.toNat
      buckets := updateLast (fun bucket => { bucket with bytes := bucket.bytes.observe direction bytes.toNat })
        (ensureBucket now state.buckets) }

structure ActiveFlowSnapshot where
  id : Uuid
  metadata : TrafficFlowMetadata
  bytes : Counts

structure TrafficSnapshot where
  sampledAtUnixMs : Nat
  bytesPerSecond : Counts
  totalBytes : Counts
  activeFlows : List ActiveFlowSnapshot

/-- Flows with more bytes come first, then by host. -/
def listedBefore (left right : ActiveFlowSnapshot) : Bool :=
  let leftTotal := saturatingAdd left.bytes.upload left.bytes.download
  let rightTotal := saturatingAdd right.bytes.upload right.bytes.download
  rightTotal < leftTotal || (leftTotal = rightTotal && decide (left.metadata.host ≤ right.metadata.host))

def activeFlows (flows : HashMap Uuid ActiveFlow) : List ActiveFlowSnapshot :=
  ((flows.entries.map (fun entry => ⟨entry.1, entry.2.metadata, entry.2.bytes⟩)).mergeSort listedBefore).take
    MAX_VISIBLE_FLOWS

/-- What a snapshot reports at a state whose buckets are pruned. -/
def report (now : Nat) (state : TrafficState) : TrafficSnapshot :=
  let recent := recentBytes now state.buckets
  let elapsedMs := rateElapsedMs now state.buckets
  ⟨now, ⟨bytesPerSecond recent.upload elapsedMs, bytesPerSecond recent.download elapsedMs⟩, state.totals,
    activeFlows state.flows⟩

def snapshot (now : Nat) (state : TrafficState) : TrafficSnapshot × TrafficState :=
  let state := { state with buckets := pruneBuckets now state.buckets }
  (report now state, state)

/-- One use of the monitor, with the reading of the clock that it makes. -/
inductive Operation where
  | startFlow (id : Uuid) (metadata : TrafficFlowMetadata)
  | recordBytes (now : Nat) (id : Uuid) (direction : TrafficDirection) (bytes : UInt64)
  | finishFlow (id : Uuid)
  | snapshot (now : Nat)

def Operation.reading : Operation → Option Nat
  | .startFlow _ _ => none
  | .recordBytes now _ _ _ => some now
  | .finishFlow _ => none
  | .snapshot now => some now

def apply (state : TrafficState) : Operation → TrafficState
  | .startFlow id metadata => startFlow id metadata state
  | .recordBytes now id direction bytes => recordBytes now id direction bytes state
  | .finishFlow id => finishFlow id state
  | .snapshot now => (snapshot now state).2

def run (operations : List Operation) : TrafficState := operations.foldl apply .new

end Monitor
end Abyss.Broker.Traffic
