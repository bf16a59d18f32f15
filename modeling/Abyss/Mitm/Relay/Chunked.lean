import Abyss.Mitm.Relay.Capture
import Abyss.Stream.Incremental
import Abyss.Stream.Marker

/-! The push parser for chunked bodies. It validates the framing of every read
before the caller writes that read to the peer. -/
namespace Abyss.Mitm.Relay
open Abyss.Stream

/-- `httparse::parse_chunk_size`: the index where parsing stopped and a 64-bit size. -/
structure ChunkSizeParser extends Incremental UInt8 Nat Unit where
  size_lt {l : Bytes} {size n : Nat} : run l = .complete size n → size < u64Bound

/-- Positions inside a size line that has no extension. -/
inductive PlainSizeScan where
  | start
  | digits (value : Nat)
  | carriageReturn (value : Nat)

def hexDigit (b : UInt8) : Option Nat :=
  if 48 ≤ b ∧ b ≤ 57 then some (b.toNat - 48)
  else if 65 ≤ b ∧ b ≤ 70 then some (b.toNat - 55)
  else if 97 ≤ b ∧ b ≤ 102 then some (b.toNat - 87)
  else none

def PlainSizeScan.value : PlainSizeScan → Nat
  | .start => 0
  | .digits value => value
  | .carriageReturn value => value

def PlainSizeScan.step (s : PlainSizeScan) (b : UInt8) : Scan PlainSizeScan Nat Unit :=
  match s with
  | .carriageReturn value => if b = 10 then .done value else .bad ()
  | _ => match hexDigit b with
    | some d => if 16 * s.value + d < u64Bound then .next (.digits (16 * s.value + d)) else .bad ()
    | none => match s with
      | .digits value => if b = 13 then .next (.carriageReturn value) else .bad ()
      | _ => .bad ()

theorem PlainSizeScan.step_value {s s' : PlainSizeScan} {b : UInt8} (hs : s.value < u64Bound)
    (h : s.step b = .next s') : s'.value < u64Bound := by
  cases s <;> simp only [step] at h <;> split at h
  all_goals first
    | cases h
    | (split at h <;> cases h; assumption)

theorem PlainSizeScan.scan_lt {s : PlainSizeScan} {l : Bytes} {size n : Nat} (hs : s.value < u64Bound)
    (h : scan PlainSizeScan.step s l = .complete size n) : size < u64Bound := by
  induction l generalizing s n with
  | nil => cases h
  | cons b rest ih =>
    rw [scan] at h
    cases hb : s.step b with
    | next s' =>
      cases hr : scan PlainSizeScan.step s' rest <;> simp only [hb, hr, Answer.shift] at h <;> cases h
      exact ih (step_value hs hb) hr
    | done v =>
      simp only [hb] at h
      cases h
      cases s <;> simp only [step] at hb <;> split at hb
      all_goals first
        | (cases hb; assumption)
        | cases hb
        | (split at hb <;> cases hb)
    | bad e => simp [hb] at h

/-- The size parser restricted to lines without extensions or padding. -/
def plainSizeParser : ChunkSizeParser where
  toIncremental := Incremental.ofScan PlainSizeScan.step .start
  size_lt h := PlainSizeScan.scan_lt (by decide) h

inductive ChunkedParseState where
  | size
  | data (remaining : Nat)
  | dataTerminator
  | trailers
  deriving DecidableEq, Repr

structure ChunkedBodyCapture where
  state : ChunkedParseState
  pending : Bytes
  body : Bytes
  captureBody : Bool
  forwardedBytes : Nat
  direction : BodyDirection
  deriving DecidableEq, Repr

namespace ChunkedBodyCapture

def new (direction : BodyDirection) : ChunkedBodyCapture := ⟨.size, [], [], true, 0, direction⟩

def finish (c : ChunkedBodyCapture) (maxBodyBytes : Nat) : BodyCapture :=
  ⟨capturedBody c.body c.captureBody maxBodyBytes, c.forwardedBytes, none⟩

/-- Where one turn of the parsing loop leads. -/
inductive Turn where
  | again (next : ChunkedBodyCapture)
  | wait
  | finished (next : ChunkedBodyCapture)
  | failed (error : TransparentFlowError)

/-- Drop a complete trailer section and reject bytes behind it. -/
def close (c : ChunkedBodyCapture) (trailerEnd : Nat) : Turn :=
  if c.pending.drop trailerEnd = [] then .finished { c with pending := c.pending.drop trailerEnd }
  else .failed (pipelinedError c.direction)

/-- One turn of the loop of `feed`. -/
def turn (parser : ChunkSizeParser) (maxBodyBytes : Nat) (c : ChunkedBodyCapture) : Turn :=
  match c.state with
  | .size =>
    match parser.run c.pending with
    | .incomplete =>
      if maxHttp1HeaderBytes < c.pending.length then .failed (bodyError c.direction .headerTooLarge)
      else .wait
    | .invalid _ => .failed (bodyError c.direction (.invalidBody "invalid chunk size"))
    | .complete chunkSize sizeLineLen =>
      if maxHttp1HeaderBytes < sizeLineLen then .failed (bodyError c.direction .headerTooLarge)
      else if u64Bound ≤ chunkSize then .failed (bodyError c.direction (.bodyTooLarge maxBodyBytes))
      else .again { c with
        pending := c.pending.drop sizeLineLen
        state := if chunkSize = 0 then .trailers else .data chunkSize }
  | .data remaining =>
    if c.pending = [] then .wait else
    let payload := c.pending.take (min remaining c.pending.length)
    let captured := appendBodyForCapture c.body c.captureBody payload maxBodyBytes
    match checkedSub remaining (min remaining c.pending.length) with
    | .error e => .failed e
    | .ok left => .again { c with
        body := captured.1
        captureBody := captured.2
        pending := c.pending.drop (min remaining c.pending.length)
        state := if left = 0 then .dataTerminator else .data left }
  | .dataTerminator =>
    if c.pending.length < 2 then .wait
    else if c.pending.take 2 ≠ crlf then
      .failed (bodyError c.direction (.invalidBody "chunk data missing terminator"))
    else .again { c with pending := c.pending.drop 2, state := .size }
  | .trailers =>
    if c.pending.length < 2 then .wait
    else if c.pending.take 2 = crlf then c.close 2
    else if maxHttp1HeaderBytes < c.pending.length then .failed (bodyError c.direction .headerTooLarge)
    else match findMarker (crlf ++ crlf) c.pending with
      | none => .wait
      | some relativeEnd => c.close (relativeEnd + 4)

/-- The three ways a turn can loop again. -/
theorem turn_again {parser : ChunkSizeParser} {maxBodyBytes : Nat} {c next : ChunkedBodyCapture}
    (h : c.turn parser maxBodyBytes = .again next) :
    (∃ size n, c.state = .size ∧ parser.run c.pending = .complete size n ∧ n ≤ maxHttp1HeaderBytes ∧
      next = { c with pending := c.pending.drop n, state := if size = 0 then .trailers else .data size }) ∨
    (∃ remaining n, c.state = .data remaining ∧ c.pending ≠ [] ∧ n = min remaining c.pending.length ∧
      next = { c with
        body := (appendBodyForCapture c.body c.captureBody (c.pending.take n) maxBodyBytes).1
        captureBody := (appendBodyForCapture c.body c.captureBody (c.pending.take n) maxBodyBytes).2
        pending := c.pending.drop n
        state := if remaining - n = 0 then .dataTerminator else .data (remaining - n) }) ∨
    (c.state = .dataTerminator ∧ c.pending.take 2 = crlf ∧
      next = { c with pending := c.pending.drop 2, state := .size }) := by
  unfold turn at h
  split at h
  · next hs =>
    split at h
    · split at h <;> cases h
    · cases h
    · next size n hrun =>
      split at h
      · cases h
      · next hn =>
        split at h
        · cases h
        · cases h
          exact .inl ⟨size, n, hs, hrun, Nat.le_of_not_lt hn, rfl⟩
  · next remaining hs =>
    split at h
    · cases h
    · next hp =>
      simp only [checkedSub_of_le (Nat.min_le_left remaining c.pending.length)] at h
      cases h
      exact .inr (.inl ⟨remaining, _, hs, hp, rfl, rfl⟩)
  · next hs =>
    split at h
    · cases h
    · split at h
      · cases h
      · next ht =>
        cases h
        exact .inr (.inr ⟨hs, not_not.mp ht, rfl⟩)
  · split at h
    · cases h
    · split at h
      · simp only [close] at h
        split at h <;> cases h
      · split at h
        · cases h
        · split at h
          · cases h
          · simp only [close] at h
            split at h <;> cases h

/-- Every turn that loops again has consumed bytes or moved to a later state. -/
def effort (c : ChunkedBodyCapture) : Nat :=
  4 * c.pending.length + match c.state with
    | .size => 3
    | .data _ => 2
    | .dataTerminator => 1
    | .trailers => 0

theorem turn_again_effort {parser : ChunkSizeParser} {maxBodyBytes : Nat} {c next : ChunkedBodyCapture}
    (h : c.turn parser maxBodyBytes = .again next) : next.effort < c.effort := by
  obtain ⟨size, n, hs, -, -, rfl⟩ | ⟨remaining, n, hs, hp, hn, rfl⟩ | ⟨hs, ht, rfl⟩ := turn_again h
  · have hd : (c.pending.drop n).length ≤ c.pending.length := by simp
    simp only [effort, hs]
    split <;> split at * <;> simp_all <;> omega
  · have hpos := List.length_pos_of_ne_nil hp
    have hd : (c.pending.drop n).length = c.pending.length - n := List.length_drop
    simp only [effort, hs]
    split <;> split at * <;> simp_all <;> omega
  · have hlen : 2 ≤ c.pending.length := by
      have := congrArg List.length ht
      simp [crlf] at this
      omega
    simp only [effort, hs, List.length_drop]
    omega

def parse (parser : ChunkSizeParser) (maxBodyBytes : Nat) (c : ChunkedBodyCapture) :
    Except TransparentFlowError (Option BodyCapture × ChunkedBodyCapture) :=
  match _h : c.turn parser maxBodyBytes with
  | .again next => parse parser maxBodyBytes next
  | .wait => .ok (none, c)
  | .finished next => .ok (some (next.finish maxBodyBytes), next)
  | .failed e => .error e
termination_by c.effort
decreasing_by exact turn_again_effort _h

/-- Accept one read. A result is present once the whole body has been seen. -/
def feed (parser : ChunkSizeParser) (c : ChunkedBodyCapture) (bytes : Bytes) (maxBodyBytes : Nat) :
    Except TransparentFlowError (Option BodyCapture × ChunkedBodyCapture) := do
  let forwardedBytes ← addLen c.forwardedBytes (← usizeToU64 bytes.length)
  parse parser maxBodyBytes { c with forwardedBytes, pending := c.pending ++ bytes }

end ChunkedBodyCapture
end Abyss.Mitm.Relay
