import Abyss.Stream.Collect
import Abyss.Mitm.Types

/-! Client streams behind read-ahead layers, and the initial protocol detection: a
bounded front part of the stream is classified and then served again. -/
namespace Abyss.Mitm.Flow
open Abyss.Stream

/-- A boxed client or upstream byte stream, seen by its reader. -/
abbrev ClientStream := Layered UInt8 ErrorKind

/-- `PrefixedDuplexStream::new`. -/
def prefixedDuplexStream (front : Bytes) (inner : ClientStream) : ClientStream :=
  .replay front 0 (Nat.zero_le _) inner

/-- `ObservedStream::new`. -/
def observedStream (inner : ClientStream) : ClientStream := .observed [] inner

/-- Serve bytes again that were read already; nothing is wrapped for no bytes. -/
def withReadPrefix (front : Bytes) (stream : ClientStream) : ClientStream :=
  if front = [] then stream else prefixedDuplexStream front stream

@[simp] theorem contents_withReadPrefix (front : Bytes) (stream : ClientStream) :
    (withReadPrefix front stream).contents = front ++ stream.contents := by
  unfold withReadPrefix
  split
  · next h => rw [h, List.nil_append]
  · simp [prefixedDuplexStream]

@[simp] theorem ending_withReadPrefix (front : Bytes) (stream : ClientStream) :
    (withReadPrefix front stream).ending = stream.ending := by
  unfold withReadPrefix
  split
  · rfl
  · simp [prefixedDuplexStream]

/-- `MAX_PROTOCOL_PREFIX_BYTES`. -/
def maxProtocolPrefixBytes : Nat := 64

/-- `TLS_HANDSHAKE_CONTENT_TYPE`. -/
def tlsHandshakeContentType : UInt8 := 0x16

/-- `TLS_MAJOR_VERSION`. -/
def tlsMajorVersion : UInt8 := 0x03

inductive DetectedProtocol where
  | plainHttp
  | tls
  deriving DecidableEq, Repr

inductive ProtocolPrefix where
  | detected (protocol : DetectedProtocol)
  | incomplete
  | unsupported
  deriving DecidableEq, Repr

def isAsciiAlphanumeric (byte : UInt8) : Bool :=
  (48 ≤ byte && byte ≤ 57) || (65 ≤ byte && byte ≤ 90) || (97 ≤ byte && byte ≤ 122)

def isHttpTokenByte (byte : UInt8) : Bool :=
  isAsciiAlphanumeric byte || (ascii "!#$%&'*+-.^_`|~").contains byte

namespace ProtocolPrefix

/-- The scan over the bytes of a method, from index `index` on. -/
def classifyMethod (index : Nat) : Bytes → ProtocolPrefix
  | [] => .incomplete
  | byte :: rest =>
    if byte = 0x20 then (if 0 < index then .detected .plainHttp else .unsupported)
    else if isHttpTokenByte byte then classifyMethod (index + 1) rest
    else .unsupported

def classify (bytes : Bytes) : ProtocolPrefix :=
  match bytes with
  | [] => .incomplete
  | first :: rest =>
    if first = tlsHandshakeContentType then
      match rest with
      | [] => .incomplete
      | majorVersion :: _ => if majorVersion = tlsMajorVersion then .detected .tls else .unsupported
    else classifyMethod 0 (first :: rest)

theorem classifyMethod_append {index : Nat} {bytes : Bytes} (more : Bytes)
    (h : classifyMethod index bytes ≠ .incomplete) :
    classifyMethod index (bytes ++ more) = classifyMethod index bytes := by
  induction bytes generalizing index with
  | nil => exact absurd rfl h
  | cons byte rest ih =>
    rw [classifyMethod] at h
    rw [List.cons_append, classifyMethod, classifyMethod]
    by_cases hspace : byte = 0x20
    · rw [if_pos hspace, if_pos hspace]
    · rw [if_neg hspace] at h
      rw [if_neg hspace, if_neg hspace]
      by_cases htoken : isHttpTokenByte byte
      · rw [if_pos htoken] at h
        rw [if_pos htoken, if_pos htoken, ih h]
      · rw [if_neg htoken, if_neg htoken]

/-- More bytes never change a decision. -/
theorem classify_append {bytes : Bytes} (more : Bytes) (h : classify bytes ≠ .incomplete) :
    classify (bytes ++ more) = classify bytes := by
  cases bytes with
  | nil => exact absurd rfl h
  | cons first rest =>
    unfold classify at h ⊢
    by_cases htls : first = tlsHandshakeContentType
    · cases rest with
      | nil => simp [htls] at h
      | cons majorVersion rest => simp [htls]
    · simp only [htls, if_false, List.cons_append] at h ⊢
      exact classifyMethod_append more h

end ProtocolPrefix

/-- The decision on the bytes read so far; the longest prefix always decides. -/
def protocolDecision (bytes : Bytes) : Option (Except TransparentFlowError DetectedProtocol) :=
  match ProtocolPrefix.classify bytes with
  | .detected protocol => some (.ok protocol)
  | .unsupported => some (.error .unsupportedProtocol)
  | .incomplete => if bytes.length = maxProtocolPrefixBytes then some (.error .unsupportedProtocol) else none

/-- The reads of `detect`, with room for `chunk` bytes each. -/
def protocolCollector (chunk : Nat) : Collector UInt8 Unit (Except TransparentFlowError DetectedProtocol) where
  check := protocolDecision
  cap read := min (maxProtocolPrefixBytes - read) chunk
  feed _ _ := .ok ()

/-- The size of `detect`'s own read buffer. -/
def protocolChunkBytes : Nat := 16

/-- `DetectedProtocol::detect`: the verdict and the stream that serves the inspected bytes again. -/
def detect (chunk : Nat) (stream : ClientStream) : Except TransparentFlowError (DetectedProtocol × ClientStream) :=
  let collected := (protocolCollector chunk).collect () [] stream
  match collected.halt with
  | .decided (.ok protocol) => .ok (protocol, withReadPrefix collected.items collected.rest)
  | .decided (.error e) => .error e
  | .ended => .error .clientClosedBeforeProtocol
  | .broken source => .error (.io .readAgentProtocol source)

/-- What detection says of a stream, by its bytes and its ending alone. -/
def protocolOf (bytes : Bytes) (ending : Option ErrorKind) : Except TransparentFlowError DetectedProtocol :=
  match protocolDecision (bytes.take maxProtocolPrefixBytes) with
  | some verdict => verdict
  | none => match ending with
    | none => .error .clientClosedBeforeProtocol
    | some source => .error (.io .readAgentProtocol source)

private theorem protocolDecision_take {front bytes : Bytes} (hle : front.length ≤ maxProtocolPrefixBytes)
    (hfront : front <+: bytes) {verdict : Except TransparentFlowError DetectedProtocol}
    (h : protocolDecision front = some verdict) :
    protocolDecision (bytes.take maxProtocolPrefixBytes) = some verdict := by
  obtain ⟨more, rfl⟩ := hfront
  rw [List.take_append, List.take_of_length_le hle]
  by_cases hinc : ProtocolPrefix.classify front = .incomplete
  · -- only the full prefix is decided without being classified
    have hlen : front.length = maxProtocolPrefixBytes := by
      simp only [protocolDecision, hinc] at h
      by_contra hne
      simp [hne] at h
    rwa [hlen, Nat.sub_self, List.take_zero, List.append_nil]
  · have hsame := ProtocolPrefix.classify_append (more.take (maxProtocolPrefixBytes - front.length)) hinc
    unfold protocolDecision at h ⊢
    rw [hsame]
    cases hclass : ProtocolPrefix.classify front with
    | incomplete => exact absurd hclass hinc
    | detected protocol => simpa [hclass] using h
    | unsupported => simpa [hclass] using h

private theorem protocolDecision_none {bytes : Bytes} (hle : bytes.length ≤ maxProtocolPrefixBytes)
    (h : protocolDecision bytes = none) : bytes.length < maxProtocolPrefixBytes := by
  rcases Nat.lt_or_eq_of_le hle with hlt | heq
  · exact hlt
  · unfold protocolDecision at h
    split at h <;> simp_all

/-- Where the reads of detection stop. -/
private theorem protocol_stopped {chunk : Nat} (hchunk : 0 < chunk) (stream : ClientStream) :
    (protocolCollector chunk).Stopped (fun items _ => items.length ≤ maxProtocolPrefixBytes) stream.ending
      ((protocolCollector chunk).collect () [] stream) := by
  refine Collector.collect_stopped ?_ ?_ (Nat.zero_le _) rfl
  · intro items _ hle hnone
    have hlt := protocolDecision_none hle hnone
    simp only [protocolCollector]
    omega
  · intro items _ piece _ hle hnone _ hpiece _ _
    simp only [protocolCollector] at hpiece
    rw [List.length_append]
    omega

/-- The verdict is a function of the byte stream: neither the arrival boundaries nor the layers nor
the size of the read buffer matter. -/
theorem detect_verdict {chunk : Nat} (hchunk : 0 < chunk) (stream : ClientStream) :
    (detect chunk stream).map Prod.fst = protocolOf stream.contents stream.ending := by
  have hstop := protocol_stopped hchunk stream
  have hsplit := (protocolCollector chunk).collect_contents () [] stream
  rw [List.nil_append] at hsplit
  unfold Collector.Stopped at hstop
  unfold detect protocolOf
  cases hhalt : ((protocolCollector chunk).collect () [] stream).halt with
  | decided verdict =>
    rw [hhalt] at hstop
    rcases hstop with ⟨_, hle, hcheck⟩ | ⟨_, _, _, _, _, _, _, _, hfeed⟩
    · rw [protocolDecision_take hle ⟨_, hsplit⟩ hcheck]
      cases verdict <;> simp [hhalt, Except.map]
    · cases hfeed
  | ended =>
    rw [hhalt] at hstop
    obtain ⟨⟨_, hle, hcheck⟩, hrest, hend⟩ := hstop
    rw [hrest, List.append_nil] at hsplit
    rw [← hsplit, List.take_of_length_le hle, show protocolDecision _ = none from hcheck, hend]
    simp [hhalt, Except.map]
  | broken source =>
    rw [hhalt] at hstop
    obtain ⟨⟨_, hle, hcheck⟩, hrest, hend⟩ := hstop
    rw [hrest, List.append_nil] at hsplit
    rw [← hsplit, List.take_of_length_le hle, show protocolDecision _ = none from hcheck, hend]
    simp [hhalt, Except.map]

/-- The stream behind detection serves every byte once and in order. -/
theorem detect_stream {chunk : Nat} {stream rest : ClientStream} {protocol : DetectedProtocol}
    (h : detect chunk stream = .ok (protocol, rest)) :
    rest.contents = stream.contents ∧ rest.ending = stream.ending := by
  simp only [detect] at h
  split at h
  · next hhalt =>
    obtain ⟨_, rfl⟩ := (by simpa using h : _ = protocol ∧ _ = rest)
    have hsplit := (protocolCollector chunk).collect_contents () [] stream
    have hend := (protocolCollector chunk).collect_ending () [] stream hhalt
    simpa using ⟨hsplit, hend⟩
  all_goals cases h

end Abyss.Mitm.Flow
