import Abyss.Mitm.Flow.Detection

/-! Inspection of the first TLS `ClientHello`: the stream is read until rustls accepts
the message, and every byte that was consumed is kept. -/
namespace Abyss.Mitm.Flow
open Abyss.Stream Abyss.Text

/-- `DEFAULT_MAX_CLIENT_HELLO_BYTES`. -/
def defaultMaxClientHelloBytes : Nat := 64 * 1024

/-- `CLIENT_HELLO_READ_CHUNK_BYTES`. -/
def clientHelloReadChunkBytes : Nat := 16 * 1024

/-- What is read from an accepted `ClientHello`. -/
structure Accepted where
  serverName : Option Str
  deriving DecidableEq, Repr

/-- `rustls::server::Acceptor`: `readTls` takes some of the offered bytes, and `accept` answers with
the message or asks for more. -/
structure Acceptor where
  State : Type
  initial : State
  readTls : State → Bytes → Except ErrorKind (Nat × State)
  accept : State → Except ErrorKind (Accepted ⊕ State)

def feedAcceptor (acceptor : Acceptor) (state : acceptor.State) (bytes : Bytes) :
    Except TransparentFlowError acceptor.State :=
  if _hne : bytes = [] then .ok state else
  match acceptor.readTls state bytes with
  | .error source => .error (.io .readAgentTlsClientHello source)
  | .ok (readLen, state') =>
    if readLen = 0 then .error (.malformedTlsClientHello "rustls did not consume ClientHello bytes")
    else feedAcceptor acceptor state' (bytes.drop readLen)
termination_by bytes.length
decreasing_by
  have := List.length_pos_of_ne_nil _hne
  rw [List.length_drop]
  omega

/-- One read of the inspector: a failure, the accepted message, or the acceptor behind the bytes. -/
def inspectChunk (acceptor : Acceptor) (state : acceptor.State) (chunk : Bytes) :
    Except (Except TransparentFlowError Accepted) acceptor.State :=
  match feedAcceptor acceptor state chunk with
  | .error e => .error (.error e)
  | .ok state' => match acceptor.accept state' with
    | .error source => .error (.error (.io .readAgentTlsClientHello source))
    | .ok (.inl accepted) => .error (.ok accepted)
    | .ok (.inr state'') => .ok state''

/-- The reads of `read_client_hello_inner`, with room for `chunk` bytes each. -/
def clientHelloCollector (acceptor : Acceptor) (limit chunk : Nat) :
    Collector UInt8 acceptor.State (Except TransparentFlowError Accepted) where
  check rawBytes :=
    if limit ≤ rawBytes.length then some (.error (.tlsClientHelloTooLarge rawBytes.length limit)) else none
  cap read := min chunk (limit - read)
  feed := inspectChunk acceptor

structure InspectedClientHello where
  stream : ClientStream
  accepted : Accepted
  rawBytes : Bytes

/-- `ClientHelloInspector::read_client_hello`. -/
def readClientHello (acceptor : Acceptor) (limit chunk : Nat) (stream : ClientStream) :
    Except TransparentFlowError InspectedClientHello :=
  let collected := (clientHelloCollector acceptor limit chunk).collect acceptor.initial [] stream
  match collected.halt with
  | .decided (.ok accepted) => .ok ⟨collected.rest, accepted, collected.items⟩
  | .decided (.error e) => .error e
  | .ended => .error .clientClosedBeforeProtocol
  | .broken source => .error (.io .readAgentTlsClientHello source)

/-- The kept bytes and the stream behind them are the inspected stream. -/
theorem readClientHello_stream {acceptor : Acceptor} {limit chunk : Nat} {stream : ClientStream}
    {inspected : InspectedClientHello} (h : readClientHello acceptor limit chunk stream = .ok inspected) :
    inspected.rawBytes ++ inspected.stream.contents = stream.contents ∧
      inspected.stream.ending = stream.ending := by
  simp only [readClientHello] at h
  split at h
  · next hhalt =>
    obtain rfl := Except.ok.inj h
    have hsplit := (clientHelloCollector acceptor limit chunk).collect_contents acceptor.initial [] stream
    have hend := (clientHelloCollector acceptor limit chunk).collect_ending acceptor.initial [] stream hhalt
    exact ⟨by simpa using hsplit, hend⟩
  all_goals cases h

/-- An acceptor that takes every part of a stream and accepts as soon as it has seen the message at the
front of the stream. `Fed` relates the bytes seen to the state behind them. -/
structure Recognizes (acceptor : Acceptor) (hello stream : Bytes) (Fed : Bytes → acceptor.State → Prop) : Prop where
  start : Fed [] acceptor.initial
  accepts {seen piece : Bytes} {state : acceptor.State} : Fed seen state → piece ≠ [] → seen ++ piece <+: stream →
    hello <+: seen ++ piece → ∃ accepted, inspectChunk acceptor state piece = .error (.ok accepted)
  waits {seen piece : Bytes} {state : acceptor.State} : Fed seen state → piece ≠ [] → seen ++ piece <+: stream →
    ¬ hello <+: seen ++ piece → ∃ state', inspectChunk acceptor state piece = .ok state' ∧ Fed (seen ++ piece) state'

private theorem clientHello_check {acceptor : Acceptor} {limit chunk : Nat} {rawBytes : Bytes}
    {verdict : Except TransparentFlowError Accepted}
    (h : (clientHelloCollector acceptor limit chunk).check rawBytes = some verdict) : limit ≤ rawBytes.length := by
  by_contra hlt
  simp [clientHelloCollector, hlt] at h

/-- A `ClientHello` of at most the limit is inspected, whatever the boundaries of the reads. -/
theorem readClientHello_accepts {acceptor : Acceptor} {limit chunk : Nat} {stream : ClientStream} {hello : Bytes}
    {Fed : Bytes → acceptor.State → Prop} (hr : Recognizes acceptor hello stream.contents Fed) (hchunk : 0 < chunk)
    (hne : hello ≠ []) (hfront : hello <+: stream.contents) (hlimit : hello.length ≤ limit) :
    ∃ inspected, readClientHello acceptor limit chunk stream = .ok inspected := by
  have hsplit := (clientHelloCollector acceptor limit chunk).collect_contents acceptor.initial [] stream
  have hstop : (clientHelloCollector acceptor limit chunk).Stopped
      (fun items state => Fed items state ∧ ¬ hello <+: items) stream.ending
      ((clientHelloCollector acceptor limit chunk).collect acceptor.initial [] stream) := by
    refine Collector.collect_stopped ?_ ?_ ⟨hr.start, by simpa using hne⟩ (List.nil_append _)
    · intro items _ _ hcheck
      simp only [clientHelloCollector, ite_eq_right_iff, reduceCtorEq, imp_false] at hcheck ⊢
      omega
    · intro items state piece state' hinv _ hpiece _ hall hfeed
      by_cases hdone : hello <+: items ++ piece
      · obtain ⟨accepted, haccepted⟩ := hr.accepts hinv.1 hpiece hall hdone
        simp [clientHelloCollector, haccepted] at hfeed
      · obtain ⟨next, hnext, hfed⟩ := hr.waits hinv.1 hpiece hall hdone
        simp only [clientHelloCollector, hnext, Except.ok.injEq] at hfeed
        exact ⟨hfeed ▸ hfed, hdone⟩
  rw [List.nil_append] at hsplit
  simp only [readClientHello]
  unfold Collector.Stopped at hstop
  -- in every other case the message is not yet among the collected bytes, although they reach as far
  cases hhalt : ((clientHelloCollector acceptor limit chunk).collect acceptor.initial [] stream).halt with
  | decided verdict =>
    rw [hhalt] at hstop
    rcases hstop with ⟨_, ⟨_, hnot⟩, hcheck⟩ | ⟨state, front, piece, hinv, _, hitems, hpiece, _, hfeed⟩
    · have hle := hlimit.trans (clientHello_check hcheck)
      exact absurd (List.prefix_of_prefix_length_le hfront ⟨_, hsplit⟩ hle) hnot
    · have hall : front ++ piece <+: stream.contents := ⟨_, hitems ▸ hsplit⟩
      by_cases hdone : hello <+: front ++ piece
      · obtain ⟨accepted, haccepted⟩ := hr.accepts hinv.1 hpiece hall hdone
        obtain rfl := Except.error.inj (haccepted.symm.trans hfeed)
        exact ⟨_, rfl⟩
      · obtain ⟨next, hnext, _⟩ := hr.waits hinv.1 hpiece hall hdone
        simp [clientHelloCollector, hnext] at hfeed
  | ended =>
    rw [hhalt] at hstop
    rw [hstop.2.1, List.append_nil] at hsplit
    obtain ⟨_, ⟨_, hnot⟩, _⟩ := hstop.1
    exact absurd (hsplit ▸ hfront) hnot
  | broken source =>
    rw [hhalt] at hstop
    rw [hstop.2.1, List.append_nil] at hsplit
    obtain ⟨_, ⟨_, hnot⟩, _⟩ := hstop.1
    exact absurd (hsplit ▸ hfront) hnot

end Abyss.Mitm.Flow
