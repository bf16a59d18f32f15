import Abyss.Stream.Source
import Abyss.Stream.Sink
import Abyss.Text.Scalar

/-! Shared vocabulary of the transparent proxy: byte strings, transport
operations and the errors a flow can end with. -/
namespace Abyss.Mitm
open Abyss.Text

abbrev Bytes := List UInt8

theorem bind_eq_ok {α β ε : Type} {x : Except ε α} {f : α → Except ε β} {b : β} :
    (x >>= f) = .ok b ↔ ∃ a, x = .ok a ∧ f a = .ok b := by
  cases x <;> simp [bind, Except.bind]

/-- Byte string of an ASCII literal. -/
def ascii (s : String) : Bytes := s.toList.map (fun c => UInt8.ofNat c.toNat)

theorem ascii_ofList (text : List Char) : ascii (String.ofList text) = text.map (fun c => UInt8.ofNat c.toNat) := by
  rw [ascii, String.toList_ofList]

def crlf : Bytes := [13, 10]

/-- `MAX_HTTP1_HEADER_BYTES`. -/
def maxHttp1HeaderBytes : Nat := 64 * 1024

/-- Number of values of `u64`, and of `usize` on the supported targets. -/
def u64Bound : Nat := 2 ^ 64

/-- The I/O error kinds the proxy tells apart. -/
inductive ErrorKind where
  | brokenPipe | connectionAborted | connectionReset | notConnected | unexpectedEof
  | writeZero | timedOut | invalidData | other
  deriving DecidableEq, Repr

abbrev Reader := Stream.Source UInt8 ErrorKind
abbrev Writer := Stream.Sink UInt8 ErrorKind

/-- A bidirectional connection; its two halves fail independently. -/
structure Duplex where
  reader : Reader
  writer : Writer

/-- A stream that has ended. -/
def endedReader : Reader := ⟨[], none⟩

/-- A peer that accepts everything at once. -/
def willingWriter : Writer := ⟨[], [], [], []⟩

theorem willingWriter_succeeds : willingWriter.WritesSucceed := by
  intro r hr
  cases hr

inductive FlowOperation where
  | readAgentProtocol | readAgentTlsClientHello | acceptAgentTls
  | readAgentRequestHead | readAgentRequestBody
  | writeProviderRequestHead | writeProviderRequestBody | writeAgentContinueResponse
  | resolveProxy | connectProxyTcp | proxyConnectHandshake
  | connectProviderTcp | connectProviderTls | writeProviderTlsClientHello
  | readProviderResponseHead | readProviderResponseBody
  | writeAgentResponseHead | writeAgentResponseBody
  | readAgentWebSocket | writeProviderWebSocket | readProviderWebSocket | writeAgentWebSocket
  | relayPassthrough | shutdownAgent | localRelay
  deriving DecidableEq, Repr

inductive Http1Error where
  | incompleteRequest | incompleteResponse | headerTooLarge
  | bodyTooLarge (limit : Nat)
  | invalidBody (reason : String)
  | unsupportedBody (reason : String)
  | parse
  | invalidRequest (reason : String)
  | invalidResponse (reason : String)
  | invalidMethod | invalidUri | invalidStatusCode | invalidHeaderName | invalidHeaderValue
  | io (source : ErrorKind)
  deriving DecidableEq, Repr

/-- The WebSocket transport errors the relay tells apart. -/
inductive WebSocketError where
  | connectionClosed
  | io (source : ErrorKind)
  | other
  deriving DecidableEq, Repr

inductive TransparentFlowError where
  | http1 (operation : FlowOperation) (source : Http1Error)
  | webSocket (operation : FlowOperation) (source : WebSocketError)
  | io (operation : FlowOperation) (source : ErrorKind)
  | byteCountOverflow
  | clientClosedBeforeProtocol
  | unsupportedProtocol
  | tlsClientHelloTooLarge (size limit : Nat)
  | malformedTlsClientHello (reason : String)
  | missingSni
  | proxyTargetServerNameMismatch (target serverName : Str)
  | proxyTargetHostMismatch (target : Str)
  | proxyTargetRequestForm (target : Str)
  deriving DecidableEq, Repr

def isAgentCloseOperation : FlowOperation → Bool
  | .writeAgentContinueResponse | .writeAgentResponseHead | .writeAgentResponseBody
  | .readAgentWebSocket | .writeAgentWebSocket | .shutdownAgent => true
  | _ => false

def isPeerCloseKind : ErrorKind → Bool
  | .brokenPipe | .connectionAborted | .connectionReset | .notConnected | .unexpectedEof => true
  | _ => false

/-- Whether an error only records that the local Agent stopped using its stream. -/
def TransparentFlowError.isAgentConnectionClose : TransparentFlowError → Bool
  | .io operation source => isAgentCloseOperation operation && isPeerCloseKind source
  | .webSocket .readAgentWebSocket source => match source with
    | .connectionClosed => true
    | .io kind => isPeerCloseKind kind
    | .other => false
  | _ => false

def usizeToU64 (value : Nat) : Except TransparentFlowError Nat :=
  if value < u64Bound then .ok value else .error .byteCountOverflow

def addLen (left right : Nat) : Except TransparentFlowError Nat :=
  if left + right < u64Bound then .ok (left + right) else .error .byteCountOverflow

/-- `checked_sub` with the overflow error of the relay counters. -/
def checkedSub (left right : Nat) : Except TransparentFlowError Nat :=
  if right ≤ left then .ok (left - right) else .error .byteCountOverflow

theorem usizeToU64_ok {value n : Nat} (h : usizeToU64 value = .ok n) : n = value ∧ value < u64Bound := by
  unfold usizeToU64 at h
  split at h
  · next hv => exact ⟨(Except.ok.inj h).symm, hv⟩
  · cases h

theorem addLen_ok {left right n : Nat} (h : addLen left right = .ok n) :
    n = left + right ∧ left + right < u64Bound := by
  unfold addLen at h
  split at h
  · next hv => exact ⟨(Except.ok.inj h).symm, hv⟩
  · cases h

theorem usizeToU64_of_lt {value : Nat} (h : value < u64Bound) : usizeToU64 value = .ok value :=
  if_pos h

theorem checkedSub_of_le {left right : Nat} (h : right ≤ left) :
    checkedSub left right = .ok (left - right) := if_pos h

theorem addLen_of_lt {left right : Nat} (h : left + right < u64Bound) :
    addLen left right = .ok (left + right) := if_pos h

end Abyss.Mitm
