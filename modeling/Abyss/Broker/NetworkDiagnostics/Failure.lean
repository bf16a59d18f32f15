import Abyss.Mitm.Explicit.Target

/-! Structured technical observations of the flows that the broker accepts. -/
namespace Abyss.Mitm

section Labels

def FlowOperation.asStr : FlowOperation → String
  | .readAgentProtocol => "read_agent_protocol"
  | .readAgentTlsClientHello => "read_agent_tls_client_hello"
  | .acceptAgentTls => "accept_agent_tls"
  | .readAgentRequestHead => "read_agent_request_head"
  | .readAgentRequestBody => "read_agent_request_body"
  | .writeProviderRequestHead => "write_provider_request_head"
  | .writeProviderRequestBody => "write_provider_request_body"
  | .writeAgentContinueResponse => "write_agent_continue_response"
  | .resolveProxy => "resolve_proxy"
  | .connectProxyTcp => "connect_proxy_tcp"
  | .proxyConnectHandshake => "proxy_connect_handshake"
  | .connectProviderTcp => "connect_provider_tcp"
  | .connectProviderTls => "connect_provider_tls"
  | .writeProviderTlsClientHello => "write_provider_tls_client_hello"
  | .readProviderResponseHead => "read_provider_response_head"
  | .readProviderResponseBody => "read_provider_response_body"
  | .writeAgentResponseHead => "write_agent_response_head"
  | .writeAgentResponseBody => "write_agent_response_body"
  | .readAgentWebSocket => "read_agent_websocket"
  | .writeProviderWebSocket => "write_provider_websocket"
  | .readProviderWebSocket => "read_provider_websocket"
  | .writeAgentWebSocket => "write_agent_websocket"
  | .relayPassthrough => "relay_passthrough"
  | .shutdownAgent => "shutdown_agent"
  | .localRelay => "local_relay"

def FlowOperation.parse : String → Option FlowOperation
  | "read_agent_protocol" => some .readAgentProtocol
  | "read_agent_tls_client_hello" => some .readAgentTlsClientHello
  | "accept_agent_tls" => some .acceptAgentTls
  | "read_agent_request_head" => some .readAgentRequestHead
  | "read_agent_request_body" => some .readAgentRequestBody
  | "write_provider_request_head" => some .writeProviderRequestHead
  | "write_provider_request_body" => some .writeProviderRequestBody
  | "write_agent_continue_response" => some .writeAgentContinueResponse
  | "resolve_proxy" => some .resolveProxy
  | "connect_proxy_tcp" => some .connectProxyTcp
  | "proxy_connect_handshake" => some .proxyConnectHandshake
  | "connect_provider_tcp" => some .connectProviderTcp
  | "connect_provider_tls" => some .connectProviderTls
  | "write_provider_tls_client_hello" => some .writeProviderTlsClientHello
  | "read_provider_response_head" => some .readProviderResponseHead
  | "read_provider_response_body" => some .readProviderResponseBody
  | "write_agent_response_head" => some .writeAgentResponseHead
  | "write_agent_response_body" => some .writeAgentResponseBody
  | "read_agent_websocket" => some .readAgentWebSocket
  | "write_provider_websocket" => some .writeProviderWebSocket
  | "read_provider_websocket" => some .readProviderWebSocket
  | "write_agent_websocket" => some .writeAgentWebSocket
  | "relay_passthrough" => some .relayPassthrough
  | "shutdown_agent" => some .shutdownAgent
  | "local_relay" => some .localRelay
  | _ => none

theorem FlowOperation.parse_asStr (value : FlowOperation) : parse value.asStr = some value := by
  cases value <;> rfl

end Labels
end Abyss.Mitm

namespace Abyss.Broker.NetworkDiagnostics
open Abyss.Text Abyss.Mitm

section Labels

/-- Connection boundary at which a technical observation occurred. -/
inductive NetworkHop where
  | agentToAbyss | abyssToUpstreamProxy | abyssToProvider | crossBoundary
  deriving DecidableEq, Repr

def NetworkHop.asStr : NetworkHop → String
  | .agentToAbyss => "agent_to_abyss"
  | .abyssToUpstreamProxy => "abyss_to_upstream_proxy"
  | .abyssToProvider => "abyss_to_provider"
  | .crossBoundary => "cross_boundary"

def NetworkHop.parse : String → Option NetworkHop
  | "agent_to_abyss" => some .agentToAbyss
  | "abyss_to_upstream_proxy" => some .abyssToUpstreamProxy
  | "abyss_to_provider" => some .abyssToProvider
  | "cross_boundary" => some .crossBoundary
  | _ => none

theorem NetworkHop.parse_asStr (value : NetworkHop) : parse value.asStr = some value := by cases value <;> rfl

/-- Byte or local-processing direction of an observation. -/
inductive NetworkDirection where
  | agentToAbyss | abyssToAgent | abyssToProvider | providerToAbyss | bidirectional | localSide
  deriving DecidableEq, Repr

def NetworkDirection.asStr : NetworkDirection → String
  | .agentToAbyss => "agent_to_abyss"
  | .abyssToAgent => "abyss_to_agent"
  | .abyssToProvider => "abyss_to_provider"
  | .providerToAbyss => "provider_to_abyss"
  | .bidirectional => "bidirectional"
  | .localSide => "local"

def NetworkDirection.parse : String → Option NetworkDirection
  | "agent_to_abyss" => some .agentToAbyss
  | "abyss_to_agent" => some .abyssToAgent
  | "abyss_to_provider" => some .abyssToProvider
  | "provider_to_abyss" => some .providerToAbyss
  | "bidirectional" => some .bidirectional
  | "local" => some .localSide
  | _ => none

theorem NetworkDirection.parse_asStr (value : NetworkDirection) : parse value.asStr = some value := by cases value <;> rfl

/-- Technical stage reached by an accepted flow. -/
inductive NetworkStage where
  | protocolDetection | tlsHandshake | request | dnsResolution | tcpConnect | responseHeaders
  | stream | localRelay | unknown
  deriving DecidableEq, Repr

def NetworkStage.asStr : NetworkStage → String
  | .protocolDetection => "protocol_detection"
  | .tlsHandshake => "tls_handshake"
  | .request => "request"
  | .dnsResolution => "dns_resolution"
  | .tcpConnect => "tcp_connect"
  | .responseHeaders => "response_headers"
  | .stream => "stream"
  | .localRelay => "local_relay"
  | .unknown => "unknown"

def NetworkStage.parse : String → Option NetworkStage
  | "protocol_detection" => some .protocolDetection
  | "tls_handshake" => some .tlsHandshake
  | "request" => some .request
  | "dns_resolution" => some .dnsResolution
  | "tcp_connect" => some .tcpConnect
  | "response_headers" => some .responseHeaders
  | "stream" => some .stream
  | "local_relay" => some .localRelay
  | "unknown" => some .unknown
  | _ => none

theorem NetworkStage.parse_asStr (value : NetworkStage) : parse value.asStr = some value := by cases value <;> rfl

/-- Technical result of one observed stage. -/
inductive NetworkOutcome where
  | succeeded | failed | interrupted | skipped | unknown
  deriving DecidableEq, Repr

def NetworkOutcome.asStr : NetworkOutcome → String
  | .succeeded => "succeeded"
  | .failed => "failed"
  | .interrupted => "interrupted"
  | .skipped => "skipped"
  | .unknown => "unknown"

def NetworkOutcome.parse : String → Option NetworkOutcome
  | "succeeded" => some .succeeded
  | "failed" => some .failed
  | "interrupted" => some .interrupted
  | "skipped" => some .skipped
  | "unknown" => some .unknown
  | _ => none

theorem NetworkOutcome.parse_asStr (value : NetworkOutcome) : parse value.asStr = some value := by cases value <;> rfl

/-- Low-level failure category. -/
inductive NetworkFailureClass where
  | clientClosed | timeout | connectionRefused | connectionReset | upstreamClosed | eof | tlsError
  | dnsError | httpError | proxyError | invalidProtocol | ioError | resourceExhausted | unknown
  deriving DecidableEq, Repr

def NetworkFailureClass.asStr : NetworkFailureClass → String
  | .clientClosed => "client_closed"
  | .timeout => "timeout"
  | .connectionRefused => "connection_refused"
  | .connectionReset => "connection_reset"
  | .upstreamClosed => "upstream_closed"
  | .eof => "eof"
  | .tlsError => "tls_error"
  | .dnsError => "dns_error"
  | .httpError => "http_error"
  | .proxyError => "proxy_error"
  | .invalidProtocol => "invalid_protocol"
  | .ioError => "io_error"
  | .resourceExhausted => "resource_exhausted"
  | .unknown => "unknown"

def NetworkFailureClass.parse : String → Option NetworkFailureClass
  | "client_closed" => some .clientClosed
  | "timeout" => some .timeout
  | "connection_refused" => some .connectionRefused
  | "connection_reset" => some .connectionReset
  | "upstream_closed" => some .upstreamClosed
  | "eof" => some .eof
  | "tls_error" => some .tlsError
  | "dns_error" => some .dnsError
  | "http_error" => some .httpError
  | "proxy_error" => some .proxyError
  | "invalid_protocol" => some .invalidProtocol
  | "io_error" => some .ioError
  | "resource_exhausted" => some .resourceExhausted
  | "unknown" => some .unknown
  | _ => none

theorem NetworkFailureClass.parse_asStr (value : NetworkFailureClass) : parse value.asStr = some value := by cases value <;> rfl

/-- Stable technical error code of a failed flow. -/
inductive NetworkErrorCode where
  | upstreamProxyDns | upstreamProxyTcp | upstreamProxyConnect | upstreamProxyAuthRequired
  | agentProtocol | agentTls | agentRequest | agentConnection | agentConnectionClosed | abyssRelay
  | abyssInternal | providerDns | providerTcp | providerTls | providerRequest
  | providerResponseHeaders | providerStream | providerHttp | providerInternal
  deriving DecidableEq, Repr

def NetworkErrorCode.asStr : NetworkErrorCode → String
  | .upstreamProxyDns => "upstream_proxy_dns_error"
  | .upstreamProxyTcp => "upstream_proxy_tcp_error"
  | .upstreamProxyConnect => "upstream_proxy_connect_error"
  | .upstreamProxyAuthRequired => "upstream_proxy_auth_required"
  | .agentProtocol => "agent_protocol_error"
  | .agentTls => "agent_tls_error"
  | .agentRequest => "agent_request_error"
  | .agentConnection => "agent_connection_error"
  | .agentConnectionClosed => "agent_connection_closed"
  | .abyssRelay => "abyss_relay_error"
  | .abyssInternal => "abyss_internal_error"
  | .providerDns => "provider_dns_error"
  | .providerTcp => "provider_tcp_error"
  | .providerTls => "provider_tls_error"
  | .providerRequest => "provider_request_error"
  | .providerResponseHeaders => "provider_response_headers_error"
  | .providerStream => "provider_stream_error"
  | .providerHttp => "provider_http_error"
  | .providerInternal => "provider_internal_error"

def NetworkErrorCode.parse : String → Option NetworkErrorCode
  | "upstream_proxy_dns_error" => some .upstreamProxyDns
  | "upstream_proxy_tcp_error" => some .upstreamProxyTcp
  | "upstream_proxy_connect_error" => some .upstreamProxyConnect
  | "upstream_proxy_auth_required" => some .upstreamProxyAuthRequired
  | "agent_protocol_error" => some .agentProtocol
  | "agent_tls_error" => some .agentTls
  | "agent_request_error" => some .agentRequest
  | "agent_connection_error" => some .agentConnection
  | "agent_connection_closed" => some .agentConnectionClosed
  | "abyss_relay_error" => some .abyssRelay
  | "abyss_internal_error" => some .abyssInternal
  | "provider_dns_error" => some .providerDns
  | "provider_tcp_error" => some .providerTcp
  | "provider_tls_error" => some .providerTls
  | "provider_request_error" => some .providerRequest
  | "provider_response_headers_error" => some .providerResponseHeaders
  | "provider_stream_error" => some .providerStream
  | "provider_http_error" => some .providerHttp
  | "provider_internal_error" => some .providerInternal
  | _ => none

theorem NetworkErrorCode.parse_asStr (value : NetworkErrorCode) : parse value.asStr = some value := by cases value <;> rfl

end Labels

section ErrorCode

/-- The outcomes that have no error code. -/
def NetworkOutcome.passed (outcome : NetworkOutcome) : Bool := outcome = .succeeded || outcome = .skipped

/-- Derive a stable code from the technical fields that an observation retains. -/
def NetworkErrorCode.fromObservation (hop : NetworkHop) (stage : NetworkStage) (outcome : NetworkOutcome)
    (failureClass : Option NetworkFailureClass) (httpStatus : Option UInt16) : Option NetworkErrorCode :=
  match hop with
  | .abyssToUpstreamProxy =>
    if outcome.passed then none
    else match stage with
      | .dnsResolution => some .upstreamProxyDns
      | .tcpConnect => some .upstreamProxyTcp
      | _ => some .upstreamProxyConnect
  | .agentToAbyss =>
    if outcome.passed then none
    else match stage with
      | .protocolDetection => some .agentProtocol
      | .tlsHandshake => some .agentTls
      | .request =>
        match failureClass, outcome with
        -- an incomplete request head: the agent has closed before there was a request to parse
        | some .eof, .interrupted | some .clientClosed, .interrupted => some .agentConnectionClosed
        | _, _ => some .agentRequest
      | .localRelay | .responseHeaders | .stream =>
        match failureClass with
        | some .clientClosed => some .agentConnectionClosed
        | _ => some .abyssRelay
      | .dnsResolution | .tcpConnect | .unknown =>
        match failureClass with
        | some .connectionRefused | some .connectionReset | some .timeout | some .clientClosed => some .agentConnection
        | _ => some .abyssInternal
  | .abyssToProvider =>
    if httpStatus.any (400 ≤ ·) then some .providerHttp
    else if outcome.passed then none
    else match stage with
      | .dnsResolution => some .providerDns
      | .tcpConnect => some .providerTcp
      | .tlsHandshake => some .providerTls
      | .request => some .providerRequest
      | .responseHeaders => some .providerResponseHeaders
      | .stream => some .providerStream
      | .localRelay | .unknown =>
        match failureClass with
        | some .dnsError => some .providerDns
        | some .connectionRefused | some .connectionReset | some .timeout | some .ioError => some .providerTcp
        | some .tlsError => some .providerTls
        | some .httpError => some .providerHttp
        | _ => some .providerInternal
      | .protocolDetection => some .providerInternal
  | .crossBoundary =>
    match failureClass with
    | some .clientClosed => some .agentConnectionClosed
    | _ => some .abyssInternal

/-- A failure always has a code. -/
theorem NetworkErrorCode.fromObservation_failed (hop : NetworkHop) (stage : NetworkStage) {outcome : NetworkOutcome}
    (failureClass : Option NetworkFailureClass) (httpStatus : Option UInt16) (h : outcome.passed = false) :
    (fromObservation hop stage outcome failureClass httpStatus).isSome = true := by
  unfold fromObservation
  rw [h]
  split
  · rw [if_neg Bool.false_ne_true]
    split <;> rfl
  · rw [if_neg Bool.false_ne_true]
    split <;> first | rfl | (split <;> rfl)
  · split
    · rfl
    · rw [if_neg Bool.false_ne_true]
      split <;> first | rfl | (split <;> rfl)
  · split <;> rfl

end ErrorCode

section Errors

/-- The kinds of `std::io::Error` that are told apart. -/
inductive ErrorKind where
  | brokenPipe | connectionAborted | connectionRefused | connectionReset | notConnected | unexpectedEof | timedOut | other
  deriving DecidableEq, Repr

inductive Http1Error where
  | incompleteRequest | incompleteResponse
  | requestHeadTimeout | responseHeadTimeout
  | io (source : ErrorKind)
  | headerTooLarge | bodyTooLarge | invalidBody | unsupportedBody | parse | invalidRequest | invalidResponse
  | invalidMethod | invalidUri | invalidStatusCode | invalidHeaderName | invalidHeaderValue | buildMessage
  deriving DecidableEq, Repr

inductive WebSocketError where
  | connectionClosed
  | io (source : ErrorKind)
  | other
  deriving DecidableEq, Repr

inductive ProxyConnectStage where
  | resolveProxy | connectProxy | handshake
  deriving DecidableEq, Repr

inductive UpstreamProxyError where
  | timeout (stage : ProxyConnectStage)
  | io (stage : ProxyConnectStage) (source : ErrorKind)
  | protocol
  | rejected (status : UInt16)
  | loop
  deriving DecidableEq, Repr

inductive TlsErrorSide where
  | client | upstream
  deriving DecidableEq, Repr

/-- `TransparentFlowError`, without the fields that only its text shows. -/
inductive TransparentFlowError where
  | upstreamProxy (target : Explicit.TargetAuthority) (endpoint : Str) (source : UpstreamProxyError)
  | clientClosedBeforeProtocol
  | unsupportedProtocol
  | missingSni
  | tls (side : TlsErrorSide)
  | tlsConfiguration
  | http1 (operation : FlowOperation) (source : Http1Error)
  | webSocket (operation : FlowOperation) (source : WebSocketError)
  | io (operation : FlowOperation) (source : ErrorKind)
  | timeout (operation : FlowOperation)
  | byteCountOverflow
  | tlsClientHelloTooLarge
  | malformedTlsClientHello
  | proxyTargetServerNameMismatch
  | proxyTargetHostMismatch
  | proxyTargetRequestForm
  | tlsDecryptionPolicy

def UpstreamProxyError.stage : UpstreamProxyError → ProxyConnectStage
  | .timeout stage | .io stage _ => stage
  | .protocol | .rejected _ => .handshake
  | .loop => .resolveProxy

/-- The status of a proxy that rejected the tunnel. -/
def UpstreamProxyError.proxyStatus : UpstreamProxyError → Option UInt16
  | .rejected status => some status
  | _ => none

def isPeerCloseKind : ErrorKind → Bool
  | .brokenPipe | .connectionAborted | .connectionReset | .notConnected | .unexpectedEof => true
  | _ => false

def TransparentFlowError.isAgentConnectionClose : TransparentFlowError → Bool
  | .io operation source => isAgentCloseOperation operation && isPeerCloseKind source
  | .webSocket .readAgentWebSocket .connectionClosed => true
  | .webSocket .readAgentWebSocket (.io source) => isPeerCloseKind source
  | _ => false

namespace NetworkFailureClass

def ofIo : ErrorKind → NetworkFailureClass
  | .connectionRefused => .connectionRefused
  | .connectionReset => .connectionReset
  | .unexpectedEof => .eof
  | .timedOut => .timeout
  | _ => .ioError

def ofHttp1 : Http1Error → NetworkFailureClass
  | .incompleteRequest => .eof
  | .incompleteResponse => .upstreamClosed
  | .requestHeadTimeout | .responseHeadTimeout => .timeout
  | .io source => ofIo source
  | _ => .httpError

def ofUpstreamProxy : UpstreamProxyError → NetworkFailureClass
  | .timeout _ => .timeout
  | .io .resolveProxy _ => .dnsError
  | .io _ source => ofIo source
  | .rejected _ => .httpError
  | .protocol | .loop => .invalidProtocol

def ofFlow (error : TransparentFlowError) : NetworkFailureClass :=
  if error.isAgentConnectionClose then .clientClosed
  else match error with
    | .clientClosedBeforeProtocol => .clientClosed
    | .upstreamProxy _ _ source => ofUpstreamProxy source
    | .unsupportedProtocol | .malformedTlsClientHello | .proxyTargetRequestForm | .webSocket _ _ => .invalidProtocol
    | .missingSni | .tlsClientHelloTooLarge | .tls _ | .tlsConfiguration => .tlsError
    | .http1 _ source => ofHttp1 source
    | .io _ source => ofIo source
    | .timeout _ => .timeout
    | .byteCountOverflow => .resourceExhausted
    | .proxyTargetServerNameMismatch | .proxyTargetHostMismatch => .proxyError
    | .tlsDecryptionPolicy => .ioError

end NetworkFailureClass

structure NetworkLocation where
  hop : NetworkHop
  direction : NetworkDirection
  operation : FlowOperation
  stage : NetworkStage
  deriving DecidableEq, Repr

namespace NetworkLocation

def ofOperation (operation : FlowOperation) : NetworkLocation :=
  match operation with
  | .resolveProxy => ⟨.abyssToUpstreamProxy, .bidirectional, operation, .dnsResolution⟩
  | .connectProxyTcp => ⟨.abyssToUpstreamProxy, .bidirectional, operation, .tcpConnect⟩
  | .proxyConnectHandshake => ⟨.abyssToUpstreamProxy, .bidirectional, operation, .responseHeaders⟩
  | .readAgentProtocol => ⟨.agentToAbyss, .agentToAbyss, operation, .protocolDetection⟩
  | .readAgentTlsClientHello | .acceptAgentTls => ⟨.agentToAbyss, .agentToAbyss, operation, .tlsHandshake⟩
  | .readAgentRequestHead | .readAgentRequestBody => ⟨.agentToAbyss, .agentToAbyss, operation, .request⟩
  | .connectProviderTcp => ⟨.abyssToProvider, .abyssToProvider, operation, .tcpConnect⟩
  | .connectProviderTls | .writeProviderTlsClientHello => ⟨.abyssToProvider, .abyssToProvider, operation, .tlsHandshake⟩
  | .writeProviderRequestHead | .writeProviderRequestBody => ⟨.abyssToProvider, .abyssToProvider, operation, .request⟩
  | .readProviderResponseHead => ⟨.abyssToProvider, .providerToAbyss, operation, .responseHeaders⟩
  | .readProviderResponseBody | .readProviderWebSocket => ⟨.abyssToProvider, .providerToAbyss, operation, .stream⟩
  | .writeAgentContinueResponse => ⟨.agentToAbyss, .abyssToAgent, operation, .request⟩
  | .writeAgentResponseHead => ⟨.agentToAbyss, .abyssToAgent, operation, .responseHeaders⟩
  | .writeAgentResponseBody | .writeAgentWebSocket => ⟨.agentToAbyss, .abyssToAgent, operation, .stream⟩
  | .readAgentWebSocket => ⟨.agentToAbyss, .agentToAbyss, operation, .stream⟩
  | .writeProviderWebSocket => ⟨.abyssToProvider, .abyssToProvider, operation, .stream⟩
  | .relayPassthrough => ⟨.crossBoundary, .bidirectional, operation, .stream⟩
  | .shutdownAgent => ⟨.agentToAbyss, .abyssToAgent, operation, .localRelay⟩
  | .localRelay => ⟨.crossBoundary, .localSide, operation, .localRelay⟩

def ofUpstreamProxy (source : UpstreamProxyError) : NetworkLocation :=
  ofOperation <| match source.stage with
    | .resolveProxy => .resolveProxy
    | .connectProxy => .connectProxyTcp
    | .handshake => .proxyConnectHandshake

def ofFlow : TransparentFlowError → NetworkLocation
  | .upstreamProxy _ _ source => ofUpstreamProxy source
  | .clientClosedBeforeProtocol | .unsupportedProtocol => ofOperation .readAgentProtocol
  | .missingSni | .tlsClientHelloTooLarge | .malformedTlsClientHello => ofOperation .readAgentTlsClientHello
  | .tls .client => ofOperation .acceptAgentTls
  | .tls .upstream => ofOperation .connectProviderTls
  | .http1 operation _ | .webSocket operation _ | .io operation _ | .timeout operation => ofOperation operation
  | _ => ofOperation .localRelay

end NetworkLocation

def outcomeForError (error : TransparentFlowError) : NetworkOutcome :=
  if error.isAgentConnectionClose then .interrupted
  else match error with
    | .clientClosedBeforeProtocol | .http1 _ .incompleteRequest | .http1 _ .incompleteResponse => .interrupted
    | _ => .failed

theorem outcomeForError_passed (error : TransparentFlowError) : (outcomeForError error).passed = false := by
  unfold outcomeForError
  split
  · rfl
  · split <;> rfl

end Errors

end Abyss.Broker.NetworkDiagnostics
