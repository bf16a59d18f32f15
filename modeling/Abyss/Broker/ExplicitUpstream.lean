import Abyss.Broker.ExplicitIngress
import Abyss.Broker.RuntimeConfig
import Abyss.Mitm.Outbound.Handshake

/-! The upstream of an explicit proxy connection: a direct connection to its target, or a tunnel through the next hop that
was configured when it was accepted. Neither leads back into the listener. -/
namespace Abyss.Broker
open Abyss.Data Abyss.Text Abyss.Mitm Abyss.Mitm.Http Abyss.Mitm.Explicit Abyss.Mitm.Flow Abyss.Mitm.Outbound

section Responses

/-- The `ExplicitIngressError`s of preparing an upstream. -/
inductive ExplicitUpstreamError where
  | upstreamProxy (source : TunnelError)
  | listenerInterfaces (source : ErrorKind)
  | resolveTimeout
  | resolve (source : ErrorKind)
  | noResolvedAddresses
  | selfTarget
  | connectTimeout
  | connect (source : ErrorKind)
  | upstreamAddress (source : ErrorKind)
  deriving DecidableEq, Repr

inductive ProxyResponse where
  | connectionEstablished | badRequest | forbidden | requestTimeout | badGateway | gatewayTimeout
  | requestHeaderFieldsTooLarge | httpVersionNotSupported
  deriving DecidableEq, Repr

def ProxyResponse.statusCode : ProxyResponse → Nat
  | .connectionEstablished => 200
  | .badRequest => 400
  | .forbidden => 403
  | .requestTimeout => 408
  | .badGateway => 502
  | .gatewayTimeout => 504
  | .requestHeaderFieldsTooLarge => 431
  | .httpVersionNotSupported => 505

def ProxyResponse.bytes : ProxyResponse → Bytes
  | .connectionEstablished => Broker.connectionEstablished
  | .badRequest => ascii "HTTP/1.1 400 Bad Request\r\nConnection: close\r\nContent-Length: 0\r\n\r\n"
  | .forbidden => ascii "HTTP/1.1 403 Forbidden\r\nConnection: close\r\nContent-Length: 0\r\n\r\n"
  | .requestTimeout => ascii "HTTP/1.1 408 Request Timeout\r\nConnection: close\r\nContent-Length: 0\r\n\r\n"
  | .badGateway => ascii "HTTP/1.1 502 Bad Gateway\r\nConnection: close\r\nContent-Length: 0\r\n\r\n"
  | .gatewayTimeout => ascii "HTTP/1.1 504 Gateway Timeout\r\nConnection: close\r\nContent-Length: 0\r\n\r\n"
  | .requestHeaderFieldsTooLarge =>
    ascii "HTTP/1.1 431 Request Header Fields Too Large\r\nConnection: close\r\nContent-Length: 0\r\n\r\n"
  | .httpVersionNotSupported =>
    ascii "HTTP/1.1 505 HTTP Version Not Supported\r\nConnection: close\r\nContent-Length: 0\r\n\r\n"

/-- `ExplicitIngressError::response`. -/
def ExplicitUpstreamError.response : ExplicitUpstreamError → ProxyResponse
  | .resolveTimeout | .connectTimeout => .gatewayTimeout
  | .selfTarget => .forbidden
  | .upstreamProxy (.timeout _) => .gatewayTimeout
  | _ => .badGateway

/-- What a client whose request cannot be decoded is sent; nothing on a broken connection. -/
def decoderResponse : ExplicitRequestError → Option ProxyResponse
  | .headerTooLarge _ | .tooManyHeaders _ => some .requestHeaderFieldsTooLarge
  | .unsupportedVersion => some .httpVersionNotSupported
  | .io _ => none
  | _ => some .badRequest

end Responses

section Preparation

structure PreparedExplicitUpstream where
  stream : BoxedDuplexStream
  /-- No address is known of a target that the next hop resolves. -/
  destination : Option SocketAddr
  proxyPeer : Option SocketAddr

/-- The address of a target that is an address. -/
def literalAddress (target : TargetAuthority) : Option SocketAddr :=
  match target.host with
  | .ip address => some ⟨address, target.port⟩
  | .dns _ => none

/-- The addresses that a target stands for before it is resolved. -/
def namedAddresses (target : TargetAuthority) : List SocketAddr :=
  match target.host with
  | .ip address => [⟨address, target.port⟩]
  | .dns name =>
    if name = "localhost".toList then
      [⟨.v4 ⟨127, 0, 0, 1⟩, target.port⟩, ⟨.v6 ipv6Localhost, target.port⟩]
    else []

/-- Refuses a target when one of its addresses is `same_endpoint` with the listener. -/
def refuseSelfTarget (host : Host) (listenAddr : SocketAddr) (addresses : List SocketAddr) : Except ExplicitUpstreamError Unit :=
  refuseAny (fun address => (host.listenerContains listenAddr address).mapError .listenerInterfaces) (fun _ => .selfTarget)
    addresses

def resolveTarget (network : Network) (target : TargetAuthority) : Except ExplicitUpstreamError (List SocketAddr) :=
  match target.host with
  | .ip address => .ok [⟨address, target.port⟩]
  | .dns host => match network.lookupHost host target.port with
    | .timedOut => .error .resolveTimeout
    | .failed source => .error (.resolve source)
    | .found [] => .error .noResolvedAddresses
    | .found addresses => .ok addresses

def connectTarget (network : Network) (addresses : List SocketAddr) :
    Except ExplicitUpstreamError PreparedExplicitUpstream :=
  match firstConnected addresses.length .other (network.attempts addresses) with
  | .error none => .error .connectTimeout
  | .error (some source) => .error (.connect source)
  | .ok (address, stream) => match network.peerAddr address with
    | .error source => .error (.upstreamAddress source)
    | .ok upstreamAddr => .ok ⟨⟨.transport stream.reader, stream.writer⟩, some upstreamAddr, none⟩

variable (httparse : Httparse) (network : Network)

/-- `prepare_upstream`, with the addresses it dials. -/
def prepareUpstream (upstream : Option HttpConnectProxy) (listenAddr : SocketAddr) (target : TargetAuthority) :
    List SocketAddr × Except ExplicitUpstreamError PreparedExplicitUpstream :=
  match upstream with
  | some proxy =>
    match refuseSelfTarget network.host listenAddr (namedAddresses target) with
    | .error e => ([], .error e)
    | .ok () =>
      match connectTunnel httparse network proxy.endpoint target [listenAddr] with
      | (dialed, .error source) => (dialed, .error (.upstreamProxy source))
      | (dialed, .ok tunnel) => (dialed, .ok ⟨tunnel.stream, literalAddress target, some tunnel.proxyPeer⟩)
  | none =>
    match resolveTarget network target with
    | .error e => ([], .error e)
    | .ok resolved =>
      match refuseSelfTarget network.host listenAddr resolved with
      | .error e => ([], .error e)
      | .ok () => (resolved, connectTarget network resolved)

/-- The addresses that decide whether a target is refused: with a next hop only those that the target names itself. -/
def candidates (upstream : Option HttpConnectProxy) (target : TargetAuthority) : List SocketAddr :=
  match upstream with
  | some _ => namedAddresses target
  | none => (resolveTarget network target).toOption.getD []

variable {network}

theorem refuseSelfTarget_eq_ok {host : Host} {listenAddr : SocketAddr} {addresses : List SocketAddr} :
    refuseSelfTarget host listenAddr addresses = .ok () ↔
      ∀ address ∈ addresses, host.listenerContains listenAddr address = .ok false := by
  simp only [refuseSelfTarget, refuseAny_eq_ok, mapError_eq_ok]

/-- A refusal is that the check fails, or that one of the addresses belongs to the listener. -/
theorem refuseSelfTarget_error {host : Host} {listenAddr : SocketAddr} {addresses : List SocketAddr}
    {e : ExplicitUpstreamError} (h : refuseSelfTarget host listenAddr addresses = .error e) :
    (∃ source, e = .listenerInterfaces source) ∨
      e = .selfTarget ∧ ∃ address ∈ addresses, host.listenerContains listenAddr address = .ok true := by
  obtain ⟨address, hmem, hfailed | ⟨hfound, rfl⟩⟩ := refuseAny_eq_error h
  · obtain ⟨source, -, rfl⟩ := mapError_eq_error.mp hfailed
    exact .inl ⟨source, rfl⟩
  · exact .inr ⟨rfl, address, hmem, mapError_eq_ok.mp hfound⟩

theorem connectTarget_ok {addresses : List SocketAddr} {prepared : PreparedExplicitUpstream}
    (h : connectTarget network addresses = .ok prepared) : ∃ address stream,
      (address, .ok stream) ∈ network.attempts addresses ∧ prepared.stream = ⟨.transport stream.reader, stream.writer⟩ := by
  unfold connectTarget at h
  split at h
  · cases h
  · cases h
  · next address stream hfirst =>
    split at h
    · cases h
    · obtain rfl := Except.ok.inj h
      exact ⟨address, stream, firstConnected_ok hfirst, rfl⟩

/-- Connecting to a target that is resolved reports neither a loop nor the listener. -/
theorem connectTarget_error {addresses : List SocketAddr} {e : ExplicitUpstreamError}
    (h : connectTarget network addresses = .error e) : e ≠ .selfTarget ∧ ∀ source, e ≠ .upstreamProxy source := by
  unfold connectTarget at h
  split at h
  · obtain rfl := Except.error.inj h
    exact ⟨by rintro ⟨⟩, by rintro _ ⟨⟩⟩
  · obtain rfl := Except.error.inj h
    exact ⟨by rintro ⟨⟩, by rintro _ ⟨⟩⟩
  · split at h
    · obtain rfl := Except.error.inj h
      exact ⟨by rintro ⟨⟩, by rintro _ ⟨⟩⟩
    · cases h

theorem resolveTarget_error {target : TargetAuthority} {e : ExplicitUpstreamError}
    (h : resolveTarget network target = .error e) : e ≠ .selfTarget ∧ ∀ source, e ≠ .upstreamProxy source := by
  unfold resolveTarget at h
  split at h
  · cases h
  · split at h <;> cases h <;> exact ⟨by rintro ⟨⟩, by rintro _ ⟨⟩⟩

variable {listenAddr : SocketAddr} {target : TargetAuthority}

/-- What a preparation comes to, with the addresses that it dials. -/
inductive Preparation (httparse : Httparse) (network : Network) (listenAddr : SocketAddr) (target : TargetAuthority) :
    Option HttpConnectProxy → List SocketAddr × Except ExplicitUpstreamError PreparedExplicitUpstream → Prop
  | refused {upstream e} (h : refuseSelfTarget network.host listenAddr (candidates network upstream target) = .error e) :
    Preparation httparse network listenAddr target upstream ([], .error e)
  | unresolved {e} (h : resolveTarget network target = .error e) :
    Preparation httparse network listenAddr target none ([], .error e)
  | notTunneled {proxy dialed source}
    (h : connectTunnel httparse network proxy.endpoint target [listenAddr] = (dialed, .error source)) :
    Preparation httparse network listenAddr target (some proxy) (dialed, .error (.upstreamProxy source))
  | tunneled {proxy dialed tunnel}
    (h : connectTunnel httparse network proxy.endpoint target [listenAddr] = (dialed, .ok tunnel)) :
    Preparation httparse network listenAddr target (some proxy)
      (dialed, .ok ⟨tunnel.stream, literalAddress target, some tunnel.proxyPeer⟩)
  | direct {resolved} (h : refuseSelfTarget network.host listenAddr resolved = .ok ()) :
    Preparation httparse network listenAddr target none (resolved, connectTarget network resolved)

theorem prepareUpstream_cases (httparse : Httparse) (network : Network) (upstream : Option HttpConnectProxy)
    (listenAddr : SocketAddr) (target : TargetAuthority) :
    Preparation httparse network listenAddr target upstream (prepareUpstream httparse network upstream listenAddr target) := by
  unfold prepareUpstream
  cases upstream with
  | some proxy =>
    cases hrefuse : refuseSelfTarget network.host listenAddr (namedAddresses target) with
    | error e => exact .refused hrefuse
    | ok =>
      rcases htunnel : connectTunnel httparse network proxy.endpoint target [listenAddr] with ⟨dialed, source | tunnel⟩
      · simpa only [htunnel] using Preparation.notTunneled htunnel
      · simpa only [htunnel] using Preparation.tunneled htunnel
  | none =>
    cases hresolve : resolveTarget network target with
    | error e => exact .unresolved hresolve
    | ok resolved =>
      have hcandidates : candidates network none target = resolved := by rw [candidates, hresolve]; rfl
      cases hrefuse : refuseSelfTarget network.host listenAddr resolved with
      | error e => simpa only [hrefuse] using Preparation.refused (hcandidates.symm ▸ hrefuse)
      | ok => simpa only [hrefuse] using Preparation.direct hrefuse

variable {httparse} {upstream : Option HttpConnectProxy}
  {result : List SocketAddr × Except ExplicitUpstreamError PreparedExplicitUpstream}

/-- No dialed address leads back into the listener. -/
theorem Preparation.dialed (hprepare : Preparation httparse network listenAddr target upstream result)
    {address : SocketAddr} (h : address ∈ result.1) : ¬ network.host.Reaches listenAddr address := by
  cases hprepare with
  | refused | unresolved => cases h
  | notTunneled htunnel => exact connectTunnel_dialed (by rw [htunnel]; exact h) List.mem_cons_self
  | tunneled htunnel => exact connectTunnel_dialed (by rw [htunnel]; exact h) List.mem_cons_self
  | direct hrefuse => exact Host.not_reaches (refuseSelfTarget_eq_ok.mp hrefuse address h)

/-- A target is refused as the listener's own only for an address that belongs to the listener, and before anything is
dialed. -/
theorem Preparation.selfTarget (hprepare : Preparation httparse network listenAddr target upstream result)
    (h : result.2 = .error .selfTarget) : result.1 = [] ∧
      ∃ address ∈ candidates network upstream target, network.host.listenerContains listenAddr address = .ok true := by
  cases hprepare with
  | refused hrefuse =>
    obtain rfl := Except.error.inj h
    obtain ⟨_, ⟨⟩⟩ | ⟨-, haddress⟩ := refuseSelfTarget_error hrefuse
    exact ⟨rfl, haddress⟩
  | unresolved hresolve =>
    obtain rfl := Except.error.inj h
    exact absurd rfl (resolveTarget_error hresolve).1
  | notTunneled | tunneled => cases h
  | direct => exact absurd rfl (connectTarget_error h).1

/-- A next hop is a loop only for an address that belongs to the listener, and before anything is dialed. -/
theorem Preparation.loop (hprepare : Preparation httparse network listenAddr target upstream result)
    {address : SocketAddr} (h : result.2 = .error (.upstreamProxy (.loop address))) : result.1 = [] ∧
      ∃ proxy addresses, upstream = some proxy ∧ resolveProxy network proxy.endpoint = .ok addresses ∧
        address ∈ addresses ∧ network.host.listenerContains listenAddr address = .ok true := by
  cases hprepare with
  | refused hrefuse =>
    obtain rfl := Except.error.inj h
    obtain ⟨_, ⟨⟩⟩ | ⟨⟨⟩, -⟩ := refuseSelfTarget_error hrefuse
  | unresolved hresolve =>
    obtain rfl := Except.error.inj h
    exact absurd rfl ((resolveTarget_error hresolve).2 _)
  | @notTunneled proxy _ _ htunnel =>
    obtain rfl := ExplicitUpstreamError.upstreamProxy.inj (Except.error.inj h)
    obtain ⟨hnone, addresses, hresolve, haddress, _, hlistener, hcontains⟩ := connectTunnel_loop (congrArg Prod.snd htunnel)
    rw [htunnel] at hnone
    obtain rfl := List.mem_singleton.mp hlistener
    exact ⟨hnone, proxy, addresses, rfl, hresolve, haddress, hcontains⟩
  | tunneled => cases h
  | direct => exact absurd rfl ((connectTarget_error h).2 _)

/-- The prepared stream is one of the dialed connections, or what follows the negotiation of a tunnel on one. -/
theorem Preparation.prepared (hprepare : Preparation httparse network listenAddr target upstream result)
    {prepared : PreparedExplicitUpstream} (h : result.2 = .ok prepared) : ∃ address stream,
      (address, .ok stream) ∈ network.attempts result.1 ∧
      match upstream with
      | none => prepared.stream = ⟨.transport stream.reader, stream.writer⟩
      | some _ => Opens httparse maxInformationalResponses stream.reader.contents prepared.stream.reader.contents := by
  cases hprepare with
  | refused | unresolved | notTunneled => cases h
  | tunneled htunnel =>
    obtain rfl := Except.ok.inj h
    obtain ⟨address, stream, hattempt, -, hconnected⟩ := connectTunnel_ok (congrArg Prod.snd htunnel)
    rw [htunnel] at hattempt
    exact ⟨address, stream, hattempt, connectedTunnel_contents httparse target hconnected⟩
  | direct => exact connectTarget_ok h

end Preparation

section Serving

/-- `ExplicitIngressFactory::start`: a next hop that is an address must not be the listener itself. -/
def startIngress (host : Host) (listenAddr : SocketAddr) (route : Option HttpConnectProxy) :
    Except ExplicitUpstreamError Unit :=
  refuseSelfTarget host listenAddr (route.bind fun proxy => literalAddress proxy.endpoint).toList

theorem startIngress_ok {host : Host} {listenAddr address : SocketAddr} {proxy : HttpConnectProxy}
    (h : startIngress host listenAddr (some proxy) = .ok ()) (haddress : literalAddress proxy.endpoint = some address) :
    ¬ host.Reaches listenAddr address := by
  refine Host.not_reaches (refuseSelfTarget_eq_ok.mp h address ?_)
  rw [Option.bind_some, haddress]
  exact List.mem_singleton_self _

/-- A connection that was accepted, with the route it keeps and what it meets. -/
structure AcceptedConnection where
  network : Network
  upstream : Option HttpConnectProxy
  client : BoxedDuplexStream

/-- Why a connection does not become a flow. -/
inductive ConnectionError where
  | request (source : ExplicitRequestError)
  | upstream (source : ExplicitUpstreamError)
  deriving DecidableEq, Repr

/-- What a connection comes to: the addresses that are dialed for it, the response to its client and its upstream. -/
structure Served where
  dialed : List SocketAddr
  response : Option ProxyResponse
  result : Except ConnectionError PreparedExplicitUpstream

variable (httparse : Httparse) (types : HttpTypes) (chunk : Nat) (listenAddr : SocketAddr)

namespace AcceptedConnection

/-- `ExplicitConnection::into_flow`. -/
def serve (connection : AcceptedConnection) : Served :=
  match (decodeExplicit httparse types maxExplicitProxyHeaderBytes chunk connection.client.reader).1 with
  | .error source => ⟨[], decoderResponse source, .error (.request source)⟩
  | .ok decoded =>
    match prepareUpstream httparse connection.network connection.upstream listenAddr decoded.target with
    | (dialed, .error e) => ⟨dialed, some e.response, .error (.upstream e)⟩
    | (dialed, .ok prepared) =>
      ⟨dialed, if decoded.protocol = .httpConnect then some .connectionEstablished else none, .ok prepared⟩

/-- The upstream that the flow of the connection gets for a target. -/
def prepare (connection : AcceptedConnection) (target : TargetAuthority) : Option BoxedDuplexStream :=
  (prepareUpstream httparse connection.network connection.upstream listenAddr target).2.toOption.map (·.stream)

end AcceptedConnection

/-- No dialed address leads back into the listener, and the flow runs on a connection that was dialed. A target is refused
with 403, and a next hop as a loop, only for an address that leads back or is unspecified, before anything is dialed. -/
structure Guarded (connection : AcceptedConnection) (served : Served) : Prop where
  dialed : ∀ address ∈ served.dialed, ¬ connection.network.host.Reaches listenAddr address
  prepared : ∀ prepared, served.result = .ok prepared → ∃ address ∈ served.dialed, ∃ stream,
    (address, .ok stream) ∈ connection.network.attempts served.dialed ∧
    match connection.upstream with
    | none => prepared.stream = ⟨.transport stream.reader, stream.writer⟩
    | some _ => Opens httparse maxInformationalResponses stream.reader.contents prepared.stream.reader.contents
  forbidden : served.response = some .forbidden → served.dialed = [] ∧ ∃ decoded reader,
    decodeExplicit httparse types maxExplicitProxyHeaderBytes chunk connection.client.reader = (.ok decoded, reader) ∧
    ∃ address ∈ candidates connection.network connection.upstream decoded.target, address.port = listenAddr.port ∧
      ((canonicalIp address.ip).isUnspecified ∨ connection.network.host.Reaches listenAddr address)
  looped : ∀ address, served.result = .error (.upstream (.upstreamProxy (.loop address))) → served.dialed = [] ∧
    ∃ proxy addresses, connection.upstream = some proxy ∧ resolveProxy connection.network proxy.endpoint = .ok addresses ∧
      address ∈ addresses ∧ address.port = listenAddr.port ∧
      ((canonicalIp address.ip).isUnspecified ∨ connection.network.host.Reaches listenAddr address)
  established : served.response = some .connectionEstablished → ∃ prepared, served.result = .ok prepared
  flow : ∀ flow, intoFlow httparse types chunk (connection.prepare httparse listenAddr) connection.client = .ok flow →
    ∃ prepared, served.result = .ok prepared ∧ prepared.stream = flow.upstream

variable {httparse types chunk listenAddr}

theorem response_forbidden {e : ExplicitUpstreamError} (h : e.response = .forbidden) : e = .selfTarget := by
  cases e with
  | upstreamProxy source => cases source <;> cases h
  | selfTarget => rfl
  | _ => cases h

theorem response_not_established (e : ExplicitUpstreamError) : e.response ≠ .connectionEstablished := by
  cases e with
  | upstreamProxy source => cases source <;> rintro ⟨⟩
  | _ => rintro ⟨⟩

theorem decoderResponse_cases (source : ExplicitRequestError) :
    decoderResponse source ≠ some .forbidden ∧ decoderResponse source ≠ some .connectionEstablished := by
  cases source <;> exact ⟨by rintro ⟨⟩, by rintro ⟨⟩⟩

/-- What a served connection comes to: its request is not decoded, its upstream cannot be prepared, or it has one. -/
theorem serve_cases (connection : AcceptedConnection) :
    (∃ source reader, decodeExplicit httparse types maxExplicitProxyHeaderBytes chunk connection.client.reader =
        (.error source, reader) ∧ connection.serve httparse types chunk listenAddr =
          ⟨[], decoderResponse source, .error (.request source)⟩) ∨
    ∃ decoded reader, decodeExplicit httparse types maxExplicitProxyHeaderBytes chunk connection.client.reader =
        (.ok decoded, reader) ∧
      ((∃ dialed e, prepareUpstream httparse connection.network connection.upstream listenAddr decoded.target =
          (dialed, .error e) ∧ connection.serve httparse types chunk listenAddr =
            ⟨dialed, some e.response, .error (.upstream e)⟩) ∨
        ∃ dialed prepared, prepareUpstream httparse connection.network connection.upstream listenAddr decoded.target =
          (dialed, .ok prepared) ∧ connection.serve httparse types chunk listenAddr =
            ⟨dialed, if decoded.protocol = .httpConnect then some .connectionEstablished else none, .ok prepared⟩) := by
  rw [AcceptedConnection.serve]
  rcases decodeExplicit httparse types maxExplicitProxyHeaderBytes chunk connection.client.reader with ⟨source | decoded, reader⟩
  · exact .inl ⟨source, reader, rfl, rfl⟩
  · refine .inr ⟨decoded, reader, rfl, ?_⟩
    simp only
    rcases prepareUpstream httparse connection.network connection.upstream listenAddr decoded.target with ⟨dialed, e | prepared⟩
    · exact .inl ⟨dialed, e, rfl, rfl⟩
    · exact .inr ⟨dialed, prepared, rfl, rfl⟩

theorem flow_prepared {connection : AcceptedConnection} {decoded : DecodedExplicitRequest} {reader : ClientStream}
    {flow : ExplicitFlow} (hdecode : decodeExplicit httparse types maxExplicitProxyHeaderBytes chunk connection.client.reader =
      (.ok decoded, reader))
    (h : intoFlow httparse types chunk (connection.prepare httparse listenAddr) connection.client = .ok flow) :
    ∃ prepared, (prepareUpstream httparse connection.network connection.upstream listenAddr decoded.target).2 = .ok prepared ∧
      prepared.stream = flow.upstream := by
  obtain ⟨_, hdecode', hprepare, -⟩ := intoFlow_ok h
  obtain rfl := Except.ok.inj (congrArg Prod.fst (hdecode.symm.trans hdecode'))
  obtain ⟨prepared, hprepared, hstream⟩ := Option.map_eq_some_iff.mp hprepare
  exact ⟨prepared, toOption_eq_some.mp hprepared, hstream⟩

/-- Whatever the resolver answers, whichever connections succeed and whatever the client sends. -/
theorem serve_guarded (connection : AcceptedConnection) (hbound : connection.network.host.Bound listenAddr) :
    Guarded httparse types chunk listenAddr connection (connection.serve httparse types chunk listenAddr) := by
  rcases @serve_cases httparse types chunk listenAddr connection with ⟨source, reader, hdecode, hserve⟩ |
    ⟨decoded, reader, hdecode, ⟨dialed, e, hprepare, hserve⟩ | ⟨dialed, prepared, hprepare, hserve⟩⟩ <;> rw [hserve]
  · refine ⟨by simp, by rintro _ ⟨⟩, fun h => absurd h (decoderResponse_cases source).1, by rintro _ ⟨⟩,
      fun h => absurd h (decoderResponse_cases source).2, fun flow hflow => ?_⟩
    obtain ⟨_, hok, -⟩ := intoFlow_ok hflow
    rw [hdecode] at hok
    cases hok
  · have hcases := hprepare ▸ prepareUpstream_cases httparse connection.network connection.upstream listenAddr decoded.target
    refine ⟨fun address haddress => hcases.dialed haddress, by rintro _ ⟨⟩, fun h => ?_,
      fun address h => ?_, fun h => absurd (Option.some.inj h) (response_not_established e), fun flow hflow => ?_⟩
    · obtain rfl := response_forbidden (Option.some.inj h)
      obtain ⟨hnone, address, hcandidate, hcontains⟩ := hcases.selfTarget rfl
      obtain ⟨hport, hreaches⟩ := Host.reaches_or_unspecified hbound hcontains
      exact ⟨hnone, decoded, reader, hdecode, address, hcandidate, hport, hreaches⟩
    · obtain rfl := ConnectionError.upstream.inj (Except.error.inj h)
      obtain ⟨hnone, proxy, addresses, hproxy, hresolve, haddress, hcontains⟩ := hcases.loop rfl
      exact ⟨hnone, proxy, addresses, hproxy, hresolve, haddress, Host.reaches_or_unspecified hbound hcontains⟩
    · obtain ⟨_, hok, -⟩ := flow_prepared hdecode hflow
      rw [hprepare] at hok
      cases hok
  · have hcases := hprepare ▸ prepareUpstream_cases httparse connection.network connection.upstream listenAddr decoded.target
    refine ⟨fun address haddress => hcases.dialed haddress, ?_, fun h => ?_,
      by rintro _ ⟨⟩, fun _ => ⟨prepared, rfl⟩, fun flow hflow => ?_⟩
    · rintro _ ⟨⟩
      obtain ⟨address, stream, hattempt, hstream⟩ := hcases.prepared rfl
      exact ⟨address, connection.network.dialed dialed _ hattempt, stream, hattempt, hstream⟩
    · simp only at h
      split at h <;> cases h
    · obtain ⟨prepared', hok, hstream⟩ := flow_prepared hdecode hflow
      rw [hprepare] at hok
      obtain rfl := Except.ok.inj hok
      exact ⟨prepared, rfl, hstream⟩

end Serving

section Sample

theorem mem_of_answered {addresses : List SocketAddr} (stream : Duplex) :
    ∀ attempt ∈ addresses.map (fun address => (address, (Except.ok stream : Except ErrorKind Duplex))),
      attempt.1 ∈ addresses := by
  intro attempt hattempt
  obtain ⟨address, haddress, rfl⟩ := List.mem_map.mp hattempt
  exact haddress

/-- A resolver with fixed answers, on a host with one address on which every attempt succeeds. -/
def answering (answers : List IpAddr) : Network where
  host := ⟨[.v4 ⟨10, 0, 0, 2⟩], fun _ => none⟩
  lookupHost _ port := .found (answers.map fun ip => ⟨ip, port⟩)
  attempts addresses := addresses.map fun address => (address, .ok ⟨endedReader, willingWriter⟩)
  dialed _ := mem_of_answered _
  peerAddr := .ok
  handshakeInTime := true

def wildcardListener : SocketAddr := ⟨.v4 ⟨0, 0, 0, 0⟩, 80⟩

/-- A name is refused when one of its addresses is the listener's, and dialed when none is. -/
theorem answered_guarded :
    let serve := AcceptedConnection.serve canonicalHttparse listenerTypes 1024 wildcardListener
    let rebound : AcceptedConnection := ⟨answering [.v4 ⟨10, 0, 0, 9⟩, .v4 ⟨10, 0, 0, 2⟩], none, proxiedGet⟩
    let remote : AcceptedConnection := ⟨answering [.v4 ⟨10, 0, 0, 9⟩], none, proxiedGet⟩
    (serve rebound).response = some .forbidden ∧ (serve rebound).dialed = [] ∧
      (serve remote).response = none ∧ (serve remote).dialed = [⟨.v4 ⟨10, 0, 0, 9⟩, 80⟩] ∧
      Guarded canonicalHttparse listenerTypes 1024 wildcardListener remote (serve remote) := by
  refine ⟨by decide +kernel, by decide +kernel, by decide +kernel, by decide +kernel, serve_guarded _ (.inl rfl)⟩

end Sample

end Abyss.Broker
