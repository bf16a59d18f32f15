import Abyss.Data.Result
import Abyss.Mitm.Explicit.Target
import Abyss.Mitm.Flow.Passthrough
import Abyss.Text.Utf8

/-! Connections to the next-hop proxy: no address is dialed that leads back to a listener of the broker. In the CONNECT
negotiation informational heads are passed over, a 2xx head opens the tunnel, and what was read behind it is served again. -/
namespace Abyss.Mitm.Outbound
open Abyss.Data Abyss.Stream Abyss.Text Abyss.Mitm.Http Abyss.Mitm.Explicit

/-- `MAX_HEADER_BYTES`. -/
def maxHeaderBytes : Nat := 16 * 1024

/-- `MAX_INFORMATIONAL_RESPONSES`. -/
def maxInformationalResponses : Nat := 8

inductive ProxyConnectStage where
  | resolveProxy | connectProxy | handshake
  deriving DecidableEq, Repr

/-- The failures of an established proxy connection. -/
inductive UpstreamProxyError where
  | io (stage : ProxyConnectStage) (source : ErrorKind)
  | protocol (reason : String)
  | rejected (status : Nat)
  deriving DecidableEq, Repr

def connectRequest (target : TargetAuthority) : Bytes :=
  toUtf8 ("CONNECT ".toList ++ target.display ++ " HTTP/1.1\r\nHost: ".toList ++ target.display ++ "\r\n\r\n".toList)

section Negotiation
variable (httparse : Httparse)

/-- The reading loop of `handshake`: what was read behind the 2xx head, and the stream behind that. -/
def readConnectResponse (buffer : Bytes) (informational : Nat) (reader : Reader) :
    Except UpstreamProxyError Bytes × Reader :=
  match httparse.response.run buffer with
  | .invalid _ => (.error (.protocol "malformed or excessive response headers"), reader)
  | .complete response length =>
    if maxHeaderBytes < length then (.error (.protocol "response headers exceed 16 KiB"), reader)
    else match response.code with
    | none => (.error (.protocol "missing status code"), reader)
    | some status =>
      if 200 ≤ status ∧ status < 300 then (.ok (buffer.drop length), reader)
      else if (100 ≤ status ∧ status < 200) ∧ status ≠ 101 ∧ informational < maxInformationalResponses then
        readConnectResponse (buffer.drop length) (informational + 1) reader
      else if 100 ≤ status ∧ status < 200 then
        (.error (.protocol "unsupported or excessive informational responses"), reader)
      else (.error (.rejected status), reader)
  | .incomplete =>
    if maxHeaderBytes ≤ buffer.length then (.error (.protocol "response headers exceed 16 KiB"), reader)
    else match _h : reader.read 2048 with
    | (.error source, reader) => (.error (.io .handshake source), reader)
    | (.ok [], reader) => (.error (.protocol "EOF before CONNECT response headers"), reader)
    | (.ok (b :: bs), reader) => readConnectResponse (buffer ++ (b :: bs)) informational reader
termination_by (maxInformationalResponses - informational, reader.contents.length)
decreasing_by
  · exact Prod.Lex.left _ _ (by omega)
  · exact Prod.Lex.right _ (Source.read_shrinks _h)

def handshake (target : TargetAuthority) (stream : Duplex) : Except UpstreamProxyError Bytes × Duplex :=
  match stream.writer.writeAll .writeZero (connectRequest target) with
  | (some source, writer) => (.error (.io .handshake source), { stream with writer })
  | (none, writer) =>
    match readConnectResponse httparse [] 0 stream.reader with
    | (result, reader) => (result, ⟨reader, writer⟩)

/-- The tunnel that `connect_tunnel` hands on, as its reader sees it. -/
def connectedTunnel (target : TargetAuthority) (stream : Duplex) : Except UpstreamProxyError Flow.ClientStream :=
  match handshake httparse target stream with
  | (.ok front, stream) => .ok (Flow.prefixedDuplexStream front (.transport stream.reader))
  | (.error e, _) => .error e

end Negotiation

section Specification
variable (httparse : Httparse)

def IsSuccess (status : Nat) : Prop := 200 ≤ status ∧ status < 300

def IsInformational (status : Nat) : Prop := 100 ≤ status ∧ status < 200

/-- One complete response head within the limit. -/
def IsHead (status : Nat) (head : Bytes) : Prop :=
  ∃ response, httparse.response.run head = .complete response head.length ∧ response.code = some status ∧
    head.length ≤ maxHeaderBytes

/-- Up to `limit` informational heads other than 101. -/
def AreInterim (limit : Nat) (heads : List Bytes) : Prop :=
  heads.length ≤ limit ∧ ∀ head ∈ heads, ∃ status, IsInformational status ∧ status ≠ 101 ∧ IsHead httparse status head

/-- The proxy opens the tunnel, and `rest` are its first bytes and all that follow. -/
def Opens (limit : Nat) (contents rest : Bytes) : Prop :=
  ∃ heads head status, AreInterim httparse limit heads ∧ IsHead httparse status head ∧ IsSuccess status ∧
    contents = heads.flatten ++ (head ++ rest)

/-- The first head that is not passed over is a final one without success. -/
def Rejects (limit : Nat) (contents : Bytes) (status : Nat) : Prop :=
  ∃ heads head rest, AreInterim httparse limit heads ∧ IsHead httparse status head ∧ ¬ IsSuccess status ∧
    ¬ IsInformational status ∧ contents = heads.flatten ++ (head ++ rest)

/-- What a negotiation comes to; the texts of protocol errors are not told apart. -/
inductive Verdict where
  | tunnel (rest : Bytes)
  | rejected (status : Nat)
  | protocol
  | io (source : ErrorKind)
  deriving DecidableEq, Repr

def verdict : Except UpstreamProxyError Bytes × Reader → Verdict
  | (.ok front, reader) => .tunnel (front ++ reader.contents)
  | (.error (.rejected status), _) => .rejected status
  | (.error (.protocol _), _) => .protocol
  | (.error (.io _ source), _) => .io source

/-- The verdict on a whole stream, with room for `limit` more informational heads. -/
def expected (ending : Option ErrorKind) : Nat → Bytes → Verdict
  | limit, contents =>
    match httparse.response.run contents with
    | .invalid _ => .protocol
    | .complete response length =>
      if maxHeaderBytes < length then .protocol
      else match response.code with
      | none => .protocol
      | some status =>
        if 200 ≤ status ∧ status < 300 then .tunnel (contents.drop length)
        else if 100 ≤ status ∧ status < 200 then
          match limit with
          | 0 => .protocol
          | limit + 1 => if status = 101 then .protocol else expected ending limit (contents.drop length)
        else .rejected status
    | .incomplete =>
      if maxHeaderBytes ≤ contents.length then .protocol
      else (ending.map Verdict.io).getD .protocol

end Specification
section Listener

/-- `Ipv6Addr::LOCALHOST`. -/
def ipv6Localhost : Ipv6Addr := ⟨[0, 0, 0, 0, 0, 0, 0, 1], rfl⟩

def canonicalIp : IpAddr → IpAddr
  | .v4 address => .v4 address
  | .v6 address => match address.toIpv4Mapped with
    | some mapped => .v4 mapped
    | none => .v6 address

/-- The addresses of the interfaces, and the fault of listing them while a candidate is checked. -/
structure Host where
  interfaces : List IpAddr
  listingFault : SocketAddr → Option ErrorKind

namespace Host
variable (host : Host)

/-- `ListenerEndpoint::contains`. -/
def listenerContains (listener candidate : SocketAddr) : Except ErrorKind Bool :=
  if candidate.port ≠ listener.port then .ok false else
  let candidateIp := canonicalIp candidate.ip
  let listenerIp := canonicalIp listener.ip
  if candidateIp.isUnspecified || candidateIp = listenerIp then .ok true
  else if !listenerIp.isUnspecified then .ok false
  -- a wildcard of IPv6 may also accept mapped connections
  else if listenerIp.isIpv4 && !candidateIp.isIpv4 then .ok false
  else if candidateIp.isLoopback then .ok true
  else match host.listingFault candidate with
    | some source => .error source
    | none => .ok (host.interfaces.any (fun interface => canonicalIp interface = candidateIp))

/-- An address of the host itself. -/
def Owns (ip : IpAddr) : Prop := ip.isLoopback ∨ ∃ interface ∈ host.interfaces, canonicalIp interface = ip

/-- A connection to an unspecified address goes to the loopback address. -/
def delivered (ip : IpAddr) : IpAddr :=
  if ip.isUnspecified then match ip with
    | .v4 _ => .v4 ⟨127, 0, 0, 1⟩
    | .v6 _ => .v6 ipv6Localhost
  else ip

/-- A socket that is bound to an address takes connections to it, and one that is bound to a wildcard takes all of its
family, where IPv6 includes IPv4. -/
def Takes (bound ip : IpAddr) : Prop := bound = ip ∨ bound.isUnspecified ∧ (bound.isIpv4 → ip.isIpv4)

/-- A connection to the candidate arrives at the listener. -/
structure Reaches (listener candidate : SocketAddr) : Prop where
  port : candidate.port = listener.port
  owned : host.Owns (delivered (canonicalIp candidate.ip))
  taken : Takes (canonicalIp listener.ip) (delivered (canonicalIp candidate.ip))

/-- The listener is bound to a wildcard or to an address of the host. -/
def Bound (listener : SocketAddr) : Prop :=
  (canonicalIp listener.ip).isUnspecified ∨ host.Owns (canonicalIp listener.ip)

variable {host}

theorem delivered_of_specified {ip : IpAddr} (h : ip.isUnspecified = false) : delivered ip = ip := by
  simp only [delivered, h, Bool.false_eq_true, if_false]

/-- What passes the check does not arrive at the listener. -/
theorem not_reaches {listener candidate : SocketAddr} (h : host.listenerContains listener candidate = .ok false) :
    ¬ host.Reaches listener candidate := by
  rintro ⟨hport, howned, htaken⟩
  simp only [listenerContains] at h
  rw [if_neg (not_not_intro hport)] at h
  split at h
  · cases h
  · next hother =>
    simp only [Bool.or_eq_true, decide_eq_true_eq, not_or, Bool.not_eq_true] at hother
    obtain ⟨hspecified, hdifferent⟩ := hother
    rw [delivered_of_specified hspecified] at howned htaken
    rcases htaken with heq | ⟨hwildcard, hfamily⟩
    · exact hdifferent heq.symm
    · rw [if_neg (by simp [hwildcard])] at h
      split at h
      · next hv4 =>
        simp only [Bool.and_eq_true, Bool.not_eq_true'] at hv4
        exact absurd (hfamily hv4.1) (by simp [hv4.2])
      · split at h
        · cases h
        · next hloopback =>
          split at h
          · cases h
          · rcases howned with hself | ⟨interface, hmem, heq⟩
            · exact hloopback hself
            · have hany := Except.ok.inj h
              rw [List.any_eq_false] at hany
              exact hany interface hmem (decide_eq_true heq)

/-- What is refused arrives at the listener, or names no address of its own. -/
theorem reaches_or_unspecified {listener candidate : SocketAddr} (hbound : host.Bound listener)
    (h : host.listenerContains listener candidate = .ok true) :
    candidate.port = listener.port ∧
      ((canonicalIp candidate.ip).isUnspecified ∨ host.Reaches listener candidate) := by
  simp only [listenerContains] at h
  split at h
  · cases h
  · next hport =>
    have hport := not_not.mp hport
    refine ⟨hport, or_iff_not_imp_left.mpr fun hspecified => ?_⟩
    have hspecified := Bool.eq_false_of_not_eq_true hspecified
    have hdelivered := delivered_of_specified hspecified
    by_cases hsame : canonicalIp candidate.ip = canonicalIp listener.ip
    · refine ⟨hport, ?_, ?_⟩ <;> rw [hdelivered]
      · rcases hbound with hwildcard | howns
        · rw [← hsame, hspecified] at hwildcard
          cases hwildcard
        · exact hsame ▸ howns
      · exact .inl hsame.symm
    · simp only [hspecified, hsame, decide_false, Bool.or_self, Bool.false_eq_true, if_false] at h
      split at h
      · cases h
      · next hwildcard =>
        have hwildcard : (canonicalIp listener.ip).isUnspecified = true := by simpa using hwildcard
        split at h
        · cases h
        · next hfamily =>
          have htakes : Takes (canonicalIp listener.ip) (canonicalIp candidate.ip) :=
            .inr ⟨hwildcard, fun hv4 => by simpa [hv4] using hfamily⟩
          refine ⟨hport, ?_, ?_⟩ <;> rw [hdelivered]
          · split at h
            · next hloopback => exact .inl hloopback
            · split at h
              · cases h
              · obtain ⟨interface, hmem, heq⟩ := List.any_eq_true.mp (Except.ok.inj h)
                exact .inr ⟨interface, hmem, of_decide_eq_true heq⟩
          · exact htakes

end Host
end Listener

section Connecting

/-- What the resolver answers within its time. -/
inductive Lookup where
  | timedOut
  | failed (source : ErrorKind)
  | found (addresses : List SocketAddr)

/-- What one connection meets: the host, the resolver, the attempts to connect to the dialed addresses in the order in
which they finish before the deadline, the peers that sockets report, and whether a negotiation stays within its time. -/
structure Network where
  host : Host
  lookupHost : Str → UInt16 → Lookup
  attempts : List SocketAddr → List (SocketAddr × Except ErrorKind Duplex)
  dialed : ∀ addresses, ∀ attempt ∈ attempts addresses, attempt.1 ∈ addresses
  peerAddr : SocketAddr → Except ErrorKind SocketAddr
  handshakeInTime : Bool

/-- All addresses are dialed at once. The first connection is taken; if every attempt fails, the last failure is reported,
and none if the deadline comes first. -/
def firstConnected : Nat → ErrorKind → List (SocketAddr × Except ErrorKind Duplex) →
    Except (Option ErrorKind) (SocketAddr × Duplex)
  | 0, lastError, [] => .error (some lastError)
  | _ + 1, _, [] => .error none
  | _, _, (address, .ok stream) :: _ => .ok (address, stream)
  | pending, _, (_, .error source) :: rest => firstConnected (pending - 1) source rest

/-- The failures of a tunnel before and during its negotiation. -/
inductive TunnelError where
  | timeout (stage : ProxyConnectStage)
  | loop (address : SocketAddr)
  | failed (source : UpstreamProxyError)
  deriving DecidableEq, Repr

structure ConnectedTunnel where
  stream : Flow.BoxedDuplexStream
  proxyPeer : SocketAddr

/-- `HttpConnectProxy::resolve`. -/
def resolveProxy (network : Network) (endpoint : TargetAuthority) : Except TunnelError (List SocketAddr) :=
  match endpoint.host with
  | .ip address => .ok [⟨address, endpoint.port⟩]
  | .dns host => match network.lookupHost host endpoint.port with
    | .timedOut => .error (.timeout .resolveProxy)
    | .failed source => .error (.failed (.io .resolveProxy source))
    | .found [] => .error (.failed (.io .resolveProxy .other))
    | .found addresses => .ok addresses

/-- Refuses addresses that belong to an excluded listener, each against all listeners. -/
def refuseLoops (host : Host) (addresses excluded : List SocketAddr) : Except TunnelError Unit :=
  refuseAny
    (fun (address, listener) => (host.listenerContains listener address).mapError fun source =>
      .failed (.io .connectProxy source))
    (fun (address, _) => .loop address)
    (addresses.flatMap fun address => excluded.map (address, ·))

def openTunnel (httparse : Httparse) (network : Network) (target : TargetAuthority) (addresses : List SocketAddr) :
    Except TunnelError ConnectedTunnel :=
  match firstConnected addresses.length .other (network.attempts addresses) with
  | .error none => .error (.timeout .connectProxy)
  | .error (some source) => .error (.failed (.io .connectProxy source))
  | .ok (address, stream) =>
    match network.peerAddr address with
    | .error source => .error (.failed (.io .connectProxy source))
    | .ok proxyPeer =>
      if !network.handshakeInTime then .error (.timeout .handshake)
      else match handshake httparse target stream with
        | (.error source, _) => .error (.failed source)
        | (.ok front, stream) => .ok ⟨⟨Flow.prefixedDuplexStream front (.transport stream.reader), stream.writer⟩, proxyPeer⟩

/-- `connect_tunnel`, with the addresses it dials. -/
def connectTunnel (httparse : Httparse) (network : Network) (endpoint target : TargetAuthority)
    (excluded : List SocketAddr) : List SocketAddr × Except TunnelError ConnectedTunnel :=
  match resolveProxy network endpoint with
  | .error e => ([], .error e)
  | .ok addresses =>
    match refuseLoops network.host addresses excluded with
    | .error e => ([], .error e)
    | .ok () => (addresses, openTunnel httparse network target addresses)

theorem firstConnected_ok {pending : Nat} {lastError : ErrorKind} {finished : List (SocketAddr × Except ErrorKind Duplex)}
    {address : SocketAddr} {stream : Duplex} (h : firstConnected pending lastError finished = .ok (address, stream)) :
    (address, .ok stream) ∈ finished := by
  fun_induction firstConnected pending lastError finished with
  | case1 | case2 => cases h
  | case3 =>
    cases h
    exact List.mem_cons_self
  | case4 pending lastError failed source rest ih => exact List.mem_cons_of_mem _ (ih h)

theorem refuseLoops_eq_ok {host : Host} {addresses excluded : List SocketAddr} :
    refuseLoops host addresses excluded = .ok () ↔
      ∀ address ∈ addresses, ∀ listener ∈ excluded, host.listenerContains listener address = .ok false := by
  simp only [refuseLoops, refuseAny_eq_ok, List.mem_flatMap, List.mem_map, mapError_eq_ok]
  constructor
  · intro h address haddress listener hlistener
    exact h (address, listener) ⟨address, haddress, listener, hlistener, rfl⟩
  · rintro h _ ⟨address, haddress, listener, hlistener, rfl⟩
    exact h address haddress listener hlistener

/-- An address that is reported as a loop belongs to an excluded listener. -/
theorem refuseLoops_loop {host : Host} {addresses excluded : List SocketAddr} {address : SocketAddr}
    (h : refuseLoops host addresses excluded = .error (.loop address)) :
    address ∈ addresses ∧ ∃ listener ∈ excluded, host.listenerContains listener address = .ok true := by
  obtain ⟨pair, hmem, hcheck⟩ := refuseAny_eq_error h
  obtain ⟨candidate, hcandidate, hpair⟩ := List.mem_flatMap.mp hmem
  obtain ⟨listener, hlistener, rfl⟩ := List.mem_map.mp hpair
  rcases hcheck with hfailed | ⟨hfound, heq⟩
  · obtain ⟨_, -, ⟨⟩⟩ := mapError_eq_error.mp hfailed
  · obtain rfl := TunnelError.loop.inj heq
    exact ⟨hcandidate, listener, hlistener, mapError_eq_ok.mp hfound⟩

variable {httparse : Httparse} {network : Network} {endpoint target : TargetAuthority} {excluded : List SocketAddr}

/-- Nothing is dialed if the endpoint is not resolved or one of its addresses is refused, and else all of them are. -/
theorem connectTunnel_cases :
    (∃ e, resolveProxy network endpoint = .error e ∧ connectTunnel httparse network endpoint target excluded = ([], .error e)) ∨
    ∃ addresses, resolveProxy network endpoint = .ok addresses ∧
      ((∃ e, refuseLoops network.host addresses excluded = .error e ∧
          connectTunnel httparse network endpoint target excluded = ([], .error e)) ∨
        refuseLoops network.host addresses excluded = .ok () ∧
          connectTunnel httparse network endpoint target excluded =
            (addresses, openTunnel httparse network target addresses)) := by
  unfold connectTunnel
  split
  · next e hresolve => exact .inl ⟨e, hresolve, rfl⟩
  · next addresses hresolve =>
    refine .inr ⟨addresses, hresolve, ?_⟩
    split
    · next e hrefuse => exact .inl ⟨e, hrefuse, rfl⟩
    · next hrefuse => exact .inr ⟨hrefuse, rfl⟩

/-- No dialed address leads to an excluded listener. -/
theorem connectTunnel_dialed {address listener : SocketAddr}
    (h : address ∈ (connectTunnel httparse network endpoint target excluded).1) (hlistener : listener ∈ excluded) :
    ¬ network.host.Reaches listener address := by
  rcases @connectTunnel_cases httparse network endpoint target excluded with
    ⟨e, -, hnone⟩ | ⟨addresses, -, ⟨e, -, hnone⟩ | ⟨hrefuse, hall⟩⟩
  · rw [hnone] at h
    cases h
  · rw [hnone] at h
    cases h
  · rw [hall] at h
    exact Host.not_reaches (refuseLoops_eq_ok.mp hrefuse address h listener hlistener)

theorem resolveProxy_no_loop {address : SocketAddr} : resolveProxy network endpoint ≠ .error (.loop address) := by
  unfold resolveProxy
  split
  · rintro ⟨⟩
  · split <;> rintro ⟨⟩

theorem openTunnel_no_loop {addresses : List SocketAddr} {address : SocketAddr} :
    openTunnel httparse network target addresses ≠ .error (.loop address) := by
  unfold openTunnel
  split
  · rintro ⟨⟩
  · rintro ⟨⟩
  · split
    · rintro ⟨⟩
    · split
      · rintro ⟨⟩
      · split <;> rintro ⟨⟩

/-- A loop is reported before anything is dialed. -/
theorem connectTunnel_loop {address : SocketAddr}
    (h : (connectTunnel httparse network endpoint target excluded).2 = .error (.loop address)) :
    (connectTunnel httparse network endpoint target excluded).1 = [] ∧
      ∃ addresses, resolveProxy network endpoint = .ok addresses ∧ address ∈ addresses ∧
        ∃ listener ∈ excluded, network.host.listenerContains listener address = .ok true := by
  rcases @connectTunnel_cases httparse network endpoint target excluded with
    ⟨e, hresolve, hnone⟩ | ⟨addresses, hresolve, ⟨e, hrefuse, hnone⟩ | ⟨-, hall⟩⟩
  · rw [hnone] at h
    obtain rfl := Except.error.inj h
    exact absurd hresolve resolveProxy_no_loop
  · rw [hnone] at h ⊢
    obtain rfl := Except.error.inj h
    exact ⟨rfl, addresses, hresolve, refuseLoops_loop hrefuse⟩
  · rw [hall] at h
    exact absurd h openTunnel_no_loop

theorem openTunnel_ok {addresses : List SocketAddr} {tunnel : ConnectedTunnel}
    (h : openTunnel httparse network target addresses = .ok tunnel) :
    ∃ address stream, (address, .ok stream) ∈ network.attempts addresses ∧
      network.peerAddr address = .ok tunnel.proxyPeer ∧ connectedTunnel httparse target stream = .ok tunnel.stream.reader := by
  unfold openTunnel at h
  split at h
  · cases h
  · cases h
  · next address stream hfirst =>
    split at h
    · cases h
    · next proxyPeer hpeer =>
      split at h
      · cases h
      · split at h
        · cases h
        · next front stream' hhandshake =>
          obtain rfl := Except.ok.inj h
          refine ⟨address, stream, firstConnected_ok hfirst, hpeer, ?_⟩
          rw [connectedTunnel, hhandshake]

/-- A tunnel is one of the dialed connections, behind its negotiation. -/
theorem connectTunnel_ok {tunnel : ConnectedTunnel}
    (h : (connectTunnel httparse network endpoint target excluded).2 = .ok tunnel) :
    ∃ address stream, (address, .ok stream) ∈ network.attempts (connectTunnel httparse network endpoint target excluded).1 ∧
      network.peerAddr address = .ok tunnel.proxyPeer ∧ connectedTunnel httparse target stream = .ok tunnel.stream.reader := by
  rcases @connectTunnel_cases httparse network endpoint target excluded with
    ⟨e, -, hnone⟩ | ⟨addresses, -, ⟨e, -, hnone⟩ | ⟨-, hall⟩⟩
  · rw [hnone] at h
    cases h
  · rw [hnone] at h
    cases h
  · rw [hall] at h ⊢
    exact openTunnel_ok h

end Connecting

end Abyss.Mitm.Outbound
