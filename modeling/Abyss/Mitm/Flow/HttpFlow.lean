import Abyss.Mitm.Explicit.HostHeader
import Abyss.Mitm.Flow.Passthrough
import Abyss.Mitm.Relay.ForwardedHead

/-! The HTTP pipelines behind routing: the first request is decoded and checked against the
target that an explicit proxy request declared, before anything is relayed for it. -/
namespace Abyss.Mitm.Flow
open Abyss.Stream Abyss.Text Abyss.Mitm.Tls Abyss.Mitm.Http Abyss.Mitm.Explicit Abyss.Mitm.Relay

inductive TransparentProtocol where
  | plainHttp
  | tlsHttp (serverName : Str)
  deriving DecidableEq, Repr

/-- The port of an authority that declares none. -/
def TransparentProtocol.defaultPort : TransparentProtocol → UInt16
  | .plainHttp => 80
  | .tlsHttp _ => 443

structure FlowContext where
  destinationHost : Option Str
  protocol : TransparentProtocol
  sourceProcess : Option SourceProcess
  ingress : FlowIngress

def proxyTarget : FlowIngress → Option TargetAuthority
  | .explicitProxy target => some target
  | .transparent => none

namespace FlowContext

def validateHttpTarget (types : HttpTypes) (context : FlowContext) (request : Request) :
    Except TransparentFlowError Unit :=
  match proxyTarget context.ingress with
  | none => .ok ()
  | some target =>
    if request.uri.scheme.isSome || request.uri.authority.isSome then .error (.proxyTargetRequestForm target.display)
    else match request.headers.getAll (ascii "host") with
      | [] => .error (.proxyTargetHostMismatch target.display)
      | _ :: _ :: _ => .error (.proxyTargetHostMismatch target.display)
      | [host] =>
        if (toStr host).any (fun host => target.matchesHttpAuthority types host context.protocol.defaultPort) then .ok ()
        else .error (.proxyTargetHostMismatch target.display)

end FlowContext

/-- A request that names a target: it carries no authority of its own, and its one `Host` is the target. -/
structure NamesTarget (types : HttpTypes) (target : TargetAuthority) (defaultPort : UInt16) (request : Request) : Prop where
  noScheme : request.uri.scheme = none
  noAuthority : request.uri.authority = none
  oneHost : ∃ value text, request.headers.getAll (ascii "host") = [value] ∧ toStr value = some text ∧
    parseTargetAuthority types (trim text) (some defaultPort) = .ok target

/-- The check accepts exactly the requests that name the declared target. -/
theorem validateHttpTarget_iff {types : HttpTypes} {context : FlowContext} {target : TargetAuthority} {request : Request}
    (htarget : context.ingress = .explicitProxy target) :
    context.validateHttpTarget types request = .ok () ↔
      NamesTarget types target context.protocol.defaultPort request := by
  unfold FlowContext.validateHttpTarget
  simp only [htarget, proxyTarget]
  split
  · next hform =>
    refine iff_of_false (by simp) ?_
    intro h
    simp [h.noScheme, h.noAuthority] at hform
  · next hform =>
    simp only [Bool.or_eq_true, not_or, Bool.not_eq_true, Option.isSome_eq_false_iff, Option.isNone_iff_eq_none] at hform
    split
    · next hnone =>
      refine iff_of_false (by simp) ?_
      rintro ⟨_, _, value, _, hone, _⟩
      simp [hnone] at hone
    · next hmany =>
      refine iff_of_false (by simp) ?_
      rintro ⟨_, _, value, _, hone, _⟩
      simp [hmany] at hone
    · next host hhost =>
      split
      · next hmatches =>
        obtain ⟨text, htext, hmatches⟩ := (Option.any_eq_true _ _).mp hmatches
        exact iff_of_true rfl ⟨hform.1, hform.2, host, text, hhost, htext, matchesHttpAuthority_iff.mp hmatches⟩
      · next hmatches =>
        refine iff_of_false (by simp) ?_
        rintro ⟨_, _, value, text, hone, htext, hparse⟩
        obtain rfl := List.singleton_inj.mp (hhost.symm.trans hone)
        exact hmatches ((Option.any_eq_true _ _).mpr ⟨text, htext, matchesHttpAuthority_iff.mpr hparse⟩)

/-- What the relay reads of a layered stream is its bytes and how it ends. -/
def BoxedDuplexStream.toDuplex (stream : BoxedDuplexStream) : Duplex := ⟨stream.reader.toSource, stream.writer⟩

/-- What the pipelines take from outside: the parsers, the message relay behind an upgrade, rustls and the
certificate authority. -/
structure HttpPipeline where
  httparse : Httparse
  types : HttpTypes
  chunkSizes : ChunkSizeParser
  maxHttp1BodyBytes : Nat
  websocket : WebSocketRelay FlowContext
  websocketWrites : websocket.OnlyWrites
  /-- `LazyConfigAcceptor`. -/
  startHandshake : BoxedDuplexStream → Except ErrorKind (Accepted × BoxedDuplexStream)
  serverConfigForSni : Str → Except TransparentFlowError Unit
  /-- `StartHandshake::into_stream`. -/
  intoStream : Accepted → BoxedDuplexStream → Except ErrorKind Duplex
  connectUpstreamTls : BoxedDuplexStream → Str → Except TransparentFlowError Duplex

/-- What a flow does to the outside. -/
inductive FlowEvent where
  | mintCertificate (serverName : Str)
  | connectUpstreamTls (serverName : Str)
  | relay (decoded : DecodedClientFlow FlowContext) (upstream : Duplex)
  | passthrough (tunnel : TlsPassthroughFlow) (upstream : BoxedDuplexStream)

/-- The events of a flow in order, and the error that stops it before its last pipeline step. -/
structure FlowRun where
  events : List FlowEvent
  stopped : Option TransparentFlowError

def AcceptedTcpFlow.context (flow : AcceptedTcpFlow) (protocol : TransparentProtocol) : FlowContext :=
  ⟨flow.destinationHost, protocol, flow.sourceProcess, flow.ingress⟩

namespace HttpPipeline
variable (pipeline : HttpPipeline)

/-- `DecodedClientFlow::from_http1`. -/
def fromHttp1 (stream : Duplex) (context : FlowContext) :
    Except TransparentFlowError (DecodedClientFlow FlowContext) :=
  match readHttp1Head (parseRequestHead pipeline.httparse pipeline.types) .incompleteRequest [] stream.reader with
  | (.error source, _) => .error (.http1 .readAgentRequestHead source)
  | (.ok (firstRequest, requestHeadBuffer), reader) => do
    context.validateHttpTarget pipeline.types firstRequest
    return ⟨{ stream with reader }, context, firstRequest, requestHeadBuffer⟩

/-- The relay of a decoded flow. -/
def relayTo (decoded : DecodedClientFlow FlowContext) (upstream : Duplex) : Relayed FlowContext :=
  Relay.relayTo pipeline.httparse pipeline.types pipeline.chunkSizes pipeline.websocket decoded upstream
    pipeline.maxHttp1BodyBytes

/-- `PlainHttpFlow::handle` on a prepared upstream. -/
def handlePlainHttp (flow : AcceptedTcpFlow) (upstream : BoxedDuplexStream) : FlowRun :=
  match pipeline.fromHttp1 flow.stream.toDuplex (flow.context .plainHttp) with
  | .error e => ⟨[], some e⟩
  | .ok decoded => ⟨[.relay decoded upstream.toDuplex], none⟩

/-- The handshake behind a `ClientHello`. -/
def completeHandshake (accepted : Accepted) (stream : BoxedDuplexStream) :
    List FlowEvent × Except TransparentFlowError (Duplex × Str) :=
  match accepted.serverName with
  | none => ([], .error .missingSni)
  | some serverName =>
    ([.mintCertificate serverName], do
      pipeline.serverConfigForSni serverName
      match pipeline.intoStream accepted stream with
      | .error source => .error (.io .acceptAgentTls source)
      | .ok stream => .ok (stream, serverName))

/-- `ClientTlsFlow::accept` and `ClientTlsFlow::accept_inspected`. -/
def acceptClientTls (client : TlsHttpClient) (flow : AcceptedTcpFlow) :
    List FlowEvent × Except TransparentFlowError (Duplex × Str) :=
  match client with
  | .raw => match pipeline.startHandshake flow.stream with
    | .error source => ([], .error (.io .readAgentTlsClientHello source))
    | .ok (accepted, stream) => pipeline.completeHandshake accepted stream
  | .inspected hello => pipeline.completeHandshake hello.accepted flow.stream

/-- `TlsHttpFlow::handle` behind client TLS. -/
def handleDecrypted (flow : AcceptedTcpFlow) (upstream : BoxedDuplexStream) (stream : Duplex) (serverName : Str) : FlowRun :=
  match flow.ingress.validateTlsServerName (some serverName) with
  | .error e => ⟨[], some e⟩
  | .ok () => match pipeline.connectUpstreamTls upstream serverName with
    | .error e => ⟨[.connectUpstreamTls serverName], some e⟩
    | .ok upstreamTls => match pipeline.fromHttp1 stream (flow.context (.tlsHttp serverName)) with
      | .error e => ⟨[.connectUpstreamTls serverName], some e⟩
      | .ok decoded => ⟨[.connectUpstreamTls serverName, .relay decoded upstreamTls], none⟩

def handleTlsHttp (client : TlsHttpClient) (flow : AcceptedTcpFlow) (upstream : BoxedDuplexStream) : FlowRun :=
  match pipeline.acceptClientTls client flow with
  | (events, .error e) => ⟨events, some e⟩
  | (events, .ok (stream, serverName)) =>
    let run := pipeline.handleDecrypted flow upstream stream serverName
    { run with events := events ++ run.events }

/-- `MitmEngine::handle_flow` on a prepared upstream. -/
def handleFlow (engine : MitmEngine) (flow : AcceptedTcpFlow) (upstream : BoxedDuplexStream) : FlowRun :=
  match engine.handleFlow flow with
  | .error e => ⟨[], some e⟩
  | .ok (.plainHttp flow) => pipeline.handlePlainHttp flow upstream
  | .ok (.tlsHttp client flow) => pipeline.handleTlsHttp client flow upstream
  | .ok (.passthrough tunnel) => ⟨[.passthrough tunnel upstream], none⟩

end HttpPipeline

section Decoding
variable {pipeline : HttpPipeline}

/-- A decoded request of an explicit flow names its target, and stands at the front of its stream. -/
theorem HttpPipeline.fromHttp1_ok {stream : Duplex} {context : FlowContext} {target : TargetAuthority}
    {decoded : DecodedClientFlow FlowContext} (htarget : context.ingress = .explicitProxy target)
    (h : pipeline.fromHttp1 stream context = .ok decoded) :
    decoded.context = context ∧ NamesTarget pipeline.types target context.protocol.defaultPort decoded.firstRequest ∧
      (parseRequestHead pipeline.httparse pipeline.types).run decoded.requestHeadBuffer.bytes =
        .complete decoded.firstRequest decoded.requestHeadBuffer.headLen := by
  unfold HttpPipeline.fromHttp1 at h
  split at h
  · cases h
  · next firstRequest requestHeadBuffer reader hread =>
    obtain ⟨_, hvalid, h⟩ := bind_eq_ok.mp h
    obtain rfl := Except.ok.inj h
    exact ⟨rfl, (validateHttpTarget_iff htarget).mp hvalid, (readHttp1Head_ok _ _ hread).1⟩

end Decoding

/-- `http::Uri` on targets without scheme and authority. -/
structure UriLaws (types : HttpTypes) : Prop where
  relative {bytes : Bytes} {uri : Uri} : types.uriTryFrom bytes = some uri → uri.scheme = none → uri.authority = none →
    (bytes.head? = some 47 ∨ bytes = ascii "*") ∧ ∃ value, uri.pathAndQuery = some value ∧
      (value.display.head? = some 47 ∨ value.display = ascii "*")
  origin {bytes : Bytes} {uri : Uri} : types.uriTryFrom bytes = some uri → (originTarget uri).head? = some 47 →
    ∃ uri', types.uriTryFrom (originTarget uri) = some uri' ∧ uri'.scheme = none ∧ uri'.authority = none

/-- A request target in origin form, or the asterisk, as it was read and as it is written again. -/
structure RelativeForm (types : HttpTypes) (request : Request) : Prop where
  read : ∃ path, types.uriTryFrom path = some request.uri ∧ (path.head? = some 47 ∨ path = ascii "*")
  written : (requestTarget request).head? = some 47 ∨ requestTarget request = ascii "*"

theorem NamesTarget.relativeForm {httparse : Httparse} {types : HttpTypes} (laws : UriLaws types) {target : TargetAuthority}
    {defaultPort : UInt16} {request : Request} {bytes : Bytes} {headLen : Nat}
    (h : NamesTarget types target defaultPort request)
    (hparse : (parseRequestHead httparse types).run bytes = .complete request headLen) : RelativeForm types request := by
  obtain ⟨raw, _, hraw⟩ := Incremental.tryMap_complete _ hparse
  obtain ⟨_, path, _, _, _, _, huri, _⟩ := requestFromRaw_ok.mp hraw
  obtain ⟨hpath, value, hvalue, hdisplay⟩ := laws.relative huri h.noScheme h.noAuthority
  exact ⟨⟨path, huri, hpath⟩, by simpa only [requestTarget, hvalue] using hdisplay⟩

def DetectedProtocol.defaultPort : DetectedProtocol → UInt16
  | .plainHttp => 80
  | .tls => 443

/-- The server name an event acts for. -/
def FlowEvent.serverName : FlowEvent → Option Str
  | .mintCertificate serverName => some serverName
  | .connectUpstreamTls serverName => some serverName
  | .relay _ _ => none
  | .passthrough tunnel _ => tunnel.serverName

/-- The inspected `ClientHello` of a TLS stream carries the DNS name of the target, up to case and trailing dots. -/
def SniChecked (engine : MitmEngine) (flow : AcceptedTcpFlow) (targetName serverName : Str) : Prop :=
  ∃ inspected, engine.inspect flow = .ok inspected ∧ inspected.accepted.serverName = some serverName ∧
    eqIgnoreAsciiCase (trimEndMatches targetName '.') (trimEndMatches serverName '.') = true

/-- A relayed request names the target of its flow, and is what the relay writes upstream. -/
structure RelayAgrees (pipeline : HttpPipeline) (target : TargetAuthority) (defaultPort : UInt16)
    (decoded : DecodedClientFlow FlowContext) (upstream : Duplex) : Prop where
  names : NamesTarget pipeline.types target defaultPort decoded.firstRequest
  form : RelativeForm pipeline.types decoded.firstRequest
  decodes : (parseRequestHead pipeline.httparse pipeline.types).run decoded.requestHeadBuffer.bytes =
    .complete decoded.firstRequest decoded.requestHeadBuffer.headLen
  forwards : ForwardsRequest decoded.firstRequest decoded.requestHeadBuffer upstream.writer.accepted
    (pipeline.relayTo decoded upstream).upstream.writer.accepted

/-- What an event of a flow to a declared target guarantees. -/
def EventAgrees (pipeline : HttpPipeline) (engine : MitmEngine) (target : TargetAuthority) (flow : AcceptedTcpFlow)
    (event : FlowEvent) : Prop :=
  ∃ protocol reader, detect engine.sizes.protocol flow.stream.reader = .ok (protocol, reader) ∧
    (∀ decoded upstream, event = .relay decoded upstream →
      RelayAgrees pipeline target protocol.defaultPort decoded upstream) ∧
    ∀ targetName, target.host = .dns targetName → protocol = .tls →
      ∃ serverName, SniChecked engine (flow.withReader reader) targetName serverName ∧
        ∀ name, event.serverName = some name → name = serverName

section Events
variable {pipeline : HttpPipeline} {target : TargetAuthority} {flow : AcceptedTcpFlow}

theorem relayAgrees_of_decoded (laws : UriLaws pipeline.types) {stream : Duplex} {context : FlowContext}
    {decoded : DecodedClientFlow FlowContext} (htarget : context.ingress = .explicitProxy target)
    (h : pipeline.fromHttp1 stream context = .ok decoded) (upstream : Duplex) :
    RelayAgrees pipeline target context.protocol.defaultPort decoded upstream := by
  obtain ⟨_, hnames, hdecodes⟩ := HttpPipeline.fromHttp1_ok htarget h
  exact ⟨hnames, hnames.relativeForm laws hdecodes, hdecodes,
    relayTo_forwards pipeline.websocketWrites decoded upstream pipeline.maxHttp1BodyBytes⟩

theorem handlePlainHttp_events (laws : UriLaws pipeline.types) (htarget : flow.ingress = .explicitProxy target)
    {upstream : BoxedDuplexStream} {event : FlowEvent} (h : event ∈ (pipeline.handlePlainHttp flow upstream).events) :
    ∃ decoded, event = .relay decoded upstream.toDuplex ∧ RelayAgrees pipeline target 80 decoded upstream.toDuplex := by
  unfold HttpPipeline.handlePlainHttp at h
  split at h
  · cases h
  · next decoded hdecoded =>
    exact ⟨decoded, List.mem_singleton.mp h, relayAgrees_of_decoded laws htarget hdecoded _⟩

/-- Behind client TLS everything is done for the accepted server name. -/
theorem handleDecrypted_events (laws : UriLaws pipeline.types) (htarget : flow.ingress = .explicitProxy target)
    {upstream : BoxedDuplexStream} {stream : Duplex} {serverName : Str} {event : FlowEvent}
    (h : event ∈ (pipeline.handleDecrypted flow upstream stream serverName).events) :
    event = .connectUpstreamTls serverName ∨
      ∃ decoded upstreamTls, event = .relay decoded upstreamTls ∧ RelayAgrees pipeline target 443 decoded upstreamTls := by
  unfold HttpPipeline.handleDecrypted at h
  split at h
  · cases h
  · split at h
    · exact .inl (List.mem_singleton.mp h)
    · next upstreamTls _ =>
      split at h
      · exact .inl (List.mem_singleton.mp h)
      · next decoded hdecoded =>
        rcases List.mem_cons.mp h with rfl | h
        · exact .inl rfl
        · exact .inr ⟨decoded, upstreamTls, List.mem_singleton.mp h, relayAgrees_of_decoded laws htarget hdecoded _⟩

private theorem completeHandshake_events {accepted : Accepted} {stream : BoxedDuplexStream} {event : FlowEvent}
    (h : event ∈ (pipeline.completeHandshake accepted stream).1) :
    ∃ serverName, accepted.serverName = some serverName ∧ event = .mintCertificate serverName := by
  unfold HttpPipeline.completeHandshake at h
  split at h
  · cases h
  · next serverName hname => exact ⟨serverName, hname, List.mem_singleton.mp h⟩

private theorem completeHandshake_ok {accepted : Accepted} {stream : BoxedDuplexStream} {decrypted : Duplex} {serverName : Str}
    (h : (pipeline.completeHandshake accepted stream).2 = .ok (decrypted, serverName)) :
    accepted.serverName = some serverName := by
  unfold HttpPipeline.completeHandshake at h
  split at h
  · cases h
  · next hname =>
    obtain ⟨_, _, h⟩ := bind_eq_ok.mp h
    split at h
    · cases h
    · obtain ⟨_, rfl⟩ := Prod.mk.inj (Except.ok.inj h)
      exact hname

private theorem acceptClientTls_events {client : TlsHttpClient} {event : FlowEvent}
    (h : event ∈ (pipeline.acceptClientTls client flow).1) :
    ∃ serverName, event = .mintCertificate serverName ∧
      ∀ hello, client = .inspected hello → hello.accepted.serverName = some serverName := by
  unfold HttpPipeline.acceptClientTls at h
  split at h
  · split at h
    · cases h
    · obtain ⟨serverName, _, hevent⟩ := completeHandshake_events h
      exact ⟨serverName, hevent, by simp⟩
  · obtain ⟨serverName, hname, hevent⟩ := completeHandshake_events h
    refine ⟨serverName, hevent, ?_⟩
    rintro _ ⟨⟩
    exact hname

/-- Intercepting TLS acts for one server name, the one of the inspected `ClientHello`. -/
theorem handleTlsHttp_events (laws : UriLaws pipeline.types) (htarget : flow.ingress = .explicitProxy target)
    {client : TlsHttpClient} {upstream : BoxedDuplexStream} {event : FlowEvent}
    (h : event ∈ (pipeline.handleTlsHttp client flow upstream).events) :
    ∃ serverName, (∀ hello, client = .inspected hello → hello.accepted.serverName = some serverName) ∧
      (event = .mintCertificate serverName ∨ event = .connectUpstreamTls serverName ∨
        ∃ decoded upstreamTls, event = .relay decoded upstreamTls ∧ RelayAgrees pipeline target 443 decoded upstreamTls) := by
  have haccepted := @acceptClientTls_events pipeline flow client event
  unfold HttpPipeline.handleTlsHttp at h
  split at h
  · next events e haccept =>
    rw [haccept] at haccepted
    obtain ⟨serverName, hevent, hname⟩ := haccepted h
    exact ⟨serverName, hname, .inl hevent⟩
  · next events stream serverName haccept =>
    rw [haccept] at haccepted
    simp only at h
    rcases List.mem_append.mp h with h | h
    · obtain ⟨minted, hevent, hname⟩ := haccepted h
      exact ⟨minted, hname, .inl hevent⟩
    · refine ⟨serverName, ?_, .inr (handleDecrypted_events laws htarget h)⟩
      rintro hello rfl
      have hok : (pipeline.completeHandshake hello.accepted flow.stream).2 = .ok (stream, serverName) :=
        congrArg Prod.snd haccept
      exact completeHandshake_ok hok

theorem validateTlsServerName_ok {ingress : FlowIngress} {targetName : Str} {serverName : Option Str}
    (htarget : ingress = .explicitProxy target) (hname : target.host = .dns targetName)
    (h : ingress.validateTlsServerName serverName = .ok ()) :
    ∃ name, serverName = some name ∧
      eqIgnoreAsciiCase (trimEndMatches targetName '.') (trimEndMatches name '.') = true := by
  obtain ⟨host, port, hport⟩ := target
  subst htarget hname
  unfold FlowIngress.validateTlsServerName at h
  simp only at h
  split at h
  · cases h
  · next name =>
    split at h
    · next heq => exact ⟨name, rfl, heq⟩
    · cases h

private theorem requires_of_dns {ingress : FlowIngress} {targetName : Str} (htarget : ingress = .explicitProxy target)
    (hname : target.host = .dns targetName) : ingress.requiresTlsServerNameValidation = true := by
  obtain ⟨host, port, hport⟩ := target
  subst htarget hname
  rfl

private theorem relayAgrees_of_event {serverName : Str} {event : FlowEvent}
    (h : event = .mintCertificate serverName ∨ event = .connectUpstreamTls serverName ∨
      ∃ decoded upstreamTls, event = .relay decoded upstreamTls ∧ RelayAgrees pipeline target 443 decoded upstreamTls) :
    ∀ decoded upstreamTls, event = .relay decoded upstreamTls → RelayAgrees pipeline target 443 decoded upstreamTls := by
  rintro decoded upstreamTls rfl
  rcases h with h | h | ⟨_, _, h, hagrees⟩
  · cases h
  · cases h
  · obtain ⟨rfl, rfl⟩ := FlowEvent.relay.inj h
    exact hagrees

/-- Every event of a flow to a declared target agrees with it. -/
theorem handleFlow_agrees (laws : UriLaws pipeline.types) (engine : MitmEngine)
    (htarget : flow.ingress = .explicitProxy target) (upstream : BoxedDuplexStream) :
    ∀ event ∈ (pipeline.handleFlow engine flow upstream).events, EventAgrees pipeline engine target flow event := by
  intro event h
  unfold HttpPipeline.handleFlow MitmEngine.handleFlow at h
  cases hdetect : detect engine.sizes.protocol flow.stream.reader with
  | error e => simp [hdetect] at h
  | ok detected =>
    obtain ⟨protocol, reader⟩ := detected
    refine ⟨protocol, reader, hdetect, ?_⟩
    rw [hdetect] at h
    cases protocol with
    | plainHttp =>
      obtain ⟨decoded, rfl, hagrees⟩ := @handlePlainHttp_events _ _ (flow.withReader reader) laws htarget _ _ h
      refine ⟨?_, fun _ _ htls => by cases htls⟩
      rintro _ _ hevent
      obtain ⟨rfl, rfl⟩ := FlowEvent.relay.inj hevent
      exact hagrees
    | tls =>
      cases hroute : engine.routeTls (flow.withReader reader) with
      | error e => simp [hroute] at h
      | ok route =>
        simp only [hroute] at h
        rcases MitmEngine.routeTls_ok hroute with ⟨hfree, rfl⟩ | ⟨inspected, action, hinspected, hvalid, rfl⟩
        · obtain ⟨_, _, hevent⟩ := @handleTlsHttp_events _ _ (flow.withReader reader) laws htarget _ _ _ h
          refine ⟨relayAgrees_of_event hevent, ?_⟩
          intro targetName hname _
          -- A DNS target never takes the path without inspection.
          exact absurd ((requires_of_dns htarget hname).symm.trans hfree) (by simp)
        · cases action with
          | intercept =>
            obtain ⟨serverName, hsame, hevent⟩ :=
              @handleTlsHttp_events _ _ ((flow.withReader reader).withReader inspected.stream) laws htarget _ _ _ h
            refine ⟨relayAgrees_of_event hevent, ?_⟩
            intro targetName hname _
            obtain ⟨name, hserver, heq⟩ := validateTlsServerName_ok htarget hname hvalid
            obtain rfl := Option.some.inj (hserver.symm.trans (hsame inspected rfl))
            refine ⟨name, ⟨inspected, hinspected, hserver, heq⟩, ?_⟩
            intro acted hacted
            rcases hevent with rfl | rfl | ⟨_, _, rfl, _⟩
            · exact (Option.some.inj hacted).symm
            · exact (Option.some.inj hacted).symm
            · cases hacted
          | passthrough =>
            obtain rfl := List.mem_singleton.mp h
            refine ⟨by simp, ?_⟩
            intro targetName hname _
            obtain ⟨name, hserver, heq⟩ := validateTlsServerName_ok htarget hname hvalid
            refine ⟨name, ⟨inspected, hinspected, hserver, heq⟩, ?_⟩
            intro acted hacted
            exact Option.some.inj (hacted.symm.trans hserver)

end Events
end Abyss.Mitm.Flow
