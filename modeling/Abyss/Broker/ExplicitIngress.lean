import Abyss.Mitm.Flow.HttpFlow
import Abyss.Mitm.Explicit.Authority

/-! The explicit proxy listener: an accepted connection becomes a flow to the target that its
first request declares, and every request relayed on the flow names this target. -/
namespace Abyss.Broker
open Abyss.Stream Abyss.Text Abyss.Mitm Abyss.Mitm.Http Abyss.Mitm.Tls Abyss.Mitm.Explicit Abyss.Mitm.Flow

inductive ExplicitIngressError where
  | request (source : ExplicitRequestError)
  | upstream (target : TargetAuthority)
  | writeResponse (source : ErrorKind)
  deriving DecidableEq, Repr

/-- `ProxyResponse::ConnectionEstablished`. -/
def connectionEstablished : Bytes := ascii "HTTP/1.1 200 Connection Established\r\n\r\n"

/-- A flow of the listener with its prepared upstream. -/
structure ExplicitFlow where
  decoded : DecodedExplicitRequest
  flow : AcceptedTcpFlow
  upstream : BoxedDuplexStream

/-- Only a tunnel is acknowledged before its bytes are relayed. -/
def acknowledge (protocol : ExplicitProxyProtocol) (client : Writer) : Option ErrorKind × Writer :=
  if protocol = .httpConnect then client.writeAll .writeZero connectionEstablished else (none, client)

section Ingress
variable (httparse : Httparse) (types : HttpTypes) (chunk : Nat)
  (prepareUpstream : TargetAuthority → Option BoxedDuplexStream)

/-- `ExplicitConnection::into_flow`; a rejected connection only gets a response. `prepareUpstream` connects to
a target, directly or through a next hop. -/
def intoFlow (client : BoxedDuplexStream) : Except ExplicitIngressError ExplicitFlow :=
  match decodeExplicit httparse types maxExplicitProxyHeaderBytes chunk client.reader with
  | (.error source, _) => .error (.request source)
  | (.ok decoded, reader) =>
    match prepareUpstream decoded.target with
    | none => .error (.upstream decoded.target)
    | some upstream =>
      match acknowledge decoded.protocol client.writer with
      | (some source, _) => .error (.writeResponse source)
      | (none, writer) => .ok {
          decoded
          flow := ⟨⟨withReadPrefix decoded.clientPrefix reader, writer⟩, some decoded.target.host.display, none,
            .explicitProxy decoded.target⟩
          upstream }

variable {httparse types chunk prepareUpstream}

/-- An accepted connection carries the decoded target through to its flow and its upstream. -/
theorem intoFlow_ok {client : BoxedDuplexStream} {accepted : ExplicitFlow}
    (h : intoFlow httparse types chunk prepareUpstream client = .ok accepted) :
    ∃ reader, decodeExplicit httparse types maxExplicitProxyHeaderBytes chunk client.reader = (.ok accepted.decoded, reader) ∧
      prepareUpstream accepted.decoded.target = some accepted.upstream ∧
      accepted.flow.ingress = .explicitProxy accepted.decoded.target := by
  unfold intoFlow at h
  split at h
  · cases h
  · next decoded reader hdecode =>
    split at h
    · cases h
    · next upstream hupstream =>
      split at h
      · cases h
      · obtain rfl := Except.ok.inj h
        exact ⟨reader, hdecode, hupstream, rfl⟩

end Ingress

/-- Reported field names are parts of the head. -/
def HttparseSlices (httparse : Httparse) : Prop :=
  ∀ {buffer raw n}, httparse.request.run buffer = .complete raw n → ∀ header ∈ raw.headers, header.name.length ≤ n

/-- What the listener relies on in `httparse` and the `http` crate. -/
structure HttpLaws (httparse : Httparse) (types : HttpTypes) : Prop where
  parser : HttparseLaws httparse
  slices : HttparseSlices httparse
  parts : HttpTypesLaws types
  authority : AuthorityLaws types
  uri : UriLaws types

/-- The URI at the front of a client stream, if it has a query, also has a path. -/
def HasPath (httparse : Httparse) (types : HttpTypes) (stream : Bytes) : Prop :=
  ∀ headLen raw path uri, findRequestHeadLen stream = some headLen →
    httparse.request.run (stream.take headLen) = .complete raw headLen → raw.path = some path →
    types.uriTryFrom path = some uri → (originTarget uri).head? = some 47

/-- A target that is no DNS name spelled like an address. -/
def IsPlainTarget (target : TargetAuthority) : Prop := ∀ name, target.host = .dns name → parseIpAddr name = none

section Rewriting
variable {httparse : Httparse} {types : HttpTypes} {buffer : Bytes} {headLen : Nat} {decoded : DecodedExplicitRequest}

/-- A rewritten absolute-form request names the target it was decoded for. -/
theorem rewritten_names_target (laws : HttpLaws httparse types)
    (hdecoded : parseExplicitRequest httparse types buffer headLen = .ok decoded)
    (habsolute : decoded.protocol = .httpAbsoluteForm) (hlen : headLen ≤ maxExplicitProxyHeaderBytes)
    (hpath : ∀ raw path uri, httparse.request.run (buffer.take headLen) = .complete raw headLen → raw.path = some path →
      types.uriTryFrom path = some uri → (originTarget uri).head? = some 47)
    (hplain : IsPlainTarget decoded.target) :
    ∃ request n, (parseRequestHead httparse types).run decoded.clientPrefix = .complete request n ∧
      NamesTarget types decoded.target 80 request := by
  obtain ⟨_, _, _, _, authority, _, _, _, _, _, _, htarget, _⟩ := parseExplicitRequest_absolute hdecoded habsolute
  obtain ⟨raw, method, path, uri, hraw, _, hrawPath, huri, htoken, _, hsanitized, _, hreplay⟩ :=
    rewritten_reported laws.parser laws.parts hdecoded habsolute
  obtain ⟨uri', huri', hscheme, hauthority⟩ := laws.uri.origin huri (hpath raw path uri hraw hrawPath huri)
  have hnames : ∀ header ∈ raw.headers, header.name.length < 65536 := by
    intro header hmem
    have hslice := laws.slices hraw header hmem
    simp only [maxExplicitProxyHeaderBytes] at hlen
    omega
  obtain ⟨method', hrequest⟩ := rewritten_request laws.parts htoken huri' hsanitized (names_sanitizedHeaders.mpr hnames)
  refine ⟨_, _, Incremental.complete_tryMap _ hreplay hrequest, hscheme, hauthority, _, _, ?_,
    toStr_visible (hostHeaderValue_visible htarget 80),
    matchesHttpAuthority_iff.mp (matches_hostHeaderValue laws.authority htarget hplain 80)⟩
  rw [getAll_loweredFields (by decide), host_sanitizedHeaders]

end Rewriting

/-- On a flow of the explicit listener everything is done for the declared target. The broker connects to it. Every
relayed request has neither scheme nor authority of its own and one `Host`, which names the target; inside TLS, nothing
is minted, connected, relayed or tunnelled for a DNS target before the `ClientHello` has named it. A rewritten
absolute-form request passes the same check. -/
theorem explicit_flow_agrees (pipeline : HttpPipeline) (laws : HttpLaws pipeline.httparse pipeline.types)
    (engine : MitmEngine) (prepareUpstream : TargetAuthority → Option BoxedDuplexStream) (client : BoxedDuplexStream)
    (accepted : ExplicitFlow)
    (h : intoFlow pipeline.httparse pipeline.types engine.sizes.explicitHead prepareUpstream client = .ok accepted) :
    prepareUpstream accepted.decoded.target = some accepted.upstream ∧
    (∀ event ∈ (pipeline.handleFlow engine accepted.flow accepted.upstream).events,
      EventAgrees pipeline engine accepted.decoded.target accepted.flow event) ∧
    (accepted.decoded.protocol = .httpAbsoluteForm →
      HasPath pipeline.httparse pipeline.types client.reader.contents → IsPlainTarget accepted.decoded.target →
      ∃ request n, (parseRequestHead pipeline.httparse pipeline.types).run accepted.decoded.clientPrefix =
          .complete request n ∧
        (accepted.flow.context .plainHttp).validateHttpTarget pipeline.types request = .ok ()) := by
  obtain ⟨reader, hdecode, hupstream, hingress⟩ := intoFlow_ok h
  refine ⟨hupstream, handleFlow_agrees laws.uri engine hingress accepted.upstream, ?_⟩
  intro habsolute hpath hplain
  obtain ⟨buffer, headLen, hsplit, hfind, hlen, hparse, _⟩ := decodeExplicit_ok engine.sizes.explicitHead_pos hdecode
  obtain ⟨hall, hle⟩ := findRequestHeadLen_append reader.contents hfind
  have hfront : client.reader.contents.take headLen = buffer.take headLen := by
    rw [← hsplit, List.take_append_of_le_length hle]
  rw [hsplit] at hall
  have hslash : ∀ raw path uri, pipeline.httparse.request.run (buffer.take headLen) = .complete raw headLen →
      raw.path = some path → pipeline.types.uriTryFrom path = some uri → (originTarget uri).head? = some 47 := by
    intro raw path uri hraw
    exact hpath headLen raw path uri hall (hfront ▸ hraw)
  obtain ⟨request, n, hrun, hnames⟩ := rewritten_names_target laws hparse habsolute hlen hslash hplain
  exact ⟨request, n, hrun, (validateHttpTarget_iff hingress).mpr hnames⟩

section Sample

def relativeUri (bytes : Bytes) : Uri := ⟨none, none, some ⟨bytes, bytes⟩, bytes⟩

/-- The checked constructors on visible texts, with the asterisk target. -/
def listenerTypes : HttpTypes :=
  { canonicalTypes with
    authorityTryFrom := plainAuthority
    uriTryFrom := fun bytes =>
      if bytes = ascii "*" then some (relativeUri bytes) else canonicalTypes.uriTryFrom bytes }

theorem listenerTypes_authority : AuthorityLaws listenerTypes := plainAuthority_laws rfl

/-- An accepted target is the asterisk, absolute or in origin form. -/
private theorem listener_uri {bytes : Bytes} {uri : Uri} (h : listenerTypes.uriTryFrom bytes = some uri) :
    (bytes = ascii "*" ∧ uri = relativeUri bytes) ∨
    bytes.all (fun b => 32 < b && b < 127) = true ∧
      ((∃ rest, bytes = ascii "http://" ++ rest ∧ uri = absoluteUri bytes rest) ∨
        bytes.head? = some 47 ∧ uri = relativeUri bytes) := by
  change (if bytes = ascii "*" then some (relativeUri bytes) else canonicalTypes.uriTryFrom bytes) = some uri at h
  split at h
  · next hstar => exact .inl ⟨hstar, (Option.some.inj h).symm⟩
  · exact .inr (canonicalTypes_uri h)

private theorem listener_uri_origin {bytes : Bytes} (hvisible : bytes.all (fun b => 32 < b && b < 127) = true)
    (hhead : bytes.head? = some 47) :
    listenerTypes.uriTryFrom bytes = some (relativeUri bytes) := by
  have hstar : bytes ≠ ascii "*" := by
    rintro rfl
    exact absurd hhead (by decide)
  change (if bytes = ascii "*" then some (relativeUri bytes) else canonicalTypes.uriTryFrom bytes) = _
  rw [if_neg hstar]
  exact canonicalTypes_origin hvisible hhead

theorem listenerTypes_laws : HttpTypesLaws listenerTypes where
  method {bytes} h := canonicalTypes_laws.method h
  headerName {bytes} h := canonicalTypes_laws.headerName h
  headerValue {bytes} h := canonicalTypes_laws.headerValue h
  pathAndQuery {bytes uri value} h huri hvalue := by
    change (if bytes = ascii "*" then some (relativeUri bytes) else canonicalTypes.uriTryFrom bytes) = some uri at huri
    split at huri
    · next hstar =>
      obtain rfl := Option.some.inj huri
      obtain rfl := Option.some.inj hvalue
      exact h
    · exact canonicalTypes_laws.pathAndQuery h huri hvalue

theorem listenerTypes_uri : UriLaws listenerTypes where
  relative {bytes uri} h hscheme _ := by
    rcases listener_uri h with ⟨rfl, rfl⟩ | ⟨_, ⟨rest, _, rfl⟩ | ⟨hhead, rfl⟩⟩
    · exact ⟨.inr rfl, _, rfl, .inr rfl⟩
    · cases hscheme
    · exact ⟨.inl hhead, _, rfl, .inl hhead⟩
  origin {bytes uri} h hhead := by
    rcases listener_uri h with ⟨rfl, rfl⟩ | ⟨hvisible, ⟨rest, rfl, rfl⟩ | ⟨_, rfl⟩⟩
    · exact absurd hhead (by decide)
    · refine ⟨_, listener_uri_origin ?_ hhead, rfl, rfl⟩
      change (if _ = [] then ascii "/" else _).all _ = true
      split
      · decide
      · rw [List.all_eq_true] at hvisible ⊢
        intro b hb
        exact hvisible b (List.mem_append_right _ ((List.dropWhile_sublist _).subset hb))
    · exact ⟨_, listener_uri_origin hvisible hhead, rfl, rfl⟩

private theorem canonicalHttparse_slices : HttparseSlices canonicalHttparse := by
  intro buffer raw n h header hmem
  obtain ⟨rest, hread, rfl⟩ := canonicalRequest_complete.mp h
  obtain ⟨method, target, headers, _, _, _, _, rfl, rfl⟩ := readRequestHead_eq_some.mp hread
  have hline : header.name.length ≤ (headers.flatMap fieldLine).length := by
    obtain ⟨front, back, rfl⟩ := List.append_of_mem hmem
    simp only [List.flatMap_append, List.flatMap_cons, List.length_append, fieldLine]
    omega
  simp only [requestHeadText, fieldSection, List.length_append]
  omega

theorem listener_laws : HttpLaws canonicalHttparse listenerTypes :=
  ⟨canonicalRequest_laws _, canonicalHttparse_slices, listenerTypes_laws, listenerTypes_authority, listenerTypes_uri⟩

/-- A pipeline on which no TLS handshake succeeds. -/
def listenerPipeline : HttpPipeline where
  httparse := canonicalHttparse
  types := listenerTypes
  chunkSizes := Relay.plainSizeParser
  maxHttp1BodyBytes := 16
  websocket := Relay.noWebSocket
  websocketWrites := fun _ _ _ _ _ _ _ => List.prefix_rfl
  startHandshake := fun _ => .error .other
  serverConfigForSni := fun _ => .error .missingSni
  intoStream := fun _ _ => .error .other
  connectUpstreamTls := fun _ _ => .error .missingSni

/-- A client that sends one fragment. -/
def oneFragment (fragment : Fragment UInt8) : BoxedDuplexStream := ⟨.transport ⟨[fragment], none⟩, willingWriter⟩

def listen (client : BoxedDuplexStream) : Except ExplicitIngressError ExplicitFlow :=
  intoFlow listenerPipeline.httparse listenerPipeline.types passthroughEngine.sizes.explicitHead
    (fun _ => some quietUpstream) client

def proxiedGet : BoxedDuplexStream := oneFragment ⟨ascii "GET http://h/x HTTP/1.1\r\nHost: h\r\n\r\n", by decide⟩

def proxiedGetRaw : RawRequest :=
  ⟨some (ascii "GET"), some (ascii "http://h/x"), some 1, [⟨ascii "Host", ascii "h"⟩]⟩

theorem explicit_flow_agrees_get : ∃ accepted, listen proxiedGet = .ok accepted ∧ accepted.decoded.target = plainTarget ∧
    (∀ event ∈ (listenerPipeline.handleFlow passthroughEngine accepted.flow accepted.upstream).events,
      EventAgrees listenerPipeline passthroughEngine accepted.decoded.target accepted.flow event) ∧
    ∃ request n, (parseRequestHead listenerPipeline.httparse listenerPipeline.types).run accepted.decoded.clientPrefix =
        .complete request n ∧
      (accepted.flow.context .plainHttp).validateHttpTarget listenerPipeline.types request = .ok () := by
  have hdecoded : (listen proxiedGet).toOption.map ExplicitFlow.decoded =
      some ⟨plainTarget, .httpAbsoluteForm, ascii "GET /x HTTP/1.1\r\nHost: h\r\n\r\n"⟩ := by decide +kernel
  obtain ⟨accepted, hlisten, hrequest⟩ := Option.map_eq_some_iff.mp hdecoded
  have hok : listen proxiedGet = .ok accepted := by
    cases h : listen proxiedGet with
    | error e => simp [h, Except.toOption] at hlisten
    | ok value =>
      rw [h] at hlisten
      exact congrArg Except.ok (Option.some.inj hlisten)
  obtain ⟨_, hevents, habsolute⟩ := explicit_flow_agrees listenerPipeline listener_laws passthroughEngine
    (fun _ => some quietUpstream) proxiedGet accepted hok
  refine ⟨accepted, hok, by rw [hrequest], hevents, habsolute (by rw [hrequest]) ?_ ?_⟩
  · intro headLen raw path uri hfind hraw hpath huri
    have hhead : findRequestHeadLen proxiedGet.reader.contents = some 36 := by decide +kernel
    obtain rfl := Option.some.inj (hhead.symm.trans hfind)
    have hreported : listenerPipeline.httparse.request.run (proxiedGet.reader.contents.take 36) =
        .complete proxiedGetRaw 36 := by
      decide +kernel
    obtain ⟨rfl, _⟩ := Answer.complete.inj (hreported.symm.trans hraw)
    obtain rfl := Option.some.inj hpath
    have habsoluteUri : listenerPipeline.types.uriTryFrom (ascii "http://h/x") =
        some (absoluteUri (ascii "http://h/x") (ascii "h/x")) := by
      decide +kernel
    obtain rfl := Option.some.inj (habsoluteUri.symm.trans huri)
    decide +kernel
  · rw [hrequest]
    rintro name ⟨⟩
    decide +kernel

def asteriskTunnel : BoxedDuplexStream :=
  oneFragment ⟨ascii "CONNECT h:80 HTTP/1.1\r\nHost: h:80\r\n\r\nOPTIONS * HTTP/1.1\r\nHost: h\r\n\r\n", by decide⟩

/-- The targets of the requests a run relays, with what is written upstream for them. -/
def relayedTargets (run : FlowRun) : List (Bytes × Bytes) :=
  run.events.filterMap fun event => match event with
    | .relay decoded upstream => some (requestTarget decoded.firstRequest,
        (listenerPipeline.relayTo decoded upstream).upstream.writer.accepted)
    | _ => none

/-- Inside a tunnel, a request whose target is the asterisk is relayed. -/
theorem asterisk_form_relayed :
    (listen asteriskTunnel).toOption.map (fun accepted => relayedTargets
      (listenerPipeline.handleFlow passthroughEngine accepted.flow accepted.upstream)) =
      some [(ascii "*", ascii "OPTIONS * HTTP/1.1\r\nHost: h\r\n\r\n")] ∧
    (ascii "*").head? ≠ some 47 := by
  refine ⟨by decide +kernel, by decide⟩

end Sample
end Abyss.Broker
