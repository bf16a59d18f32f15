import Abyss.Stream.Copy
import Abyss.Mitm.Explicit.Decoder
import Abyss.Mitm.Flow.ClientHello
import Abyss.Mitm.Tls.DecryptPolicy

/-! Routing of an accepted flow and raw TLS passthrough: the inspected bytes are written
upstream, and the rest of both streams is copied until both sides have ended. -/
namespace Abyss.Mitm.Flow
open Abyss.Stream Abyss.Text Abyss.Mitm.Tls Abyss.Mitm.Http Abyss.Mitm.Explicit

/-- `BoxedDuplexStream`: layers wrap the reading side only. -/
structure BoxedDuplexStream where
  reader : ClientStream
  writer : Writer

structure AcceptedTcpFlow where
  stream : BoxedDuplexStream
  destinationHost : Option Str
  sourceProcess : Option SourceProcess
  ingress : FlowIngress

def AcceptedTcpFlow.withReader (flow : AcceptedTcpFlow) (reader : ClientStream) : AcceptedTcpFlow :=
  { flow with stream := { flow.stream with reader } }

/-- A flow that policy chooses not to decrypt. -/
structure TlsPassthroughFlow where
  flow : AcceptedTcpFlow
  serverName : Option Str
  initialClientBytes : Bytes

structure TransparentPassthroughOutcome where
  serverName : Option Str
  clientToUpstreamBytes : Nat
  upstreamToClientBytes : Nat
  deriving DecidableEq, Repr

/-- Where a passthrough stands; without a result the copy is still going on. -/
structure PassthroughRun where
  result : Option (Except TransparentFlowError TransparentPassthroughOutcome)
  upstream : Writer

namespace TlsPassthroughFlow

/-- The replay of the inspected bytes. -/
def writeInitial (initialClientBytes : Bytes) (upstream : Writer) : Option ErrorKind × Writer :=
  if initialClientBytes = [] then (none, upstream) else upstream.writeAll .writeZero initialClientBytes

/-- The result of a copy, with the replayed bytes counted. -/
def outcome (serverName : Option Str) (initialLen : Nat) :
    Except ErrorKind (Nat × Nat) → Except TransparentFlowError TransparentPassthroughOutcome
  | .error source => .error (.io .relayPassthrough source)
  | .ok (remaining, upstreamToClientBytes) => (addLen initialLen remaining).map fun clientToUpstreamBytes =>
      ⟨serverName, clientToUpstreamBytes, upstreamToClientBytes⟩

/-- `TlsPassthroughFlow::handle` on a connected upstream, along a schedule of the copy. -/
def handle (tunnel : TlsPassthroughFlow) (upstream : BoxedDuplexStream) (schedule : List (Side × CopyAction)) :
    Option PassthroughRun :=
  match writeInitial tunnel.initialClientBytes upstream.writer with
  | (some source, writer) => some ⟨some (.error (.io .writeProviderTlsClientHello source)), writer⟩
  | (none, writer) =>
    match usizeToU64 tunnel.initialClientBytes.length with
    | .error e => some ⟨some (.error e), writer⟩
    | .ok initialLen =>
      (System.run (Bidirectional.step .writeZero)
        ⟨Copy.start tunnel.flow.stream.reader writer, Copy.start upstream.reader tunnel.flow.stream.writer⟩
        schedule).map fun copied =>
          ⟨copied.result.map (outcome tunnel.serverName initialLen), copied.forward.writer⟩

end TlsPassthroughFlow

/-- The sizes of the read buffers of the read-ahead layers. -/
structure BufferSizes where
  explicitHead : Nat
  protocol : Nat
  clientHello : Nat
  explicitHead_pos : 0 < explicitHead
  protocol_pos : 0 < protocol
  clientHello_pos : 0 < clientHello

/-- The buffers the layers allocate. -/
def BufferSizes.source : BufferSizes where
  explicitHead := headerReadChunkBytes
  protocol := protocolChunkBytes
  clientHello := clientHelloReadChunkBytes
  explicitHead_pos := by decide
  protocol_pos := by decide
  clientHello_pos := by decide

/-- What routing reads from the engine, and rustls. -/
structure MitmEngine where
  acceptor : Acceptor
  maxClientHelloBytes : Nat
  sizes : BufferSizes
  platform : Platform
  policy : TlsDecryptionPolicy

/-- The client side of a flow whose TLS is terminated: untouched, or behind the inspection of its `ClientHello`. -/
inductive TlsHttpClient where
  | raw
  | inspected (hello : InspectedClientHello)

/-- The pipeline a flow is handed to. -/
inductive FlowRoute where
  | plainHttp (flow : AcceptedTcpFlow)
  | tlsHttp (client : TlsHttpClient) (flow : AcceptedTcpFlow)
  | passthrough (tunnel : TlsPassthroughFlow)

namespace MitmEngine
variable (engine : MitmEngine)

def inspect (flow : AcceptedTcpFlow) : Except TransparentFlowError InspectedClientHello :=
  readClientHello engine.acceptor engine.maxClientHelloBytes engine.sizes.clientHello flow.stream.reader

/-- The chosen path of an inspected flow. -/
def routeInspected (flow : AcceptedTcpFlow) (inspected : InspectedClientHello) : TlsDecryptionAction → FlowRoute
  | .intercept => .tlsHttp (.inspected inspected) (flow.withReader inspected.stream)
  | .passthrough => .passthrough
      ⟨flow.withReader inspected.stream, inspected.accepted.serverName, inspected.rawBytes⟩

/-- `TlsFlow::handle` on a detected TLS stream. -/
def routeTls (flow : AcceptedTcpFlow) : Except TransparentFlowError FlowRoute :=
  if !engine.policy.requiresSniPeek && !flow.ingress.requiresTlsServerNameValidation then .ok (.tlsHttp .raw flow)
  else do
    let inspected ← engine.inspect flow
    flow.ingress.validateTlsServerName inspected.accepted.serverName
    let decision := engine.policy.decide engine.platform
      (policyTargetDomain inspected.accepted.serverName flow.destinationHost) flow.sourceProcess
    return routeInspected flow inspected decision.action

/-- `MitmEngine::handle_flow` up to the pipeline that handles the flow. -/
def handleFlow (flow : AcceptedTcpFlow) : Except TransparentFlowError FlowRoute :=
  match detect engine.sizes.protocol flow.stream.reader with
  | .error e => .error e
  | .ok (.plainHttp, reader) => .ok (.plainHttp (flow.withReader reader))
  | .ok (.tls, reader) => engine.routeTls (flow.withReader reader)

end MitmEngine

/-- A connection that ends cleanly and takes every call. -/
structure BoxedDuplexStream.Healthy (stream : BoxedDuplexStream) : Prop where
  ends : stream.reader.ending = none
  writes : stream.writer.WritesSucceed
  flushes : ∀ r ∈ stream.writer.flushes, r = none
  shutdowns : ∀ r ∈ stream.writer.shutdowns, r = none

/-- What passthrough of a client stream means for the upstream connection, along every schedule of the
copy: a front part of the stream has arrived, in order and each byte once; success means all of it; and
between healthy connections every copy can be carried to success. -/
structure Carries (tunnel : TlsPassthroughFlow) (stream : Bytes) (upstream : BoxedDuplexStream)
    (schedule : List (Side × CopyAction)) (run : PassthroughRun) : Prop where
  front : run.upstream.accepted <+: upstream.writer.accepted ++ stream
  whole {outcome : TransparentPassthroughOutcome} : run.result = some (.ok outcome) →
    run.upstream.accepted = upstream.writer.accepted ++ stream ∧ outcome.clientToUpstreamBytes = stream.length
  completes : tunnel.flow.stream.Healthy → upstream.Healthy → stream.length < u64Bound →
    ∃ more run' outcome, tunnel.handle upstream (schedule ++ more) = some run' ∧ run'.result = some (.ok outcome)

namespace TlsPassthroughFlow
variable {tunnel : TlsPassthroughFlow} {upstream : BoxedDuplexStream} {schedule : List (Side × CopyAction)}

private theorem writeInitial_accepted (initialClientBytes : Bytes) (upstream : Writer) :
    ∃ done left, initialClientBytes = done ++ left ∧
      (writeInitial initialClientBytes upstream).2.accepted = upstream.accepted ++ done ∧
      ((writeInitial initialClientBytes upstream).1 = none ↔ left = []) := by
  unfold writeInitial
  split
  · next h => exact ⟨[], [], by simp [h]⟩
  · exact Sink.writeAll_accepted .writeZero upstream initialClientBytes

/-- Replaying to a healthy connection succeeds and leaves it healthy. -/
private theorem writeInitial_healthy (h : upstream.Healthy) (initialClientBytes : Bytes) :
    ∃ writer, writeInitial initialClientBytes upstream.writer = (none, writer) ∧
      (⟨upstream.reader, writer⟩ : BoxedDuplexStream).Healthy := by
  unfold writeInitial
  split
  · exact ⟨upstream.writer, rfl, h⟩
  · obtain ⟨writer, hwrite, hwrites⟩ := h.writes.writeAll .writeZero initialClientBytes
    have hframe := Sink.writeAll_frame .writeZero upstream.writer initialClientBytes
    rw [hwrite] at hframe
    exact ⟨writer, hwrite, h.ends, hwrites, hframe.1 ▸ h.flushes, hframe.2 ▸ h.shutdowns⟩

private theorem healthy_start {client upstream : BoxedDuplexStream} (hc : client.Healthy) (hu : upstream.Healthy) :
    (⟨Copy.start client.reader upstream.writer, Copy.start upstream.reader client.writer⟩ :
      Bidirectional UInt8 ErrorKind).Healthy :=
  ⟨⟨hc.ends, hu.writes, hu.flushes, hu.shutdowns, by simp [Copy.start]⟩,
    ⟨hu.ends, hc.writes, hc.flushes, hc.shutdowns, by simp [Copy.start]⟩⟩

/-- The phases of a passthrough: the replay may fail; behind it the copy follows its schedule. -/
theorem handle_cases {run : PassthroughRun} (h : tunnel.handle upstream schedule = some run) :
    (∃ e, run.result = some (.error e) ∧ run.upstream.accepted <+: upstream.writer.accepted ++ tunnel.initialClientBytes ∧
      (upstream.Healthy → u64Bound ≤ tunnel.initialClientBytes.length)) ∨
    ∃ writer copied, writeInitial tunnel.initialClientBytes upstream.writer = (none, writer) ∧
      writer.accepted = upstream.writer.accepted ++ tunnel.initialClientBytes ∧
      usizeToU64 tunnel.initialClientBytes.length = .ok tunnel.initialClientBytes.length ∧
      System.run (Bidirectional.step .writeZero)
        ⟨Copy.start tunnel.flow.stream.reader writer, Copy.start upstream.reader tunnel.flow.stream.writer⟩
        schedule = some copied ∧
      run = ⟨copied.result.map (outcome tunnel.serverName tunnel.initialClientBytes.length), copied.forward.writer⟩ := by
  obtain ⟨done, left, hsplit, haccepted, hnone⟩ :=
    writeInitial_accepted tunnel.initialClientBytes upstream.writer
  unfold handle at h
  split at h
  · next source writer hwrite =>
    obtain rfl := Option.some.inj h
    refine .inl ⟨_, rfl, ?_, ?_⟩
    · rw [hwrite] at haccepted
      rw [haccepted, hsplit, ← List.append_assoc]
      exact List.prefix_append ..
    · intro hhealthy
      obtain ⟨_, hok, _⟩ := writeInitial_healthy hhealthy tunnel.initialClientBytes
      simp [hwrite] at hok
  · next writer hwrite =>
    rw [hwrite] at haccepted hnone
    rw [hnone.mp rfl, List.append_nil] at hsplit
    rw [← hsplit] at haccepted
    split at h
    · next e hlen =>
      obtain rfl := Option.some.inj h
      refine .inl ⟨e, rfl, by simp [haccepted], fun _ => ?_⟩
      by_contra hlt
      rw [usizeToU64_of_lt (Nat.lt_of_not_le hlt)] at hlen
      cases hlen
    · next initialLen hlen =>
      obtain ⟨rfl, _⟩ := usizeToU64_ok hlen
      obtain ⟨copied, hcopied, rfl⟩ := Option.map_eq_some_iff.mp h
      exact .inr ⟨writer, copied, hwrite, haccepted, hlen, hcopied, rfl⟩

theorem outcome_ok {serverName : Option Str} {initialLen : Nat} {amounts : Except ErrorKind (Nat × Nat)}
    {result : TransparentPassthroughOutcome} (h : outcome serverName initialLen amounts = .ok result) :
    ∃ remaining back, amounts = .ok (remaining, back) ∧ result.clientToUpstreamBytes = initialLen + remaining := by
  unfold outcome at h
  split at h
  · cases h
  · next remaining back =>
    cases hadd : addLen initialLen remaining with
    | error e => simp [hadd, Except.map] at h
    | ok total =>
      rw [hadd] at h
      obtain rfl := Except.ok.inj h
      exact ⟨remaining, back, rfl, (addLen_ok hadd).1⟩

/-- Passthrough carries the replayed bytes and the rest of the client stream. -/
theorem handle_carries {run : PassthroughRun} (h : tunnel.handle upstream schedule = some run) :
    Carries tunnel (tunnel.initialClientBytes ++ tunnel.flow.stream.reader.contents) upstream schedule run := by
  rcases handle_cases h with ⟨e, hresult, hfront, hlong⟩ | ⟨writer, copied, hwrite, haccepted, hlen, hcopied, rfl⟩
  · refine ⟨?_, by simp [hresult], ?_⟩
    · rw [← List.append_assoc]
      exact hfront.trans (List.prefix_append ..)
    · intro _ hhealthy hbound
      have := hlong hhealthy
      rw [List.length_append] at hbound
      omega
  · have hstart := Copy.accounts_start tunnel.flow.stream.reader writer
    rw [haccepted] at hstart
    have haccounts := Bidirectional.run_accounts hstart hcopied
    refine ⟨?_, ?_, ?_⟩
    · rw [← List.append_assoc]
      exact haccounts.front
    · intro result hresult
      obtain ⟨amounts, hamounts, hok⟩ := Option.map_eq_some_iff.mp hresult
      obtain ⟨remaining, back, rfl, hcount⟩ := outcome_ok hok
      obtain ⟨hdone, heq⟩ := Bidirectional.result_ok hamounts
      obtain ⟨hwhole, hamount⟩ := haccounts.exact hdone
      refine ⟨by rw [hwhole, List.append_assoc], ?_⟩
      rw [hcount, List.length_append, ← hamount]
      simp_all
    · intro hclient hupstream hbound
      obtain ⟨writer', hwrite', hhealthy⟩ := writeInitial_healthy hupstream tunnel.initialClientBytes
      rw [hwrite] at hwrite'
      obtain ⟨_, rfl⟩ := Prod.mk.inj hwrite'
      have hnow := (healthy_start hclient hhealthy).run hcopied
      obtain ⟨more, final, amounts, hmore, hfinal⟩ := hnow.completes .writeZero
      have hall := System.run_append.mpr ⟨copied, hcopied, hmore⟩
      obtain ⟨hdone, rfl⟩ := Bidirectional.result_ok hfinal
      have hamount := ((Bidirectional.run_accounts hstart hall).exact hdone).2
      rw [List.length_append] at hbound
      have hadd : addLen tunnel.initialClientBytes.length final.forward.amount = .ok _ :=
        addLen_of_lt (hamount ▸ hbound)
      refine ⟨more, ⟨final.result.map (outcome tunnel.serverName tunnel.initialClientBytes.length),
        final.forward.writer⟩, _, ?_, by rw [hfinal]; simp only [Option.map_some, outcome, hadd, Except.map]; rfl⟩
      simp only [handle, hwrite, hlen, hall, Option.map_some]

end TlsPassthroughFlow

/-- A routed TLS flow is untouched, or it was inspected and its server name accepted. -/
theorem MitmEngine.routeTls_ok {engine : MitmEngine} {flow : AcceptedTcpFlow} {route : FlowRoute}
    (h : engine.routeTls flow = .ok route) :
    (flow.ingress.requiresTlsServerNameValidation = false ∧ route = .tlsHttp .raw flow) ∨
    ∃ inspected action, engine.inspect flow = .ok inspected ∧
      flow.ingress.validateTlsServerName inspected.accepted.serverName = .ok () ∧
      route = MitmEngine.routeInspected flow inspected action := by
  unfold MitmEngine.routeTls at h
  split at h
  · next hraw =>
    obtain rfl := Except.ok.inj h
    simp only [Bool.and_eq_true, Bool.not_eq_true'] at hraw
    exact .inl ⟨hraw.2, rfl⟩
  · obtain ⟨inspected, hinspected, h⟩ := bind_eq_ok.mp h
    obtain ⟨_, hvalid, h⟩ := bind_eq_ok.mp h
    exact .inr ⟨inspected, _, hinspected, hvalid, (Except.ok.inj h).symm⟩

/-- The path a route belongs to. -/
def FlowRoute.tlsRoute : FlowRoute → TlsRoute
  | .passthrough _ => .passthrough
  | _ => .tlsHttp

/-- Routing follows the decision of the policy on what inspection yields. -/
theorem MitmEngine.routeTls_decides (engine : MitmEngine) (flow : AcceptedTcpFlow) :
    (engine.routeTls flow).map FlowRoute.tlsRoute = TlsFlow.handle engine.platform engine.policy
      ⟨(engine.inspect flow).map (·.accepted.serverName), flow.destinationHost, flow.sourceProcess, flow.ingress⟩ := by
  unfold MitmEngine.routeTls TlsFlow.handle
  split
  · rfl
  · cases engine.inspect flow with
    | error e => rfl
    | ok inspected =>
      simp only [bind, Except.bind, Except.map]
      cases flow.ingress.validateTlsServerName inspected.accepted.serverName with
      | error e => rfl
      | ok _ =>
        simp only [pure, Except.pure]
        cases (engine.policy.decide engine.platform
          (policyTargetDomain inspected.accepted.serverName flow.destinationHost) flow.sourceProcess).action <;> rfl

/-- On the passthrough branch the inspected bytes and the stream behind them are the accepted stream. -/
theorem handleFlow_passthrough {engine : MitmEngine} {flow : AcceptedTcpFlow} {tunnel : TlsPassthroughFlow}
    (h : engine.handleFlow flow = .ok (.passthrough tunnel)) :
    tunnel.initialClientBytes ++ tunnel.flow.stream.reader.contents = flow.stream.reader.contents := by
  unfold MitmEngine.handleFlow at h
  split at h
  · cases h
  · cases h
  · next reader hdetect =>
    rcases MitmEngine.routeTls_ok h with ⟨_, hraw⟩ | ⟨inspected, action, hinspected, _, hroute⟩
    · cases hraw
    · cases action with
      | intercept => cases hroute
      | passthrough =>
        obtain rfl := FlowRoute.passthrough.inj hroute
        exact (readClientHello_stream hinspected).1.trans (detect_stream hdetect).1

/-- TLS passthrough is transparent: upstream receives exactly the bytes of the accepted stream; behind a
`CONNECT` head these are the bytes of the tunnel; and which pipeline a stream enters depends on its bytes
alone. -/
theorem passthrough_transparent (engine : MitmEngine) :
    (∀ flow tunnel upstream schedule run, engine.handleFlow flow = .ok (.passthrough tunnel) →
      tunnel.handle upstream schedule = some run →
      Carries tunnel flow.stream.reader.contents upstream schedule run) ∧
    (∀ httparse types maxHeaderBytes socket decoded rest,
      decodeExplicit httparse types maxHeaderBytes engine.sizes.explicitHead socket = (.ok decoded, rest) →
      decoded.protocol = .httpConnect → ∃ headLen, findRequestHeadLen socket.contents = some headLen ∧
        (withReadPrefix decoded.clientPrefix rest).contents = socket.contents.drop headLen) ∧
    ∀ (sizes : BufferSizes) (stream other : ClientStream), stream.contents = other.contents →
      stream.ending = other.ending →
      (detect engine.sizes.protocol stream).map Prod.fst = (detect sizes.protocol other).map Prod.fst := by
  refine ⟨?_, ?_, ?_⟩
  · intro flow tunnel upstream schedule run hroute hrun
    rw [← handleFlow_passthrough hroute]
    exact TlsPassthroughFlow.handle_carries hrun
  · intro httparse types maxHeaderBytes socket decoded rest hdecode hconnect
    exact decodeExplicit_tunnel engine.sizes.explicitHead_pos hdecode hconnect
  · intro sizes stream other hcontents hending
    rw [detect_verdict engine.sizes.protocol_pos, detect_verdict sizes.protocol_pos, hcontents, hending]

section Sample

/-- An acceptor for a message in one TLS record: it waits for the announced length. -/
def recordAcceptor : Acceptor where
  State := Bytes
  initial := []
  readTls seen bytes := .ok (bytes.length, seen ++ bytes)
  accept seen :=
    if seen.length < 5 + (seen.getD 3 0).toNat * 256 + (seen.getD 4 0).toNat then .ok (.inr seen)
    else .ok (.inl ⟨none⟩)

/-- A `ClientHello` without server name: one cipher suite and one signature scheme. -/
def plainClientHello : Bytes :=
  [0x16, 3, 1, 0, 55, 1, 0, 0, 51, 3, 3] ++ List.replicate 32 0 ++
    [0, 0, 2, 0x13, 1, 1, 0, 0, 8, 0, 13, 0, 4, 0, 2, 4, 3]

def passthroughEngine : MitmEngine :=
  ⟨recordAcceptor, defaultMaxClientHelloBytes, .source, .unix, ⟨.passthrough, none, []⟩⟩

/-- The client sends its `ClientHello` in two parts and then one more byte. -/
def helloFlow : AcceptedTcpFlow where
  stream := ⟨.transport ⟨[⟨plainClientHello.take 1, by decide⟩, ⟨plainClientHello.drop 1, by decide⟩,
    ⟨[0x17], by decide⟩], none⟩, willingWriter⟩
  destinationHost := none
  sourceProcess := none
  ingress := .transparent

def quietUpstream : BoxedDuplexStream := ⟨.transport endedReader, willingWriter⟩

/-- Both directions are copied to their end. -/
def copySchedule : List (Side × CopyAction) :=
  [(.forward, .fill 8192), (.forward, .drain), (.backward, .fill 8192), (.backward, .finish),
    (.forward, .fill 8192), (.forward, .finish)]

def helloRun : Option PassthroughRun :=
  match passthroughEngine.handleFlow helloFlow with
  | .ok (.passthrough tunnel) => tunnel.handle quietUpstream copySchedule
  | _ => none

theorem passthrough_transparent_hello : ∃ run, helloRun = some run ∧
    run.upstream.accepted = plainClientHello ++ [0x17] := by
  have hresult : helloRun.map PassthroughRun.result = some (some (.ok ⟨none, 61, 0⟩)) := by decide +kernel
  obtain ⟨run, hrun, hok⟩ := Option.map_eq_some_iff.mp hresult
  refine ⟨run, hrun, ?_⟩
  unfold helloRun at hrun
  split at hrun
  · next tunnel hroute =>
    have hcarries := (passthrough_transparent passthroughEngine).1 helloFlow tunnel quietUpstream copySchedule run
      hroute hrun
    exact (hcarries.whole hok).1
  · cases hrun

end Sample
end Abyss.Mitm.Flow
