import Abyss.Mitm.Relay.RequestFraming
import Abyss.Mitm.Relay.Submission

/-! The request that a relay forwards: whatever the peers do, the first bytes written upstream
are the head of the decoded request, with its own target and `Host`. An upgrade request is
forwarded as a head only, which is the whole request exactly when nothing belongs behind it. -/
namespace Abyss.Mitm.Relay
open Abyss.Stream Abyss.Mitm.Http

/-- A request head with the given fields. -/
def requestHeadWith (request : Request) (version : Bytes) (fields : HeaderMap) : Bytes :=
  request.method ++ ascii " " ++ requestTarget request ++ ascii " " ++ version ++ crlf ++
    fields.entries.flatMap (fun entry => entry.1 ++ ascii ": " ++ entry.2 ++ crlf) ++ crlf

/-- The head of a forwarded request: the bytes it was read from, or its fields written again with the same `Host`. -/
def ForwardedHead (request : Request) (headBuffer : Http1HeadBuffer) (head : Bytes) : Prop :=
  head = headBuffer.headBytes ∨ ∃ version fields, requestVersionToken request.version = .ok version ∧
    fields.getAll (ascii "host") = request.headers.getAll (ascii "host") ∧ head = requestHeadWith request version fields

/-- What a relay writes starts with a head, as far as it gets. -/
def StartsWith (head written : Bytes) : Prop := written <+: head ∨ head <+: written

/-- What is written upstream is nothing, or a request that starts with a forwarded head. -/
def ForwardsRequest (request : Request) (headBuffer : Http1HeadBuffer) (before after : Bytes) : Prop :=
  ∃ written, after = before ++ written ∧
    (written = [] ∨ ∃ head, ForwardedHead request headBuffer head ∧ StartsWith head written)

/-- The message relay behind an upgrade only writes to the upstream connection. -/
def WebSocketRelay.OnlyWrites {Flow : Type} (websocket : WebSocketRelay Flow) : Prop :=
  ∀ client clientBytes upstream upstreamBytes flow request response,
    upstream.writer.accepted <+:
      (websocket.run client clientBytes upstream upstreamBytes flow request response).2.2.writer.accepted

section Heads
variable {request : Request} {headBuffer : Http1HeadBuffer} {head : Bytes}

/-- Leaving out other fields keeps the `Host` of a head. -/
theorem forwardedHead_excluding {excluded : HeaderName → Bool} (hhost : excluded (ascii "host") = false)
    (h : requestHeadBytesExcluding request excluded = .ok head) : ForwardedHead request headBuffer head := by
  obtain ⟨version, hversion, h⟩ := bind_eq_ok.mp h
  have hkeeps := @getAll_iter_filter request.headers _ (fun name => !excluded name) (by rw [hhost]; rfl)
  exact .inr ⟨version, ⟨request.headers.iter.filter (fun entry => !excluded entry.1)⟩, hversion, hkeeps,
    (Except.ok.inj h).symm⟩

theorem forwardedHead_relay {strip : Bool} (h : requestHeadForRelay request headBuffer strip = .ok head) :
    ForwardedHead request headBuffer head := by
  unfold requestHeadForRelay at h
  split at h
  · split at h
    · next rewritten hrewritten =>
      obtain rfl := Except.ok.inj h
      exact forwardedHead_excluding (Bool.and_eq_false_iff.mpr (.inr (by decide))) hrewritten
    · cases h
  · obtain rfl := Except.ok.inj h
    exact .inl rfl

theorem forwardedHead_websocket (h : websocketRequestHeadBytes request = .ok head) :
    ForwardedHead request headBuffer head := by
  unfold websocketRequestHeadBytes at h
  split at h
  · exact forwardedHead_excluding (by decide) h
  · cases h

end Heads

section Writes
variable {request : Request} {headBuffer : Http1HeadBuffer} {head before after : Bytes}

theorem forwardsRequest_nothing : ForwardsRequest request headBuffer before before :=
  ⟨[], (List.append_nil _).symm, .inl rfl⟩

/-- A front part of a head has been written. -/
theorem ForwardedHead.started (h : ForwardedHead request headBuffer head) {done : Bytes} (hdone : done <+: head) :
    ForwardsRequest request headBuffer before (before ++ done) := ⟨done, rfl, .inr ⟨head, h, .inl hdone⟩⟩

/-- The head and more has been written. -/
theorem ForwardedHead.finished (h : ForwardedHead request headBuffer head) (hafter : before ++ head <+: after) :
    ForwardsRequest request headBuffer before after := by
  obtain ⟨more, rfl⟩ := hafter
  exact ⟨head ++ more, List.append_assoc .., .inr ⟨head, h, .inr (List.prefix_append ..)⟩⟩

theorem forwardRequest_forwards (parser : ChunkSizeParser) (client : Duplex) (upstream : Writer) (maxBodyBytes : Nat) :
    ForwardsRequest request headBuffer upstream.accepted
      (forwardRequest parser client upstream request headBuffer maxBodyBytes).2.2.accepted := by
  unfold forwardRequest
  split
  · exact forwardsRequest_nothing
  · next framing hframing =>
    split
    · exact forwardsRequest_nothing
    · next head hhead =>
      have hforwarded := @forwardedHead_relay request headBuffer head _ hhead
      obtain ⟨done, hdone, hwritten⟩ := writeAllFor_accepted .writeProviderRequestHead upstream head
      split
      · next e upstream₁ hw =>
        rw [hw] at hwritten
        exact hwritten ▸ hforwarded.started hdone
      · next upstream₁ hw =>
        have hall := Sink.writeAll_none (writeAllFor_ok.mp hw)
        split
        · exact hforwarded.finished (hall ▸ List.prefix_rfl)
        · obtain ⟨written, hbody, -⟩ := @forwardBody_contained parser framing headBuffer.bufferedBody client.reader
            (requestBodyFraming_inside hframing) upstream₁ maxBodyBytes
          have hfront : upstream.accepted ++ head <+: (forwardBody parser client.reader upstream₁ framing
              headBuffer.bufferedBody maxBodyBytes .request).2.2.accepted := by
            rw [hbody, hall]
            exact List.prefix_append ..
          split
          · next e reader₁ upstream₂ hf =>
            rw [hf] at hfront
            exact hforwarded.finished hfront
          · next capture reader₁ upstream₂ hf =>
            rw [hf] at hfront
            have hflush := flushFor_accepted .writeProviderRequestHead upstream₂
            split
            · next e upstream₃ hfl =>
              rw [hfl] at hflush
              exact hforwarded.finished (hflush ▸ hfront)
            · next upstream₃ hfl =>
              rw [hfl] at hflush
              exact hforwarded.finished (hflush ▸ hfront)

end Writes

section Flows
variable {Flow : Type} {httparse : Httparse} {types : HttpTypes} {parser : ChunkSizeParser}

private theorem decode_keeps_writer (upstream : Duplex) :
    (decodeResponseFromUpstream httparse types upstream).2.writer = upstream.writer := by
  unfold decodeResponseFromUpstream
  split <;> rfl

private theorem websocketSuccess_upstream (flow : DecodedClientFlow Flow) (response : DecodedUpstreamResponse)
    (requestHeadBytes : Nat) : (forwardWebsocketSuccess flow response requestHeadBytes).upstream = response.stream := by
  unfold forwardWebsocketSuccess
  split
  · rfl
  · split <;> rfl

/-- On the upgrade path the head is written first, and only the message relay writes more. -/
theorem relayWebsocketTo_forwards {websocket : WebSocketRelay Flow} (hwrites : websocket.OnlyWrites)
    (flow : DecodedClientFlow Flow) (upstream : Duplex) (maxBodyBytes : Nat) :
    ForwardsRequest flow.firstRequest flow.requestHeadBuffer upstream.writer.accepted
      (relayWebsocketTo httparse types parser websocket flow upstream maxBodyBytes).upstream.writer.accepted := by
  unfold relayWebsocketTo
  split
  · exact forwardsRequest_nothing
  · next head hhead =>
    have hforwarded := @forwardedHead_websocket flow.firstRequest flow.requestHeadBuffer head hhead
    obtain ⟨done, hdone, hwritten⟩ := writeAllFor_accepted .writeProviderRequestHead upstream.writer head
    unfold forwardWebsocketRequestHead
    cases hw : writeAllFor .writeProviderRequestHead upstream.writer head with
    | mk result writer =>
      rw [hw] at hwritten
      cases result with
      | error e => exact hwritten ▸ hforwarded.started hdone
      | ok _ =>
        have hall := Sink.writeAll_none (writeAllFor_ok.mp hw)
        have hfinished : ∀ after : Writer, writer.accepted <+: after.accepted →
            ForwardsRequest flow.firstRequest flow.requestHeadBuffer upstream.writer.accepted after.accepted :=
          fun after h => hforwarded.finished (hall ▸ h)
        have hkeeps := @decode_keeps_writer httparse types { upstream with writer }
        simp only
        split
        · next heq =>
          obtain ⟨_, rfl⟩ := Prod.mk.inj heq
          exact hfinished _ List.prefix_rfl
        · next requestHeadBytes upstreamWriter heq =>
          obtain ⟨_, rfl⟩ := Prod.mk.inj heq
          split
          · next e upstream' hdecode =>
            rw [hdecode] at hkeeps
            exact hfinished _ (hkeeps ▸ List.prefix_rfl)
          · next response upstream' hdecode =>
            have hstream := decode_writer httparse types hdecode
            split
            · refine hfinished _ ?_
              rw [(submit_streams parser flow response _ maxBodyBytes).1, hstream]
            · have hupgrade := websocketSuccess_upstream flow response requestHeadBytes
              split
              · exact hfinished _ (by simp only [hupgrade, hstream, List.prefix_rfl])
              · have hrelay := hwrites (forwardWebsocketSuccess flow response requestHeadBytes).client
                  flow.requestHeadBuffer.bufferedBody (forwardWebsocketSuccess flow response requestHeadBytes).upstream
                  response.headBuffer.bufferedBody flow.context flow.firstRequest response.head
                have hbefore : writer.accepted =
                    (forwardWebsocketSuccess flow response requestHeadBytes).upstream.writer.accepted := by
                  rw [hupgrade, hstream]
                rw [← hbefore] at hrelay
                split
                · next hrun =>
                  rw [hrun] at hrelay
                  exact hfinished _ hrelay
                · next hrun =>
                  rw [hrun] at hrelay
                  exact hfinished _ hrelay

/-- What a relay writes upstream is the decoded request, as far as it gets. -/
theorem relayTo_forwards {websocket : WebSocketRelay Flow} (hwrites : websocket.OnlyWrites)
    (flow : DecodedClientFlow Flow) (upstream : Duplex) (maxBodyBytes : Nat) :
    ForwardsRequest flow.firstRequest flow.requestHeadBuffer upstream.writer.accepted
      (relayTo httparse types parser websocket flow upstream maxBodyBytes).upstream.writer.accepted := by
  unfold relayTo
  split
  · exact relayWebsocketTo_forwards hwrites flow upstream maxBodyBytes
  · rw [(relayPlainHttpTo_request httparse types parser flow upstream maxBodyBytes).1]
    exact forwardRequest_forwards parser flow.stream upstream.writer maxBodyBytes

end Flows

section DeclinedUpgrade

/-- The header fields of the head that is written upstream for an upgrade. -/
def upgradeHeaders (request : Request) : HeaderMap :=
  ⟨request.headers.iter.filter (fun entry => entry.1 != ascii "sec-websocket-extensions")⟩

/-- What is written for a request: the forwarded head, a body as its framing fields announce it, and every
client byte that was buffered behind the decoded head. -/
structure ForwardedWhole (parser : ChunkSizeParser) (request : Request) (headBuffer : Http1HeadBuffer)
    (head written : Bytes) : Prop where
  complete : ∃ framing body payload, requestBodyFraming { request with headers := upgradeHeaders request } = .ok framing ∧
    WireBody parser framing body payload ∧ written = head ++ body
  kept : head ++ headBuffer.bufferedBody <+: written

/-- The framing fields announce no body. -/
def AnnouncesNoBody (request : Request) : Prop :=
  requestBodyFraming request = .ok .empty ∨ requestBodyFraming request = .ok (.contentLength 0)

instance (request : Request) : Decidable (AnnouncesNoBody request) := inferInstanceAs (Decidable (_ ∨ _))

/-- The framing is decided by the values of two fields. -/
theorem requestBodyFraming_congr {request request' : Request}
    (hcodings : transferEncodings request.headers = transferEncodings request'.headers)
    (hlengths : contentLengths request.headers = contentLengths request'.headers) :
    requestBodyFraming request = requestBodyFraming request' := by
  have hchunked : isChunked request.headers = isChunked request'.headers := by
    unfold transferEncodings at hcodings
    rw [isChunked, isChunked, hcodings]
  have hlength : contentLength request.headers = contentLength request'.headers := by
    unfold contentLengths at hlengths
    rw [contentLength, contentLength, hlengths]
  rw [requestBodyFraming, requestBodyFraming, hchunked, hlength]

/-- Dropping the extensions keeps the framing. -/
theorem requestBodyFraming_upgradeHeaders (request : Request) :
    requestBodyFraming { request with headers := upgradeHeaders request } = requestBodyFraming request :=
  requestBodyFraming_congr (@getAll_iter_filter request.headers _ (· != ascii "sec-websocket-extensions") (by decide))
    (@getAll_iter_filter request.headers _ (· != ascii "sec-websocket-extensions") (by decide))

/-- A head alone is a whole request exactly if it announces no body and nothing was buffered behind it. -/
theorem forwardedWhole_head_iff (parser : ChunkSizeParser) (request : Request) (headBuffer : Http1HeadBuffer) (head : Bytes) :
    ForwardedWhole parser request headBuffer head head ↔ AnnouncesNoBody request ∧ headBuffer.bufferedBody = [] := by
  constructor
  · rintro ⟨⟨framing, body, payload, hframing, hbody, hwritten⟩, hkept⟩
    obtain rfl : body = [] := List.self_eq_append_right.mp hwritten
    rw [requestBodyFraming_upgradeHeaders] at hframing
    have hbuffered : headBuffer.bufferedBody.length = 0 := by
      have hle := hkept.length_le
      rw [List.length_append] at hle
      omega
    refine ⟨?_, List.length_eq_zero_iff.mp hbuffered⟩
    cases framing with
    | empty => exact .inl hframing
    | contentLength length =>
      obtain rfl : 0 = length := hbody.1
      exact .inr hframing
    | chunked => exact absurd rfl (ChunkedBody.ne_nil hbody)
    | untilEof => exact absurd rfl (requestBodyFraming_inside hframing)
  · rintro ⟨hnone, hbuffered⟩
    refine ⟨?_, by rw [hbuffered, List.append_nil]⟩
    rcases hnone with hframing | hframing
    · exact ⟨.empty, [], [], (requestBodyFraming_upgradeHeaders request).trans hframing, ⟨rfl, rfl⟩, (List.append_nil _).symm⟩
    · exact ⟨.contentLength 0, [], [], (requestBodyFraming_upgradeHeaders request).trans hframing, ⟨rfl, rfl⟩,
        (List.append_nil _).symm⟩

variable {Flow : Type} {httparse : Httparse} {types : HttpTypes} {parser : ChunkSizeParser}
  {flow flow' : DecodedClientFlow Flow} {upstream : Duplex} {response : DecodedUpstreamResponse}
  {requestCapture : MessageCapture} {maxBodyBytes : Nat}

/-- For a declined upgrade exactly the serialized head is written upstream. -/
theorem declined_upgrade_written (websocket : WebSocketRelay Flow)
    (hupgrade : isWebsocketUpgradeRequest flow.firstRequest = true)
    (hanswered : Answered httparse types parser flow upstream maxBodyBytes flow' response requestCapture)
    (hdeclined : response.head.status ≠ 101) :
    ∃ head, websocketRequestHeadBytes flow.firstRequest = .ok head ∧
      (relayTo httparse types parser websocket flow upstream maxBodyBytes).upstream.writer.accepted =
        upstream.writer.accepted ++ head := by
  rw [hanswered.relayTo websocket (fun _ => hdeclined), (submit_streams parser flow' response requestCapture maxBodyBytes).1]
  obtain ⟨upstreamWriter, rest, hdecode, -, hrequest⟩ := hanswered
  rw [if_pos hupgrade] at hrequest
  obtain ⟨head, headBytes, hhead, hforward, -⟩ := hrequest
  refine ⟨head, hhead, ?_⟩
  rw [decode_writer httparse types hdecode]
  unfold forwardWebsocketRequestHead at hforward
  split at hforward
  · simp at hforward
  · next writer hwrite =>
    obtain ⟨-, rfl⟩ := Prod.mk.inj hforward
    exact Sink.writeAll_none (writeAllFor_ok.mp hwrite)

/-- A forwarded upgrade head and a decoded response head are an answer. -/
theorem answered_of_status {head : Bytes} {status : Nat} (hupgrade : isWebsocketUpgradeRequest flow.firstRequest = true)
    (hhead : websocketRequestHeadBytes flow.firstRequest = .ok head)
    (hforward : (forwardWebsocketRequestHead upstream.writer head).1.isOk = true)
    (hstatus : (decodeResponseFromUpstream httparse types { upstream with
      writer := (forwardWebsocketRequestHead upstream.writer head).2 }).1.map (fun response => response.head.status) =
        .ok status) :
    ∃ response requestCapture, Answered httparse types parser flow upstream maxBodyBytes flow response requestCapture ∧
      response.head.status = status := by
  generalize hwritten : forwardWebsocketRequestHead upstream.writer head = forwarded at *
  obtain ⟨result, upstreamWriter⟩ := forwarded
  generalize hdecode : decodeResponseFromUpstream httparse types { upstream with writer := upstreamWriter } = decoded at *
  obtain ⟨answer, rest⟩ := decoded
  cases result with
  | error e => cases hforward
  | ok headBytes =>
    cases answer with
    | error e => cases hstatus
    | ok response =>
      refine ⟨response, emptyMessageCapture headBytes, ⟨upstreamWriter, rest, hdecode, rfl, ?_⟩, Except.ok.inj hstatus⟩
      rw [if_pos hupgrade]
      exact ⟨head, headBytes, hhead, hwritten, rfl, rfl⟩

/-- An upgrade that the upstream declines was forwarded as a whole request, with no client byte lost,
exactly when its framing fields announce no body and nothing was buffered behind its head. -/
theorem declined_upgrade_whole_iff (websocket : WebSocketRelay Flow)
    (hupgrade : isWebsocketUpgradeRequest flow.firstRequest = true)
    (hanswered : Answered httparse types parser flow upstream maxBodyBytes flow' response requestCapture)
    (hdeclined : response.head.status ≠ 101) :
    (∃ head written, websocketRequestHeadBytes flow.firstRequest = .ok head ∧
      (relayTo httparse types parser websocket flow upstream maxBodyBytes).upstream.writer.accepted =
        upstream.writer.accepted ++ written ∧
      ForwardedWhole parser flow.firstRequest flow.requestHeadBuffer head written) ↔
    AnnouncesNoBody flow.firstRequest ∧ flow.requestHeadBuffer.bufferedBody = [] := by
  obtain ⟨head, hhead, hwritten⟩ := declined_upgrade_written websocket hupgrade hanswered hdeclined
  rw [← forwardedWhole_head_iff parser flow.firstRequest flow.requestHeadBuffer head]
  constructor
  · rintro ⟨head', written, hhead', hwritten', hwhole⟩
    obtain rfl : head = head' := Except.ok.inj (hhead.symm.trans hhead')
    obtain rfl : head = written := List.append_cancel_left (hwritten.symm.trans hwritten')
    exact hwhole
  · exact fun hwhole => ⟨head, head, hhead, hwritten, hwhole⟩

/-- An upgrade request with the given further fields. -/
def upgradeRequest (more : List (HeaderName × HeaderValue)) : Request :=
  { getRequest with headers := ⟨[(ascii "connection", ascii "Upgrade"), (ascii "upgrade", ascii "websocket"),
      (ascii "sec-websocket-key", ascii "k")] ++ more⟩ }

def plainUpgradeHead : Bytes :=
  ascii "GET / HTTP/1.1\r\nConnection: Upgrade\r\nUpgrade: websocket\r\nSec-WebSocket-Key: k\r\n\r\n"

def plainUpgrade : DecodedClientFlow Unit :=
  ⟨⟨endedReader, willingWriter⟩, (), upgradeRequest [], ⟨plainUpgradeHead, plainUpgradeHead.length, le_rfl⟩⟩

theorem declined_upgrade_whole_plain : ∃ head written, websocketRequestHeadBytes plainUpgrade.firstRequest = .ok head ∧
    (relayTo plainHttparse originTypes plainSizeParser noWebSocket plainUpgrade boundedUpstream
      16).upstream.writer.accepted = boundedUpstream.writer.accepted ++ written ∧
    ForwardedWhole plainSizeParser plainUpgrade.firstRequest plainUpgrade.requestHeadBuffer head written := by
  obtain ⟨response, requestCapture, hanswered, hstatus⟩ := @answered_of_status Unit plainHttparse originTypes
    plainSizeParser plainUpgrade boundedUpstream 16 _ 200 (by decide) rfl (by decide +kernel) (by decide +kernel)
  exact (declined_upgrade_whole_iff noWebSocket (by decide) hanswered (by rw [hstatus]; decide)).mpr
    ⟨by decide, by decide⟩

def bodyUpgradeHead : Bytes :=
  ascii "GET / HTTP/1.1\r\nConnection: Upgrade\r\nUpgrade: websocket\r\nSec-WebSocket-Key: k\r\nContent-Length: 5\r\n\r\n"

theorem bodyUpgradeHead_length : bodyUpgradeHead.length ≤ (bodyUpgradeHead ++ ascii "hello").length := by
  rw [List.length_append]
  exact Nat.le_add_right ..

/-- An upgrade request with a body, read together with its head. -/
def bodyUpgrade : DecodedClientFlow Unit :=
  ⟨⟨endedReader, willingWriter⟩, (), upgradeRequest [(ascii "content-length", ascii "5")],
    ⟨bodyUpgradeHead ++ ascii "hello", bodyUpgradeHead.length, bodyUpgradeHead_length⟩⟩

/-- The body of a declined upgrade request is lost, although its length is declared upstream. -/
theorem declined_upgrade_loses_body :
    (parseRequestHead plainHttparse originTypes).run bodyUpgrade.requestHeadBuffer.bytes =
      .complete bodyUpgrade.firstRequest bodyUpgrade.requestHeadBuffer.headLen ∧
    isWebsocketUpgradeRequest bodyUpgrade.firstRequest = true ∧
    (∃ response requestCapture, Answered plainHttparse originTypes plainSizeParser bodyUpgrade boundedUpstream 16
      bodyUpgrade response requestCapture ∧ response.head.status = 200) ∧
    requestBodyFraming bodyUpgrade.firstRequest = .ok (.contentLength 5) ∧
    bodyUpgrade.requestHeadBuffer.bufferedBody = ascii "hello" ∧
    ¬ ∃ head written, websocketRequestHeadBytes bodyUpgrade.firstRequest = .ok head ∧
      (relayTo plainHttparse originTypes plainSizeParser noWebSocket bodyUpgrade boundedUpstream
        16).upstream.writer.accepted = boundedUpstream.writer.accepted ++ written ∧
      ForwardedWhole plainSizeParser bodyUpgrade.firstRequest bodyUpgrade.requestHeadBuffer head written := by
  have hupgrade : isWebsocketUpgradeRequest bodyUpgrade.firstRequest = true := by decide
  obtain ⟨response, requestCapture, hanswered, hstatus⟩ := @answered_of_status Unit plainHttparse originTypes
    plainSizeParser bodyUpgrade boundedUpstream 16 _ 200 hupgrade rfl (by decide +kernel) (by decide +kernel)
  have hbuffered : bodyUpgrade.requestHeadBuffer.bufferedBody = ascii "hello" := List.drop_left
  refine ⟨by decide +kernel, hupgrade, ⟨response, requestCapture, hanswered, hstatus⟩, by decide, hbuffered, ?_⟩
  rintro ⟨head, written, hhead, hwritten, hwhole⟩
  obtain ⟨head', hhead', hwritten'⟩ := declined_upgrade_written noWebSocket hupgrade hanswered (by rw [hstatus]; decide)
  obtain rfl : head = head' := Except.ok.inj (hhead.symm.trans hhead')
  obtain rfl : written = head := List.append_cancel_left (hwritten.symm.trans hwritten')
  have hnothing := ((forwardedWhole_head_iff plainSizeParser bodyUpgrade.firstRequest bodyUpgrade.requestHeadBuffer
    written).mp hwhole).2
  rw [hbuffered] at hnothing
  exact absurd hnothing (by decide)

end DeclinedUpgrade
end Abyss.Mitm.Relay
