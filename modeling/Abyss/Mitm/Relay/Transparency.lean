import Abyss.Mitm.Relay.Delivery
import Abyss.Mitm.Relay.Exchange

/-! Relay transparency: a forwarded message reaches the peer as its head and
exactly its own wire bytes, whatever is captured on the side. -/
namespace Abyss.Mitm.Relay
open Abyss.Stream Abyss.Mitm.Http

/-- A forwarded message: `head` and the wire bytes of one body moved from the stream to the peer, the
capture holds the front part of the decoded payload, and the count is what was written. -/
def Transparent (parser : ChunkSizeParser) (framing : BodyFraming) (head bufferedBody : Bytes) (reader reader' : Reader)
    (writer writer' : Writer) (maxBodyBytes : Nat) (capture : MessageCapture) : Prop :=
  ∃ wire payload, WireBody parser framing wire payload ∧
    bufferedBody ++ reader.contents = wire ++ reader'.contents ∧
    (framing = .untilEof → reader'.contents = []) ∧
    writer'.accepted = writer.accepted ++ (head ++ wire) ∧
    capture.body.bytes = payload.take maxBodyBytes ∧
    (capture.body.truncated = true ↔ maxBodyBytes < payload.length) ∧
    capture.forwardedBytes = (head ++ wire).length

section Bodies
variable {parser : ChunkSizeParser} {framing : BodyFraming} {direction : BodyDirection}

private theorem failLast_ok {capture capture' : BodyCapture} {source : ErrorKind}
    (h : capture.failLast direction source = .ok capture') :
    capture'.body = capture.body ∧ capture'.forwardedBytes = capture.forwardedBytes := by
  cases direction with
  | request => cases h
  | response =>
    cases h
    exact ⟨rfl, rfl⟩

/-- A peer whose writes succeed takes the whole last piece. -/
theorem lastStep_accepts {capture capture' : BodyCapture} {writer writer' : Writer} {last : Bytes} {before : Nat}
    (hcount : capture.forwardedBytes = before + last.length) (hlen : capture.forwardedBytes < u64Bound)
    (hempty : framing = .empty → last = []) (hw : writer.WritesSucceed)
    (h : lastStep framing direction capture writer last = (.ok capture', writer')) :
    writer'.accepted = writer.accepted ++ last ∧ capture'.body = capture.body ∧
      capture'.forwardedBytes = capture.forwardedBytes := by
  rw [lastStep_eq framing direction capture writer last hcount hlen hempty] at h
  have hacc := finalWrite_succeeds hw hempty
  obtain ⟨hresult, rfl⟩ := Prod.mk.inj h
  refine ⟨hacc, ?_⟩
  have hcounted : (counted capture before writer (finalWrite framing writer last).2).forwardedBytes =
      capture.forwardedBytes := by
    simp [counted, hacc, hcount]
  rw [← hcounted]
  cases hf : (finalWrite framing writer last).1 with
  | none =>
    rw [hf] at hresult
    cases hresult
    exact ⟨rfl, rfl⟩
  | some source =>
    rw [hf] at hresult
    exact failLast_ok hresult

theorem Completes.last_empty {bufferedBody : Bytes} {reader reader' : Reader} {earlier : List Bytes}
    {last payload : Bytes} (h : Completes parser framing bufferedBody reader earlier last payload reader')
    (hf : framing = .empty) : last = [] := by
  subst hf
  have hwire : earlier.flatten ++ last = [] := h.wire.1.1
  exact (List.append_eq_nil_iff.mp hwire).2

/-- Forwarding a body to a peer whose writes succeed writes its wire bytes and nothing else. -/
theorem forwardBody_transparent {reader reader' : Reader} {writer writer' : Writer} {bufferedBody : Bytes}
    {maxBodyBytes : Nat} {capture : BodyCapture} (hw : writer.WritesSucceed)
    (h : forwardBody parser reader writer framing bufferedBody maxBodyBytes direction =
      (.ok capture, reader', writer')) :
    ∃ wire payload, WireBody parser framing wire payload ∧
      bufferedBody ++ reader.contents = wire ++ reader'.contents ∧
      (framing = .untilEof → reader'.contents = []) ∧
      writer'.accepted = writer.accepted ++ wire ∧ capture.body.bytes = payload.take maxBodyBytes ∧
      (capture.body.truncated = true ↔ maxBodyBytes < payload.length) ∧ capture.forwardedBytes = wire.length := by
  obtain ⟨earlier, last, payload, capture₀, writer₁, hcomp, hcap, hearly, hlast⟩ := forwardBody_ok h
  obtain ⟨hbody, hstream, -⟩ := hcomp.wire
  obtain ⟨hbytes, -, htrunc, -, hcount, -, hlen⟩ := hcap
  obtain ⟨writer₂, hearly₂, hw₁⟩ := hw.writeEach .writeZero earlier
  obtain rfl : writer₁ = writer₂ := (Prod.mk.inj (hearly.symm.trans hearly₂)).2
  obtain ⟨hacc, hsame, hfwd⟩ := lastStep_accepts (hcount.trans (List.length_append ..)) (hcount ▸ hlen)
    hcomp.last_empty hw₁ hlast
  refine ⟨earlier.flatten ++ last, payload, hbody, hstream, ?_, ?_, ?_, ?_, hfwd.trans hcount⟩
  · intro hf
    obtain ⟨_, _, _, _, hend⟩ := hcomp
    exact (hend hf).1
  · rw [hacc, Sink.writeEach_none hearly, List.append_assoc]
  · rw [hsame, hbytes]
  · rw [hsame, htrunc]

/-- The head is attached where its bytes and the body bytes can be counted together. -/
theorem messageCapture_ok {headLen : Nat} {body : BodyCapture} {capture : MessageCapture} :
    messageCapture headLen body = .ok capture ↔ headLen + body.forwardedBytes < u64Bound ∧
      capture = ⟨body.body, headLen + body.forwardedBytes, body.agentWriteError⟩ := by
  constructor
  · intro h
    unfold messageCapture at h
    cases hu : usizeToU64 headLen with
    | error e => simp [hu, bind, Except.bind] at h
    | ok n =>
      obtain ⟨rfl, -⟩ := usizeToU64_ok hu
      cases ha : addLen n body.forwardedBytes with
      | error e => simp [hu, ha, bind, Except.bind] at h
      | ok total =>
        obtain ⟨rfl, hlt⟩ := addLen_ok ha
        simp only [hu, ha, bind, Except.bind, pure, Except.pure, Except.ok.injEq] at h
        exact ⟨hlt, h.symm⟩
  · intro h
    obtain ⟨hlt, rfl⟩ := h
    simp only [messageCapture, usizeToU64_of_lt (show headLen < u64Bound by omega), addLen_of_lt hlt, bind,
      Except.bind, pure, Except.pure]

end Bodies

section Messages
variable {parser : ChunkSizeParser}

theorem flushFor_ok {operation : FlowOperation} {writer writer' : Writer}
    (h : flushFor operation writer = (.ok (), writer')) : writer'.accepted = writer.accepted := by
  unfold flushFor at h
  split at h
  · next w hw =>
    obtain rfl : w = writer' := by simpa using h
    simpa [hw] using Sink.flush_accepted writer
  · simp at h

/-- Every stage of a successfully forwarded request. -/
theorem forwardRequest_ok {client client' : Duplex} {upstream upstream' : Writer} {request : Request}
    {headBuffer : Http1HeadBuffer} {maxBodyBytes : Nat} {capture : MessageCapture}
    (h : forwardRequest parser client upstream request headBuffer maxBodyBytes = (.ok capture, client', upstream')) :
    ∃ framing head body upstream₁ upstream₂,
      requestBodyFraming request = .ok framing ∧
      requestHeadForRelay request headBuffer (handleExpectContinue request framing) = .ok head ∧
      upstream.writeAll .writeZero head = (none, upstream₁) ∧
      forwardBody parser client.reader upstream₁ framing headBuffer.bufferedBody maxBodyBytes .request =
        (.ok body, client'.reader, upstream₂) ∧
      upstream'.accepted = upstream₂.accepted ∧
      capture = ⟨body.body, head.length + body.forwardedBytes, body.agentWriteError⟩ := by
  unfold forwardRequest at h
  split at h
  · simp at h
  · next framing hframing =>
    split at h
    · simp at h
    · next head hhead =>
      split at h
      · simp at h
      · next upstream₁ hw =>
        split at h
        · simp at h
        · next clientWriter hexpect =>
          split at h
          · simp at h
          · next body clientReader upstream₂ hbody =>
            split at h
            · simp at h
            · next upstream₃ hflush =>
              simp only [Prod.mk.injEq] at h
              obtain ⟨hmsg, rfl, rfl⟩ := h
              exact ⟨framing, head, body, upstream₁, upstream₂, hframing, hhead, writeAllFor_ok.mp hw, hbody,
                flushFor_ok hflush, (messageCapture_ok.mp hmsg).2⟩

/-- Every stage of a successfully forwarded response. -/
theorem forwardResponse_ok {upstream upstream' : Reader} {client client' : Writer} {request : Request}
    {response : Response} {headBuffer : Http1HeadBuffer} {maxBodyBytes : Nat} {capture : MessageCapture}
    (h : forwardResponse parser upstream client request response headBuffer maxBodyBytes =
      (.ok capture, upstream', client')) :
    ∃ framing body client₁,
      responseBodyFraming request.method response = .ok framing ∧
      client.writeAll .writeZero headBuffer.headBytes = (none, client₁) ∧
      forwardBody parser upstream client₁ framing headBuffer.bufferedBody maxBodyBytes .response =
        (.ok body, upstream', client') ∧
      headBuffer.headBytes.length + body.forwardedBytes < u64Bound ∧
      capture = ⟨body.body, headBuffer.headBytes.length + body.forwardedBytes, body.agentWriteError⟩ := by
  unfold forwardResponse at h
  split at h
  · simp at h
  · next client₁ hw =>
    split at h
    · simp at h
    · next framing hframing =>
      split at h
      · simp at h
      · next body upstream₂ client₂ hbody =>
        simp only [Prod.mk.injEq] at h
        obtain ⟨hmsg, rfl, rfl⟩ := h
        exact ⟨framing, body, client₁, hframing, writeAllFor_ok.mp hw, hbody, messageCapture_ok.mp hmsg⟩

theorem forwardRequest_transparent {client client' : Duplex} {upstream upstream' : Writer} {request : Request}
    {headBuffer : Http1HeadBuffer} {maxBodyBytes : Nat} {capture : MessageCapture} (hw : upstream.WritesSucceed)
    (h : forwardRequest parser client upstream request headBuffer maxBodyBytes = (.ok capture, client', upstream')) :
    ∃ framing head, requestBodyFraming request = .ok framing ∧
      requestHeadForRelay request headBuffer (handleExpectContinue request framing) = .ok head ∧
      Transparent parser framing head headBuffer.bufferedBody client.reader client'.reader upstream upstream'
        maxBodyBytes capture := by
  obtain ⟨framing, head, body, upstream₁, upstream₂, hframing, hhead, hwrite, hbody, hflush, rfl⟩ := forwardRequest_ok h
  obtain ⟨w, hwrite', hw₁⟩ := hw.writeAll .writeZero head
  obtain rfl : upstream₁ = w := (Prod.mk.inj (hwrite.symm.trans hwrite')).2
  obtain ⟨wire, payload, hwire, hstream, heof, hacc, hbytes, htrunc, hcount⟩ := forwardBody_transparent hw₁ hbody
  refine ⟨framing, head, hframing, hhead, wire, payload, hwire, hstream, heof, ?_, hbytes, htrunc, ?_⟩
  · rw [hflush, hacc, Sink.writeAll_none hwrite, List.append_assoc]
  · rw [List.length_append, hcount]

theorem forwardResponse_transparent {upstream upstream' : Reader} {client client' : Writer} {request : Request}
    {response : Response} {headBuffer : Http1HeadBuffer} {maxBodyBytes : Nat} {capture : MessageCapture}
    (hw : client.WritesSucceed)
    (h : forwardResponse parser upstream client request response headBuffer maxBodyBytes =
      (.ok capture, upstream', client')) :
    ∃ framing, responseBodyFraming request.method response = .ok framing ∧
      Transparent parser framing headBuffer.headBytes headBuffer.bufferedBody upstream upstream' client client'
        maxBodyBytes capture := by
  obtain ⟨framing, body, client₁, hframing, hwrite, hbody, -, rfl⟩ := forwardResponse_ok h
  obtain ⟨w, hwrite', hw₁⟩ := hw.writeAll .writeZero headBuffer.headBytes
  obtain rfl : client₁ = w := (Prod.mk.inj (hwrite.symm.trans hwrite')).2
  obtain ⟨wire, payload, hwire, hstream, heof, hacc, hbytes, htrunc, hcount⟩ := forwardBody_transparent hw₁ hbody
  refine ⟨framing, hframing, wire, payload, hwire, hstream, heof, ?_, hbytes, htrunc, ?_⟩
  · rw [hacc, Sink.writeAll_none hwrite, List.append_assoc]
  · rw [List.length_append, hcount]

/-- Two messages forwarded from the same bytes are written alike, however these were split and
however much of them was captured. -/
def WrittenAlike (writer₁ writer₁' writer₂ writer₂' : Writer) (capture₁ capture₂ : MessageCapture) : Prop :=
  ∃ written, writer₁'.accepted = writer₁.accepted ++ written ∧ writer₂'.accepted = writer₂.accepted ++ written ∧
    capture₁.forwardedBytes = written.length ∧ capture₂.forwardedBytes = written.length

theorem Transparent.alike {framing : BodyFraming} {head buffered₁ buffered₂ : Bytes}
    {reader₁ reader₁' reader₂ reader₂' : Reader} {writer₁ writer₁' writer₂ writer₂' : Writer} {max₁ max₂ : Nat}
    {capture₁ capture₂ : MessageCapture}
    (h₁ : Transparent parser framing head buffered₁ reader₁ reader₁' writer₁ writer₁' max₁ capture₁)
    (h₂ : Transparent parser framing head buffered₂ reader₂ reader₂' writer₂ writer₂' max₂ capture₂)
    (hstream : buffered₁ ++ reader₁.contents = buffered₂ ++ reader₂.contents) :
    WrittenAlike writer₁ writer₁' writer₂ writer₂' capture₁ capture₂ := by
  obtain ⟨wire₁, payload₁, hwire₁, hs₁, heof₁, hacc₁, -, -, hcount₁⟩ := h₁
  obtain ⟨wire₂, payload₂, hwire₂, hs₂, heof₂, hacc₂, -, -, hcount₂⟩ := h₂
  have hsame : wire₁ = wire₂ := by
    by_cases hf : framing = .untilEof
    · rw [heof₁ hf, List.append_nil] at hs₁
      rw [heof₂ hf, List.append_nil] at hs₂
      rw [← hs₁, ← hs₂, hstream]
    · refine (hwire₁.unique hf hwire₂ (t := buffered₁ ++ reader₁.contents) ?_ ?_).1
      · rw [hs₁]
        exact List.prefix_append ..
      · rw [hstream, hs₂]
        exact List.prefix_append ..
  subst hsame
  exact ⟨head ++ wire₁, hacc₁, hacc₂, hcount₁, hcount₂⟩

/-- The head a request is forwarded with: its own bytes, unless the relay answers an expectation
itself and serializes the head again without it. -/
theorem requestHeadForRelay_cases {request : Request} {headBuffer : Http1HeadBuffer} {framing : BodyFraming}
    {head : Bytes}
    (h : requestHeadForRelay request headBuffer (handleExpectContinue request framing) = .ok head) :
    (handleExpectContinue request framing = false ∧ head = headBuffer.headBytes) ∨
    (handleExpectContinue request framing = true ∧ httpRequestHeadWithoutRelayHeaders request true = .ok head) := by
  unfold requestHeadForRelay at h
  cases he : handleExpectContinue request framing with
  | false =>
    rw [he] at h
    exact .inl ⟨rfl, (Except.ok.inj h).symm⟩
  | true =>
    rw [he] at h
    simp only [if_true] at h
    split at h
    · next head' hh =>
      cases h
      exact .inr ⟨rfl, hh⟩
    · cases h

end Messages

/-- Relay transparency of requests and responses. When the writes of the peer succeed and forwarding
returns a capture, the peer has received the head and exactly the wire bytes of the one body at the
front of the stream, the capture is the front part of the payload, and the count is what was written;
what is written and counted depends on the bytes of the message alone. -/
theorem relay_transparency (parser : ChunkSizeParser) :
    (∀ client client' upstream upstream' request headBuffer maxBodyBytes capture, Sink.WritesSucceed upstream →
      forwardRequest parser client upstream request headBuffer maxBodyBytes = (.ok capture, client', upstream') →
      ∃ framing head, requestBodyFraming request = .ok framing ∧
        ((handleExpectContinue request framing = false ∧ head = headBuffer.headBytes) ∨
          (handleExpectContinue request framing = true ∧
            httpRequestHeadWithoutRelayHeaders request true = .ok head)) ∧
        Transparent parser framing head headBuffer.bufferedBody client.reader client'.reader upstream upstream'
          maxBodyBytes capture) ∧
    (∀ upstream upstream' client client' request response headBuffer maxBodyBytes capture,
      Sink.WritesSucceed client →
      forwardResponse parser upstream client request response headBuffer maxBodyBytes =
        (.ok capture, upstream', client') →
      ∃ framing, responseBodyFraming request.method response = .ok framing ∧
        Transparent parser framing headBuffer.headBytes headBuffer.bufferedBody upstream upstream' client client'
          maxBodyBytes capture) ∧
    (∀ client₁ client₁' client₂ client₂' upstream₁ upstream₁' upstream₂ upstream₂' request headBuffer₁ headBuffer₂
      max₁ max₂ capture₁ capture₂, Sink.WritesSucceed upstream₁ → Sink.WritesSucceed upstream₂ →
      forwardRequest parser client₁ upstream₁ request headBuffer₁ max₁ = (.ok capture₁, client₁', upstream₁') →
      forwardRequest parser client₂ upstream₂ request headBuffer₂ max₂ = (.ok capture₂, client₂', upstream₂') →
      headBuffer₁.headBytes = headBuffer₂.headBytes →
      headBuffer₁.bufferedBody ++ client₁.reader.contents = headBuffer₂.bufferedBody ++ client₂.reader.contents →
      WrittenAlike upstream₁ upstream₁' upstream₂ upstream₂' capture₁ capture₂) ∧
    (∀ upstream₁ upstream₁' upstream₂ upstream₂' client₁ client₁' client₂ client₂' request response headBuffer₁
      headBuffer₂ max₁ max₂ capture₁ capture₂, Sink.WritesSucceed client₁ → Sink.WritesSucceed client₂ →
      forwardResponse parser upstream₁ client₁ request response headBuffer₁ max₁ =
        (.ok capture₁, upstream₁', client₁') →
      forwardResponse parser upstream₂ client₂ request response headBuffer₂ max₂ =
        (.ok capture₂, upstream₂', client₂') →
      headBuffer₁.headBytes = headBuffer₂.headBytes →
      headBuffer₁.bufferedBody ++ upstream₁.contents = headBuffer₂.bufferedBody ++ upstream₂.contents →
      WrittenAlike client₁ client₁' client₂ client₂' capture₁ capture₂) := by
  refine ⟨?_, ?_, ?_, ?_⟩
  · intro client client' upstream upstream' request headBuffer maxBodyBytes capture hw h
    obtain ⟨framing, head, hframing, hhead, htr⟩ := forwardRequest_transparent hw h
    exact ⟨framing, head, hframing, requestHeadForRelay_cases hhead, htr⟩
  · intro upstream upstream' client client' request response headBuffer maxBodyBytes capture hw h
    exact forwardResponse_transparent hw h
  · intro client₁ client₁' client₂ client₂' upstream₁ upstream₁' upstream₂ upstream₂' request headBuffer₁ headBuffer₂
      max₁ max₂ capture₁ capture₂ hw₁ hw₂ h₁ h₂ hhead hstream
    obtain ⟨framing, head₁, hf₁, hh₁, htr₁⟩ := forwardRequest_transparent hw₁ h₁
    obtain ⟨framing₂, head₂, hf₂, hh₂, htr₂⟩ := forwardRequest_transparent hw₂ h₂
    obtain rfl : framing = framing₂ := Except.ok.inj (hf₁.symm.trans hf₂)
    have hsame : head₁ = head₂ := by
      unfold requestHeadForRelay at hh₁ hh₂
      rw [hhead] at hh₁
      exact Except.ok.inj (hh₁.symm.trans hh₂)
    subst hsame
    exact htr₁.alike htr₂ hstream
  · intro upstream₁ upstream₁' upstream₂ upstream₂' client₁ client₁' client₂ client₂' request response headBuffer₁
      headBuffer₂ max₁ max₂ capture₁ capture₂ hw₁ hw₂ h₁ h₂ hhead hstream
    obtain ⟨framing, hf₁, htr₁⟩ := forwardResponse_transparent hw₁ h₁
    obtain ⟨framing₂, hf₂, htr₂⟩ := forwardResponse_transparent hw₂ h₂
    obtain rfl : framing = framing₂ := Except.ok.inj (hf₁.symm.trans hf₂)
    rw [← hhead] at htr₂
    exact htr₁.alike htr₂ hstream

/-- A one-byte upload with or without an expectation. -/
def uploadRequest (expectation : List (HeaderName × HeaderValue)) : Request :=
  ⟨ascii "POST", ⟨none, none, some ⟨ascii "/", ascii "/"⟩, ascii "/"⟩, .http11,
    ⟨expectation ++ [(ascii "content-length", ascii "1")]⟩⟩

def plainUploadHead : Http1HeadBuffer := ⟨ascii "POST / HTTP/1.1\r\nContent-Length: 1\r\n\r\nx", 38, by decide⟩

theorem relay_transparency_upload : ∃ capture client' upstream',
    forwardRequest plainSizeParser ⟨endedReader, willingWriter⟩ willingWriter (uploadRequest []) plainUploadHead 0 =
      (.ok capture, client', upstream') ∧
    Transparent plainSizeParser (.contentLength 1) plainUploadHead.headBytes plainUploadHead.bufferedBody endedReader
      client'.reader willingWriter upstream' 0 capture := by
  have hok : (forwardRequest plainSizeParser ⟨endedReader, willingWriter⟩ willingWriter (uploadRequest [])
      plainUploadHead 0).1.isOk = true := by decide +kernel
  cases h : forwardRequest plainSizeParser ⟨endedReader, willingWriter⟩ willingWriter (uploadRequest [])
      plainUploadHead 0 with
  | mk result streams =>
    rw [h] at hok
    cases result with
    | error e => cases hok
    | ok capture =>
      obtain ⟨framing, head, hframing, hhead, htr⟩ := (relay_transparency plainSizeParser).1 _ _ _ _ _ _ _ _
        willingWriter_succeeds h
      obtain rfl : framing = .contentLength 1 :=
        Except.ok.inj (hframing.symm.trans (by decide : requestBodyFraming (uploadRequest []) = _))
      rcases hhead with ⟨-, rfl⟩ | ⟨hexpect, -⟩
      · exact ⟨capture, streams.1, streams.2, rfl, htr⟩
      · exact absurd hexpect (by decide)

def expectUploadHead : Http1HeadBuffer :=
  ⟨ascii "POST / HTTP/1.1\r\nExpect: 100-continue\r\nContent-Length: 1\r\n\r\nx", 60, by decide⟩

/-- An upload that expects `100 Continue` does not reach the peer under its own head bytes. -/
theorem expected_upload_head_rewritten :
    (forwardRequest plainSizeParser ⟨endedReader, willingWriter⟩ willingWriter
      (uploadRequest [(ascii "expect", ascii "100-continue")]) expectUploadHead 16).1.isOk = true ∧
    (forwardRequest plainSizeParser ⟨endedReader, willingWriter⟩ willingWriter
      (uploadRequest [(ascii "expect", ascii "100-continue")]) expectUploadHead 16).2.2.accepted ≠
        expectUploadHead.headBytes ++ ascii "x" := by
  decide +kernel

end Abyss.Mitm.Relay
