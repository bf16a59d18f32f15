import Abyss.Mitm.Relay.Body
import Abyss.Stream.Decoder

/-! Separation of reading and writing in the body relay. The reads, the capture
and the verdict of a body are fixed by its source alone; the writer only decides
how much of the planned pieces it accepts. -/
namespace Abyss.Mitm.Relay
open Abyss.Stream Abyss.Mitm.Http

abbrev BodyPlan := Plan UInt8 BodyCapture TransparentFlowError ErrorKind

/-- Progress of a body of declared length. -/
structure LengthState where
  body : Bytes
  captureBody : Bool
  remaining : Nat

def contentLengthDecoder (length maxBodyBytes : Nat) (direction : BodyDirection) :
    Decoder UInt8 LengthState BodyCapture TransparentFlowError where
  cap s := min s.remaining relayChunkBytes
  feed s bytes :=
    let captured := appendBodyForCapture s.body s.captureBody bytes maxBodyBytes
    match checkedSub s.remaining bytes.length with
    | .error e => .stop (.fail e)
    | .ok 0 =>
      match usizeToU64 length with
      | .error e => .stop (.fail e)
      | .ok forwardedBytes =>
        .stop (.done ⟨capturedBody captured.1 captured.2 maxBodyBytes, forwardedBytes, none⟩)
    | .ok (left + 1) => .more ⟨captured.1, captured.2, left + 1⟩
  atEnd _ := .error (bodyError direction (.invalidBody "content-length body ended early"))

def chunkedDecoder (parser : ChunkSizeParser) (maxBodyBytes : Nat) (direction : BodyDirection) :
    Decoder UInt8 ChunkedBodyCapture BodyCapture TransparentFlowError where
  cap _ := relayChunkBytes
  feed c bytes :=
    match c.feed parser bytes maxBodyBytes with
    | .error e => .stop (.fail e)
    | .ok (some capture, _) => .stop (.done capture)
    | .ok (none, next) => .more next
  atEnd _ := .error (bodyError direction (.invalidBody "chunked body ended early"))

/-- Progress of a body that ends with its stream. -/
structure EofState where
  body : Bytes
  captureBody : Bool
  forwardedBytes : Nat

def untilEofDecoder (maxBodyBytes : Nat) : Decoder UInt8 EofState BodyCapture TransparentFlowError where
  cap _ := relayChunkBytes
  feed s bytes :=
    let captured := appendBodyForCapture s.body s.captureBody bytes maxBodyBytes
    match usizeToU64 bytes.length >>= addLen s.forwardedBytes with
    | .error e => .stop (.spoil e)
    | .ok forwardedBytes => .more ⟨captured.1, captured.2, forwardedBytes⟩
  atEnd s := .ok ⟨capturedBody s.body s.captureBody maxBodyBytes, s.forwardedBytes, none⟩

/-- The reads and the verdict of one body. -/
def bodyPlan (parser : ChunkSizeParser) (reader : Reader) (framing : BodyFraming) (bufferedBody : Bytes)
    (maxBodyBytes : Nat) (direction : BodyDirection) : BodyPlan :=
  match framing with
  | .empty =>
    if bufferedBody = [] then ⟨[], .decided [] (.done ⟨CapturedBody.fromBytes [], 0, none⟩), reader⟩
    else ⟨[], .decided bufferedBody (.fail (pipelinedError direction)), reader⟩
  | .contentLength length =>
    if length < bufferedBody.length then ⟨[], .decided bufferedBody (.fail (pipelinedError direction)), reader⟩
    else if length = 0 then ⟨[], .decided [] (.done ⟨capturedBody [] true maxBodyBytes, 0, none⟩), reader⟩
    else (contentLengthDecoder length maxBodyBytes direction).planOn ⟨[], true, length⟩ bufferedBody reader
  | .chunked =>
    (chunkedDecoder parser maxBodyBytes direction).planOn (ChunkedBodyCapture.new direction) bufferedBody reader
  | .untilEof =>
    if u64Bound ≤ bufferedBody.length then ⟨[], .decided bufferedBody (.fail .byteCountOverflow), reader⟩
    else (untilEofDecoder maxBodyBytes).planOn ⟨[], true, 0⟩ bufferedBody reader

/-- The final step on the writer: an empty body is flushed, any other one ends with its last piece. -/
def lastStep (framing : BodyFraming) (direction : BodyDirection) (capture : BodyCapture) (writer : Writer)
    (last : Bytes) : Except TransparentFlowError BodyCapture × Writer :=
  match framing with
  | .empty =>
    match writer.flush with
    | (none, writer) => (.ok capture, writer)
    | (some source, writer) => (capture.failLast direction source, writer)
  | _ => capture.forwardLastBytes writer last direction

def replayVerdict (framing : BodyFraming) (direction : BodyDirection) (writer : Writer) :
    Verdict UInt8 BodyCapture TransparentFlowError ErrorKind → Except TransparentFlowError BodyCapture × Writer
  | .decided last (.done capture) => lastStep framing direction capture writer last
  | .decided _ (.fail e) => (.error e, writer)
  | .decided piece (.spoil e) =>
    match writeAllFor (bodyForwardOperation direction) writer piece with
    | (.error e', writer) => (.error e', writer)
    | (.ok (), writer) => (.error e, writer)
  | .ended result => (result, writer)
  | .broken source => (.error (.io (bodyReadOperation direction) source), writer)

/-- A writer meets a plan. -/
def replay (framing : BodyFraming) (direction : BodyDirection) (writer : Writer) (plan : BodyPlan) :
    Except TransparentFlowError BodyCapture × Writer :=
  match writer.writeEach .writeZero plan.earlier with
  | (some source, writer) => (.error (.io (bodyForwardOperation direction) source), writer)
  | (none, writer) => replayVerdict framing direction writer plan.verdict

/-- A copy follows a plan: same result and writer, and, once the earlier pieces are accepted, the
source behind the plan. -/
def Follows (framing : BodyFraming) (direction : BodyDirection) (writer : Writer) (copied : Copied BodyCapture)
    (plan : BodyPlan) : Prop :=
  copied.1 = (replay framing direction writer plan).1 ∧ copied.2.2 = (replay framing direction writer plan).2 ∧
  ∀ writer', writer.writeEach .writeZero plan.earlier = (none, writer') → copied.2.1 = plan.rest

section Following
variable {framing : BodyFraming} {direction : BodyDirection}

theorem follows_stop {writer : Writer} {reader : Reader} {verdict : Verdict UInt8 BodyCapture TransparentFlowError ErrorKind}
    {result : Except TransparentFlowError BodyCapture} {writer' : Writer}
    (h : replayVerdict framing direction writer verdict = (result, writer')) :
    Follows framing direction writer (result, reader, writer') ⟨[], verdict, reader⟩ := by
  have hreplay : replay framing direction writer ⟨[], verdict, reader⟩ = (result, writer') := by
    simp [replay, Sink.writeEach, h]
  exact ⟨by rw [hreplay], by rw [hreplay], fun _ _ => rfl⟩

/-- Passing one more piece on first. -/
theorem Follows.after {writer writer' : Writer} {copied : Copied BodyCapture} {plan : BodyPlan} {piece : Bytes}
    (hw : writer.writeAll .writeZero piece = (none, writer'))
    (h : Follows framing direction writer' copied plan) :
    Follows framing direction writer copied (plan.after piece) := by
  have heach : writer.writeEach .writeZero (plan.after piece).earlier =
      writer'.writeEach .writeZero plan.earlier := by
    simp [Plan.after, Sink.writeEach, hw]
  unfold Follows replay
  rw [heach]
  exact h

theorem follows_refused {writer writer' : Writer} {reader : Reader} {plan : BodyPlan} {piece : Bytes}
    {source : ErrorKind} (hw : writer.writeAll .writeZero piece = (some source, writer')) :
    Follows framing direction writer (.error (.io (bodyForwardOperation direction) source), reader, writer')
      (plan.after piece) := by
  have heach : writer.writeEach .writeZero (plan.after piece).earlier = (some source, writer') := by
    simp [Plan.after, Sink.writeEach, hw]
  unfold Follows replay
  rw [heach]
  exact ⟨rfl, rfl, fun _ hn => by cases hn⟩

theorem writeAllFor_ok {operation : FlowOperation} {writer writer' : Writer} {bytes : Bytes} :
    writeAllFor operation writer bytes = (.ok (), writer') ↔
      writer.writeAll .writeZero bytes = (none, writer') := by
  unfold writeAllFor
  split <;> simp_all

theorem writeAllFor_error {operation : FlowOperation} {writer writer' : Writer} {bytes : Bytes}
    {e : TransparentFlowError} (h : writeAllFor operation writer bytes = (.error e, writer')) :
    ∃ source, e = .io operation source ∧ writer.writeAll .writeZero bytes = (some source, writer') := by
  unfold writeAllFor at h
  split at h
  · simp at h
  · next source w hw =>
    simp only [Prod.mk.injEq, Except.error.injEq] at h
    obtain ⟨rfl, rfl⟩ := h
    exact ⟨source, rfl, hw⟩

theorem untilEofLoop_follows (maxBodyBytes : Nat) (body : Bytes) (captureBody : Bool) (forwardedBytes : Nat)
    (reader : Reader) (writer : Writer) :
    Follows .untilEof direction writer
      (untilEofLoop maxBodyBytes direction body captureBody forwardedBytes reader writer)
      ((untilEofDecoder maxBodyBytes).plan ⟨body, captureBody, forwardedBytes⟩ reader) := by
  fun_induction untilEofLoop maxBodyBytes direction body captureBody forwardedBytes reader writer with
  | case1 body captureBody forwardedBytes reader writer source reader' hr =>
    rw [Decoder.plan_broken hr]
    exact follows_stop rfl
  | case2 body captureBody forwardedBytes reader writer reader' hr =>
    rw [Decoder.plan_ended hr]
    exact follows_stop rfl
  | case3 body captureBody forwardedBytes reader writer b bs reader' hr e writer' hw =>
    rw [Decoder.plan_read hr]
    obtain ⟨source, rfl, hw'⟩ := writeAllFor_error hw
    cases hf : (untilEofDecoder maxBodyBytes).feed ⟨body, captureBody, forwardedBytes⟩ (b :: bs) with
    | stop decision =>
      rw [Decoder.planFrom_stop hf]
      simp only [untilEofDecoder] at hf
      split at hf <;> cases hf
      exact follows_stop (by simp only [replayVerdict, hw])
    | more next =>
      rw [Decoder.planFrom_more hf]
      exact follows_refused hw'
  | case4 body captureBody forwardedBytes reader writer b bs reader' hr writer' hw e hlen =>
    have hf : (untilEofDecoder maxBodyBytes).feed ⟨body, captureBody, forwardedBytes⟩ (b :: bs) =
        .stop (.spoil e) := by simp only [untilEofDecoder, hlen]
    rw [Decoder.plan_read hr, Decoder.planFrom_stop hf]
    exact follows_stop (by simp only [replayVerdict, hw])
  | case5 body captureBody forwardedBytes reader writer b bs reader' hr writer' hw forwarded hlen captured ih =>
    have hf : (untilEofDecoder maxBodyBytes).feed ⟨body, captureBody, forwardedBytes⟩ (b :: bs) =
        .more ⟨captured.1, captured.2, forwarded⟩ := by simp only [untilEofDecoder, hlen, captured]
    rw [Decoder.plan_read hr, Decoder.planFrom_more hf]
    exact ih.after (writeAllFor_ok.mp hw)

/-- A read that ends the copy of a chunked body does so as the decoder plans it. -/
theorem chunkedRead_stop {parser : ChunkSizeParser} {maxBodyBytes : Nat} {c : ChunkedBodyCapture} {bytes : Bytes}
    {writer writer' : Writer} {result : Except TransparentFlowError BodyCapture}
    (h : chunkedRead parser maxBodyBytes direction c bytes writer = (.inl result, writer')) (reader : Reader) :
    Follows .chunked direction writer (result, reader, writer')
      ((chunkedDecoder parser maxBodyBytes direction).planFrom c bytes reader) := by
  unfold chunkedRead at h
  split at h
  · next e hf =>
    have hfeed : (chunkedDecoder parser maxBodyBytes direction).feed c bytes = .stop (.fail e) := by
      simp only [chunkedDecoder, hf]
    obtain ⟨rfl, rfl⟩ := (by simpa using h : _ = result ∧ _ = writer')
    rw [Decoder.planFrom_stop hfeed]
    exact follows_stop rfl
  · next capture _ hf =>
    have hfeed : (chunkedDecoder parser maxBodyBytes direction).feed c bytes = .stop (.done capture) := by
      simp only [chunkedDecoder, hf]
    obtain ⟨rfl, rfl⟩ := (by simpa using h : _ = result ∧ _ = writer')
    rw [Decoder.planFrom_stop hfeed]
    exact follows_stop rfl
  · next next hf =>
    have hfeed : (chunkedDecoder parser maxBodyBytes direction).feed c bytes = .more next := by
      simp only [chunkedDecoder, hf]
    split at h
    · next e w hw =>
      obtain ⟨source, rfl, hw'⟩ := writeAllFor_error hw
      obtain ⟨rfl, rfl⟩ := (by simpa using h : _ = result ∧ _ = writer')
      rw [Decoder.planFrom_more hfeed]
      exact follows_refused hw'
    · simp at h

theorem chunkedRead_more {parser : ChunkSizeParser} {maxBodyBytes : Nat} {c next : ChunkedBodyCapture} {bytes : Bytes}
    {writer writer' : Writer} (h : chunkedRead parser maxBodyBytes direction c bytes writer = (.inr next, writer')) :
    (chunkedDecoder parser maxBodyBytes direction).feed c bytes = .more next ∧
      writer.writeAll .writeZero bytes = (none, writer') := by
  unfold chunkedRead at h
  split at h
  · simp at h
  · simp at h
  · next next' hf =>
    split at h
    · simp at h
    · next w hw =>
      obtain ⟨rfl, rfl⟩ := (by simpa using h : next' = next ∧ w = writer')
      exact ⟨by simp only [chunkedDecoder, hf], writeAllFor_ok.mp hw⟩

theorem chunkedLoop_follows (parser : ChunkSizeParser) (maxBodyBytes : Nat) (c : ChunkedBodyCapture)
    (reader : Reader) (writer : Writer) :
    Follows .chunked direction writer (chunkedLoop parser maxBodyBytes direction c reader writer)
      ((chunkedDecoder parser maxBodyBytes direction).plan c reader) := by
  fun_induction chunkedLoop parser maxBodyBytes direction c reader writer with
  | case1 c reader writer source reader' hr =>
    rw [Decoder.plan_broken hr]
    exact follows_stop rfl
  | case2 c reader writer reader' hr =>
    rw [Decoder.plan_ended hr]
    exact follows_stop rfl
  | case3 c reader writer b bs reader' hr result writer' hread =>
    rw [Decoder.plan_read hr]
    exact chunkedRead_stop hread reader'
  | case4 c reader writer b bs reader' hr next writer' hread ih =>
    obtain ⟨hf, hw⟩ := chunkedRead_more hread
    rw [Decoder.plan_read hr, Decoder.planFrom_more hf]
    exact ih.after hw

theorem forwardChunkedBody_follows (parser : ChunkSizeParser) (reader : Reader) (writer : Writer)
    (bufferedBody : Bytes) (maxBodyBytes : Nat) :
    Follows .chunked direction writer
      (forwardChunkedBody parser reader writer bufferedBody maxBodyBytes direction)
      (bodyPlan parser reader .chunked bufferedBody maxBodyBytes direction) := by
  unfold forwardChunkedBody bodyPlan Decoder.planOn
  by_cases hnil : bufferedBody = []
  · simp only [hnil, if_true]
    exact chunkedLoop_follows parser maxBodyBytes _ reader writer
  · simp only [hnil, if_false]
    split
    · next result writer' hread => exact chunkedRead_stop hread reader
    · next next writer' hread =>
      obtain ⟨hf, hw⟩ := chunkedRead_more hread
      rw [Decoder.planFrom_more hf]
      exact (chunkedLoop_follows parser maxBodyBytes next reader writer').after hw

theorem forwardUntilEofBody_follows (parser : ChunkSizeParser) (reader : Reader) (writer : Writer)
    (bufferedBody : Bytes) (maxBodyBytes : Nat) :
    Follows .untilEof direction writer
      (forwardUntilEofBody reader writer bufferedBody maxBodyBytes direction)
      (bodyPlan parser reader .untilEof bufferedBody maxBodyBytes direction) := by
  unfold forwardUntilEofBody bodyPlan Decoder.planOn
  by_cases hover : u64Bound ≤ bufferedBody.length
  · simp only [usizeToU64, if_neg (Nat.not_lt.mpr hover), if_pos hover]
    exact follows_stop rfl
  · have hlt : bufferedBody.length < u64Bound := Nat.lt_of_not_le hover
    have hadd : addLen 0 bufferedBody.length = .ok bufferedBody.length := by
      rw [addLen_of_lt (by omega), Nat.zero_add]
    simp only [usizeToU64_of_lt hlt, if_neg hover]
    by_cases hnil : bufferedBody = []
    · subst hnil
      simp only [writeAllFor, Sink.writeAll_nil, if_true]
      exact untilEofLoop_follows maxBodyBytes [] true 0 reader writer
    · have hf : (untilEofDecoder maxBodyBytes).feed ⟨[], true, 0⟩ bufferedBody = .more
          ⟨(appendBodyForCapture [] true bufferedBody maxBodyBytes).1,
            (appendBodyForCapture [] true bufferedBody maxBodyBytes).2, bufferedBody.length⟩ := by
        simp only [untilEofDecoder, usizeToU64_of_lt hlt, bind, Except.bind, hadd]
      rw [if_neg hnil, Decoder.planFrom_more hf]
      split
      · next e writer' hw =>
        obtain ⟨source, rfl, hw'⟩ := writeAllFor_error hw
        exact follows_refused hw'
      · next writer' hw =>
        exact (untilEofLoop_follows maxBodyBytes _ _ _ reader writer').after (writeAllFor_ok.mp hw)

/-- The loop for a declared length follows the plan behind the bytes it is entered with. -/
theorem contentLengthLoop_follows (length maxBodyBytes : Nat) (reader : Reader) (writer : Writer) (body : Bytes)
    (captureBody : Bool) (remaining : Nat) (bytes : Bytes) :
    Follows (.contentLength length) direction writer
      (contentLengthLoop length maxBodyBytes direction reader writer body captureBody remaining bytes)
      ((contentLengthDecoder length maxBodyBytes direction).planFrom ⟨body, captureBody, remaining⟩ bytes reader) := by
  fun_induction contentLengthLoop length maxBodyBytes direction reader writer body captureBody remaining bytes with
  | case1 reader writer body captureBody remaining bytes e hsub =>
    rw [Decoder.planFrom_stop (by simp only [contentLengthDecoder, hsub]; rfl)]
    exact follows_stop rfl
  | case2 reader writer body captureBody remaining bytes hsub e hlen =>
    rw [Decoder.planFrom_stop (by simp only [contentLengthDecoder, hsub, hlen]; rfl)]
    exact follows_stop rfl
  | case3 reader writer body captureBody remaining bytes captured hsub forwarded hlen capture result writer' hlast =>
    rw [Decoder.planFrom_stop (by simp only [contentLengthDecoder, hsub, hlen]; rfl)]
    exact follows_stop hlast
  | case4 reader writer body captureBody remaining bytes left hsub e writer' hw =>
    obtain ⟨source, rfl, hw'⟩ := writeAllFor_error hw
    rw [Decoder.planFrom_more (by simp only [contentLengthDecoder, hsub]; rfl)]
    exact follows_refused hw'
  | case5 reader writer body captureBody remaining bytes left hsub writer' hw source reader' hr =>
    rw [Decoder.planFrom_more (by simp only [contentLengthDecoder, hsub]; rfl)]
    refine Follows.after (writeAllFor_ok.mp hw) ?_
    rw [Decoder.plan_broken hr]
    exact follows_stop rfl
  | case6 reader writer body captureBody remaining bytes left hsub writer' hw reader' hr =>
    rw [Decoder.planFrom_more (by simp only [contentLengthDecoder, hsub]; rfl)]
    refine Follows.after (writeAllFor_ok.mp hw) ?_
    rw [Decoder.plan_ended hr]
    exact follows_stop rfl
  | case7 reader writer body captureBody remaining bytes captured left hsub writer' hw b bs reader' hr ih =>
    rw [Decoder.planFrom_more (by simp only [contentLengthDecoder, hsub]; rfl)]
    refine Follows.after (writeAllFor_ok.mp hw) ?_
    rw [Decoder.plan_read hr]
    exact ih

private theorem follows_after_nil {writer : Writer} {copied : Copied BodyCapture} {plan : BodyPlan}
    (h : Follows framing direction writer copied (plan.after [])) : Follows framing direction writer copied plan := by
  have heach : writer.writeEach .writeZero (plan.after []).earlier = writer.writeEach .writeZero plan.earlier := by
    simp [Plan.after, Sink.writeEach]
  unfold Follows replay at h
  rw [heach] at h
  exact h

private theorem append_nothing (body : Bytes) (maxBodyBytes : Nat) (h : body.length ≤ maxBodyBytes)
    (hlt : body.length < u64Bound) : appendBodyForCapture body true [] maxBodyBytes = (body, true) := by
  simp [appendBodyForCapture, Nat.not_le.mpr hlt, Nat.not_lt.mpr h]

theorem forwardContentLengthBody_follows (parser : ChunkSizeParser) (reader : Reader) (writer : Writer)
    (bufferedBody : Bytes) (length maxBodyBytes : Nat) :
    Follows (.contentLength length) direction writer
      (forwardContentLengthBody reader writer bufferedBody length maxBodyBytes direction)
      (bodyPlan parser reader (.contentLength length) bufferedBody maxBodyBytes direction) := by
  simp only [forwardContentLengthBody, bodyPlan, Decoder.planOn]
  by_cases hover : length < bufferedBody.length
  · rw [if_pos hover, if_pos hover]
    exact follows_stop rfl
  · rw [if_neg hover, if_neg hover]
    have hloop := @contentLengthLoop_follows direction length maxBodyBytes reader writer [] true
      length bufferedBody
    have hnothing := append_nothing [] maxBodyBytes (Nat.zero_le _) (by decide)
    by_cases hnil : bufferedBody = []
    · subst hnil
      rw [if_pos rfl]
      by_cases hzero : length = 0
      · subst hzero
        have hfeed : (contentLengthDecoder 0 maxBodyBytes direction).feed ⟨[], true, 0⟩ [] =
            .stop (.done ⟨capturedBody [] true maxBodyBytes, 0, none⟩) := by
          simp [contentLengthDecoder, checkedSub, usizeToU64, u64Bound, hnothing]
        rw [if_pos rfl]
        rwa [Decoder.planFrom_stop hfeed] at hloop
      · obtain ⟨m, rfl⟩ := Nat.exists_eq_succ_of_ne_zero hzero
        have hfeed : (contentLengthDecoder (m + 1) maxBodyBytes direction).feed ⟨[], true, m + 1⟩ [] =
            .more ⟨[], true, m + 1⟩ := by
          simp [contentLengthDecoder, checkedSub, hnothing]
        rw [if_neg hzero]
        rw [Nat.succ_eq_add_one, Decoder.planFrom_more hfeed] at hloop
        exact follows_after_nil hloop
    · have hpos := List.length_pos_of_ne_nil hnil
      rw [if_neg hnil, if_neg (by omega)]
      exact hloop

/-- Forwarding a body is its plan replayed on the writer. -/
theorem forwardBody_follows (parser : ChunkSizeParser) (reader : Reader) (writer : Writer) (framing : BodyFraming)
    (bufferedBody : Bytes) (maxBodyBytes : Nat) (direction : BodyDirection) :
    Follows framing direction writer
      (forwardBody parser reader writer framing bufferedBody maxBodyBytes direction)
      (bodyPlan parser reader framing bufferedBody maxBodyBytes direction) := by
  cases framing with
  | empty =>
    simp only [forwardBody, bodyPlan, forwardEmptyBody]
    by_cases hnil : bufferedBody = []
    · simp only [hnil, ne_eq, not_true_eq_false, if_false, if_true]
      exact follows_stop rfl
    · simp only [hnil, ne_eq, not_false_eq_true, if_false, if_true]
      exact follows_stop rfl
  | contentLength length => exact forwardContentLengthBody_follows parser reader writer bufferedBody length maxBodyBytes
  | chunked => exact forwardChunkedBody_follows parser reader writer bufferedBody maxBodyBytes
  | untilEof => exact forwardUntilEofBody_follows parser reader writer bufferedBody maxBodyBytes

end Following
end Abyss.Mitm.Relay
