import Abyss.Mitm.Relay.Wire

/-! How forwarding a body ends. It succeeds exactly when the reads complete one
body and the peer takes every piece before the final one; the final attempt is
reported with the number of bytes the peer really accepted. -/
namespace Abyss.Mitm.Relay
open Abyss.Stream Abyss.Mitm.Http

/-- The final attempt on the writer: a flush for an empty body, else the last piece. -/
def finalWrite (framing : BodyFraming) (writer : Writer) (last : Bytes) : Option ErrorKind × Writer :=
  match framing with
  | .empty => writer.flush
  | _ => writer.writeAll .writeZero last

/-- A capture whose count is what was accepted before and during the final attempt. -/
def counted (capture : BodyCapture) (before : Nat) (writer writer' : Writer) : BodyCapture :=
  { capture with forwardedBytes := before + (writer'.accepted.length - writer.accepted.length) }

/-- The final attempt reaches a front part of the last piece, all of it where it succeeds. -/
theorem finalWrite_accepted (framing : BodyFraming) (writer : Writer) (last : Bytes)
    (hempty : framing = .empty → last = []) :
    ∃ done left, last = done ++ left ∧ (finalWrite framing writer last).2.accepted = writer.accepted ++ done ∧
      ((finalWrite framing writer last).1 = none → left = []) := by
  cases framing with
  | empty =>
    obtain rfl := hempty rfl
    exact ⟨[], [], rfl, by simpa [finalWrite] using Sink.flush_accepted writer, fun _ => rfl⟩
  | contentLength length =>
    obtain ⟨done, left, hs, ha, hn⟩ := Sink.writeAll_accepted .writeZero writer last
    exact ⟨done, left, hs, ha, hn.mp⟩
  | chunked =>
    obtain ⟨done, left, hs, ha, hn⟩ := Sink.writeAll_accepted .writeZero writer last
    exact ⟨done, left, hs, ha, hn.mp⟩
  | untilEof =>
    obtain ⟨done, left, hs, ha, hn⟩ := Sink.writeAll_accepted .writeZero writer last
    exact ⟨done, left, hs, ha, hn.mp⟩

/-- A peer whose writes succeed takes the whole final piece. -/
theorem finalWrite_succeeds {framing : BodyFraming} {writer : Writer} {last : Bytes} (hw : writer.WritesSucceed)
    (hempty : framing = .empty → last = []) :
    (finalWrite framing writer last).2.accepted = writer.accepted ++ last := by
  obtain ⟨writer', hall, -⟩ := hw.writeAll .writeZero last
  cases framing with
  | empty =>
    obtain rfl := hempty rfl
    rw [List.append_nil]
    exact writer.flush_accepted
  | contentLength length => simpa [finalWrite, hall] using Sink.writeAll_none hall
  | chunked => simpa [finalWrite, hall] using Sink.writeAll_none hall
  | untilEof => simpa [finalWrite, hall] using Sink.writeAll_none hall

theorem writeAll_accepted_le (writer : Writer) (bytes : Bytes) :
    writer.accepted.length ≤ (writer.writeAll .writeZero bytes).2.accepted.length := by
  obtain ⟨done, left, -, hacc, -⟩ := Sink.writeAll_accepted .writeZero writer bytes
  rw [hacc, List.length_append]
  omega

namespace BodyCapture

/-- The result of a final attempt for a direction. -/
def afterAttempt (capture : BodyCapture) (direction : BodyDirection) : Option ErrorKind →
    Except TransparentFlowError BodyCapture
  | none => .ok capture
  | some source => capture.failLast direction source

theorem lastWrites_eq (capture : BodyCapture) (writer : Writer) (bytes : Bytes) (direction : BodyDirection)
    (hlen : capture.forwardedBytes + bytes.length < u64Bound) :
    capture.lastWrites writer bytes direction =
      ((counted capture capture.forwardedBytes writer (writer.writeAll .writeZero bytes).2).afterAttempt direction
        (writer.writeAll .writeZero bytes).1, (writer.writeAll .writeZero bytes).2) := by
  fun_induction lastWrites capture writer bytes direction with
  | case1 capture writer => simp [counted, afterAttempt]
  | case2 capture writer bytes hne source writer' hw =>
    rw [Sink.writeAll_of_error hne hw]
    simp [counted, afterAttempt, Sink.write_error hw]
  | case3 capture writer bytes hne writer' hw =>
    rw [Sink.writeAll_of_zero hne hw]
    simp [counted, afterAttempt, (Sink.write_ok hw).2]
  | case4 capture writer bytes hne written writer' hw hn e hadd =>
    have hle := (Sink.write_ok hw).1
    rw [usizeToU64_of_lt (by omega)] at hadd
    simp only [bind, Except.bind] at hadd
    rw [addLen_of_lt (by omega)] at hadd
    cases hadd
  | case5 capture writer bytes hne written writer' hw hn forwarded hadd ih =>
    obtain ⟨hle, hacc⟩ := Sink.write_ok hw
    rw [usizeToU64_of_lt (by omega)] at hadd
    simp only [bind, Except.bind] at hadd
    rw [addLen_of_lt (by omega)] at hadd
    cases hadd
    rw [Sink.writeAll_of_ok hne hw hn, ih (by rw [List.length_drop]; show _ + written + _ < _; omega)]
    have hmono := writeAll_accepted_le writer' (bytes.drop written)
    have htake : writer'.accepted.length = writer.accepted.length + written := by
      rw [hacc, List.length_append, List.length_take_of_le hle]
    simp only [counted]
    congr 3
    omega

/-- The count is lowered by the last piece first, which never underflows, and then follows what the
writer accepts. -/
theorem forwardLastBytes_eq (capture : BodyCapture) (writer : Writer) (bytes : Bytes) (direction : BodyDirection)
    {before : Nat} (hcount : capture.forwardedBytes = before + bytes.length)
    (hlen : capture.forwardedBytes < u64Bound) :
    capture.forwardLastBytes writer bytes direction =
      ((counted capture before writer (writer.writeAll .writeZero bytes).2).afterAttempt direction
        (writer.writeAll .writeZero bytes).1, (writer.writeAll .writeZero bytes).2) := by
  have hsub : (usizeToU64 bytes.length >>= checkedSub capture.forwardedBytes) = .ok before := by
    rw [usizeToU64_of_lt (by omega)]
    simp only [bind, Except.bind]
    rw [checkedSub_of_le (by omega), hcount, Nat.add_sub_cancel]
  simp only [forwardLastBytes, hsub]
  rw [lastWrites_eq _ writer bytes direction (by show before + _ < _; omega)]
  rfl

end BodyCapture

theorem lastStep_eq (framing : BodyFraming) (direction : BodyDirection) (capture : BodyCapture) (writer : Writer)
    (last : Bytes) {before : Nat} (hcount : capture.forwardedBytes = before + last.length)
    (hlen : capture.forwardedBytes < u64Bound) (hempty : framing = .empty → last = []) :
    lastStep framing direction capture writer last =
      ((counted capture before writer (finalWrite framing writer last).2).afterAttempt direction
        (finalWrite framing writer last).1, (finalWrite framing writer last).2) := by
  cases framing with
  | empty =>
    obtain rfl := hempty rfl
    have hbefore : capture.forwardedBytes = before := hcount
    have hcap : counted capture before writer writer.flush.2 = capture := by
      simp [counted, Sink.flush_accepted, ← hbefore]
    simp only [lastStep, finalWrite, hcap]
    split <;> simp_all [BodyCapture.afterAttempt]
  | contentLength length => exact capture.forwardLastBytes_eq writer last direction hcount hlen
  | chunked => exact capture.forwardLastBytes_eq writer last direction hcount hlen
  | untilEof => exact capture.forwardLastBytes_eq writer last direction hcount hlen

section Completion
variable {parser : ChunkSizeParser} {framing : BodyFraming} {bufferedBody : Bytes} {reader : Reader}

/-- The pieces of a completed body are its wire bytes, at the front of the stream. -/
theorem Completes.wire {earlier : List Bytes} {last payload : Bytes} {reader' : Reader}
    (h : Completes parser framing bufferedBody reader earlier last payload reader') :
    WireBody parser framing (earlier.flatten ++ last) payload ∧
    bufferedBody ++ reader.contents = earlier.flatten ++ last ++ reader'.contents ∧
    reader'.ending = reader.ending := by
  obtain ⟨reads, hreads, hcut, hbody, -⟩ := h
  have hflat : earlier.flatten ++ last = bufferedBody ++ reads.flatten := by
    rw [cut_flatten hcut, Decoder.pieces_flatten]
  obtain ⟨hcontents, hending⟩ := hreads.contents
  rw [hflat, hcontents, List.append_assoc]
  exact ⟨hbody, rfl, hending⟩

/-- The reads of a stream complete at most one body, in one way. -/
theorem Completes.unique {earlier earlier' : List Bytes} {last last' payload payload' : Bytes}
    {reader₁ reader₂ : Reader} (h : Completes parser framing bufferedBody reader earlier last payload reader₁)
    (h' : Completes parser framing bufferedBody reader earlier' last' payload' reader₂) :
    earlier = earlier' ∧ last = last' ∧ payload = payload' ∧ reader₁ = reader₂ := by
  obtain ⟨reads, hreads, hcut, hbody, hend⟩ := h
  obtain ⟨reads', hreads', hcut', hbody', hend'⟩ := h'
  obtain ⟨hc, -⟩ := hreads.contents
  obtain ⟨hc', -⟩ := hreads'.contents
  have hwire : bufferedBody ++ reads.flatten = bufferedBody ++ reads'.flatten ∧ payload = payload' := by
    by_cases hf : framing = .untilEof
    · rw [(hend hf).1, List.append_nil] at hc
      rw [(hend' hf).1, List.append_nil] at hc'
      subst hf
      obtain rfl : payload = _ := hbody
      obtain rfl : payload' = _ := hbody'
      rw [← hc, ← hc']
      exact ⟨rfl, rfl⟩
    · refine hbody.unique hf hbody' (t := bufferedBody ++ reader.contents) ?_ ?_
      · rw [hc, ← List.append_assoc]
        exact List.prefix_append ..
      · rw [hc', ← List.append_assoc]
        exact List.prefix_append ..
  obtain ⟨rfl, rfl⟩ := hreads.unique hreads' (List.append_cancel_left hwire.1)
  rw [← hcut', Prod.mk.injEq] at hcut
  exact ⟨hcut.1, hcut.2, hwire.2, rfl⟩

/-- A body that ends with its stream is the whole stream. -/
theorem Completes.untilEof_wire {earlier : List Bytes} {last payload : Bytes} {reader' : Reader}
    (h : Completes parser framing bufferedBody reader earlier last payload reader') (hf : framing = .untilEof) :
    bufferedBody ++ reader.contents = earlier.flatten ++ last := by
  have hstream := h.wire.2.1
  obtain ⟨_, _, _, _, hend⟩ := h
  rwa [(hend hf).1, List.append_nil] at hstream

/-- A completed body is not withheld while its bytes can be counted. -/
private theorem Completes.not_withheld {earlier : List Bytes} {last payload piece : Bytes} {reader' rest : Reader}
    {before : List Bytes} {direction : BodyDirection} {e : TransparentFlowError}
    (h : Completes parser framing bufferedBody reader earlier last payload reader')
    (hlen : (earlier.flatten ++ last).length < u64Bound)
    (hopen : Unfinished parser framing before.flatten ∨ before = [] ∧ piece = bufferedBody ∧ bufferedBody ≠ [])
    (hreads : ∃ reads, Source.Reads (readCap framing) bufferedBody.length reader reads rest ∧
      Decoder.pieces bufferedBody reads = before ++ [piece])
    (hw : Withheld parser framing direction (before.flatten ++ piece) e) : False := by
  obtain ⟨reads, hr, hcutting, hbody, -⟩ := h
  rw [cut_flatten hcutting, Decoder.pieces_flatten] at hlen
  obtain ⟨reads', hr', hpieces'⟩ := hreads
  obtain ⟨hc, -⟩ := hr.contents
  obtain ⟨hc', -⟩ := hr'.contents
  have hseen : before.flatten ++ piece = bufferedBody ++ reads'.flatten := by
    rw [← Decoder.pieces_flatten, hpieces']
    simp
  have hstream : bufferedBody ++ reader.contents = before.flatten ++ piece ++ rest.contents := by
    rw [hc', hseen, List.append_assoc]
  have hfront : bufferedBody ++ reads.flatten <+: before.flatten ++ piece ++ rest.contents := by
    rw [← hstream, hc, ← List.append_assoc]
    exact List.prefix_append ..
  have hlong : u64Bound ≤ (before.flatten ++ piece).length ∨
      (bufferedBody ++ reads.flatten).length < (before.flatten ++ piece).length := by
    rcases hw with ⟨-, hover⟩ | hw
    · exact .inl hover
    · exact .inr (hw rest.contents _ _ hbody hfront).1
  have hshort : (bufferedBody ++ reads.flatten).length < (before.flatten ++ piece).length := by omega
  rcases hr.comparable hr' with hle | hle
  · obtain ⟨more, rfl⟩ := hle
    have hmore : more ≠ [] := by
      rintro rfl
      rw [hseen, List.append_nil] at hshort
      exact Nat.lt_irrefl _ hshort
    have hcut : Decoder.pieces bufferedBody reads <+: before := by
      rw [← pieces_append, ← List.append_assoc, pieces_append,
        ← List.dropLast_append_getLast hmore, ← List.append_assoc] at hpieces'
      rw [← (List.append_inj' hpieces' rfl).1]
      exact List.prefix_append ..
    rcases hopen with hopen | ⟨rfl, -, hne⟩
    · obtain ⟨tail, rfl⟩ := hcut
      have := hopen [] _ _ hbody (by simp [List.append_assoc])
      rw [List.flatten_append, Decoder.pieces_flatten, List.length_append] at this
      omega
    · rw [List.prefix_nil, Decoder.pieces, if_neg hne] at hcut
      cases hcut
  · obtain ⟨more, rfl⟩ := hle
    rw [hseen, List.flatten_append, List.length_append, List.length_append, List.length_append] at hshort
    omega

/-- A stream that holds exactly one body completes it, whatever the boundaries of its reads. -/
theorem completes_of_wire {wire payload : Bytes} (hbody : WireBody parser framing wire payload)
    (hstream : bufferedBody ++ reader.contents = wire) (hlen : wire.length < u64Bound)
    (hend : framing = .untilEof → reader.ending = none) :
    ∃ earlier last reader', Completes parser framing bufferedBody reader earlier last payload reader' ∧
      earlier.flatten ++ last = wire := by
  have hsame : ∀ {earlier last payload' reader'},
      Completes parser framing bufferedBody reader earlier last payload' reader' →
      payload' = payload ∧ earlier.flatten ++ last = wire := by
    intro earlier last payload' reader' hcomp
    obtain ⟨hbody', hstream', -⟩ := hcomp.wire
    by_cases hf : framing = .untilEof
    · have hall := hcomp.untilEof_wire hf
      subst hf
      obtain rfl : payload' = _ := hbody'
      obtain rfl : payload = wire := hbody
      rw [← hall, hstream]
      exact ⟨rfl, rfl⟩
    · obtain ⟨hwire, hpayload⟩ := hbody'.unique hf hbody (t := wire)
        (by rw [← hstream, hstream']; exact List.prefix_append ..) (List.prefix_refl _)
      exact ⟨hpayload, hwire⟩
  -- What was seen is a front part of the stream, so no verdict but completion is left.
  have hopen : ∀ {seen : Bytes}, Unfinished parser framing seen → bufferedBody ++ reader.contents = seen → False := by
    intro seen hunf hall
    have hlt := hunf [] wire payload hbody (by rw [← hall, hstream, List.append_nil])
    rw [← hall, hstream] at hlt
    exact Nat.lt_irrefl _ hlt
  have hjudge := bodyPlan_judges parser reader framing bufferedBody 0 .response
  generalize bodyPlan parser reader framing bufferedBody 0 .response = plan at *
  obtain ⟨before, verdict, rest⟩ := plan
  cases verdict with
  | decided piece decision =>
    cases decision with
    | done capture =>
      obtain ⟨payload', hcomp, -⟩ := hjudge
      obtain ⟨rfl, hwire⟩ := hsame hcomp
      exact ⟨_, _, _, hcomp, hwire⟩
    | fail e =>
      obtain ⟨-, -, ⟨reads, hreads, hpieces⟩, hwithheld⟩ := hjudge
      have hseen : wire = before.flatten ++ piece ++ rest.contents := by
        have hflat := congrArg List.flatten hpieces
        rw [Decoder.pieces_flatten, List.flatten_append, List.flatten_singleton] at hflat
        rw [← hflat, ← hstream, hreads.contents.1, List.append_assoc]
      have hshort : (before.flatten ++ piece).length ≤ wire.length := by
        rw [hseen]
        exact (List.prefix_append ..).length_le
      have hwithheld : Withheld parser framing .response (before.flatten ++ piece) e := hwithheld
      rcases hwithheld with ⟨-, hover⟩ | hwithheld
      · omega
      · have := (hwithheld rest.contents wire payload hbody (by rw [← hseen])).1
        omega
    | spoil e =>
      obtain ⟨-, hover, hseen⟩ := hjudge
      rw [← hstream, hseen, List.length_append] at hlen
      omega
  | ended result =>
    cases result with
    | ok capture =>
      obtain ⟨-, hcomp, -⟩ := hjudge
      obtain ⟨hpayload, hwire⟩ := hsame hcomp
      rw [hpayload] at hcomp
      exact ⟨_, _, _, hcomp, hwire⟩
    | error e =>
      obtain ⟨-, hunf, hall⟩ := hjudge
      exact (hopen hunf hall).elim
  | broken source =>
    obtain ⟨hending, hall, hunf⟩ := hjudge
    by_cases hf : framing = .untilEof
    · rw [hend hf] at hending
      cases hending
    · exact (hopen (hunf hf) hall).elim

private theorem forwardLastBytes_nil (capture : BodyCapture) (writer : Writer) (direction : BodyDirection) :
    capture.forwardLastBytes writer [] direction = (.ok capture, writer) := by
  simp [BodyCapture.forwardLastBytes, usizeToU64, u64Bound, checkedSub, BodyCapture.lastWrites, bind, Except.bind]

/-- A plan that ends a body, with the final step it leads to. -/
def Concludes (parser : ChunkSizeParser) (framing : BodyFraming) (bufferedBody : Bytes) (reader : Reader)
    (maxBodyBytes : Nat) (direction : BodyDirection) (plan : BodyPlan) : Prop :=
  ∃ last payload capture, Completes parser framing bufferedBody reader plan.earlier last payload plan.rest ∧
    Captures payload maxBodyBytes (plan.earlier.flatten ++ last) capture ∧
    ∀ writer, replayVerdict framing direction writer plan.verdict = lastStep framing direction capture writer last

/-- A plan either ends a body, or fails on every writer; it fails only where no countable body
is completed. -/
theorem bodyPlan_concludes (maxBodyBytes : Nat) (direction : BodyDirection) :
    Concludes parser framing bufferedBody reader maxBodyBytes direction
      (bodyPlan parser reader framing bufferedBody maxBodyBytes direction) ∨
    ((∀ writer, ∃ e writer', replayVerdict framing direction writer
        (bodyPlan parser reader framing bufferedBody maxBodyBytes direction).verdict = (.error e, writer')) ∧
      ∀ earlier last payload reader', (List.flatten earlier ++ last).length < u64Bound →
        ¬ Completes parser framing bufferedBody reader earlier last payload reader') := by
  have hjudge := bodyPlan_judges parser reader framing bufferedBody maxBodyBytes direction
  generalize bodyPlan parser reader framing bufferedBody maxBodyBytes direction = plan at *
  obtain ⟨before, verdict, rest⟩ := plan
  -- A body that the whole stream leaves unfinished is not completed by its reads.
  have hopen : framing ≠ .untilEof → Unfinished parser framing before.flatten →
      bufferedBody ++ reader.contents = before.flatten → ∀ earlier last payload reader',
      (List.flatten earlier ++ last).length < u64Bound →
      ¬ Completes parser framing bufferedBody reader earlier last payload reader' := by
    intro _ hunf hall earlier last payload reader' _ hcomp
    obtain ⟨hbody, hstream, -⟩ := hcomp.wire
    have hlt := hunf [] _ _ hbody (by rw [← hall, hstream, List.append_nil]; exact List.prefix_append ..)
    rw [← hall, hstream, List.length_append] at hlt
    omega
  cases verdict with
  | decided piece decision =>
    cases decision with
    | done capture =>
      obtain ⟨payload, hcomp, hcap⟩ := hjudge
      exact .inl ⟨piece, payload, capture, hcomp, hcap, fun _ => rfl⟩
    | fail e =>
      obtain ⟨heof, hunf, hreads, hw⟩ := hjudge
      refine .inr ⟨fun writer => ⟨e, writer, rfl⟩, ?_⟩
      intro earlier last payload reader' hlen hcomp
      by_cases hf : framing = .untilEof
      · have hover : u64Bound ≤ (before.flatten ++ piece).length := heof hf
        obtain ⟨reads, hr, hpieces⟩ := hreads
        have hseen : before.flatten ++ piece = bufferedBody ++ reads.flatten := by
          rw [← Decoder.pieces_flatten, hpieces]
          simp
        rw [← hcomp.untilEof_wire hf, hr.contents.1, ← List.append_assoc, ← hseen, List.length_append] at hlen
        omega
      · exact hcomp.not_withheld hlen (hunf hf) hreads hw
    | spoil e =>
      obtain ⟨hf, hover, hstream⟩ := hjudge
      refine .inr ⟨fun writer => ?_, ?_⟩
      · simp only [replayVerdict]
        split
        · exact ⟨_, _, rfl⟩
        · exact ⟨_, _, rfl⟩
      · intro earlier last payload reader' hlen hcomp
        rw [← hcomp.untilEof_wire hf, hstream, List.length_append] at hlen
        omega
  | ended result =>
    cases result with
    | ok capture =>
      obtain ⟨rfl, hcomp, hcap⟩ := hjudge
      refine .inl ⟨[], _, capture, hcomp, by rwa [List.append_nil], fun writer => ?_⟩
      exact (forwardLastBytes_nil capture writer direction).symm
    | error e =>
      obtain ⟨hf, hunf, hall⟩ := hjudge
      exact .inr ⟨fun writer => ⟨e, writer, rfl⟩, hopen hf hunf hall⟩
  | broken source =>
    obtain ⟨hending, hall, hunf⟩ := hjudge
    refine .inr ⟨fun writer => ⟨_, writer, rfl⟩, ?_⟩
    by_cases hf : framing = .untilEof
    · rintro earlier last payload reader' - hcomp
      have hsame := hcomp.wire.2.2
      obtain ⟨_, _, _, _, hend⟩ := hcomp
      rw [(hend hf).2, hending] at hsame
      cases hsame
    · exact hopen hf (hunf hf) hall

/-- Forwarding succeeds only where the reads complete a body, the peer takes every earlier piece,
and the final step succeeds. -/
theorem forwardBody_ok {writer writer' : Writer} {maxBodyBytes : Nat} {direction : BodyDirection}
    {capture' : BodyCapture} {reader' : Reader}
    (h : forwardBody parser reader writer framing bufferedBody maxBodyBytes direction =
      (.ok capture', reader', writer')) :
    ∃ earlier last payload capture writer₁,
      Completes parser framing bufferedBody reader earlier last payload reader' ∧
      Captures payload maxBodyBytes (earlier.flatten ++ last) capture ∧
      writer.writeEach .writeZero earlier = (none, writer₁) ∧
      lastStep framing direction capture writer₁ last = (.ok capture', writer') := by
  obtain ⟨hresult, hwriter, hrest⟩ := forwardBody_follows parser reader writer framing bufferedBody maxBodyBytes direction
  have hconc := @bodyPlan_concludes parser framing bufferedBody reader maxBodyBytes direction
  generalize bodyPlan parser reader framing bufferedBody maxBodyBytes direction = plan at *
  rw [h] at hresult hwriter hrest
  unfold replay at hresult hwriter
  split at hresult
  · cases hresult
  · next writer₁ hearly =>
    rw [hearly] at hwriter
    obtain rfl : reader' = plan.rest := hrest writer₁ hearly
    rcases hconc with ⟨last, payload, capture, hcomp, hcap, hstep⟩ | ⟨hfail, -⟩
    · refine ⟨plan.earlier, last, payload, capture, writer₁, hcomp, hcap, hearly, ?_⟩
      rw [← hstep writer₁]
      exact Prod.ext hresult.symm hwriter.symm
    · obtain ⟨e, w, hfail⟩ := hfail writer₁
      rw [hfail] at hresult
      cases hresult

/-- Where the reads complete a countable body, forwarding writes the earlier pieces and then takes
the final step. -/
theorem Completes.forwardBody {earlier : List Bytes} {last payload : Bytes} {reader' : Reader}
    (h : Completes parser framing bufferedBody reader earlier last payload reader')
    (hlen : (earlier.flatten ++ last).length < u64Bound) (maxBodyBytes : Nat) (direction : BodyDirection) :
    ∃ capture, Captures payload maxBodyBytes (earlier.flatten ++ last) capture ∧ ∀ writer : Writer,
      match writer.writeEach .writeZero earlier with
      | (some source, writer₁) => ∃ r, Relay.forwardBody parser reader writer framing bufferedBody maxBodyBytes
          direction = (.error (.io (bodyForwardOperation direction) source), r, writer₁)
      | (none, writer₁) => Relay.forwardBody parser reader writer framing bufferedBody maxBodyBytes direction =
          ((lastStep framing direction capture writer₁ last).1, reader',
            (lastStep framing direction capture writer₁ last).2) := by
  have hfollows := fun writer =>
    forwardBody_follows parser reader writer framing bufferedBody maxBodyBytes direction
  have hconc := @bodyPlan_concludes parser framing bufferedBody reader maxBodyBytes direction
  generalize bodyPlan parser reader framing bufferedBody maxBodyBytes direction = plan at *
  rcases hconc with ⟨last', payload', capture, hcomp, hcap, hstep⟩ | ⟨-, hnot⟩
  · obtain ⟨rfl, rfl, rfl, rfl⟩ := h.unique hcomp
    refine ⟨capture, hcap, fun writer => ?_⟩
    obtain ⟨hresult, hwriter, hrest⟩ := hfollows writer
    unfold replay at hresult hwriter
    split
    · next source writer₁ hearly =>
      rw [hearly] at hresult hwriter
      exact ⟨_, Prod.ext hresult (Prod.ext rfl hwriter)⟩
    · next writer₁ hearly =>
      rw [hearly] at hresult hwriter
      simp only [hstep writer₁] at hresult hwriter
      exact Prod.ext hresult (Prod.ext (hrest writer₁ hearly) hwriter)
  · exact absurd h (hnot earlier last payload reader' hlen)

end Completion
end Abyss.Mitm.Relay
