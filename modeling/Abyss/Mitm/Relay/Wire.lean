import Abyss.Mitm.Relay.BodyPlan
import Abyss.Mitm.Relay.ChunkedBody

/-! What a message body is on the wire, when the reads of a stream complete it,
and that the plan of a body decides exactly this. -/
namespace Abyss.Mitm.Relay
open Abyss.Stream Abyss.Mitm.Http

/-- The wire bytes of one body under a framing, with the decoded payload. -/
def WireBody (parser : ChunkSizeParser) : BodyFraming → Bytes → Bytes → Prop
  | .empty, wire, payload => wire = [] ∧ payload = []
  | .contentLength length, wire, payload => wire.length = length ∧ payload = wire
  | .chunked, wire, payload => ChunkedBody parser wire payload
  | .untilEof, wire, payload => payload = wire

/-- Capacity of the next read after `n` body bytes. -/
def readCap : BodyFraming → Nat → Nat
  | .contentLength length, n => min (length - n) relayChunkBytes
  | _, _ => relayChunkBytes

/-- The pieces before the final one, and the final one. A body that ends with its stream has no
final piece: its end is only known behind the last read. -/
def cut : BodyFraming → List Bytes → List Bytes × Bytes
  | .untilEof, pieces => (pieces, [])
  | _, pieces => (pieces.dropLast, pieces.getLastD [])

/-- The reads of a stream complete one body: they deliver its wire bytes and nothing else. -/
def Completes (parser : ChunkSizeParser) (framing : BodyFraming) (bufferedBody : Bytes) (reader : Reader)
    (earlier : List Bytes) (last payload : Bytes) (reader' : Reader) : Prop :=
  ∃ reads, Source.Reads (readCap framing) bufferedBody.length reader reads reader' ∧
    (earlier, last) = cut framing (Decoder.pieces bufferedBody reads) ∧
    WireBody parser framing (bufferedBody ++ reads.flatten) payload ∧
    (framing = .untilEof → reader'.contents = [] ∧ reader'.ending = none)

/-- No body ends inside the bytes seen so far, whatever follows them. -/
def Unfinished (parser : ChunkSizeParser) (framing : BodyFraming) (seen : Bytes) : Prop :=
  ∀ t wire payload, WireBody parser framing wire payload → wire <+: seen ++ t → seen.length < wire.length

/-- A body capture of `payload` that counts all of its wire bytes. -/
def Captures (payload : Bytes) (maxBodyBytes : Nat) (wire : Bytes) (capture : BodyCapture) : Prop :=
  capture.body.bytes = payload.take maxBodyBytes ∧ capture.body.rawBytes = payload.take maxBodyBytes ∧
  (capture.body.truncated = true ↔ maxBodyBytes < payload.length) ∧
  (capture.body.rawTruncated = true ↔ maxBodyBytes < payload.length) ∧
  capture.forwardedBytes = wire.length ∧ capture.agentWriteError = none ∧ wire.length < u64Bound

theorem captures_observed {payload wire : Bytes} (maxBodyBytes : Nat) (h : wire.length < u64Bound) :
    Captures payload maxBodyBytes wire ⟨observed payload maxBodyBytes, wire.length, none⟩ := by
  obtain ⟨h₁, h₂, h₃, h₄⟩ := observed_view payload maxBodyBytes
  exact ⟨h₁, h₂, h₃, h₄, rfl, rfl, h⟩

theorem WireBody.unique {parser : ChunkSizeParser} {framing : BodyFraming} {x y p q t : Bytes}
    (hf : framing ≠ .untilEof) (hx : WireBody parser framing x p) (hy : WireBody parser framing y q)
    (hpx : x <+: t) (hpy : y <+: t) : x = y ∧ p = q := by
  cases framing with
  | empty =>
    obtain ⟨rfl, rfl⟩ := hx
    obtain ⟨rfl, rfl⟩ := hy
    exact ⟨rfl, rfl⟩
  | contentLength length =>
    obtain ⟨hlx, rfl⟩ := hx
    obtain ⟨hly, rfl⟩ := hy
    have heq := (List.prefix_of_prefix_length_le hpx hpy (by omega)).eq_of_length (by omega)
    exact ⟨heq, heq⟩
  | chunked => exact ChunkedBody.unique hx hy hpx hpy
  | untilEof => exact absurd rfl hf

theorem cut_append {framing : BodyFraming} (hf : framing ≠ .untilEof) (earlier : List Bytes) (last : Bytes) :
    cut framing (earlier ++ [last]) = (earlier, last) := by
  cases framing <;> simp_all [cut]

/-- Whatever way a body completes, its pieces are its wire bytes. -/
theorem cut_flatten {framing : BodyFraming} {pieces earlier : List Bytes} {last : Bytes}
    (h : (earlier, last) = cut framing pieces) : earlier.flatten ++ last = pieces.flatten := by
  by_cases hf : framing = .untilEof
  · subst hf
    obtain ⟨rfl, rfl⟩ := (by simpa [cut] using h : earlier = pieces ∧ last = [])
    rw [List.append_nil]
  · rcases List.eq_nil_or_concat pieces with rfl | ⟨front, final, rfl⟩
    · cases framing <;> simp_all [cut]
    · rw [List.concat_eq_append, cut_append hf, Prod.mk.injEq] at h
      obtain ⟨rfl, rfl⟩ := h
      simp

/-- The judgement on bytes that a decoder withholds: the counter is exhausted, or no body
continues and one that ends inside them leaves surplus bytes. -/
def Withheld (parser : ChunkSizeParser) (framing : BodyFraming) (direction : BodyDirection) (seen : Bytes)
    (e : TransparentFlowError) : Prop :=
  (e = .byteCountOverflow ∧ u64Bound ≤ seen.length) ∨
  ∀ t wire payload, WireBody parser framing wire payload → wire <+: seen ++ t →
    wire.length < seen.length ∧ (e = pipelinedError direction ∨ e = bodyError direction .headerTooLarge)

/-- What a plan says about the body at the front of its stream. -/
def Judges (parser : ChunkSizeParser) (framing : BodyFraming) (bufferedBody : Bytes) (reader : Reader)
    (maxBodyBytes : Nat) (direction : BodyDirection) (plan : BodyPlan) : Prop :=
  match plan.verdict with
  | .decided last (.done capture) => ∃ payload,
      Completes parser framing bufferedBody reader plan.earlier last payload plan.rest ∧
      Captures payload maxBodyBytes (plan.earlier.flatten ++ last) capture
  | .decided piece (.fail e) => (framing = .untilEof → u64Bound ≤ (plan.earlier.flatten ++ piece).length) ∧
      (framing ≠ .untilEof → Unfinished parser framing plan.earlier.flatten ∨
        plan.earlier = [] ∧ piece = bufferedBody ∧ bufferedBody ≠ []) ∧
      (∃ reads, Source.Reads (readCap framing) bufferedBody.length reader reads plan.rest ∧
        Decoder.pieces bufferedBody reads = plan.earlier ++ [piece]) ∧
      Withheld parser framing direction (plan.earlier.flatten ++ piece) e
  | .decided piece (.spoil _) => framing = .untilEof ∧
      u64Bound ≤ (plan.earlier.flatten ++ piece).length ∧
      bufferedBody ++ reader.contents = plan.earlier.flatten ++ piece ++ plan.rest.contents
  | .ended (.ok capture) => framing = .untilEof ∧
      Completes parser framing bufferedBody reader plan.earlier [] plan.earlier.flatten plan.rest ∧
      Captures plan.earlier.flatten maxBodyBytes plan.earlier.flatten capture
  | .ended (.error _) => framing ≠ .untilEof ∧ Unfinished parser framing plan.earlier.flatten ∧
      bufferedBody ++ reader.contents = plan.earlier.flatten
  | .broken source => reader.ending = some source ∧ bufferedBody ++ reader.contents = plan.earlier.flatten ∧
      (framing ≠ .untilEof → Unfinished parser framing plan.earlier.flatten)

section Recognizers
variable {parser : ChunkSizeParser} {framing : BodyFraming} {direction : BodyDirection} {maxBodyBytes : Nat} {σ : Type}

/-- A decoder for a framing that ends inside the stream. -/
structure Recognizes (parser : ChunkSizeParser) (framing : BodyFraming) (direction : BodyDirection)
    (maxBodyBytes : Nat) (d : Decoder UInt8 σ BodyCapture TransparentFlowError) (Inv : Bytes → σ → Prop)
    (Fits : σ → Bytes → Prop) : Prop extends d.Keeps Inv Fits (readCap framing) where
  inside : framing ≠ .untilEof
  unfinished {seen : Bytes} {s : σ} : Inv seen s → Unfinished parser framing seen
  done {seen bytes : Bytes} {s : σ} {capture : BodyCapture} : Inv seen s → Fits s bytes →
    d.feed s bytes = .stop (.done capture) →
    ∃ payload, WireBody parser framing (seen ++ bytes) payload ∧ Captures payload maxBodyBytes (seen ++ bytes) capture
  fail {seen bytes : Bytes} {s : σ} {e : TransparentFlowError} : Inv seen s → Fits s bytes →
    d.feed s bytes = .stop (.fail e) → Withheld parser framing direction (seen ++ bytes) e
  spoil {s : σ} {bytes : Bytes} {e : TransparentFlowError} : d.feed s bytes ≠ .stop (.spoil e)
  atEnd (s : σ) : ∃ e, d.atEnd s = .error e

theorem Recognizes.judges {d : Decoder UInt8 σ BodyCapture TransparentFlowError} {Inv : Bytes → σ → Prop}
    {Fits : σ → Bytes → Prop} (hd : Recognizes parser framing direction maxBodyBytes d Inv Fits) {s : σ}
    {bufferedBody : Bytes} (h : Inv [] s) (hfit : Fits s bufferedBody) (reader : Reader) :
    Judges parser framing bufferedBody reader maxBodyBytes direction (d.planOn s bufferedBody reader) := by
  obtain ⟨s', hinv, reads, hreads, hstop⟩ := hd.toKeeps.stops h bufferedBody hfit reader
  rw [pieces_append] at hstop
  generalize d.planOn s bufferedBody reader = plan at *
  obtain ⟨earlier, verdict, rest⟩ := plan
  obtain ⟨hcontents, hending⟩ := hreads.contents
  cases verdict with
  | decided piece decision =>
    obtain ⟨hpieces, hfeed, hfits⟩ := hstop
    cases decision with
    | done capture =>
      obtain ⟨payload, hbody, hcap⟩ := hd.done hinv hfits hfeed
      have hflat : earlier.flatten ++ piece = bufferedBody ++ reads.flatten := by
        rw [← Decoder.pieces_flatten, hpieces]
        simp
      refine ⟨payload, ⟨reads, hreads, ?_, ?_, ?_⟩, hcap⟩
      · rw [hpieces, cut_append hd.inside]
      · rwa [← hflat]
      · intro hf
        exact absurd hf hd.inside
    | fail e =>
      exact ⟨fun hf => absurd hf hd.inside, fun _ => .inl (hd.unfinished hinv), ⟨reads, hreads, hpieces⟩,
        hd.fail hinv hfits hfeed⟩
    | spoil e => exact absurd hfeed hd.spoil
  | ended result =>
    obtain ⟨hpieces, hend, hnil, -⟩ := hstop
    obtain ⟨e, he⟩ := hd.atEnd s'
    rw [he] at hend
    subst hend
    refine ⟨hd.inside, hd.unfinished hinv, ?_⟩
    rw [hcontents, hnil, List.append_nil, ← Decoder.pieces_flatten, hpieces]
  | broken source =>
    obtain ⟨hpieces, hnil, hsource⟩ := hstop
    refine ⟨hending ▸ hsource, ?_, fun _ => hd.unfinished hinv⟩
    rw [hcontents, hnil, List.append_nil, ← Decoder.pieces_flatten, hpieces]

/-- Progress of a declared length: what was seen is captured and the rest is still to come. -/
def LengthInv (length maxBodyBytes : Nat) (seen : Bytes) (s : LengthState) : Prop :=
  Captured seen maxBodyBytes s.body s.captureBody ∧ seen.length + s.remaining = length ∧ 0 < s.remaining

theorem contentLength_recognizes (parser : ChunkSizeParser) (length maxBodyBytes : Nat) (direction : BodyDirection) :
    Recognizes parser (.contentLength length) direction maxBodyBytes
      (contentLengthDecoder length maxBodyBytes direction) (LengthInv length maxBodyBytes)
      (fun s bytes => bytes.length ≤ s.remaining) where
  cap_eq := by
    rintro seen s ⟨-, hlen, -⟩
    simp only [contentLengthDecoder, readCap]
    congr 1
    omega
  cap_pos := by
    rintro seen s ⟨-, -, hpos⟩
    exact Nat.lt_min.mpr ⟨hpos, by decide⟩
  fits h := Nat.le_trans h (Nat.min_le_left ..)
  more := by
    rintro seen s s' bytes ⟨hcap, hlen, hpos⟩ hfit hfeed
    simp only [contentLengthDecoder, checkedSub_of_le hfit] at hfeed
    split at hfeed
    · cases hfeed
    · split at hfeed <;> cases hfeed
    · next left hleft =>
      cases hfeed
      simp only [Except.ok.injEq] at hleft
      refine ⟨hcap.append, ?_, Nat.succ_pos _⟩
      show (seen ++ bytes).length + (left + 1) = length
      rw [List.length_append]
      omega
  inside := by simp
  unfinished := by
    rintro seen s ⟨-, hlen, hpos⟩ t wire payload ⟨hw, -⟩ -
    omega
  done := by
    rintro seen bytes s capture ⟨hcap, hlen, hpos⟩ hfit hfeed
    simp only [contentLengthDecoder, checkedSub_of_le hfit] at hfeed
    split at hfeed
    · cases hfeed
    · next hzero =>
      simp only [Except.ok.injEq] at hzero
      have hall : (seen ++ bytes).length = length := by
        rw [List.length_append]
        omega
      split at hfeed
      · cases hfeed
      · next forwarded hu =>
        obtain ⟨rfl, hlt⟩ := usizeToU64_ok hu
        cases hfeed
        refine ⟨seen ++ bytes, ⟨hall, rfl⟩, ?_⟩
        rw [hcap.append.finish (hall ▸ hlt), ← hall]
        exact captures_observed maxBodyBytes (hall ▸ hlt)
    · cases hfeed
  fail := by
    rintro seen bytes s e ⟨hcap, hlen, hpos⟩ hfit hfeed
    simp only [contentLengthDecoder, checkedSub_of_le hfit] at hfeed
    split at hfeed
    · next hsub => cases hsub
    · next hzero =>
      simp only [Except.ok.injEq] at hzero
      split at hfeed
      · next hu =>
        cases hfeed
        unfold usizeToU64 at hu
        split at hu
        · cases hu
        · next hlt =>
          cases hu
          refine .inl ⟨rfl, ?_⟩
          rw [List.length_append]
          omega
      · cases hfeed
    · cases hfeed
  spoil := by
    intro s bytes e h
    simp only [contentLengthDecoder] at h
    split at h
    · cases h
    · split at h <;> cases h
    · cases h
  atEnd _ := ⟨_, rfl⟩

theorem chunked_recognizes (parser : ChunkSizeParser) (maxBodyBytes : Nat) (direction : BodyDirection) :
    Recognizes parser .chunked direction maxBodyBytes (chunkedDecoder parser maxBodyBytes direction)
      (fun seen c => c.Fed parser maxBodyBytes direction seen ∧ Unfinished parser .chunked seen)
      (fun _ _ => True) where
  cap_eq _ := rfl
  cap_pos _ := show 0 < relayChunkBytes by decide
  fits _ := trivial
  more := by
    rintro seen c next bytes ⟨hfed, -⟩ - hfeed
    have hspec := hfed.feed bytes
    simp only [chunkedDecoder] at hfeed
    split at hfeed <;> cases hfeed
    next heq =>
      rw [heq] at hspec
      exact ⟨hspec.1, hspec.2.2⟩
  inside := by simp
  unfinished h := h.2
  done := by
    rintro seen bytes c capture ⟨hfed, -⟩ - hfeed
    have hspec := hfed.feed bytes
    simp only [chunkedDecoder] at hfeed
    split at hfeed <;> cases hfeed
    next heq =>
      rw [heq] at hspec
      obtain ⟨payload, hbody, rfl, hlt⟩ := hspec
      exact ⟨payload, hbody, captures_observed maxBodyBytes hlt⟩
  fail := by
    rintro seen bytes c e ⟨hfed, -⟩ - hfeed
    have hspec := hfed.feed bytes
    simp only [chunkedDecoder] at hfeed
    split at hfeed <;> cases hfeed
    next heq =>
      rw [heq] at hspec
      exact hspec
  spoil := by
    intro c bytes e h
    simp only [chunkedDecoder] at h
    split at h <;> cases h
  atEnd _ := ⟨_, rfl⟩

end Recognizers

/-- Progress of a body that ends with its stream. -/
def EofInv (maxBodyBytes : Nat) (seen : Bytes) (s : EofState) : Prop :=
  Captured seen maxBodyBytes s.body s.captureBody ∧ s.forwardedBytes = seen.length ∧ seen.length < u64Bound

theorem untilEof_keeps (maxBodyBytes : Nat) :
    (untilEofDecoder maxBodyBytes).Keeps (EofInv maxBodyBytes) (fun _ _ => True) (readCap .untilEof) where
  cap_eq _ := rfl
  cap_pos _ := show 0 < relayChunkBytes by decide
  fits _ := trivial
  more := by
    rintro seen s s' bytes ⟨hcap, hfwd, hlen⟩ - hfeed
    simp only [untilEofDecoder] at hfeed
    split at hfeed
    · cases hfeed
    · next forwarded hadd =>
      cases hfeed
      cases hu : usizeToU64 bytes.length with
      | error e => simp [hu, bind, Except.bind] at hadd
      | ok n =>
        simp only [hu, bind, Except.bind] at hadd
        obtain ⟨rfl, -⟩ := usizeToU64_ok hu
        obtain ⟨rfl, hlt⟩ := addLen_ok hadd
        rw [hfwd, ← List.length_append] at hlt
        exact ⟨hcap.append, by rw [hfwd, ← List.length_append], hlt⟩

theorem untilEof_judges (parser : ChunkSizeParser) (maxBodyBytes : Nat) (direction : BodyDirection)
    (bufferedBody : Bytes) (reader : Reader) :
    Judges parser .untilEof bufferedBody reader maxBodyBytes direction
      ((untilEofDecoder maxBodyBytes).planOn ⟨[], true, 0⟩ bufferedBody reader) := by
  have hstart : EofInv maxBodyBytes [] ⟨[], true, 0⟩ := ⟨captured_start _, rfl, by decide⟩
  obtain ⟨s', ⟨hcap, hfwd, hlen⟩, reads, hreads, hstop⟩ :=
    (untilEof_keeps maxBodyBytes).stops hstart bufferedBody trivial reader
  rw [pieces_append] at hstop
  generalize (untilEofDecoder maxBodyBytes).planOn ⟨[], true, 0⟩ bufferedBody reader = plan at *
  obtain ⟨earlier, verdict, rest⟩ := plan
  obtain ⟨hcontents, hending⟩ := hreads.contents
  cases verdict with
  | decided piece decision =>
    obtain ⟨hpieces, hfeed, -⟩ := hstop
    simp only [untilEofDecoder] at hfeed
    split at hfeed
    · next e hadd =>
      cases hfeed
      have hflat : bufferedBody ++ reads.flatten = earlier.flatten ++ piece := by
        rw [← Decoder.pieces_flatten, hpieces]
        simp
      refine ⟨rfl, ?_, by rw [hcontents, ← List.append_assoc, hflat]⟩
      by_contra hlt
      rw [List.length_append] at hlt
      rw [usizeToU64_of_lt (by omega)] at hadd
      simp only [bind, Except.bind] at hadd
      rw [addLen_of_lt (by omega)] at hadd
      cases hadd
    · cases hfeed
  | ended result =>
    obtain ⟨hpieces, hend, hnil, hnone⟩ := hstop
    have hflat : bufferedBody ++ reads.flatten = earlier.flatten := by
      rw [← Decoder.pieces_flatten, hpieces]
    subst hend
    refine ⟨rfl, ⟨reads, hreads, ?_, hflat.symm, fun _ => ⟨hnil, hnone⟩⟩, ?_⟩
    · rw [hpieces]
      rfl
    · rw [hcap.finish hlen, hfwd]
      exact captures_observed maxBodyBytes hlen
  | broken source =>
    obtain ⟨hpieces, hnil, hsource⟩ := hstop
    refine ⟨hending ▸ hsource, ?_, fun hf => absurd rfl hf⟩
    rw [hcontents, hnil, List.append_nil, ← Decoder.pieces_flatten, hpieces]

/-- Bytes buffered beyond the end of a body are withheld at once. -/
private theorem surplus_judged {parser : ChunkSizeParser} {framing : BodyFraming} {bufferedBody : Bytes}
    {reader : Reader} {maxBodyBytes : Nat} {direction : BodyDirection} (hne : bufferedBody ≠ [])
    (hf : framing ≠ .untilEof)
    (h : ∀ wire payload, WireBody parser framing wire payload → wire.length < bufferedBody.length) :
    Judges parser framing bufferedBody reader maxBodyBytes direction
      ⟨[], .decided bufferedBody (.fail (pipelinedError direction)), reader⟩ := by
  refine ⟨fun hu => absurd hu hf, fun _ => .inr ⟨rfl, rfl, hne⟩, ⟨[], .nil .., if_neg hne⟩, .inr ?_⟩
  intro t wire payload hbody _
  exact ⟨h wire payload hbody, .inl rfl⟩

/-- The plan of a body judges the front of its stream. -/
theorem bodyPlan_judges (parser : ChunkSizeParser) (reader : Reader) (framing : BodyFraming)
    (bufferedBody : Bytes) (maxBodyBytes : Nat) (direction : BodyDirection) :
    Judges parser framing bufferedBody reader maxBodyBytes direction
      (bodyPlan parser reader framing bufferedBody maxBodyBytes direction) := by
  cases framing with
  | empty =>
    simp only [bodyPlan]
    split
    · next hnil =>
      subst hnil
      exact ⟨[], ⟨[], .nil .., rfl, ⟨rfl, rfl⟩, by simp⟩, by simp [Captures, CapturedBody.fromBytes, u64Bound]⟩
    · next hne =>
      refine surplus_judged hne (by simp) ?_
      rintro wire payload ⟨rfl, -⟩
      exact List.length_pos_of_ne_nil hne
  | contentLength length =>
    simp only [bodyPlan]
    split
    · next hover =>
      have hne : bufferedBody ≠ [] := List.ne_nil_of_length_pos (by omega)
      refine surplus_judged hne (by simp) ?_
      rintro wire payload ⟨rfl, -⟩
      exact hover
    · next hfit =>
      split
      · next hzero =>
        subst hzero
        obtain rfl : bufferedBody = [] := List.length_eq_zero_iff.mp (by omega)
        have hcap : Captures [] maxBodyBytes [] ⟨observed [] maxBodyBytes, ([] : Bytes).length, none⟩ :=
          captures_observed maxBodyBytes (by decide)
        exact ⟨[], ⟨[], .nil .., rfl, ⟨rfl, rfl⟩, by simp⟩, by simpa [observed] using hcap⟩
      · next hpos =>
        refine (contentLength_recognizes parser length maxBodyBytes direction).judges ?_ (Nat.le_of_not_lt hfit) reader
        exact ⟨captured_start _, Nat.zero_add _, Nat.pos_of_ne_zero hpos⟩
  | chunked =>
    refine (chunked_recognizes parser maxBodyBytes direction).judges ⟨ChunkedBodyCapture.fed_new .., ?_⟩ trivial reader
    intro t wire payload hbody _
    exact List.length_pos_of_ne_nil (ChunkedBody.ne_nil hbody)
  | untilEof =>
    simp only [bodyPlan]
    split
    · next hover =>
      have hne : bufferedBody ≠ [] := by
        rintro rfl
        simp [u64Bound] at hover
      exact ⟨fun _ => hover, fun hf => absurd rfl hf, ⟨[], .nil .., if_neg hne⟩, .inl ⟨rfl, hover⟩⟩
    · exact untilEof_judges parser maxBodyBytes direction bufferedBody reader

end Abyss.Mitm.Relay
