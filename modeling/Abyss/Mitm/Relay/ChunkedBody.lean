import Abyss.Mitm.Relay.Chunked

/-! What a chunked body is, and that the push parser recognizes exactly these
byte strings whatever the boundaries of the reads are. -/
namespace Abyss.Mitm.Relay
open Abyss.Stream
variable {parser : ChunkSizeParser}

/-- A size line is consumed by the size parser to its last byte and is bounded. -/
def SizeLine (parser : ChunkSizeParser) (line : Bytes) (size : Nat) : Prop :=
  parser.run line = .complete size line.length ∧ line.length ≤ maxHttp1HeaderBytes

/-- The end of the first blank line that follows a field line. -/
def EndsAtBlankLine (bytes : Bytes) : Prop :=
  bytes.length ≤ maxHttp1HeaderBytes ∧ ∃ i, findMarker (crlf ++ crlf) bytes = some i ∧ i + 4 = bytes.length

/-- A trailer section is a lone CRLF, or bounded fields up to their first blank line. -/
def TrailerSection (trailer : Bytes) : Prop :=
  trailer = crlf ∨ ¬ crlf <+: trailer ∧ EndsAtBlankLine trailer

/-- The wire bytes of one complete chunked body, with its decoded payload. -/
inductive ChunkedBody (parser : ChunkSizeParser) : Bytes → Bytes → Prop
  | last {line trailer : Bytes} (hl : SizeLine parser line 0) (ht : TrailerSection trailer) :
      ChunkedBody parser (line ++ trailer) []
  | chunk {line data rest payload : Bytes} (hl : SizeLine parser line data.length) (hd : data ≠ [])
      (hr : ChunkedBody parser rest payload) :
      ChunkedBody parser (line ++ (data ++ (crlf ++ rest))) (data ++ payload)

/-- What may still follow in each state of the parser. -/
def Rest (parser : ChunkSizeParser) : ChunkedParseState → Bytes → Bytes → Prop
  | .size, wire, payload => ChunkedBody parser wire payload
  | .data remaining, wire, payload => ∃ data rest tail, data.length = remaining ∧
      wire = data ++ (crlf ++ rest) ∧ payload = data ++ tail ∧ ChunkedBody parser rest tail
  | .dataTerminator, wire, payload => ∃ rest, wire = crlf ++ rest ∧ ChunkedBody parser rest payload
  | .trailers, wire, payload => TrailerSection wire ∧ payload = []

private theorem eq_of_fronts {x y t : Bytes} (hx : x <+: t) (hy : y <+: t) (hl : x.length = y.length) :
    x = y := (List.prefix_of_prefix_length_le hx hy (Nat.le_of_eq hl)).eq_of_length hl

theorem SizeLine.run_of_front {line t : Bytes} {size : Nat} (h : SizeLine parser line size) (hp : line <+: t) :
    parser.run t = .complete size line.length := by
  obtain ⟨r, rfl⟩ := hp
  exact parser.complete_append r h.1

theorem SizeLine.unique {line line' t : Bytes} {size size' : Nat} (h : SizeLine parser line size)
    (h' : SizeLine parser line' size') (hp : line <+: t) (hp' : line' <+: t) : line = line' ∧ size = size' := by
  have hr := h.run_of_front hp
  rw [h'.run_of_front hp'] at hr
  injection hr with hs hl
  exact ⟨eq_of_fronts hp hp' hl.symm, hs.symm⟩

theorem ChunkedBody.sizeLine {w p : Bytes} (h : ChunkedBody parser w p) :
    ∃ line size, SizeLine parser line size ∧ line <+: w := by
  cases h with
  | last hl _ => exact ⟨_, _, hl, List.prefix_append ..⟩
  | chunk hl _ _ => exact ⟨_, _, hl, List.prefix_append ..⟩

theorem TrailerSection.two_le {t : Bytes} (h : TrailerSection t) : 2 ≤ t.length := by
  obtain rfl | ⟨-, -, i, -, hi⟩ := h
  · exact Nat.le_refl 2
  · omega

theorem TrailerSection.unique {x y t : Bytes} (hx : TrailerSection x) (hy : TrailerSection y)
    (hpx : x <+: t) (hpy : y <+: t) : x = y := by
  have hx2 := hx.two_le
  have hy2 := hy.two_le
  obtain rfl | ⟨hnx, -, i, hi, hxl⟩ := hx
  · obtain rfl | ⟨hny, -⟩ := hy
    · rfl
    · exact absurd (List.prefix_of_prefix_length_le hpx hpy hy2) hny
  · obtain rfl | ⟨hny, -, j, hj, hyl⟩ := hy
    · exact absurd (List.prefix_of_prefix_length_le hpy hpx hx2) hnx
    · obtain ⟨r, rfl⟩ := hpx
      obtain ⟨r', hr'⟩ := hpy
      have hf := findMarker_append r hi
      rw [← hr', findMarker_append r' hj] at hf
      injection hf with hij
      exact eq_of_fronts (List.prefix_append x r) ⟨r', hr'⟩ (by omega)

private theorem front_append_iff {x y z : Bytes} : x ++ y <+: x ++ z ↔ y <+: z := List.prefix_append_right_inj x

/-- A stream starts with at most one chunked body. -/
theorem ChunkedBody.unique {x y t p q : Bytes} (hx : ChunkedBody parser x p) (hy : ChunkedBody parser y q)
    (hpx : x <+: t) (hpy : y <+: t) : x = y ∧ p = q := by
  induction hx generalizing y q t with
  | last hl ht =>
    rename_i line trailer
    cases hy with
    | last hl' ht' =>
      obtain ⟨rfl, -⟩ := hl.unique hl' ((List.prefix_append ..).trans hpx) ((List.prefix_append ..).trans hpy)
      obtain ⟨r, rfl⟩ := (List.prefix_append line _).trans hpx
      rw [ht.unique ht' (front_append_iff.mp hpx) (front_append_iff.mp hpy)]
      exact ⟨rfl, rfl⟩
    | chunk hl' hd' hr' =>
      obtain ⟨-, h0⟩ := hl.unique hl' ((List.prefix_append ..).trans hpx) ((List.prefix_append ..).trans hpy)
      exact absurd (List.length_eq_zero_iff.mp h0.symm) hd'
  | chunk hl hd hr ih =>
    rename_i line data rest payload
    cases hy with
    | last hl' ht' =>
      obtain ⟨-, h0⟩ := hl.unique hl' ((List.prefix_append ..).trans hpx) ((List.prefix_append ..).trans hpy)
      exact absurd (List.length_eq_zero_iff.mp h0) hd
    | chunk hl' hd' hr' =>
      obtain ⟨rfl, hlen⟩ := hl.unique hl' ((List.prefix_append ..).trans hpx) ((List.prefix_append ..).trans hpy)
      obtain ⟨r, rfl⟩ := (List.prefix_append line _).trans hpx
      have hpx' := front_append_iff.mp hpx
      have hpy' := front_append_iff.mp hpy
      obtain rfl := eq_of_fronts ((List.prefix_append ..).trans hpx') ((List.prefix_append ..).trans hpy') hlen
      obtain ⟨r', rfl⟩ := (List.prefix_append data _).trans hpx'
      have hpx'' := front_append_iff.mp hpx'
      have hpy'' := front_append_iff.mp hpy'
      obtain ⟨r'', rfl⟩ := (List.prefix_append crlf _).trans hpx''
      obtain ⟨rfl, rfl⟩ := ih hr' (front_append_iff.mp hpx'') (front_append_iff.mp hpy'')
      exact ⟨rfl, rfl⟩

theorem ChunkedBody.payload_le {w p : Bytes} (h : ChunkedBody parser w p) : p.length ≤ w.length := by
  induction h with
  | last => exact Nat.zero_le _
  | chunk _ _ _ ih =>
    simp only [List.length_append]
    omega

theorem ChunkedBody.ne_nil {w p : Bytes} (h : ChunkedBody parser w p) : w ≠ [] := by
  rintro rfl
  generalize hw : ([] : Bytes) = w at h
  cases h with
  | last hl ht =>
    have := ht.two_le
    rw [(List.append_eq_nil_iff.mp hw.symm).2] at this
    simp at this
  | chunk _ hd _ => exact hd (List.append_eq_nil_iff.mp (List.append_eq_nil_iff.mp hw.symm).2).1

/-- Consuming `used` leads from one state to another and decodes `decoded`: the bodies that may
follow before and after correspond, on every stream that starts with `used`. -/
def Advances (parser : ChunkSizeParser) (s : ChunkedParseState) (used decoded : Bytes)
    (s' : ChunkedParseState) : Prop :=
  ∀ t w p, (Rest parser s w p ∧ w <+: used ++ t) ↔
    ∃ w' q, w = used ++ w' ∧ p = decoded ++ q ∧ w' <+: t ∧ Rest parser s' w' q

theorem Advances.refl (s : ChunkedParseState) : Advances parser s [] [] s := by
  intro t w p
  constructor
  · rintro ⟨hr, hp⟩
    exact ⟨w, p, rfl, rfl, hp, hr⟩
  · rintro ⟨w', q, rfl, rfl, hp, hr⟩
    exact ⟨hr, hp⟩

theorem Advances.trans {s₁ s₂ s₃ : ChunkedParseState} {u₁ u₂ d₁ d₂ : Bytes}
    (h₁ : Advances parser s₁ u₁ d₁ s₂) (h₂ : Advances parser s₂ u₂ d₂ s₃) :
    Advances parser s₁ (u₁ ++ u₂) (d₁ ++ d₂) s₃ := by
  intro t w p
  rw [List.append_assoc, h₁ (u₂ ++ t) w p]
  constructor
  · rintro ⟨w₁, q₁, rfl, rfl, hp, hr⟩
    obtain ⟨w₂, q₂, rfl, rfl, hp', hr'⟩ := (h₂ t w₁ q₁).mp ⟨hr, hp⟩
    exact ⟨w₂, q₂, by rw [List.append_assoc], by rw [List.append_assoc], hp', hr'⟩
  · rintro ⟨w₂, q₂, rfl, rfl, hp, hr⟩
    obtain ⟨hr', hp'⟩ := (h₂ t (u₂ ++ w₂) (d₂ ++ q₂)).mpr ⟨w₂, q₂, rfl, rfl, hp, hr⟩
    exact ⟨u₂ ++ w₂, d₂ ++ q₂, by rw [List.append_assoc], by rw [List.append_assoc], hp', hr'⟩

theorem SizeLine.advances {line : Bytes} {size : Nat} (h : SizeLine parser line size) :
    Advances parser .size line [] (if size = 0 then .trailers else .data size) := by
  intro t w p
  constructor
  · rintro ⟨hb, hp⟩
    cases hb with
    | last hl ht =>
      obtain ⟨rfl, rfl⟩ := h.unique hl (List.prefix_append ..) ((List.prefix_append ..).trans hp)
      exact ⟨_, [], rfl, rfl, front_append_iff.mp hp, ht, rfl⟩
    | chunk hl hd hr =>
      obtain ⟨rfl, rfl⟩ := h.unique hl (List.prefix_append ..) ((List.prefix_append ..).trans hp)
      refine ⟨_, _, rfl, rfl, front_append_iff.mp hp, ?_⟩
      rw [if_neg (mt List.length_eq_zero_iff.mp hd)]
      exact ⟨_, _, _, rfl, rfl, rfl, hr⟩
  · rintro ⟨w', q, rfl, rfl, hp, hr⟩
    refine ⟨?_, front_append_iff.mpr hp⟩
    split at hr
    · next h0 =>
      obtain ⟨ht, rfl⟩ := hr
      subst h0
      exact .last h ht
    · next h0 =>
      obtain ⟨data, rest, tail, rfl, rfl, rfl, hb⟩ := hr
      exact .chunk h (mt List.length_eq_zero_iff.mpr h0) hb

theorem advances_data {data : Bytes} {remaining : Nat} (h : data.length ≤ remaining) :
    Advances parser (.data remaining) data data
      (if remaining - data.length = 0 then .dataTerminator else .data (remaining - data.length)) := by
  intro t w p
  constructor
  · rintro ⟨⟨all, rest, tail, hlen, rfl, rfl, hb⟩, hp⟩
    have hfront : data <+: all := List.prefix_of_prefix_length_le (List.prefix_append ..)
      ((List.prefix_append ..).trans hp) (by omega)
    obtain ⟨more, rfl⟩ := hfront
    rw [List.length_append] at hlen
    rw [List.append_assoc, front_append_iff] at hp
    refine ⟨_, _, List.append_assoc .., List.append_assoc .., hp, ?_⟩
    split
    · obtain rfl : more = [] := List.length_eq_zero_iff.mp (by omega)
      exact ⟨rest, rfl, hb⟩
    · exact ⟨more, rest, tail, by omega, rfl, rfl, hb⟩
  · rintro ⟨w', q, rfl, rfl, hp, hr⟩
    refine ⟨?_, front_append_iff.mpr hp⟩
    split at hr
    · obtain ⟨rest, rfl, hb⟩ := hr
      exact ⟨data, rest, q, by omega, rfl, rfl, hb⟩
    · obtain ⟨more, rest, tail, hlen, rfl, rfl, hb⟩ := hr
      exact ⟨data ++ more, rest, tail, by rw [List.length_append]; omega,
        (List.append_assoc ..).symm, (List.append_assoc ..).symm, hb⟩

theorem advances_terminator : Advances parser .dataTerminator crlf [] .size := by
  intro t w p
  constructor
  · rintro ⟨⟨rest, rfl, hb⟩, hp⟩
    exact ⟨rest, p, rfl, rfl, front_append_iff.mp hp, hb⟩
  · rintro ⟨w', q, rfl, rfl, hp, hb⟩
    exact ⟨⟨w', rfl, hb⟩, front_append_iff.mpr hp⟩

namespace ChunkedBodyCapture

/-- The parser went from one position to another by consuming `used` of its pending bytes. -/
structure Reaches (parser : ChunkSizeParser) (maxBodyBytes : Nat) (c : ChunkedBodyCapture)
    (used decoded : Bytes) (c' : ChunkedBodyCapture) : Prop where
  pending : c.pending = used ++ c'.pending
  advances : Advances parser c.state used decoded c'.state
  captured {payload : Bytes} : Captured payload maxBodyBytes c.body c.captureBody →
    Captured (payload ++ decoded) maxBodyBytes c'.body c'.captureBody
  forwarded : c'.forwardedBytes = c.forwardedBytes
  direction : c'.direction = c.direction

theorem Reaches.refl (parser : ChunkSizeParser) (maxBodyBytes : Nat) (c : ChunkedBodyCapture) :
    Reaches parser maxBodyBytes c [] [] c :=
  ⟨rfl, Advances.refl _, fun h => by rwa [List.append_nil], rfl, rfl⟩

theorem Reaches.trans {maxBodyBytes : Nat} {c₁ c₂ c₃ : ChunkedBodyCapture} {u₁ u₂ d₁ d₂ : Bytes}
    (h₁ : Reaches parser maxBodyBytes c₁ u₁ d₁ c₂) (h₂ : Reaches parser maxBodyBytes c₂ u₂ d₂ c₃) :
    Reaches parser maxBodyBytes c₁ (u₁ ++ u₂) (d₁ ++ d₂) c₃ := by
  refine ⟨?_, h₁.advances.trans h₂.advances, ?_, h₂.forwarded.trans h₁.forwarded,
    h₂.direction.trans h₁.direction⟩
  · rw [h₁.pending, h₂.pending, List.append_assoc]
  · intro payload h
    rw [← List.append_assoc]
    exact h₂.captured (h₁.captured h)

theorem turn_again_reaches {maxBodyBytes : Nat} {c next : ChunkedBodyCapture}
    (h : c.turn parser maxBodyBytes = .again next) :
    ∃ used decoded, Reaches parser maxBodyBytes c used decoded next := by
  obtain ⟨size, n, hs, hrun, hn, rfl⟩ | ⟨remaining, n, hs, -, hn, rfl⟩ | ⟨hs, ht, rfl⟩ := turn_again h
  · have hlen : (c.pending.take n).length = n := List.length_take_of_le (parser.consumed_le hrun)
    have hline : SizeLine parser (c.pending.take n) size := by
      rw [SizeLine, hlen]
      exact ⟨parser.front hrun, hn⟩
    refine ⟨c.pending.take n, [], (List.take_append_drop ..).symm, ?_, ?_, rfl, rfl⟩
    · rw [hs]
      exact hline.advances
    · intro payload hc
      rwa [List.append_nil]
  · have hlen : (c.pending.take n).length = n := List.length_take_of_le (by omega)
    refine ⟨c.pending.take n, c.pending.take n, (List.take_append_drop ..).symm, ?_, ?_, rfl, rfl⟩
    · have hadv : Advances parser (.data remaining) (c.pending.take n) (c.pending.take n) _ :=
        advances_data (by omega)
      rwa [hlen, ← hs] at hadv
    · intro payload hc
      exact hc.append
  · refine ⟨crlf, [], by rw [← ht, List.take_append_drop], ?_, ?_, rfl, rfl⟩
    · rw [hs]
      exact advances_terminator
    · intro payload hc
      rwa [List.append_nil]

theorem close_finished {c next : ChunkedBodyCapture} {n : Nat} (h : c.close n = .finished next) :
    c.pending.length ≤ n ∧ next = { c with pending := [] } := by
  unfold close at h
  split at h
  · next hd =>
    cases h
    exact ⟨List.drop_eq_nil_iff.mp hd, by rw [hd]⟩
  · cases h

theorem close_failed {c : ChunkedBodyCapture} {n : Nat} {e : TransparentFlowError}
    (h : c.close n = .failed e) : n < c.pending.length ∧ e = pipelinedError c.direction := by
  unfold close at h
  split at h
  · cases h
  · next hd =>
    cases h
    exact ⟨Nat.lt_of_not_le (mt List.drop_eq_nil_iff.mpr hd), rfl⟩

private theorem crlf_front {t : Bytes} (h : t.take 2 = crlf) : crlf <+: t := h ▸ List.take_prefix 2 t

private theorem take_two_of_front {t : Bytes} (h : crlf <+: t) : t.take 2 = crlf := by
  obtain ⟨r, rfl⟩ := h
  rfl

/-- The pending bytes up to the first blank line are a trailer section. -/
private theorem trailer_of_marker {t : Bytes} {i : Nat} (hn : t.take 2 ≠ crlf) (hlen : t.length ≤ maxHttp1HeaderBytes)
    (h : findMarker (crlf ++ crlf) t = some i) : TrailerSection (t.take (i + 4)) := by
  have hb : i + 4 ≤ t.length := findMarker_bound h
  have hl : (t.take (i + 4)).length = i + 4 := List.length_take_of_le hb
  refine .inr ⟨?_, ?_, i, ?_, hl.symm⟩
  · intro hp
    exact hn (take_two_of_front (hp.trans (List.take_prefix ..)))
  · omega
  · refine findMarker_of_append (r := t.drop (i + 4)) ?_ (Nat.le_of_eq hl.symm) (by simp [crlf])
    rwa [List.take_append_drop]

/-- A turn ends the body exactly when the pending bytes are a trailer section. -/
theorem turn_finished {maxBodyBytes : Nat} {c next : ChunkedBodyCapture}
    (h : c.turn parser maxBodyBytes = .finished next) :
    c.state = .trailers ∧ TrailerSection c.pending ∧ next = { c with pending := [] } := by
  unfold turn at h
  split at h
  · split at h
    · split at h <;> cases h
    · cases h
    · split at h
      · cases h
      · split at h <;> cases h
  · split at h
    · cases h
    · simp only [checkedSub_of_le (Nat.min_le_left ..)] at h
      cases h
  · split at h
    · cases h
    · split at h <;> cases h
  · next hs =>
    split at h
    · cases h
    · split at h
      · next ht =>
        obtain ⟨hle, rfl⟩ := close_finished h
        rw [List.take_of_length_le hle] at ht
        exact ⟨hs, .inl ht, rfl⟩
      · next hn =>
        split at h
        · cases h
        · next hlen =>
          split at h
          · cases h
          · next i hi =>
            obtain ⟨hle, rfl⟩ := close_finished h
            have ht := trailer_of_marker hn (Nat.le_of_not_lt hlen) hi
            rw [List.take_of_length_le hle] at ht
            exact ⟨hs, ht, rfl⟩

/-- A parser that waits has not seen the end of any body that its pending bytes may become. -/
theorem turn_wait {maxBodyBytes : Nat} {c : ChunkedBodyCapture} (h : c.turn parser maxBodyBytes = .wait)
    {t w p : Bytes} (hr : Rest parser c.state w p) (hp : w <+: c.pending ++ t) :
    c.pending.length < w.length := by
  by_contra hle
  have hw : w <+: c.pending := List.prefix_of_prefix_length_le hp (List.prefix_append ..) (Nat.le_of_not_lt hle)
  unfold turn at h
  split at h
  · next hs =>
    rw [hs] at hr
    obtain ⟨line, size, hl, hlw⟩ := hr.sizeLine
    simp only [hl.run_of_front (hlw.trans hw)] at h
    split at h
    · cases h
    · split at h <;> cases h
  · next remaining hs =>
    rw [hs] at hr
    obtain ⟨data, rest, tail, -, rfl, -, -⟩ := hr
    split at h
    · next hnil =>
      rw [hnil] at hle
      simp [crlf] at hle
    · simp only [checkedSub_of_le (Nat.min_le_left ..)] at h
      cases h
  · next hs =>
    rw [hs] at hr
    obtain ⟨rest, rfl, -⟩ := hr
    split at h
    · next hlt =>
      simp [crlf] at hle
      omega
    · split at h <;> cases h
  · next hs =>
    rw [hs] at hr
    have h2 := hr.1.two_le
    split at h
    · omega
    · split at h
      · simp only [close] at h
        split at h <;> cases h
      · next hn =>
        split at h
        · cases h
        · split at h
          · next hm =>
            obtain rfl | ⟨-, -, i, hi, -⟩ := hr.1
            · exact hn (take_two_of_front hw)
            · obtain ⟨r, hr'⟩ := hw
              have := findMarker_append r hi
              rw [hr', hm] at this
              cases this
          · simp only [close] at h
            split at h <;> cases h

/-- A rejected position continues no body; at most a body ends strictly inside the pending
bytes, and then the error speaks of the surplus or of an oversized trailer section. -/
theorem turn_failed {maxBodyBytes : Nat} {c : ChunkedBodyCapture} {e : TransparentFlowError}
    (h : c.turn parser maxBodyBytes = .failed e) {t w p : Bytes} (hr : Rest parser c.state w p)
    (hp : w <+: c.pending ++ t) : w.length < c.pending.length ∧
      (e = pipelinedError c.direction ∨ e = bodyError c.direction .headerTooLarge) := by
  unfold turn at h
  split at h
  · next hs =>
    rw [hs] at hr
    obtain ⟨line, size, hl, hlw⟩ := hr.sizeLine
    have hrun := hl.run_of_front (hlw.trans hp)
    exfalso
    split at h
    · next hinc =>
      split at h
      · next hmax =>
        have hfront : line <+: c.pending := List.prefix_of_prefix_length_le (hlw.trans hp)
          (List.prefix_append ..) (Nat.le_of_lt (Nat.lt_of_le_of_lt hl.2 hmax))
        rw [hl.run_of_front hfront] at hinc
        cases hinc
      · cases h
    · next hinv =>
      rw [parser.invalid_append t hinv] at hrun
      cases hrun
    · next chunkSize n hc =>
      rw [parser.complete_append t hc] at hrun
      injection hrun with hsz hn
      split at h
      · next hmax =>
        have := hl.2
        omega
      · split at h
        · next hbig => exact absurd (parser.size_lt hc) (Nat.not_lt.mpr hbig)
        · cases h
  · split at h
    · cases h
    · simp only [checkedSub_of_le (Nat.min_le_left ..)] at h
      cases h
  · next hs =>
    rw [hs] at hr
    obtain ⟨rest, rfl, -⟩ := hr
    split at h
    · cases h
    · next hlen =>
      split at h
      · next hne =>
        have hfront : crlf <+: c.pending := List.prefix_of_prefix_length_le ((List.prefix_append ..).trans hp)
          (List.prefix_append ..) (Nat.le_of_not_lt hlen)
        exact absurd (take_two_of_front hfront) hne
      · cases h
  · next hs =>
    rw [hs] at hr
    split at h
    · cases h
    · next hlen =>
      split at h
      · next ht =>
        obtain ⟨hlt, rfl⟩ := close_failed h
        have heq : w = crlf := hr.1.unique (.inl rfl) hp ((crlf_front ht).trans (List.prefix_append ..))
        exact ⟨by rw [heq]; exact hlt, .inl rfl⟩
      · next hn =>
        split at h
        · next hmax =>
          cases h
          refine ⟨?_, .inr rfl⟩
          obtain rfl | ⟨-, hle, -⟩ := hr.1
          · exact Nat.lt_of_lt_of_le (by decide) (Nat.le_of_lt hmax)
          · omega
        · next hmax =>
          split at h
          · cases h
          · next i hi =>
            obtain ⟨hlt, rfl⟩ := close_failed h
            have ht := trailer_of_marker hn (Nat.le_of_not_lt hmax) hi
            have heq := hr.1.unique ht hp ((List.take_prefix ..).trans (List.prefix_append ..))
            refine ⟨?_, .inl rfl⟩
            rw [heq, List.length_take_of_le (Nat.le_of_lt hlt)]
            exact hlt

/-- The loop stops at a position reached from where it started. -/
theorem parse_reaches (maxBodyBytes : Nat) (c : ChunkedBodyCapture) :
    ∃ used decoded c', Reaches parser maxBodyBytes c used decoded c' ∧
      match c.parse parser maxBodyBytes with
      | .ok (none, stopped) => c'.turn parser maxBodyBytes = .wait ∧ stopped = c'
      | .ok (some capture, _) => ∃ next, c'.turn parser maxBodyBytes = .finished next ∧
          capture = next.finish maxBodyBytes
      | .error e => c'.turn parser maxBodyBytes = .failed e := by
  fun_induction parse parser maxBodyBytes c with
  | case1 c next hturn ih =>
    obtain ⟨u₁, d₁, h₁⟩ := turn_again_reaches hturn
    obtain ⟨u₂, d₂, c', h₂, hstop⟩ := ih
    exact ⟨_, _, c', h₁.trans h₂, hstop⟩
  | case2 c hturn => exact ⟨_, _, c, Reaches.refl parser maxBodyBytes c, hturn, rfl⟩
  | case3 c next hturn => exact ⟨_, _, c, Reaches.refl parser maxBodyBytes c, next, hturn, rfl⟩
  | case4 c e hturn => exact ⟨_, _, c, Reaches.refl parser maxBodyBytes c, hturn⟩

/-- The parser has been fed exactly `seen`, and the bytes count below the counter limit. -/
def Fed (parser : ChunkSizeParser) (maxBodyBytes : Nat) (direction : BodyDirection) (seen : Bytes)
    (c : ChunkedBodyCapture) : Prop :=
  ∃ used decoded, seen = used ++ c.pending ∧ Advances parser .size used decoded c.state ∧
    Captured decoded maxBodyBytes c.body c.captureBody ∧ c.forwardedBytes = seen.length ∧
    c.direction = direction

theorem fed_new (parser : ChunkSizeParser) (maxBodyBytes : Nat) (direction : BodyDirection) :
    Fed parser maxBodyBytes direction [] (new direction) :=
  ⟨[], [], rfl, Advances.refl _, captured_start _, rfl, rfl⟩

/-- The parser with one more read in its buffer. -/
private def accept (c : ChunkedBodyCapture) (bytes : Bytes) : ChunkedBodyCapture :=
  { c with forwardedBytes := c.forwardedBytes + bytes.length, pending := c.pending ++ bytes }

private theorem Fed.feed_eq {maxBodyBytes : Nat} {direction : BodyDirection} {seen : Bytes}
    {c : ChunkedBodyCapture} (h : Fed parser maxBodyBytes direction seen c) (bytes : Bytes) :
    c.feed parser bytes maxBodyBytes =
      if (seen ++ bytes).length < u64Bound then parse parser maxBodyBytes (c.accept bytes)
      else .error .byteCountOverflow := by
  obtain ⟨-, -, -, -, -, hfwd, -⟩ := h
  unfold ChunkedBodyCapture.feed usizeToU64 addLen accept
  rw [List.length_append, hfwd]
  by_cases hlen : seen.length + bytes.length < u64Bound
  · have hb : bytes.length < u64Bound := by omega
    simp [hb, hlen, bind, Except.bind]
  · by_cases hb : bytes.length < u64Bound
    · simp [hb, hlen, bind, Except.bind]
    · simp [hb, hlen, bind, Except.bind]

/-- Parsing after an append continues the history of the parser. -/
private theorem Fed.reaches {maxBodyBytes : Nat} {direction : BodyDirection} {seen bytes used decoded : Bytes}
    {c c' : ChunkedBodyCapture} (h : Fed parser maxBodyBytes direction seen c)
    (hr : Reaches parser maxBodyBytes (c.accept bytes) used decoded c') :
    Fed parser maxBodyBytes direction (seen ++ bytes) c' := by
  obtain ⟨u, d, rfl, hadv, hcap, hfwd, hdir⟩ := h
  have hpending : c.pending ++ bytes = used ++ c'.pending := hr.pending
  refine ⟨u ++ used, d ++ decoded, ?_, hadv.trans hr.advances, hr.captured hcap, ?_, hr.direction.trans hdir⟩
  · rw [List.append_assoc, hpending, List.append_assoc]
  · rw [hr.forwarded, accept, hfwd, ← List.length_append]

/-- A body on the stream runs through the position of the parser. -/
private theorem Fed.rest {maxBodyBytes : Nat} {direction : BodyDirection} {seen t w p : Bytes}
    {c : ChunkedBodyCapture} (h : Fed parser maxBodyBytes direction seen c) (hb : ChunkedBody parser w p)
    (hp : w <+: seen ++ t) : ∃ used w' q, seen = used ++ c.pending ∧ w = used ++ w' ∧
      w' <+: c.pending ++ t ∧ Rest parser c.state w' q := by
  obtain ⟨u, d, rfl, hadv, -⟩ := h
  rw [List.append_assoc] at hp
  obtain ⟨w', q, rfl, -, hp', hr⟩ := (hadv (c.pending ++ t) w p).mp ⟨hb, hp⟩
  exact ⟨u, w', q, rfl, rfl, hp', hr⟩

/-- Feeding one read: the parser goes on exactly while every body the stream may hold is longer,
finishes exactly at the end of a body, and fails only where no body continues. -/
theorem Fed.feed {maxBodyBytes : Nat} {direction : BodyDirection} {seen : Bytes} {c : ChunkedBodyCapture}
    (h : Fed parser maxBodyBytes direction seen c) (bytes : Bytes) :
    match c.feed parser bytes maxBodyBytes with
    | .ok (none, next) => Fed parser maxBodyBytes direction (seen ++ bytes) next ∧
        (seen ++ bytes).length < u64Bound ∧
        ∀ t w p, ChunkedBody parser w p → w <+: seen ++ bytes ++ t → (seen ++ bytes).length < w.length
    | .ok (some capture, _) => ∃ payload, ChunkedBody parser (seen ++ bytes) payload ∧
        capture = ⟨observed payload maxBodyBytes, (seen ++ bytes).length, none⟩ ∧
        (seen ++ bytes).length < u64Bound
    | .error e => (e = .byteCountOverflow ∧ u64Bound ≤ (seen ++ bytes).length) ∨
        ∀ t w p, ChunkedBody parser w p → w <+: seen ++ bytes ++ t →
          w.length < (seen ++ bytes).length ∧
            (e = pipelinedError direction ∨ e = bodyError direction .headerTooLarge) := by
  rw [h.feed_eq]
  by_cases hlt : (seen ++ bytes).length < u64Bound
  · rw [if_pos hlt]
    obtain ⟨used, decoded, c', hreach, hstop⟩ := parse_reaches maxBodyBytes (c.accept bytes)
    have hfed := h.reaches hreach
    split at hstop
    · next stopped _ =>
      obtain ⟨hwait, rfl⟩ := hstop
      refine ⟨hfed, hlt, ?_⟩
      intro t w p hb hp
      obtain ⟨u, w', q, hseen, rfl, hp', hr⟩ := hfed.rest hb hp
      have := turn_wait hwait hr hp'
      rw [hseen, List.length_append, List.length_append]
      omega
    · next capture _ _ =>
      obtain ⟨next, hfin, rfl⟩ := hstop
      obtain ⟨hs, ht, rfl⟩ := turn_finished hfin
      obtain ⟨u, d, hseen, hadv, hcap, hf, -⟩ := hfed
      have hbody : ChunkedBody parser (seen ++ bytes) d := by
        rw [hs] at hadv
        rw [hseen]
        have := (hadv c'.pending (u ++ c'.pending) d).mpr
          ⟨c'.pending, [], rfl, (List.append_nil d).symm, List.prefix_rfl, ht, rfl⟩
        exact this.1
      refine ⟨d, hbody, ?_, hlt⟩
      rw [finish, hcap.finish (Nat.lt_of_le_of_lt hbody.payload_le hlt), hf]
    · next e _ =>
      have hdir : c'.direction = direction := hfed.choose_spec.choose_spec.2.2.2.2
      refine .inr fun t w p hb hp => ?_
      obtain ⟨u, w', q, hseen, rfl, hp', hr⟩ := hfed.rest hb hp
      obtain ⟨hlt', he⟩ := turn_failed hstop hr hp'
      rw [hdir] at he
      refine ⟨?_, he⟩
      rw [hseen, List.length_append, List.length_append]
      omega
  · rw [if_neg hlt]
    exact .inl ⟨rfl, Nat.le_of_not_lt hlt⟩

end ChunkedBodyCapture
end Abyss.Mitm.Relay
