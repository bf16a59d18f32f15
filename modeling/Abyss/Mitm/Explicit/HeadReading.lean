import Abyss.Mitm.Explicit.Decoder

/-! Reading the head of an explicit proxy request. The reads are cut to the room that is left, so the head that is
found, and the error where none is, depend on the bytes of the stream and not on how they arrive. -/
namespace Abyss.Mitm.Explicit
open Abyss.Stream Abyss.Mitm.Http Abyss.Mitm.Flow

/-- The first blank line of a stream ends `headLen` bytes behind its start. -/
def IsHeadEnd (stream : Bytes) (headLen : Nat) : Prop :=
  ∃ front back, stream = front ++ httpHeadTerminator ++ back ∧ headLen = front.length + httpHeadTerminator.length ∧
    ∀ other more, stream = other ++ httpHeadTerminator ++ more → front.length ≤ other.length

theorem findRequestHeadLen_iff {stream : Bytes} {headLen : Nat} :
    findRequestHeadLen stream = some headLen ↔ IsHeadEnd stream headLen := by
  have hne : httpHeadTerminator ≠ [] := by decide
  unfold findRequestHeadLen IsHeadEnd
  rw [Option.map_eq_some_iff]
  constructor
  · rintro ⟨i, hi, rfl⟩
    obtain ⟨⟨back, hback⟩, hfirst⟩ := (findMarker_iff hne).mp hi
    have hlen : i ≤ stream.length := Nat.le_of_add_right_le (findMarker_bound hi)
    refine ⟨stream.take i, back, ?_, by rw [List.length_take_of_le hlen], ?_⟩
    · rw [List.append_assoc, hback, List.take_append_drop]
    · rintro other more rfl
      rw [List.length_take_of_le hlen]
      by_contra hlt
      refine hfirst other.length (Nat.lt_of_not_le hlt) ?_
      rw [List.append_assoc, List.drop_left]
      exact List.prefix_append _ _
  · rintro ⟨front, back, rfl, rfl, hfirst⟩
    refine ⟨front.length, (findMarker_iff hne).mpr ⟨?_, ?_⟩, rfl⟩
    · rw [List.append_assoc, List.drop_left]
      exact List.prefix_append _ _
    · rintro j hj ⟨more, hmore⟩
      have hshort : j ≤ (front ++ httpHeadTerminator ++ back).length := by
        simp only [List.length_append]
        omega
      have hle := hfirst ((front ++ httpHeadTerminator ++ back).take j) more
        (by rw [List.append_assoc (List.take _ _), hmore, List.take_append_drop])
      rw [List.length_take_of_le hshort] at hle
      omega

section Loop
variable {σ : Type} (read : σ → Nat → Except ErrorKind Bytes × σ) (maxHeaderBytes : Nat)

/-- `read_request_head`, with fuel for the number of its reads. -/
def readRequestHead : Nat → Bytes → σ → Option (Except ExplicitRequestError (Bytes × Nat) × σ)
  | fuel, buffer, stream =>
    match requestHeadDecision maxHeaderBytes buffer with
    | some decision => some (decision.map (buffer, ·), stream)
    | none =>
      match fuel with
      | 0 => none
      | fuel + 1 =>
        match read stream (min (maxHeaderBytes - buffer.length) headerReadChunkBytes) with
        | (.error source, rest) => some (.error (.io source), rest)
        | (.ok [], rest) => some (.error .incompleteRequest, rest)
        | (.ok (b :: bs), rest) => readRequestHead fuel (buffer ++ b :: bs) rest

/-- Undecided bytes leave room. -/
theorem requestHeadDecision_none {maxHeaderBytes : Nat} {buffer : Bytes}
    (h : requestHeadDecision maxHeaderBytes buffer = none) :
    findRequestHeadLen buffer = none ∧ buffer.length < maxHeaderBytes := by
  unfold requestHeadDecision at h
  split at h
  · split at h <;> cases h
  · next hnone =>
    split at h
    · cases h
    · next hroom => exact ⟨hnone, Nat.lt_of_not_le hroom⟩

variable {read maxHeaderBytes}

theorem readRequestHead_decided {buffer : Bytes} {decision : Except ExplicitRequestError Nat}
    (h : requestHeadDecision maxHeaderBytes buffer = some decision) (fuel : Nat) (stream : σ) :
    readRequestHead read maxHeaderBytes fuel buffer stream = some (decision.map (buffer, ·), stream) := by
  unfold readRequestHead
  rw [h]

theorem readRequestHead_undecided {buffer : Bytes} (h : requestHeadDecision maxHeaderBytes buffer = none) (fuel : Nat)
    (stream : σ) : readRequestHead read maxHeaderBytes (fuel + 1) buffer stream =
      match read stream (min (maxHeaderBytes - buffer.length) headerReadChunkBytes) with
      | (.error source, rest) => some (.error (.io source), rest)
      | (.ok [], rest) => some (.error .incompleteRequest, rest)
      | (.ok (b :: bs), rest) => readRequestHead read maxHeaderBytes fuel (buffer ++ b :: bs) rest := by
  rw [readRequestHead, h]

/-- Every read takes room, so as many reads as there is room are enough, whatever they deliver. -/
theorem readRequestHead_isSome {fuel : Nat} {buffer : Bytes} (hfuel : maxHeaderBytes ≤ buffer.length + fuel) (stream : σ) :
    (readRequestHead read maxHeaderBytes fuel buffer stream).isSome = true := by
  induction fuel generalizing buffer stream with
  | zero =>
    cases hdecision : requestHeadDecision maxHeaderBytes buffer with
    | some decision => rw [readRequestHead_decided hdecision, Option.isSome_some]
    | none =>
      have hroom := (requestHeadDecision_none hdecision).2
      omega
  | succ fuel ih =>
    cases hdecision : requestHeadDecision maxHeaderBytes buffer with
    | some decision => rw [readRequestHead_decided hdecision, Option.isSome_some]
    | none =>
      rw [readRequestHead_undecided hdecision]
      split
      · rfl
      · rfl
      · refine ih ?_ _
        simp only [List.length_append, List.length_cons]
        omega

end Loop

section Stream

/-- Why no head is found: the stream fills the limit, or it ends below it. -/
def headReadingError (maxHeaderBytes : Nat) (stream : Bytes) (ending : Option ErrorKind) : ExplicitRequestError :=
  if maxHeaderBytes ≤ stream.length then .headerTooLarge maxHeaderBytes
  else match ending with
    | none => .incompleteRequest
    | some source => .io source

theorem headReadingError_full {maxHeaderBytes : Nat} {stream : Bytes} (h : maxHeaderBytes ≤ stream.length)
    (ending : Option ErrorKind) : headReadingError maxHeaderBytes stream ending = .headerTooLarge maxHeaderBytes :=
  if_pos h

theorem headReadingError_short {maxHeaderBytes : Nat} {stream : Bytes} (h : stream.length < maxHeaderBytes)
    (ending : Option ErrorKind) : headReadingError maxHeaderBytes stream ending =
      match ending with
      | none => .incompleteRequest
      | some source => .io source := if_neg (Nat.not_le.mpr h)

/-- What was read from a stream, and what is left of it. -/
def HeadOutcome (maxHeaderBytes : Nat) (all : Bytes) (ending : Option ErrorKind) (rest : ClientStream) :
    Except ExplicitRequestError (Bytes × Nat) → Prop
  | .ok (buffer, headLen) => IsHeadEnd all headLen ∧ headLen ≤ buffer.length ∧ buffer.length ≤ maxHeaderBytes ∧
      buffer ++ rest.contents = all ∧ rest.ending = ending
  | .error e => (∀ headLen, IsHeadEnd all headLen → maxHeaderBytes < headLen) ∧
      e = headReadingError maxHeaderBytes all ending

/-- A head that ends inside the bytes read so far has been found. -/
theorem findRequestHeadLen_none {buffer more : Bytes} (h : findRequestHeadLen buffer = none) {headLen : Nat}
    (hend : IsHeadEnd (buffer ++ more) headLen) : buffer.length < headLen := by
  by_contra hle
  obtain ⟨i, hi, rfl⟩ := Option.map_eq_some_iff.mp (findRequestHeadLen_iff.mpr hend)
  have hfound := findMarker_of_append hi (Nat.le_of_not_lt hle) (by decide)
  rw [findRequestHeadLen, hfound] at h
  cases h

/-- The bytes read so far and the stream behind them decide the outcome. -/
theorem readRequestHead_outcome {maxHeaderBytes fuel : Nat} {buffer : Bytes} {stream : ClientStream}
    (hfuel : maxHeaderBytes ≤ buffer.length + fuel) (hroom : buffer.length ≤ maxHeaderBytes) :
    ∃ result rest, readRequestHead Layered.read maxHeaderBytes fuel buffer stream = some (result, rest) ∧
      HeadOutcome maxHeaderBytes (buffer ++ stream.contents) stream.ending rest result := by
  cases hdecision : requestHeadDecision maxHeaderBytes buffer with
  | some decision =>
    refine ⟨_, _, readRequestHead_decided hdecision fuel stream, ?_⟩
    unfold requestHeadDecision at hdecision
    split at hdecision
    · next headLen hfind =>
      obtain ⟨hall, hle⟩ := findRequestHeadLen_append stream.contents hfind
      rw [if_neg (Nat.not_lt.mpr (Nat.le_trans hle hroom))] at hdecision
      obtain rfl := Option.some.inj hdecision
      exact ⟨findRequestHeadLen_iff.mp hall, hle, hroom, rfl, rfl⟩
    · next hnone =>
      split at hdecision
      · next hfull =>
        obtain rfl := Option.some.inj hdecision
        refine ⟨fun headLen hend => Nat.lt_of_le_of_lt hfull (findRequestHeadLen_none hnone hend), ?_⟩
        rw [headReadingError_full (by rw [List.length_append]; exact Nat.le_add_right_of_le hfull)]
      · cases hdecision
  | none =>
    obtain ⟨hnone, hlt⟩ := requestHeadDecision_none hdecision
    have hcap : 0 < min (maxHeaderBytes - buffer.length) headerReadChunkBytes := by
      rw [headerReadChunkBytes]
      omega
    have hended : stream.contents = [] → (∀ headLen, IsHeadEnd (buffer ++ stream.contents) headLen → maxHeaderBytes < headLen) ∧
        (buffer ++ stream.contents).length < maxHeaderBytes := by
      intro hempty
      rw [hempty, List.append_nil]
      refine ⟨?_, hlt⟩
      intro headLen hend
      rw [findRequestHeadLen_iff.mpr hend] at hnone
      cases hnone
    cases fuel with
    | zero => omega
    | succ fuel =>
      rw [readRequestHead_undecided hdecision]
      split
      · next source rest hread =>
        obtain ⟨hempty, -, hending⟩ := Layered.read_error hread
        obtain ⟨hnoHead, hshort⟩ := hended hempty
        exact ⟨_, _, rfl, hnoHead, by rw [headReadingError_short hshort, hending]⟩
      · next rest hread =>
        obtain ⟨hempty, -, hending⟩ := Layered.read_empty hcap hread
        obtain ⟨hnoHead, hshort⟩ := hended hempty
        exact ⟨_, _, rfl, hnoHead, by rw [headReadingError_short hshort, hending]⟩
      · next b bs rest hread =>
        obtain ⟨hsplit, hle, hending⟩ := Layered.read_contents hread
        have hlen : (buffer ++ b :: bs).length ≤ maxHeaderBytes := by
          rw [List.length_append]
          omega
        have hless : maxHeaderBytes ≤ (buffer ++ b :: bs).length + fuel := by
          rw [List.length_append, List.length_cons]
          omega
        obtain ⟨result, rest', hrun, hresult⟩ := @readRequestHead_outcome maxHeaderBytes fuel (buffer ++ b :: bs) rest hless hlen
        refine ⟨result, rest', hrun, ?_⟩
        rw [hsplit, ← hending, ← List.append_assoc]
        exact hresult

theorem IsHeadEnd.unique {stream : Bytes} {headLen other : Nat} (h : IsHeadEnd stream headLen)
    (hother : IsHeadEnd stream other) : headLen = other :=
  Option.some.inj ((findRequestHeadLen_iff.mpr h).symm.trans (findRequestHeadLen_iff.mpr hother))

/-- The head of a request is read to its end if that lies within the limit, and nothing behind it is lost. Otherwise the
stream is too long, or ends below the limit. The reads come to an end, also on a stream that does not. -/
theorem readRequestHead_spec (maxHeaderBytes : Nat) :
    (∀ (σ : Type) (read : σ → Nat → Except ErrorKind Bytes × σ) (reader : σ),
      (readRequestHead read maxHeaderBytes maxHeaderBytes [] reader).isSome = true) ∧
    ∀ stream : ClientStream, ∃ result rest,
      readRequestHead Layered.read maxHeaderBytes maxHeaderBytes [] stream = some (result, rest) ∧
      (∀ headLen, (∃ buffer, result = .ok (buffer, headLen)) ↔ IsHeadEnd stream.contents headLen ∧ headLen ≤ maxHeaderBytes) ∧
      (∀ buffer headLen, result = .ok (buffer, headLen) → buffer <+: stream.contents ∧ buffer.length ≤ maxHeaderBytes ∧
        buffer.drop headLen ++ rest.contents = stream.contents.drop headLen) ∧
      ∀ e, result = .error e → e = headReadingError maxHeaderBytes stream.contents stream.ending := by
  refine ⟨fun σ read reader => readRequestHead_isSome (Nat.le_add_left _ _) reader, ?_⟩
  intro stream
  obtain ⟨result, rest, hrun, houtcome⟩ :=
    @readRequestHead_outcome maxHeaderBytes maxHeaderBytes [] stream (Nat.le_add_left _ _) (Nat.zero_le _)
  rw [List.nil_append] at houtcome
  refine ⟨result, rest, hrun, ?_⟩
  cases result with
  | error e =>
    obtain ⟨hnoHead, herror⟩ := houtcome
    refine ⟨?_, ?_, ?_⟩
    · intro headLen
      constructor
      · rintro ⟨buffer, hresult⟩
        cases hresult
      · rintro ⟨hend, hle⟩
        exact absurd hle (Nat.not_le.mpr (hnoHead headLen hend))
    · rintro buffer headLen ⟨⟩
    · rintro e' ⟨⟩
      exact herror
  | ok found =>
    obtain ⟨buffer, headLen⟩ := found
    obtain ⟨hend, hle, hroom, hsplit, -⟩ := houtcome
    refine ⟨?_, ?_, ?_⟩
    · intro other
      constructor
      · rintro ⟨_, ⟨⟩⟩
        exact ⟨hend, Nat.le_trans hle hroom⟩
      · rintro ⟨hother, -⟩
        exact ⟨buffer, by rw [hend.unique hother]⟩
    · rintro _ _ ⟨⟩
      refine ⟨⟨_, hsplit⟩, hroom, ?_⟩
      rw [← hsplit, List.drop_append_of_le_length hle]
    · rintro e ⟨⟩

/-- What `decode` makes of the collected bytes. -/
def collectedHead (collected : Collected UInt8 (Except ExplicitRequestError Nat) ErrorKind) :
    Except ExplicitRequestError (Bytes × Nat) :=
  match collected.halt with
  | .decided decision => decision.map (collected.items, ·)
  | .ended => .error .incompleteRequest
  | .broken source => .error (.io source)

theorem readRequestHead_collect {maxHeaderBytes fuel : Nat} {buffer : Bytes} {stream : ClientStream}
    (hfuel : maxHeaderBytes ≤ buffer.length + fuel) :
    readRequestHead Layered.read maxHeaderBytes fuel buffer stream =
      some (collectedHead ((requestHeadCollector maxHeaderBytes headerReadChunkBytes).collect () buffer stream),
        ((requestHeadCollector maxHeaderBytes headerReadChunkBytes).collect () buffer stream).rest) := by
  have hfuelled : ∀ {items : Bytes} {fuel : Nat}, requestHeadDecision maxHeaderBytes items = none →
      maxHeaderBytes ≤ items.length + fuel → ∃ less, fuel = less + 1 := by
    intro items fuel hnone hfuel
    have hroom := (requestHeadDecision_none hnone).2
    exact Nat.exists_eq_add_one_of_ne_zero (by omega)
  generalize hunit : () = state
  fun_induction Collector.collect (requestHeadCollector maxHeaderBytes headerReadChunkBytes) state buffer stream
    generalizing fuel with
  | case1 state items stream decision hcheck => exact readRequestHead_decided hcheck fuel stream
  | case2 state items stream hcheck e rest hread =>
    obtain ⟨less, rfl⟩ := hfuelled hcheck hfuel
    have hread' : stream.read (min (maxHeaderBytes - items.length) headerReadChunkBytes) = (.error e, rest) := hread
    rw [readRequestHead_undecided hcheck, hread']
    rfl
  | case3 state items stream hcheck rest hread =>
    obtain ⟨less, rfl⟩ := hfuelled hcheck hfuel
    have hread' : stream.read (min (maxHeaderBytes - items.length) headerReadChunkBytes) = (.ok [], rest) := hread
    rw [readRequestHead_undecided hcheck, hread']
    rfl
  | case4 state items stream hcheck b bs rest hread decision hfeed => cases hfeed
  | case5 state items stream hcheck b bs rest hread state' hfeed ih =>
    obtain ⟨less, rfl⟩ := hfuelled hcheck hfuel
    have hread' : stream.read (min (maxHeaderBytes - items.length) headerReadChunkBytes) = (.ok (b :: bs), rest) := hread
    rw [readRequestHead_undecided hcheck, hread']
    refine ih ?_ rfl
    rw [List.length_append, List.length_cons]
    omega

/-- The decoder parses what this reading finds. -/
theorem decodeExplicit_eq (httparse : Httparse) (types : HttpTypes) (maxHeaderBytes : Nat) (stream : ClientStream) :
    ∃ result rest, readRequestHead Layered.read maxHeaderBytes maxHeaderBytes [] stream = some (result, rest) ∧
      decodeExplicit httparse types maxHeaderBytes headerReadChunkBytes stream =
        (result.bind (fun found => parseExplicitRequest httparse types found.1 found.2), rest) := by
  refine ⟨_, _, readRequestHead_collect (Nat.le_add_left _ _), ?_⟩
  unfold decodeExplicit collectedHead
  generalize (requestHeadCollector maxHeaderBytes headerReadChunkBytes).collect () [] stream = collected
  obtain ⟨halt, items, rest⟩ := collected
  cases halt with
  | decided decision => cases decision <;> rfl
  | ended => rfl
  | broken source => rfl

end Stream
end Abyss.Mitm.Explicit
