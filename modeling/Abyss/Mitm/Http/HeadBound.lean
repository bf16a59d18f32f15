import Abyss.Mitm.Http.CanonicalHead

/-! The size limit of an HTTP/1 head. A read is parsed before its size is checked, and reads are not cut to the room
that is left: a head that ends within one read behind the limit is decoded or not as its bytes arrive. -/
namespace Abyss.Mitm.Http
open Abyss.Stream

/-- What a decoding decides: the head and its length, or a rejection. -/
def decision {α : Type} (outcome : Except Http1Error (α × Http1HeadBuffer) × Reader) : Option (α × Nat) :=
  match outcome.1 with
  | .ok (head, headBuffer) => some (head, headBuffer.headLen)
  | .error _ => none

section Bound
variable {α : Type} (parseHead : Incremental UInt8 α Http1Error) (incompleteError : Http1Error)

/-- A stream whose head is decoded in one way however it arrives: one decision, within the limit, and no byte lost. -/
structure FragmentationFree (contents : Bytes) (ending : Option ErrorKind) : Prop where
  agree (reader other : Reader) : reader.contents = contents → reader.ending = ending → other.contents = contents →
    other.ending = ending → decision (readHttp1Head parseHead incompleteError [] reader) =
      decision (readHttp1Head parseHead incompleteError [] other)
  bounded (reader : Reader) (head : α) (headLen : Nat) : reader.contents = contents → reader.ending = ending →
    decision (readHttp1Head parseHead incompleteError [] reader) = some (head, headLen) → headLen ≤ maxHttp1HeaderBytes
  replayed (reader rest : Reader) (head : α) (headBuffer : Http1HeadBuffer) : reader.contents = contents →
    reader.ending = ending → readHttp1Head parseHead incompleteError [] reader = (.ok (head, headBuffer), rest) →
    headBuffer.headBytes ++ headBuffer.bufferedBody ++ rest.contents = contents

variable {parseHead incompleteError}

theorem decision_some {outcome : Except Http1Error (α × Http1HeadBuffer) × Reader} {head : α} {headLen : Nat} :
    decision outcome = some (head, headLen) ↔
      ∃ headBuffer rest, outcome = (.ok (head, headBuffer), rest) ∧ headBuffer.headLen = headLen := by
  obtain ⟨result, rest⟩ := outcome
  cases result with
  | error e => simp [decision]
  | ok decoded =>
    obtain ⟨head', headBuffer⟩ := decoded
    simp only [decision, Option.some.injEq, Prod.mk.injEq, Except.ok.injEq]
    constructor
    · rintro ⟨rfl, rfl⟩
      exact ⟨headBuffer, rest, ⟨⟨rfl, rfl⟩, rfl⟩, rfl⟩
    · rintro ⟨_, _, ⟨⟨rfl, rfl⟩, rfl⟩, rfl⟩
      exact ⟨rfl, rfl⟩

/-- A head ends at most one read behind the limit. -/
theorem readHttp1Head_bound {buffer : Bytes} {reader rest : Reader} {head : α} {headBuffer : Http1HeadBuffer}
    (hroom : buffer.length < maxHttp1HeaderBytes)
    (h : readHttp1Head parseHead incompleteError buffer reader = (.ok (head, headBuffer), rest)) :
    headBuffer.headLen ≤ maxHttp1HeaderBytes + 1023 := by
  fun_induction readHttp1Head parseHead incompleteError buffer reader with
  | case1 => simp at h
  | case2 => simp at h
  | case3 => simp at h
  | case4 buffer reader b bs reader₁ hr value n hp =>
    obtain ⟨-, hcap, -⟩ := Source.read_contents hr
    simp only [Prod.mk.injEq, Except.ok.injEq] at h
    obtain ⟨⟨-, rfl⟩, -⟩ := h
    have hle := parseHead.consumed_le hp
    rw [List.length_append] at hle
    rw [headerReadChunkBytes] at hcap
    change n ≤ _
    omega
  | case5 => simp at h
  | case6 buffer reader b bs reader₁ hr hp hlen ih => exact ih (Nat.lt_of_not_le hlen) h

/-- A decision comes from the parser's answer on the whole stream. -/
theorem complete_of_decision {reader : Reader} {head : α} {headLen : Nat}
    (h : decision (readHttp1Head parseHead incompleteError [] reader) = some (head, headLen)) :
    parseHead.run reader.contents = .complete head headLen ∧ headLen ≤ maxHttp1HeaderBytes + 1023 := by
  obtain ⟨headBuffer, rest, hrun, rfl⟩ := decision_some.mp h
  obtain ⟨hcomplete, hcontents, -⟩ := readHttp1Head_ok _ _ hrun
  rw [List.nil_append] at hcontents
  rw [hcontents]
  exact ⟨parseHead.complete_append _ hcomplete, readHttp1Head_bound (by decide) hrun⟩

end Bound

section Schedules
variable {α : Type} {parseHead : Incremental UInt8 α Http1Error} {incompleteError : Http1Error}
  {buffer : Bytes} {reader : Reader}

/-- Reads of one arrival are whole chunks until it is used up. -/
def Aligned (buffer : Bytes) (reader : Reader) : Prop :=
  reader.arrivals = [] ∨ 1024 ∣ buffer.length ∧ ∃ fragment, reader.arrivals = [fragment]

theorem Aligned.read {rest : Reader} {items : Bytes} (h : Aligned buffer reader)
    (hread : reader.read headerReadChunkBytes = (.ok items, rest)) : Aligned (buffer ++ items) rest := by
  obtain ⟨arrivals, ending⟩ := reader
  rcases h with hnil | ⟨hdvd, fragment, hone⟩
  · change arrivals = [] at hnil
    subst hnil
    cases ending with
    | none =>
      simp only [Source.read, Prod.mk.injEq] at hread
      exact .inl (hread.2 ▸ rfl)
    | some e => simp [Source.read] at hread
  · change arrivals = [fragment] at hone
    subst hone
    simp only [Source.read, Prod.mk.injEq, Except.ok.injEq] at hread
    obtain ⟨rfl, rfl⟩ := hread
    split
    · exact .inl rfl
    · next hmore =>
      have hlong : headerReadChunkBytes < fragment.items.length := by
        by_contra hshort
        exact hmore (List.drop_eq_nil_iff.mpr (Nat.le_of_not_lt hshort))
      refine .inr ⟨?_, _, rfl⟩
      rw [headerReadChunkBytes] at hlong
      rw [List.length_append, List.length_take, headerReadChunkBytes, Nat.min_eq_left (Nat.le_of_lt hlong)]
      exact Nat.dvd_add hdvd (Nat.dvd_refl 1024)

/-- Whole chunks meet the limit exactly, so no head is decoded behind it. -/
theorem readHttp1Head_aligned {rest : Reader} {head : α} {headBuffer : Http1HeadBuffer} (haligned : Aligned buffer reader)
    (hroom : buffer.length < maxHttp1HeaderBytes)
    (h : readHttp1Head parseHead incompleteError buffer reader = (.ok (head, headBuffer), rest)) :
    headBuffer.headLen ≤ maxHttp1HeaderBytes := by
  fun_induction readHttp1Head parseHead incompleteError buffer reader with
  | case1 => simp at h
  | case2 => simp at h
  | case3 => simp at h
  | case4 buffer reader b bs reader₁ hr value n hp =>
    obtain ⟨hcontents, hcap, -⟩ := Source.read_contents hr
    simp only [Prod.mk.injEq, Except.ok.injEq] at h
    obtain ⟨⟨-, rfl⟩, -⟩ := h
    have hle := parseHead.consumed_le hp
    rw [List.length_append] at hle
    rw [headerReadChunkBytes] at hcap
    rcases haligned with hnil | ⟨hdvd, -⟩
    · rw [Source.contents, hnil] at hcontents
      cases hcontents
    · change n ≤ _
      rw [maxHttp1HeaderBytes] at hroom ⊢
      omega
  | case5 => simp at h
  | case6 buffer reader b bs reader₁ hr hp hlen ih => exact ih (haligned.read hr) (Nat.lt_of_not_le hlen) h

/-- Reads that stop one byte in front of the limit, before the last arrival. -/
def Late (buffer : Bytes) (reader : Reader) : Prop :=
  (∃ fragment last, reader.arrivals = [fragment, last] ∧ buffer.length + fragment.items.length + 1 = maxHttp1HeaderBytes) ∨
    ∃ last, reader.arrivals = [last] ∧ buffer.length + 1 = maxHttp1HeaderBytes

theorem Late.read {rest : Reader} {items : Bytes} (h : Late buffer reader)
    (hread : reader.read headerReadChunkBytes = (.ok items, rest)) :
    (buffer ++ items).length < maxHttp1HeaderBytes ∧ Late (buffer ++ items) rest ∨
      buffer.length + 1 = maxHttp1HeaderBytes ∧ items = reader.contents.take headerReadChunkBytes := by
  obtain ⟨arrivals, ending⟩ := reader
  rcases h with ⟨fragment, last, htwo, hlen⟩ | ⟨last, hone, hlen⟩
  · change arrivals = [fragment, last] at htwo
    subst htwo
    simp only [Source.read, Prod.mk.injEq, Except.ok.injEq] at hread
    obtain ⟨rfl, rfl⟩ := hread
    have hle := List.length_take_le' headerReadChunkBytes fragment.items
    refine .inl ⟨by rw [List.length_append]; omega, ?_⟩
    split
    · next hdone =>
      have hall := List.drop_eq_nil_iff.mp hdone
      refine .inr ⟨last, rfl, ?_⟩
      rw [List.length_append, List.take_of_length_le hall]
      exact hlen
    · refine .inl ⟨_, last, rfl, ?_⟩
      simp only [List.length_append, List.length_take, List.length_drop]
      omega
  · change arrivals = [last] at hone
    subst hone
    simp only [Source.read, Prod.mk.injEq, Except.ok.injEq] at hread
    obtain ⟨rfl, -⟩ := hread
    exact .inr ⟨hlen, by simp [Source.contents]⟩

theorem Late.length_lt (h : Late buffer reader) : buffer.length < maxHttp1HeaderBytes := by
  rcases h with ⟨_, _, -, hlen⟩ | ⟨_, -, hlen⟩ <;> omega

/-- The last read may bring a whole chunk behind the limit. -/
theorem readHttp1Head_late {head : α} {n : Nat} (hlate : Late buffer reader)
    (h : parseHead.run (buffer ++ reader.contents) = .complete head n) (hn : n ≤ maxHttp1HeaderBytes + 1023)
    (hmore : maxHttp1HeaderBytes < n) :
    decision (readHttp1Head parseHead incompleteError buffer reader) = some (head, n) := by
  fun_induction readHttp1Head parseHead incompleteError buffer reader with
  | case1 buffer reader source reader₁ hr =>
    rw [(Source.read_error hr).2.1, List.append_nil] at h
    have hle := parseHead.consumed_le h
    have hlt := hlate.length_lt
    omega
  | case2 buffer reader reader₁ hr =>
    rw [(Source.read_empty (by decide) hr).2.1, List.append_nil] at h
    have hle := parseHead.consumed_le h
    have hlt := hlate.length_lt
    omega
  | case3 buffer reader b bs reader₁ hr e hp =>
    rw [(Source.read_contents hr).1, ← List.append_assoc, parseHead.invalid_append _ hp] at h
    cases h
  | case4 buffer reader b bs reader₁ hr value m hp =>
    rw [(Source.read_contents hr).1, ← List.append_assoc, parseHead.complete_append _ hp] at h
    cases h
    rfl
  | case5 buffer reader b bs reader₁ hr hp hlen =>
    rcases hlate.read hr with ⟨hlt, -⟩ | ⟨hbuffer, hitems⟩
    · exact absurd hlt (Nat.not_lt.mpr hlen)
    · -- the chunk holds the rest of the stream, or reaches behind the end of the head
      rw [(Source.read_contents hr).1, ← List.append_assoc] at h
      rw [parseHead.complete_of_append h ?_] at hp
      · cases hp
      · have hle := parseHead.consumed_le h
        have htotal := congrArg List.length (Source.read_contents hr).1
        have hread := congrArg List.length hitems
        simp only [List.length_append, List.length_take, headerReadChunkBytes] at hle htotal hread ⊢
        omega
  | case6 buffer reader b bs reader₁ hr hp hlen ih =>
    rcases hlate.read hr with ⟨-, hnext⟩ | ⟨hbuffer, hitems⟩
    · rw [(Source.read_contents hr).1, ← List.append_assoc] at h
      exact ih hnext h
    · simp only [List.length_append, List.length_cons] at hlen
      omega

end Schedules

section Exact
variable {α : Type} {parseHead : Incremental UInt8 α Http1Error} {incompleteError : Http1Error}
  {contents : Bytes} {ending : Option ErrorKind}

/-- Nothing is decoded before something is read. -/
theorem contents_of_decision {buffer : Bytes} {reader : Reader} {head : α} {n : Nat}
    (h : decision (readHttp1Head parseHead incompleteError buffer reader) = some (head, n)) : reader.contents ≠ [] := by
  fun_induction readHttp1Head parseHead incompleteError buffer reader with
  | case1 => cases h
  | case2 => cases h
  | case3 => cases h
  | case4 buffer reader b bs reader₁ hr value m hp => simp [(Source.read_contents hr).1]
  | case5 => cases h
  | case6 buffer reader b bs reader₁ hr hp hlen ih => simp [(Source.read_contents hr).1]

/-- An answer on the bytes before a read is the answer behind it. -/
theorem decision_of_front {buffer : Bytes} {reader : Reader} {head : α} {n : Nat}
    (h : parseHead.run buffer = .complete head n) (hne : reader.contents ≠ []) :
    decision (readHttp1Head parseHead incompleteError buffer reader) = some (head, n) := by
  fun_induction readHttp1Head parseHead incompleteError buffer reader with
  | case1 buffer reader source reader₁ hr => exact absurd (Source.read_error hr).2.1 hne
  | case2 buffer reader reader₁ hr => exact absurd (Source.read_empty (by decide) hr).2.1 hne
  | case3 buffer reader b bs reader₁ hr e hp =>
    rw [parseHead.complete_append _ h] at hp
    cases hp
  | case4 buffer reader b bs reader₁ hr value m hp =>
    rw [parseHead.complete_append _ h] at hp
    cases hp
    rfl
  | case5 buffer reader b bs reader₁ hr hp hlen =>
    rw [parseHead.complete_append _ h] at hp
    cases hp
  | case6 buffer reader b bs reader₁ hr hp hlen ih =>
    rw [parseHead.complete_append _ h] at hp
    cases hp

/-- A head within the limit is decoded however it arrives. -/
theorem decision_of_complete {reader : Reader} {head : α} {n : Nat} (h : parseHead.run reader.contents = .complete head n)
    (hn : n ≤ maxHttp1HeaderBytes) (hne : reader.contents ≠ []) :
    decision (readHttp1Head parseHead incompleteError [] reader) = some (head, n) := by
  by_cases hzero : n = 0
  · subst hzero
    exact decision_of_front (parseHead.front h) hne
  · obtain ⟨headBuffer, rest, hrun, hlen⟩ :=
      @readHttp1Head_complete _ parseHead incompleteError [] reader head n h hn (Nat.pos_of_ne_zero hzero)
    exact decision_some.mpr ⟨headBuffer, rest, hrun, hlen⟩

/-- Two deliveries of a stream whose head ends within one read behind the limit: cut one byte in front of the limit it
is decoded, in one piece it is rejected. -/
theorem delivery_changes_decision {head : α} {n : Nat} (hrun : parseHead.run contents = .complete head n)
    (hover : maxHttp1HeaderBytes < n) (hn : n ≤ maxHttp1HeaderBytes + 1023) :
    ∃ late whole : Reader, (late.contents = contents ∧ late.ending = ending) ∧
      (whole.contents = contents ∧ whole.ending = ending) ∧
      decision (readHttp1Head parseHead incompleteError [] late) = some (head, n) ∧
      decision (readHttp1Head parseHead incompleteError [] whole) = none := by
  have hlong := Nat.lt_of_lt_of_le hover (parseHead.consumed_le hrun)
  have hne : contents ≠ [] := by
    rintro rfl
    exact Nat.not_lt_zero _ hlong
  have hfront : contents.take (maxHttp1HeaderBytes - 1) ≠ [] := by
    rw [ne_eq, List.take_eq_nil_iff, not_or]
    exact ⟨by decide, hne⟩
  have hback : contents.drop (maxHttp1HeaderBytes - 1) ≠ [] := by
    rw [ne_eq, List.drop_eq_nil_iff, not_le]
    exact Nat.lt_of_le_of_lt (Nat.sub_le _ 1) hlong
  have hcontents : (⟨[⟨_, hfront⟩, ⟨_, hback⟩], ending⟩ : Reader).contents = contents := by simp [Source.contents]
  have hwhole : (⟨[⟨contents, hne⟩], ending⟩ : Reader).contents = contents := by simp [Source.contents]
  refine ⟨_, _, ⟨hcontents, rfl⟩, ⟨hwhole, rfl⟩, ?_, ?_⟩
  · refine readHttp1Head_late (.inl ⟨_, _, rfl, ?_⟩) (by rw [List.nil_append, hcontents, hrun]) hn hover
    rw [List.length_nil, List.length_take, Nat.min_eq_left (Nat.le_of_lt (Nat.lt_of_le_of_lt (Nat.sub_le _ 1) hlong))]
    rfl
  · cases hdecision : decision (readHttp1Head parseHead incompleteError [] ⟨[⟨contents, hne⟩], ending⟩) with
    | none => rfl
    | some decided =>
      obtain ⟨headBuffer, rest, hdecoded, hlen⟩ := decision_some.mp hdecision
      have hbound := readHttp1Head_aligned (.inr ⟨Nat.dvd_zero _, _, rfl⟩) (by decide) hdecoded
      have hcomplete := (complete_of_decision hdecision).1
      rw [hwhole, hrun] at hcomplete
      obtain ⟨-, rfl⟩ := Answer.complete.inj hcomplete
      rw [hlen] at hbound
      exact absurd hbound (Nat.not_le.mpr hover)

/-- A stream is decoded in one way exactly when its head does not end within the first 1023 bytes behind the limit. -/
theorem fragmentationFree_iff : FragmentationFree parseHead incompleteError contents ending ↔
    ¬ ∃ head n, parseHead.run contents = .complete head n ∧ maxHttp1HeaderBytes < n ∧ n ≤ maxHttp1HeaderBytes + 1023 := by
  constructor
  · rintro hfree ⟨head, n, hrun, hover, hn⟩
    obtain ⟨late, whole, ⟨hlate, hlateEnd⟩, ⟨hwhole, hwholeEnd⟩, hdecoded, hrejected⟩ :=
      @delivery_changes_decision α parseHead incompleteError contents ending head n hrun hover hn
    have hagree := hfree.agree late whole hlate hlateEnd hwhole hwholeEnd
    rw [hdecoded, hrejected] at hagree
    cases hagree
  · intro hnone
    have hiff : ∀ reader : Reader, reader.contents = contents → ∀ head n,
        decision (readHttp1Head parseHead incompleteError [] reader) = some (head, n) ↔
          parseHead.run contents = .complete head n ∧ n ≤ maxHttp1HeaderBytes ∧ contents ≠ [] := by
      rintro reader rfl head n
      constructor
      · intro hdecided
        obtain ⟨hrun, hn⟩ := complete_of_decision hdecided
        refine ⟨hrun, ?_, contents_of_decision hdecided⟩
        by_contra hover
        exact hnone ⟨head, n, hrun, Nat.lt_of_not_le hover, hn⟩
      · rintro ⟨hrun, hn, hne⟩
        exact decision_of_complete hrun hn hne
    refine ⟨?_, ?_, ?_⟩
    · intro reader other hreader _ hother _
      refine Option.ext ?_
      rintro ⟨head, n⟩
      rw [hiff reader hreader, hiff other hother]
    · intro reader head n hreader _ hdecided
      exact ((hiff reader hreader head n).mp hdecided).2.1
    · intro reader rest head headBuffer hreader _ hrun
      obtain ⟨-, hcontents, -⟩ := readHttp1Head_ok _ _ hrun
      rw [headBuffer.parts, ← hreader, ← hcontents, List.nil_append]

/-- A request with one field. -/
def fieldRequest (value : Bytes) : Bytes := requestHeadText (ascii "GET") (ascii "/") [⟨ascii "A", value⟩]

private theorem fieldRequest_length (value : Bytes) : (fieldRequest value).length = value.length + 23 := by
  have hmethod : (ascii "GET").length = 3 := rfl
  have hspace : (ascii " ").length = 1 := rfl
  have htarget : (ascii "/").length = 1 := rfl
  have hversion : (ascii " HTTP/1.1\r\n").length = 11 := rfl
  have hname : (ascii "A").length = 1 := rfl
  have hcolon : (ascii ": ").length = 2 := rfl
  have hcrlf : crlf.length = 2 := rfl
  simp only [fieldRequest, requestHeadText, fieldSection, fieldLine, List.flatMap_cons, List.flatMap_nil, List.append_nil,
    List.length_append, hmethod, hspace, htarget, hversion, hname, hcolon, hcrlf]
  omega

private theorem fieldRequest_complete {value : Bytes} (hvalue : IsFieldValue value) :
    ∃ request, (parseRequestHead ⟨canonicalRequest, plainHttparse.response⟩ canonicalTypes).run (fieldRequest value) =
      .complete request (fieldRequest value).length := by
  have hname : IsToken (ascii "A") := by decide +kernel
  have hraw := (canonicalRequest_laws plainHttparse.response).canonical [] (by decide +kernel : IsToken (ascii "GET"))
    (by decide +kernel : IsTarget (ascii "/")) (List.forall_mem_singleton.mpr (show IsField ⟨_, value⟩ from ⟨hname, hvalue⟩))
    (by simp)
  rw [List.append_nil] at hraw
  have hrequest : requestFromRaw canonicalTypes ⟨some (ascii "GET"), some (ascii "/"), some 1, [⟨ascii "A", value⟩]⟩ =
      .ok ⟨ascii "GET", ⟨none, none, some ⟨ascii "/", ascii "/"⟩, ascii "/"⟩, .http11, ⟨[(ascii "a", value)]⟩⟩ := by
    have hmethod : canonicalTypes.methodFromBytes (ascii "GET") = some (ascii "GET") := by decide +kernel
    have huri : canonicalTypes.uriTryFrom (ascii "/") = some ⟨none, none, some ⟨ascii "/", ascii "/"⟩, ascii "/"⟩ := by
      decide
    refine requestFromRaw_ok.mpr ⟨_, _, _, rfl, hmethod, rfl, huri, rfl, rfl, ?_⟩
    simp only [appendHeaders, canonicalTypes_laws.headerValue hvalue,
      (by decide +kernel : canonicalTypes.headerNameFromBytes (ascii "A") = some (ascii "a"))]
    rfl
  exact ⟨_, Incremental.complete_tryMap _ hraw hrequest⟩

/-- A head of 23 bytes more than the limit is decoded or rejected as it arrives. -/
theorem long_head_depends_on_delivery :
    ¬ ∀ (httparse : Httparse) (types : HttpTypes) (contents : Bytes) (ending : Option ErrorKind),
      FragmentationFree (parseRequestHead httparse types) .incompleteRequest contents ending := by
  intro h
  have hvalue : IsFieldValue (List.replicate maxHttp1HeaderBytes 97) := by
    refine ⟨?_, ?_, ?_⟩
    · intro b hb
      rw [List.eq_of_mem_replicate hb]
      exact .inr (by decide)
    · rw [maxHttp1HeaderBytes, List.head?_replicate]
      rfl
    · rw [maxHttp1HeaderBytes, List.getLast?_replicate]
      rfl
  have hlen := fieldRequest_length (List.replicate maxHttp1HeaderBytes 97)
  rw [List.length_replicate] at hlen
  obtain ⟨request, hrun⟩ := fieldRequest_complete hvalue
  obtain ⟨late, whole, ⟨hlate, hlateEnd⟩, ⟨hwhole, hwholeEnd⟩, hdecoded, hrejected⟩ :=
    @delivery_changes_decision _ _ .incompleteRequest _ none _ _ hrun (by omega) (by omega)
  have hagree := (h ⟨canonicalRequest, plainHttparse.response⟩ canonicalTypes _ none).agree late whole
    hlate hlateEnd hwhole hwholeEnd
  rw [hdecoded, hrejected] at hagree
  cases hagree

end Exact
end Abyss.Mitm.Http
