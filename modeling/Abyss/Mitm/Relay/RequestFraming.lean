import Abyss.Mitm.Http.CanonicalHead
import Abyss.Mitm.Relay.Containment

/-! Framing of forwarded requests. The origin reads the framing fields of a head
under RFC 9112; the relay reads them with its own helpers. The two agree exactly
on the heads singled out here. -/
namespace Abyss.Mitm.Relay
open Abyss.Stream Abyss.Text Abyss.Mitm.Http

def transferEncodings (headers : HeaderMap) : List HeaderValue := headers.getAll (ascii "transfer-encoding")

def contentLengths (headers : HeaderMap) : List HeaderValue := headers.getAll (ascii "content-length")

/-- Optional whitespace of a list element. -/
def isOws (b : UInt8) : Bool := b == 32 || b == 9

/-- The last nonempty element of a field that is a comma-separated list. -/
def finalCoding (values : List HeaderValue) : Option Bytes :=
  ((values.flatMap (·.splitOn 44)).map (fun item => (item.dropWhile isOws).rdropWhile isOws)).reverse.find? (· ≠ [])

/-- The final transfer coding is `chunked`, in any case. -/
def FinallyChunked (values : List HeaderValue) : Prop :=
  (finalCoding values).map (List.map asciiLower) = some (ascii "chunked")

instance (values : List HeaderValue) : Decidable (FinallyChunked values) := inferInstanceAs (Decidable (_ = _))

def isDigits (value : HeaderValue) : Bool := value ≠ [] && value.all (fun b => 48 ≤ b && b ≤ 57)

/-- The number a digit string stands for. -/
def digitsValue (value : HeaderValue) : Nat := decimal (value.map byteChar)

/-- A head with at most one framing interpretation under RFC 9112. -/
structure Unambiguous (headers : HeaderMap) : Prop where
  single : transferEncodings headers = [] ∨ contentLengths headers = []
  finallyChunked : transferEncodings headers ≠ [] → FinallyChunked (transferEncodings headers)
  digits : ∀ value ∈ contentLengths headers, isDigits value = true

/-- The framings an origin can read from a request head: chunked where that is the final transfer coding,
a declared length, and no body where neither field is present. -/
def OriginChooses (headers : HeaderMap) : BodyFraming → Prop
  | .chunked => FinallyChunked (transferEncodings headers)
  | .contentLength length => ∃ value ∈ contentLengths headers, isDigits value = true ∧ digitsValue value = length
  | .empty => transferEncodings headers = [] ∧ contentLengths headers = []
  | .untilEof => False

/-- The header fields of the head that is written upstream. -/
def forwardedHeaders (request : Request) (framing : BodyFraming) : HeaderMap :=
  if handleExpectContinue request framing then
    ⟨request.headers.iter.filter (fun entry => entry.1 != ascii "expect")⟩
  else request.headers

/-- What framing of the transparent path is meant to guarantee: a head that is forwarded is unambiguous and
the relay reads it as the origin does, and any other head is rejected before a byte is written. -/
structure FramingSafe (parser : ChunkSizeParser) (client : Duplex) (upstream : Writer) (request : Request)
    (headBuffer : Http1HeadBuffer) (maxBodyBytes : Nat) : Prop where
  forwarded : ∀ framing head, requestBodyFraming request = .ok framing →
    requestHeadForRelay request headBuffer (handleExpectContinue request framing) = .ok head →
    Unambiguous (forwardedHeaders request framing) ∧
      ∀ choice, OriginChooses (forwardedHeaders request framing) choice ↔ choice = framing
  rejected : ¬ Unambiguous request.headers →
    (forwardRequest parser client upstream request headBuffer maxBodyBytes).2.2 = upstream

section Headers

theorem eraseDups_nodup (names : List HeaderName) : names.eraseDups.Nodup := by
  induction hlen : names.length using Nat.strong_induction_on generalizing names with
  | _ n ih =>
    cases names with
    | nil => exact List.nodup_nil
    | cons name rest =>
      rw [List.eraseDups_cons]
      refine List.nodup_cons.mpr ⟨?_, ?_⟩
      · rw [List.mem_eraseDups, List.mem_filter]
        simp
      · refine ih _ ?_ _ rfl
        rw [← hlen, List.length_cons]
        exact Nat.lt_succ_of_le (List.length_filter_le ..)

private theorem getAll_of_names (headers : HeaderMap) (name : HeaderName) {names : List HeaderName}
    (hnodup : names.Nodup) (hmem : name ∈ names ∨ headers.getAll name = []) :
    ((names.flatMap (fun n => (headers.getAll n).map (n, ·))).filter (fun entry => entry.1 == name)).map Prod.snd =
      headers.getAll name := by
  induction names with
  | nil =>
    rcases hmem with hmem | hnone
    · cases hmem
    · exact hnone.symm
  | cons n rest ih =>
    obtain ⟨hn, hrest⟩ := List.nodup_cons.mp hnodup
    rw [List.flatMap_cons, List.filter_append, List.map_append]
    by_cases hsame : n = name
    · subst hsame
      have hfirst : (((headers.getAll n).map (n, ·)).filter (fun entry => entry.1 == n)).map Prod.snd =
          headers.getAll n := by
        rw [List.filter_eq_self.mpr (by simp), List.map_map]
        exact List.map_id _
      have hothers : ((rest.flatMap (fun m => (headers.getAll m).map (m, ·))).filter
          (fun entry => entry.1 == n)) = [] := by
        refine List.filter_eq_nil_iff.mpr ?_
        intro entry hentry
        obtain ⟨m, hm, hentry⟩ := List.mem_flatMap.mp hentry
        obtain ⟨value, -, rfl⟩ := List.mem_map.mp hentry
        simp only [beq_iff_eq]
        rintro rfl
        exact hn hm
      rw [hfirst, hothers, List.map_nil, List.append_nil]
    · have hfirst : ((headers.getAll n).map (n, ·)).filter (fun entry => entry.1 == name) = [] := by
        refine List.filter_eq_nil_iff.mpr ?_
        intro entry hentry
        obtain ⟨value, -, rfl⟩ := List.mem_map.mp hentry
        simpa using hsame
      rw [hfirst, List.map_nil, List.nil_append]
      refine ih hrest ?_
      rcases hmem with hmem | hnone
      · exact .inl ((List.mem_cons.mp hmem).resolve_left (Ne.symm hsame))
      · exact .inr hnone

/-- Iteration keeps the values of every name. -/
theorem getAll_iter (headers : HeaderMap) (name : HeaderName) :
    HeaderMap.getAll ⟨headers.iter⟩ name = headers.getAll name := by
  refine getAll_of_names headers name (eraseDups_nodup _) ?_
  by_cases hmem : name ∈ headers.entries.map Prod.fst
  · exact .inl (List.mem_eraseDups.mpr hmem)
  · refine .inr ?_
    rw [HeaderMap.getAll, List.map_eq_nil_iff, List.filter_eq_nil_iff]
    intro entry hentry
    simp only [beq_iff_eq]
    rintro rfl
    exact hmem (List.mem_map_of_mem hentry)

/-- Leaving out other names keeps the values of a name. -/
theorem getAll_iter_filter (headers : HeaderMap) {name : HeaderName} {keep : HeaderName → Bool} (hkeep : keep name = true) :
    HeaderMap.getAll ⟨headers.iter.filter (fun entry => keep entry.1)⟩ name = headers.getAll name := by
  rw [← getAll_iter headers name, HeaderMap.getAll, HeaderMap.getAll, List.filter_filter]
  congr 1
  refine List.filter_congr ?_
  intro entry _
  by_cases h : entry.1 = name
  · simp [h, hkeep]
  · simp [h]

/-- Dropping the expectation keeps every other field. -/
theorem getAll_forwardedHeaders (request : Request) (framing : BodyFraming) {name : HeaderName}
    (hname : name ≠ ascii "expect") : (forwardedHeaders request framing).getAll name = request.headers.getAll name := by
  unfold forwardedHeaders
  split
  · exact @getAll_iter_filter request.headers name (· != ascii "expect") (bne_iff_ne.mpr hname)
  · rfl

theorem unambiguous_forwardedHeaders (request : Request) (framing : BodyFraming) :
    Unambiguous (forwardedHeaders request framing) ↔ Unambiguous request.headers := by
  have hte : transferEncodings (forwardedHeaders request framing) = transferEncodings request.headers :=
    getAll_forwardedHeaders request framing (by decide)
  have hcl : contentLengths (forwardedHeaders request framing) = contentLengths request.headers :=
    getAll_forwardedHeaders request framing (by decide)
  constructor
  · intro h
    exact ⟨hte ▸ hcl ▸ h.single, hte ▸ h.finallyChunked, hcl ▸ h.digits⟩
  · intro h
    exact ⟨hte ▸ hcl ▸ h.single, hte ▸ h.finallyChunked, hcl ▸ h.digits⟩

theorem originChooses_forwardedHeaders (request : Request) (framing choice : BodyFraming) :
    OriginChooses (forwardedHeaders request framing) choice ↔ OriginChooses request.headers choice := by
  have hte : transferEncodings (forwardedHeaders request framing) = transferEncodings request.headers :=
    getAll_forwardedHeaders request framing (by decide)
  have hcl : contentLengths (forwardedHeaders request framing) = contentLengths request.headers :=
    getAll_forwardedHeaders request framing (by decide)
  cases choice <;> simp only [OriginChooses, hte, hcl]

end Headers

section Lengths

/-- A value that the relay parses is a digit string, but for a plus sign in front. -/
theorem parseContentLengthValue_ok {value : HeaderValue} {length : Nat}
    (h : parseContentLengthValue value = .ok length) (hplus : value.head? ≠ some 43) :
    isDigits value = true ∧ digitsValue value = length := by
  have hparsed : parseUnsigned u64Bound (value.map byteChar) = some length := by
    simp only [parseContentLengthValue, toStr] at h
    split at h
    · next n hn =>
      cases h
      split at hn
      · exact hn
      · cases hn
    · cases h
  have hsign : (value.map byteChar).head? ≠ some '+' := by
    cases value with
    | nil => simp
    | cons b rest =>
      intro hhead
      have hb := (byteChar_eq_plus b).mp (Option.some.inj hhead)
      exact hplus (congrArg some hb)
  obtain ⟨hne, hdigits, hvalue, -⟩ := parseUnsigned_some hparsed hsign
  refine ⟨?_, hvalue⟩
  rw [List.all_map] at hdigits
  simp only [isDigits, Bool.and_eq_true, decide_eq_true_eq]
  refine ⟨fun hnil => hne (by rw [hnil]; rfl), ?_⟩
  rw [← hdigits]
  congr 1
  funext b
  exact (byteChar_isDigit b).symm

theorem isDigits_head {value : HeaderValue} (h : isDigits value = true) : value.head? ≠ some 43 := by
  cases value with
  | nil => simp
  | cons b rest =>
    intro hhead
    obtain rfl : b = 43 := Option.some.inj hhead
    simp [isDigits] at h

/-- Values that agree with a length all parse to it. -/
theorem agreeingLengths_ok {first : Nat} {values : List HeaderValue} (h : agreeingLengths first values = .ok ())
    {value : HeaderValue} (hmem : value ∈ values) : parseContentLengthValue value = .ok first := by
  induction values with
  | nil => cases hmem
  | cons v rest ih =>
    simp only [agreeingLengths, bind, Except.bind] at h
    split at h
    · cases h
    · next n hn =>
      split at h
      · cases h
      · next hsame =>
        rcases List.mem_cons.mp hmem with rfl | hmem
        · rw [hn, not_ne_iff.mp hsame]
        · exact ih h hmem

theorem contentLength_none {headers : HeaderMap} (h : contentLength headers = .ok none) :
    contentLengths headers = [] := by
  unfold contentLength at h
  split at h
  · next hnil => exact hnil
  · simp only [bind, Except.bind] at h
    split at h
    · cases h
    · split at h <;> cases h

theorem contentLength_some {headers : HeaderMap} {length : Nat} (h : contentLength headers = .ok (some length)) :
    contentLengths headers ≠ [] ∧ ∀ value ∈ contentLengths headers, parseContentLengthValue value = .ok length := by
  unfold contentLength at h
  split at h
  · cases h
  · next firstValue values hvalues =>
    simp only [bind, Except.bind] at h
    split at h
    · cases h
    · next first hfirst =>
      split at h
      · cases h
      · next hagree =>
        cases h
        have hall : contentLengths headers = firstValue :: values := hvalues
        rw [hall]
        refine ⟨List.cons_ne_nil firstValue values, ?_⟩
        intro value hmem
        rcases List.mem_cons.mp hmem with rfl | hmem
        · exact hfirst
        · exact agreeingLengths_ok hagree hmem

end Lengths

section Framing
variable {request : Request}

theorem isChunked_nil {headers : HeaderMap} (h : transferEncodings headers = []) : isChunked headers = false := by
  have hnil : headers.getAll (ascii "transfer-encoding") = [] := h
  simp [isChunked, hnil]

/-- The framing the relay selects, by what its helpers say. -/
theorem requestBodyFraming_ok {framing : BodyFraming} (h : requestBodyFraming request = .ok framing) :
    (isChunked request.headers = true ∧ framing = .chunked) ∨
    (isChunked request.headers = false ∧ contentLength request.headers = .ok none ∧ framing = .empty) ∨
    (∃ length, isChunked request.headers = false ∧ contentLength request.headers = .ok (some length) ∧
      framing = .contentLength length) := by
  unfold requestBodyFraming at h
  split at h
  · next hchunked =>
    cases h
    exact .inl ⟨hchunked, rfl⟩
  · next hchunked =>
    rw [Bool.not_eq_true] at hchunked
    cases hlength : contentLength request.headers with
    | error e => simp [hlength, bind, Except.bind] at h
    | ok length =>
      cases length with
      | none =>
        simp only [hlength, bind, Except.bind, pure, Except.pure, Except.ok.injEq] at h
        exact .inr (.inl ⟨hchunked, rfl, h.symm⟩)
      | some length =>
        simp only [hlength, bind, Except.bind, pure, Except.pure, Except.ok.injEq] at h
        exact .inr (.inr ⟨length, hchunked, rfl, h.symm⟩)

theorem requestBodyFraming_error {e : Http1Error} (hchunked : isChunked request.headers = false)
    (hlength : contentLength request.headers = .error e) : requestBodyFraming request = .error e := by
  simp only [requestBodyFraming, hchunked, Bool.false_eq_true, if_false, hlength, bind, Except.bind]

/-- The head of a decoded request can always be serialized again. -/
theorem requestHeadForRelay_decoded {httparse : Httparse} {types : HttpTypes} {headBuffer : Http1HeadBuffer}
    (hdecoded : (parseRequestHead httparse types).run headBuffer.bytes = .complete request headBuffer.headLen)
    (stripExpectContinue : Bool) : ∃ head, requestHeadForRelay request headBuffer stripExpectContinue = .ok head := by
  obtain ⟨raw, -, hraw⟩ := Incremental.tryMap_complete _ hdecoded
  obtain ⟨-, -, number, -, -, -, -, -, hversion, -⟩ := requestFromRaw_ok.mp hraw
  have htoken : ∃ token, requestVersionToken request.version = .ok token := by
    match number with
    | 0 =>
      rw [← (Except.ok.inj hversion : Version.http10 = request.version)]
      exact ⟨_, rfl⟩
    | 1 =>
      rw [← (Except.ok.inj hversion : Version.http11 = request.version)]
      exact ⟨_, rfl⟩
    | n + 2 => cases hversion
  obtain ⟨token, htoken⟩ := htoken
  cases stripExpectContinue with
  | false => exact ⟨_, rfl⟩
  | true =>
    simp only [requestHeadForRelay, if_true, httpRequestHeadWithoutRelayHeaders, requestHeadBytesExcluding, htoken, bind,
      Except.bind, pure, Except.pure]
    exact ⟨_, rfl⟩

/-- A head without transfer codings is read as the origin reads it, unless a length has a sign. -/
theorem agrees_without_codings {framing : BodyFraming} (hte : transferEncodings request.headers = [])
    (hplus : ∀ value ∈ contentLengths request.headers, value.head? ≠ some 43)
    (h : requestBodyFraming request = .ok framing) :
    Unambiguous request.headers ∧ ∀ choice, OriginChooses request.headers choice ↔ choice = framing := by
  have hnot : ¬ FinallyChunked (transferEncodings request.headers) := by
    rw [hte]
    decide
  rcases requestBodyFraming_ok h with ⟨hchunked, -⟩ | ⟨-, hlength, rfl⟩ | ⟨length, -, hlength, rfl⟩
  · rw [isChunked_nil hte] at hchunked
    cases hchunked
  · have hcl := contentLength_none hlength
    refine ⟨⟨.inl hte, fun hne => absurd hte hne, by simp [hcl]⟩, ?_⟩
    intro choice
    cases choice with
    | empty => simp [OriginChooses, hte, hcl]
    | contentLength n => simp [OriginChooses, hcl]
    | chunked => simpa [OriginChooses] using hnot
    | untilEof => simp [OriginChooses]
  · obtain ⟨hne, hall⟩ := contentLength_some hlength
    have hdigits : ∀ value ∈ contentLengths request.headers, isDigits value = true ∧ digitsValue value = length :=
      fun value hmem => parseContentLengthValue_ok (hall value hmem) (hplus value hmem)
    refine ⟨⟨.inl hte, fun hne => absurd hte hne, fun value hmem => (hdigits value hmem).1⟩, ?_⟩
    intro choice
    cases choice with
    | empty => simp [OriginChooses, hne]
    | contentLength n =>
      simp only [OriginChooses, BodyFraming.contentLength.injEq]
      constructor
      · rintro ⟨value, hmem, -, rfl⟩
        exact (hdigits value hmem).2
      · rintro rfl
        obtain ⟨value, hmem⟩ := List.exists_mem_of_ne_nil _ hne
        exact ⟨value, hmem, hdigits value hmem⟩
    | chunked => simpa [OriginChooses] using hnot
    | untilEof => simp [OriginChooses]

/-- A head whose final transfer coding is `chunked` for both readers, and without a length, is read alike. -/
theorem agrees_on_chunked {framing : BodyFraming} (hchunked : isChunked request.headers = true)
    (hfinal : FinallyChunked (transferEncodings request.headers)) (hcl : contentLengths request.headers = [])
    (h : requestBodyFraming request = .ok framing) :
    Unambiguous request.headers ∧ ∀ choice, OriginChooses request.headers choice ↔ choice = framing := by
  have hte : transferEncodings request.headers ≠ [] := by
    intro hnil
    rw [isChunked_nil hnil] at hchunked
    cases hchunked
  obtain rfl : framing = .chunked := by
    rcases requestBodyFraming_ok h with ⟨-, rfl⟩ | ⟨hnot, -⟩ | ⟨_, hnot, -⟩
    · rfl
    · rw [hchunked] at hnot
      cases hnot
    · rw [hchunked] at hnot
      cases hnot
  refine ⟨⟨.inr hcl, fun _ => hfinal, by simp [hcl]⟩, ?_⟩
  intro choice
  cases choice with
  | empty => simp [OriginChooses, hte]
  | contentLength n => simp [OriginChooses, hcl]
  | chunked => simpa [OriginChooses] using hfinal
  | untilEof => simp [OriginChooses]

/-- Only such heads are read alike. -/
theorem agrees_cases {framing : BodyFraming} (h : requestBodyFraming request = .ok framing)
    (hun : Unambiguous request.headers) (hagree : ∀ choice, OriginChooses request.headers choice ↔ choice = framing) :
    (transferEncodings request.headers = [] ∧ ∀ value ∈ contentLengths request.headers, value.head? ≠ some 43) ∨
    (isChunked request.headers = true ∧ FinallyChunked (transferEncodings request.headers) ∧
      contentLengths request.headers = []) := by
  by_cases hte : transferEncodings request.headers = []
  · exact .inl ⟨hte, fun value hmem => isDigits_head (hun.digits value hmem)⟩
  · have hfinal := hun.finallyChunked hte
    obtain rfl : BodyFraming.chunked = framing := (hagree .chunked).mp hfinal
    rcases requestBodyFraming_ok h with ⟨hchunked, -⟩ | ⟨-, -, hne⟩ | ⟨_, -, -, hne⟩
    · exact .inr ⟨hchunked, hfinal, hun.single.resolve_left hte⟩
    · cases hne
    · cases hne

end Framing

/-- Framing of a decoded request is safe exactly where no transfer coding is declared and no length has a plus
sign, or `chunked` is the final transfer coding for both readers and no length is declared, or the
relay rejects the lengths. -/
theorem framingSafe_iff (httparse : Httparse) (types : HttpTypes) (parser : ChunkSizeParser) (client : Duplex)
    (upstream : Writer) (request : Request) (headBuffer : Http1HeadBuffer) (maxBodyBytes : Nat)
    (hdecoded : (parseRequestHead httparse types).run headBuffer.bytes = .complete request headBuffer.headLen) :
    FramingSafe parser client upstream request headBuffer maxBodyBytes ↔
      (transferEncodings request.headers = [] ∧ ∀ value ∈ contentLengths request.headers, value.head? ≠ some 43) ∨
      (isChunked request.headers = true ∧ FinallyChunked (transferEncodings request.headers) ∧
        contentLengths request.headers = []) ∨
      (isChunked request.headers = false ∧ ∃ e, contentLength request.headers = .error e) := by
  constructor
  · intro hsafe
    cases hframing : requestBodyFraming request with
    | ok framing =>
      obtain ⟨head, hhead⟩ := requestHeadForRelay_decoded hdecoded (handleExpectContinue request framing)
      obtain ⟨hun, hagree⟩ := hsafe.forwarded framing head hframing hhead
      rw [unambiguous_forwardedHeaders] at hun
      simp only [originChooses_forwardedHeaders] at hagree
      rcases agrees_cases hframing hun hagree with h | h
      · exact .inl h
      · exact .inr (.inl h)
    | error e =>
      refine .inr (.inr ?_)
      unfold requestBodyFraming at hframing
      split at hframing
      · cases hframing
      · next hchunked =>
        refine ⟨by simpa using hchunked, ?_⟩
        cases hlength : contentLength request.headers with
        | error e' => exact ⟨e', rfl⟩
        | ok length => cases length <;> simp [hlength, bind, Except.bind, pure, Except.pure] at hframing
  · intro hcond
    have hforwarded : ∀ framing, requestBodyFraming request = .ok framing →
        Unambiguous request.headers ∧ ∀ choice, OriginChooses request.headers choice ↔ choice = framing := by
      intro framing hframing
      rcases hcond with ⟨hte, hplus⟩ | ⟨hchunked, hfinal, hcl⟩ | ⟨hchunked, e, hlength⟩
      · exact agrees_without_codings hte hplus hframing
      · exact agrees_on_chunked hchunked hfinal hcl hframing
      · rw [requestBodyFraming_error hchunked hlength] at hframing
        cases hframing
    refine ⟨?_, ?_⟩
    · intro framing head hframing _
      obtain ⟨hun, hagree⟩ := hforwarded framing hframing
      refine ⟨(unambiguous_forwardedHeaders request framing).mpr hun, fun choice => ?_⟩
      rw [originChooses_forwardedHeaders]
      exact hagree choice
    · intro hambiguous
      refine forwardRequest_refused ?_ client upstream maxBodyBytes
      intro framing head hframing _
      exact hambiguous (hforwarded framing hframing).1

theorem framingSafe_get : FramingSafe plainSizeParser pipelinedGet.stream willingWriter getRequest
    pipelinedGet.requestHeadBuffer 16 :=
  (framingSafe_iff plainHttparse originTypes plainSizeParser pipelinedGet.stream willingWriter getRequest
    pipelinedGet.requestHeadBuffer 16 (by decide)).mpr (.inl ⟨by decide, by decide⟩)

/-- A request with both framing fields. -/
def ambiguousRequest : Request :=
  ⟨ascii "POST", ⟨none, none, some ⟨ascii "/", ascii "/"⟩, ascii "/"⟩, .http11,
    ⟨[(ascii "transfer-encoding", ascii "chunked"), (ascii "content-length", ascii "5")]⟩⟩

def ambiguousHead : Http1HeadBuffer :=
  ⟨ascii "POST / HTTP/1.1\r\nTransfer-Encoding: chunked\r\nContent-Length: 5\r\n\r\n0\r\n\r\n", 66, by decide⟩

/-- A decoded head with both framing fields is written upstream. -/
theorem ambiguous_head_forwarded :
    (parseRequestHead plainHttparse originTypes).run ambiguousHead.bytes =
      .complete ambiguousRequest ambiguousHead.headLen ∧
    (forwardRequest plainSizeParser ⟨endedReader, willingWriter⟩ willingWriter ambiguousRequest ambiguousHead
      16).2.2.accepted = ambiguousHead.bytes ∧
    ¬ FramingSafe plainSizeParser ⟨endedReader, willingWriter⟩ willingWriter ambiguousRequest ambiguousHead 16 := by
  have hwritten : (forwardRequest plainSizeParser ⟨endedReader, willingWriter⟩ willingWriter ambiguousRequest
      ambiguousHead 16).2.2.accepted = ambiguousHead.bytes := by decide +kernel
  refine ⟨by decide, hwritten, ?_⟩
  intro hsafe
  have hambiguous : ¬ Unambiguous ambiguousRequest.headers := by
    intro hun
    rcases hun.single with hte | hcl
    · exact absurd hte (by decide)
    · exact absurd hcl (by decide)
  rw [hsafe.rejected hambiguous] at hwritten
  exact absurd hwritten (by decide)

end Abyss.Mitm.Relay
