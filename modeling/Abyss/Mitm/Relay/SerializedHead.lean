import Abyss.Mitm.Explicit.Replay
import Abyss.Mitm.Relay.ForwardedHead

/-! Request heads that the relay writes again: the origin parses the same request, less the
field that was left out and with the original path and query for its target. -/
namespace Abyss.Mitm.Relay
open Abyss.Stream Abyss.Text Abyss.Mitm.Http Abyss.Mitm.Explicit

/-- The version in a request line. -/
def versionText (number : Nat) : Bytes := if number = 0 then ascii "HTTP/1.0" else ascii "HTTP/1.1"

/-- A canonical request head of either version. -/
def versionedHead (method target : Bytes) (number : Nat) (headers : List RawHeader) : Bytes :=
  method ++ ascii " " ++ target ++ ascii " " ++ versionText number ++ crlf ++ fieldSection headers

/-- A URI without scheme and authority. -/
def originUri (target : Bytes) : Uri := ⟨none, none, some ⟨target, target⟩, target⟩

/-- What the relay relies on when its peer parses a head that it has written: canonical heads of both versions are
reported as their parts, methods are kept as they are, and the display of a path and query is a URI of just these. -/
structure SerializedHeadLaws (httparse : Httparse) (types : HttpTypes) : Prop where
  parser : HttparseLaws httparse
  parts : HttpTypesLaws types
  versioned {method target : Bytes} {number : Nat} {headers : List RawHeader} : number ≤ 1 → IsToken method → IsTarget target →
    (∀ header ∈ headers, IsField header) → headers.length ≤ 64 →
    httparse.request.run (versionedHead method target number headers) =
      .complete ⟨some method, some target, some number, headers⟩ (versionedHead method target number headers).length
  method {bytes : Bytes} {method : Method} : types.methodFromBytes bytes = some method → method = bytes
  display {bytes : Bytes} {uri : Uri} {value : PathAndQuery} : IsTarget bytes → types.uriTryFrom bytes = some uri →
    uri.pathAndQuery = some value → IsTarget value.display ∧ types.uriTryFrom value.display = some (originUri value.display)

/-- The head is parsed, to its end, as the same request without the field `excluded`. -/
structure SameRequest (httparse : Httparse) (types : HttpTypes) (request : Request) (excluded : HeaderName) (head : Bytes)
    (again : Request) : Prop where
  parsed : (parseRequestHead httparse types).run head = .complete again head.length
  method : again.method = request.method
  version : again.version = request.version
  scheme : again.uri.scheme = none ∧ again.uri.authority = none
  target : again.uri.pathAndQuery.map PathAndQuery.display = request.uri.pathAndQuery.map PathAndQuery.display
  headers : ∀ name, again.headers.getAll name = if name = excluded then [] else request.headers.getAll name
  framing : requestBodyFraming again = requestBodyFraming request

section Fields

theorem asciiLower_idem (b : UInt8) : asciiLower (asciiLower b) = asciiLower b := by
  unfold asciiLower
  split
  · next h =>
    simp only [UInt8.le_iff_toNat_le, UInt8.reduceToNat] at h
    rw [if_neg]
    simp only [UInt8.le_iff_toNat_le, UInt8.toNat_add, UInt8.reduceToNat]
    omega
  · rfl

theorem isTchar_asciiLower {b : UInt8} (h : isTchar b = true) : isTchar (asciiLower b) = true := by
  unfold asciiLower
  split
  · next hupper =>
    have hlower : 97 ≤ b + 32 ∧ b + 32 ≤ 122 := by
      simp only [UInt8.le_iff_toNat_le, UInt8.toNat_add, UInt8.reduceToNat] at hupper ⊢
      omega
    simp [isTchar, hlower]
  · exact h

theorem isToken_lower {name : Bytes} (h : IsToken name) : IsToken (name.map asciiLower) := by
  refine ⟨by simpa using h.1, ?_⟩
  intro b hb
  obtain ⟨c, hc, rfl⟩ := List.mem_map.mp hb
  exact isTchar_asciiLower (h.2 c hc)

private theorem length_flatMap_getAll {entries : List (HeaderName × HeaderValue)} {names : List HeaderName} (hnodup : names.Nodup) :
    (names.flatMap (fun name => entries.filter (fun entry => entry.1 == name))).length ≤ entries.length := by
  induction names generalizing entries with
  | nil => exact Nat.zero_le _
  | cons name names ih =>
    obtain ⟨hname, hrest⟩ := List.nodup_cons.mp hnodup
    have hothers : names.flatMap (fun other => entries.filter (fun entry => entry.1 == other)) =
        names.flatMap (fun other => (entries.filter (fun entry => !(entry.1 == name))).filter (fun entry => entry.1 == other)) := by
      refine List.flatMap_congr ?_
      intro other hother
      rw [List.filter_filter]
      refine List.filter_congr ?_
      intro entry _
      by_cases hsame : entry.1 = other
      · have hne : other ≠ name := by
          rintro rfl
          exact hname hother
        simp [hsame, hne]
      · simp [hsame]
    rw [List.flatMap_cons, List.length_append, hothers]
    have hrest' := @ih (entries.filter (fun entry => !(entry.1 == name))) hrest
    have hsplit := List.length_eq_length_filter_add (l := entries) (fun entry => entry.1 == name)
    omega

/-- Iteration yields entries of the map, and no more of them. -/
theorem mem_iter {headers : HeaderMap} {entry : HeaderName × HeaderValue} (h : entry ∈ headers.iter) : entry ∈ headers.entries := by
  obtain ⟨name, -, hentry⟩ := List.mem_flatMap.mp h
  obtain ⟨value, hvalue, rfl⟩ := List.mem_map.mp hentry
  obtain ⟨found, hfound, rfl⟩ := List.mem_map.mp hvalue
  obtain ⟨hmem, hname⟩ := List.mem_filter.mp hfound
  rw [← beq_iff_eq.mp hname]
  exact hmem

theorem length_iter_le (headers : HeaderMap) : headers.iter.length ≤ headers.entries.length := by
  have hlength : headers.iter.length = ((headers.entries.map Prod.fst).eraseDups.flatMap
      (fun name => headers.entries.filter (fun entry => entry.1 == name))).length := by
    simp only [HeaderMap.iter, HeaderMap.getAll, List.length_flatMap, List.length_map]
  rw [hlength]
  exact length_flatMap_getAll (eraseDups_nodup _)

/-- The fields of a serialized head. -/
def keptFields (headers : HeaderMap) (excluded : HeaderName) : List RawHeader :=
  (headers.iter.filter (fun entry => entry.1 != excluded)).map (fun entry => ⟨entry.1, entry.2⟩)

/-- The fields of a decoded head are well formed, with lower-case names of bounded length. -/
theorem decoded_field {types : HttpTypes} (laws : HttpTypesLaws types) {headers : List RawHeader} {decoded : HeaderMap}
    (hfields : ∀ header ∈ headers, IsField header) (h : appendHeaders types ⟨[]⟩ headers = .ok decoded)
    {entry : HeaderName × HeaderValue} (hmem : entry ∈ decoded.entries) :
    IsField ⟨entry.1, entry.2⟩ ∧ entry.1.map asciiLower = entry.1 ∧ entry.1.length < 65536 := by
  obtain ⟨hshort, rfl⟩ := (appendHeaders_fields laws hfields).mp h
  obtain ⟨header, hheader, rfl⟩ := List.mem_map.mp (show entry ∈ (loweredFields headers).entries from hmem)
  obtain ⟨hname, hvalue⟩ := hfields header hheader
  refine ⟨⟨isToken_lower hname, hvalue⟩, ?_, ?_⟩
  · rw [List.map_map]
    exact List.map_congr_left (fun b _ => asciiLower_idem b)
  · rw [List.length_map]
    exact hshort header hheader

/-- A serialized field section is read back as the kept entries. -/
theorem keptFields_again {types : HttpTypes} (laws : HttpTypesLaws types) {headers : List RawHeader} {decoded : HeaderMap}
    (hfields : ∀ header ∈ headers, IsField header) (h : appendHeaders types ⟨[]⟩ headers = .ok decoded) (excluded : HeaderName) :
    (∀ header ∈ keptFields decoded excluded, IsField header) ∧ (keptFields decoded excluded).length ≤ headers.length ∧
    appendHeaders types ⟨[]⟩ (keptFields decoded excluded) =
      .ok ⟨decoded.iter.filter (fun entry => entry.1 != excluded)⟩ := by
  have hmem : ∀ header ∈ keptFields decoded excluded, (header.name, header.value) ∈ decoded.entries := by
    intro header hheader
    obtain ⟨entry, hentry, rfl⟩ := List.mem_map.mp hheader
    exact mem_iter (List.mem_of_mem_filter hentry)
  have hkept : ∀ header ∈ keptFields decoded excluded, IsField header :=
    fun header hheader => (decoded_field laws hfields h (hmem header hheader)).1
  refine ⟨hkept, ?_, (appendHeaders_fields laws hkept).mpr ⟨?_, ?_⟩⟩
  · obtain ⟨-, rfl⟩ := (appendHeaders_fields laws hfields).mp h
    have hlength : (loweredFields headers).entries.length = headers.length := List.length_map ..
    rw [keptFields, List.length_map, ← hlength]
    exact Nat.le_trans (List.length_filter_le ..) (length_iter_le (loweredFields headers))
  · exact fun header hheader => (decoded_field laws hfields h (hmem header hheader)).2.2
  · rw [List.nil_append, loweredFields, keptFields, List.map_map]
    congr 1
    refine ((List.map_congr_left ?_).trans (List.map_id _)).symm
    intro entry hentry
    obtain ⟨-, hlower, -⟩ := decoded_field laws hfields h (mem_iter (List.mem_of_mem_filter hentry))
    simp [hlower]

end Fields

section Heads
variable {httparse : Httparse} {types : HttpTypes} {bytes head : Bytes} {request : Request} {n : Nat}

/-- A serialized head is a canonical head of the kept fields. -/
theorem requestHeadBytesExcluding_eq {excluded : HeaderName} {number : Nat}
    (hversion : httpVersionFromHttparse number = .ok request.version) :
    requestHeadBytesExcluding request (fun name => name == excluded) =
      .ok (versionedHead request.method (requestTarget request) number (keptFields request.headers excluded)) := by
  have htoken : requestVersionToken request.version = .ok (versionText number) := by
    cases number with
    | zero =>
      rw [← (Except.ok.inj hversion : Version.http10 = request.version)]
      rfl
    | succ number =>
      cases number with
      | zero =>
        rw [← (Except.ok.inj hversion : Version.http11 = request.version)]
        rfl
      | succ number => cases hversion
  have hfields : (request.headers.iter.filter (fun entry => !(entry.1 == excluded))).flatMap
      (fun entry => entry.1 ++ ascii ": " ++ entry.2 ++ crlf) = (keptFields request.headers excluded).flatMap fieldLine := by
    rw [keptFields, List.flatMap_map]
    rfl
  simp only [requestHeadBytesExcluding, htoken, bind, Except.bind, pure, Except.pure, hfields]
  simp only [versionedHead, fieldSection, List.append_assoc]

/-- A head that is written without one field is parsed as the same request. -/
theorem serialized_same (laws : SerializedHeadLaws httparse types)
    (hparsed : (parseRequestHead httparse types).run bytes = .complete request n) {value : PathAndQuery}
    (hform : request.uri.pathAndQuery = some value) {excluded : HeaderName} (hcodings : ascii "transfer-encoding" ≠ excluded)
    (hlengths : ascii "content-length" ≠ excluded) :
    ∃ head again, requestHeadBytesExcluding request (fun name => name == excluded) = .ok head ∧
      SameRequest httparse types request excluded head again := by
  obtain ⟨raw, hraw, hrequest⟩ := Incremental.tryMap_complete _ hparsed
  obtain ⟨method, path, number, hrawMethod, hmethod, hrawPath, huri, hrawVersion, hversion, hheaders⟩ :=
    requestFromRaw_ok.mp hrequest
  obtain ⟨hmethods, hpaths, hfields, hroom⟩ := laws.parser.sound hraw
  have htoken := hmethods method hrawMethod
  obtain rfl : request.method = method := laws.method hmethod
  obtain ⟨htarget, hagain⟩ := laws.display (hpaths path hrawPath) huri hform
  have hdisplay : requestTarget request = value.display := by rw [requestTarget, hform]
  obtain ⟨hkept, hlength, hmap⟩ := keptFields_again laws.parts hfields hheaders excluded
  have hnumber : number ≤ 1 := by
    by_contra hmore
    obtain ⟨more, rfl⟩ := Nat.exists_eq_add_of_le' (Nat.lt_of_not_le hmore)
    cases hversion
  have hreported := laws.versioned hnumber htoken htarget hkept (Nat.le_trans hlength hroom)
  have hvalues : ∀ name, HeaderMap.getAll ⟨request.headers.iter.filter (fun entry => entry.1 != excluded)⟩ name =
      if name = excluded then [] else request.headers.getAll name := by
    intro name
    split
    · next hname =>
      subst hname
      unfold HeaderMap.getAll
      rw [List.filter_filter, List.filter_eq_nil_iff.mpr (by simp), List.map_nil]
    · next hname => exact @getAll_iter_filter request.headers name (· != excluded) (bne_iff_ne.mpr hname)
  refine ⟨_, ⟨request.method, originUri value.display, request.version, ⟨request.headers.iter.filter (fun entry => entry.1 != excluded)⟩⟩,
    requestHeadBytesExcluding_eq hversion, ?_, rfl, rfl, ⟨rfl, rfl⟩, ?_, hvalues, ?_⟩
  · rw [hdisplay]
    refine Incremental.complete_tryMap _ hreported (requestFromRaw_ok.mpr ?_)
    exact ⟨request.method, value.display, number, rfl, hmethod, rfl, hagain, rfl, hversion, hmap⟩
  · rw [hform]
    rfl
  · refine requestBodyFraming_congr ?_ ?_
    · exact (hvalues _).trans (if_neg hcodings)
    · exact (hvalues _).trans (if_neg hlengths)

/-- The heads that the relay writes without `Expect` and, for an upgrade, without `Sec-WebSocket-Extensions` are parsed
as the decoded request. -/
theorem serialized_heads_same (laws : SerializedHeadLaws httparse types)
    (hparsed : (parseRequestHead httparse types).run bytes = .complete request n) {value : PathAndQuery}
    (hform : request.uri.pathAndQuery = some value) :
    (∃ head again, httpRequestHeadWithoutRelayHeaders request true = .ok head ∧
      SameRequest httparse types request (ascii "expect") head again) ∧
    (request.version = .http11 → ∃ head again, websocketRequestHeadBytes request = .ok head ∧
      SameRequest httparse types request (ascii "sec-websocket-extensions") head again) ∧
    (request.version ≠ .http11 → ∀ head, websocketRequestHeadBytes request ≠ .ok head) := by
  refine ⟨?_, ?_, ?_⟩
  · have hexpect : (fun name : HeaderName => true && name == ascii "expect") = (fun name => name == ascii "expect") := by
      funext name
      exact Bool.true_and _
    rw [httpRequestHeadWithoutRelayHeaders, hexpect]
    exact serialized_same laws hparsed hform (by decide) (by decide)
  · intro hversion
    rw [websocketRequestHeadBytes, if_pos hversion]
    exact serialized_same laws hparsed hform (by decide) (by decide)
  · intro hversion head hhead
    rw [websocketRequestHeadBytes, if_neg hversion] at hhead
    cases hhead

end Heads

section Sample

def versionNumber (version : Bytes) : Option Nat :=
  if version = versionText 0 then some 0 else if version = versionText 1 then some 1 else none

/-- Read a canonical request head of either version. -/
def readVersionedHead (l : Bytes) : Option (RawRequest × Bytes) := do
  let (method, l) ← cutAt 32 l
  let (target, l) ← cutAt 32 l
  let (version, l) ← cutAt 13 l
  let l ← stripFront [10] l
  let number ← versionNumber version
  let (headers, rest) ← readFields 65 l
  if IsToken method ∧ IsTarget target then return (⟨some method, some target, some number, headers⟩, rest) else none

theorem versionedHead_append (method target : Bytes) (number : Nat) (headers : List RawHeader) (rest : Bytes) :
    versionedHead method target number headers ++ rest =
      method ++ 32 :: (target ++ 32 :: (versionText number ++ 13 :: ([10] ++ (fieldSection headers ++ rest)))) := by
  have hspace : ascii " " = [32] := by decide
  simp [versionedHead, hspace, crlf]

theorem versionNumber_eq_some {version : Bytes} {number : Nat} :
    versionNumber version = some number ↔ number ≤ 1 ∧ version = versionText number := by
  have hdistinct : versionText 1 ≠ versionText 0 := by decide
  unfold versionNumber
  constructor
  · intro h
    split at h
    · next hzero => obtain rfl := Option.some.inj h; exact ⟨Nat.zero_le 1, hzero⟩
    · split at h
      · next hone => obtain rfl := Option.some.inj h; exact ⟨Nat.le_refl 1, hone⟩
      · cases h
  · rintro ⟨hnumber, rfl⟩
    obtain rfl | rfl := Nat.le_one_iff_eq_zero_or_eq_one.mp hnumber
    · rfl
    · rw [if_neg hdistinct, if_pos rfl]

theorem readVersionedHead_eq_some {l rest : Bytes} {raw : RawRequest} :
    readVersionedHead l = some (raw, rest) ↔ ∃ method target number headers, number ≤ 1 ∧ IsToken method ∧ IsTarget target ∧
      (∀ header ∈ headers, IsField header) ∧ headers.length ≤ 64 ∧
      raw = ⟨some method, some target, some number, headers⟩ ∧ l = versionedHead method target number headers ++ rest := by
  unfold readVersionedHead
  simp only [Option.bind_eq_bind, Option.bind_eq_some_iff, Prod.exists, cutAt_eq_some, stripFront_eq_some,
    readFields_eq_some, versionNumber_eq_some]
  constructor
  · rintro ⟨method, l₁, ⟨-, rfl⟩, target, l₂, ⟨-, rfl⟩, version, l₃, ⟨-, rfl⟩, l₄, rfl, number, ⟨hnumber, rfl⟩, headers, rest',
      ⟨hall, hlen, rfl⟩, h⟩
    split at h
    · next hparts =>
      obtain ⟨rfl, rfl⟩ := (by simpa using h : _ = raw ∧ _ = rest)
      exact ⟨method, target, number, headers, hnumber, hparts.1, hparts.2, hall, Nat.le_of_lt_succ hlen, rfl,
        (versionedHead_append ..).symm⟩
    · cases h
  · rintro ⟨method, target, number, headers, hnumber, hmethod, htarget, hall, hlen, rfl, rfl⟩
    have hversion : (13 : UInt8) ∉ versionText number := by
      obtain rfl | rfl := Nat.le_one_iff_eq_zero_or_eq_one.mp hnumber <;> decide
    refine ⟨method, _, ⟨hmethod.not_mem (by decide), versionedHead_append ..⟩, target, _, ⟨htarget.not_mem_space, rfl⟩,
      versionText number, _, ⟨hversion, rfl⟩, _, rfl, number, ⟨hnumber, rfl⟩, headers, rest,
      ⟨hall, Nat.lt_succ_of_le hlen, rfl⟩, ?_⟩
    rw [if_pos ⟨hmethod, htarget⟩]
    rfl

/-- The head of a reported request. -/
def versionedText (raw : RawRequest) : Bytes :=
  versionedHead (raw.method.getD []) (raw.path.getD []) (raw.version.getD 0) raw.headers

/-- A request that is reported for a canonical head. -/
structure Versioned (raw : RawRequest) : Prop where
  method : ∃ method, raw.method = some method ∧ IsToken method
  path : ∃ target, raw.path = some target ∧ IsTarget target
  version : ∃ number, raw.version = some number ∧ number ≤ 1
  headers : ∀ header ∈ raw.headers, IsField header
  room : raw.headers.length ≤ 64

theorem readVersionedHead_reads : ReadsText readVersionedHead versionedText Versioned where
  iff {l raw rest} := by
    rw [readVersionedHead_eq_some]
    constructor
    · rintro ⟨method, target, number, headers, hnumber, hmethod, htarget, hall, hlen, rfl, rfl⟩
      exact ⟨⟨⟨method, rfl, hmethod⟩, ⟨target, rfl, htarget⟩, ⟨number, rfl, hnumber⟩, hall, hlen⟩, rfl⟩
    · rintro ⟨⟨⟨method, hrawMethod, hmethod⟩, ⟨target, hrawPath, htarget⟩, ⟨number, hrawVersion, hnumber⟩, hall, hlen⟩, rfl⟩
      obtain ⟨rawMethod, rawPath, rawVersion, headers⟩ := raw
      obtain rfl : rawMethod = some method := hrawMethod
      obtain rfl : rawPath = some target := hrawPath
      obtain rfl : rawVersion = some number := hrawVersion
      exact ⟨method, target, number, headers, hnumber, hmethod, htarget, hall, hlen, rfl, rfl⟩

/-- The head parsers on canonical requests of either version. -/
def versionedHttparse : Httparse := ⟨Incremental.ofReader readVersionedHead_reads, plainHttparse.response⟩

theorem versionedHttparse_complete {method target : Bytes} {number : Nat} {headers : List RawHeader} (rest : Bytes)
    (hnumber : number ≤ 1) (hmethod : IsToken method) (htarget : IsTarget target)
    (hall : ∀ header ∈ headers, IsField header) (hlen : headers.length ≤ 64) :
    versionedHttparse.request.run (versionedHead method target number headers ++ rest) =
      .complete ⟨some method, some target, some number, headers⟩ (versionedHead method target number headers).length :=
  (Incremental.ofReader_complete readVersionedHead_reads).mpr
    ⟨⟨⟨method, rfl, hmethod⟩, ⟨target, rfl, htarget⟩, ⟨number, rfl, hnumber⟩, hall, hlen⟩, rest, rfl, rfl⟩

theorem versionedHttparse_laws : HttparseLaws versionedHttparse where
  sound {buffer raw n} h := by
    obtain ⟨⟨⟨method, hmethod, htoken⟩, ⟨target, hpath, htarget⟩, -, hall, hlen⟩, -⟩ :=
      (Incremental.ofReader_complete readVersionedHead_reads).mp h
    refine ⟨?_, ?_, hall, hlen⟩
    · intro reported hreported
      obtain rfl := Option.some.inj (hmethod.symm.trans hreported)
      exact htoken
    · intro reported hreported
      obtain rfl := Option.some.inj (hpath.symm.trans hreported)
      exact htarget
  canonical {method target headers} rest hmethod htarget hall hlen := by
    have htext : requestHeadText method target headers = versionedHead method target 1 headers := by
      have hversion : ascii " HTTP/1.1\r\n" = ascii " " ++ versionText 1 ++ crlf := by decide
      simp only [requestHeadText, versionedHead, hversion, List.append_assoc]
    rw [htext]
    exact versionedHttparse_complete rest (Nat.le_refl 1) hmethod htarget hall hlen

/-- A target as it is displayed. -/
def slashed (target : Bytes) : Bytes := if target.head? = some 47 then target else 47 :: target

/-- The checked constructors, with the slash that the display of a path and query adds. -/
def slashedTypes : HttpTypes :=
  { canonicalTypes with
    uriTryFrom := fun bytes => (canonicalTypes.uriTryFrom bytes).map (fun uri =>
      { uri with pathAndQuery := uri.pathAndQuery.map (fun value => ⟨value.asStr, slashed value.display⟩) }) }

theorem slashed_head (target : Bytes) : (slashed target).head? = some 47 := by
  unfold slashed
  split
  · assumption
  · rfl

theorem slashed_visible {target : Bytes} (h : target.all (fun b => 32 < b && b < 127) = true) :
    (slashed target).all (fun b => 32 < b && b < 127) = true := by
  unfold slashed
  split
  · exact h
  · rw [List.all_cons, h]
    decide

/-- A displayed target is a URI of its own. -/
theorem slashedTypes_display {target : Bytes} (h : target.all (fun b => 32 < b && b < 127) = true) :
    IsTarget (slashed target) ∧ slashedTypes.uriTryFrom (slashed target) = some (originUri (slashed target)) := by
  have hvisible := slashed_visible h
  refine ⟨isTarget_of_visible ?_ (List.all_eq_true.mp hvisible), ?_⟩
  · intro hnil
    have hhead := slashed_head target
    rw [hnil] at hhead
    cases hhead
  · have htwice : slashed (slashed target) = slashed target := if_pos (slashed_head target)
    simp only [slashedTypes, canonicalTypes_origin hvisible (slashed_head target), Option.map_some, htwice]
    rfl

theorem slashedTypes_uri {bytes : Bytes} {uri : Uri} (h : slashedTypes.uriTryFrom bytes = some uri) {value : PathAndQuery}
    (hvalue : uri.pathAndQuery = some value) :
    ∃ plain found, canonicalTypes.uriTryFrom bytes = some plain ∧ plain.pathAndQuery = some found ∧
      value = ⟨found.asStr, slashed found.display⟩ := by
  obtain ⟨plain, hplain, rfl⟩ := Option.map_eq_some_iff.mp h
  obtain ⟨found, hfound, rfl⟩ := Option.map_eq_some_iff.mp hvalue
  exact ⟨plain, found, hplain, hfound, rfl⟩

theorem slashed_laws : SerializedHeadLaws versionedHttparse slashedTypes where
  parser := versionedHttparse_laws
  parts := {
    method := canonicalTypes_laws.method
    headerName := canonicalTypes_laws.headerName
    headerValue := canonicalTypes_laws.headerValue
    pathAndQuery := by
      intro bytes uri value hbytes huri hvalue
      obtain ⟨plain, found, hplain, hfound, rfl⟩ := slashedTypes_uri huri hvalue
      change IsTarget found.asStr
      exact canonicalTypes_laws.pathAndQuery hbytes hplain hfound }
  versioned {method target number headers} hnumber hmethod htarget hall hlen := by
    have hrun := versionedHttparse_complete [] hnumber hmethod htarget hall hlen
    rwa [List.append_nil] at hrun
  method {bytes method} h := by
    change (if IsToken bytes then some bytes else none) = some method at h
    split at h
    · exact (Option.some.inj h).symm
    · cases h
  display {bytes uri value} _ huri hvalue := by
    obtain ⟨plain, found, hplain, hfound, rfl⟩ := slashedTypes_uri huri hvalue
    obtain ⟨hvisible, ⟨rest, rfl, rfl⟩ | ⟨-, rfl⟩⟩ := canonicalTypes_uri hplain
    · obtain rfl := Option.some.inj hfound
      refine slashedTypes_display ?_
      refine List.all_eq_true.mpr ?_
      intro b hb
      exact List.all_eq_true.mp hvisible b (List.mem_append_right _ ((List.dropWhile_sublist _).subset hb))
    · obtain rfl := Option.some.inj hfound
      exact slashedTypes_display hvisible

/-- An upload in absolute form, with an expectation and a field in two lines. -/
def absoluteUpload : Bytes :=
  ascii "POST http://h?q HTTP/1.1\r\nAccept: a\r\nExpect: 100-continue\r\naccept: b\r\nContent-Length: 2\r\n\r\nok"

def absoluteUploadRequest : Request :=
  ⟨ascii "POST", ⟨some (ascii "http"), some (ascii "h"), some ⟨ascii "?q", ascii "/?q"⟩, ascii "http://h?q"⟩, .http11,
    ⟨[(ascii "accept", ascii "a"), (ascii "expect", ascii "100-continue"), (ascii "accept", ascii "b"),
      (ascii "content-length", ascii "2")]⟩⟩

theorem absolute_upload_same :
    ∃ head again, httpRequestHeadWithoutRelayHeaders absoluteUploadRequest true = .ok head ∧
      SameRequest versionedHttparse slashedTypes absoluteUploadRequest (ascii "expect") head again := by
  have hparsed : (parseRequestHead versionedHttparse slashedTypes).run absoluteUpload =
      .complete absoluteUploadRequest 91 := by
    rw [absoluteUpload, ascii_ofList]
    decide +kernel
  exact (serialized_heads_same slashed_laws hparsed rfl).1

end Sample
end Abyss.Mitm.Relay
