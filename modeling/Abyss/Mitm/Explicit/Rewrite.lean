import Abyss.Mitm.Explicit.Replay
import Abyss.Mitm.Explicit.AuthorityRoundTrip

/-! What the rewriting of an absolute-form request keeps. Read again, the rewritten head is the request the client
sent, unless its URI has a query without a path, its host is an address with a dot behind it, or a field name is
longer than a header map takes. -/
namespace Abyss.Mitm.Explicit
open Abyss.Stream Abyss.Text Abyss.Mitm.Http

/-- What ends the authority of a URI: `/`, `?` or `#`. -/
def endsAuthority (b : UInt8) : Bool := b == 47 || b == 63 || b == 35

/-- The authority behind `http://`. -/
def authorityText (target : Bytes) : Bytes := (target.drop 7).takeWhile (fun b => !endsAuthority b)

/-- The path and query behind the authority, without the fragment. -/
def pathText (target : Bytes) : Bytes := ((target.drop 7).dropWhile (fun b => !endsAuthority b)).takeWhile (· ≠ 35)

/-- The origin form of an absolute target: its path and query, with `/` for an empty path. -/
def originForm (target : Bytes) : Bytes := if (pathText target).head? = some 47 then pathText target else 47 :: pathText target

/-- `http::Uri` on absolute targets and on the path and query of one. -/
structure AbsoluteUriLaws (types : HttpTypes) : Prop where
  parts {target authority : Bytes} {uri : Uri} : types.uriTryFrom target = some uri → uri.scheme = some (ascii "http") →
    uri.authority = some authority → authority = authorityText target ∧
      uri.pathAndQuery.map PathAndQuery.asStr = some (if pathText target = [] then ascii "/" else pathText target)
  origin {target : Bytes} {uri : Uri} : types.uriTryFrom target = some uri → (originTarget uri).head? = some 47 →
    ∃ uri', types.uriTryFrom (originTarget uri) = some uri' ∧ uri'.scheme = none ∧ uri'.authority = none ∧
      originTarget uri' = originTarget uri

def removedNames : List Bytes :=
  [ascii "host", ascii "proxy-authorization", ascii "proxy-connection", ascii "proxy-authenticate"]

/-- The fields of a request that are meant for the origin server, in their order. -/
def forwardedFields (headers : List RawHeader) : List (HeaderName × HeaderValue) :=
  (headers.map (fun header => (header.name.map asciiLower, header.value))).filter (fun field => field.1 ∉ removedNames)

/-- A decoded request that is read back from the bytes replayed for it. -/
structure Preserves (httparse : Httparse) (types : HttpTypes) (raw : RawRequest) (path bufferedBody : Bytes)
    (decoded : DecodedExplicitRequest) (rawAgain : RawRequest) (request : Request) (n : Nat) : Prop where
  reparsed : (parseRequestHead httparse types).run decoded.clientPrefix = .complete request n
  reported : httparse.request.run decoded.clientPrefix = .complete rawAgain n
  method : rawAgain.method = raw.method ∧ ∀ method, raw.method = some method →
    types.methodFromBytes method = some request.method
  target : rawAgain.path = some (originForm path) ∧ originTarget request.uri = originForm path ∧
    request.uri.scheme = none ∧ request.uri.authority = none
  host : ∃ value text, request.headers.getAll (ascii "host") = [value] ∧ toStr value = some text ∧
    parseTargetAuthority types text (some 80) = .ok decoded.target
  fields : request.headers.entries.filter (fun field => field.1 ≠ ascii "host") = forwardedFields raw.headers
  body : decoded.clientPrefix.drop n = bufferedBody

/-- The inputs that survive the rewriting. -/
structure RewriteSafe (types : HttpTypes) (raw : RawRequest) (target : Bytes) : Prop where
  path : (pathText target).head? ≠ some 63
  host : ∀ authority, types.authorityTryFrom ((fromUtf8 (authorityText target)).getD []) = some authority →
    ¬ IsDottedAddress authority.host
  names : ∀ header ∈ raw.headers, header.name.length < 65536

section Fields

theorem forwardedFields_eq (headers : List RawHeader) : forwardedFields headers =
    (loweredFields (headers.filter (fun header => !(isNamed header (ascii "host") || isProxyOnlyHeader header)))).entries := by
  unfold forwardedFields loweredFields
  rw [List.filter_map]
  congr 1
  refine List.filter_congr ?_
  intro header _
  have hlower : ∀ name ∈ removedNames, name.map asciiLower = name := by decide
  simp only [removedNames, List.forall_mem_cons] at hlower
  obtain ⟨hhost, hauthorization, hconnection, hauthenticate, -⟩ := hlower
  simp only [Function.comp_apply, removedNames, List.mem_cons, List.not_mem_nil, or_false, isProxyOnlyHeader, isNamed,
    hhost, hauthorization, hconnection, hauthenticate]
  grind

/-- Besides `Host`, the rewritten head has the forwarded fields. -/
theorem sanitized_fields (headers : List RawHeader) (target : TargetAuthority) :
    (loweredFields (sanitizedHeaders headers target)).entries.filter (fun field => field.1 ≠ ascii "host") =
      forwardedFields headers := by
  have hfirst : (ascii "Host").map asciiLower = ascii "host" := by decide
  rw [forwardedFields_eq]
  unfold sanitizedHeaders
  simp only [loweredFields, List.map_cons]
  rw [List.filter_cons_of_neg (by simp [hfirst])]
  refine List.filter_eq_self.mpr ?_
  intro field hfield
  obtain ⟨header, hheader, rfl⟩ := List.mem_map.mp hfield
  have hkept := (List.mem_filter.mp hheader).2
  have hlower : (ascii "host").map asciiLower = ascii "host" := by decide
  simp only [isNamed, hlower, Bool.not_or, Bool.and_eq_true, Bool.not_eq_true', beq_eq_false_iff_ne] at hkept
  exact decide_eq_true hkept.1

end Fields

section Target

/-- A path and query starts with its path or with its query. -/
theorem pathText_head {target : Bytes} {b : UInt8} (h : (pathText target).head? = some b) : b = 47 ∨ b = 63 := by
  unfold pathText at h
  cases hrest : (target.drop 7).dropWhile (fun b => !endsAuthority b) with
  | nil =>
    rw [hrest] at h
    cases h
  | cons c rest =>
    have hends : endsAuthority c = true := by
      have hhead := List.head?_dropWhile_not (fun b : UInt8 => !endsAuthority b) (target.drop 7)
      rw [hrest] at hhead
      simpa using hhead
    rw [hrest, List.takeWhile_cons] at h
    split at h
    · next hfragment =>
      obtain rfl := Option.some.inj h
      simp only [endsAuthority, Bool.or_eq_true, beq_iff_eq] at hends
      exact hends.resolve_right (of_decide_eq_true hfragment)
    · cases h

/-- The rewritten target is the origin form of the declared one, unless that has a query without a path. -/
theorem originTarget_eq_iff {types : HttpTypes} (laws : AbsoluteUriLaws types) {target authority : Bytes} {uri : Uri}
    (huri : types.uriTryFrom target = some uri) (hscheme : uri.scheme = some (ascii "http"))
    (hauthority : uri.authority = some authority) :
    originTarget uri = originForm target ↔ (pathText target).head? ≠ some 63 := by
  have hslash : ascii "/" = [47] := by decide
  obtain ⟨-, hparts⟩ := laws.parts huri hscheme hauthority
  obtain ⟨value, hvalue, hstr⟩ := Option.map_eq_some_iff.mp hparts
  unfold originTarget originForm
  rw [hvalue]
  simp only [hstr]
  cases htext : pathText target with
  | nil => simp [hslash]
  | cons b rest =>
    have hb := pathText_head (congrArg List.head? htext)
    rcases hb with rfl | rfl
    · simp
    · simp

theorem originForm_head (target : Bytes) : (originForm target).head? = some 47 := by
  unfold originForm
  split
  · next h => exact h
  · rfl

end Target

section Rewriting
variable {httparse : Httparse} {types : HttpTypes} {buffer : Bytes} {headLen : Nat} {decoded : DecodedExplicitRequest}

/-- What the pipeline relies on when it rewrites an absolute-form request. -/
structure RewriteLaws (httparse : Httparse) (types : HttpTypes) : Prop where
  parser : HttparseLaws httparse
  parts : HttpTypesLaws types
  authority : AuthorityLaws types
  uri : AbsoluteUriLaws types

/-- An accepted absolute-form request is preserved by its rewriting exactly on the safe inputs. -/
theorem rewrite_preserves_iff (laws : RewriteLaws httparse types)
    (hdecoded : parseExplicitRequest httparse types buffer headLen = .ok decoded)
    (habsolute : decoded.protocol = .httpAbsoluteForm) {raw : RawRequest} {m : Nat} {target : Bytes}
    (hraw : httparse.request.run (buffer.take headLen) = .complete raw m) (htarget : raw.path = some target) :
    (∃ rawAgain request n, Preserves httparse types raw target (buffer.drop headLen) decoded rawAgain request n) ↔
      RewriteSafe types raw target := by
  obtain ⟨raw₁, method, target₁, uri, authority, hraw₁, hmethod, htarget₁, huri, hscheme, hauthority, hparse, -, -, hprefix⟩ :=
    parseExplicitRequest_absolute hdecoded habsolute
  obtain ⟨rfl, rfl⟩ := Answer.complete.inj (hraw.symm.trans hraw₁)
  obtain rfl := Option.some.inj (htarget.symm.trans htarget₁)
  obtain ⟨raw₂, method₂, target₂, uri₂, hraw₂, hmethod₂, htarget₂, huri₂, htoken, -, hsanitized, -, hreplay⟩ :=
    rewritten_reported laws.parser laws.parts hdecoded habsolute
  obtain ⟨rfl, -⟩ := Answer.complete.inj (hraw.symm.trans hraw₂)
  obtain rfl := Option.some.inj (hmethod.symm.trans hmethod₂)
  obtain rfl := Option.some.inj (htarget.symm.trans htarget₂)
  obtain rfl := Option.some.inj (huri.symm.trans huri₂)
  have hform := originTarget_eq_iff laws.uri huri hscheme hauthority
  obtain ⟨rfl, -⟩ := laws.uri.parts huri hscheme hauthority
  obtain ⟨-, parsed, hparsed, -, hhost⟩ := parseTargetAuthority_ok.mp hparse
  have hname : parseTargetAuthority types (decoded.target.hostHeaderValue 80) (some 80) = .ok decoded.target ↔
      ∀ authority, types.authorityTryFrom ((fromUtf8 (authorityText target)).getD []) = some authority →
        ¬ IsDottedAddress authority.host := by
    rw [parseTargetAuthority_hostHeaderValue laws.authority (normalizeTargetHost_text hhost)]
    exact normalizeTargetHost_display_iff_all hparsed hhost
  have hgetAll : (loweredFields (sanitizedHeaders raw.headers decoded.target)).getAll (ascii "host") =
      [toUtf8 (decoded.target.hostHeaderValue 80)] := by
    rw [getAll_loweredFields (by decide), host_sanitizedHeaders]
  constructor
  · rintro ⟨rawAgain, request, n, h⟩
    obtain ⟨rfl, rfl⟩ := Answer.complete.inj (hreplay.symm.trans h.reported)
    obtain ⟨raw', hraw', hrequest⟩ := Incremental.tryMap_complete _ h.reparsed
    obtain ⟨rfl, -⟩ := Answer.complete.inj (hreplay.symm.trans hraw')
    obtain ⟨_, _, _, -, -, -, -, -, -, hheaders⟩ := requestFromRaw_ok.mp hrequest
    obtain ⟨hnames, hmap⟩ := (appendHeaders_fields laws.parts hsanitized).mp hheaders
    rw [List.nil_append] at hmap
    obtain ⟨value, text, hvalue, htext, hagain⟩ := h.host
    rw [hmap, hgetAll] at hvalue
    obtain rfl := (List.cons.inj hvalue).1
    rw [toStr_visible (hostHeaderValue_visible hparse 80)] at htext
    obtain rfl := Option.some.inj htext
    exact ⟨hform.mp (Option.some.inj h.target.1), hname.mp hagain, names_sanitizedHeaders.mp hnames⟩
  · rintro ⟨hpath, hhosts, hnames⟩
    have horigin := hform.mpr hpath
    obtain ⟨uri', huri', hscheme', hauthority', horigin'⟩ := laws.uri.origin huri (by rw [horigin, originForm_head])
    obtain ⟨method', hrequest⟩ := rewritten_request laws.parts htoken huri' hsanitized (names_sanitizedHeaders.mpr hnames)
    obtain ⟨_, _, _, hmethodSome, hmethod', -⟩ := requestFromRaw_ok.mp hrequest
    obtain rfl := Option.some.inj hmethodSome
    refine ⟨_, _, _, Incremental.complete_tryMap _ hreplay hrequest, hreplay, ⟨hmethod.symm, ?_⟩, ?_, ?_, ?_, ?_⟩
    · intro method'' hmethod''
      obtain rfl := Option.some.inj (hmethod.symm.trans hmethod'')
      exact hmethod'
    · exact ⟨by rw [horigin], horigin'.trans horigin, hscheme', hauthority'⟩
    · exact ⟨_, _, hgetAll, toStr_visible (hostHeaderValue_visible hparse 80), hname.mpr hhosts⟩
    · exact sanitized_fields raw.headers decoded.target
    · rw [ hprefix, sanitizedAbsoluteRequestPrefix, List.drop_left]

end Rewriting

section Sample

/-- The checked constructors on visible targets without a fragment. -/
def rewriteTypes : HttpTypes :=
  { plainTypes with uriTryFrom := fun bytes => if 35 ∈ bytes then none else canonicalTypes.uriTryFrom bytes }

private theorem rewriteTypes_uri {bytes : Bytes} {uri : Uri} (h : rewriteTypes.uriTryFrom bytes = some uri) :
    (35 : UInt8) ∉ bytes ∧ canonicalTypes.uriTryFrom bytes = some uri := by
  change (if 35 ∈ bytes then none else canonicalTypes.uriTryFrom bytes) = some uri at h
  split at h
  · cases h
  · next hfragment => exact ⟨hfragment, h⟩

private theorem while_congr {p q : UInt8 → Bool} {l : Bytes} (h : ∀ b ∈ l, p b = q b) :
    l.takeWhile p = l.takeWhile q ∧ l.dropWhile p = l.dropWhile q := by
  induction l with
  | nil => exact ⟨rfl, rfl⟩
  | cons b rest ih =>
    obtain ⟨htake, hdrop⟩ := ih (fun c hc => h c (List.mem_cons_of_mem b hc))
    rw [List.takeWhile_cons, List.takeWhile_cons, List.dropWhile_cons, List.dropWhile_cons, h b List.mem_cons_self,
      htake, hdrop]
    exact ⟨rfl, rfl⟩

private theorem endsAuthority_plain {bytes : Bytes} (h : (35 : UInt8) ∉ bytes) :
    ∀ b ∈ bytes, (!endsAuthority b) = decide (b ≠ 47 ∧ b ≠ 63) := by
  intro b hb
  have hne : b ≠ 35 := fun heq => h (heq ▸ hb)
  simp only [endsAuthority, beq_false_of_ne hne, Bool.or_false]
  by_cases h47 : b = 47
  · simp [h47]
  · by_cases h63 : b = 63
    · simp [h63]
    · simp [h47, h63]

theorem rewriteTypes_absolute : AbsoluteUriLaws rewriteTypes where
  parts {target authority uri} huri hscheme hauthority := by
    obtain ⟨hfragment, huri⟩ := rewriteTypes_uri huri
    obtain ⟨-, ⟨rest, rfl, rfl⟩ | ⟨-, rfl⟩⟩ := canonicalTypes_uri huri
    · have hrest : (35 : UInt8) ∉ rest := fun hmem => hfragment (List.mem_append_right _ hmem)
      have hdrop : (ascii "http://" ++ rest).drop 7 = rest := List.drop_left' (by decide)
      obtain ⟨htake, hafter⟩ := while_congr (endsAuthority_plain hrest)
      have hpath : pathText (ascii "http://" ++ rest) = rest.dropWhile (fun b => b ≠ 47 ∧ b ≠ 63) := by
        rw [pathText, hdrop, hafter]
        refine List.takeWhile_eq_self_iff.mpr ?_
        intro b hb
        have hmem := (List.dropWhile_sublist _).subset hb
        exact decide_eq_true (fun heq => hrest (heq ▸ hmem))
      refine ⟨?_, ?_⟩
      · rw [authorityText, hdrop, htake]
        exact (Option.some.inj hauthority).symm
      · rw [hpath]
        rfl
    · cases hscheme
  origin {target uri} huri hhead := by
    obtain ⟨hfragment, huri⟩ := rewriteTypes_uri huri
    have hvisible : (originTarget uri).all (fun b => 32 < b && b < 127) = true ∧ (35 : UInt8) ∉ originTarget uri := by
      obtain ⟨hall, ⟨rest, rfl, rfl⟩ | ⟨-, rfl⟩⟩ := canonicalTypes_uri huri
      · change (if _ = [] then ascii "/" else _).all _ = true ∧ 35 ∉ (if _ = [] then ascii "/" else _)
        split
        · decide
        · have hmem : ∀ b ∈ rest.dropWhile (fun b => b ≠ 47 ∧ b ≠ 63), b ∈ ascii "http://" ++ rest :=
            fun b hb => List.mem_append_right _ ((List.dropWhile_sublist _).subset hb)
          exact ⟨List.all_eq_true.mpr (fun b hb => List.all_eq_true.mp hall b (hmem b hb)),
            fun h => hfragment (hmem 35 h)⟩
      · exact ⟨hall, hfragment⟩
    refine ⟨⟨none, none, some ⟨originTarget uri, originTarget uri⟩, originTarget uri⟩, ?_, rfl, rfl, rfl⟩
    change (if _ then _ else _) = _
    rw [if_neg hvisible.2]
    exact canonicalTypes_origin hvisible.1 hhead

theorem rewrite_laws : RewriteLaws canonicalHttparse rewriteTypes where
  parser := canonicalRequest_laws _
  parts := {
    method := canonicalTypes_laws.method
    headerName := canonicalTypes_laws.headerName
    headerValue := canonicalTypes_laws.headerValue
    pathAndQuery := fun h huri hvalue => canonicalTypes_laws.pathAndQuery h (rewriteTypes_uri huri).2 hvalue }
  authority := plainAuthority_laws rfl
  uri := rewriteTypes_absolute

/-- A proxied request to a port of its own, with a query. -/
def queryBuffer : Bytes :=
  ascii "GET http://H:81/a?b HTTP/1.1\r\nAccept: x\r\nHost: h:81\r\nProxy-Authorization: y\r\n\r\nok"

def queryRaw : RawRequest :=
  ⟨some (ascii "GET"), some (ascii "http://H:81/a?b"), some 1,
    [⟨ascii "Accept", ascii "x"⟩, ⟨ascii "Host", ascii "h:81"⟩, ⟨ascii "Proxy-Authorization", ascii "y"⟩]⟩

def queryDecoded : DecodedExplicitRequest :=
  ⟨⟨.dns "h".toList, 81, by decide⟩, .httpAbsoluteForm,
    ascii "GET /a?b HTTP/1.1\r\nHost: h:81\r\nAccept: x\r\n\r\nok"⟩

theorem rewrite_preserves_query : ∃ rawAgain request n,
    Preserves canonicalHttparse rewriteTypes queryRaw (ascii "http://H:81/a?b") (queryBuffer.drop 79) queryDecoded
      rawAgain request n := by
  have hdecoded : parseExplicitRequest canonicalHttparse rewriteTypes queryBuffer 79 = .ok queryDecoded := by
    rw [queryBuffer, ascii_ofList, queryDecoded, ascii_ofList]
    decide +kernel
  have hraw : canonicalHttparse.request.run (queryBuffer.take 79) = .complete queryRaw 79 := by
    rw [queryBuffer, ascii_ofList]
    decide +kernel
  refine (@rewrite_preserves_iff _ _ queryBuffer 79 _ rewrite_laws hdecoded rfl _ 79 _ hraw rfl).mpr
    ⟨by decide +kernel, ?_, by decide +kernel⟩
  intro authority hauthority
  obtain rfl := Option.some.inj ((by decide +kernel : rewriteTypes.authorityTryFrom
    ((fromUtf8 (authorityText (ascii "http://H:81/a?b"))).getD []) = some ⟨['H'], true, some 81⟩).symm.trans hauthority)
  rintro ⟨literal, hliteral, -⟩
  have hlast := congrArg List.getLast? hliteral
  rw [List.getLast?_concat] at hlast
  exact absurd hlast (by decide)

/-- A query without a path. -/
def bareQueryBuffer : Bytes := ascii "GET http://h?x HTTP/1.1\r\nHost: h\r\n\r\n"

def bareQueryRaw : RawRequest := ⟨some (ascii "GET"), some (ascii "http://h?x"), some 1, [⟨ascii "Host", ascii "h"⟩]⟩

def bareQueryDecoded : DecodedExplicitRequest :=
  ⟨⟨.dns "h".toList, 80, httpPort_ne_zero⟩, .httpAbsoluteForm, ascii "GET ?x HTTP/1.1\r\nHost: h\r\n\r\n"⟩

/-- The target of the rewritten head is then no origin form. -/
theorem bare_query_is_not_preserved :
    ¬ ∀ (httparse : Httparse) (types : HttpTypes), RewriteLaws httparse types → ∀ buffer headLen decoded,
      parseExplicitRequest httparse types buffer headLen = .ok decoded → decoded.protocol = .httpAbsoluteForm →
      ∀ raw target, httparse.request.run (buffer.take headLen) = .complete raw headLen → raw.path = some target →
        ∃ rawAgain request n, Preserves httparse types raw target (buffer.drop headLen) decoded rawAgain request n := by
  intro h
  have hdecoded : parseExplicitRequest canonicalHttparse rewriteTypes bareQueryBuffer 36 = .ok bareQueryDecoded := by
    rw [bareQueryBuffer, ascii_ofList, bareQueryDecoded, ascii_ofList]
    decide +kernel
  have hraw : canonicalHttparse.request.run (bareQueryBuffer.take 36) = .complete bareQueryRaw 36 := by
    rw [bareQueryBuffer, ascii_ofList]
    decide +kernel
  obtain ⟨rawAgain, request, n, hpreserves⟩ := h canonicalHttparse rewriteTypes rewrite_laws bareQueryBuffer 36
    bareQueryDecoded hdecoded rfl bareQueryRaw (ascii "http://h?x") hraw rfl
  have hreported : canonicalHttparse.request.run bareQueryDecoded.clientPrefix =
      .complete ⟨some (ascii "GET"), some (ascii "?x"), some 1, [⟨ascii "Host", ascii "h"⟩]⟩ 28 := by decide +kernel
  obtain ⟨rfl, -⟩ := Answer.complete.inj (hreported.symm.trans hpreserves.reported)
  exact absurd hpreserves.target.1 (by decide +kernel)

end Sample
end Abyss.Mitm.Explicit
