import Abyss.Mitm.Explicit.Agreement
import Abyss.Mitm.Http.CanonicalHead

/-! Replay of rewritten requests: the head that the explicit decoder writes in front of
the client stream, as the relay parses it again. -/
namespace Abyss.Mitm.Explicit
open Abyss.Stream Abyss.Text Abyss.Mitm.Http Abyss.Mitm.Relay

/-- The rewritten head is parsed again, and the relay selects the validated framing for it. -/
def FramingAgrees (httparse : Httparse) (types : HttpTypes) (headers : List RawHeader) (clientPrefix : Bytes) : Prop :=
  ∃ request headLen, (parseRequestHead httparse types).run clientPrefix = .complete request headLen ∧
    requestBodyFraming request = .ok (validatedFraming headers)

/-- The inputs on which decoder and relay agree: the origin-form target is a URI, no name is too long for a header map,
and the deciding framing values are ASCII. -/
structure Portable (types : HttpTypes) (raw : RawRequest) : Prop where
  target : ∀ path uri, raw.path = some path → types.uriTryFrom path = some uri →
    (types.uriTryFrom (originTarget uri)).isSome = true
  names : ∀ header ∈ raw.headers, header.name.length < 65536
  framing : AsciiFraming raw.headers

section Fields

/-- The fields of a well-formed head as the header map holds them. -/
def loweredFields (headers : List RawHeader) : HeaderMap :=
  ⟨headers.map (fun header => (header.name.map asciiLower, header.value))⟩

/-- Well-formed fields are appended as they are, unless a name is too long. -/
theorem appendHeaders_fields {types : HttpTypes} (laws : HttpTypesLaws types) {fields : List RawHeader}
    (hfields : ∀ field ∈ fields, IsField field) {before after : HeaderMap} :
    appendHeaders types before fields = .ok after ↔
      (∀ field ∈ fields, field.name.length < 65536) ∧ after = ⟨before.entries ++ (loweredFields fields).entries⟩ := by
  induction fields generalizing before with
  | nil =>
    simp only [appendHeaders, Except.ok.injEq, List.not_mem_nil, false_implies, implies_true, true_and, loweredFields,
      List.map_nil, List.append_nil]
    exact eq_comm
  | cons field rest ih =>
    obtain ⟨hname, hvalue⟩ := hfields field List.mem_cons_self
    simp only [appendHeaders, bind_eq_ok, okOr_eq_ok, laws.headerName hname, laws.headerValue hvalue,
      ih (fun f hf => hfields f (List.mem_cons_of_mem _ hf)), List.forall_mem_cons]
    constructor
    · rintro ⟨name, hlen, value, hvalue, hrest, rfl⟩
      obtain rfl := Option.some.inj hvalue
      split at hlen
      · next hshort =>
        obtain rfl := Option.some.inj hlen
        exact ⟨⟨hshort, hrest⟩, by simp [HeaderMap.append, loweredFields]⟩
      · cases hlen
    · rintro ⟨⟨hshort, hrest⟩, rfl⟩
      exact ⟨_, if_pos hshort, _, rfl, hrest, by simp [HeaderMap.append, loweredFields]⟩

theorem getAll_loweredFields {headers : List RawHeader} {name : Bytes} (hname : name.map asciiLower = name) :
    (loweredFields headers).getAll name = fieldValues headers name := by
  unfold loweredFields HeaderMap.getAll fieldValues
  simp only [List.filter_map, List.map_map, isNamed, hname]
  rfl

/-- A field that is kept has the same values in the rewritten head. -/
theorem fieldValues_sanitizedHeaders (headers : List RawHeader) (target : TargetAuthority) {name : Bytes}
    (hname : name.map asciiLower = name) (hkept : name ∉ [ascii "host", ascii "proxy-authorization",
      ascii "proxy-connection", ascii "proxy-authenticate"]) :
    fieldValues (sanitizedHeaders headers target) name = fieldValues headers name := by
  have hother : ∀ header other, other.map asciiLower = other → name ≠ other → isNamed header name = true →
      isNamed header other = false := by
    intro header other hlower hne hnamed
    simp only [isNamed, hname, hlower, beq_iff_eq, beq_eq_false_iff_ne] at hnamed ⊢
    rw [hnamed]
    exact hne
  simp only [List.mem_cons, List.not_mem_nil, or_false, not_or] at hkept
  obtain ⟨hhost, hauthorization, hconnection, hauthenticate⟩ := hkept
  unfold fieldValues sanitizedHeaders
  rw [List.filter_cons_of_neg ?_, List.filter_filter]
  · congr 1
    refine List.filter_congr ?_
    intro header _
    by_cases hnamed : isNamed header name = true
    · simp only [hnamed, isProxyOnlyHeader, hother header _ (by decide) hhost hnamed,
        hother header _ (by decide) hauthorization hnamed, hother header _ (by decide) hconnection hnamed,
        hother header _ (by decide) hauthenticate hnamed, Bool.or_false, Bool.not_false, Bool.and_true]
    · simp only [Bool.not_eq_true] at hnamed
      simp only [hnamed, Bool.false_and]
  · intro hnamed
    simp only [isNamed, hname, beq_iff_eq] at hnamed
    exact hhost (hnamed.symm.trans (by decide))

/-- The rewritten head has one `Host`, for the declared target. -/
theorem host_sanitizedHeaders (headers : List RawHeader) (target : TargetAuthority) :
    fieldValues (sanitizedHeaders headers target) (ascii "host") = [toUtf8 (target.hostHeaderValue 80)] := by
  unfold fieldValues sanitizedHeaders
  have hfirst : isNamed ⟨ascii "Host", toUtf8 (target.hostHeaderValue 80)⟩ (ascii "host") = true :=
    (by decide : ((ascii "Host").map asciiLower == (ascii "host").map asciiLower) = true)
  have hrest : ((headers.filter (fun header => !(isNamed header (ascii "host") || isProxyOnlyHeader header))).filter
      (isNamed · (ascii "host"))) = [] := by
    rw [List.filter_eq_nil_iff]
    intro header hmem hnamed
    simp [hnamed] at hmem
  rw [List.filter_cons_of_pos (by exact hfirst), hrest]
  rfl

theorem validateMatchingHost_ok {types : HttpTypes} {headers : List RawHeader} {target : TargetAuthority} {port : UInt16}
    (h : validateMatchingHost types headers target port = .ok ()) :
    ∃ hostHeader, headers.filter (isNamed · (ascii "host")) = [hostHeader] := by
  unfold validateMatchingHost at h
  split at h
  · cases h
  · cases h
  · next hostHeader hhost => exact ⟨hostHeader, hhost⟩

/-- The rewritten head has no more fields than the head it comes from. -/
theorem length_sanitizedHeaders {headers : List RawHeader} {hostHeader : RawHeader} (target : TargetAuthority)
    (hhost : headers.filter (isNamed · (ascii "host")) = [hostHeader]) :
    (sanitizedHeaders headers target).length ≤ headers.length := by
  have hsplit := List.length_eq_length_filter_add (l := headers) (isNamed · (ascii "host"))
  have hkept : (headers.filter (fun header => !(isNamed header (ascii "host") || isProxyOnlyHeader header))).length ≤
      (headers.filter (fun header => !isNamed header (ascii "host"))).length := by
    refine (List.monotone_filter_right headers ?_).length_le
    intro header h
    simp only [Bool.not_or, Bool.and_eq_true] at h
    exact h.1
  rw [hhost] at hsplit
  simp only [sanitizedHeaders, List.length_cons] at hsplit ⊢
  simp only [List.length_nil] at hsplit
  omega

/-- The rewritten head is made of well-formed fields. -/
theorem isField_sanitizedHeaders {types : HttpTypes} {headers : List RawHeader} {raw : Str} {target : TargetAuthority}
    (hfields : ∀ header ∈ headers, IsField header) (htarget : parseTargetAuthority types raw (some 80) = .ok target) :
    ∀ header ∈ sanitizedHeaders headers target, IsField header := by
  intro header hmem
  rcases List.mem_cons.mp hmem with rfl | hmem
  · refine ⟨(by decide +kernel : IsToken (ascii "Host")), ?_⟩
    have hvisible := toUtf8_visible (hostHeaderValue_visible htarget 80)
    have hnotBlank : ∀ b : UInt8, 33 ≤ b ∧ b < 127 → isBlank b = false := by
      intro b hb
      simp only [isBlank, Bool.or_eq_false_iff, beq_eq_false_iff_ne]
      exact ⟨fun h => absurd hb.1 (by rw [h]; decide), fun h => absurd hb.1 (by rw [h]; decide)⟩
    refine ⟨?_, ?_, ?_⟩
    · intro b hb
      have hbounds := hvisible b hb
      exact .inr ⟨UInt8.le_trans (by decide) hbounds.1, fun h => absurd hbounds.2 (by rw [h]; decide)⟩
    · cases hhead : (toUtf8 (target.hostHeaderValue 80)).head? with
      | none => rfl
      | some b => exact hnotBlank b (hvisible b (List.mem_of_head? hhead))
    · cases hlast : (toUtf8 (target.hostHeaderValue 80)).getLast? with
      | none => rfl
      | some b => exact hnotBlank b (hvisible b (List.mem_of_getLast? hlast))
  · exact hfields header (List.mem_of_mem_filter hmem)

end Fields
section Replay
variable {httparse : Httparse} {types : HttpTypes} {buffer : Bytes} {headLen : Nat} {decoded : DecodedExplicitRequest}

/-- An accepted absolute-form request, check by check. -/
theorem parseExplicitRequest_absolute (h : parseExplicitRequest httparse types buffer headLen = .ok decoded)
    (habsolute : decoded.protocol = .httpAbsoluteForm) :
    ∃ raw method path uri authority, httparse.request.run (buffer.take headLen) = .complete raw headLen ∧
      raw.method = some method ∧ raw.path = some path ∧ types.uriTryFrom path = some uri ∧
      uri.scheme = some (ascii "http") ∧ uri.authority = some authority ∧
      parseTargetAuthority types ((fromUtf8 authority).getD []) (some 80) = .ok decoded.target ∧
      validateMatchingHost types raw.headers decoded.target 80 = .ok () ∧ validateHttpFraming raw.headers = .ok () ∧
      decoded.clientPrefix =
        sanitizedAbsoluteRequestPrefix method uri raw.headers decoded.target (buffer.drop headLen) := by
  obtain ⟨raw, method, path, hraw, _, hmethod, hpath, hconnect | habs⟩ := parseExplicitRequest_ok h
  · rw [(parseConnect_ok hconnect.2).2.2.2.1] at habsolute
    cases habsolute
  · obtain ⟨uri, authority, huri, hscheme, hauthority, htarget, hhost, hframing, _, hclient⟩ := parseAbsoluteHttp_ok habs
    exact ⟨raw, method, path, uri, authority, hraw, hmethod, hpath, huri, hscheme, hauthority, htarget, hhost, hframing,
      hclient⟩

/-- The fields removed by the rewriting have short names. -/
theorem names_sanitizedHeaders {headers : List RawHeader} {target : TargetAuthority} :
    (∀ header ∈ sanitizedHeaders headers target, header.name.length < 65536) ↔
      ∀ header ∈ headers, header.name.length < 65536 := by
  have hshort : ∀ header : RawHeader, ∀ name : Bytes, name.length < 65536 → isNamed header name = true →
      header.name.length < 65536 := by
    intro header name hname hnamed
    have hlen := congrArg List.length (beq_iff_eq.mp hnamed)
    rw [List.length_map, List.length_map] at hlen
    rwa [hlen]
  constructor
  · intro h header hmem
    by_cases hremoved : (isNamed header (ascii "host") || isProxyOnlyHeader header) = true
    · simp only [isProxyOnlyHeader, Bool.or_eq_true] at hremoved
      rcases hremoved with hhost | (hauthorization | hconnection) | hauthenticate
      · exact hshort header _ (by decide) hhost
      · exact hshort header _ (by decide) hauthorization
      · exact hshort header _ (by decide) hconnection
      · exact hshort header _ (by decide) hauthenticate
    · exact h header (List.mem_cons_of_mem _ (List.mem_filter.mpr ⟨hmem, by simpa using hremoved⟩))
  · intro h header hmem
    rcases List.mem_cons.mp hmem with rfl | hmem
    · exact (by decide : (ascii "Host").length < 65536)
    · exact h header (List.mem_of_mem_filter hmem)

theorem isTarget_originTarget (htypes : HttpTypesLaws types) {path : Bytes} {uri : Uri} (hpath : IsTarget path)
    (huri : types.uriTryFrom path = some uri) : IsTarget (originTarget uri) := by
  unfold originTarget
  split
  · next value hvalue => exact htypes.pathAndQuery hpath huri hvalue
  · decide +kernel

/-- The head parser reports a rewritten head as its parts. -/
theorem rewritten_reported (hhttparse : HttparseLaws httparse) (htypes : HttpTypesLaws types)
    (hdecoded : parseExplicitRequest httparse types buffer headLen = .ok decoded)
    (habsolute : decoded.protocol = .httpAbsoluteForm) :
    ∃ raw method path uri, httparse.request.run (buffer.take headLen) = .complete raw headLen ∧
      raw.method = some method ∧ raw.path = some path ∧ types.uriTryFrom path = some uri ∧ IsToken method ∧
      (∀ header ∈ raw.headers, IsField header) ∧
      (∀ header ∈ sanitizedHeaders raw.headers decoded.target, IsField header) ∧
      validateHttpFraming raw.headers = .ok () ∧
      httparse.request.run decoded.clientPrefix =
        .complete ⟨some method, some (originTarget uri), some 1, sanitizedHeaders raw.headers decoded.target⟩
          (requestHeadText method (originTarget uri) (sanitizedHeaders raw.headers decoded.target)).length := by
  obtain ⟨raw, method, path, uri, authority, hraw, hmethod, hpath, huri, -, -, htarget, hhost, hframing, hclient⟩ :=
    parseExplicitRequest_absolute hdecoded habsolute
  obtain ⟨hmethods, hpaths, hfields, hroom⟩ := hhttparse.sound hraw
  obtain ⟨hostHeader, hhostHeader⟩ := validateMatchingHost_ok hhost
  have hsanitized := isField_sanitizedHeaders hfields htarget
  refine ⟨raw, method, path, uri, hraw, hmethod, hpath, huri, hmethods method hmethod, hfields, hsanitized, hframing, ?_⟩
  rw [hclient]
  exact hhttparse.canonical _ (hmethods method hmethod) (isTarget_originTarget htypes (hpaths path hpath) huri)
    hsanitized (Nat.le_trans (length_sanitizedHeaders decoded.target hhostHeader) hroom)

/-- The request that a rewritten head decodes to. -/
theorem rewritten_request (htypes : HttpTypesLaws types) {method target : Bytes} {uri : Uri} {headers : List RawHeader}
    (htoken : IsToken method) (huri : types.uriTryFrom target = some uri) (hfields : ∀ header ∈ headers, IsField header)
    (hnames : ∀ header ∈ headers, header.name.length < 65536) :
    ∃ method', requestFromRaw types ⟨some method, some target, some 1, headers⟩ =
      .ok ⟨method', uri, .http11, loweredFields headers⟩ := by
  obtain ⟨method', hmethod'⟩ := Option.isSome_iff_exists.mp (htypes.method htoken)
  refine ⟨method', requestFromRaw_ok.mpr ⟨method, target, 1, rfl, hmethod', rfl, huri, rfl, rfl, ?_⟩⟩
  exact (appendHeaders_fields htypes hfields).mpr ⟨hnames, by simp⟩

/-- An accepted absolute-form request keeps its framing through the rewriting exactly on portable inputs. -/
theorem framingAgrees_iff (hhttparse : HttparseLaws httparse) (htypes : HttpTypesLaws types) {raw : RawRequest} {n : Nat}
    (hdecoded : parseExplicitRequest httparse types buffer headLen = .ok decoded)
    (habsolute : decoded.protocol = .httpAbsoluteForm)
    (hraw : httparse.request.run (buffer.take headLen) = .complete raw n) :
    FramingAgrees httparse types raw.headers decoded.clientPrefix ↔ Portable types raw := by
  obtain ⟨raw', method, path, uri, hraw', -, hpath, huri, htoken, hfields, hsanitized, hframing, hreplay⟩ :=
    rewritten_reported hhttparse htypes hdecoded habsolute
  obtain ⟨rfl, rfl⟩ := Answer.complete.inj (hraw.symm.trans hraw')
  have hmap : ∀ {headers : HeaderMap}, appendHeaders types ⟨[]⟩ (sanitizedHeaders raw.headers decoded.target) = .ok headers ↔
      (∀ header ∈ raw.headers, header.name.length < 65536) ∧
        headers = loweredFields (sanitizedHeaders raw.headers decoded.target) := by
    intro headers
    rw [appendHeaders_fields htypes hsanitized, names_sanitizedHeaders, List.nil_append]
  have hagrees : ∀ request : Request, request.headers = loweredFields (sanitizedHeaders raw.headers decoded.target) →
      (requestBodyFraming request = .ok (validatedFraming raw.headers) ↔ AsciiFraming raw.headers) := by
    intro request hheaders
    refine agrees_iff_ascii hfields ?_ ?_ hframing
    · rw [hheaders, getAll_loweredFields (by decide), fieldValues_sanitizedHeaders _ _ (by decide) (by decide)]
    · rw [hheaders, getAll_loweredFields (by decide), fieldValues_sanitizedHeaders _ _ (by decide) (by decide)]
  constructor
  · rintro ⟨request, headLen', hcomplete, hselected⟩
    obtain ⟨raw'', hraw'', hrequest⟩ := Incremental.tryMap_complete _ hcomplete
    obtain ⟨rfl, -⟩ := Answer.complete.inj (hreplay.symm.trans hraw'')
    obtain ⟨_, target, _, -, -, htargetSome, huriSome, -, -, hheaders⟩ := requestFromRaw_ok.mp hrequest
    obtain rfl := Option.some.inj htargetSome
    obtain ⟨hnames, hheaders⟩ := hmap.mp hheaders
    refine ⟨?_, hnames, (hagrees request hheaders).mp hselected⟩
    intro path' uri' hpath' huri'
    obtain rfl := Option.some.inj (hpath.symm.trans hpath')
    obtain rfl := Option.some.inj (huri.symm.trans huri')
    rw [huriSome]
    rfl
  · intro hportable
    obtain ⟨uri', huri'⟩ := Option.isSome_iff_exists.mp (hportable.target path uri hpath huri)
    obtain ⟨method', hrequest⟩ := rewritten_request htypes htoken huri' hsanitized
      (names_sanitizedHeaders.mpr hportable.names)
    exact ⟨_, _, Incremental.complete_tryMap _ hreplay hrequest, (hagrees _ rfl).mpr hportable.framing⟩

/-- The head parsers on canonical requests. -/
def canonicalHttparse : Httparse := ⟨canonicalRequest, plainHttparse.response⟩

def plainTarget : TargetAuthority := ⟨.dns "h".toList, 80, httpPort_ne_zero⟩

/-- A proxied upload with a declared length. -/
def uploadBuffer : Bytes := ascii "POST http://h/x HTTP/1.1\r\nHost: h\r\nContent-Length: 2\r\n\r\nok"

def uploadRaw : RawRequest :=
  ⟨some (ascii "POST"), some (ascii "http://h/x"), some 1,
    [⟨ascii "Host", ascii "h"⟩, ⟨ascii "Content-Length", ascii "2"⟩]⟩

def uploadDecoded : DecodedExplicitRequest :=
  ⟨plainTarget, .httpAbsoluteForm, ascii "POST /x HTTP/1.1\r\nHost: h\r\nContent-Length: 2\r\n\r\nok"⟩

theorem framingAgrees_upload : FramingAgrees canonicalHttparse canonicalTypes uploadRaw.headers uploadDecoded.clientPrefix := by
  have hdecoded : parseExplicitRequest canonicalHttparse canonicalTypes uploadBuffer 56 = .ok uploadDecoded := by
    rw [uploadBuffer, ascii_ofList, uploadDecoded, ascii_ofList]
    decide +kernel
  have hraw : canonicalHttparse.request.run (uploadBuffer.take 56) = .complete uploadRaw 56 := by
    rw [uploadBuffer, ascii_ofList]
    decide +kernel
  refine (@framingAgrees_iff canonicalHttparse canonicalTypes uploadBuffer 56 uploadDecoded
    (canonicalRequest_laws _) canonicalTypes_laws uploadRaw 56 hdecoded rfl hraw).mpr ?_
  refine ⟨?_, by decide, by decide, ?_⟩
  · rintro path uri ⟨⟩ huri
    obtain rfl : _ = uri := Option.some.inj huri
    decide
  · intro value hvalue
    have hnone : (fieldValues uploadRaw.headers (ascii "transfer-encoding")).getLast? = none := by decide
    rw [hnone] at hvalue
    cases hvalue

/-- The final coding is followed by a no-break space. -/
def spacedBuffer : Bytes :=
  ascii "POST http://h/x HTTP/1.1\r\nHost: h\r\nTransfer-Encoding: chunked" ++ [0xC2, 0xA0] ++ crlf ++ crlf

def spacedRaw : RawRequest :=
  ⟨some (ascii "POST"), some (ascii "http://h/x"), some 1,
    [⟨ascii "Host", ascii "h"⟩, ⟨ascii "Transfer-Encoding", ascii "chunked" ++ [0xC2, 0xA0]⟩]⟩

def spacedDecoded : DecodedExplicitRequest :=
  ⟨plainTarget, .httpAbsoluteForm,
    ascii "POST /x HTTP/1.1\r\nHost: h\r\nTransfer-Encoding: chunked" ++ [0xC2, 0xA0] ++ crlf ++ crlf⟩

/-- The decoder validates a chunked body, and the relay sees none. -/
theorem spaced_coding_disagrees :
    parseExplicitRequest canonicalHttparse canonicalTypes spacedBuffer spacedBuffer.length = .ok spacedDecoded ∧
    canonicalHttparse.request.run (spacedBuffer.take spacedBuffer.length) = .complete spacedRaw spacedBuffer.length ∧
    validatedFraming spacedRaw.headers = .chunked ∧
    ¬ FramingAgrees canonicalHttparse canonicalTypes spacedRaw.headers spacedDecoded.clientPrefix := by
  have hfacts : parseExplicitRequest canonicalHttparse canonicalTypes spacedBuffer spacedBuffer.length = .ok spacedDecoded ∧
      canonicalHttparse.request.run (spacedBuffer.take spacedBuffer.length) = .complete spacedRaw spacedBuffer.length := by
    rw [spacedBuffer, ascii_ofList, spacedDecoded, ascii_ofList]
    decide +kernel
  refine ⟨hfacts.1, hfacts.2, by decide, ?_⟩
  rintro ⟨request, n, hrun, hframing⟩
  have hreplayed : (parseRequestHead canonicalHttparse canonicalTypes).run spacedDecoded.clientPrefix =
      .complete ⟨ascii "POST", ⟨none, none, some ⟨ascii "/x", ascii "/x"⟩, ascii "/x"⟩, .http11,
        loweredFields (sanitizedHeaders spacedRaw.headers plainTarget)⟩ spacedDecoded.clientPrefix.length := by
    rw [spacedDecoded, ascii_ofList]
    decide +kernel
  obtain ⟨rfl, -⟩ := Answer.complete.inj (hreplayed.symm.trans hrun)
  revert hframing
  decide

end Replay
end Abyss.Mitm.Explicit
