import Abyss.Stream.Marker
import Abyss.Mitm.Explicit.Request
import Abyss.Mitm.Flow.Detection

/-! The explicit proxy reads a bounded request head from an accepted socket. One read may
also bring bytes of the tunnel behind it, which are served again to the shared pipeline. -/
namespace Abyss.Mitm.Explicit
open Abyss.Stream Abyss.Mitm.Http Abyss.Mitm.Flow

/-- `MAX_EXPLICIT_PROXY_HEADER_BYTES`. -/
def maxExplicitProxyHeaderBytes : Nat := 16 * 1024

/-- `HTTP_HEAD_TERMINATOR`. -/
def httpHeadTerminator : Bytes := crlf ++ crlf

def findRequestHeadLen (buffer : Bytes) : Option Nat :=
  (findMarker httpHeadTerminator buffer).map (· + httpHeadTerminator.length)

/-- The decision on the bytes read so far: the length of the head, or that it is too long. -/
def requestHeadDecision (maxHeaderBytes : Nat) (buffer : Bytes) : Option (Except ExplicitRequestError Nat) :=
  match findRequestHeadLen buffer with
  | some headLen =>
    if maxHeaderBytes < headLen then some (.error (.headerTooLarge maxHeaderBytes)) else some (.ok headLen)
  | none => if maxHeaderBytes ≤ buffer.length then some (.error (.headerTooLarge maxHeaderBytes)) else none

/-- The reads of `read_request_head`, with room for `chunk` bytes each. -/
def requestHeadCollector (maxHeaderBytes chunk : Nat) : Collector UInt8 Unit (Except ExplicitRequestError Nat) where
  check := requestHeadDecision maxHeaderBytes
  cap read := min (maxHeaderBytes - read) chunk
  feed _ _ := .ok ()

/-- `ExplicitRequestDecoder::decode`; the stream stays with the caller. -/
def decodeExplicit (httparse : Httparse) (types : HttpTypes) (maxHeaderBytes chunk : Nat) (stream : ClientStream) :
    Except ExplicitRequestError DecodedExplicitRequest × ClientStream :=
  let collected := (requestHeadCollector maxHeaderBytes chunk).collect () [] stream
  (match collected.halt with
    | .decided (.ok headLen) => parseExplicitRequest httparse types collected.items headLen
    | .decided (.error e) => .error e
    | .ended => .error .incompleteRequest
    | .broken source => .error (.io source), collected.rest)

theorem findRequestHeadLen_append {buffer : Bytes} {headLen : Nat} (more : Bytes)
    (h : findRequestHeadLen buffer = some headLen) :
    findRequestHeadLen (buffer ++ more) = some headLen ∧ headLen ≤ buffer.length := by
  obtain ⟨i, hi, rfl⟩ := Option.map_eq_some_iff.mp h
  exact ⟨by rw [findRequestHeadLen, findMarker_append more hi]; rfl, findMarker_bound hi⟩

private theorem requestHeadDecision_ok {maxHeaderBytes headLen : Nat} {buffer : Bytes}
    (h : requestHeadDecision maxHeaderBytes buffer = some (.ok headLen)) :
    findRequestHeadLen buffer = some headLen ∧ headLen ≤ maxHeaderBytes := by
  unfold requestHeadDecision at h
  split at h
  · next n hn =>
    split at h
    · simp at h
    · next hle =>
      obtain rfl := (by simpa using h : n = headLen)
      exact ⟨hn, Nat.le_of_not_lt hle⟩
  · split at h <;> simp at h

/-- A decoded request is the head at the front of the socket's stream, and nothing that was read
behind the head is lost. -/
theorem decodeExplicit_ok {httparse : Httparse} {types : HttpTypes} {maxHeaderBytes chunk : Nat}
    {stream rest : ClientStream} {decoded : DecodedExplicitRequest} (hchunk : 0 < chunk)
    (h : decodeExplicit httparse types maxHeaderBytes chunk stream = (.ok decoded, rest)) :
    ∃ buffer headLen, buffer ++ rest.contents = stream.contents ∧ findRequestHeadLen buffer = some headLen ∧
      headLen ≤ maxHeaderBytes ∧ parseExplicitRequest httparse types buffer headLen = .ok decoded ∧
      rest.ending = stream.ending := by
  have hstop : (requestHeadCollector maxHeaderBytes chunk).Stopped (fun _ _ => True) stream.ending
      ((requestHeadCollector maxHeaderBytes chunk).collect () [] stream) := by
    refine Collector.collect_stopped ?_ (fun _ _ _ _ _ _ => trivial) trivial rfl
    intro items _ _ hcheck
    simp only [requestHeadCollector, requestHeadDecision] at hcheck ⊢
    split at hcheck
    · split at hcheck <;> simp at hcheck
    · split at hcheck
      · simp at hcheck
      · omega
  have hsplit := (requestHeadCollector maxHeaderBytes chunk).collect_contents () [] stream
  simp only [decodeExplicit, Prod.mk.injEq] at h
  obtain ⟨hparse, rfl⟩ := h
  split at hparse
  · next headLen hhalt =>
    have hend := (requestHeadCollector maxHeaderBytes chunk).collect_ending () [] stream hhalt
    unfold Collector.Stopped at hstop
    rw [hhalt] at hstop
    rcases hstop with ⟨_, _, hcheck⟩ | ⟨_, _, _, _, _, _, _, _, hfeed⟩
    · obtain ⟨hfind, hle⟩ := requestHeadDecision_ok hcheck
      exact ⟨_, headLen, by simpa using hsplit, hfind, hle, hparse, hend⟩
    · cases hfeed
  all_goals cases hparse

theorem parseExplicitRequest_connect {httparse : Httparse} {types : HttpTypes} {buffer : Bytes} {headLen : Nat}
    {decoded : DecodedExplicitRequest} (h : parseExplicitRequest httparse types buffer headLen = .ok decoded)
    (hconnect : decoded.protocol = .httpConnect) : decoded.clientPrefix = buffer.drop headLen := by
  obtain ⟨raw, method, path, _, _, _, _, hparse | habsolute⟩ := parseExplicitRequest_ok h
  · exact (parseConnect_ok hparse.2).2.2.2.2
  · obtain ⟨_, _, _, _, _, _, _, _, hprotocol, _⟩ := parseAbsoluteHttp_ok habsolute
    rw [hprotocol] at hconnect
    cases hconnect

/-- Behind a `CONNECT` head the replayed bytes and the rest of the socket are the tunnel, whatever was
read together with the head. -/
theorem decodeExplicit_tunnel {httparse : Httparse} {types : HttpTypes} {maxHeaderBytes chunk : Nat}
    {stream rest : ClientStream} {decoded : DecodedExplicitRequest} (hchunk : 0 < chunk)
    (h : decodeExplicit httparse types maxHeaderBytes chunk stream = (.ok decoded, rest))
    (hconnect : decoded.protocol = .httpConnect) :
    ∃ headLen, findRequestHeadLen stream.contents = some headLen ∧
      (withReadPrefix decoded.clientPrefix rest).contents = stream.contents.drop headLen := by
  obtain ⟨buffer, headLen, hsplit, hfind, _, hparse, _⟩ := decodeExplicit_ok hchunk h
  obtain ⟨hall, hle⟩ := findRequestHeadLen_append rest.contents hfind
  refine ⟨headLen, hsplit ▸ hall, ?_⟩
  rw [contents_withReadPrefix, parseExplicitRequest_connect hparse hconnect, ← hsplit,
    List.drop_append_of_le_length hle]

end Abyss.Mitm.Explicit
