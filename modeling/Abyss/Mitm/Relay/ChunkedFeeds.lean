import Abyss.Mitm.Relay.ChunkedBody

/-! Whole runs of the chunked push parser: any division of a byte string into
nonempty reads gives the same verdict, capture and byte count. -/
namespace Abyss.Mitm.Relay
open Abyss.Stream

namespace ChunkedBodyCapture

/-- Feed reads in turn until the first result, which comes with the reads not fed. -/
def feedAll (parser : ChunkSizeParser) (maxBodyBytes : Nat) (c : ChunkedBodyCapture) :
    List Bytes → Except TransparentFlowError (Option (BodyCapture × List Bytes))
  | [] => .ok none
  | bytes :: rest =>
    match c.feed parser bytes maxBodyBytes with
    | .error e => .error e
    | .ok (some capture, _) => .ok (some (capture, rest))
    | .ok (none, next) => feedAll parser maxBodyBytes next rest

/-- A run that ends with its last read has seen one complete body. -/
theorem Fed.feedAll_sound {parser : ChunkSizeParser} {maxBodyBytes : Nat} {direction : BodyDirection}
    {seen : Bytes} {c : ChunkedBodyCapture} (h : Fed parser maxBodyBytes direction seen c)
    {feeds : List Bytes} {capture : BodyCapture}
    (hrun : feedAll parser maxBodyBytes c feeds = .ok (some (capture, []))) :
    (seen ++ feeds.flatten).length < u64Bound ∧ ∃ payload, ChunkedBody parser (seen ++ feeds.flatten) payload := by
  induction feeds generalizing seen c with
  | nil => cases hrun
  | cons bytes rest ih =>
    have hfeed := h.feed bytes
    rw [feedAll] at hrun
    rw [List.flatten_cons, ← List.append_assoc]
    split at hrun
    · cases hrun
    · next found _ heq =>
      rw [heq] at hfeed
      cases hrun
      obtain ⟨payload, hbody, -, hlt⟩ := hfeed
      rw [List.flatten_nil, List.append_nil]
      exact ⟨hlt, payload, hbody⟩
    · next next heq =>
      rw [heq] at hfeed
      exact ih hfeed.1 hrun

/-- A run over a complete body ends with its last read, and its result is determined. -/
theorem Fed.feedAll_complete {parser : ChunkSizeParser} {maxBodyBytes : Nat} {direction : BodyDirection}
    {seen payload : Bytes} {c : ChunkedBodyCapture} (h : Fed parser maxBodyBytes direction seen c)
    {feeds : List Bytes} (hne : ∀ bytes ∈ feeds, bytes ≠ []) (hfeeds : feeds ≠ [])
    (hlen : (seen ++ feeds.flatten).length < u64Bound)
    (hbody : ChunkedBody parser (seen ++ feeds.flatten) payload) :
    feedAll parser maxBodyBytes c feeds = .ok (some
      (⟨observed payload maxBodyBytes, (seen ++ feeds.flatten).length, none⟩, [])) := by
  induction feeds generalizing seen c with
  | nil => exact absurd rfl hfeeds
  | cons bytes rest ih =>
    have hfeed := h.feed bytes
    rw [List.flatten_cons, ← List.append_assoc] at hbody hlen ⊢
    rw [feedAll]
    split at hfeed
    · next next heq =>
      obtain ⟨hfed, -, hlonger⟩ := hfeed
      simp only [heq]
      refine ih hfed (fun b hb => hne b (List.mem_cons_of_mem _ hb)) ?_ hlen hbody
      intro hnil
      have := hlonger [] _ _ hbody (by rw [List.append_nil, hnil, List.flatten_nil, List.append_nil])
      simp [hnil] at this
    · next capture _ heq =>
      obtain ⟨payload', hbody', rfl, -⟩ := hfeed
      obtain ⟨hwire, rfl⟩ := hbody.unique hbody' List.prefix_rfl (List.prefix_append ..)
      have hflat : rest.flatten = [] := List.append_right_eq_self.mp hwire
      have hrest : rest = [] := by
        cases rest with
        | nil => rfl
        | cons b bs =>
          rw [List.flatten_cons, List.append_eq_nil_iff] at hflat
          exact absurd hflat.1 (hne b (by simp))
      simp only [heq, hrest, List.flatten_nil, List.append_nil]
    · next e heq =>
      rcases hfeed with ⟨-, hover⟩ | hstop
      · rw [List.length_append] at hlen
        omega
      · have hshort := (hstop rest.flatten _ _ hbody List.prefix_rfl).1
        rw [List.length_append] at hshort
        omega

/-- Over every division of `w` into nonempty reads, the parser finishes exactly at the end of `w`
iff `w` is one complete chunked body that its counter can count, and then the captured front
part, the truncation flag and the count are those of `w`. -/
theorem feedAll_exact (parser : ChunkSizeParser) (maxBodyBytes : Nat) (direction : BodyDirection)
    (w : Bytes) (feeds : List Bytes) (hw : feeds.flatten = w) (hne : ∀ bytes ∈ feeds, bytes ≠ []) :
    ((∃ capture, feedAll parser maxBodyBytes (new direction) feeds = .ok (some (capture, []))) ↔
      w.length < u64Bound ∧ ∃ payload, ChunkedBody parser w payload) ∧
    ∀ payload, ChunkedBody parser w payload → w.length < u64Bound →
      ∃ body, feedAll parser maxBodyBytes (new direction) feeds = .ok (some (⟨body, w.length, none⟩, [])) ∧
        body.bytes = payload.take maxBodyBytes ∧ (body.truncated = true ↔ maxBodyBytes < payload.length) := by
  subst hw
  have hstart := fed_new parser maxBodyBytes direction
  have hrun : ∀ payload, ChunkedBody parser feeds.flatten payload → feeds.flatten.length < u64Bound →
      feedAll parser maxBodyBytes (new direction) feeds =
        .ok (some (⟨observed payload maxBodyBytes, feeds.flatten.length, none⟩, [])) := by
    intro payload hbody hlen
    refine hstart.feedAll_complete hne ?_ hlen hbody
    rintro rfl
    exact hbody.ne_nil rfl
  refine ⟨⟨?_, ?_⟩, ?_⟩
  · rintro ⟨capture, h⟩
    exact hstart.feedAll_sound h
  · rintro ⟨hlen, payload, hbody⟩
    exact ⟨_, hrun payload hbody hlen⟩
  · intro payload hbody hlen
    obtain ⟨hbytes, -, htrunc, -⟩ := observed_view payload maxBodyBytes
    exact ⟨observed payload maxBodyBytes, hrun payload hbody hlen, hbytes, htrunc⟩

private theorem plain_line_one : SizeLine plainSizeParser (ascii "1\r\n") 1 := ⟨by decide, by decide⟩

private theorem plain_line_zero : SizeLine plainSizeParser (ascii "0\r\n") 0 := ⟨by decide, by decide⟩

theorem feedAll_exact_split_size_line :
    ∃ body, feedAll plainSizeParser 0 (new .request) [ascii "1\r", ascii "\nA\r\n0\r\n\r\n"] =
      .ok (some (⟨body, 11, none⟩, [])) ∧ body.bytes = [] ∧ body.truncated = true := by
  have hlast : ChunkedBody plainSizeParser (ascii "0\r\n" ++ crlf) [] := .last plain_line_zero (.inl rfl)
  have hbody : ChunkedBody plainSizeParser (ascii "1\r\n" ++ (ascii "A" ++ (crlf ++ (ascii "0\r\n" ++ crlf))))
      (ascii "A" ++ []) := .chunk plain_line_one (by decide) hlast
  obtain ⟨body, hrun, hbytes, htrunc⟩ := (feedAll_exact plainSizeParser 0 .request
    (ascii "1\r\nA\r\n0\r\n\r\n") [ascii "1\r", ascii "\nA\r\n0\r\n\r\n"] (by decide) (by decide)).2
    (ascii "A") hbody (by decide)
  exact ⟨body, hrun, hbytes, htrunc.mpr (by decide)⟩

/-- A second blank line is not a trailer: after the lone CRLF that ends the trailer section it is
surplus, although it completes a bounded section that ends at its first blank line. -/
theorem feedAll_rejects_second_blank_line :
    (∃ line trailer, ascii "0\r\n\r\n\r\n" = line ++ trailer ∧ SizeLine plainSizeParser line 0 ∧
      (trailer = crlf ∨ EndsAtBlankLine trailer)) ∧
    ¬ ∃ capture, feedAll plainSizeParser 1024 (new .request) [ascii "0\r\n\r\n\r\n"] =
      .ok (some (capture, [])) := by
  constructor
  · exact ⟨ascii "0\r\n", ascii "\r\n\r\n", by decide, plain_line_zero, .inr ⟨by decide, 0, by decide, by decide⟩⟩
  · rintro ⟨capture, hrun⟩
    obtain ⟨-, payload, hbody⟩ := (fed_new plainSizeParser 1024 .request).feedAll_sound hrun
    have hfirst : ChunkedBody plainSizeParser (ascii "0\r\n" ++ crlf) [] := .last plain_line_zero (.inl rfl)
    have heq := (hbody.unique hfirst List.prefix_rfl (by decide)).1
    exact absurd heq (by decide)

end ChunkedBodyCapture
end Abyss.Mitm.Relay
