import Abyss.Mitm.Outbound.HttpConnect

/-! The verdict of a CONNECT negotiation is a function of the proxy's byte stream, whatever its
fragmentation: the tunnel opens exactly behind a 2xx head that follows few enough informational ones. -/
namespace Abyss.Mitm.Outbound
open Abyss.Stream Abyss.Mitm.Http Abyss.Mitm.Explicit

section Loop
variable {httparse : Httparse}

/-- On the front part of a stream the loop comes to the verdict on the whole stream. -/
theorem readConnectResponse_verdict (buffer : Bytes) (informational : Nat) (reader : Reader) :
    verdict (readConnectResponse httparse buffer informational reader) =
      expected httparse reader.ending (maxInformationalResponses - informational) (buffer ++ reader.contents) := by
  fun_induction readConnectResponse httparse buffer informational reader with
  | case1 buffer informational reader e hrun =>
    rw [expected, httparse.response.invalid_append _ hrun]
    rfl
  | case2 buffer informational reader response length hrun hlong =>
    rw [expected, httparse.response.complete_append _ hrun]
    simp only [if_pos hlong]
    rfl
  | case3 buffer informational reader response length hrun hlong hcode =>
    rw [expected, httparse.response.complete_append _ hrun]
    simp only [if_neg hlong, hcode]
    rfl
  | case4 buffer informational reader response length hrun hlong status hcode hsuccess =>
    rw [expected, httparse.response.complete_append _ hrun]
    simp only [if_neg hlong, hcode, if_pos hsuccess, verdict]
    rw [List.drop_append_of_le_length (httparse.response.consumed_le hrun)]
  | case5 buffer informational reader response length hrun hlong status hcode hsuccess hinterim ih =>
    obtain ⟨hstatus, hswitch, hroom⟩ := hinterim
    obtain ⟨limit, hlimit⟩ : ∃ limit, maxInformationalResponses - informational = limit + 1 :=
      ⟨maxInformationalResponses - informational - 1, by omega⟩
    have hnext : maxInformationalResponses - (informational + 1) = limit := by omega
    rw [ih, hnext, hlimit]
    conv => rhs; rw [expected, httparse.response.complete_append _ hrun]
    simp only [if_neg hlong, hcode, if_neg hsuccess, if_pos hstatus, if_neg hswitch]
    rw [List.drop_append_of_le_length (httparse.response.consumed_le hrun)]
  | case6 buffer informational reader response length hrun hlong status hcode hsuccess hinterim hstatus =>
    rw [expected, httparse.response.complete_append _ hrun]
    simp only [if_neg hlong, hcode, if_neg hsuccess, if_pos hstatus, verdict]
    split
    · rfl
    · next limit hlimit =>
      have hswitch : status = 101 := by
        by_contra hne
        exact hinterim ⟨hstatus, hne, by omega⟩
      rw [if_pos hswitch]
  | case7 buffer informational reader response length hrun hlong status hcode hsuccess hinterim hstatus =>
    rw [expected, httparse.response.complete_append _ hrun]
    simp only [if_neg hlong, hcode, if_neg hsuccess, if_neg hstatus, verdict]
  | case8 buffer informational reader hrun hfull =>
    -- A head that is complete in the whole stream ends behind the buffer, so it is too long.
    rw [expected]
    cases hwhole : httparse.response.run (buffer ++ reader.contents) with
    | invalid e => rfl
    | incomplete =>
      have hlong : maxHeaderBytes ≤ (buffer ++ reader.contents).length := by rw [List.length_append]; omega
      simp only [if_pos hlong]
      rfl
    | complete response length =>
      have hlong : maxHeaderBytes < length := by
        by_contra hle
        rw [httparse.response.complete_of_append hwhole (by omega)] at hrun
        cases hrun
      simp only [if_pos hlong]
      rfl
  | case9 buffer informational reader hrun hfull source reader' hread =>
    obtain ⟨-, hempty, hending⟩ := Source.read_error hread
    rw [expected, hempty, List.append_nil, hrun, hending]
    simp only [if_neg hfull]
    rfl
  | case10 buffer informational reader hrun hfull reader' hread =>
    obtain ⟨-, hempty, hending⟩ := Source.read_empty (by decide) hread
    rw [expected, hempty, List.append_nil, hrun, hending]
    simp only [if_neg hfull]
    rfl
  | case11 buffer informational reader hrun hfull b bs reader' hread ih =>
    obtain ⟨hcontents, -, hending⟩ := Source.read_contents hread
    rw [ih, hending, hcontents, List.append_assoc]

end Loop

section Verdict
variable {httparse : Httparse} {ending : Option ErrorKind}

theorem IsHead.run_append {status : Nat} {head : Bytes} (h : IsHead httparse status head) (rest : Bytes) :
    ∃ response, httparse.response.run (head ++ rest) = .complete response head.length ∧ response.code = some status ∧
      ¬ maxHeaderBytes < head.length := by
  obtain ⟨response, hrun, hcode, hle⟩ := h
  exact ⟨response, httparse.response.complete_append rest hrun, hcode, Nat.not_lt.mpr hle⟩

/-- A complete head is the front part of the stream. -/
theorem isHead_take {contents : Bytes} {response : RawResponse} {length status : Nat}
    (hrun : httparse.response.run contents = .complete response length) (hcode : response.code = some status)
    (hle : ¬ maxHeaderBytes < length) : IsHead httparse status (contents.take length) := by
  have hlength : (contents.take length).length = length := List.length_take_of_le (httparse.response.consumed_le hrun)
  refine ⟨response, ?_, hcode, ?_⟩
  · rw [hlength]
    exact httparse.response.front hrun
  · rw [hlength]
    exact Nat.le_of_not_lt hle

theorem areInterim_nil (limit : Nat) : AreInterim httparse limit [] := ⟨Nat.zero_le _, nofun⟩

theorem areInterim_cons {limit : Nat} {head : Bytes} {heads : List Bytes} :
    AreInterim httparse (limit + 1) (head :: heads) ↔
      (∃ status, IsInformational status ∧ status ≠ 101 ∧ IsHead httparse status head) ∧ AreInterim httparse limit heads := by
  rw [AreInterim, AreInterim, List.length_cons, Nat.add_le_add_iff_right, List.forall_mem_cons]
  exact ⟨fun ⟨hlength, hhead, hheads⟩ => ⟨hhead, hlength, hheads⟩, fun ⟨hhead, hlength, hheads⟩ => ⟨hlength, hhead, hheads⟩⟩

/-- A passed-over head leaves the verdict on what follows it. -/
theorem expected_interim {limit : Nat} {head : Bytes} (rest : Bytes)
    (h : ∃ status, IsInformational status ∧ status ≠ 101 ∧ IsHead httparse status head) :
    expected httparse ending (limit + 1) (head ++ rest) = expected httparse ending limit rest := by
  obtain ⟨status, hstatus, hswitch, hhead⟩ := h
  obtain ⟨response, hrun, hcode, hle⟩ := hhead.run_append rest
  have hsuccess : ¬ (200 ≤ status ∧ status < 300) := by
    unfold IsInformational at hstatus
    omega
  unfold IsInformational at hstatus
  conv => lhs; rw [expected, hrun]
  simp only [if_neg hle, hcode, if_neg hsuccess, if_pos hstatus, if_neg hswitch, List.drop_left]

theorem expected_interims {heads : List Bytes} {limit : Nat} (h : AreInterim httparse limit heads) (rest : Bytes) :
    ∃ limit', expected httparse ending limit (heads.flatten ++ rest) = expected httparse ending limit' rest := by
  induction heads generalizing limit with
  | nil => exact ⟨limit, rfl⟩
  | cons head heads ih =>
    cases limit with
    | zero => exact absurd h.1 (Nat.not_succ_le_zero _)
    | succ limit =>
      obtain ⟨hhead, hheads⟩ := areInterim_cons.mp h
      obtain ⟨limit', hrest⟩ := ih hheads
      refine ⟨limit', ?_⟩
      rw [List.flatten_cons, List.append_assoc, expected_interim _ hhead, hrest]

/-- The verdict of the first head that is not passed over. -/
theorem expected_final {limit status : Nat} {head : Bytes} (rest : Bytes) (h : IsHead httparse status head)
    (hstatus : ¬ IsInformational status) : expected httparse ending limit (head ++ rest) =
      if 200 ≤ status ∧ status < 300 then .tunnel rest else .rejected status := by
  obtain ⟨response, hrun, hcode, hle⟩ := h.run_append rest
  unfold IsInformational at hstatus
  rw [expected, hrun]
  simp only [if_neg hle, hcode, if_neg hstatus, List.drop_left]

theorem expected_of_opens {limit : Nat} {contents rest : Bytes} (h : Opens httparse limit contents rest) :
    expected httparse ending limit contents = .tunnel rest := by
  obtain ⟨heads, head, status, hheads, hhead, hsuccess, rfl⟩ := h
  obtain ⟨limit', hrest⟩ := @expected_interims _ ending _ _ hheads (head ++ rest)
  unfold IsSuccess at hsuccess
  rw [hrest, expected_final rest hhead (by unfold IsInformational; omega), if_pos hsuccess]

theorem expected_of_rejects {limit status : Nat} {contents : Bytes} (h : Rejects httparse limit contents status) :
    expected httparse ending limit contents = .rejected status := by
  obtain ⟨heads, head, rest, hheads, hhead, hsuccess, hstatus, rfl⟩ := h
  obtain ⟨limit', hrest⟩ := @expected_interims _ ending _ _ hheads (head ++ rest)
  unfold IsSuccess at hsuccess
  rw [hrest, expected_final rest hhead hstatus, if_neg hsuccess]

private theorem Opens.behind {limit : Nat} {head contents rest : Bytes} (h : Opens httparse limit contents rest)
    (hhead : ∃ status, IsInformational status ∧ status ≠ 101 ∧ IsHead httparse status head) :
    Opens httparse (limit + 1) (head ++ contents) rest := by
  obtain ⟨heads, final, status, hheads, hfinal, hsuccess, rfl⟩ := h
  exact ⟨head :: heads, final, status, areInterim_cons.mpr ⟨hhead, hheads⟩, hfinal, hsuccess,
    by rw [List.flatten_cons, List.append_assoc]⟩

private theorem Rejects.behind {limit status : Nat} {head contents : Bytes} (h : Rejects httparse limit contents status)
    (hhead : ∃ status, IsInformational status ∧ status ≠ 101 ∧ IsHead httparse status head) :
    Rejects httparse (limit + 1) (head ++ contents) status := by
  obtain ⟨heads, final, rest, hheads, hfinal, hsuccess, hstatus, rfl⟩ := h
  exact ⟨head :: heads, final, rest, areInterim_cons.mpr ⟨hhead, hheads⟩, hfinal, hsuccess, hstatus,
    by rw [List.flatten_cons, List.append_assoc]⟩

/-- A verdict is what the heads of the stream say, or a failure. -/
theorem expected_cases (limit : Nat) (contents : Bytes) :
    (∃ rest, Opens httparse limit contents rest) ∨ (∃ status, Rejects httparse limit contents status) ∨
      expected httparse ending limit contents = .protocol ∨
      ∃ source, ending = some source ∧ expected httparse ending limit contents = .io source := by
  fun_induction expected httparse ending limit contents with
  | case1 | case2 | case3 | case5 | case6 => exact .inr (.inr (.inl rfl))
  | case4 limit contents response length hrun hle status hcode hsuccess =>
    exact .inl ⟨contents.drop length, [], contents.take length, status, areInterim_nil _, isHead_take hrun hcode hle, hsuccess,
      (List.take_append_drop _ _).symm⟩
  | case7 contents response length hrun hle status hcode hsuccess hstatus limit hswitch ih =>
    have hhead : ∃ status, IsInformational status ∧ status ≠ 101 ∧ IsHead httparse status (contents.take length) :=
      ⟨status, hstatus, hswitch, isHead_take hrun hcode hle⟩
    rcases ih with ⟨rest, hrest⟩ | ⟨code, hrest⟩ | hrest
    · have h := hrest.behind hhead
      rw [List.take_append_drop] at h
      exact .inl ⟨rest, h⟩
    · have h := hrest.behind hhead
      rw [List.take_append_drop] at h
      exact .inr (.inl ⟨code, h⟩)
    · exact .inr (.inr hrest)
  | case8 limit contents response length hrun hle status hcode hsuccess hstatus =>
    exact .inr (.inl ⟨status, [], contents.take length, contents.drop length, areInterim_nil _, isHead_take hrun hcode hle,
      hsuccess, hstatus, (List.take_append_drop _ _).symm⟩)
  | case9 => exact .inr (.inr (.inl rfl))
  | case10 limit contents hrun hshort =>
    cases ending with
    | none => exact .inr (.inr (.inl rfl))
    | some source => exact .inr (.inr (.inr ⟨source, rfl, rfl⟩))

theorem expected_tunnel_iff {limit : Nat} {contents rest : Bytes} :
    expected httparse ending limit contents = .tunnel rest ↔ Opens httparse limit contents rest := by
  refine ⟨fun h => ?_, expected_of_opens⟩
  rcases @expected_cases httparse ending limit contents with ⟨rest', hopens⟩ | ⟨status, hrejects⟩ | hfailed | ⟨_, _, hfailed⟩
  · obtain rfl := Verdict.tunnel.inj ((expected_of_opens hopens).symm.trans h)
    exact hopens
  · cases (expected_of_rejects hrejects).symm.trans h
  · cases hfailed.symm.trans h
  · cases hfailed.symm.trans h

theorem expected_rejected_iff {limit status : Nat} {contents : Bytes} :
    expected httparse ending limit contents = .rejected status ↔ Rejects httparse limit contents status := by
  refine ⟨fun h => ?_, expected_of_rejects⟩
  rcases @expected_cases httparse ending limit contents with ⟨rest, hopens⟩ | ⟨status', hrejects⟩ | hfailed | ⟨_, _, hfailed⟩
  · cases (expected_of_opens hopens).symm.trans h
  · obtain rfl := Verdict.rejected.inj ((expected_of_rejects hrejects).symm.trans h)
    exact hrejects
  · cases hfailed.symm.trans h
  · cases hfailed.symm.trans h

end Verdict

section Handshake
variable (httparse : Httparse) (target : TargetAuthority)

/-- The proxy takes the whole request. -/
def TakesRequest (stream : Duplex) : Prop := (stream.writer.writeAll .writeZero (connectRequest target)).1 = none

/-- What a negotiation comes to on one stream. -/
def handshakeVerdict (stream : Duplex) : Verdict :=
  verdict ((handshake httparse target stream).1, (handshake httparse target stream).2.reader)

variable {target}

theorem handshakeVerdict_eq {stream : Duplex} (h : TakesRequest target stream) : handshakeVerdict httparse target stream =
    expected httparse stream.reader.ending maxInformationalResponses stream.reader.contents := by
  have hsent : ∃ writer, stream.writer.writeAll .writeZero (connectRequest target) = (none, writer) := ⟨_, Prod.ext h rfl⟩
  obtain ⟨writer, hwriter⟩ := hsent
  rw [handshakeVerdict, handshake, hwriter]
  exact readConnectResponse_verdict [] 0 stream.reader

theorem handshakeVerdict_unsent {stream : Duplex} (h : ¬ TakesRequest target stream) :
    ∃ source, handshakeVerdict httparse target stream = .io source := by
  obtain ⟨source, writer, hwriter⟩ : ∃ source writer,
      stream.writer.writeAll .writeZero (connectRequest target) = (some source, writer) := by
    cases hresult : stream.writer.writeAll .writeZero (connectRequest target) with
    | mk result writer =>
      cases result with
      | none => exact absurd (congrArg Prod.fst hresult) h
      | some source => exact ⟨source, writer, rfl⟩
  rw [handshakeVerdict, handshake, hwriter]
  exact ⟨source, rfl⟩

variable (target)

/-- Behind a request that was taken, the tunnel opens exactly where the heads of the stream say so, a final head without
success is the rejection, and a stream that ends cleanly is a protocol error otherwise; fragments do not matter. -/
theorem handshake_verdict (stream : Duplex) :
    (∀ rest, handshakeVerdict httparse target stream = .tunnel rest ↔
      TakesRequest target stream ∧ Opens httparse maxInformationalResponses stream.reader.contents rest) ∧
    (∀ status, handshakeVerdict httparse target stream = .rejected status ↔
      TakesRequest target stream ∧ Rejects httparse maxInformationalResponses stream.reader.contents status) ∧
    (TakesRequest target stream → stream.reader.ending = none →
      (¬ ∃ rest, Opens httparse maxInformationalResponses stream.reader.contents rest) →
      (¬ ∃ status, Rejects httparse maxInformationalResponses stream.reader.contents status) →
        handshakeVerdict httparse target stream = .protocol) ∧
    ∀ other : Duplex, TakesRequest target stream → TakesRequest target other →
      other.reader.contents = stream.reader.contents → other.reader.ending = stream.reader.ending →
        handshakeVerdict httparse target other = handshakeVerdict httparse target stream := by
  by_cases hsent : TakesRequest target stream
  · rw [handshakeVerdict_eq httparse hsent]
    refine ⟨fun rest => ?_, fun status => ?_, fun _ hending hopens hrejects => ?_, fun other _ hother hcontents hending => ?_⟩
    · rw [expected_tunnel_iff, and_iff_right hsent]
    · rw [expected_rejected_iff, and_iff_right hsent]
    · rcases @expected_cases httparse stream.reader.ending maxInformationalResponses stream.reader.contents
        with h | h | h | ⟨source, hsource, -⟩
      · exact absurd h hopens
      · exact absurd h hrejects
      · exact h
      · rw [hending] at hsource
        cases hsource
    · rw [handshakeVerdict_eq httparse hother, hcontents, hending]
  · obtain ⟨source, hverdict⟩ := handshakeVerdict_unsent httparse hsent
    rw [hverdict]
    refine ⟨fun rest => ⟨nofun, fun h => absurd h.1 hsent⟩, fun status => ⟨nofun, fun h => absurd h.1 hsent⟩,
      fun h => absurd h hsent, fun _ h => absurd h hsent⟩

/-- The tunnel that is handed on starts with the bytes behind the 2xx head. -/
theorem connectedTunnel_contents {stream : Duplex} {tunnel : Flow.ClientStream}
    (h : connectedTunnel httparse target stream = .ok tunnel) :
    Opens httparse maxInformationalResponses stream.reader.contents tunnel.contents := by
  unfold connectedTunnel at h
  split at h
  · next front stream' hresult =>
    obtain rfl := Except.ok.inj h
    have hverdict : handshakeVerdict httparse target stream = .tunnel (front ++ stream'.reader.contents) := by
      rw [handshakeVerdict, hresult]
      rfl
    have hopens := (((handshake_verdict httparse target stream).1 _).mp hverdict).2
    simpa [Flow.prefixedDuplexStream] using hopens
  · cases h

end Handshake
end Abyss.Mitm.Outbound
