import Abyss.AgentHook.OpenAi.Responses.WebSocketTurns

/-! What the WebSocket accumulator buffers, and which frames an exchange is computed from. -/
namespace Abyss.AgentHook.OpenAi
open Abyss.Text Abyss.PluginProtocol Abyss.Mitm.WebSocket Abyss.Data

section Buffer

/-- The server documents of a turn, in arrival order. -/
def serverResponses (frames : List OpenAiWebSocketFrame) : List OpenAiWebSocketResponse :=
  frames.filterMap fun
    | .response response => some response
    | _ => none

/-- The response buffer of a turn holds the first server documents, within both limits. -/
structure Buffered (frames : List OpenAiWebSocketFrame) (turn : PendingTurn) : Prop where
  documents : ∃ kept, kept <+: serverResponses frames ∧ turn.responseDocuments = kept.map (·.document) ∧
    turn.responseDocumentBytes = (kept.map (·.byteLen)).sum ∧
    (turn.responseOverflowed = false → kept = serverResponses frames)
  count : turn.responseDocuments.length ≤ maxResponseDocuments
  bytes : turn.responseDocumentBytes ≤ maxResponseDocumentBytes
  undecodable : turn.responseDecodeFailed = true ↔ .undecodable .serverToClient ∈ frames

private theorem serverResponses_append (frames : List OpenAiWebSocketFrame) (frame : OpenAiWebSocketFrame) :
    serverResponses (frames ++ [frame]) = serverResponses frames ++ serverResponses [frame] :=
  List.filterMap_append

/-- A frame without a server document leaves the buffer alone. -/
private theorem Buffered.other {frames : List OpenAiWebSocketFrame} {turn turn' : PendingTurn} (h : Buffered frames turn)
    {frame : OpenAiWebSocketFrame} (hnone : serverResponses [frame] = [])
    (hdocuments : turn'.responseDocuments = turn.responseDocuments)
    (hbytes : turn'.responseDocumentBytes = turn.responseDocumentBytes)
    (hoverflowed : turn'.responseOverflowed = turn.responseOverflowed)
    (hfailed : turn'.responseDecodeFailed = true ↔ turn.responseDecodeFailed = true ∨ .undecodable .serverToClient = frame) :
    Buffered (frames ++ [frame]) turn' := by
  constructor
  · rw [serverResponses_append, hnone, List.append_nil, hdocuments, hbytes, hoverflowed]
    exact h.documents
  · rw [hdocuments]
    exact h.count
  · rw [hbytes]
    exact h.bytes
  · rw [hfailed, h.undecodable, List.mem_append, List.mem_singleton]

private theorem Buffered.response {frames : List OpenAiWebSocketFrame} {turn : PendingTurn} (h : Buffered frames turn)
    (response : OpenAiWebSocketResponse) :
    Buffered (frames ++ [.response response]) (turn.record (.response response)) := by
  have hall : serverResponses (frames ++ [.response response]) = serverResponses frames ++ [response] :=
    serverResponses_append frames _
  have hundecodable : turn.responseDecodeFailed = true ↔
      .undecodable .serverToClient ∈ frames ++ [OpenAiWebSocketFrame.response response] := by
    rw [h.undecodable, List.mem_append, List.mem_singleton]
    simp
  obtain ⟨kept, hprefix, hdocuments, hbytes, hkept⟩ := h.documents
  have hlater : kept <+: serverResponses (frames ++ [.response response]) := by
    rw [hall]
    exact hprefix.trans (List.prefix_append _ _)
  cases hoverflowed : turn.responseOverflowed with
  | true =>
    have hsame : turn.bufferResponseDocument response.document response.byteLen = turn := by
      rw [PendingTurn.bufferResponseDocument, if_pos hoverflowed]
    rw [PendingTurn.record, hsame]
    refine ⟨⟨kept, hlater, hdocuments, hbytes, fun hfalse => ?_⟩, h.count, h.bytes, hundecodable⟩
    change turn.responseOverflowed = false at hfalse
    rw [hoverflowed] at hfalse
    cases hfalse
  | false =>
    rw [PendingTurn.record, PendingTurn.bufferResponseDocument, if_neg (by rw [hoverflowed]; exact Bool.false_ne_true)]
    split
    · exact ⟨⟨kept, hlater, hdocuments, hbytes, fun hfalse => by cases hfalse⟩, h.count, h.bytes, hundecodable⟩
    · rename_i hfits
      rw [not_or, Nat.not_le, Nat.not_lt] at hfits
      refine ⟨⟨kept ++ [response], ?_, ?_, ?_, fun _ => ?_⟩, ?_, hfits.2, hundecodable⟩
      · rw [hall, hkept hoverflowed]
      · rw [List.map_append, ← hdocuments]
        rfl
      · rw [List.map_append, List.sum_append, ← hbytes]
        simp [PendingTurn.mergeExchange]
      · rw [hall, hkept hoverflowed]
      · change (turn.responseDocuments ++ [response.document]).length ≤ maxResponseDocuments
        rw [List.length_append]
        exact hfits.1

/-- The buffer of every turn is a prefix of its server documents. -/
theorem buffered_turnOf (frames : List OpenAiWebSocketFrame) : Buffered frames (turnOf frames) := by
  induction frames using List.reverseRecOn with
  | nil => exact ⟨⟨[], List.prefix_rfl, rfl, rfl, fun _ => rfl⟩, Nat.zero_le _, Nat.zero_le _, by simp [turnOf, PendingTurn.new]⟩
  | append_singleton frames frame ih =>
    rw [turnOf_append]
    cases frame with
    | request exchange => exact ih.other rfl rfl rfl rfl (by simp [PendingTurn.record, PendingTurn.mergeExchange,
        PendingTurn.mergeRequestConversation])
    | response response => exact ih.response response
    | irrelevant => exact ih.other rfl rfl rfl rfl (by simp [PendingTurn.record])
    | undecodable direction => cases direction <;> exact ih.other rfl rfl rfl rfl (by simp [PendingTurn.record])

end Buffer

section Completed

/-- An exchange is what the frames of its turn amount to, and its response side tells when a server
document was dropped or undecodable. -/
structure CompletedFrom (frames : List OpenAiWebSocketFrame) (exchange : ParsedOpenAiExchange) : Prop where
  computed : (turnOf frames).complete = some exchange
  partially : (turnOf frames).responseDocuments ≠ (serverResponses frames).map (·.document) ∨
    .undecodable .serverToClient ∈ frames → exchange.responseConversation.completeness = .partially

theorem completedFrom {frames : List OpenAiWebSocketFrame} {exchange : ParsedOpenAiExchange}
    (h : (turnOf frames).complete = some exchange) : CompletedFrom frames exchange := by
  refine ⟨h, fun hlost => ?_⟩
  obtain ⟨merged, hmerged, rfl⟩ := Option.map_eq_some_iff.mp h
  have hincomplete : ((turnOf frames).responseOverflowed || (turnOf frames).responseDecodeFailed) = true := by
    obtain hdropped | hundecodable := hlost
    · obtain ⟨kept, _, hdocuments, _, hkept⟩ := (buffered_turnOf frames).documents
      cases hoverflowed : (turnOf frames).responseOverflowed with
      | true => rfl
      | false => exact absurd (by rw [hdocuments, hkept hoverflowed]) hdropped
    · rw [(buffered_turnOf frames).undecodable.mpr hundecodable, Bool.or_true]
  change ConversationProjection.completeness _ (_ || _) = _
  rw [hincomplete]
  rfl

end Completed

/-- No gap beyond the TTL and fewer than `maxPendingTurns` other flows pending mean that nothing is
evicted. -/
theorem keepsTurn_of_room {flowId : Str} {pending : PendingTurns} {a : Arrival}
    (hage : ∀ turn, pending.lookup flowId = some turn → a.now - turn.updatedAt ≤ pendingTurnTtl)
    (hroom : HashMap.size ((retained a.now pending).erase a.flowId) < maxPendingTurns) : KeepsTurn flowId pending a := by
  have hretained : (retained a.now pending).lookup flowId = pending.lookup flowId := by
    rw [retained, HashMap.lookup_retain]
    cases hlookup : pending.lookup flowId with
    | none => rfl
    | some turn => rw [Option.filter_some, if_pos (decide_eq_true (hage turn hlookup))]
  unfold KeepsTurn
  split
  · exact fun _ => hretained
  · rename_i hflow
    have herased : ((retained a.now pending).erase a.flowId).lookup flowId = pending.lookup flowId := by
      rw [AList.lookup_erase_ne (Ne.symm hflow), hretained]
    by_cases hframe : a.frame = .irrelevant
    · rw [hframe]
      rfl
    · have hmade : makeRoom a.rank ((retained a.now pending).erase a.flowId) = (retained a.now pending).erase a.flowId := by
        rw [makeRoom]
        exact if_neg (Nat.not_le.mpr hroom)
      rw [push_relevant hframe]
      dsimp only
      rw [hmade]
      split
      · exact herased
      · rw [AList.lookup_insert_ne (Ne.symm hflow), herased]

/-- In every run: at most `maxPendingTurns` turns are pending; each holds a prefix of the server
documents of its frames within both limits; an exchange is what the last frames of its flow amount to;
and while nothing of a flow is evicted, its exchanges are those of its own frames, cut after every
terminal one. -/
theorem accumulator_bounded_and_isolated (arrivals : List Arrival) :
    HashMap.size (observe arrivals).pending ≤ maxPendingTurns ∧
    (∀ flowId turn, (observe arrivals).pending.lookup flowId = some turn →
      ∃ frames, frames <:+ framesOf flowId arrivals ∧ frames.any endsTurn = false ∧ Buffered frames turn) ∧
    (∀ front a back exchange, arrivals = front ++ a :: back →
      (push a.rank a.now a.flowId a.frame (observe front).pending).1 = some exchange →
        ∃ frames, frames <:+ framesOf a.flowId front ∧ frames.any endsTurn = false ∧
          CompletedFrom (frames ++ [a.frame]) exchange) ∧
    (∀ flowId, NeverEvicts flowId arrivals → (completions flowId arrivals).map some =
      (segments endsTurn (framesOf flowId arrivals)).map (fun frames => (turnOf frames).complete)) ∧
    (∀ flowId, (∀ front a back, arrivals = front ++ a :: back →
        (∀ turn, (observe front).pending.lookup flowId = some turn → a.now - turn.updatedAt ≤ pendingTurnTtl) ∧
          HashMap.size ((retained a.now (observe front).pending).erase a.flowId) < maxPendingTurns) →
      NeverEvicts flowId arrivals) := by
  refine ⟨?_, ?_, ?_, ?_, ?_⟩
  · induction arrivals using List.reverseRecOn with
    | nil => exact Nat.zero_le _
    | append_singleton arrivals a ih =>
      rw [observe_append]
      exact size_push ih
  · intro flowId turn hlookup
    obtain ⟨frames, hframes, htracks⟩ := tracks_suffix arrivals flowId
    have hbuffered := buffered_turnOf frames
    rw [← htracks.turn, hlookup] at hbuffered
    exact ⟨frames, hframes, htracks.unfinished, hbuffered.documents, hbuffered.count, hbuffered.bytes,
      hbuffered.undecodable⟩
  · intro front a back exchange _ hexchange
    obtain ⟨frames, hframes, hopen, hreturned⟩ := push_returns front a
    refine ⟨frames, hframes, hopen, completedFrom ?_⟩
    rw [hreturned, returned] at hexchange
    split at hexchange
    · exact hexchange
    · cases hexchange
  · intro flowId hnever
    exact (isolated hnever).2
  · intro flowId hroom front a back harrivals
    obtain ⟨hage, hsize⟩ := hroom front a back harrivals
    exact keepsTurn_of_room hage hsize

end Abyss.AgentHook.OpenAi
