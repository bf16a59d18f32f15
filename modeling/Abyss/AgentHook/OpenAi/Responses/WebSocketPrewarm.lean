import Abyss.AgentHook.OpenAi.Responses.WebSocketBounds
import Abyss.AgentHook.OpenAi.Responses.WebSocketTerminal

/-! When a completed turn may be taken for a prewarm. -/
namespace Abyss.AgentHook.OpenAi
open Abyss.Text Abyss.PluginProtocol Abyss.Mitm.WebSocket Abyss.Data

section Merge

/-- What a turn knows about generation so far. -/
def PendingTurn.generates (turn : PendingTurn) : Option Bool := turn.exchange.bind (·.generatesOutput)

theorem generates_mergeExchange (turn : PendingTurn) (next : ParsedOpenAiExchange) (identifiesTurn : Bool)
    (h : turn.generates = some true ∨ next.generatesOutput = some true) :
    (turn.mergeExchange next identifiesTurn).generates = some true := by
  unfold PendingTurn.generates PendingTurn.mergeExchange at *
  cases hexchange : turn.exchange with
  | none =>
    rw [hexchange] at h
    obtain hturn | hnext := h
    · cases hturn
    · exact hnext
  | some current =>
    rw [hexchange] at h
    change current.generatesOutput = some true ∨ _ at h
    change (PendingTurn.mergedExchange current next identifiesTurn).generatesOutput = some true
    rw [PendingTurn.mergedExchange]
    obtain hcurrent | hnext := h
    · cases hnext : next.generatesOutput with
      | none => exact hcurrent
      | some generates => rw [hcurrent]; rfl
    · rw [hnext]
      exact congrArg some (Bool.or_true _)

theorem generates_record {turn : PendingTurn} (h : turn.generates = some true) (frame : OpenAiWebSocketFrame) :
    (turn.record frame).generates = some true := by
  cases frame with
  | request exchange => exact generates_mergeExchange _ _ _ (.inl h)
  | response response =>
    apply generates_mergeExchange _ _ _ (.inl _)
    rw [PendingTurn.generates, exchange_bufferResponseDocument]
    exact h
  | irrelevant => exact h
  | undecodable direction => cases direction <;> exact h

/-- One client frame that can generate output settles the turn. -/
theorem generates_turnOf {frames : List OpenAiWebSocketFrame} {exchange : ParsedOpenAiExchange}
    (hmem : .request exchange ∈ frames) (h : exchange.generatesOutput = some true) :
    (turnOf frames).generates = some true := by
  induction frames using List.reverseRecOn with
  | nil => cases hmem
  | append_singleton frames frame ih =>
    rw [turnOf_append]
    obtain hbefore | hlast := List.mem_append.mp hmem
    · exact generates_record (ih hbefore) frame
    · obtain rfl := List.mem_singleton.mp hlast
      exact generates_mergeExchange _ _ _ (.inr h)

theorem requestDecodeFailed_record (turn : PendingTurn) (frame : OpenAiWebSocketFrame) :
    (turn.record frame).requestDecodeFailed = true ↔
      turn.requestDecodeFailed = true ∨ .undecodable .clientToServer = frame := by
  cases frame with
  | request exchange => simp [PendingTurn.record, PendingTurn.mergeExchange, PendingTurn.mergeRequestConversation]
  | response response =>
    have hsame : (turn.bufferResponseDocument response.document response.byteLen).requestDecodeFailed =
        turn.requestDecodeFailed := by
      unfold PendingTurn.bufferResponseDocument
      split
      · rfl
      · split <;> rfl
    simp [PendingTurn.record, PendingTurn.mergeExchange, hsame]
  | irrelevant => simp [PendingTurn.record]
  | undecodable direction => cases direction <;> simp [PendingTurn.record]

theorem requestDecodeFailed_turnOf (frames : List OpenAiWebSocketFrame) :
    (turnOf frames).requestDecodeFailed = true ↔ .undecodable .clientToServer ∈ frames := by
  induction frames using List.reverseRecOn with
  | nil => simp [turnOf, PendingTurn.new]
  | append_singleton frames frame ih =>
    rw [turnOf_append, requestDecodeFailed_record, ih, List.mem_append, List.mem_singleton]

/-- A turn completed as a prewarm had no client frame that failed to decode or can generate output. -/
theorem complete_prewarm {frames : List OpenAiWebSocketFrame} {exchange : ParsedOpenAiExchange}
    (h : (turnOf frames).complete = some exchange) (hprewarm : exchange.generatesOutput = some false) :
    .undecodable .clientToServer ∉ frames ∧
      ∀ next, .request next ∈ frames → next.generatesOutput ≠ some true := by
  obtain ⟨merged, hmerged, rfl⟩ := Option.map_eq_some_iff.mp h
  change (if (turnOf frames).requestDecodeFailed then none else merged.generatesOutput) = some false at hprewarm
  split at hprewarm
  · cases hprewarm
  · rename_i hdecoded
    refine ⟨fun hfailed => hdecoded ((requestDecodeFailed_turnOf frames).mpr hfailed), fun next hnext hgenerates => ?_⟩
    have hturn := generates_turnOf hnext hgenerates
    rw [PendingTurn.generates, hmerged] at hturn
    change merged.generatesOutput = some true at hturn
    rw [hprewarm] at hturn
    cases hturn

end Merge

section Messages
variable (env : FrameDecoding)

/-- The boolean `generate: false`, in the flat or the nested form of a payload. -/
def declaresNoOutput (payload : Json) : Prop := ((requestPayload payload).get "generate").bind Json.asBool = some false

/-- A client frame that was decoded and, as a `response.create`, declares that nothing is generated. -/
def CannotGenerate (message : FrameMessage) : Prop :=
  message.direction = .clientToServer → ∃ payload, websocketJsonPayload env message = some payload ∧
    (payload.kind = some (lit "response.create") → declaresNoOutput payload)

/-- A client `response.create` that decoding leaves out, since it has no content or no host, declares
that nothing is generated. -/
def LeftOutOnlyPrewarm (message : FrameMessage) : Prop :=
  ∀ payload, message.direction = .clientToServer → websocketJsonPayload env message = some payload →
    payload.kind = some (lit "response.create") →
    (frameHost env message = none ∨ isRelevant env .clientToServer payload = false) → declaresNoOutput payload

theorem declaresNoOutput_of_generatesOutput {payload : Json} (h : generatesOutput payload ≠ true) :
    declaresNoOutput payload := by
  rw [generatesOutput, Ne, Bool.not_eq_true, Bool.or_eq_false_iff, decide_eq_false_iff_not, decide_eq_false_iff_not] at h
  exact not_not.mp h.2

/-- In a turn completed as a prewarm, no client frame can generate output. -/
theorem cannotGenerate_of_prewarm {messages : List FrameMessage} {exchange : ParsedOpenAiExchange}
    (h : (turnOf (messages.map (parseOpenAiWebSocketMessage env))).complete = some exchange)
    (hprewarm : exchange.generatesOutput = some false) (hleft : ∀ message ∈ messages, LeftOutOnlyPrewarm env message) :
    ∀ message ∈ messages, CannotGenerate env message := by
  obtain ⟨hdecoded, hrequests⟩ := complete_prewarm h hprewarm
  intro message hmessage hclient
  have hframe : parseOpenAiWebSocketMessage env message ∈ messages.map (parseOpenAiWebSocketMessage env) :=
    List.mem_map_of_mem hmessage
  rw [parseOpenAiWebSocketMessage] at hframe
  split at hframe
  · rw [hclient] at hframe
    exact absurd hframe hdecoded
  · rename_i payload hpayload hhost
    exact ⟨payload, hpayload, fun hcreate => hleft message hmessage payload hclient hpayload hcreate (.inl hhost)⟩
  · rename_i payload host hpayload hhost
    refine ⟨payload, hpayload, fun hcreate => ?_⟩
    rw [hclient] at hframe
    split at hframe
    · rename_i hirrelevant
      rw [Bool.not_eq_true'] at hirrelevant
      exact hleft message hmessage payload hclient hpayload hcreate (.inr hirrelevant)
    · have hgenerates := hrequests _ hframe
      rw [frameExchange] at hgenerates
      simp only [hclient, if_true] at hgenerates
      exact declaresNoOutput_of_generatesOutput (fun htrue => hgenerates (congrArg some htrue))

end Messages

section Runs

/-- One frame of any connection, with the clock reading and the iteration order of its push. -/
structure Sent where
  rank : Str → Nat
  now : Nat
  message : FrameMessage

def Sent.arrival (env : FrameDecoding) (sent : Sent) : Arrival := arrivalOf env sent.rank sent.now sent.message

/-- The frames of one flow. -/
def messagesOf (flowId : Str) (sent : List Sent) : List FrameMessage :=
  (sent.filter (fun s => s.message.flow.flowId = flowId)).map (·.message)

/-- The frames of one flow, cut after every frame that ends a turn. -/
def turnsOf (env : FrameDecoding) (flowId : Str) (sent : List Sent) : List (List FrameMessage) :=
  segments (endsTurn ∘ parseOpenAiWebSocketMessage env) (messagesOf flowId sent)

theorem framesOf_arrivals (env : FrameDecoding) (flowId : Str) (sent : List Sent) :
    framesOf flowId (sent.map (Sent.arrival env)) = (messagesOf flowId sent).map (parseOpenAiWebSocketMessage env) := by
  rw [framesOf, messagesOf, List.filter_map, List.map_map, List.map_map]
  rfl

/-- In a run that evicts nothing of a flow, and whose frames of that flow leave out only prewarms, an
exchange counts as a prewarm only when none of the client frames of its turn can generate output. -/
theorem prewarm_sound (env : FrameDecoding) (sent : List Sent) (flowId : Str)
    (hnever : NeverEvicts flowId (sent.map (Sent.arrival env)))
    (hleft : ∀ s ∈ sent, s.message.flow.flowId = flowId → LeftOutOnlyPrewarm env s.message) :
    List.Forall₂ (fun exchange messages => exchange.generatesOutput = some false →
        ∀ message ∈ messages, CannotGenerate env message)
      (completions flowId (sent.map (Sent.arrival env))) (turnsOf env flowId sent) := by
  have hisolated := (isolated hnever).2
  rw [framesOf_arrivals, segments_map, List.map_map, ← List.forall₂_eq_eq_eq, List.forall₂_map_left_iff,
    List.forall₂_map_right_iff, List.forall₂_iff_zip] at hisolated
  obtain ⟨hlength, hturns⟩ := hisolated
  apply List.forall₂_iff_zip.mpr
  refine ⟨hlength, fun {exchange messages} hpair hprewarm => ?_⟩
  apply cannotGenerate_of_prewarm env (hturns hpair).symm hprewarm
  intro message hmessage
  obtain ⟨s, hs, rfl⟩ := List.mem_map.mp (mem_of_mem_segments (List.of_mem_zip hpair).2 hmessage)
  obtain ⟨hsent, hflow⟩ := List.mem_filter.mp hs
  exact hleft s hsent (of_decide_eq_true hflow)

end Runs

section Sample

private def prewarm : FrameMessage := sampleMessage .clientToServer 0
  "\x7b\"type\":\"response.create\",\"generate\":false,\"input\":\"hi\"\x7d"

private def completed : FrameMessage := sampleMessage .serverToClient 2 "\x7b\"type\":\"response.completed\"\x7d"

private def sentAtOnce (message : FrameMessage) : Sent := ⟨fun _ => 0, 0, message⟩

/-- A turn of one prewarm frame. -/
theorem prewarm_sound_prewarm :
    (completions (lit "flow-1") ([sentAtOnce prewarm, sentAtOnce completed].map (Sent.arrival sampleDecoding))).map
      (·.generatesOutput) = [some false] ∧
    List.Forall₂ (fun exchange messages => exchange.generatesOutput = some false →
        ∀ message ∈ messages, CannotGenerate sampleDecoding message)
      (completions (lit "flow-1") ([sentAtOnce prewarm, sentAtOnce completed].map (Sent.arrival sampleDecoding)))
      (turnsOf sampleDecoding (lit "flow-1") [sentAtOnce prewarm, sentAtOnce completed]) := by
  have hfacts : (completions (lit "flow-1") ([sentAtOnce prewarm, sentAtOnce completed].map (Sent.arrival sampleDecoding))).map
        (·.generatesOutput) = [some false] ∧
      ([sentAtOnce prewarm, sentAtOnce completed].all fun s =>
        decide (s.message.direction = .serverToClient) || (websocketJsonPayload sampleDecoding s.message).all fun payload =>
          decide (((requestPayload payload).get "generate").bind Json.asBool = some false)) = true := by
    rw [prewarm, completed, sampleMessage_ofList, sampleMessage_ofList]
    decide +kernel
  refine ⟨hfacts.1, prewarm_sound sampleDecoding _ _ ?_ ?_⟩
  · intro front a back harrivals
    apply keepsTurn_of_room
    · intro turn _
      have hnow : ∀ b ∈ front ++ a :: back, b.now = 0 := by
        rw [← harrivals]
        simp [Sent.arrival, arrivalOf, sentAtOnce]
      rw [hnow a (List.mem_append_right _ List.mem_cons_self), Nat.zero_sub]
      exact Nat.zero_le _
    · obtain _ | ⟨b, _ | ⟨c, front⟩⟩ := front
      · injection harrivals with ha _
        subst ha
        decide +kernel
      · injection harrivals with hb hrest
        injection hrest with ha _
        subst ha hb
        decide +kernel
      · simp at harrivals
  · intro s hs _ payload hclient hpayload _ _
    have hone := List.all_eq_true.mp hfacts.2 s hs
    rw [hclient, hpayload] at hone
    simpa [declaresNoOutput] using hone

/-- A generating `response.create` without content leaves the prewarm before it in charge. -/
private def continued : FrameMessage := sampleMessage .clientToServer 1
  "\x7b\"type\":\"response.create\",\"previous_response_id\":\"resp-1\"\x7d"

theorem left_out_create_counts_as_prewarm : ¬ ∀ (env : FrameDecoding) (sent : List Sent) (flowId : Str),
    List.Forall₂ (fun exchange messages => exchange.generatesOutput = some false →
        ∀ message ∈ messages, CannotGenerate env message)
      (completions flowId (sent.map (Sent.arrival env))) (turnsOf env flowId sent) := by
  intro h
  have hforall := h sampleDecoding [sentAtOnce prewarm, sentAtOnce continued, sentAtOnce completed] (lit "flow-1")
  have hfacts : (turnsOf sampleDecoding (lit "flow-1") [sentAtOnce prewarm, sentAtOnce continued, sentAtOnce completed] =
        [[prewarm, continued, completed]] ∧
      (completions (lit "flow-1") ([sentAtOnce prewarm, sentAtOnce continued, sentAtOnce completed].map
        (Sent.arrival sampleDecoding))).map (·.generatesOutput) = [some false]) ∧
      (websocketJsonPayload sampleDecoding continued).all (fun payload =>
        decide (payload.kind = some (lit "response.create")) &&
          decide (((requestPayload payload).get "generate").bind Json.asBool ≠ some false)) = true := by
    rw [prewarm, continued, completed, sampleMessage_ofList, sampleMessage_ofList, sampleMessage_ofList]
    decide +kernel
  obtain ⟨⟨hturns, hgenerates⟩, hdeclares⟩ := hfacts
  rw [hturns] at hforall
  obtain ⟨exchange, hexchange, hone⟩ := List.map_eq_singleton_iff.mp hgenerates
  rw [hexchange] at hforall
  cases hforall with
  | cons hturn _ =>
    obtain ⟨payload, hpayload, hcreate⟩ := hturn hone continued (by simp) rfl
    rw [hpayload] at hdeclares
    simp only [Option.all_some, Bool.and_eq_true, decide_eq_true_eq] at hdeclares
    exact hdeclares.2 (hcreate hdeclares.1)

end Sample
end Abyss.AgentHook.OpenAi
