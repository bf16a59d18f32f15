import Abyss.AgentHook.OpenAi.Responses.WebSocketTurns

/-! Which frames end a WebSocket turn. -/
namespace Abyss.AgentHook.OpenAi
open Abyss.Text Abyss.PluginProtocol Abyss.Mitm.WebSocket Abyss.Data

section Frames
variable (env : FrameDecoding) (message : FrameMessage)

/-- A decodable server frame whose own type is terminal. -/
def IsTerminalFrame : Prop :=
  message.direction = .serverToClient ∧
    ∃ payload, websocketJsonPayload env message = some payload ∧ payload.kind.any isTerminalEvent = true

/-- A terminal server frame can be attributed to a host, and a relevant one of another type has no
terminal type in anything that it contains. -/
def OwnTypeDecides : Prop :=
  ∀ payload, message.direction = .serverToClient → websocketJsonPayload env message = some payload →
    (payload.kind.any isTerminalEvent = true → frameHost env message ≠ none) ∧
    (payload.kind.any isTerminalEvent = false → frameHost env message ≠ none →
      isRelevant env .serverToClient payload = true →
        ∀ object ∈ payload.objectsWithin maxParseDepth, object.kind.any isTerminalEvent = false)

/-- What decoding makes of a frame decides whether it ends its turn. -/
theorem endsTurn_parse : endsTurn (parseOpenAiWebSocketMessage env message) = true ↔
    message.direction = .serverToClient ∧ ∃ payload, websocketJsonPayload env message = some payload ∧
      frameHost env message ≠ none ∧ isRelevant env .serverToClient payload = true ∧
      (eventTypes payload).any isTerminalEvent = true := by
  unfold parseOpenAiWebSocketMessage
  split
  · rename_i hpayload
    simp [endsTurn, hpayload]
  · rename_i payload hpayload hhost
    simp [endsTurn, hhost]
  · rename_i payload host hpayload hhost
    split
    · rename_i hirrelevant
      rw [Bool.not_eq_true'] at hirrelevant
      simp only [endsTurn, Bool.false_eq_true, false_iff, not_and, not_exists]
      rintro hdirection other hother _ hrelevant
      obtain rfl := Option.some.inj (hpayload.symm.trans hother)
      rw [← hdirection, hirrelevant] at hrelevant
      cases hrelevant
    · rename_i hrelevant
      split
      · rename_i hdirection
        simp [endsTurn, isTerminalResponse, frameExchange, hdirection]
      · rename_i hdirection
        rw [hdirection, Bool.not_eq_true', Bool.not_eq_false] at hrelevant
        simp [endsTurn, isTerminalResponse, frameExchange, hdirection, hpayload, hhost, hrelevant]

/-- A terminal type is not changed by trimming. -/
theorem terminal_trimmed {kind : Str} (h : isTerminalEvent kind = true) : nonEmptyTrimmed kind = some kind := by
  have hkind := of_decide_eq_true h
  simp only [List.mem_cons, List.not_mem_nil, or_false] at hkind
  obtain rfl | rfl | rfl | rfl := hkind <;> with_unfolding_all decide

theorem relevant_of_terminal {payload : Json} (h : payload.kind.any isTerminalEvent = true) :
    isRelevant env .serverToClient payload = true := by
  cases hkind : payload.kind with
  | none =>
    rw [hkind] at h
    cases h
  | some kind =>
    rw [hkind] at h
    have htype : stringField payload "type" = some kind := by
      change payload.kind.bind nonEmptyTrimmed = _
      rw [hkind]
      exact terminal_trimmed h
    change isTerminalEvent kind = true at h
    rw [isRelevant, htype, Option.any_some, h, Bool.or_true]

theorem any_eventTypes (p : Str → Bool) (value : Json) :
    (eventTypes value).any p = (value.objectsWithin maxParseDepth).any (fun object => object.kind.any p) := by
  rw [eventTypes, collectEventTypes_eq]
  induction value.objectsWithin maxParseDepth with
  | nil => rfl
  | cons object rest ih =>
    rw [List.filterMap_cons, List.any_cons, ← ih]
    cases object.kind <;> rfl

theorem eventTypes_of_kind {p : Str → Bool} {value : Json} (h : value.kind.any p = true) :
    (eventTypes value).any p = true := by
  cases value with
  | obj members =>
    rw [any_eventTypes]
    apply List.any_eq_true.mpr
    exact ⟨.obj members, List.mem_cons_self, h⟩
  | _ => cases h

/-- A frame ends its turn as its own type says exactly when its own type decides. -/
theorem endsTurn_iff : (endsTurn (parseOpenAiWebSocketMessage env message) = true ↔ IsTerminalFrame env message) ↔
    OwnTypeDecides env message := by
  rw [endsTurn_parse]
  constructor
  · intro hagree payload hdirection hpayload
    constructor
    · intro hown
      obtain ⟨_, _, _, hhost, _⟩ := hagree.mpr ⟨hdirection, payload, hpayload, hown⟩
      exact hhost
    · intro hown hhost hrelevant
      have hnone : (eventTypes payload).any isTerminalEvent ≠ true := by
        intro hnested
        obtain ⟨_, other, hother, hterminal⟩ := hagree.mp ⟨hdirection, payload, hpayload, hhost, hrelevant, hnested⟩
        obtain rfl := Option.some.inj (hpayload.symm.trans hother)
        rw [hown] at hterminal
        cases hterminal
      rw [any_eventTypes, Ne, List.any_eq_true, not_exists] at hnone
      intro object hobject
      exact Bool.eq_false_iff.mpr (fun hterminal => hnone object ⟨hobject, hterminal⟩)
  · intro hdecides
    constructor
    · rintro ⟨hdirection, payload, hpayload, hhost, hrelevant, hnested⟩
      refine ⟨hdirection, payload, hpayload, ?_⟩
      by_contra hown
      rw [any_eventTypes] at hnested
      obtain ⟨object, hobject, hterminal⟩ := List.any_eq_true.mp hnested
      rw [(hdecides payload hdirection hpayload).2 (Bool.eq_false_iff.mpr hown) hhost hrelevant object hobject] at hterminal
      cases hterminal
    · rintro ⟨hdirection, payload, hpayload, hown⟩
      exact ⟨hdirection, payload, hpayload, (hdecides payload hdirection hpayload).1 hown, relevant_of_terminal env hown,
        eventTypes_of_kind hown⟩

end Frames

/-- After any pushes, a push returns an exchange exactly for a frame that decoding takes to end a turn. -/
theorem push_isSome (arrivals : List Arrival) (a : Arrival) :
    (push a.rank a.now a.flowId a.frame (observe arrivals).pending).1.isSome = endsTurn a.frame := by
  obtain ⟨frames, _, _, hreturned⟩ := push_returns arrivals a
  rw [hreturned, returned_isSome]

/-- One frame of a connection, pushed at a clock reading and an iteration order. -/
def arrivalOf (env : FrameDecoding) (rank : Str → Nat) (now : Nat) (message : FrameMessage) : Arrival :=
  ⟨rank, now, message.flow.flowId, parseOpenAiWebSocketMessage env message⟩

/-- In every run, the next frame completes an exchange exactly when it is a terminal frame, if and only
if the frame's own type decides. -/
theorem push_completes_iff (env : FrameDecoding) (arrivals : List Arrival) (rank : Str → Nat) (now : Nat)
    (message : FrameMessage) :
    ((push rank now message.flow.flowId (parseOpenAiWebSocketMessage env message) (observe arrivals).pending).1.isSome =
      true ↔ IsTerminalFrame env message) ↔ OwnTypeDecides env message := by
  have hpush := push_isSome arrivals (arrivalOf env rank now message)
  change (push rank now message.flow.flowId (parseOpenAiWebSocketMessage env message) _).1.isSome = _ at hpush
  rw [hpush]
  exact endsTurn_iff env message

section Sample

/-- Decoding with the JSON parser and no images. -/
def sampleDecoding : FrameDecoding where
  fromStr := Json.parse
  fromSlice := Json.fromSlice
  digest := ⟨fun _ => []⟩
  uri := ⟨fun _ => none, fun _ => []⟩
  images := ⟨fun _ => none, fun _ => []⟩

/-- A text frame of one connection. -/
def sampleMessage (direction : WebSocketDirection) (sequence : Nat) (text : String) : FrameMessage where
  flow := ⟨lit "flow-1", .tlsHttp (lit "api.openai.com")⟩
  upgradeRequest := ⟨Mitm.ascii "GET", ⟨none, none, none, []⟩, .http11, ⟨[]⟩⟩
  upgradeResponse := ⟨101, .http11, ⟨[]⟩⟩
  direction := direction
  sequence := sequence
  text := some (lit text)
  binary := none

/-- The characters of a text are not decoded again. -/
theorem sampleMessage_ofList (direction : WebSocketDirection) (sequence : Nat) (text : Str) :
    sampleMessage direction sequence (String.ofList text) =
      ⟨⟨lit "flow-1", .tlsHttp (lit "api.openai.com")⟩, ⟨Mitm.ascii "GET", ⟨none, none, none, []⟩, .http11, ⟨[]⟩⟩,
        ⟨101, .http11, ⟨[]⟩⟩, direction, sequence, some text, none⟩ := by
  rw [sampleMessage, lit_ofList text]

private def itemDone : FrameMessage := sampleMessage .serverToClient 7
  "\x7b\"type\":\"response.output_item.done\",\"item\":\x7b\"content\":[\x7b\"type\":\"error\"\x7d]\x7d\x7d"

/-- An error item inside an output item ends the turn. -/
theorem nested_type_completes : ¬ ∀ (env : FrameDecoding) (arrivals : List Arrival) (rank : Str → Nat) (now : Nat)
    (message : FrameMessage),
    ((push rank now message.flow.flowId (parseOpenAiWebSocketMessage env message) (observe arrivals).pending).1.isSome =
      true ↔ IsTerminalFrame env message) := by
  intro h
  have hframe := h sampleDecoding [] (fun _ => 0) 0 itemDone
  have hpush := push_isSome [] (arrivalOf sampleDecoding (fun _ => 0) 0 itemDone)
  have hitem : endsTurn (parseOpenAiWebSocketMessage sampleDecoding itemDone) = true ∧
      (websocketJsonPayload sampleDecoding itemDone).any (fun payload => payload.kind.any isTerminalEvent) = false := by
    rw [itemDone, sampleMessage_ofList]
    with_unfolding_all decide
  obtain ⟨hends, hown⟩ := hitem
  obtain ⟨_, payload, hpayload, hterminal⟩ := hframe.mp (hpush.trans hends)
  rw [hpayload] at hown
  change payload.kind.any isTerminalEvent = false at hown
  rw [hown] at hterminal
  cases hterminal

end Sample
end Abyss.AgentHook.OpenAi
