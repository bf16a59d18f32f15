import Abyss.AgentHook.Event.Normalizer

/-! What a content policy can change about the events of an exchange, and what it hides. -/
namespace Abyss.AgentHook
open Abyss.Text Abyss.PluginProtocol

section Retained

/-- An entry without its text. -/
def withoutText (entry : ConversationEntry) : ConversationEntry := { entry with text := [] }

theorem withoutText_retainedEntry (content : HarnessUsageContentConfig) (entry : ConversationEntry) :
    withoutText (retainedEntry content entry) = withoutText entry := by
  unfold retainedEntry
  split <;> rfl

/-- A conversation with the texts of its entries emptied. -/
def emptied (conversation : Conversation) : Conversation :=
  { conversation with entries := conversation.entries.map withoutText }

theorem emptied_retainedConversation (conversation : Conversation) (content : HarnessUsageContentConfig) :
    emptied (retainedConversation conversation content) = emptied conversation := by
  simp only [emptied, retainedConversation, List.map_map]
  congr 1
  apply List.map_congr_left
  intro entry _
  exact withoutText_retainedEntry content entry

/-- An event without the fields that a policy may change and without its timestamp. -/
def skeleton (event : NormalizedUsageEvent) : NormalizedUsageEvent :=
  { event with
    observedAt := []
    omitted := []
    conversation := event.conversation.map emptied
    tokenUsage := .zero
    attachments := [] }

/-- An event without its id and timestamp. -/
def content (event : NormalizedUsageEvent) : NormalizedUsageEvent := { event with eventId := [], observedAt := [] }

end Retained

section Relation

/-- Entries that a policy does not tell apart. -/
def SameEntry (content : HarnessUsageContentConfig) (entry entry' : ConversationEntry) : Prop :=
  withoutText entry = withoutText entry' ∧ (kept content entry.role = true → entry.text = entry'.text)

/-- Conversations that a policy does not tell apart. -/
def SameConversation (content : HarnessUsageContentConfig) (conversation conversation' : Conversation) : Prop :=
  List.Forall₂ (SameEntry content) conversation.entries conversation'.entries ∧
    conversation.completeness = conversation'.completeness

/-- Exchanges that differ only in what the policy omits: the texts of omitted entries, the bytes of
omitted images, and omitted counters that stay on the same sides. -/
structure DiffersOnlyInOmitted (content : HarnessUsageContentConfig) (parts parts' : ParsedEventParts) : Prop where
  rest : parts' = { parts with
    requestConversation := parts'.requestConversation
    responseConversation := parts'.responseConversation
    requestImages := parts'.requestImages
    usage := parts'.usage }
  request : SameConversation content parts.requestConversation parts'.requestConversation
  response : SameConversation content parts.responseConversation parts'.responseConversation
  images : content.images = true → parts.requestImages = parts'.requestImages
  imageTypes : parts.requestImages.map (·.mediaType) = parts'.requestImages.map (·.mediaType)
  usage : content.tokenUsage = true → parts.usage = parts'.usage
  usageSides : parts.usage.requestSide.isEmpty = parts'.usage.requestSide.isEmpty ∧
    parts.usage.responseSide.isEmpty = parts'.usage.responseSide.isEmpty

theorem SameEntry.retained {content : HarnessUsageContentConfig} {entry entry' : ConversationEntry}
    (h : SameEntry content entry entry') : retainedEntry content entry = retainedEntry content entry' := by
  obtain ⟨hrest, htext⟩ := h
  have hrole : (withoutText entry).role = (withoutText entry').role := congrArg ConversationEntry.role hrest
  change entry.role = entry'.role at hrole
  by_cases hkept : kept content entry.role = true
  · have hback : entry = { withoutText entry with text := entry.text } := rfl
    rw [retainedEntry, if_pos hkept, retainedEntry, if_pos (hrole ▸ hkept), hback, hrest, htext hkept]
    rfl
  · rw [retainedEntry, if_neg hkept, retainedEntry, if_neg (hrole ▸ hkept)]
    exact hrest

theorem SameConversation.retained {content : HarnessUsageContentConfig} {conversation conversation' : Conversation}
    (h : SameConversation content conversation conversation') :
    retainedConversation conversation content = retainedConversation conversation' content := by
  obtain ⟨hentries, hcompleteness⟩ := h
  simp only [retainedConversation, hcompleteness, Conversation.mk.injEq, and_true]
  generalize conversation.entries = entries, conversation'.entries = entries' at hentries
  induction hentries with
  | nil => rfl
  | cons hentry _ ih => rw [List.map_cons, List.map_cons, hentry.retained, ih]

theorem SameConversation.isEmpty {content : HarnessUsageContentConfig} {conversation conversation' : Conversation}
    (h : SameConversation content conversation conversation') :
    conversation.entries.isEmpty = conversation'.entries.isEmpty := by
  have hentries := h.1
  generalize conversation.entries = entries, conversation'.entries = entries' at hentries
  cases hentries <;> rfl

namespace DiffersOnlyInOmitted
variable {content : HarnessUsageContentConfig} {parts parts' : ParsedEventParts}

theorem requestHasContent (h : DiffersOnlyInOmitted content parts parts') :
    parts.requestHasContent = parts'.requestHasContent := by
  have himages : parts.requestImages.isEmpty = parts'.requestImages.isEmpty := by
    have hmap := congrArg List.isEmpty h.imageTypes
    rwa [List.isEmpty_map, List.isEmpty_map] at hmap
  rw [ParsedEventParts.requestHasContent, h.request.isEmpty, himages]
  rfl

theorem responseHasContent (h : DiffersOnlyInOmitted content parts parts') :
    parts.responseHasContent = parts'.responseHasContent := by
  rw [ParsedEventParts.responseHasContent, h.response.isEmpty]
  rfl

/-- The same sides are emitted. -/
theorem emittedSides (h : DiffersOnlyInOmitted content parts parts') : parts.emittedSides = parts'.emittedSides := by
  have hemits : parts.emits = parts'.emits := by
    rw [ParsedEventParts.emits, h.requestHasContent, h.responseHasContent, TokenUsage.isEmpty_sides, h.usageSides.1,
      h.usageSides.2, ← TokenUsage.isEmpty_sides, ParsedEventParts.emits,
      congrArg ParsedEventParts.allowRequestWithoutResponse h.rest]
  have hcarries : parts.carries = parts'.carries := by
    funext side
    cases side with
    | request => rw [ParsedEventParts.carries, h.requestHasContent, h.usageSides.1]; rfl
    | response => rw [ParsedEventParts.carries, h.responseHasContent, h.usageSides.2]; rfl
  rw [ParsedEventParts.emittedSides, hemits, hcarries]
  rfl

theorem retainedTokenUsage {side : TokenUsage → TokenUsage} (h : DiffersOnlyInOmitted content parts parts') :
    AgentHook.retainedTokenUsage (side parts.usage) content = AgentHook.retainedTokenUsage (side parts'.usage) content := by
  unfold AgentHook.retainedTokenUsage
  split
  · rename_i hkept
    rw [h.usage hkept]
  · rfl

theorem normalizedImageAttachments {Time : Type} (platform : Platform Time)
    (h : DiffersOnlyInOmitted content parts parts') :
    AgentHook.normalizedImageAttachments platform parts.requestImages content =
      AgentHook.normalizedImageAttachments platform parts'.requestImages content := by
  unfold AgentHook.normalizedImageAttachments
  split
  · rename_i hkept
    rw [h.images hkept]
  · rfl

end DiffersOnlyInOmitted
end Relation

section Events
variable {Time : Type} [LinearOrder Time] (platform : Platform Time) (device : DeviceIdentity)

/-- A view of the events that ignores timestamps is a view of the sides. -/
theorem map_usageEvents {β : Type} (view : NormalizedUsageEvent → β) (parts : ParsedEventParts) (clock : Nat → Time)
    (ofSide : EventSide → β) (hview : ∀ side at', view (usageEvent platform device parts side at') = ofSide side)
    (timestamps : EventTimestampSequence Time) (sides : List EventSide) :
    (usageEvents platform device parts clock timestamps sides).map view = sides.map ofSide := by
  induction sides generalizing timestamps with
  | nil => rfl
  | cons side sides ih =>
    rw [usageEvents, List.map_cons, List.map_cons, hview, ih]

theorem sides_eventsForParsedExchange (parts : ParsedEventParts) (clock : Nat → Time)
    (content : HarnessUsageContentConfig) (declared : Declared) (passthrough : ExchangePassthrough) :
    (eventsForParsedExchange platform device parts clock content declared passthrough).map (·.side) =
      parts.emittedSides := by
  rw [eventsForParsedExchange, map_usageEvents platform device _ parts clock EventSide.side (fun _ _ => rfl), List.map_map]
  calc parts.emittedSides.map (EventSide.side ∘ parts.eventSide content declared passthrough)
      = parts.emittedSides.map id := List.map_congr_left (fun side _ => by cases side <;> rfl)
    _ = parts.emittedSides := List.map_id _

/-- The policy changes no field of the skeleton. -/
theorem skeleton_eventsForParsedExchange (parts : ParsedEventParts) (clock clock' : Nat → Time)
    (content content' : HarnessUsageContentConfig) (declared : Declared) (passthrough : ExchangePassthrough) :
    (eventsForParsedExchange platform device parts clock content declared passthrough).map skeleton =
      (eventsForParsedExchange platform device parts clock' content' declared passthrough).map skeleton := by
  rw [eventsForParsedExchange, eventsForParsedExchange,
    map_usageEvents platform device skeleton parts clock
      (fun side => skeleton (usageEvent platform device parts side (clock 0))) (fun _ _ => rfl),
    map_usageEvents platform device skeleton parts clock'
      (fun side => skeleton (usageEvent platform device parts side (clock 0))) (fun _ _ => rfl),
    List.map_map, List.map_map]
  apply List.map_congr_left
  intro side _
  cases side <;>
    simp only [Function.comp, skeleton, usageEvent, ParsedEventParts.eventSide, Option.map_some,
      emptied_retainedConversation]

/-- Every entry keeps its place and everything but its text. -/
theorem emptied_eventsForParsedExchange (parts : ParsedEventParts) (clock : Nat → Time)
    (content : HarnessUsageContentConfig) (declared : Declared) (passthrough : ExchangePassthrough) :
    (eventsForParsedExchange platform device parts clock content declared passthrough).map
        (fun event => (event.side, event.conversation.map emptied)) =
      parts.emittedSides.map (fun side => (side, some (emptied (match side with
        | .request => parts.requestConversation
        | .response => parts.responseConversation)))) := by
  rw [eventsForParsedExchange, map_usageEvents platform device _ parts clock
      (fun side => (side.side, some (emptied side.conversation))) (fun side _ => by
        simp only [usageEvent, Option.map_some, emptied_retainedConversation]), List.map_map]
  apply List.map_congr_left
  intro side _
  cases side <;> rfl

/-- What a policy omits reaches only ids and timestamps. -/
theorem content_eventsForParsedExchange {content : HarnessUsageContentConfig} {parts parts' : ParsedEventParts}
    (h : DiffersOnlyInOmitted content parts parts') (clock clock' : Nat → Time) (declared : Declared)
    (passthrough : ExchangePassthrough) :
    (eventsForParsedExchange platform device parts clock content declared passthrough).map AgentHook.content =
      (eventsForParsedExchange platform device parts' clock' content declared passthrough).map AgentHook.content := by
  rw [eventsForParsedExchange, eventsForParsedExchange,
    map_usageEvents platform device AgentHook.content parts clock
      (fun side => AgentHook.content (usageEvent platform device parts side (clock 0))) (fun _ _ => rfl),
    map_usageEvents platform device AgentHook.content parts' clock'
      (fun side => AgentHook.content (usageEvent platform device parts' side (clock 0))) (fun _ _ => rfl),
    List.map_map, List.map_map, h.emittedSides]
  apply List.map_congr_left
  intro side _
  have hname := congrArg ParsedEventParts.harnessName h.rest
  have hversion := congrArg ParsedEventParts.harnessVersion h.rest
  have hsession := congrArg ParsedEventParts.sessionId h.rest
  have hprovider := congrArg ParsedEventParts.llmProvider h.rest
  have hmodel := congrArg ParsedEventParts.llmModel h.rest
  cases side with
  | request =>
    simp only [Function.comp, AgentHook.content, usageEvent, ParsedEventParts.eventSide, hname, hversion, hsession,
      hprovider, hmodel, h.request.retained, h.retainedTokenUsage, h.normalizedImageAttachments]
  | response =>
    simp only [Function.comp, AgentHook.content, usageEvent, ParsedEventParts.eventSide, hname, hversion, hsession,
      hprovider, hmodel, h.response.retained, h.retainedTokenUsage]

theorem mem_emittedSides (parts : ParsedEventParts) (side : AgentEventSide) :
    side ∈ parts.emittedSides ↔ parts.emits = true ∧ parts.carries side = true := by
  unfold ParsedEventParts.emittedSides
  split
  · rename_i hemits
    rw [List.mem_filter]
    cases side <;> simp [hemits]
  · rename_i hemits
    simp [hemits]

/-- An exchange that emits at all emits a side. -/
theorem emittedSides_ne_nil (parts : ParsedEventParts) : parts.emittedSides ≠ [] ↔ parts.emits = true := by
  constructor
  · intro hne
    obtain ⟨side, hside⟩ := List.exists_mem_of_ne_nil _ hne
    exact ((mem_emittedSides parts side).mp hside).1
  · intro hemits
    have hside : ∃ side, parts.carries side = true := by
      have hcases := hemits
      rw [ParsedEventParts.emits, TokenUsage.isEmpty_sides, Bool.not_and, Bool.or_eq_true, Bool.or_eq_true,
        Bool.or_eq_true, Bool.and_eq_true] at hcases
      obtain (hresponse | hrequestUsage | hresponseUsage) | ⟨_, hrequest⟩ := hcases
      · exact ⟨.response, by rw [ParsedEventParts.carries, hresponse, Bool.true_or]⟩
      · exact ⟨.request, by rw [ParsedEventParts.carries, hrequestUsage, Bool.or_true]⟩
      · exact ⟨.response, by rw [ParsedEventParts.carries, hresponseUsage, Bool.or_true]⟩
      · exact ⟨.request, by rw [ParsedEventParts.carries, hrequest, Bool.true_or]⟩
    obtain ⟨side, hside⟩ := hside
    exact List.ne_nil_of_mem ((mem_emittedSides parts side).mpr ⟨hemits, hside⟩)

/-- The policy decides neither what is emitted nor any identity, and what it omits shows nowhere
but in ids and timestamps. -/
theorem content_policy_noninterference {content : HarnessUsageContentConfig} {parts parts' : ParsedEventParts}
    (h : DiffersOnlyInOmitted content parts parts') (clock clock' : Nat → Time) (declared : Declared)
    (passthrough : ExchangePassthrough) :
    (eventsForParsedExchange platform device parts clock content declared passthrough).map skeleton =
        (eventsForParsedExchange platform device parts clock' .default declared passthrough).map skeleton ∧
      (eventsForParsedExchange platform device parts clock content declared passthrough).map
          (fun event => (event.side, event.conversation.map emptied)) =
        parts.emittedSides.map (fun side => (side, some (emptied (match side with
          | .request => parts.requestConversation
          | .response => parts.responseConversation)))) ∧
      (∀ side, side ∈ (eventsForParsedExchange platform device parts clock content declared passthrough).map (·.side) ↔
        eventsForParsedExchange platform device parts clock' .default declared passthrough ≠ [] ∧
          parts.carries side = true) ∧
      (eventsForParsedExchange platform device parts clock content declared passthrough).map AgentHook.content =
        (eventsForParsedExchange platform device parts' clock' content declared passthrough).map AgentHook.content := by
  have hsides := sides_eventsForParsedExchange platform device parts
  refine ⟨skeleton_eventsForParsedExchange platform device parts clock clock' content .default declared passthrough, ?_,
    ?_, content_eventsForParsedExchange platform device h clock clock' declared passthrough⟩
  · exact emptied_eventsForParsedExchange platform device parts clock content declared passthrough
  · intro side
    have hemits : eventsForParsedExchange platform device parts clock' .default declared passthrough ≠ [] ↔
        parts.emits = true := by
      rw [← emittedSides_ne_nil, ← hsides clock' .default declared passthrough, ne_eq, ne_eq, List.map_eq_nil_iff]
    rw [hsides, mem_emittedSides, hemits]

end Events

section Example

/-- An exchange with one text on each side and one image. -/
def exchangeWith (requestText responseText : Str) (image : List UInt8) : ParsedEventParts :=
  ⟨[], none, [], none, [], [], ⟨[ConversationProjection.text .user requestText], .complete⟩,
    ⟨[ConversationProjection.text .assistant responseText], .complete⟩, [⟨.png, image, []⟩],
    .fromParts 1 0 0 2 0, false⟩

theorem content_policy_noninterference_texts :
    (eventsForParsedExchange (⟨⟨id⟩, fun _ => [], some, fun _ => [], []⟩ : Platform Nat) ⟨none, none, none⟩
        (exchangeWith ['a'] ['b'] [1]) id ⟨true, false, true, false⟩ ⟨none, none, none, none, none, none⟩
        ⟨[], [], []⟩).map content =
      (eventsForParsedExchange (⟨⟨id⟩, fun _ => [], some, fun _ => [], []⟩ : Platform Nat) ⟨none, none, none⟩
        (exchangeWith ['c'] [] [2, 3]) id ⟨true, false, true, false⟩ ⟨none, none, none, none, none, none⟩
        ⟨[], [], []⟩).map content := by
  have h : DiffersOnlyInOmitted ⟨true, false, true, false⟩ (exchangeWith ['a'] ['b'] [1])
      (exchangeWith ['c'] [] [2, 3]) := by
    refine ⟨rfl, ⟨.cons ⟨rfl, ?_⟩ .nil, rfl⟩, ⟨.cons ⟨rfl, ?_⟩ .nil, rfl⟩, ?_, rfl, fun _ => rfl, rfl, rfl⟩
    · intro hkept
      cases hkept
    · intro hkept
      cases hkept
    · intro himages
      cases himages
  exact (content_policy_noninterference _ _ h id id _ _).2.2.2

end Example
end Abyss.AgentHook
