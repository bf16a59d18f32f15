import Abyss.Sdk.PythonSchema
import Abyss.Sdk.RustSchema
import Abyss.Sdk.Timestamp
import Abyss.Sdk.TypeScriptSchema

/-! The three SDKs on one event: what the broker writes is in the common format, so that every SDK shows the event it was
written from, and what one of them rejects there all of them reject. -/
namespace Abyss.Sdk
open Abyss.Text Abyss.PluginProtocol Schema JsonFields JsonField

/-- All counters of an event. -/
def counters (usage : TokenUsage) : List UInt64 :=
  [usage.inputTokens, usage.outputTokens, usage.cacheReadTokens, usage.cacheWriteTokens, usage.reasoningTokens,
    usage.totalTokens]

section Written
variable {α β : Type} {places : List (String × Place)}

/-- The written members of a structure are distinct, and in their places. -/
def Placed (places : List (String × Place)) (fs : JsonFields α) (a : α) : Prop :=
  ((fs.write a).map Prod.fst).Sublist fs.names ∧
    ∀ place ∈ places, ∀ member ∈ fs.write a, member.1 = place.1.toList → place.2 member.2

theorem placed_nil : Placed places JsonFields.nil () := ⟨List.Sublist.refl _, fun _ _ _ hm => nomatch hm⟩

theorem placed_cons {f : JsonField α} {fs : JsonFields β} {a : α} {b : β}
    (hf : f.skip a = false → ∀ place ∈ places, f.name = place.1.toList → place.2 (f.codec.toJson a))
    (hfs : Placed places fs b) : Placed places (cons f fs) (a, b) := by
  by_cases hskip : f.skip a = true
  · have hwrite : (cons f fs).write (a, b) = fs.write b := by simp only [cons, JsonField.write, if_pos hskip, List.nil_append]
    refine ⟨?_, ?_⟩
    · rw [hwrite]
      exact hfs.1.trans (List.sublist_cons_self _ _)
    · rw [hwrite]
      exact hfs.2
  · have hwrite : (cons f fs).write (a, b) = (f.name, f.codec.toJson a) :: fs.write b := by
      simp only [cons, JsonField.write, if_neg hskip, List.singleton_append]
    refine ⟨?_, ?_⟩
    · rw [hwrite]
      exact hfs.1.cons_cons f.name
    · rw [hwrite]
      intro place hplace member hmember hname
      rcases List.mem_cons.mp hmember with rfl | hmember
      · exact hf (Bool.eq_false_iff.mpr hskip) place hplace hname
      · exact hfs.2 place hplace member hmember hname

theorem object_written {fs : JsonFields α} {into : β → α} {from' : α → β} {b : β} (hnames : fs.names.Nodup)
    (h : Placed places fs (into b)) : Object places ((fs.struct into from').toJson b) := by
  constructor
  · intro items hitems
    cases hitems
  · intro members hmembers
    cases hmembers
    exact ⟨hnames.sublist h.1, h.2⟩

end Written

section Structures
variable {α : Type} {double : Str → Option Int}

/-- An optional member that is written is a value of its type. -/
theorem optional_place {name : Str} {codec : JsonCodec α} {a : Option α} {place : Place}
    (h : ∀ x ∈ a, place (codec.toJson x)) (hskip : (JsonField.optional name codec).skip a = false) :
    place ((JsonField.optional name codec).codec.toJson a) := by
  cases a with
  | none => cases hskip
  | some x => exact h x rfl

theorem text_place {name : Str} {s : Option Str} :
    (JsonField.optional name .string).skip s = false → Present ((JsonField.optional name .string).codec.toJson s) :=
  optional_place (fun _ _ h => by cases h)

theorem device_place (device : DeviceContext) : devicePlace (DeviceContext.codec.toJson device) := by
  apply object_written (by decide)
  apply placed_cons (by simp [required])
  apply placed_cons (by simp [required])
  apply placed_cons (fun hskip => by simpa [JsonField.optional] using text_place hskip)
  exact placed_nil

theorem agent_place (agent : AgentContext) : agentPlace (AgentContext.codec.toJson agent) := by
  apply object_written (by decide)
  apply placed_cons (by simp [required])
  apply placed_cons (fun hskip => by simpa [JsonField.optional] using text_place hskip)
  exact placed_nil

theorem llm_place (llm : LlmContext) : llmPlace (LlmContext.codec.toJson llm) := by
  apply object_written (by decide)
  apply placed_cons (by simp)
  apply placed_cons (by simp)
  exact placed_nil

theorem header_place (header : HttpHeader) : headerPlace (HttpHeader.codec.toJson header) := by
  change headerPlace (HttpHeaderWire.codec.toJson header.toWire)
  apply object_written (by decide)
  apply placed_cons (by simp [required])
  apply placed_cons (fun hskip => by simpa [JsonField.optional] using text_place hskip)
  apply placed_cons (fun hskip => by simpa [JsonField.optional] using text_place hskip)
  exact placed_nil

theorem u64_place {bound : Nat} {n : UInt64} (h : n.toNat < bound) : Count double bound (JsonCodec.u64.toJson n) := by
  intro m hm
  cases hm
  change (UInt64.ofNat n.toNat).toNat < bound
  rwa [UInt64.toNat_ofNat', Nat.mod_eq_of_lt n.toNat_lt]

theorem u32_place (n : UInt32) : Count double (2 ^ 32) (JsonCodec.u32.toJson n) := by
  intro m hm
  cases hm
  change (UInt64.ofNat n.toNat).toNat < 2 ^ 32
  rw [UInt64.toNat_ofNat', Nat.mod_eq_of_lt (Nat.lt_trans n.toNat_lt (by decide))]
  exact n.toNat_lt

theorem name_place {all : List α} {name : α → Str} (a : α) : Name ((JsonCodec.variants all name).toJson a) :=
  fun _ h => by cases h

theorem usage_place {usage : TokenUsage} (h : ∀ n ∈ counters usage, n.toNat < 2 ^ 53) :
    usagePlace double (TokenUsage.codec.toJson usage) := by
  have hcounter : ∀ n ∈ counters usage, ∀ place ∈ Schema.usageFields.map fun field => (field, Count double (2 ^ 53)),
      place.2 (JsonCodec.u64.toJson n) := by
    intro n hn place hplace
    obtain ⟨field, _, rfl⟩ := List.mem_map.mp hplace
    exact u64_place (h n hn)
  apply object_written (by decide)
  iterate 6
    apply placed_cons (fun _ place hplace _ => hcounter _ (by simp [counters]) place hplace)
  exact placed_nil

theorem attachment_place {attachment : ImageAttachment} (h : attachment.byteSize.toNat < 2 ^ 53) :
    attachmentPlace double (ImageAttachment.codec.toJson attachment) := by
  apply object_written (by decide)
  apply placed_cons (by simpa [required] using u32_place _)
  apply placed_cons (by simpa [required] using (show Name (ImageMediaType.codec.toJson _) from name_place _))
  apply placed_cons (by simpa [required] using u64_place h)
  apply placed_cons (by simp [required])
  apply placed_cons (fun hskip => by simpa [JsonField.optional] using text_place hskip)
  exact placed_nil

theorem entry_place (entry : ConversationEntry) : entryPlace (ConversationEntry.codec.toJson entry) := by
  apply object_written (by decide)
  apply placed_cons (by simpa [required] using (show Name (EntryRole.codec.toJson _) from name_place _))
  apply placed_cons (by simp [required])
  apply placed_cons (fun hskip => by simpa [JsonField.optional] using text_place hskip)
  apply placed_cons (fun hskip => by simpa [JsonField.optional] using text_place hskip)
  apply placed_cons (fun hskip => by simpa [JsonField.optional] using text_place hskip)
  exact placed_nil

theorem items_place {codec : JsonCodec α} {as : List α} {place : Place} (h : ∀ a ∈ as, place (codec.toJson a)) :
    Items place (codec.list.toJson as) := by
  intro items hitems
  cases hitems
  intro item hitem
  obtain ⟨a, ha, rfl⟩ := List.mem_map.mp hitem
  exact h a ha

theorem conversation_place (conversation : Conversation) : conversationPlace (Conversation.codec.toJson conversation) := by
  apply object_written (by decide)
  apply placed_cons (by simpa [required] using items_place (fun e _ => entry_place e))
  apply placed_cons (by simpa [required] using (show Name (ContentCompleteness.codec.toJson _) from name_place _))
  exact placed_nil

end Structures

section Event
variable {Time : Type} {double : Str → Option Int} {time : Rfc3339 Time}

/-- What every SDK can hold of an event: the numbers are safe integers of JavaScript, and the time has whole
microseconds. -/
structure Shareable (at' : Time → Timestamp) (event : AgentEvent Time) : Prop where
  counters_lt : ∀ n ∈ counters event.tokenUsage, n.toNat < 2 ^ 53
  sizes_lt : ∀ attachment ∈ event.attachments, attachment.byteSize.toNat < 2 ^ 53
  microseconds : (at' event.observedAt).Microseconds

theorem purpose_place {purpose : Option EventPurpose} {name : Str}
    (hskip : (JsonField.optional name EventPurpose.codec).skip purpose = false) :
    Present ((JsonField.optional name EventPurpose.codec).codec.toJson purpose) ∧
      Name ((JsonField.optional name EventPurpose.codec).codec.toJson purpose) :=
  ⟨optional_place (fun _ _ h => by cases h) hskip, optional_place (fun _ _ => name_place _) hskip⟩

theorem optional_conversation_place {conversation : Option Conversation} {name : Str}
    (hskip : (JsonField.optional name Conversation.codec).skip conversation = false) :
    Present ((JsonField.optional name Conversation.codec).codec.toJson conversation) ∧
      conversationPlace ((JsonField.optional name Conversation.codec).codec.toJson conversation) :=
  ⟨optional_place (fun _ _ h => by cases h) hskip, optional_place (fun _ _ => conversation_place _) hskip⟩

/-- Every event that the SDKs can hold is written in the common format. -/
theorem event_place {at' : Time → Timestamp} {event : AgentEvent Time} (h : Shareable at' event) :
    eventPlace double ((AgentEvent.codec time).toJson event) := by
  have hnames : (AgentEvent.fields time).names.Nodup := by
    simp only [AgentEvent.fields, cons, required, JsonField.optional, listed, JsonFields.nil]
    decide
  apply object_written hnames
  apply placed_cons (by simp [required])
  apply placed_cons (by simp [required])
  apply placed_cons (by simpa [required] using device_place _)
  apply placed_cons (by simpa [required] using agent_place _)
  apply placed_cons (by simp [required])
  iterate 5
    apply placed_cons (fun hskip => by simpa [JsonField.optional] using text_place hskip)
  apply placed_cons (fun hskip => by simpa [JsonField.optional] using purpose_place hskip)
  apply placed_cons (by simpa [required] using llm_place _)
  apply placed_cons (by simpa [required] using (show Name (AgentEventSide.codec.toJson _) from name_place _))
  apply placed_cons (fun _ => by simpa [listed] using items_place (fun c _ => (show Name (ContentCategory.codec.toJson _) from name_place _)))
  apply placed_cons (fun hskip => by simpa [JsonField.optional] using optional_conversation_place hskip)
  apply placed_cons (by simp [required])
  apply placed_cons (fun _ => by simpa [listed] using items_place (fun header _ => header_place header))
  apply placed_cons (by simpa [required] using usage_place h.counters_lt)
  apply placed_cons (fun _ => by simpa [listed] using items_place (fun a ha => attachment_place (h.sizes_lt a ha)))
  exact placed_nil

end Event

section Times
variable {Time Time' : Type}

def ExposedEvent.withTime (event : ExposedEvent Time) (observedAt : Time') : ExposedEvent Time' where
  eventId := event.eventId
  observedAt
  device := event.device
  agent := event.agent
  sessionId := event.sessionId
  responseId := event.responseId
  previousResponseId := event.previousResponseId
  subagentId := event.subagentId
  parentSubagentId := event.parentSubagentId
  turnId := event.turnId
  purpose := event.purpose
  llm := event.llm
  side := event.side
  omitted := event.omitted
  conversation := event.conversation
  path := event.path
  headers := event.headers
  tokenUsage := event.tokenUsage
  attachments := event.attachments

/-- The timestamp is read apart from the rest of the event. -/
theorem event_time (parse : Str → Option Time) (value : Json) : event parse value =
    (event some value).bind (fun shown => (parse shown.observedAt).map shown.withTime) := by
  cases value with
  | obj members =>
    simp only [event, object, ← Option.bind_eq_bind, bind_assoc, Data.some_do]
    cases string members "observed_at" with
    | none => simp only [Data.none_do, Data.do_none]
    | some text =>
      simp only [Data.some_do]
      cases parse text with
      | none => simp only [Data.none_do, Data.do_none, Option.map_none]
      | some time => rfl
  | _ => rfl

/-- Timestamps that are not read. -/
def anyTime : Rfc3339 Str := ⟨id, some, fun _ => rfl⟩

end Times

section Agreement
variable {Time : Type} {time : Rfc3339 Time} {double : Str → Option Int} {dateParse : Str → Bool} {value : Json}

/-- In the common format the three decoders accept the same values, up to the timestamp. -/
theorem rejected_by_all {Time' : Type} {parse : Str → Option Time'} (h : eventPlace double value) (hnone : event some value = none) :
    (Python.fromDict parse value).toOption = none ∧
      (TypeScript.decodeAgentEvent double dateParse value).toOption = none ∧ (AgentEvent.codec time).fromJson value = none := by
  have hevent : ∀ {T : Type} (parse : Str → Option T), event parse value = none := by
    intro T parse
    rw [event_time, hnone]
    rfl
  refine ⟨?_, ?_, ?_⟩
  · rw [Python.fromDict_schema h, hevent]
  · exact Option.map_eq_none_iff.mp ((TypeScript.decodeAgentEvent_schema h).symm.trans (hevent _))
  · exact Option.map_eq_none_iff.mp ((Rust.codec_schema h).symm.trans (hevent _))

theorem rejected_iff (h : eventPlace double value) : event some value = none ↔
    (Python.fromDict some value).toOption = none ∨
      (TypeScript.decodeAgentEvent double (fun _ => true) value).toOption = none ∨
        (AgentEvent.codec anyTime).fromJson value = none := by
  constructor
  · intro hnone
    exact .inl (@rejected_by_all Str anyTime double (fun _ => true) value Str some h hnone).1
  · rintro (hpython | htypescript | hrust)
    · rwa [Python.fromDict_schema h] at hpython
    · exact (TypeScript.decodeAgentEvent_schema h).trans (Option.map_eq_none_iff.mpr htypescript)
    · exact (Rust.codec_schema h).trans (Option.map_eq_none_iff.mpr hrust)

/-- What the broker writes of an event, its timestamp left as text. -/
theorem event_written {at' : Time → Timestamp} {e : AgentEvent Time} (h : Shareable at' e) :
    event some ((AgentEvent.codec time).toJson e) = some (expose time.format e.normalized) := by
  let text : AgentEvent Str := { e with observedAt := time.format e.observedAt }
  have hread : (AgentEvent.codec anyTime).fromJson ((AgentEvent.codec time).toJson e) = some text.normalized :=
    AgentEvent.codec_reads text
  have hplace : eventPlace (fun _ => none) ((AgentEvent.codec time).toJson e) := event_place h
  have hschema : event some ((AgentEvent.codec time).toJson e) =
      ((AgentEvent.codec anyTime).fromJson ((AgentEvent.codec time).toJson e)).map (expose id) :=
    @Rust.codec_schema Str (fun _ => none) anyTime _ hplace
  rw [hschema, hread]
  rfl

/-- The three SDKs accept an event that all of them can hold and show it as it was written, and in the common format a
value that one of them rejects for anything but its timestamp is rejected by all. -/
theorem event_decoding_agreement (time : Rfc3339 Time) (at' : Time → Timestamp)
    (hformat : ∀ t, time.format t = (at' t).format) (double : Str → Option Int) (dateParse : Str → Bool)
    (hdate : ∀ t : Timestamp, t.Microseconds → dateParse t.format = true) :
    (∀ event : AgentEvent Time, Shareable at' event →
      (AgentEvent.codec time).fromJson ((AgentEvent.codec time).toJson event) = some event.normalized ∧
      Python.fromDict parseDatetime ((AgentEvent.codec time).toJson event) =
        .ok (expose (fun t => (at' t).toDatetime) event.normalized) ∧
      ∃ members, TypeScript.decodeAgentEvent double dateParse ((AgentEvent.codec time).toJson event) = .ok members ∧
        TypeScript.viewEvent double members = expose time.format event.normalized) ∧
    ∀ value, eventPlace double value →
      ((∃ error, Python.fromDict some value = .error error) ∨
        (∃ error, TypeScript.decodeAgentEvent double (fun _ => true) value = .error error) ∨
          (AgentEvent.codec anyTime).fromJson value = none) →
      (∃ error, Python.fromDict parseDatetime value = .error error) ∧
        (∃ error, TypeScript.decodeAgentEvent double dateParse value = .error error) ∧
          (AgentEvent.codec time).fromJson value = none := by
  constructor
  · intro e h
    have hplace : eventPlace double ((AgentEvent.codec time).toJson e) := event_place h
    have hwritten : event some ((AgentEvent.codec time).toJson e) = some (expose time.format e.normalized) := event_written h
    refine ⟨AgentEvent.codec_reads e, ?_, ?_⟩
    · rw [← Data.toOption_eq_some, Python.fromDict_schema hplace, event_time, hwritten, Option.bind_some]
      change (parseDatetime (time.format e.observedAt)).map _ = _
      rw [hformat, parseDatetime_format h.microseconds]
      rfl
    · have hschema : event (fun text => if dateParse text then some text else none) ((AgentEvent.codec time).toJson e) =
          (TypeScript.decodeAgentEvent double dateParse ((AgentEvent.codec time).toJson e)).toOption.map
            (TypeScript.viewEvent double) := TypeScript.decodeAgentEvent_schema hplace
      rw [event_time, hwritten, Option.bind_some] at hschema
      have hread : dateParse (time.format e.observedAt) = true := by
        rw [hformat]
        exact hdate _ h.microseconds
      change (if dateParse (time.format e.observedAt) then some (time.format e.observedAt) else none).map _ = _ at hschema
      rw [if_pos hread, Option.map_some] at hschema
      obtain ⟨members, hmembers, hview⟩ := Option.map_eq_some_iff.mp hschema.symm
      exact ⟨members, Data.toOption_eq_some.mp hmembers, hview⟩
  · intro value hplace hrejected
    rw [← Data.toOption_eq_none, ← Data.toOption_eq_none] at hrejected ⊢
    exact rejected_by_all hplace ((rejected_iff hplace).mpr hrejected)

end Agreement

section Sample

def fixedTimestamp : Timestamp where
  year := 2026
  month := 1
  day := 2
  hour := 3
  minute := 4
  second := 5
  nanosecond := 678000000
  year_mem := by decide
  month_mem := by decide
  day_mem := by decide
  hour_lt := by decide
  minute_lt := by decide
  second_lt := by decide
  nanosecond_lt := by decide

def fixedTime : Rfc3339 Unit where
  format _ := fixedTimestamp.format
  parse text := if text = fixedTimestamp.format then some () else none
  parse_format _ := if_pos rfl

def countedEvent (inputTokens : UInt64) : AgentEvent Unit where
  eventId := "e1".toList
  observedAt := ()
  device := ⟨"host".toList, "linux".toList, none⟩
  agent := ⟨"codex".toList, some "1.0".toList⟩
  sessionId := "s1".toList
  responseId := some "r1".toList
  previousResponseId := none
  subagentId := none
  parentSubagentId := none
  turnId := none
  purpose := some .compaction
  llm := ⟨.openAi, "gpt".toList⟩
  side := .response
  omitted := [.images]
  conversation := some ⟨[⟨.user, "hi".toList, none, none, none⟩], .complete⟩
  path := "/v1/responses".toList
  headers := [⟨"accept".toList, .text "x".toList⟩]
  tokenUsage := ⟨inputTokens, 0, 0, 0, 0, inputTokens⟩
  attachments := [⟨0, .png, 10, "ab".toList, none⟩]

def fixedDateParse (text : Str) : Bool := (parseDatetime text).isSome

theorem sample_decoding :
    (∃ members, TypeScript.decodeAgentEvent (fun _ => none) fixedDateParse
        ((AgentEvent.codec fixedTime).toJson (countedEvent 9007199254740991)) = .ok members ∧
      TypeScript.viewEvent (fun _ => none) members = expose fixedTime.format (countedEvent 9007199254740991).normalized) ∧
    ∃ error, Python.fromDict parseDatetime (.obj [("extra".toList, .null)]) = .error error := by
  have hagreement := event_decoding_agreement fixedTime (fun _ => fixedTimestamp) (fun _ => rfl) (fun _ => none)
    fixedDateParse (fun t ht => by rw [fixedDateParse, parseDatetime_format ht]; rfl)
  constructor
  · have hcounters : ∀ n ∈ counters (countedEvent 9007199254740991).tokenUsage, n.toNat < 2 ^ 53 := by
      intro n hn
      simp only [counters, countedEvent, List.mem_cons, List.not_mem_nil, or_false] at hn
      rcases hn with rfl | rfl | rfl | rfl | rfl | rfl <;> decide
    exact (hagreement.1 (countedEvent 9007199254740991) ⟨hcounters, by decide, rfl⟩).2.2
  · have hplace : eventPlace (fun _ => none) (.obj [("extra".toList, .null)]) := by
      constructor
      · intro items hitems
        cases hitems
      · intro members hmembers
        cases hmembers
        exact ⟨by simp, by simp⟩
    have hforeign : "extra".toList ∉ (AgentEvent.fields anyTime).names := by
      simp only [AgentEvent.fields, cons, required, JsonField.optional, listed, JsonFields.nil]
      decide
    exact (hagreement.2 _ hplace (.inr (.inr (JsonFields.struct_foreign List.mem_cons_self hforeign)))).1

/-- TypeScript holds no counter from `2^53` on, which the other SDKs read. -/
theorem unsafe_counter_is_rejected :
    (AgentEvent.codec fixedTime).fromJson ((AgentEvent.codec fixedTime).toJson (countedEvent 9007199254740992)) =
        some (countedEvent 9007199254740992) ∧
      ∃ error, TypeScript.decodeAgentEvent (fun _ => none) fixedDateParse
        ((AgentEvent.codec fixedTime).toJson (countedEvent 9007199254740992)) = .error error := by
  refine ⟨AgentEvent.codec_reads _, Data.toOption_eq_none.mp (Option.isNone_iff_eq_none.mp ?_)⟩
  decide

end Sample
end Abyss.Sdk
