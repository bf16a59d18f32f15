import Abyss.AgentHook.OpenAi.ChatCompletions.Assembly
import Abyss.AgentHook.OpenAi.ChatCompletions.Streaming
import Abyss.Data.FilterMap

/-! Reported assistant messages against the same messages replayed in a later request. -/
namespace Abyss.AgentHook.OpenAi
open Abyss.Text Abyss.PluginProtocol Abyss.Data Std

section Replayed

/-- A text that is sent leaves an entry even when it is empty. -/
private def sentEntry (text : Option Str) : List ConversationEntry :=
  (text.map (ConversationProjection.text .assistant)).toList

private theorem contentEntries_string {message : Json} (h : ∀ parts, message.get "content" ≠ some (.arr parts)) :
    ((message.get "content").map (contentEntries · .assistant)).getD [] = sentEntry (message.field "content") := by
  rw [Json.field]
  cases hcontent : message.get "content" with
  | none => rfl
  | some content =>
    cases content with
    | arr parts => exact absurd hcontent (h parts)
    | _ => rfl

private theorem reasoning_filter (reasoning : Option Str) :
    ((reasoning.filter (· ≠ [])).map (ConversationProjection.text .reasoning)).toList =
      ChatChoice.textEntry .reasoning (reasoning.getD []) := by
  cases reasoning with
  | none => rfl
  | some text => by_cases hempty : text = [] <;> simp [ChatChoice.textEntry, Option.filter, hempty]

theorem messageEntries_assistant {message : Json} (h : IsAssistantMessage message) : ChatRequest.messageEntries message =
    ChatChoice.textEntry .reasoning ((message.field "reasoning_content").getD []) ++
      sentEntry (message.field "content") ++ sentEntry (message.field "refusal") ++ messageCallEntries message := by
  rw [ChatRequest.messageEntries, h.role]
  simp only [Option.getD_some, reasoning_filter, contentEntries_string h.content, if_true]
  rfl

private theorem length_textEntry_le (text : Option Str) :
    (ChatChoice.textEntry .assistant (text.getD [])).length ≤ (sentEntry text).length := by
  cases text with
  | none => exact Nat.le_refl _
  | some text => by_cases hempty : text = [] <;> simp [ChatChoice.textEntry, sentEntry, hempty]

private theorem textEntry_eq_iff (text : Option Str) :
    ((ChatChoice.textEntry .assistant (text.getD [])).length = (sentEntry text).length ↔ text ≠ some []) ∧
      (text ≠ some [] → ChatChoice.textEntry .assistant (text.getD []) = sentEntry text) := by
  cases text with
  | none => simp [ChatChoice.textEntry, sentEntry]
  | some text => by_cases hempty : text = [] <;> simp [ChatChoice.textEntry, sentEntry, hempty]

theorem length_reportedMessage_le {message : Json} (h : IsAssistantMessage message) :
    (reportedMessage message).length ≤ (ChatRequest.messageEntries message).length := by
  have hcontent := length_textEntry_le (message.field "content")
  have hrefusal := length_textEntry_le (message.field "refusal")
  rw [messageEntries_assistant h, reportedMessage]
  simp only [List.length_append]
  omega

/-- A message leaves the same entries on both sides exactly when neither its content nor its refusal is
an empty string. -/
theorem reportedMessage_eq_iff {message : Json} (h : IsAssistantMessage message) :
    ((reportedMessage message).length = (ChatRequest.messageEntries message).length →
      message.field "content" ≠ some [] ∧ message.field "refusal" ≠ some []) ∧
    (message.field "content" ≠ some [] ∧ message.field "refusal" ≠ some [] →
      reportedMessage message = ChatRequest.messageEntries message) := by
  have hcontentLe := length_textEntry_le (message.field "content")
  have hrefusalLe := length_textEntry_le (message.field "refusal")
  obtain ⟨hcontent, hsame⟩ := textEntry_eq_iff (message.field "content")
  obtain ⟨hrefusal, hsame'⟩ := textEntry_eq_iff (message.field "refusal")
  rw [messageEntries_assistant h, reportedMessage]
  simp only [List.length_append]
  constructor
  · intro hlength
    exact ⟨hcontent.mp (by omega), hrefusal.mp (by omega)⟩
  · rintro ⟨hc, hr⟩
    rw [hsame hc, hsame' hr]

theorem flatMap_reported_eq_iff {messages : List Json} (h : ∀ message ∈ messages, IsAssistantMessage message) :
    messages.flatMap reportedMessage = messages.flatMap ChatRequest.messageEntries ↔
      ∀ message ∈ messages, message.field "content" ≠ some [] ∧ message.field "refusal" ≠ some [] := by
  constructor
  · intro heq message hmessage
    have hlengths := congrArg List.length heq
    rw [List.length_flatMap, List.length_flatMap] at hlengths
    have hone := eq_of_sum_le (fun m hm => length_reportedMessage_le (h m hm)) (Nat.le_of_eq hlengths.symm) message hmessage
    exact (reportedMessage_eq_iff (h message hmessage)).1 hone
  · intro hall
    apply List.flatMap_congr
    intro message hmessage
    exact (reportedMessage_eq_iff (h message hmessage)).2 (hall message hmessage)

theorem parse_messages {messages : List Json} {payload : Json} (hmessages : payload.get "messages" = some (.arr messages))
    (hprompt : payload.get "prompt" = none) (truncated : Bool) :
    (ChatRequest.parse (some payload) truncated).entries = messages.flatMap ChatRequest.messageEntries := by
  simp [ChatRequest.parse, hmessages, Json.field, hprompt, Json.asArray]

end Replayed

section Sample

private def callFragment (id name arguments : Str) : Json :=
  .obj [(lit "index", .num (.posInt 0)), (lit "id", .str id),
    (lit "function", .obj [(lit "name", .str name), (lit "arguments", .str arguments)])]

/-- A message with one call. -/
private def calling (content : Str) : Json :=
  .obj [(lit "role", .str (lit "assistant")), (lit "content", .str content),
    (lit "tool_calls", .arr [callFragment (lit "call-1") (lit "run") (lit "[1]")])]

private def chunk (delta : Json) : Json :=
  .obj [(lit "choices", .arr [.obj [(lit "index", .num (.posInt 0)), (lit "delta", delta)]])]

/-- Its chunks: the content, the start of the call, and the rest of its arguments under an empty id. -/
private def callingChunks (content : Str) : List Json :=
  [chunk (.obj [(lit "content", .str content)]),
    chunk (.obj [(lit "tool_calls", .arr [callFragment (lit "call-1") (lit "run") (lit "[")])]),
    chunk (.obj [(lit "tool_calls", .arr [callFragment [] [] (lit "1]")])])]

private def callingDocument (content : Str) : Json :=
  .obj [(lit "choices", .arr [.obj [(lit "index", .num (.posInt 0)), (lit "message", calling content)]])]

private def choiceZero (content : Str) : TreeMap Json := (∅ : TreeMap Json).insert 0 (calling content)

private theorem values_choiceZero (content : Str) : (choiceZero content).values = [calling content] := by
  apply TreeMap.values_eq
  rintro (_ | k) <;> simp [choiceZero]

private theorem toolCalls_calling (content : Str) :
    toolCalls (calling content) = [callFragment (lit "call-1") (lit "run") (lit "[1]")] := by
  simp [toolCalls, calling, Json.asArray]

private theorem isAssistantMessage_calling (content : Str) (k : Nat) (message : Json)
    (h : (choiceZero content)[k]? = some message) : IsAssistantMessage message := by
  have hmessage : message = calling content := by
    rcases k with _ | k <;> simp [choiceZero] at h
    exact h.symm
  subst hmessage
  refine ⟨?_, ?_, ?_, ?_⟩
  · have hrole : (calling content).field "role" = some (lit "assistant") := by simp [calling, Json.field, Json.asStr]
    rw [hrole]
    decide +kernel
  · simp [calling]
  · simp [calling, Json.field]
  · rw [toolCalls_calling]
    intro call hcall
    rw [List.mem_singleton.mp hcall]
    refine ⟨⟨lit "call-1", by simp, ?_⟩, ⟨lit "run", by simp, ?_⟩, ⟨lit "[1]", ?_⟩⟩ <;>
      simp [callFragment, callName, chatCallInput, callPayload, Json.field, Json.asStr]

private theorem streamsCall_calling : StreamsCall (callFragment (lit "call-1") (lit "run") (lit "[1]"))
    [callFragment (lit "call-1") (lit "run") (lit "["), callFragment [] [] (lit "1]")] := by
  have hinput : lit "[1]" = lit "[" ++ lit "1]" := by decide +kernel
  constructor <;>
    simp [callFragment, callName, chatCallInput, callPayload, Json.field, Json.asStr, hinput]

private theorem chatStream_calling (content : Str) : ChatStream (choiceZero content) (callingChunks content) := by
  have hchoices (k : Nat) : itemsAt k (choicesOf (callingChunks content)) =
      if k = 0 then choicesOf (callingChunks content) else [] := by
    rcases k with _ | k <;>
      simp [itemsAt, choicesOf, callingChunks, chunk, Json.asArray, indexField, Json.index, Json.asU64]
  rintro (_ | k)
  · have hzero : (choiceZero content)[0]? = some (calling content) := by simp [choiceZero]
    have hdeltas : (choicesOf (callingChunks content)).filterMap (·.get "delta") =
        [.obj [(lit "content", .str content)],
          .obj [(lit "tool_calls", .arr [callFragment (lit "call-1") (lit "run") (lit "[")])],
          .obj [(lit "tool_calls", .arr [callFragment [] [] (lit "1]")])]] := by
      simp [choicesOf, callingChunks, chunk, Json.asArray]
    rw [hzero, hchoices, if_pos rfl]
    constructor
    · simp [choicesOf, callingChunks, chunk, Json.asArray]
    · simp [choicesOf, callingChunks, chunk, Json.asArray, Json.field]
    · rw [hdeltas]
      simp [spelled, Json.field, calling]
    · rw [hdeltas]
      simp [spelled, Json.field, calling, Json.asStr]
    · rw [hdeltas]
      simp [spelled, Json.field, calling]
    · intro t
      have hcalls : itemsAt t (((choicesOf (callingChunks content)).filterMap (·.get "delta")).flatMap toolCalls) =
          if t = 0 then [callFragment (lit "call-1") (lit "run") (lit "["), callFragment [] [] (lit "1]")] else [] := by
        rw [hdeltas]
        rcases t with _ | t <;>
          simp [itemsAt, toolCalls, Json.asArray, callFragment, indexField, Json.index, Json.asU64]
      rw [toolCalls_calling, hcalls]
      rcases t with _ | t
      · exact streamsCall_calling
      · rfl
  · have hother : (choiceZero content)[k + 1]? = none := by simp [choiceZero]
    rw [hother, hchoices]
    rfl

private theorem chatDocument_calling (content : Str) : ChatDocument (choiceZero content) (callingDocument content) := by
  rintro (_ | k)
  · have hzero : (choiceZero content)[0]? = some (calling content) := by simp [choiceZero]
    rw [hzero]
    refine ⟨.obj [(lit "index", .num (.posInt 0)), (lit "message", calling content)], ?_, ?_, ?_, ?_⟩ <;>
      simp [itemsAt, choicesOf, callingDocument, Json.asArray, indexField, Json.index, Json.asU64, Json.field]
  · have hother : (choiceZero content)[k + 1]? = none := by simp [choiceZero]
    rw [hother]
    simp [itemsAt, choicesOf, callingDocument, Json.asArray, indexField, Json.index, Json.asU64]

end Sample

/-- The chunks of the messages of several choices, the whole document and the replayed messages: the
first two project to the same entries, and the third agrees with them exactly when no message has an
empty string as its content or its refusal. -/
theorem chat_replayed_iff {messages : TreeMap Json} {values : List Json} {whole payload : Json}
    (hmessages : ∀ (k : Nat) message, messages[k]? = some message → IsAssistantMessage message)
    (hstream : ChatStream messages values) (hwhole : ChatDocument messages whole)
    (hpayload : payload.get "messages" = some (.arr messages.values)) (hprompt : payload.get "prompt" = none)
    (incomplete incomplete' truncated : Bool) :
    (ChatResponse.assemble values incomplete).entries = (ChatResponse.assemble [whole] incomplete').entries ∧
      ((ChatResponse.assemble values incomplete).entries = (ChatRequest.parse (some payload) truncated).entries ↔
        ∀ message ∈ messages.values, message.field "content" ≠ some [] ∧ message.field "refusal" ≠ some []) := by
  have hmem : ∀ message ∈ messages.values, IsAssistantMessage message := by
    intro message hmessage
    obtain ⟨⟨k, _⟩, hk, rfl⟩ := List.mem_map.mp hmessage
    exact hmessages k _ (ExtTreeMap.mem_toList_iff_getElem?_eq_some.mp hk)
  rw [entries_stream hmessages hstream, entries_document hmessages hwhole, parse_messages hpayload hprompt]
  exact ⟨rfl, flatMap_reported_eq_iff hmem⟩


/-- A message whose content and arguments are split over chunks. -/
theorem chat_replayed_iff_calling :
    (ChatResponse.assemble (callingChunks (lit "ok")) false).entries =
        (ChatResponse.assemble [callingDocument (lit "ok")] false).entries ∧
      ((ChatResponse.assemble (callingChunks (lit "ok")) false).entries =
          (ChatRequest.parse (some (.obj [(lit "messages", .arr (choiceZero (lit "ok")).values)])) false).entries ↔
        ∀ message ∈ (choiceZero (lit "ok")).values, message.field "content" ≠ some [] ∧
          message.field "refusal" ≠ some []) :=
  chat_replayed_iff (isAssistantMessage_calling _) (chatStream_calling _) (chatDocument_calling _) (by simp) (by simp)
    false false false

/-- A message of nothing but a call replays an entry for its empty content. -/
theorem empty_content_mismatch : ¬ ∀ (messages : TreeMap Json) (values : List Json) (whole payload : Json),
    (∀ (k : Nat) message, messages[k]? = some message → IsAssistantMessage message) → ChatStream messages values →
      ChatDocument messages whole → payload.get "messages" = some (.arr messages.values) →
      payload.get "prompt" = none →
      (ChatResponse.assemble values false).entries = (ChatResponse.assemble [whole] false).entries ∧
        (ChatResponse.assemble values false).entries = (ChatRequest.parse (some payload) false).entries := by
  intro h
  have hboth := (h (choiceZero []) (callingChunks []) (callingDocument [])
    (.obj [(lit "messages", .arr (choiceZero []).values)]) (isAssistantMessage_calling _) (chatStream_calling _)
    (chatDocument_calling _) (by simp) (by simp)).2
  rw [entries_stream (isAssistantMessage_calling _) (chatStream_calling _), values_choiceZero,
    @parse_messages [calling []] _ (by simp) (by simp)] at hboth
  have hcontent : (calling []).field "content" = some [] := by simp [calling, Json.field, Json.asStr]
  have hmessage := isAssistantMessage_calling [] 0 (calling []) (by simp [choiceZero])
  have hcondition := (@flatMap_reported_eq_iff [calling []] (by simpa using hmessage)).mp hboth
  exact (hcondition (calling []) List.mem_cons_self).1 hcontent

end Abyss.AgentHook.OpenAi
