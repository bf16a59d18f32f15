import Abyss.AgentHook.Anthropic.Content
import Abyss.Data.FilterMap

/-! A content array, the streams that deliver it, and the entries both project to. -/
namespace Abyss.AgentHook.Anthropic
open Abyss.Text Abyss.PluginProtocol Abyss.Data Std

/-- What one stream event does to the block it addresses. -/
inductive BlockEvent where
  | start (block : Json)
  | delta (delta : Json)

/-- A block after one event that addresses it. -/
def applyBlock (block : Option ContentBlock) : BlockEvent → Option ContentBlock
  | .start value => some (.fromValue value)
  | .delta delta => ContentBlock.pushDelta block delta

/-- A document that carries no content array of its own. -/
def Plain (value : Json) : Prop :=
  ((value.index "message").index "content").asArray.getD [] = [] ∧ (value.get "content").bind Json.asArray = none

/-- A document that addresses a block, or none. -/
def Carries (value : Json) : Option (Nat × BlockEvent) → Prop
  | none => Plain value ∧ value.field "type" ≠ some (lit "content_block_start") ∧
      value.field "type" ≠ some (lit "content_block_delta") ∧ value.field "completion" = none
  | some (i, .start block) => Plain value ∧ value.field "type" = some (lit "content_block_start") ∧
      (value.index "index").asU64.map UInt64.toNat = some i ∧ value.get "content_block" = some block
  | some (i, .delta delta) => Plain value ∧ value.field "type" = some (lit "content_block_delta") ∧
      (value.index "index").asU64.map UInt64.toNat = some i ∧ value.get "delta" = some delta

/-- The field that the deltas of one type spell out. -/
def spelled (deltaType key : String) (deltas : List Json) : Str :=
  deltas.flatMap (fun delta => if delta.field "type" = some (lit deltaType) then (delta.field key).getD [] else [])

/-- The delta types that carry content. -/
def contentDeltas : List Str :=
  [lit "text_delta", lit "thinking_delta", lit "signature_delta", lit "input_json_delta"]

/-- A block type whose input is streamed. -/
def isToolUse (block : Json) : Prop :=
  block.kind = some (lit "tool_use") ∨ block.kind = some (lit "server_tool_use") ∨
    block.kind = some (lit "mcp_tool_use")

/-- The start and the deltas of a stream for one block: text, thinking, signature and tool input
are spelled out by deltas from an empty start, and every other block is sent whole. -/
inductive StreamsBlock (block : Json) : Json → List Json → Prop
  | text {start : Json} {deltas : List Json} (kind : block.kind = some (lit "text"))
      (startKind : start.kind = some (lit "text")) (empty : (start.field "text").getD [] = [])
      (text : spelled "text_delta" "text" deltas = (block.field "text").getD []) : StreamsBlock block start deltas
  | thinking {start : Json} {deltas : List Json} (kind : block.kind = some (lit "thinking"))
      (startKind : start.kind = some (lit "thinking")) (empty : (start.field "thinking").getD [] = [])
      (unsigned : (start.field "signature").getD [] = [])
      (thinking : spelled "thinking_delta" "thinking" deltas = (block.field "thinking").getD [])
      (signature : spelled "signature_delta" "signature" deltas = (block.field "signature").getD []) :
      StreamsBlock block start deltas
  | toolUse {start : Json} {deltas : List Json} {input : List (Str × Json)} (kind : isToolUse block)
      (object : block.get "input" = some (.obj input)) (startKind : start.kind = block.kind)
      (id : start.field "id" = block.field "id") (name : start.field "name" = block.field "name")
      (empty : start.get "input" = some (.obj []))
      (input : spelled "input_json_delta" "partial_json" deltas = (Json.obj input).text) :
      StreamsBlock block start deltas
  | whole {deltas : List Json} (kind : ¬ isToolUse block) (notText : block.kind ≠ some (lit "text"))
      (notThinking : block.kind ≠ some (lit "thinking"))
      (idle : ∀ delta ∈ deltas, ∀ type ∈ contentDeltas, delta.field "type" ≠ some type) :
      StreamsBlock block block deltas

/-- The events that address block `i`, in order. -/
def eventsAt (i : Nat) (events : List (Option (Nat × BlockEvent))) : List BlockEvent :=
  events.filterMap (fun event => event.bind (fun e => if e.1 = i then some e.2 else none))

/-- A Messages stream for a content array, its blocks' events in any interleaving. -/
structure MessagesStream (content values : List Json) (events : List (Option (Nat × BlockEvent))) : Prop where
  carries : List.Forall₂ Carries values events
  inRange : ∀ i, content.length ≤ i → eventsAt i events = []
  streams : ∀ i block, content[i]? = some block → ∃ start deltas, StreamsBlock block start deltas ∧
    eventsAt i events = .start start :: deltas.map .delta

/-! One block. -/
namespace ContentBlock

theorem pushDelta_text (shown : Str) (delta : Json) :
    pushDelta (some (.text shown)) delta = some (.text (shown ++ spelled "text_delta" "text" [delta])) := by
  simp only [pushDelta, spelled, List.flatMap_cons, List.flatMap_nil, List.append_nil]
  split <;> simp

theorem foldl_pushDelta_text (deltas : List Json) (shown : Str) :
    deltas.foldl pushDelta (some (.text shown)) = some (.text (shown ++ spelled "text_delta" "text" deltas)) := by
  induction deltas generalizing shown with
  | nil => simp [spelled]
  | cons delta deltas ih =>
    rw [List.foldl_cons, pushDelta_text, ih]
    simp [spelled]

theorem pushDelta_reasoning (thought signature : Str) (delta : Json) :
    pushDelta (some (.reasoning thought signature)) delta =
      some (.reasoning (thought ++ spelled "thinking_delta" "thinking" [delta])
        (signature ++ spelled "signature_delta" "signature" [delta])) := by
  simp only [pushDelta, spelled, List.flatMap_cons, List.flatMap_nil, List.append_nil]
  by_cases hthinking : delta.field "type" = some (lit "thinking_delta")
  · simp [hthinking]
  · by_cases hsignature : delta.field "type" = some (lit "signature_delta")
    · simp [hsignature]
    · simp [hthinking, hsignature]

theorem foldl_pushDelta_reasoning (deltas : List Json) (thought signature : Str) :
    deltas.foldl pushDelta (some (.reasoning thought signature)) =
      some (.reasoning (thought ++ spelled "thinking_delta" "thinking" deltas)
        (signature ++ spelled "signature_delta" "signature" deltas)) := by
  induction deltas generalizing thought signature with
  | nil => simp [spelled]
  | cons delta deltas ih =>
    rw [List.foldl_cons, pushDelta_reasoning, ih]
    simp [spelled]

theorem pushDelta_toolCall (callId name : Option Str) (input streamed : Str) (delta : Json) :
    pushDelta (some (.toolCall callId name input streamed)) delta =
      some (.toolCall callId name input (streamed ++ spelled "input_json_delta" "partial_json" [delta])) := by
  simp only [pushDelta, spelled, List.flatMap_cons, List.flatMap_nil, List.append_nil]
  split <;> simp

theorem foldl_pushDelta_toolCall (deltas : List Json) (callId name : Option Str) (input streamed : Str) :
    deltas.foldl pushDelta (some (.toolCall callId name input streamed)) =
      some (.toolCall callId name input (streamed ++ spelled "input_json_delta" "partial_json" deltas)) := by
  induction deltas generalizing streamed with
  | nil => simp [spelled]
  | cons delta deltas ih =>
    rw [List.foldl_cons, pushDelta_toolCall, ih]
    simp [spelled]

/-- A delta of another type changes no block. -/
theorem pushDelta_idle {block : Option ContentBlock} {delta : Json}
    (hidle : ∀ type ∈ contentDeltas, delta.field "type" ≠ some type) : pushDelta block delta = block := by
  simp only [contentDeltas, List.forall_mem_cons, List.not_mem_nil, false_implies, implies_true, and_true] at hidle
  obtain ⟨htext, hthinking, hsignature, hinput⟩ := hidle
  unfold pushDelta
  split <;> simp [htext, hthinking, hsignature, hinput]

theorem foldl_pushDelta_idle {deltas : List Json} (block : Option ContentBlock)
    (hidle : ∀ delta ∈ deltas, ∀ type ∈ contentDeltas, delta.field "type" ≠ some type) :
    deltas.foldl pushDelta block = block := by
  induction deltas with
  | nil => rfl
  | cons delta deltas ih =>
    rw [List.foldl_cons, pushDelta_idle (hidle delta List.mem_cons_self)]
    exact ih (fun d hd => hidle d (List.mem_cons_of_mem _ hd))

theorem fromValue_text {block : Json} (hkind : block.kind = some (lit "text")) :
    fromValue block = .text ((block.field "text").getD []) := by
  cases block with
  | str => simp [Json.kind, Json.field, Json.get] at hkind
  | _ => simp only [fromValue, hkind, if_true]

theorem fromValue_thinking {block : Json} (hkind : block.kind = some (lit "thinking")) :
    fromValue block = .reasoning ((block.field "thinking").getD []) ((block.field "signature").getD []) := by
  cases block with
  | str => simp [Json.kind, Json.field, Json.get] at hkind
  | _ => simp [fromValue, hkind]

theorem fromValue_toolUse {block : Json} (hkind : isToolUse block) :
    fromValue block = .toolCall (block.field "id") (block.field "name")
      (((block.get "input").map ConversationProjection.verbatim).getD []) [] := by
  cases block with
  | str => simp [isToolUse, Json.kind, Json.field, Json.get] at hkind
  | _ =>
    obtain hkind | hkind | hkind := hkind <;> simp [fromValue, hkind]

end ContentBlock

/-- The block that a start and its deltas leave. -/
def streamedBlock (start : Json) (deltas : List Json) : Option ContentBlock :=
  deltas.foldl ContentBlock.pushDelta (some (.fromValue start))

theorem foldl_applyBlock (start : Json) (deltas : List Json) (block : Option ContentBlock) :
    (BlockEvent.start start :: deltas.map .delta).foldl applyBlock block = streamedBlock start deltas := by
  rw [List.foldl_cons, List.foldl_map]
  rfl

/-- The block that a start and its deltas leave projects to the block's own entry. -/
theorem StreamsBlock.entry {block start : Json} {deltas : List Json} (h : StreamsBlock block start deltas)
    (digest : Digest) (role : EntryRole) :
    ∃ streamed, streamedBlock start deltas = some streamed ∧
      streamed.entry digest role = (ContentBlock.fromValue block).entry digest role := by
  unfold streamedBlock
  cases h with
  | text kind startKind empty text =>
    rw [ContentBlock.fromValue_text startKind, empty, ContentBlock.foldl_pushDelta_text, text,
      ContentBlock.fromValue_text kind]
    exact ⟨_, rfl, rfl⟩
  | thinking kind startKind empty unsigned thinking signature =>
    rw [ContentBlock.fromValue_thinking startKind, empty, unsigned, ContentBlock.foldl_pushDelta_reasoning, thinking,
      signature, ContentBlock.fromValue_thinking kind]
    exact ⟨_, rfl, rfl⟩
  | @toolUse _ _ members kind object startKind id name empty input =>
    have hstart : isToolUse start := by
      unfold isToolUse
      rw [startKind]
      exact kind
    have hsent : (Json.obj members).text ≠ [] := by simp [Json.text]
    rw [ContentBlock.fromValue_toolUse hstart, ContentBlock.foldl_pushDelta_toolCall, input,
      ContentBlock.fromValue_toolUse kind, object, id, name]
    refine ⟨_, rfl, ?_⟩
    simp [ContentBlock.entry, hsent, ConversationProjection.verbatim]
  | whole kind notText notThinking idle =>
    rw [ContentBlock.foldl_pushDelta_idle _ idle]
    exact ⟨_, rfl, rfl⟩

/-! The assembly of a stream. -/

/-- The blocks after one event. -/
def advance (blocks : TreeMap ContentBlock) : Option (Nat × BlockEvent) → TreeMap ContentBlock
  | none => blocks
  | some (i, event) => blocks.alter i (applyBlock · event)

theorem Assembly.apply_plain {a : Assembly} {value : Json} (h : Plain value) :
    ∃ id, a.apply value = Assembly.applyEvent { a with id } value := by
  have hmessage : ∃ id, a.applyMessage value = { a with id } := by
    unfold Assembly.applyMessage
    cases hm : value.get "message" with
    | none => exact ⟨a.id, rfl⟩
    | some message =>
      have hcontent := h.1
      simp only [Json.index, hm, Option.getD_some] at hcontent
      refine ⟨((message.index "id").asStr <|> a.id), ?_⟩
      simp only [Json.index]
      split
      · rename_i content hc
        rw [hc] at hcontent
        cases hcontent
        rfl
      · rfl
  obtain ⟨id, hid⟩ := hmessage
  refine ⟨id, ?_⟩
  rw [Assembly.apply, hid, Assembly.applySnapshot, h.2]

/-- The assembly holds these blocks and no snapshot. -/
def Assembly.Holds (a : Assembly) (blocks : TreeMap ContentBlock) : Prop := a.blocks = blocks ∧ a.snapshot = none

theorem Assembly.apply_carries (a : Assembly) (blocks : TreeMap ContentBlock) (value : Json)
    (event : Option (Nat × BlockEvent)) (ha : a.Holds blocks) (h : Carries value event) :
    (a.apply value).Holds (advance blocks event) := by
  obtain ⟨rfl, hnone⟩ := ha
  have hplain : Plain value := by
    match event, h with
    | none, h => exact h.1
    | some (_, .start _), h => exact h.1
    | some (_, .delta _), h => exact h.1
  obtain ⟨id, hid⟩ := Assembly.apply_plain (a := a) hplain
  rw [hid]
  have hindex {i : Nat} (hi : (value.index "index").asU64.map UInt64.toNat = some i) :
      ((value.index "index").asU64.getD 0).toNat = i := by
    cases hn : (value.index "index").asU64 with
    | none => simp [hn] at hi
    | some n => simpa [hn] using hi
  match event, h with
  | none, ⟨_, hstart, hdelta, hcompletion⟩ =>
    simp only [Assembly.applyEvent, hstart, hdelta, hcompletion, if_false]
    exact ⟨rfl, hnone⟩
  | some (i, .start block), ⟨_, htype, hi, hblock⟩ =>
    simp only [Assembly.applyEvent, htype, if_true, hblock, hindex hi]
    refine ⟨?_, hnone⟩
    apply ExtTreeMap.ext_getElem?
    intro k
    simp [advance, applyBlock, ExtTreeMap.getElem?_insert, ExtTreeMap.getElem?_alter]
  | some (i, .delta delta), ⟨_, htype, hi, hdelta⟩ =>
    have hne : ¬ some (lit "content_block_delta") = some (lit "content_block_start") := by simp
    have hmember : value.index "delta" = delta := by simp [Json.index, hdelta]
    simp only [Assembly.applyEvent, htype, hne, if_false, if_true, hindex hi, hmember]
    exact ⟨rfl, hnone⟩

/-- A block of the assembly is folded from the events that address it. -/
theorem foldl_advance (events : List (Option (Nat × BlockEvent))) (blocks : TreeMap ContentBlock) (k : Nat) :
    (events.foldl advance blocks)[k]? = (eventsAt k events).foldl applyBlock blocks[k]? := by
  apply read_foldl (fun m : TreeMap ContentBlock => m[k]?) applyBlock
  rintro m (_ | ⟨i, event⟩)
  · rfl
  · by_cases hik : i = k
    · simp [advance, hik]
    · simp [advance, ExtTreeMap.getElem?_alter, hik]

theorem getElem?_insertBlocks (content : List Json) (k : Nat) :
    (insertBlocks ∅ content)[k]? = content[k]?.map ContentBlock.fromValue := by
  simp only [insertBlocks, TreeMap.insert_eq_alter]
  rw [TreeMap.getElem?_foldl_alter (fun block _ => some (ContentBlock.fromValue block))]
  cases content[k]? <;> simp

/-- The entries of a content array in one role. -/
theorem entries_insertBlocks (digest : Digest) (content : List Json) (role : EntryRole) :
    entries digest (insertBlocks ∅ content).values role = entries digest (content.map ContentBlock.fromValue) role := by
  rw [TreeMap.values_eq (l := content.map ContentBlock.fromValue)]
  intro k
  rw [getElem?_insertBlocks, List.getElem?_map]

/-- Every interleaving of a content array's block events assembles to that array's entries. -/
theorem entries_stream {content values : List Json} {events : List (Option (Nat × BlockEvent))}
    (h : MessagesStream content values events) (digest : Digest) (role : EntryRole) :
    entries digest (values.foldl Assembly.apply ⟨∅, none, none⟩).result role =
      entries digest (content.map ContentBlock.fromValue) role := by
  have hfold : (values.foldl Assembly.apply ⟨∅, none, none⟩).Holds (events.foldl advance ∅) :=
    foldl_forall₂ Assembly.apply_carries h.carries ⟨rfl, rfl⟩
  rw [Assembly.result, hfold.1, hfold.2, Option.getD_none, ← entries_insertBlocks]
  unfold entries
  rw [List.filterMap_eq_flatMap_toList, List.filterMap_eq_flatMap_toList]
  apply TreeMap.flatMap_values_congr
  intro k
  rw [foldl_advance, getElem?_insertBlocks]
  cases hk : content[k]? with
  | none =>
    rw [h.inRange k (List.getElem?_eq_none_iff.mp hk)]
    simp
  | some block =>
    obtain ⟨start, deltas, hblock, hevents⟩ := h.streams k block hk
    obtain ⟨streamed, hstreamed, hentry⟩ := hblock.entry digest role
    rw [hevents, foldl_applyBlock, hstreamed]
    simp [hentry]

theorem entries_whole {content : List Json} {whole : Json} (h : whole.get "content" = some (.arr content))
    (digest : Digest) (role : EntryRole) :
    entries digest ([whole].foldl Assembly.apply ⟨∅, none, none⟩).result role =
      entries digest (content.map ContentBlock.fromValue) role := by
  have hsnapshot : (Assembly.apply ⟨∅, none, none⟩ whole).snapshot = some (content.map ContentBlock.fromValue) := by
    have hkeep (a : Assembly) : (a.applyEvent whole).snapshot = a.snapshot := by
      unfold Assembly.applyEvent
      repeat (first | rfl | split)
    rw [Assembly.apply, hkeep, Assembly.applySnapshot, h]
    rfl
  rw [List.foldl_cons, List.foldl_nil, Assembly.result, hsnapshot, Option.getD_some]

theorem entries_message {content : List Json} {message : Json} (h : message.get "content" = some (.arr content))
    (hrole : (message.field "role").map ConversationProjection.role = some .assistant) (digest : Digest) :
    messageEntries digest message = entries digest (content.map ContentBlock.fromValue) .assistant := by
  simp only [messageEntries, hrole, h, Option.getD_some, blocks]

/-- The document of one block event. -/
def BlockEvent.wire (i : UInt64) : BlockEvent → Json
  | .start block => .obj [(lit "type", .str (lit "content_block_start")), (lit "index", .num (.posInt i)),
      (lit "content_block", block)]
  | .delta change => .obj [(lit "type", .str (lit "content_block_delta")), (lit "index", .num (.posInt i)),
      (lit "delta", change)]

theorem BlockEvent.carries_wire (i : UInt64) (event : BlockEvent) : Carries (event.wire i) (some (i.toNat, event)) := by
  cases event <;> simp [wire, Carries, Plain, Json.field, Json.index, Json.asStr, Json.asU64, Json.asArray]

/-- A thinking block and a tool call. -/
def thinkingAndToolUse : List Json :=
  [.obj [(lit "type", .str (lit "thinking")), (lit "thinking", .str (lit "ab")), (lit "signature", .str (lit "s"))],
    .obj [(lit "type", .str (lit "tool_use")), (lit "input", .obj [])]]

/-- The same two blocks with their events interleaved. -/
def thinkingAndToolUseEvents : List (UInt64 × BlockEvent) :=
  [(0, .start (.obj [(lit "type", .str (lit "thinking"))])),
    (1, .start (.obj [(lit "type", .str (lit "tool_use")), (lit "input", .obj [])])),
    (0, .delta (.obj [(lit "type", .str (lit "thinking_delta")), (lit "thinking", .str (lit "ab"))])),
    (1, .delta (.obj [(lit "type", .str (lit "input_json_delta")), (lit "partial_json", .str ['{', '}'])])),
    (0, .delta (.obj [(lit "type", .str (lit "signature_delta")), (lit "signature", .str (lit "s"))]))]

theorem messagesStream_thinkingAndToolUse :
    MessagesStream thinkingAndToolUse (thinkingAndToolUseEvents.map (fun e => e.2.wire e.1))
      (thinkingAndToolUseEvents.map (fun e => some (e.1.toNat, e.2))) := by
  refine ⟨?_, ?_, ?_⟩
  · rw [List.forall₂_map_left_iff, List.forall₂_map_right_iff]
    exact List.forall₂_same.mpr (fun e _ => e.2.carries_wire e.1)
  · rintro (_ | _ | i) hi
    · cases hi
    · simp [thinkingAndToolUse] at hi
    · rfl
  · rintro (_ | _ | i) block hblock
    · cases hblock
      refine ⟨_, [_, _], ?_, rfl⟩
      apply StreamsBlock.thinking <;> simp [Json.kind, Json.field, Json.asStr, spelled]
    · cases hblock
      refine ⟨_, [_], @StreamsBlock.toolUse _ _ _ [] (.inl ?_) (by simp) ?_ ?_ ?_ (by simp) ?_, rfl⟩ <;>
        simp [Json.kind, Json.field, Json.asStr, spelled, Json.text, Json.membersText]
    · cases hblock

/-- A streamed response, the whole response and the replayed message project to the same entries,
and a thinking entry is identified by the digest of its complete signature. -/
theorem streamed_whole_replayed (digest : Digest) {content values : List Json}
    {events : List (Option (Nat × BlockEvent))} (hstream : MessagesStream content values events)
    {whole message payload : Json} (hwhole : whole.get "content" = some (.arr content))
    (hmessage : message.get "content" = some (.arr content))
    (hrole : (message.field "role").map ConversationProjection.role = some .assistant)
    (hmessages : payload.get "messages" = some (.arr [message])) (hsystem : payload.get "system" = none)
    (hprompt : payload.get "prompt" = none) (hinput : payload.get "input" = none)
    (incomplete incomplete' truncated : Bool) :
    (AnthropicResponse.assemble digest values incomplete).entries =
        (AnthropicResponse.assemble digest [whole] incomplete').entries ∧
      (AnthropicResponse.assemble digest [whole] incomplete').entries =
        (AnthropicRequest.parse digest payload truncated).entries ∧
      (AnthropicRequest.parse digest payload truncated).entries =
        content.filterMap (fun block => (ContentBlock.fromValue block).entry digest .assistant) ∧
      ∀ block ∈ content, block.kind = some (lit "thinking") →
        (ContentBlock.fromValue block).entry digest .assistant =
          some ⟨.reasoning, (block.field "thinking").getD [], none, none,
            thinkingIdentity digest ((block.field "signature").getD [])⟩ := by
  have hparse : (AnthropicRequest.parse digest payload truncated).entries =
      entries digest (content.map ContentBlock.fromValue) .assistant := by
    simp [AnthropicRequest.parse, hsystem, hinput, Json.field, hprompt, hmessages, Json.asArray,
      entries_message hmessage hrole digest]
  refine ⟨?_, ?_, ?_, ?_⟩
  · exact (entries_stream hstream digest .assistant).trans (entries_whole hwhole digest .assistant).symm
  · exact (entries_whole hwhole digest .assistant).trans hparse.symm
  · rw [hparse, entries, List.filterMap_map]
    rfl
  · intro block _ hkind
    rw [ContentBlock.fromValue_thinking hkind]
    rfl

theorem streamed_whole_replayed_interleaved :
    (AnthropicResponse.assemble ⟨id⟩ (thinkingAndToolUseEvents.map (fun e => e.2.wire e.1)) false).entries =
      (AnthropicResponse.assemble ⟨id⟩ [.obj [(lit "content", .arr thinkingAndToolUse)]] false).entries := by
  have hwhole : (Json.obj [(lit "content", .arr thinkingAndToolUse)]).get "content" =
      some (.arr thinkingAndToolUse) := by simp
  have hmessage : (Json.obj [(lit "role", .str (lit "assistant")), (lit "content", .arr thinkingAndToolUse)]).get
      "content" = some (.arr thinkingAndToolUse) := by simp
  have hmessages : (Json.obj [(lit "messages", .arr [.obj [(lit "role", .str (lit "assistant")),
      (lit "content", .arr thinkingAndToolUse)]])]).get "messages" = some (.arr [.obj
        [(lit "role", .str (lit "assistant")), (lit "content", .arr thinkingAndToolUse)]]) := by simp
  exact (streamed_whole_replayed ⟨id⟩ messagesStream_thinkingAndToolUse hwhole hmessage (by decide +kernel) hmessages
    (by simp) (by simp) (by simp) false false false).1
end Abyss.AgentHook.Anthropic
