import Abyss.PluginProtocol.RoundTrip
import Abyss.Text.JsonLines

/-! The envelope of the destination for one Agent event, and the record that keeps it in the spool. -/
namespace Abyss.Delivery
open Abyss.Text Abyss.PluginProtocol JsonFields JsonField

section Codecs
variable {α β : Type}

/-- A signed integer type with `2 * bound` values. -/
abbrev Signed (bound : Nat) := { n : Int // -bound ≤ n ∧ n < bound }

theorem Signed.ofNat_lt {bound n : Nat} (h : n < bound) : -(bound : Int) ≤ n ∧ (n : Int) < bound := by omega

theorem Signed.negative_lt {bound n : Nat} (h : n < bound) : -(bound : Int) ≤ -((n : Int) + 1) ∧ -((n : Int) + 1) < bound := by
  omega

def signed (bound : Nat) : JsonCodec (Signed bound) where
  toJson n := if 0 ≤ n.val then .num (.posInt (.ofNat n.val.toNat)) else .num (.negInt (.ofNat (2 ^ 63) (-n.val - 1).toNat))
  fromJson
    | .num (.posInt n) => if h : n.toNat < bound then some ⟨n.toNat, Signed.ofNat_lt h⟩ else none
    | .num (.negInt n) => if h : n.val < bound then some ⟨-(n.val + 1), Signed.negative_lt h⟩ else none
    | _ => none
  levels := 0
  readable_toJson n := by split <;> rfl

/-- `serde_json::Value`, of a few levels. -/
abbrev Value := { j : Json // Json.readable 3 j = true }

def value : JsonCodec Value where
  toJson j := j.val
  fromJson j := if h : Json.readable 3 j = true then some ⟨j, h⟩ else none
  levels := 3
  readable_toJson j := j.property

theorem value_reads (j : Value) : value.Reads j j := dif_pos j.property

/-- An `Option` without attributes: written as `null`, and absent for `None`. -/
def plainOption (name : Str) (codec : JsonCodec α) : JsonField (Option α) := ⟨name, codec.nullable, some none, fun _ => false⟩

theorem plainOption_reads {name : Str} (s : Option Str) : (plainOption name .string).Reads s s := by
  cases s with
  | none => rfl
  | some s => rfl

/-- A struct without `deny_unknown_fields`. -/
def openStruct (fs : JsonFields α) (into : β → α) (from' : α → β) : JsonCodec β where
  toJson b := .obj (fs.write (into b))
  fromJson
    | .obj members => (fs.read (lookup members)).map from'
    | .arr items => (fs.readSeq items).bind (fun p => if p.2 = [] then some (from' p.1) else none)
    | _ => none
  levels := fs.levels + 1
  readable_toJson b := (fs.struct into from').readable_toJson b

theorem openStruct_reads {fs : JsonFields α} {into : β → α} {from' : α → β} {b b' : β} (hfrom : from' (into b') = b')
    (h : fs.Reads (into b) (into b')) : (openStruct fs into from').Reads b b' := by
  have hread := h [] (by intro m hm; cases hm)
  rw [List.nil_append] at hread
  simp only [JsonCodec.Reads, openStruct, hread, Option.map_some, hfrom]

theorem signed_reads {bound : Nat} (hbound : bound ≤ 2 ^ 63) (n : Signed bound) : (signed bound).Reads n n := by
  obtain ⟨n, hlow, hhigh⟩ := n
  by_cases hn : 0 ≤ n
  · have hnat : (UInt64.ofNat n.toNat).toNat = n.toNat := Nat.mod_eq_of_lt (by omega)
    simp only [JsonCodec.Reads, signed, if_pos hn, hnat, show n.toNat < bound by omega, dite_true]
    congr 2
    omega
  · have hfin : (Fin.ofNat (2 ^ 63) (-n - 1).toNat).val = (-n - 1).toNat := Nat.mod_eq_of_lt (by omega)
    simp only [JsonCodec.Reads, signed, if_neg hn, hfin, show (-n - 1).toNat < bound by omega, dite_true]
    congr 2
    omega

end Codecs

section Envelope

structure LlmPayload where
  provider : Str
  model : Str

structure BackendTokenUsage where
  inputTokens : Signed (2 ^ 63)
  outputTokens : Signed (2 ^ 63)
  cacheReadTokens : Signed (2 ^ 63)
  cacheWriteTokens : Signed (2 ^ 63)
  reasoningTokens : Signed (2 ^ 63)
  totalTokens : Signed (2 ^ 63)

structure IngestImageAttachment where
  position : Signed (2 ^ 31)
  mediaType : Str
  byteSize : UInt64
  sha256 : Str
  contentBase64 : Option Str

/-- `DevicePayload` and `AgentPayload` have the fields of the contexts that they copy. -/
structure IngestUsageEvent where
  eventId : Str
  observedAt : Str
  device : DeviceContext
  agent : AgentContext
  sessionId : Str
  responseId : Option Str
  previousResponseId : Option Str
  subagentId : Option Str
  parentSubagentId : Option Str
  turnId : Option Str
  llm : LlmPayload
  eventType : Str
  conversation : Option Conversation
  tokenUsage : BackendTokenUsage
  metadata : Value
  attachments : List IngestImageAttachment

structure IngestEventsRequest where
  events : List IngestUsageEvent
  diagnosticCaptures : List Value

structure SpoolRecord where
  reason : Str
  request : IngestEventsRequest

end Envelope

section Translate
variable {Time : Type}

/-- `DeliveryPluginError::Translate`. -/
def translateError (text : String) : Except Str α := .error text.toList

def tokenCounter (name : String) (value : UInt64) : Except Str (Signed (2 ^ 63)) :=
  if h : value.toNat < 2 ^ 63 then .ok ⟨value.toNat, by omega⟩ else translateError (name ++ " exceeds backend counter range")

def BackendTokenUsage.tryFrom (usage : TokenUsage) : Except Str BackendTokenUsage := do
  .ok {
    inputTokens := ← tokenCounter "input_tokens" usage.inputTokens
    outputTokens := ← tokenCounter "output_tokens" usage.outputTokens
    cacheReadTokens := ← tokenCounter "cache_read_tokens" usage.cacheReadTokens
    cacheWriteTokens := ← tokenCounter "cache_write_tokens" usage.cacheWriteTokens
    reasoningTokens := ← tokenCounter "reasoning_tokens" usage.reasoningTokens
    totalTokens := ← tokenCounter "total_tokens" usage.totalTokens }

def IngestImageAttachment.tryFrom (attachment : ImageAttachment) : Except Str IngestImageAttachment :=
  if h : attachment.position.toNat < 2 ^ 31 then
    .ok ⟨⟨attachment.position.toNat, by omega⟩, attachment.mediaType.wireName, attachment.byteSize, attachment.sha256,
      attachment.contentBase64⟩
  else translateError "image attachment position exceeds backend range"

/-- The metadata of an event: its purpose, the omitted categories, the path and the headers. -/
def eventMetadata (event : AgentEvent Time) : Value where
  val := .obj (
    (event.purpose.map (fun p => ("purpose".toList, EventPurpose.codec.toJson p))).toList ++
    (if event.omitted = [] then [] else [("omitted".toList, ContentCategory.codec.list.toJson event.omitted)]) ++
    [("path".toList, .str event.path)] ++
    (if event.headers = [] then [] else [("headers".toList, HttpHeader.codec.list.toJson event.headers)]))
  property := by
    rw [Json.readable, List.all_eq_true]
    intro m hm
    simp only [List.mem_append] at hm
    rcases hm with ((hpurpose | homitted) | hpath) | hheaders
    · cases hcase : event.purpose with
      | none => simp [hcase] at hpurpose
      | some p =>
        obtain rfl : m = ("purpose".toList, EventPurpose.codec.toJson p) := by simpa [hcase] using hpurpose
        exact readable_mono (Nat.zero_le _) (EventPurpose.codec.readable_toJson p)
    · split at homitted
      · cases homitted
      · obtain rfl := List.mem_singleton.mp homitted
        exact readable_mono (by decide) (ContentCategory.codec.list.readable_toJson event.omitted)
    · obtain rfl := List.mem_singleton.mp hpath
      rfl
    · split at hheaders
      · cases hheaders
      · obtain rfl := List.mem_singleton.mp hheaders
        exact readable_mono (by decide) (HttpHeader.codec.list.readable_toJson event.headers)

/-- The envelope of one event; `rfc3339` is `DateTime::to_rfc3339`. -/
def IngestUsageEvent.tryFrom (rfc3339 : Time → Str) (event : AgentEvent Time) : Except Str IngestUsageEvent := do
  let tokenUsage ← BackendTokenUsage.tryFrom event.tokenUsage
  let attachments ← event.attachments.mapM IngestImageAttachment.tryFrom
  .ok {
    eventId := event.eventId
    observedAt := rfc3339 event.observedAt
    device := event.device
    agent := event.agent
    sessionId := event.sessionId
    responseId := event.responseId
    previousResponseId := event.previousResponseId
    subagentId := event.subagentId
    parentSubagentId := event.parentSubagentId
    turnId := event.turnId
    llm := ⟨event.llm.provider.wireName, event.llm.model⟩
    eventType := event.side.wireName
    conversation := event.conversation
    tokenUsage
    metadata := eventMetadata event
    attachments }

def IngestEventsRequest.tryFrom (rfc3339 : Time → Str) (event : AgentEvent Time) : Except Str IngestEventsRequest := do
  .ok ⟨[← IngestUsageEvent.tryFrom rfc3339 event], []⟩

end Translate

section Records

def deviceCodec : JsonCodec DeviceContext :=
  openStruct (cons (required "host_name".toList .string) (cons (required "platform".toList .string)
    (cons (plainOption "os_version".toList .string) nil)))
    (fun d => (d.hostName, d.platform, d.osVersion, ())) (fun p => ⟨p.1, p.2.1, p.2.2.1⟩)

def agentCodec : JsonCodec AgentContext :=
  openStruct (cons (required "name".toList .string) (cons (plainOption "version".toList .string) nil))
    (fun a => (a.name, a.version, ())) (fun p => ⟨p.1, p.2.1⟩)

def LlmPayload.codec : JsonCodec LlmPayload :=
  openStruct (cons (required "provider".toList .string) (cons (required "model".toList .string) nil))
    (fun l => (l.provider, l.model, ())) (fun p => ⟨p.1, p.2.1⟩)

def BackendTokenUsage.codec : JsonCodec BackendTokenUsage :=
  openStruct (cons (required "input_tokens".toList (signed (2 ^ 63))) (cons (required "output_tokens".toList (signed (2 ^ 63)))
    (cons (required "cache_read_tokens".toList (signed (2 ^ 63))) (cons (required "cache_write_tokens".toList (signed (2 ^ 63)))
      (cons (required "reasoning_tokens".toList (signed (2 ^ 63)))
        (cons (required "total_tokens".toList (signed (2 ^ 63))) nil))))))
    (fun t => (t.inputTokens, t.outputTokens, t.cacheReadTokens, t.cacheWriteTokens, t.reasoningTokens, t.totalTokens, ()))
    (fun p => ⟨p.1, p.2.1, p.2.2.1, p.2.2.2.1, p.2.2.2.2.1, p.2.2.2.2.2.1⟩)

def IngestImageAttachment.codec : JsonCodec IngestImageAttachment :=
  openStruct (cons (required "position".toList (signed (2 ^ 31))) (cons (required "media_type".toList .string)
    (cons (required "byte_size".toList .u64) (cons (required "sha256".toList .string)
      (cons (optional "content_base64".toList .string) nil)))))
    (fun a => (a.position, a.mediaType, a.byteSize, a.sha256, a.contentBase64, ()))
    (fun p => ⟨p.1, p.2.1, p.2.2.1, p.2.2.2.1, p.2.2.2.2.1⟩)

def IngestUsageEvent.codec : JsonCodec IngestUsageEvent :=
  openStruct (cons (required "event_id".toList .string) <| cons (required "observed_at".toList .string) <|
    cons (required "device".toList deviceCodec) <| cons (required "agent".toList agentCodec) <|
    cons (required "session_id".toList .string) <| cons (optional "response_id".toList .string) <|
    cons (optional "previous_response_id".toList .string) <| cons (optional "subagent_id".toList .string) <|
    cons (optional "parent_subagent_id".toList .string) <| cons (optional "turn_id".toList .string) <|
    cons (required "llm".toList LlmPayload.codec) <| cons (required "event_type".toList .string) <|
    cons (optional "conversation".toList Conversation.codec) <|
    cons (required "token_usage".toList BackendTokenUsage.codec) <| cons (required "metadata".toList value) <|
    cons (listed "attachments".toList IngestImageAttachment.codec) nil)
    (fun e => (e.eventId, e.observedAt, e.device, e.agent, e.sessionId, e.responseId, e.previousResponseId, e.subagentId,
      e.parentSubagentId, e.turnId, e.llm, e.eventType, e.conversation, e.tokenUsage, e.metadata, e.attachments, ()))
    (fun (eventId, observedAt, device, agent, sessionId, responseId, previousResponseId, subagentId, parentSubagentId,
      turnId, llm, eventType, conversation, tokenUsage, metadata, attachments, _) =>
      { eventId, observedAt, device, agent, sessionId, responseId, previousResponseId, subagentId, parentSubagentId,
        turnId, llm, eventType, conversation, tokenUsage, metadata, attachments })

def IngestEventsRequest.codec : JsonCodec IngestEventsRequest :=
  openStruct (cons (required "events".toList IngestUsageEvent.codec.list)
    (cons (required "diagnostic_captures".toList value.list) nil))
    (fun r => (r.events, r.diagnosticCaptures, ())) (fun p => ⟨p.1, p.2.1⟩)

def SpoolRecord.codec : JsonCodec SpoolRecord :=
  openStruct (cons (required "reason".toList .string) (cons (required "request".toList IngestEventsRequest.codec) nil))
    (fun r => (r.reason, r.request, ())) (fun p => ⟨p.1, p.2.1⟩)

theorem deviceCodec_reads (d : DeviceContext) : deviceCodec.Reads d d := by
  apply openStruct_reads rfl
  apply cons_reads (by decide) (required_reads (JsonCodec.string_reads _))
  apply cons_reads (by decide) (required_reads (JsonCodec.string_reads _))
  exact cons_reads (by decide) (plainOption_reads _) nil_reads

theorem agentCodec_reads (a : AgentContext) : agentCodec.Reads a a := by
  apply openStruct_reads rfl
  apply cons_reads (by decide) (required_reads (JsonCodec.string_reads _))
  exact cons_reads (by decide) (plainOption_reads _) nil_reads

theorem LlmPayload.codec_reads (l : LlmPayload) : codec.Reads l l := by
  apply openStruct_reads rfl
  apply cons_reads (by decide) (required_reads (JsonCodec.string_reads _))
  exact cons_reads (by decide) (required_reads (JsonCodec.string_reads _)) nil_reads

theorem BackendTokenUsage.codec_reads (t : BackendTokenUsage) : codec.Reads t t := by
  have hcounter : ∀ n : Signed (2 ^ 63), (signed (2 ^ 63)).Reads n n := signed_reads (Nat.le_refl _)
  apply openStruct_reads rfl
  apply cons_reads (by decide) (required_reads (hcounter _))
  apply cons_reads (by decide) (required_reads (hcounter _))
  apply cons_reads (by decide) (required_reads (hcounter _))
  apply cons_reads (by decide) (required_reads (hcounter _))
  apply cons_reads (by decide) (required_reads (hcounter _))
  exact cons_reads (by decide) (required_reads (hcounter _)) nil_reads

theorem IngestImageAttachment.codec_reads (a : IngestImageAttachment) : codec.Reads a a := by
  apply openStruct_reads rfl
  apply cons_reads (by decide) (required_reads (signed_reads (by decide) _))
  apply cons_reads (by decide) (required_reads (JsonCodec.string_reads _))
  apply cons_reads (by decide) (required_reads (JsonCodec.u64_reads _))
  apply cons_reads (by decide) (required_reads (JsonCodec.string_reads _))
  exact cons_reads (by decide) (text_reads _) nil_reads

theorem IngestUsageEvent.codec_reads (e : IngestUsageEvent) : codec.Reads e e := by
  apply openStruct_reads rfl
  apply cons_reads (by decide) (required_reads (JsonCodec.string_reads _))
  apply cons_reads (by decide) (required_reads (JsonCodec.string_reads _))
  apply cons_reads (by decide) (required_reads (deviceCodec_reads _))
  apply cons_reads (by decide) (required_reads (agentCodec_reads _))
  apply cons_reads (by decide) (required_reads (JsonCodec.string_reads _))
  apply cons_reads (by decide) (text_reads _)
  apply cons_reads (by decide) (text_reads _)
  apply cons_reads (by decide) (text_reads _)
  apply cons_reads (by decide) (text_reads _)
  apply cons_reads (by decide) (text_reads _)
  apply cons_reads (by decide) (required_reads (LlmPayload.codec_reads _))
  apply cons_reads (by decide) (required_reads (JsonCodec.string_reads _))
  apply cons_reads (by decide) (optional_reads (fun c _ => ⟨Conversation.codec_reads c, fun h => by cases h⟩))
  apply cons_reads (by decide) (required_reads (BackendTokenUsage.codec_reads _))
  apply cons_reads (by decide) (required_reads (value_reads _))
  exact cons_reads (by decide) (listed_reads (fun a _ => IngestImageAttachment.codec_reads a)) nil_reads

theorem IngestEventsRequest.codec_reads (r : IngestEventsRequest) : codec.Reads r r := by
  apply openStruct_reads rfl
  apply cons_reads (by decide) (required_reads (JsonCodec.list_reads (fun e _ => IngestUsageEvent.codec_reads e)))
  exact cons_reads (by decide) (required_reads (JsonCodec.list_reads (fun j _ => value_reads j))) nil_reads

theorem SpoolRecord.codec_reads (r : SpoolRecord) : codec.Reads r r := by
  apply openStruct_reads rfl
  apply cons_reads (by decide) (required_reads (JsonCodec.string_reads _))
  exact cons_reads (by decide) (required_reads (IngestEventsRequest.codec_reads _)) nil_reads

/-- `serde_json::from_slice`. -/
def SpoolRecord.fromSlice (line : List UInt8) : Option SpoolRecord := (Json.fromSlice line).bind codec.fromJson

def SpoolRecord.toVec (r : SpoolRecord) : List UInt8 := (codec.toJson r).toVec

theorem SpoolRecord.fromSlice_toVec (r : SpoolRecord) : fromSlice r.toVec = some r := by
  rw [fromSlice, toVec, JsonCodec.fromSlice_toVec (Nat.le_of_ble_eq_true rfl), Option.bind_some]
  exact codec_reads r

theorem SpoolRecord.isLine_toVec (r : SpoolRecord) : IsLine r.toVec := Text.isLine_toVec (codec.readable_toJson r)

end Records
end Abyss.Delivery
