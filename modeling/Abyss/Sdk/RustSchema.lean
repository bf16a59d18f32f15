import Abyss.Data.Result
import Abyss.Sdk.Schema

/-! The Rust SDK reads the format: where the languages agree on the values, what `serde` derives is the reader of the
schema. -/
namespace Abyss.Sdk.Rust
open Abyss.Text Abyss.PluginProtocol Schema JsonFields JsonField

section Fields
variable {α β γ δ : Type} {members : Members} {field : String} {places : List (String × Place)}

/-- The members of a structure after its first one. -/
theorem cons_read {o : Option γ} {f : JsonField α} {fs : JsonFields β} {look : Str → List Json} {rest : γ → Option δ}
    {v : α → γ} {view : α × β → δ} (hfield : o = (f.read (look f.name)).map v)
    (hrest : ∀ a, rest (v a) = (fs.read look).map (fun b => view (a, b))) :
    o.bind rest = ((cons f fs).read look).map view := by
  subst hfield
  simp only [cons]
  cases f.read (look f.name) with
  | none => rfl
  | some a =>
    simp only [Option.map_some, Option.bind_some, hrest, Option.bind_eq_bind]
    cases fs.read look <;> rfl

/-- `deny_unknown_fields`, and the members of a structure. -/
theorem struct_read {fs : JsonFields α} {into : β → α} {from' : α → β} {fields : List String} {read : Members → Option γ}
    {view : β → γ} (hnames : fs.names = fields.map String.toList)
    (h : read members = (fs.read (lookup members)).map (fun a => view (from' a))) :
    object fields read (.obj members) = ((fs.struct into from').fromJson (.obj members)).map view := by
  have hknown : members.all (fun m => m.1 ∈ fs.names) = true ↔ unknownFields members fields = [] := by
    rw [List.all_eq_true, unknownFields, List.filter_eq_nil_iff, hnames]
    simp
  simp only [object, known, struct]
  by_cases hmembers : unknownFields members fields = []
  · rw [if_pos hmembers, if_pos (hknown.mpr hmembers), Option.bind_some, h, Option.map_map]
    rfl
  · rw [if_neg hmembers, if_neg (mt hknown.mp hmembers)]
    rfl

theorem string_read (h : Object places (.obj members)) :
    string members field = ((required field.toList .string).read (lookup members field.toList)).map id := by
  rw [h.lookup_eq, Option.map_id, string]
  cases Sdk.get members field with
  | none => rfl
  | some v => cases v <;> rfl

theorem nullable_fromJson {codec : JsonCodec α} {v : Json} (h : Present v) :
    codec.nullable.fromJson v = (codec.fromJson v).map some := by
  cases v with
  | null => exact absurd rfl h
  | _ => rfl

theorem optionalString_read (h : Object places (.obj members))
    (hpresent : ∀ v, Sdk.get members field = some v → Present v) : optionalString members field =
      ((optional field.toList .string).read (lookup members field.toList)).map id := by
  rw [h.lookup_eq, Option.map_id, optionalString]
  cases hget : Sdk.get members field with
  | none => rfl
  | some v =>
    cases v with
    | null => exact absurd rfl (hpresent _ hget)
    | _ => rfl

theorem nested_read {read : Json → Option β} {codec : JsonCodec α} {view : α → β} (h : Object places (.obj members))
    (hread : ∀ v, Sdk.get members field = some v → read v = (codec.fromJson v).map view) : nested members field read =
      ((required field.toList codec).read (lookup members field.toList)).map view := by
  rw [h.lookup_eq, nested]
  cases hget : Sdk.get members field with
  | none => rfl
  | some v => exact hread v hget

theorem items_read {item : Json → Option β} {codec : JsonCodec α} {view : α → β} {place : Place}
    (h : Object places (.obj members)) (hplace : ∀ v, Sdk.get members field = some v → Items place v)
    (hitem : ∀ v, place v → item v = (codec.fromJson v).map view) : items members field item =
      ((listed field.toList codec).read (lookup members field.toList)).map (List.map view) := by
  rw [h.lookup_eq, items]
  cases hget : Sdk.get members field with
  | none => rfl
  | some v =>
    cases v with
    | arr values =>
      change values.mapM item = (values.mapM codec.fromJson).map (List.map view)
      rw [Data.mapM_map]
      exact Data.mapM_congr (fun v hv => hitem v (hplace _ hget values rfl v hv))
    | _ => rfl

/-- A name of an enumeration. -/
theorem find_name {all : List α} {name : α → Str} {names : List String}
    (hnames : ∀ s, s ∈ names.map String.toList ↔ s ∈ all.map name) (s : Str) :
    ((all.find? (fun a => name a = s)).map name) = (choice names s).map (fun _ => s) := by
  rw [choice]
  by_cases hs : s ∈ all.map name
  · rw [if_pos ((hnames s).mpr hs)]
    obtain ⟨a, ha, hname⟩ := List.mem_map.mp hs
    cases hfind : all.find? (fun a => name a = s) with
    | none => exact absurd (List.find?_eq_none.mp hfind a ha) (by simp [hname])
    | some b =>
      have hb := List.find?_some hfind
      rw [Option.map_some, of_decide_eq_true hb]
      rfl
  · rw [if_neg (mt (hnames s).mp hs), List.find?_eq_none.mpr]
    · rfl
    · intro a ha hname
      exact hs (List.mem_map.mpr ⟨a, ha, of_decide_eq_true hname⟩)

theorem choice_read {all : List α} {name : α → Str} {codec : JsonCodec α} {names : List String}
    {fs : JsonFields β} {rest : Str → Option δ} {view : α × β → δ} (h : Object places (.obj members))
    (hplace : ∀ v, Sdk.get members field = some v → Name v) (hcodec : codec = .variants all name)
    (hnames : ∀ s, s ∈ names.map String.toList ↔ s ∈ all.map name)
    (hrest : ∀ a, rest (name a) = (fs.read (lookup members)).map (fun b => view (a, b))) :
    ((string members field).bind fun s => (choice names s).bind fun _ => rest s) =
      ((cons (required field.toList codec) fs).read (lookup members)).map view := by
  subst hcodec
  have hfield : ((string members field).bind fun s => (choice names s).map fun _ => s) =
      ((required field.toList (.variants all name)).read (lookup members field.toList)).map name := by
    rw [h.lookup_eq, string]
    cases hget : Sdk.get members field with
    | none => rfl
    | some v =>
      cases v with
      | str s => exact (find_name hnames s).symm
      | obj o => exact absurd rfl (hplace _ hget o)
      | _ => rfl
  rw [← cons_read hfield hrest, Option.bind_assoc]
  congr 1
  funext s
  cases choice names s <;> rfl

theorem count_read (h : Object places (.obj members)) : count members field =
    ((required field.toList .u64).read (lookup members field.toList)).map UInt64.toNat := by
  rw [h.lookup_eq, count]
  cases Sdk.get members field with
  | none => rfl
  | some v =>
    cases v with
    | num n =>
      cases n with
      | posInt n =>
        change some n.toNat = (JsonCodec.u64.fromJson (.num (.posInt n))).map UInt64.toNat
        simp only [JsonCodec.u64, JsonCodec.convert, JsonCodec.unsigned, dif_pos n.toNat_lt]
        rfl
      | _ => rfl
    | _ => rfl

theorem position_read {double : Str → Option Int} (h : Object places (.obj members))
    (hplace : ∀ v, Sdk.get members field = some v → Count double (2 ^ 32) v) : count members field =
      ((required field.toList .u32).read (lookup members field.toList)).map UInt32.toNat := by
  rw [h.lookup_eq, count]
  cases hget : Sdk.get members field with
  | none => rfl
  | some v =>
    cases v with
    | num n =>
      cases n with
      | posInt n =>
        have hbound : n.toNat < 2 ^ 32 := hplace _ hget _ rfl
        change some n.toNat = (JsonCodec.u32.fromJson (.num (.posInt n))).map UInt32.toNat
        simp only [JsonCodec.u32, JsonCodec.convert, JsonCodec.unsigned, dif_pos hbound]
        rfl
      | _ => rfl
    | _ => rfl

end Fields

section Structures
variable {double : Str → Option Int} {value : Json}

theorem category_read (h : Name value) : category value = (ContentCategory.codec.fromJson value).map ContentCategory.wireName := by
  cases value with
  | str s =>
    change _ = (List.find? _ _).map ContentCategory.wireName
    have hnames : ∀ s, s ∈ ["token_usage", "conversation_text", "tool_content", "images"].map String.toList ↔
        s ∈ [ContentCategory.tokenUsage, .conversationText, .toolContent, .images].map ContentCategory.wireName :=
      fun _ => Iff.rfl
    rw [find_name hnames, category]
    cases choice ["token_usage", "conversation_text", "tool_content", "images"] s <;> rfl
  | obj o => exact absurd rfl (h o)
  | _ => rfl

theorem device_read (h : devicePlace value) : device value = (DeviceContext.codec.fromJson value).map id := by
  cases value with
  | obj members =>
    apply struct_read rfl
    apply cons_read (string_read h)
    intro _
    apply cons_read (string_read h)
    intro _
    apply cons_read (optionalString_read h (h.get (by simp)))
    intro _
    rfl
  | arr items => exact h.not_array.elim
  | _ => rfl

theorem agent_read (h : agentPlace value) : agent value = (AgentContext.codec.fromJson value).map id := by
  cases value with
  | obj members =>
    apply struct_read rfl
    apply cons_read (string_read h)
    intro _
    apply cons_read (optionalString_read h (h.get (by simp)))
    intro _
    rfl
  | arr items => exact h.not_array.elim
  | _ => rfl

theorem wireName_fromWireName (name : Str) : (LlmProvider.fromWireName name).wireName = name := by
  unfold LlmProvider.fromWireName
  split
  · exact Eq.symm ‹_›
  · split
    · exact Eq.symm ‹_›
    · rfl

theorem provider_read {members : Members} {places : List (String × Place)} (h : Object places (.obj members)) :
    string members "provider" = ((required "provider".toList LlmProvider.codec).read
      (lookup members "provider".toList)).map LlmProvider.wireName := by
  rw [h.lookup_eq, string]
  cases Sdk.get members "provider" with
  | none => rfl
  | some v =>
    cases v with
    | str name => exact congrArg some (wireName_fromWireName name).symm
    | _ => rfl

theorem llm_read (h : llmPlace value) : llm value = (LlmContext.codec.fromJson value).map exposeLlm := by
  cases value with
  | obj members =>
    apply struct_read rfl
    apply cons_read (provider_read h)
    intro _
    apply cons_read (string_read h)
    intro _
    rfl
  | arr items => exact h.not_array.elim
  | _ => rfl

theorem tokenUsage_read (h : usagePlace double value) :
    tokenUsage value = (TokenUsage.codec.fromJson value).map exposeUsage := by
  cases value with
  | obj members =>
    apply struct_read rfl
    iterate 6
      apply cons_read (count_read h)
      intro _
    rfl
  | arr items => exact h.not_array.elim
  | _ => rfl

theorem header_read (h : headerPlace value) : header value = (HttpHeader.codec.fromJson value).map exposeHeader := by
  cases value with
  | obj members =>
    have hwire : object ["name", "value", "value_base64"] (fun value => do
          some ⟨← string value "name", ← optionalString value "value", ← optionalString value "value_base64"⟩)
          (.obj members) =
        (HttpHeaderWire.codec.fromJson (.obj members)).map fun w => ExposedHeader.mk w.name w.value w.valueBase64 := by
      apply struct_read rfl
      apply cons_read (string_read h)
      intro _
      iterate 2
        apply cons_read (optionalString_read h (h.get (by simp)))
        intro _
      rfl
    have hcheck : header (.obj members) = (object ["name", "value", "value_base64"] (fun value => do
          some ⟨← string value "name", ← optionalString value "value", ← optionalString value "value_base64"⟩)
          (.obj members)).bind
        (fun header : ExposedHeader => if header.value.isNone = header.valueBase64.isNone then none else some header) := by
      simp only [header, object, Option.bind_assoc, Option.bind_eq_bind, Option.bind_some]
    rw [hcheck, hwire]
    change _ = ((HttpHeaderWire.codec.fromJson (.obj members)).bind HttpHeader.tryFrom).map exposeHeader
    cases HttpHeaderWire.codec.fromJson (.obj members) with
    | none => rfl
    | some wire =>
      obtain ⟨name, value, base64⟩ := wire
      cases value <;> cases base64 <;> rfl
  | arr items => exact h.not_array.elim
  | _ => rfl

theorem attachment_read (h : attachmentPlace double value) :
    attachment value = (ImageAttachment.codec.fromJson value).map exposeAttachment := by
  cases value with
  | obj members =>
    apply struct_read rfl
    apply cons_read (position_read h (h.get (show ("position", Count double (2 ^ 32)) ∈ _ by simp)))
    intro _
    apply choice_read h (h.get (show ("media_type", Name) ∈ _ by simp)) (show ImageMediaType.codec = .variants _ _ from rfl)
      (fun _ => Iff.rfl)
    intro _
    apply cons_read (count_read h)
    intro _
    apply cons_read (string_read h)
    intro _
    apply cons_read (optionalString_read h (h.get (by simp)))
    intro _
    rfl
  | arr items => exact h.not_array.elim
  | _ => rfl

theorem entry_read (h : entryPlace value) : entry value = (ConversationEntry.codec.fromJson value).map exposeEntry := by
  cases value with
  | obj members =>
    apply struct_read rfl
    apply choice_read h (h.get (show ("role", Name) ∈ _ by simp)) (show EntryRole.codec = .variants _ _ from rfl)
      (fun _ => Iff.rfl)
    intro _
    apply cons_read (string_read h)
    intro _
    iterate 3
      apply cons_read (optionalString_read h (h.get (by simp)))
      intro _
    rfl
  | arr items => exact h.not_array.elim
  | _ => rfl

theorem conversation_read (h : conversationPlace value) :
    conversation value = (Conversation.codec.fromJson value).map exposeConversation := by
  cases value with
  | obj members =>
    apply struct_read rfl
    have hentries : ∀ v, Sdk.get members "entries" = some v →
        entries v = (ConversationEntry.codec.list.fromJson v).map (List.map exposeEntry) := by
      intro v hv
      have hitems := h.get (show ("entries", Items entryPlace) ∈ _ by simp) v hv
      cases v with
      | arr values =>
        change values.mapM entry = (values.mapM ConversationEntry.codec.fromJson).map (List.map exposeEntry)
        rw [Data.mapM_map]
        exact Data.mapM_congr (fun v hv => entry_read (hitems values rfl v hv))
      | _ => rfl
    apply cons_read (nested_read h hentries)
    intro _
    apply choice_read h (h.get (show ("completeness", Name) ∈ _ by simp))
      (show ContentCompleteness.codec = .variants _ _ from rfl) (fun _ => Iff.rfl)
    intro _
    rfl
  | arr items => exact h.not_array.elim
  | _ => rfl

end Structures

section Event
variable {Time : Type} {double : Str → Option Int} {time : Rfc3339 Time} {value : Json} {members : Members}
  {places : List (String × Place)}

theorem time_read (h : Object places (.obj members)) : (string members "observed_at").bind time.parse =
    ((required "observed_at".toList time.codec).read (lookup members "observed_at".toList)).map id := by
  rw [h.lookup_eq, Option.map_id, string]
  cases Sdk.get members "observed_at" with
  | none => rfl
  | some v => cases v <;> rfl

private theorem mem_rotate {a b c s : Str} : s ∈ [b, c, a] ↔ s ∈ [a, b, c] :=
  (@List.perm_append_comm _ [b, c] [a]).mem_iff

theorem purpose_read {α β : Type} {fs : JsonFields α} {rest : Option Str → Option β} {view : Option EventPurpose × α → β}
    (h : Object places (.obj members)) (hpresent : ∀ v, Sdk.get members "purpose" = some v → Present v)
    (hplace : ∀ v, Sdk.get members "purpose" = some v → Name v)
    (hrest : ∀ a, rest (a.map EventPurpose.wireName) = (fs.read (lookup members)).map (fun b => view (a, b))) :
    ((optionalString members "purpose").bind fun purpose => (checkPurpose purpose).bind fun _ => rest purpose) =
      ((cons (JsonField.optional "purpose".toList EventPurpose.codec) fs).read (lookup members)).map view := by
  have hnames : ∀ s, s ∈ ["session_title", "compaction", "prewarm"].map String.toList ↔
      s ∈ [EventPurpose.prewarm, .sessionTitle, .compaction].map EventPurpose.wireName :=
    fun _ => mem_rotate
  have hfield : ((optionalString members "purpose").bind fun purpose => (checkPurpose purpose).map fun _ => purpose) =
      ((JsonField.optional "purpose".toList EventPurpose.codec).read (lookup members "purpose".toList)).map
        (Option.map EventPurpose.wireName) := by
    rw [h.lookup_eq, optionalString]
    cases hget : Sdk.get members "purpose" with
    | none => rfl
    | some v =>
      cases v with
      | null => exact absurd rfl (hpresent _ hget)
      | str s =>
        change (checkPurpose (some s)).map (fun _ => some s) =
          ((List.find? _ _).map some).map (Option.map EventPurpose.wireName)
        rw [Option.map_map]
        change _ = (List.find? _ _).map (some ∘ EventPurpose.wireName)
        rw [← Option.map_map, find_name hnames, checkPurpose]
        cases choice ["session_title", "compaction", "prewarm"] s <;> rfl
      | obj o => exact absurd rfl (hplace _ hget o)
      | _ => rfl
  rw [← cons_read hfield hrest, Option.bind_assoc]
  congr 1
  funext purpose
  cases checkPurpose purpose <;> rfl

theorem optionalConversation_read (h : Object places (.obj members))
    (hpresent : ∀ v, Sdk.get members "conversation" = some v → Present v)
    (hplace : ∀ v, Sdk.get members "conversation" = some v → conversationPlace v) : optionalConversation members =
      ((JsonField.optional "conversation".toList Conversation.codec).read (lookup members "conversation".toList)).map
        (Option.map exposeConversation) := by
  rw [h.lookup_eq, optionalConversation]
  cases hget : Sdk.get members "conversation" with
  | none => rfl
  | some v =>
    change some <$> conversation v = (Conversation.codec.nullable.fromJson v).map (Option.map exposeConversation)
    rw [nullable_fromJson (hpresent v hget), conversation_read (hplace v hget)]
    cases Conversation.codec.fromJson v <;> rfl

/-- The Rust SDK is the reader of the format. -/
theorem codec_schema (h : eventPlace double value) :
    event time.parse value = ((AgentEvent.codec time).fromJson value).map (expose id) := by
  cases value with
  | obj members =>
    apply struct_read rfl
    apply cons_read (string_read h)
    intro _
    apply cons_read (time_read h)
    intro _
    apply cons_read (nested_read h (fun v hv => device_read (h.get (by simp) v hv)))
    intro _
    apply cons_read (nested_read h (fun v hv => agent_read (h.get (by simp) v hv)))
    intro _
    apply cons_read (string_read h)
    intro _
    iterate 5
      apply cons_read (optionalString_read h (h.get (by simp)))
      intro _
    apply purpose_read h (h.get (by simp)) (h.get (by simp))
    intro _
    apply cons_read (nested_read h (fun v hv => llm_read (h.get (by simp) v hv)))
    intro _
    apply choice_read h (h.get (show ("side", Name) ∈ _ by simp)) (show AgentEventSide.codec = .variants _ _ from rfl)
      (fun _ => Iff.rfl)
    intro _
    apply cons_read (items_read h (h.get (show ("omitted", Items Name) ∈ _ by simp)) (fun _ hv => category_read hv))
    intro _
    apply cons_read (optionalConversation_read h (h.get (by simp)) (h.get (by simp)))
    intro _
    apply cons_read (string_read h)
    intro _
    apply cons_read (items_read h (h.get (show ("headers", Items headerPlace) ∈ _ by simp)) (fun _ hv => header_read hv))
    intro _
    apply cons_read (nested_read h (fun v hv =>
      tokenUsage_read (h.get (show ("token_usage", usagePlace double) ∈ _ by simp) v hv)))
    intro _
    apply cons_read (items_read h (h.get (show ("attachments", Items (attachmentPlace double)) ∈ _ by simp))
      (fun _ hv => attachment_read hv))
    intro _
    rfl
  | arr items => exact h.not_array.elim
  | _ => rfl

end Event
end Abyss.Sdk.Rust
