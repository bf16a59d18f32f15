import Abyss.Data.Result
import Abyss.Sdk.Python
import Abyss.Sdk.Schema

/-! The Python SDK reads the format: where the languages agree on the values, `from_dict` is the reader of the schema. -/
namespace Abyss.Sdk.Python
open Abyss.Text Abyss.PluginProtocol Abyss.Data Schema

section Helpers
variable {value : Members} {field label message : String}

theorem string_schema : (string value field).toOption = Schema.string value field := by
  unfold string Schema.string
  cases get value field with
  | none => rfl
  | some v => cases v <;> rfl

theorem optionalString_schema (h : ∀ v, get value field = some v → Present v) :
    (optionalString value field).toOption = Schema.optionalString value field := by
  unfold optionalString Schema.optionalString
  cases hget : get value field with
  | none => rfl
  | some v =>
    cases v with
    | null => exact absurd rfl (h _ hget)
    | _ => rfl

theorem integer_schema {double : Str → Option Int} {bound : Nat}
    (h : ∀ v, get value field = some v → Count double bound v) :
    (integer value field).toOption.bind (fun i => if i < 0 then none else some i.toNat) = count value field := by
  unfold integer count
  cases hget : get value field with
  | none => rfl
  | some v =>
    cases v with
    | num n =>
      cases n with
      | posInt n =>
        have hnonneg : ¬ ((n.toNat : Int) < 0) := by omega
        simp only [asInt, toOption_ok, Option.bind_some, if_neg hnonneg, Int.toNat_natCast]
      | negInt n =>
        have hneg : -((n.val : Int) + 1) < 0 := by omega
        simp only [asInt, toOption_ok, Option.bind_some, if_pos hneg]
      | float literal =>
        have hliteral := (h _ hget _ rfl).1
        simp only [asInt, hliteral]
        rfl
    | _ => rfl

theorem counter_schema {double : Str → Option Int} {bound : Nat}
    (h : ∀ v, get value field = some v → Count double bound v) : (counter value field).toOption = count value field := by
  rw [← integer_schema h]
  simp only [counter, toOption_bind, toOption_ite, toOption_ok, toOption_error]

theorem rejectUnknown_schema {allowed : List String} : (rejectUnknown value allowed label).toOption = known value allowed := by
  unfold rejectUnknown known
  split <;> rfl

theorem oneOf_schema {name : Str} {names : List String} : (oneOf name names message).toOption = choice names name := by
  unfold oneOf choice
  split <;> rfl

theorem mapping_schema {v : Json} {α : Type} {fields : List String} {read : Members → PyResult α} :
    (mapping (some v) label >>= fun value => rejectUnknown value fields message >>= fun _ => read value).toOption =
      object fields (fun value => (read value).toOption) v := by
  cases v with
  | obj value => simp only [mapping, object, toOption_bind, toOption_ok, Option.bind_some, rejectUnknown_schema]
  | _ => rfl

end Helpers

section Nested
variable {double : Str → Option Int} {value : Json} {members : Members}

theorem contentCategory_schema : (contentCategory value).toOption = category value := by
  cases value with
  | str name =>
    simp only [contentCategory, category, toOption_bind, oneOf_schema]
    rfl
  | _ => rfl

theorem device_schema (h : devicePlace value) :
    (mapping (some value) "AgentEvent.device" >>= device).toOption = Schema.device value := by
  unfold device
  rw [mapping_schema]
  cases value with
  | obj members =>
    simp only [Schema.device, object, toOption_bind, toOption_ok, string_schema,
      optionalString_schema (h.get (List.mem_cons_self))]
    rfl
  | _ => rfl

theorem agent_schema (h : agentPlace value) :
    (mapping (some value) "AgentEvent.agent" >>= agent).toOption = Schema.agent value := by
  unfold agent
  rw [mapping_schema]
  cases value with
  | obj members =>
    simp only [Schema.agent, object, toOption_bind, toOption_ok, string_schema,
      optionalString_schema (h.get (List.mem_cons_self))]
    rfl
  | _ => rfl

theorem llm_schema : (mapping (some value) "AgentEvent.llm" >>= llm).toOption = Schema.llm value := by
  unfold llm
  rw [mapping_schema]
  simp only [Schema.llm, toOption_bind, toOption_ok, string_schema]
  rfl

theorem tokenUsage_schema (h : usagePlace double value) :
    (mapping (some value) "AgentEvent.token_usage" >>= tokenUsage).toOption = Schema.tokenUsage value := by
  unfold tokenUsage
  rw [mapping_schema]
  cases value with
  | obj members =>
    have hcounter : ∀ field ∈ usageFields, (counter members field).toOption = count members field :=
      fun field hfield => counter_schema (h.get (List.mem_map_of_mem hfield))
    simp only [Schema.tokenUsage, object, toOption_bind, toOption_ok, hcounter _ (show "input_tokens" ∈ usageFields by decide),
      hcounter _ (show "output_tokens" ∈ usageFields by decide), hcounter _ (show "cache_read_tokens" ∈ usageFields by decide),
      hcounter _ (show "cache_write_tokens" ∈ usageFields by decide),
      hcounter _ (show "reasoning_tokens" ∈ usageFields by decide),
      hcounter _ (show "total_tokens" ∈ usageFields by decide)]
    rfl
  | _ => rfl

theorem header_schema (h : headerPlace value) : (header value).toOption = Schema.header value := by
  unfold header
  rw [mapping_schema]
  cases value with
  | obj members =>
    have hvalue : (optionalString members "value").toOption = Schema.optionalString members "value" :=
      optionalString_schema (h.get (List.mem_cons_self))
    have hbase64 : (optionalString members "value_base64").toOption = Schema.optionalString members "value_base64" :=
      optionalString_schema (h.get (List.mem_cons_of_mem _ List.mem_cons_self))
    simp only [Schema.header, object, toOption_bind, toOption_ite, toOption_ok, toOption_error, string_schema, hvalue, hbase64]
    rfl
  | _ => rfl

theorem attachment_schema (h : attachmentPlace double value) : (attachment value).toOption = Schema.attachment value := by
  unfold attachment
  rw [mapping_schema]
  cases value with
  | obj members =>
    have hposition := integer_schema (h.get (show ("position", Count double (2 ^ 32)) ∈ _ by simp))
    have hsize := integer_schema (h.get (show ("byte_size", Count double (2 ^ 53)) ∈ _ by simp))
    have hcontent := optionalString_schema (h.get (show ("content_base64", Present) ∈ _ by simp))
    simp only [Schema.attachment, object, toOption_bind, toOption_ite, toOption_ok, toOption_error, string_schema, hcontent,
      oneOf_schema, ← hposition, ← hsize, Option.bind_eq_bind]
    -- The two checks for a sign come after both integers are read.
    cases (integer members "position").toOption with
    | none => simp only [Option.bind_none, Option.bind_fun_none]
    | some position =>
      by_cases hneg : position < 0
      · simp [hneg]
      · cases (integer members "byte_size").toOption with
        | none => simp [hneg]
        | some size => by_cases hneg' : size < 0 <;> simp [hneg, hneg']
  | _ => rfl

theorem conversationEntry_schema (h : entryPlace value) : (conversationEntry value).toOption = entry value := by
  unfold conversationEntry
  rw [mapping_schema]
  cases value with
  | obj members =>
    have hcallId := optionalString_schema (h.get (show ("call_id", Present) ∈ _ by simp))
    have hname := optionalString_schema (h.get (show ("name", Present) ∈ _ by simp))
    have hitemId := optionalString_schema (h.get (show ("item_id", Present) ∈ _ by simp))
    simp only [entry, object, toOption_bind, toOption_ok, string_schema, oneOf_schema, hcallId, hname, hitemId]
    rfl
  | _ => rfl

theorem conversation_schema (h : conversationPlace value) : (conversation value).toOption = Schema.conversation value := by
  unfold conversation
  rw [mapping_schema]
  cases value with
  | obj members =>
    have hitems := h.get (show ("entries", Items entryPlace) ∈ _ by simp)
    have hentries : ((list (get members "entries") "conversation.entries").toOption.bind fun entries =>
        (entries.mapM conversationEntry).toOption) = nested members "entries" entries := by
      cases hget : get members "entries" with
      | none => simp only [nested, hget]; rfl
      | some v =>
        cases v with
        | arr items =>
          simp only [list, nested, hget, entries, toOption_ok, Option.bind_some, toOption_mapM]
          exact mapM_congr (fun i hi => conversationEntry_schema (hitems _ hget _ rfl i hi))
        | _ => simp only [nested, hget]; rfl
    simp only [Schema.conversation, object, toOption_bind, toOption_ok, string_schema, oneOf_schema, ← hentries,
      Option.bind_eq_bind]
    -- The entries are read after the name is checked.
    cases Schema.string members "completeness" with
    | none => simp only [Option.bind_none, Option.bind_fun_none]
    | some completeness =>
      simp only [Option.bind_some]
      cases choice ["complete", "partial", "unsupported"] completeness with
      | none => simp only [Option.bind_none, Option.bind_fun_none]
      | some _ => simp [Option.bind_assoc]
  | _ => rfl

end Nested

section Event
variable {Time : Type} {double : Str → Option Int} {members : Members} {field label : String}

theorem datetime_schema {parse : Str → Option Time} {text : Str} : (datetime parse text).toOption = parse text := by
  unfold datetime
  cases parse text <;> rfl

theorem checkPurpose_schema {purpose : Option Str} : (checkPurpose purpose).toOption = Schema.checkPurpose purpose := by
  cases purpose with
  | none => rfl
  | some purpose => exact oneOf_schema

theorem items_schema {α : Type} {item : Json → PyResult α} {item' : Json → Option α} {place : Place}
    (h : ∀ v, get members field = some v → Items place v) (hitem : ∀ i, place i → (item i).toOption = item' i) :
    (items members field label item).toOption = Schema.items members field item' := by
  unfold items Schema.items
  rw [toOption_bind]
  cases hget : get members field with
  | none => rfl
  | some v =>
    cases v with
    | arr items =>
      simp only [Option.getD_some, list, toOption_ok, Option.bind_some, toOption_mapM]
      exact mapM_congr (fun i hi => hitem i (h _ hget _ rfl i hi))
    | _ => rfl

theorem nested_schema {α : Type} {read : Members → PyResult α} {read' : Json → Option α}
    (h : ∀ v, get members field = some v → (mapping (some v) label >>= read).toOption = read' v) :
    (mapping (get members field) label).toOption.bind (fun value => (read value).toOption) = nested members field read' := by
  rw [← toOption_bind, nested]
  cases hget : get members field with
  | none => rfl
  | some v => exact h v hget

theorem optionalConversation_schema (hpresent : ∀ v, get members "conversation" = some v → Present v)
    (h : ∀ v, get members "conversation" = some v → conversationPlace v) :
    (optionalConversation members).toOption = Schema.optionalConversation members := by
  unfold optionalConversation Schema.optionalConversation
  cases hget : get members "conversation" with
  | none => rfl
  | some v =>
    cases v with
    | null => exact absurd rfl (hpresent _ hget)
    | _ => simp only [toOption_map, conversation_schema (h _ hget), Option.map_eq_map]

/-- `AgentEvent.from_dict` is the reader of the format. -/
theorem fromDict_schema {parse : Str → Option Time} {value : Json} (h : eventPlace double value) :
    (fromDict parse value).toOption = event parse value := by
  unfold fromDict
  rw [mapping_schema]
  cases value with
  | obj members =>
    have hdevice := nested_schema (fun v hv => device_schema (h.get (show ("device", devicePlace) ∈ _ by simp) v hv))
    have hagent := nested_schema (fun v hv => agent_schema (h.get (show ("agent", agentPlace) ∈ _ by simp) v hv))
    have hllm : (mapping (get members "llm") "AgentEvent.llm").toOption.bind (fun value => (llm value).toOption) =
        nested members "llm" Schema.llm := nested_schema (fun v _ => llm_schema)
    have husage :=
      nested_schema (fun v hv => tokenUsage_schema (h.get (show ("token_usage", usagePlace double) ∈ _ by simp) v hv))
    have hresponse := optionalString_schema (h.get (show ("response_id", Present) ∈ _ by simp))
    have hprevious := optionalString_schema (h.get (show ("previous_response_id", Present) ∈ _ by simp))
    have hsubagent := optionalString_schema (h.get (show ("subagent_id", Present) ∈ _ by simp))
    have hparent := optionalString_schema (h.get (show ("parent_subagent_id", Present) ∈ _ by simp))
    have hturn := optionalString_schema (h.get (show ("turn_id", Present) ∈ _ by simp))
    have hpurpose := optionalString_schema (h.get (show ("purpose", Present) ∈ _ by simp))
    have hconversation := optionalConversation_schema (h.get (show ("conversation", Present) ∈ _ by simp))
      (h.get (show ("conversation", conversationPlace) ∈ _ by simp))
    have homitted : (items members "omitted" "AgentEvent.omitted" contentCategory).toOption =
        Schema.items members "omitted" category :=
      items_schema (h.get (show ("omitted", Items Name) ∈ _ by simp)) (fun i _ => contentCategory_schema)
    have hheaders : (items members "headers" "AgentEvent.headers" header).toOption =
        Schema.items members "headers" Schema.header :=
      items_schema (h.get (show ("headers", Items headerPlace) ∈ _ by simp)) (fun i hi => header_schema hi)
    have hattachments : (items members "attachments" "AgentEvent.attachments" attachment).toOption =
        Schema.items members "attachments" Schema.attachment :=
      items_schema (h.get (show ("attachments", Items (attachmentPlace double)) ∈ _ by simp))
        (fun i hi => attachment_schema hi)
    simp only [event, object, toOption_do, toOption_ok, string_schema, oneOf_schema, checkPurpose_schema, datetime_schema,
      hresponse, hprevious, hsubagent, hparent, hturn, hpurpose, hconversation, homitted, hheaders, hattachments,
      ← hdevice, ← hagent, ← hllm, ← husage, ← Option.bind_eq_bind]
    -- The side, the purpose and the timestamp are checked before the other fields.
    cases Schema.string members "side" with
    | none => simp only [none_do, do_none]
    | some side =>
      simp only [some_do]
      cases choice ["request", "response"] side with
      | none => simp only [none_do, do_none]
      | some _ =>
        simp only [some_do]
        cases Schema.optionalString members "purpose" with
        | none => simp only [none_do, do_none]
        | some purpose =>
          simp only [some_do]
          cases Schema.checkPurpose purpose with
          | none => simp only [none_do, do_none]
          | some _ =>
            simp only [some_do]
            cases Schema.string members "observed_at" with
            | none => simp only [none_do, do_none]
            | some text =>
              simp only [some_do]
              cases parse text with
              | none => simp only [none_do, do_none]
              | some time =>
                simp only [some_do, bind_assoc]
                rfl
  | _ => rfl

end Event
end Abyss.Sdk.Python
