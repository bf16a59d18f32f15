import Abyss.Data.Result
import Abyss.Sdk.Schema
import Abyss.Sdk.TypeScript

/-! The TypeScript SDK reads the format: where the languages agree on the values, `decodeAgentEvent` accepts what the
reader of the schema accepts, and the object then shows what it reads. -/
namespace Abyss.Sdk.TypeScript
open Abyss.Text Abyss.PluginProtocol Abyss.Data Schema

section Helpers
variable {α β γ δ : Type} {value : Members} {field label : String} {double : Str → Option Int}

theorem string_checked : string value field = (stringField value field).toOption.map (fun _ => text (get value field)) := by
  unfold string stringField
  cases get value field with
  | none => rfl
  | some v => cases v <;> rfl

theorem optionalString_checked : optionalString value field =
    (optionalStringField value field).toOption.map (fun _ => optionalText (get value field)) := by
  unfold optionalString optionalStringField stringField
  cases get value field with
  | none => rfl
  | some v => cases v <;> rfl

theorem count_checked {bound : Nat} (hbound : bound ≤ 2 ^ 53)
    (h : ∀ v, get value field = some v → Count double bound v) : count value field =
      (nonNegativeIntegerField double value field).toOption.map (fun _ => natural double (get value field)) := by
  unfold count nonNegativeIntegerField
  cases hget : get value field with
  | none => rfl
  | some v =>
    cases v with
    | num n =>
      have hshared := h _ hget n rfl
      cases n with
      | posInt n =>
        have hsafe : n.toNat < 2 ^ 53 := Nat.lt_of_lt_of_le hshared hbound
        have hnonneg : ¬ ((n.toNat : Int) < 0) := by omega
        simp only [safeInteger, natural, if_pos hsafe, if_neg hnonneg, Option.getD_some, toOption_ok, Option.map_some,
          Int.toNat_natCast]
      | negInt n =>
        have hneg : -((n.val : Int) + 1) < 0 := by omega
        by_cases hsafe : n.val + 1 < 2 ^ 53
        · simp only [safeInteger, if_pos hsafe, if_pos hneg, toOption_error, Option.map_none]
        · simp only [safeInteger, if_neg hsafe]
          rfl
      | float literal =>
        simp only [safeInteger]
        cases hdouble : double literal with
        | none => rfl
        | some i => simp only [if_pos (hshared.2 i hdouble), toOption_error, Option.map_none]
    | _ => rfl

theorem known_checked {allowed : List String} :
    known value allowed = (rejectUnknown value allowed label).toOption.map (fun _ => ()) := by
  unfold rejectUnknown known
  split <;> rfl

theorem text_of_ok {s : Str} (h : stringField value field = .ok s) : text (get value field) = s := by
  unfold stringField at h
  cases hget : get value field with
  | none => rw [hget] at h; cases h
  | some v =>
    rw [hget] at h
    cases v with
    | str s => cases h; rfl
    | _ => cases h

theorem isNone_of_ok (h : optionalStringField value field = .ok ()) :
    (optionalText (get value field)).isNone = (get value field).isNone := by
  unfold optionalStringField stringField at h
  cases hget : get value field with
  | none => rfl
  | some v =>
    rw [hget] at h
    cases v with
    | str s => rfl
    | _ => cases h

/-- A check, and then the checks of the rest. -/
theorem bind_checked {o : Option α} {f : α → Option β} {check : TsResult γ} {rest : γ → TsResult δ} {a : α}
    {view : δ → β} (hcheck : o = check.toOption.map (fun _ => a))
    (hrest : ∀ c, check = .ok c → f a = (rest c).toOption.map view) :
    o.bind f = (check >>= rest).toOption.map view := by
  subst hcheck
  cases check with
  | error e => rfl
  | ok c => exact hrest c rfl

theorem last_checked {o : Option α} {f : α → β} {check : TsResult γ} {a : α}
    (hcheck : o = check.toOption.map (fun _ => a)) :
    (o.bind fun a => some (f a)) = check.toOption.map (fun _ => f a) := by
  subst hcheck
  cases check.toOption <;> rfl

theorem choice_checked {f : Str → Option α} {names : List String} {rest : Unit → TsResult β} {view : β → α}
    (hrest : f (text (get value field)) = (rest ()).toOption.map view) :
    ((string value field).bind fun name => (choice names name).bind fun _ => f name) =
      (choiceField value field names >>= rest).toOption.map view := by
  rw [string_checked, toOption_bind, choiceField, toOption_bind]
  unfold text stringField at *
  cases hget : get value field with
  | none => rfl
  | some v =>
    cases v with
    | str name =>
      simp only [hget] at hrest
      simp only [toOption_ok, Option.map_some, Option.bind_some, toOption_ite, toOption_error, choice]
      split
      · exact hrest
      · rfl
    | _ => rfl

theorem forEach_checked {item : Json → Option α} {check : Json → Nat → TsResult Unit} {view : Json → α} {values : List Json}
    {index : Nat} (h : ∀ v ∈ values, ∀ index, item v = (check v index).toOption.map (fun _ => view v)) :
    values.mapM item = (forEach check values index).toOption.map (fun _ => values.map view) := by
  induction values generalizing index with
  | nil => rfl
  | cons v values ih =>
    rw [List.mapM_cons]
    apply bind_checked (h v List.mem_cons_self index)
    intro _ _
    exact last_checked (ih (fun v hv => h v (List.mem_cons_of_mem _ hv)))

theorem items_checked {item : Json → Option α} {check : Json → Nat → TsResult Unit} {view : Json → α} {place : Place}
    (hplace : ∀ v, get value field = some v → Items place v)
    (h : ∀ v, place v → ∀ index, item v = (check v index).toOption.map (fun _ => view v)) {f : List α → Option γ}
    {rest : Unit → TsResult β} {view' : β → γ}
    (hrest : f ((elements (get value field)).map view) = (rest ()).toOption.map view') :
    (items value field item).bind f =
      (optionalArray value field >>= fun values => forEach check values 0 >>= rest).toOption.map view' := by
  unfold items optionalArray
  cases hget : get value field with
  | none =>
    rw [hget] at hrest
    exact hrest
  | some v =>
    cases v with
    | arr values =>
      rw [hget] at hrest
      change (values.mapM item).bind f = (forEach check values 0 >>= rest).toOption.map view'
      exact bind_checked (forEach_checked (fun v hv => h v (hplace _ hget values rfl v hv))) (fun _ _ => hrest)
    | _ => rfl

/-- The next counter of a list of counters. -/
theorem counter_checked {fields : List String} {f : Nat → Option α} {b : α}
    (h : ∀ v, get value field = some v → Count double (2 ^ 53) v)
    (hrest : f (natural double (get value field)) = (fields.forM fun field => do
      let _ ← nonNegativeIntegerField double value field).toOption.map (fun _ => b)) :
    (count value field).bind f = ((field :: fields).forM fun field => do
      let _ ← nonNegativeIntegerField double value field).toOption.map (fun _ => b) := by
  rw [List.forM_eq_forM, List.forM_cons, bind_assoc]
  apply bind_checked (count_checked (Nat.le_refl _) h)
  intro _ _
  exact hrest

end Helpers

section Nested
variable {double : Str → Option Int} {value : Json} {members : Members}

theorem category_checked {index : Nat} :
    category value = (contentCategory value index).toOption.map (fun _ => text (some value)) := by
  cases value with
  | str name =>
    by_cases hname : name ∈ ["token_usage", "conversation_text", "tool_content", "images"].map String.toList
    · simp only [category, contentCategory, choice, if_pos hname]
      rfl
    · simp only [category, contentCategory, choice, if_neg hname]
      rfl
  | _ => rfl

theorem device_checked : Schema.device value = (decodeDevice (some value)).toOption.map (fun _ => viewDevice (some value)) := by
  cases value with
  | obj members =>
    apply bind_checked known_checked
    intro _ _
    apply bind_checked string_checked
    intro _ _
    apply bind_checked string_checked
    intro _ _
    exact last_checked optionalString_checked
  | _ => rfl

theorem agent_checked : Schema.agent value = (decodeAgent (some value)).toOption.map (fun _ => viewAgent (some value)) := by
  cases value with
  | obj members =>
    apply bind_checked known_checked
    intro _ _
    apply bind_checked string_checked
    intro _ _
    exact last_checked optionalString_checked
  | _ => rfl

theorem llm_checked : Schema.llm value = (decodeLlm (some value)).toOption.map (fun _ => viewLlm (some value)) := by
  cases value with
  | obj members =>
    apply bind_checked known_checked
    intro _ _
    apply bind_checked string_checked
    intro _ _
    apply bind_checked string_checked
    intro _ _
    rfl
  | _ => rfl

theorem tokenUsage_checked (h : usagePlace double value) : Schema.tokenUsage value =
    (decodeTokenUsage double (some value)).toOption.map (fun _ => viewTokenUsage double (some value)) := by
  cases value with
  | obj members =>
    have hplace : ∀ field ∈ Schema.usageFields, ∀ v, get members field = some v → Count double (2 ^ 53) v :=
      fun field hfield => h.get (List.mem_map_of_mem hfield)
    apply bind_checked known_checked
    intro _ _
    apply counter_checked (hplace _ (by decide))
    apply counter_checked (hplace _ (by decide))
    apply counter_checked (hplace _ (by decide))
    apply counter_checked (hplace _ (by decide))
    apply counter_checked (hplace _ (by decide))
    apply counter_checked (hplace _ (by decide))
    rfl
  | _ => rfl

theorem header_checked (index : Nat) :
    Schema.header value = (decodeHeader value index).toOption.map (fun _ => viewHeader value) := by
  cases value with
  | obj members =>
    apply bind_checked known_checked
    intro _ _
    apply bind_checked string_checked
    intro _ _
    apply bind_checked optionalString_checked
    intro _ hvalue
    apply bind_checked optionalString_checked
    intro _ hbase64
    simp only [isNone_of_ok hvalue, isNone_of_ok hbase64]
    split <;> rfl
  | _ => rfl

theorem attachment_checked (h : attachmentPlace double value) (index : Nat) : Schema.attachment value =
    (decodeAttachment double value index).toOption.map (fun _ => viewAttachment double value) := by
  cases value with
  | obj members =>
    apply bind_checked known_checked
    intro _ _
    apply bind_checked (count_checked (by decide) (h.get (show ("position", Count double (2 ^ 32)) ∈ _ by simp)))
    intro _ _
    apply bind_checked string_checked
    intro mediaType hmediaType
    obtain rfl := text_of_ok hmediaType
    by_cases hname : text (get members "media_type") ∈ ["image/png", "image/jpeg", "image/webp", "image/gif"].map String.toList
    · rw [choice, if_pos hname, if_neg (not_not_intro hname)]
      apply bind_checked (count_checked (Nat.le_refl _) (h.get (show ("byte_size", Count double (2 ^ 53)) ∈ _ by simp)))
      intro _ _
      apply bind_checked string_checked
      intro _ _
      exact last_checked optionalString_checked
    · rw [choice, if_neg hname, if_pos hname]
      rfl
  | _ => rfl

theorem entry_checked (index : Nat) : entry value = (decodeEntry value index).toOption.map (fun _ => viewEntry value) := by
  cases value with
  | obj members =>
    apply bind_checked known_checked
    intro _ _
    apply choice_checked
    apply bind_checked string_checked
    intro _ _
    apply bind_checked optionalString_checked
    intro _ _
    apply bind_checked optionalString_checked
    intro _ _
    exact last_checked optionalString_checked
  | _ => rfl

theorem entries_checked {α β : Type} {f : List ExposedEntry → Option α} {rest : Unit → TsResult β}
    {view : β → α} (hrest : f ((elements (get members "entries")).map viewEntry) = (rest ()).toOption.map view) :
    (nested members "entries" entries).bind f =
      (conversationEntries members >>= fun values => forEach decodeEntry values 0 >>= rest).toOption.map view := by
  unfold nested conversationEntries
  cases hget : get members "entries" with
  | none => rfl
  | some v =>
    cases v with
    | arr values =>
      rw [hget] at hrest
      change (values.mapM entry).bind f = (forEach decodeEntry values 0 >>= rest).toOption.map view
      exact bind_checked (forEach_checked (fun v _ index => entry_checked index)) (fun _ _ => hrest)
    | _ => rfl

theorem conversation_checked :
    Schema.conversation value = (decodeConversation (some value)).toOption.map (fun _ => viewConversation value) := by
  cases value with
  | obj members =>
    apply bind_checked known_checked
    intro _ _
    apply entries_checked
    rw [← bind_pure (choiceField members "completeness" ["complete", "partial", "unsupported"])]
    apply choice_checked
    rfl
  | _ => rfl

end Nested

section Event
variable {double : Str → Option Int} {members : Members}

theorem nested_checked {α : Type} {field : String} {read : Json → Option α} {check : Option Json → TsResult Unit}
    {view : Option Json → α} (hnone : ∃ e, check none = .error e)
    (h : ∀ v, get members field = some v → read v = (check (some v)).toOption.map (fun _ => view (some v))) :
    nested members field read = (check (get members field)).toOption.map (fun _ => view (get members field)) := by
  unfold nested
  cases hget : get members field with
  | none =>
    obtain ⟨e, he⟩ := hnone
    rw [he]
    rfl
  | some v => exact h v hget

theorem purpose_checked {α β : Type} {f : Option Str → Option α} {rest : Unit → TsResult β} {view : β → α}
    (hrest : f (optionalText (get members "purpose")) = (rest ()).toOption.map view) :
    ((optionalString members "purpose").bind fun purpose => (Schema.checkPurpose purpose).bind fun _ => f purpose) =
      (checkPurpose members >>= rest).toOption.map view := by
  unfold checkPurpose
  cases hget : get members "purpose" with
  | none =>
    rw [hget] at hrest
    simp only [optionalString, hget]
    exact hrest
  | some v =>
    rw [if_neg (Option.some_ne_none v)]
    cases v with
    | str name =>
      have hchoice : ((string members "purpose").bind fun name =>
          (choice ["session_title", "compaction", "prewarm"] name).bind fun _ => f (some name)) =
            (choiceField members "purpose" ["session_title", "compaction", "prewarm"] >>= rest).toOption.map view := by
        apply choice_checked
        rw [hget] at hrest ⊢
        exact hrest
      simp only [string, hget, Option.bind_some] at hchoice
      simp only [optionalString, hget, Option.bind_some]
      exact hchoice
    | _ => simp only [optionalString, choiceField, stringField, hget]; rfl

theorem side_checked {α β : Type} {f : Str → Option α} {rest : Unit → TsResult β} {view : β → α}
    (hrest : f (text (get members "side")) = (rest ()).toOption.map view) :
    ((string members "side").bind fun side => (choice ["request", "response"] side).bind fun _ => f side) =
      (checkSide members >>= rest).toOption.map view := by
  unfold checkSide
  cases hget : get members "side" with
  | none => simp only [string, hget]; rfl
  | some v =>
    rw [hget] at hrest
    cases v with
    | str side =>
      simp only [string, hget, Option.bind_some, choice]
      by_cases hside : side = "request".toList ∨ side = "response".toList
      · rw [if_pos (by simpa using hside), if_pos hside]
        exact hrest
      · rw [if_neg (by simpa using hside), if_neg hside]
        rfl
    | _ => simp only [string, hget]; rfl

theorem optionalConversation_checked : Schema.optionalConversation members =
    (checkConversation members).toOption.map (fun _ => (get members "conversation").map viewConversation) := by
  unfold optionalConversation checkConversation
  cases hget : get members "conversation" with
  | none => rfl
  | some v =>
    simp only [conversation_checked, if_neg (Option.some_ne_none v)]
    cases (decodeConversation (some v)).toOption <;> rfl

theorem decodeAgentEvent_schema {dateParse : Str → Bool} {value : Json} (h : eventPlace double value) :
    event (fun text => if dateParse text then some text else none) value =
      (decodeAgentEvent double dateParse value).toOption.map (viewEvent double) := by
  cases value with
  | obj members =>
    apply bind_checked known_checked
    intro _ _
    apply bind_checked string_checked
    intro _ _
    change ((string members "observed_at").bind _).bind _ = _
    rw [Option.bind_assoc]
    apply bind_checked string_checked
    intro observedAt hobservedAt
    obtain rfl := text_of_ok hobservedAt
    by_cases hdate : dateParse (text (get members "observed_at")) = true
    · rw [if_pos hdate, if_neg (not_not_intro hdate), Option.bind_some]
      apply bind_checked (nested_checked ⟨_, rfl⟩ (fun _ _ => device_checked))
      intro _ _
      apply bind_checked (nested_checked ⟨_, rfl⟩ (fun _ _ => agent_checked))
      intro _ _
      apply bind_checked string_checked
      intro _ _
      iterate 5
        apply bind_checked optionalString_checked
        intro _ _
      apply purpose_checked
      apply bind_checked (nested_checked ⟨_, rfl⟩ (fun _ _ => llm_checked))
      intro _ _
      apply side_checked
      apply items_checked (h.get (show ("omitted", Items Name) ∈ _ by simp)) (fun _ _ index => category_checked)
      apply bind_checked optionalConversation_checked
      intro _ _
      apply bind_checked string_checked
      intro _ _
      apply items_checked (h.get (show ("headers", Items headerPlace) ∈ _ by simp)) (fun _ _ index => header_checked index)
      apply bind_checked (nested_checked ⟨_, rfl⟩ (fun v hv =>
        tokenUsage_checked (h.get (show ("token_usage", usagePlace double) ∈ _ by simp) v hv)))
      intro _ _
      apply items_checked (h.get (show ("attachments", Items (attachmentPlace double)) ∈ _ by simp))
        (fun _ hv index => attachment_checked hv index)
      rfl
    · rw [if_neg hdate, if_pos hdate]
      rfl
  | _ => rfl

end Event
end Abyss.Sdk.TypeScript
