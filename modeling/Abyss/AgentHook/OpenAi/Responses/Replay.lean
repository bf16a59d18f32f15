import Abyss.AgentHook.OpenAi.Responses.Assembly
import Abyss.AgentHook.OpenAi.Responses.Request
import Abyss.Data.FilterMap

/-! Reported output items against the same items replayed in a later request. -/
namespace Abyss.AgentHook.OpenAi
open Abyss.Text Abyss.PluginProtocol Abyss.Data Std

section Entries

/-- The entries of an output array that a whole response reports. -/
def reportedEntries (output : List Json) : List ConversationEntry :=
  (ResponsesResponse.assemble [.obj [(lit "output", .arr output)]] false).entries

/-- The entries of the same array when a request replays it as its input. -/
def replayedEntries (output : List Json) : List ConversationEntry :=
  (ResponsesRequest.parse (some (.obj [(lit "input", .arr output)])) false).entries

theorem reportedEntries_eq (output : List Json) :
    reportedEntries output = output.flatMap (fun item => reportedEntries [item]) := by
  have hwhole (items : List Json) : reportedEntries items = items.flatMap (fun item => (itemSlot item).entries) :=
    entries_whole (by simp [Json.field]) (by simp) false
  rw [hwhole]
  congr 1
  funext item
  rw [hwhole, List.flatMap_singleton]

theorem replayedEntries_flatMap (output : List Json) : replayedEntries output =
    output.flatMap (fun item => itemEntries item (if item.asStr.isSome then .user else .unknown)) := by
  simp [replayedEntries, ResponsesRequest.parse, instructionsField, inputField, promptField, Json.field]

theorem replayedEntries_eq (output : List Json) :
    replayedEntries output = output.flatMap (fun item => replayedEntries [item]) := by
  rw [replayedEntries_flatMap]
  congr 1
  funext item
  rw [replayedEntries_flatMap, List.flatMap_singleton]

end Entries

section Condition

/-- Whether a content part projects alike on both sides: a string or a text part has a text and a
role to take, a refusal has its text, and any other part shows exactly the text it reports. -/
def PartReplays (hasRole : Bool) (part : Json) : Prop :=
  match part with
  | .str text => hasRole = true ∧ text ≠ []
  | part =>
    if part.kind.any (· ∈ textPartTypes) then hasRole = true ∧ (part.field "text").any (· ≠ []) = true
    else if part.kind = some (lit "refusal") then (part.field "refusal").isSome = true
    else visibleText part = (responsePartText part).filter (· ≠ []) ∧ (hasRole = true ∨ visibleText part = none)

/-- Whether an item projects alike on both sides: reasoning items, calls and outputs always do, a
message by its parts, and any other item by the text it shows. A bare string never does. -/
def ItemReplays (item : Json) : Prop :=
  match item with
  | .str _ => False
  | item =>
    if item.kind = some (lit "reasoning") ∨ item.kind.any (endsWith · (lit "_call")) ∨
        item.kind.any (endsWith · (lit "_output")) then True
    else
      match item.get "content" with
      | some (.arr parts) => ∀ part ∈ parts, PartReplays (item.field "role").isSome part
      | some (.str text) => (item.field "role").isSome = true ∧ text ≠ []
      | _ => visibleText item = (item.field "output_text").filter (· ≠ []) ∧
          ((item.field "role").isSome = true ∨ visibleText item = none)

end Condition

section Parts

/-- The entry of one reported part. -/
def reportedPart (role : EntryRole) (part : Json) : Option ConversationEntry :=
  (partChange part none).map (MessageParts.entry role)

private theorem not_str_of_kind {part : Json} {kind : Str} (h : part.kind = some kind) : part.asObject.isSome = true := by
  cases part <;> first | rfl | simp [Json.kind, Json.field, Json.get] at h

theorem reportedPart_str (role : EntryRole) (text : Str) :
    reportedPart role (.str text) = if text = [] then none else some (ConversationProjection.text role text) := by
  by_cases h : text = [] <;> simp [reportedPart, partChange, responsePartText, h, MessageParts.entry]

theorem reportedPart_text {role : EntryRole} {part : Json} (h : part.kind.any (· ∈ textPartTypes) = true) :
    reportedPart role part = ((part.field "text").filter (· ≠ [])).map (ConversationProjection.text role) := by
  obtain ⟨kind, hkind⟩ : ∃ kind, part.kind = some kind := by
    cases hk : part.kind with
    | none => simp [hk] at h
    | some kind => exact ⟨kind, rfl⟩
  have hmem : kind ∈ textPartTypes := by simpa [hkind] using h
  have hne : kind ≠ lit "refusal" := by
    rintro rfl
    simp [textPartTypes] at hmem
  have hobject := not_str_of_kind hkind
  cases part with
  | obj members =>
    cases hfield : (Json.obj members).field "text" with
    | none =>
      have hshown : responsePartText (.obj members) = none := by simp [responsePartText, hfield]
      simp [reportedPart, partChange, hshown, hkind, hne]
    | some shown =>
      have hshown : responsePartText (.obj members) = some shown := by
        simp [responsePartText, hfield, hkind, hmem, Json.asObject]
      by_cases hempty : shown = [] <;> simp [reportedPart, partChange, hshown, hempty, MessageParts.entry]
  | _ => cases hobject

theorem reportedPart_refusal {role : EntryRole} {part : Json} (h : part.kind = some (lit "refusal")) :
    reportedPart role part = (part.field "refusal").map (ConversationProjection.text .assistant) := by
  have hobject := not_str_of_kind h
  cases part with
  | obj members =>
    have hshown : responsePartText (.obj members) = none := by simp [responsePartText, h, textPartTypes]
    cases hfield : (Json.obj members).field "refusal" <;>
      simp [reportedPart, partChange, hshown, h, hfield, MessageParts.entry]
  | _ => cases hobject

theorem reportedPart_other {role : EntryRole} {part : Json} (h : part.kind ≠ some (lit "refusal")) :
    reportedPart role part = ((responsePartText part).filter (· ≠ [])).map (ConversationProjection.text role) := by
  cases hshown : responsePartText part with
  | none => simp [reportedPart, partChange, hshown, h]
  | some shown => by_cases hempty : shown = [] <;> simp [reportedPart, partChange, hshown, hempty, MessageParts.entry]

/-- The part-to-role table. -/
theorem partEntry_table {part : Json} (h : part.asStr = none) (role : EntryRole) : partEntry part role =
    if part.kind.any (· ∈ textPartTypes) then some (ConversationProjection.text role ((part.field "text").getD []))
    else if part.kind = some (lit "refusal") then
      some (ConversationProjection.text .assistant ((part.field "refusal").getD []))
    else (visibleText part).map (ConversationProjection.text role) := by
  cases part <;> first | rfl | cases h

private theorem eq_str_or_asStr (part : Json) : (∃ text, part = .str text) ∨ part.asStr = none := by
  cases part <;> first | exact .inl ⟨_, rfl⟩ | exact .inr rfl

private theorem map_text_eq_iff {role role' : EntryRole} {hasRole : Bool} (hrole : hasRole = true ↔ role' = role)
    (reported replayed : Option Str) :
    reported.map (ConversationProjection.text role') = replayed.map (ConversationProjection.text role) ↔
      replayed = reported ∧ (hasRole = true ∨ replayed = none) := by
  cases reported <;> cases replayed <;> simp [ConversationProjection.text, hrole, and_comm, eq_comm]

/-- A part projects alike on both sides exactly when it replays. -/
theorem reportedPart_eq_iff {role role' : EntryRole} {hasRole : Bool} (hrole : hasRole = true ↔ role' = role)
    (part : Json) : reportedPart role' part = partEntry part role ↔ PartReplays hasRole part := by
  obtain ⟨text, rfl⟩ | hstr := eq_str_or_asStr part
  · rw [reportedPart_str]
    by_cases hempty : text = []
    · simp [partEntry, PartReplays, hempty]
    · simp [partEntry, PartReplays, hempty, ConversationProjection.text, hrole]
  · have hreplays : PartReplays hasRole part ↔
        if part.kind.any (· ∈ textPartTypes) then hasRole = true ∧ (part.field "text").any (· ≠ []) = true
        else if part.kind = some (lit "refusal") then (part.field "refusal").isSome = true
        else visibleText part = (responsePartText part).filter (· ≠ []) ∧ (hasRole = true ∨ visibleText part = none) := by
      cases part <;> first | rfl | cases hstr
    rw [partEntry_table hstr, hreplays]
    by_cases htext : part.kind.any (· ∈ textPartTypes) = true
    · rw [if_pos htext, if_pos htext, reportedPart_text htext]
      cases part.field "text" with
      | none => simp
      | some shown =>
        by_cases hempty : shown = []
        · simp [hempty]
        · simp [hempty, ConversationProjection.text, hrole]
    · rw [if_neg htext, if_neg htext]
      by_cases hrefusal : part.kind = some (lit "refusal")
      · rw [if_pos hrefusal, if_pos hrefusal, reportedPart_refusal hrefusal]
        cases part.field "refusal" <;> simp
      · rw [if_neg hrefusal, if_neg hrefusal, reportedPart_other hrefusal]
        exact map_text_eq_iff hrole _ _

/-- One for an entry whose text is blank but not empty. -/
def blankWeight (entry : ConversationEntry) : Nat := if entry.text ≠ [] ∧ trim entry.text = [] then 1 else 0

/-- What a request shows of an untyped part is its trimmed text. -/
theorem visibleText_none {part : Json} {shown : Str} (hshown : responsePartText part = some shown)
    (hkind : part.kind.any (· ∈ textPartTypes) = false) (hstr : part.asStr = none) (h : visibleText part = none) :
    trim shown = [] := by
  cases part with
  | obj members =>
    have hnone : (Json.obj members).kind = none := by
      simp only [responsePartText] at hshown
      split at hshown
      · rename_i hall
        cases hk : (Json.obj members).kind with
        | none => rfl
        | some kind =>
          have htype := hall.2
          rw [hk] at hkind htype
          simp only [Option.any_some, Option.all_some] at hkind htype
          rw [htype] at hkind
          cases hkind
      · cases hshown
    simp only [responsePartText, hnone, Json.asObject, Option.isSome_some, Option.all_none, and_self, if_true] at hshown
    obtain ⟨text, htext, hshown⟩ := Option.bind_eq_some_iff.mp hshown
    cases text with
    | str text =>
      obtain rfl := Option.some.inj hshown
      rw [visibleText, maxParseDepth, AgentHook.visibleText, hnone, htext] at h
      simp only [Option.any_none, Bool.false_eq_true, if_false, Option.orElse_eq_orElse, Option.orElse_eq_or,
        Option.some_or, Option.bind_some, AgentHook.visibleText, nonEmptyTrimmed] at h
      split at h
      · assumption
      · cases h
    | _ => cases hshown
  | str text => cases hstr
  | _ => simp [responsePartText, Json.asObject] at hshown

/-- A part that only the response reports is blank. -/
theorem blank_of_reported_only {role role' : EntryRole} {part : Json} {entry : ConversationEntry}
    (hreported : reportedPart role' part = some entry) (hreplayed : partEntry part role = none) : 0 < blankWeight entry := by
  obtain ⟨text, rfl⟩ | hstr := eq_str_or_asStr part
  · cases hreplayed
  rw [partEntry_table hstr] at hreplayed
  split at hreplayed
  · cases hreplayed
  · rename_i hkind
    split at hreplayed
    · cases hreplayed
    · rename_i hrefusal
      rw [reportedPart_other hrefusal] at hreported
      obtain ⟨shown, hkept, rfl⟩ := Option.map_eq_some_iff.mp hreported
      obtain ⟨hshown, hne⟩ := Option.filter_eq_some_iff.mp hkept
      have hblank := visibleText_none hshown (Bool.eq_false_iff.mpr hkind) hstr (Option.map_eq_none_iff.mp hreplayed)
      have hone : blankWeight (ConversationProjection.text role' shown) = 1 :=
        if_pos ⟨of_decide_eq_true hne, hblank⟩
      rw [hone]
      exact Nat.one_pos

/-- A replayed blank entry is reported blank as well. -/
theorem blankWeight_le (role role' : EntryRole) (part : Json) :
    (partEntry part role).elim 0 blankWeight ≤ (reportedPart role' part).elim 0 blankWeight := by
  obtain ⟨text, rfl⟩ | hstr := eq_str_or_asStr part
  · rw [reportedPart_str]
    by_cases hempty : text = [] <;> simp [partEntry, blankWeight, hempty, ConversationProjection.text]
  rw [partEntry_table hstr]
  split
  · rename_i hkind
    rw [reportedPart_text hkind]
    cases part.field "text" with
    | none => simp [blankWeight, ConversationProjection.text]
    | some shown =>
      by_cases hempty : shown = [] <;> simp [blankWeight, hempty, ConversationProjection.text, Option.filter]
  · split
    · rename_i hrefusal
      rw [reportedPart_refusal hrefusal]
      cases part.field "refusal" <;> simp [blankWeight, ConversationProjection.text]
    · cases hshown : visibleText part with
      | none => exact Nat.zero_le _
      | some shown => simp [blankWeight, ConversationProjection.text, (visibleText_not_blank hshown).2]

end Parts

section Items

theorem identify_cancel {entries entries' : List ConversationEntry} {itemId : Option Str}
    (hentries : ∀ e ∈ entries, e.itemId = none) (hentries' : ∀ e ∈ entries', e.itemId = none) :
    ConversationProjection.identify entries itemId = ConversationProjection.identify entries' itemId ↔ entries = entries' := by
  constructor
  · intro h
    have hback : ∀ list : List ConversationEntry, (∀ e ∈ list, e.itemId = none) →
        (ConversationProjection.identify list itemId).map (fun e => { e with itemId := none }) = list := by
      intro list hlist
      rw [ConversationProjection.identify, List.map_map]
      calc list.map _ = list.map id := by
            apply List.map_congr_left
            intro e he
            have hnone := hlist e he
            cases e
            cases hnone
            rfl
        _ = list := List.map_id list
    rw [← hback entries hentries, h, hback entries' hentries']
  · rintro rfl
    rfl

/-- A single text, read into a message without parts. -/
theorem entries_reconcile_empty (role : EntryRole) (shown : Str) :
    (MessageParts.reconcile ∅ 0 shown).entries role =
      ((some shown).filter (· ≠ [])).toList.map (ConversationProjection.text role) := by
  by_cases hempty : shown = []
  · simp [MessageParts.reconcile, MessageParts.entries, hempty]
  · have hvalues : TreeMap.values (MessageParts.reconcile ∅ 0 shown) = [.text shown] := by
      apply TreeMap.values_eq
      intro k
      rw [MessageParts.reconcile_alter ∅ 0 hempty, ExtTreeMap.getElem?_alter]
      cases k <;> simp
    simp [MessageParts.entries, hvalues, hempty, MessageParts.entry, Option.filter]

private theorem reconcileContent_other {item : Json} (h : ∀ content, item.get "content" = some content →
    content.asArray = none ∧ content.asStr = none) : MessageParts.reconcileContent ∅ item =
      ((item.field "output_text").map (MessageParts.reconcile ∅ 0)).getD ∅ := by
  unfold MessageParts.reconcileContent
  split
  · rename_i hcontent
    cases (h _ hcontent).1
  · rename_i hcontent
    cases (h _ hcontent).2
  · cases item.field "output_text" <;> rfl

/-- The entries of a reported message, before its identity. -/
theorem entries_reconcileContent (item : Json) (role : EntryRole) :
    (MessageParts.reconcileContent ∅ item).entries role =
      match item.get "content" with
      | some (.arr parts) => parts.filterMap (reportedPart role)
      | some (.str text) => ((some text).filter (· ≠ [])).toList.map (ConversationProjection.text role)
      | _ => ((item.field "output_text").filter (· ≠ [])).toList.map (ConversationProjection.text role) := by
  split
  · rename_i parts hcontent
    rw [MessageParts.entries, values_reconcileContent hcontent, List.map_filterMap]
    rfl
  · rename_i shown hcontent
    simp only [MessageParts.reconcileContent, hcontent]
    exact entries_reconcile_empty role shown
  · rename_i harr hstr
    rw [reconcileContent_other]
    · cases item.field "output_text" with
      | none => simp [MessageParts.entries]
      | some shown => exact entries_reconcile_empty role shown
    · intro content hcontent
      cases content with
      | arr parts => exact absurd hcontent (harr parts)
      | str shown => exact absurd hcontent (hstr shown)
      | _ => exact ⟨rfl, rfl⟩

private theorem toList_map_text_eq_iff {role role' : EntryRole} {hasRole : Bool} (hrole : hasRole = true ↔ role' = role)
    (reported replayed : Option Str) :
    reported.toList.map (ConversationProjection.text role') = (replayed.map (ConversationProjection.text role)).toList ↔
      replayed = reported ∧ (hasRole = true ∨ replayed = none) := by
  rw [← map_text_eq_iff hrole]
  cases reported <;> cases replayed <;> simp

/-- What a reported message and a replayed message project to, in the roles they give the item. -/
theorem message_eq_iff {item : Json} {role role' : EntryRole} {hasRole : Bool} (hrole : hasRole = true ↔ role' = role)
    (hitem : ((item.field "role").map ConversationProjection.role).getD .unknown = role) :
    (MessageParts.reconcileContent ∅ item).entries role' = messageEntries item .unknown ↔
      match item.get "content" with
      | some (.arr parts) => ∀ part ∈ parts, PartReplays hasRole part
      | some (.str text) => hasRole = true ∧ text ≠ []
      | _ => visibleText item = (item.field "output_text").filter (· ≠ []) ∧ (hasRole = true ∨ visibleText item = none) := by
  rw [entries_reconcileContent]
  simp only [messageEntries, hitem]
  cases hcontent : item.get "content" with
  | none => exact toList_map_text_eq_iff hrole _ _
  | some content =>
    cases content with
    | arr parts =>
      simp only [contentEntries]
      rw [filterMap_eq_iff blankWeight (fun part _ => blankWeight_le role role' part)
        (fun part _ entry => blank_of_reported_only)]
      simp only [reportedPart_eq_iff hrole]
    | str shown =>
      simp only [contentEntries]
      by_cases hempty : shown = [] <;> simp [hempty, ConversationProjection.text, hrole, Option.filter]
    | null => exact toList_map_text_eq_iff hrole _ _
    | bool => exact toList_map_text_eq_iff hrole _ _
    | num => exact toList_map_text_eq_iff hrole _ _
    | obj => exact toList_map_text_eq_iff hrole _ _

private theorem itemId_partEntry {part : Json} {role : EntryRole} {e : ConversationEntry}
    (h : partEntry part role = some e) : e.itemId = none := by
  obtain ⟨text, rfl⟩ | hstr := eq_str_or_asStr part
  · obtain rfl := Option.some.inj h
    rfl
  rw [partEntry_table hstr] at h
  split at h
  · obtain rfl := Option.some.inj h
    rfl
  · split at h
    · obtain rfl := Option.some.inj h
      rfl
    · obtain ⟨_, _, rfl⟩ := Option.map_eq_some_iff.mp h
      rfl

private theorem itemId_messageEntries {item : Json} {role : EntryRole} : ∀ e ∈ messageEntries item role, e.itemId = none := by
  intro e he
  unfold messageEntries at he
  split at he
  · obtain rfl := List.mem_singleton.mp he
    rfl
  · obtain ⟨part, _, hpart⟩ := List.mem_filterMap.mp he
    exact itemId_partEntry hpart
  · obtain ⟨_, _, rfl⟩ := Option.map_eq_some_iff.mp (Option.mem_toList.mp he)
    rfl

private theorem itemId_entries {parts : MessageParts} {role : EntryRole} : ∀ e ∈ parts.entries role, e.itemId = none := by
  intro e he
  obtain ⟨part, _, rfl⟩ := List.mem_map.mp he
  cases part <;> rfl

/-- The item-to-role table of a request. -/
theorem itemEntries_table {item : Json} (h : item.asStr = none) (role : EntryRole) :
    itemEntries item role = ConversationProjection.identify
      (if item.kind = some (lit "reasoning") then
        [ConversationProjection.text .reasoning ((reasoningText item).getD [])]
      else if item.kind.any (endsWith · (lit "_call")) then [callEntry item]
      else if item.kind.any (endsWith · (lit "_output")) then [outputEntry item]
      else messageEntries item role) (item.field "id") := by
  cases item <;> first | rfl | cases h

theorem reportedEntries_singleton (item : Json) : reportedEntries [item] = (itemSlot item).entries := by
  have hwhole : reportedEntries [item] = [item].flatMap (fun item => (itemSlot item).entries) :=
    entries_whole (by simp [Json.field]) (by simp) false
  rw [hwhole, List.flatMap_singleton]

theorem replayedEntries_singleton (item : Json) :
    replayedEntries [item] = itemEntries item (if item.asStr.isSome then .user else .unknown) := by
  rw [replayedEntries_flatMap, List.flatMap_singleton]

/-- Reported output items against replayed input items, item by item. -/
theorem reported_eq_replayed_iff (output : List Json) :
    reportedEntries output = output.flatMap (fun item => reportedEntries [item]) ∧
      replayedEntries output = output.flatMap (fun item => replayedEntries [item]) ∧
      ∀ item ∈ output, reportedEntries [item] = replayedEntries [item] ↔ ItemReplays item := by
  refine ⟨reportedEntries_eq output, replayedEntries_eq output, fun item _ => ?_⟩
  rw [reportedEntries_singleton, replayedEntries_singleton, entries_itemSlot]
  obtain ⟨text, rfl⟩ | hstr := eq_str_or_asStr item
  · have hnone (key : String) : (Json.str text).field key = none := rfl
    simp [Json.kind, hnone, ItemReplays, itemEntries, entries_reconcileContent, Json.get, ConversationProjection.identify]
  rw [hstr, itemEntries_table hstr]
  have hreplays : ItemReplays item ↔
      if item.kind = some (lit "reasoning") ∨ item.kind.any (endsWith · (lit "_call")) ∨
          item.kind.any (endsWith · (lit "_output")) then True
      else
        match item.get "content" with
        | some (.arr parts) => ∀ part ∈ parts, PartReplays (item.field "role").isSome part
        | some (.str text) => (item.field "role").isSome = true ∧ text ≠ []
        | _ => visibleText item = (item.field "output_text").filter (· ≠ []) ∧
            ((item.field "role").isSome = true ∨ visibleText item = none) := by
    cases item <;> first | rfl | cases hstr
  rw [hreplays]
  by_cases hreasoning : item.kind = some (lit "reasoning")
  · simp [hreasoning]
  by_cases hcall : item.kind.any (endsWith · (lit "_call")) = true
  · simp [hreasoning, hcall]
  by_cases houtput : item.kind.any (endsWith · (lit "_output")) = true
  · simp [hreasoning, hcall, houtput]
  simp only [hreasoning, hcall, houtput, Bool.false_eq_true, if_false, or_self, Option.isSome_none]
  rw [identify_cancel itemId_entries itemId_messageEntries]
  apply message_eq_iff _ rfl
  cases item.field "role" <;> simp

/-- An assistant message with an empty text part is reported without an entry and replayed with one. -/
theorem empty_text_part_mismatch :
    reportedEntries [.obj [(lit "type", .str (lit "message")), (lit "role", .str (lit "assistant")),
      (lit "content", .arr [.obj [(lit "type", .str (lit "output_text")), (lit "text", .str [])]])]] ≠
    replayedEntries [.obj [(lit "type", .str (lit "message")), (lit "role", .str (lit "assistant")),
      (lit "content", .arr [.obj [(lit "type", .str (lit "output_text")), (lit "text", .str [])]])]] := by
  decide +kernel

end Items

end Abyss.AgentHook.OpenAi
