import Abyss.AgentHook.Anthropic.Usage

/-! Usage records that are spread over the events of a response: every counter keeps its latest value. -/
namespace Abyss.AgentHook.Anthropic
open Text

section Positions

/-- No object inside the value reports a counter. -/
def Quiet (value : Json) : Prop := ∀ depth, usageSearch.found depth value = []

/-- A usage object: the only counter inside its members is the one of its output details that is read in place. -/
def IsUsage (usage : Json) : Prop :=
  ∃ members, usage = .obj members ∧ ∀ m ∈ members, Quiet m.2 ∨
    ∃ details, m.2 = .obj details ∧ (∀ n ∈ details, Quiet n.2) ∧ usage.get "output_tokens_details" = some m.2 ∧
      reported m.2 = { reasoning := intField m.2 "thinking_tokens" }

/-- An object that holds usage as its `usage` member only, or under the other names as it is said. -/
def HoldsUsage (other : Str → Json → Prop) (value : Json) : Prop :=
  ∃ members, value = .obj members ∧ reported value = {} ∧
    ∀ m ∈ members, Quiet m.2 ∨ (m.1 = lit "usage" ∧ IsUsage m.2) ∨ (m.1 ≠ lit "usage" ∧ other m.1 m.2)

def IsMessage (message : Json) : Prop := HoldsUsage (fun _ _ => False) message

/-- A response document whose usage objects occur only at the provider's positions, `usage` and `message.usage`. -/
def AtPositions (document : Json) : Prop :=
  HoldsUsage (fun name value => name = lit "message" ∧ IsMessage value) document

def memberUsage : Json → List Json
  | .obj members => members.flatMap (fun m => if m.1 = lit "usage" then [m.2] else [])
  | _ => []

/-- The usage objects of a document, in its order. -/
def usageObjects : Json → List Json
  | .obj members => members.flatMap (fun m =>
    if m.1 = lit "usage" then [m.2] else if m.1 = lit "message" then memberUsage m.2 else [])
  | _ => []

end Positions

section Fields

/-- The fields that the counters of a usage object are read from. -/
inductive UsageField where
  | inputTokens
  | outputTokens
  | cacheReadInputTokens
  | cacheCreationInputTokens
  | inputDetailsCachedTokens
  | inputDetailsCacheCreationTokens
  | outputDetailsThinkingTokens
  | thinkingTokens
  | reasoningTokens

/-- The valid value of a field. -/
def UsageField.read : UsageField → Json → Option Int64
  | .inputTokens, usage => intField usage "input_tokens"
  | .outputTokens, usage => intField usage "output_tokens"
  | .cacheReadInputTokens, usage => intField usage "cache_read_input_tokens"
  | .cacheCreationInputTokens, usage => intField usage "cache_creation_input_tokens"
  | .inputDetailsCachedTokens, usage => nestedIntField usage "input_tokens_details" "cached_tokens"
  | .inputDetailsCacheCreationTokens, usage => nestedIntField usage "input_tokens_details" "cache_creation_tokens"
  | .outputDetailsThinkingTokens, usage => nestedIntField usage "output_tokens_details" "thinking_tokens"
  | .thinkingTokens, usage => intField usage "thinking_tokens"
  | .reasoningTokens, usage => intField usage "reasoning_tokens"

/-- The reasoning counter, which three fields may report. -/
def readReasoning (usage : Json) : Option Int64 :=
  (UsageField.outputDetailsThinkingTokens.read usage).or
    ((UsageField.thinkingTokens.read usage).or (UsageField.reasoningTokens.read usage))

def reasoningFields : List UsageField := [.outputDetailsThinkingTokens, .thinkingTokens, .reasoningTokens]

/-- The latest value that some usage objects report. -/
def latest (read : Json → Option Int64) (usages : List Json) : Option Int64 := (usages.filterMap read).getLast?

/-- The parts report fields of the record, each of its fields at least once. -/
structure Splits (parts : List Json) (record : Json) : Prop where
  part : ∀ part ∈ parts, ∀ field : UsageField, field.read part = none ∨ field.read part = field.read record
  whole : ∀ (field : UsageField) (value : Int64), field.read record = some value → ∃ part ∈ parts, field.read part = some value

/-- The record reports no two values for its reasoning. -/
def OneReasoning (record : Json) : Prop :=
  ∀ field ∈ reasoningFields, ∀ other ∈ reasoningFields, ∀ value value' : Int64,
    field.read record = some value → other.read record = some value' → value = value'

end Fields

section Merge
open UsageCounters

theorem reported_eq (usage : Json) : reported usage =
    ⟨UsageField.inputTokens.read usage, UsageField.outputTokens.read usage, UsageField.cacheReadInputTokens.read usage,
      UsageField.cacheCreationInputTokens.read usage, UsageField.inputDetailsCachedTokens.read usage,
      UsageField.inputDetailsCacheCreationTokens.read usage, readReasoning usage⟩ := by
  simp [reported, apply, readReasoning, UsageField.read]

theorem latest_concat (read : Json → Option Int64) (usages : List Json) (usage : Json) :
    latest read (usages ++ [usage]) = (read usage).or (latest read usages) := by
  rw [latest, List.filterMap_append]
  cases hread : read usage with
  | none =>
    rw [List.filterMap_cons_none hread, List.filterMap_nil, List.append_nil, Option.none_or, latest]
  | some value =>
    rw [List.filterMap_cons_some hread, List.filterMap_nil, List.getLast?_concat]
    rfl

/-- Merging keeps the latest value of each counter. -/
theorem foldl_reported (usages : List Json) :
    (usages.map reported).foldl merge {} =
      ⟨latest UsageField.inputTokens.read usages, latest UsageField.outputTokens.read usages,
        latest UsageField.cacheReadInputTokens.read usages, latest UsageField.cacheCreationInputTokens.read usages,
        latest UsageField.inputDetailsCachedTokens.read usages, latest UsageField.inputDetailsCacheCreationTokens.read usages,
        latest readReasoning usages⟩ := by
  induction usages using List.reverseRecOn with
  | nil => rfl
  | append_singleton usages usage ih =>
    rw [List.map_append, List.foldl_append, ih, List.map_cons, List.map_nil, List.foldl_cons, List.foldl_nil, reported_eq]
    simp only [merge, latest_concat]

end Merge

/-! The search finds the usage objects of a document, in its order. -/
section Search
open UsageCounters

variable {value : Json} {counters : UsageCounters} {depth : Nat}

theorem Quiet.member {members : List (Str × Json)} (h : Quiet (.obj members)) : ∀ m ∈ members, Quiet m.2 := by
  intro m hm depth
  have hfound := h (depth + 1)
  rw [ObjectSearch.found_obj, List.append_eq_nil_iff] at hfound
  exact List.flatMap_eq_nil_iff.mp hfound.2 m hm

theorem Quiet.reported (h : Quiet value) : reported value = {} := by
  cases value with
  | obj members =>
    have hfound := h 1
    rw [ObjectSearch.found_obj, List.append_eq_nil_iff] at hfound
    have hread : (if Anthropic.reported (.obj members) = {} then [] else [Anthropic.reported (.obj members)]) = [] := hfound.1
    split at hread
    · assumption
    · cases hread
  | null => rfl
  | bool b => rfl
  | num n => rfl
  | str text => rfl
  | arr items => rfl

theorem read_of_none (h : reported value = {}) : usageSearch.read value = [] := if_pos h

theorem foldl_unchanged {reports : List UsageCounters} (h : ∀ report ∈ reports, counters.merge report = counters) :
    reports.foldl merge counters = counters := by
  induction reports with
  | nil => rfl
  | cons report reports ih =>
    rw [List.foldl_cons, h report List.mem_cons_self]
    exact ih (fun r hr => h r (List.mem_cons_of_mem _ hr))

/-- A usage object is found once: the thinking tokens inside its output details are its own. -/
theorem foldl_usage (h : IsUsage value) (depth : Nat) (counters : UsageCounters) :
    (usageSearch.found (depth + 2) value).foldl merge counters = counters.merge (reported value) := by
  obtain ⟨members, rfl, hmembers⟩ := h
  rw [ObjectSearch.found_obj, List.foldl_append, foldl_read, apply_eq]
  refine foldl_unchanged ?_
  intro report hreport
  obtain ⟨m, hm, hfound⟩ := List.mem_flatMap.mp hreport
  obtain hquiet | ⟨details, hdetails, hinside, hget, hreported⟩ := hmembers m hm
  · rw [hquiet] at hfound
    cases hfound
  · have hnone : details.flatMap (fun n => usageSearch.found depth n.2) = [] :=
      List.flatMap_eq_nil_iff.mpr (fun n hn => hinside n hn depth)
    rw [hdetails, ObjectSearch.found_obj, hnone, List.append_nil] at hfound
    change report ∈ (if Anthropic.reported _ = {} then [] else [Anthropic.reported _]) at hfound
    rw [← hdetails] at hfound
    split at hfound
    · cases hfound
    obtain rfl := List.mem_singleton.mp hfound
    have hthinking : nestedIntField (.obj members) "output_tokens_details" "thinking_tokens" = intField m.2 "thinking_tokens" := by
      rw [nestedIntField, hget]
      rfl
    rw [hreported]
    cases hvalue : intField m.2 "thinking_tokens" with
    | none => exact merge_none _
    | some value =>
      have hreasoning : (Anthropic.reported (.obj members)).reasoning = some value := by
        have hfield : UsageField.outputDetailsThinkingTokens.read (.obj members) = some value := hthinking.trans hvalue
        rw [reported_eq, readReasoning, hfield]
        rfl
      refine UsageCounters.ext rfl rfl rfl rfl rfl rfl ?_
      change (some value).or ((Anthropic.reported (.obj members)).reasoning.or counters.reasoning) =
        (Anthropic.reported (.obj members)).reasoning.or counters.reasoning
      rw [hreasoning]
      rfl

/-- Members that are found to report what some usage objects report. -/
theorem foldl_members {members : List (Str × Json)} {usages : Str × Json → List Json}
    (h : ∀ m ∈ members, ∀ counters, (usageSearch.found depth m.2).foldl merge counters =
      ((usages m).map reported).foldl merge counters) (counters : UsageCounters) :
    (members.flatMap (fun m => usageSearch.found depth m.2)).foldl merge counters =
      ((members.flatMap usages).map reported).foldl merge counters := by
  induction members generalizing counters with
  | nil => rfl
  | cons m members ih =>
    rw [List.flatMap_cons, List.foldl_append, h m List.mem_cons_self, List.flatMap_cons, List.map_append, List.foldl_append,
      ih (fun n hn => h n (List.mem_cons_of_mem _ hn))]

theorem foldl_quiet (h : Quiet value) (counters : UsageCounters) :
    (usageSearch.found depth value).foldl merge counters = ([value].map reported).foldl merge counters := by
  rw [h, List.map_singleton, h.reported, List.foldl_cons, merge_none]

theorem foldl_usageMember (h : IsUsage value) (depth : Nat) (counters : UsageCounters) :
    (usageSearch.found (depth + 2) value).foldl merge counters = ([value].map reported).foldl merge counters := by
  rw [foldl_usage h, List.map_singleton, List.foldl_cons, List.foldl_nil]

/-- The search in an object whose own members are not counters. -/
theorem foldl_holds {other : Str → Json → Prop} {usages : Str × Json → List Json} (h : HoldsUsage other value)
    (husage : ∀ m : Str × Json, m.1 = lit "usage" → usages m = [m.2])
    (hquiet : ∀ m : Str × Json, m.1 ≠ lit "usage" → Quiet m.2 → ∀ usage ∈ usages m, reported usage = {})
    (hother : ∀ m : Str × Json, m.1 ≠ lit "usage" → other m.1 m.2 → ∀ counters,
      (usageSearch.found (depth + 2) m.2).foldl merge counters = ((usages m).map reported).foldl merge counters)
    (counters : UsageCounters) :
    ∃ members, value = .obj members ∧ (usageSearch.found (depth + 3) value).foldl merge counters =
      ((members.flatMap usages).map reported).foldl merge counters := by
  obtain ⟨members, rfl, hreported, hmembers⟩ := h
  refine ⟨members, rfl, ?_⟩
  rw [ObjectSearch.found_obj, read_of_none hreported, List.nil_append]
  refine foldl_members ?_ counters
  intro m hm counters
  obtain hmember | ⟨hname, hmember⟩ | ⟨hname, hmember⟩ := hmembers m hm
  · by_cases hname : m.1 = lit "usage"
    · rw [husage m hname]
      exact foldl_quiet hmember counters
    · rw [hmember]
      refine (foldl_unchanged ?_).symm
      intro report hreport
      obtain ⟨usage, hmem, rfl⟩ := List.mem_map.mp hreport
      rw [hquiet m hname hmember usage hmem, merge_none]
  · rw [husage m hname]
    exact foldl_usageMember hmember depth counters
  · exact hother m hname hmember counters

theorem foldl_message (h : IsMessage value) (depth : Nat) (counters : UsageCounters) :
    (usageSearch.found (depth + 3) value).foldl merge counters = ((memberUsage value).map reported).foldl merge counters := by
  obtain ⟨members, rfl, hfold⟩ := @foldl_holds value depth (fun _ _ => False)
    (fun m => if m.1 = lit "usage" then [m.2] else []) h (fun m hname => if_pos hname)
    (fun m hname _ usage hmem => by rw [if_neg hname] at hmem; cases hmem) (fun m _ hfalse => hfalse.elim) counters
  exact hfold

theorem reported_memberUsage (h : Quiet value) : ∀ usage ∈ memberUsage value, reported usage = {} := by
  intro usage husage
  cases value with
  | obj members =>
    obtain ⟨m, hm, hmem⟩ := List.mem_flatMap.mp husage
    split at hmem
    · obtain rfl := List.mem_singleton.mp hmem
      exact (h.member m hm).reported
    · cases hmem
  | null => cases husage
  | bool b => cases husage
  | num n => cases husage
  | str text => cases husage
  | arr items => cases husage

theorem foldl_document (h : AtPositions value) (counters : UsageCounters) :
    (usageSearch.found maxParseDepth value).foldl merge counters = ((usageObjects value).map reported).foldl merge counters := by
  have hquiet : ∀ m : Str × Json, m.1 ≠ lit "usage" → Quiet m.2 → ∀ usage ∈
      (if m.1 = lit "usage" then [m.2] else if m.1 = lit "message" then memberUsage m.2 else []), reported usage = {} := by
    intro m hne hquiet usage hmem
    rw [if_neg hne] at hmem
    split at hmem
    · exact reported_memberUsage hquiet usage hmem
    · cases hmem
  obtain ⟨members, rfl, hfold⟩ := @foldl_holds value 9 (fun name value => name = lit "message" ∧ IsMessage value)
    (fun m => if m.1 = lit "usage" then [m.2] else if m.1 = lit "message" then memberUsage m.2 else []) h
    (fun m hname => if_pos hname) hquiet
    (fun m hne hmessage counters => by
      rw [if_neg hne, if_pos hmessage.1]
      exact foldl_message hmessage.2 8 counters) counters
  exact hfold

/-- The counters of a response are the latest ones of its usage objects. -/
theorem counters_eq {documents : List Json} (h : ∀ document ∈ documents, AtPositions document) :
    Anthropic.counters documents = ((documents.flatMap usageObjects).map reported).foldl merge {} := by
  rw [Anthropic.counters]
  generalize ({} : UsageCounters) = counters
  induction documents generalizing counters with
  | nil => rfl
  | cons document documents ih =>
    rw [List.flatMap_cons, List.foldl_append, foldl_document (h document List.mem_cons_self), List.flatMap_cons,
      List.map_append, List.foldl_append, ih (fun d hd => h d (List.mem_cons_of_mem _ hd))]

end Search

/-! A record that is spread over several usage objects. -/
section Split

variable {parts : List Json} {record : Json}

/-- Values that are all one are the latest. -/
theorem latest_split {read : Json → Option Int64} {value : Option Int64}
    (hpart : ∀ part ∈ parts, read part = none ∨ read part = value)
    (hwhole : ∀ n, value = some n → ∃ part ∈ parts, read part = some n) : latest read parts = value := by
  have hall : ∀ n ∈ parts.filterMap read, value = some n := by
    intro n hn
    obtain ⟨part, hmem, hread⟩ := List.mem_filterMap.mp hn
    obtain hnone | hsame := hpart part hmem
    · rw [hnone] at hread
      cases hread
    · exact hsame.symm.trans hread
  rw [latest]
  cases hlast : (parts.filterMap read).getLast? with
  | some n => exact (hall n (List.mem_of_getLast? hlast)).symm
  | none =>
    cases value with
    | none => rfl
    | some n =>
      obtain ⟨part, hmem, hread⟩ := hwhole n rfl
      have hn : n ∈ parts.filterMap read := List.mem_filterMap.mpr ⟨part, hmem, hread⟩
      rw [List.getLast?_eq_none_iff.mp hlast] at hn
      cases hn

theorem latest_field (h : Splits parts record) (field : UsageField) : latest field.read parts = field.read record :=
  latest_split (fun part hmem => h.part part hmem field) (fun n hn => h.whole field n hn)

theorem readReasoning_some {usage : Json} {n : Int64} (h : readReasoning usage = some n) :
    ∃ field ∈ reasoningFields, field.read usage = some n := by
  rw [readReasoning, Option.or_eq_some_iff, Option.or_eq_some_iff] at h
  obtain h | ⟨-, h | ⟨-, h⟩⟩ := h
  · exact ⟨.outputDetailsThinkingTokens, by simp [reasoningFields], h⟩
  · exact ⟨.thinkingTokens, by simp [reasoningFields], h⟩
  · exact ⟨.reasoningTokens, by simp [reasoningFields], h⟩

theorem readReasoning_isSome {usage : Json} {field : UsageField} (hfield : field ∈ reasoningFields) {n : Int64}
    (h : field.read usage = some n) : ∃ m, readReasoning usage = some m := by
  cases hreasoning : readReasoning usage with
  | some m => exact ⟨m, rfl⟩
  | none =>
    rw [readReasoning, Option.or_eq_none_iff, Option.or_eq_none_iff] at hreasoning
    simp only [reasoningFields, List.mem_cons, List.not_mem_nil, or_false] at hfield
    obtain rfl | rfl | rfl := hfield
    · rw [hreasoning.1] at h
      cases h
    · rw [hreasoning.2.1] at h
      cases h
    · rw [hreasoning.2.2] at h
      cases h

/-- Every reasoning value of the record is its reasoning. -/
theorem readReasoning_record (h : OneReasoning record) {field : UsageField} (hfield : field ∈ reasoningFields) {n : Int64}
    (hread : field.read record = some n) : readReasoning record = some n := by
  obtain ⟨m, hm⟩ := readReasoning_isSome hfield hread
  obtain ⟨other, hother, hvalue⟩ := readReasoning_some hm
  rw [hm, h field hfield other hother n m hread hvalue]

theorem latest_reasoning (h : Splits parts record) (hone : OneReasoning record) :
    latest readReasoning parts = readReasoning record := by
  have hpart : ∀ part ∈ parts, ∀ n, readReasoning part = some n → readReasoning record = some n := by
    intro part hmem n hn
    obtain ⟨field, hfield, hread⟩ := readReasoning_some hn
    obtain hnone | hsame := h.part part hmem field
    · rw [hnone] at hread
      cases hread
    · exact readReasoning_record hone hfield (hsame.symm.trans hread)
  refine latest_split ?_ ?_
  · intro part hmem
    cases hn : readReasoning part with
    | none => exact .inl rfl
    | some n => exact .inr (hpart part hmem n hn).symm
  · intro n hn
    obtain ⟨field, hfield, hread⟩ := readReasoning_some hn
    obtain ⟨part, hmem, hvalue⟩ := h.whole field n hread
    obtain ⟨m, hm⟩ := readReasoning_isSome hfield hvalue
    refine ⟨part, hmem, ?_⟩
    rw [hm, ← hpart part hmem m hm, hn]

/-- The usage of a response is the partition of its merged record, every counter of which is its latest valid value; a
record with one reasoning value gives the same usage however it is spread over the events. -/
theorem usage_latest {documents : List Json} (h : ∀ document ∈ documents, AtPositions document) :
    let usages := documents.flatMap usageObjects
    counters documents =
      ⟨latest UsageField.inputTokens.read usages, latest UsageField.outputTokens.read usages,
        latest UsageField.cacheReadInputTokens.read usages, latest UsageField.cacheCreationInputTokens.read usages,
        latest UsageField.inputDetailsCachedTokens.read usages, latest UsageField.inputDetailsCacheCreationTokens.read usages,
        latest readReasoning usages⟩ ∧
    bestUsage documents =
      (if (counters documents).intoUsage.isEmpty then none else some (counters documents).intoUsage) ∧
    ∀ record complete, AtPositions complete → usageObjects complete = [record] → OneReasoning record →
      Splits usages record → bestUsage documents = bestUsage [complete] := by
  intro usages
  refine ⟨(counters_eq h).trans (foldl_reported usages), bestUsage_eq documents, ?_⟩
  intro record complete hcomplete hrecord hone hsplits
  have hsame : counters documents = counters [complete] := by
    have hwhole : ∀ d ∈ [complete], AtPositions d := fun d hd => List.mem_singleton.mp hd ▸ hcomplete
    rw [counters_eq h, foldl_reported, counters_eq hwhole, List.flatMap_singleton, hrecord, List.map_singleton,
      List.foldl_cons, List.foldl_nil, UsageCounters.none_merge, reported_eq]
    change UsageCounters.mk _ _ _ _ _ _ _ = _
    rw [latest_field hsplits, latest_field hsplits, latest_field hsplits, latest_field hsplits, latest_field hsplits,
      latest_field hsplits, latest_reasoning hsplits hone]
  rw [bestUsage_eq, bestUsage_eq, hsame]

/-- A usage object of two counters. -/
def counterObject (members : List (String × UInt64)) : Json := .obj (members.map (fun m => (lit m.1, .num (.posInt m.2))))

def usageEvent (members : List (String × UInt64)) : Json := .obj [(lit "usage", counterObject members)]

private theorem quiet_number (n : UInt64) : Quiet (.num (.posInt n)) := by
  intro depth
  cases depth <;> rfl

private theorem atPositions_usageEvent (members : List (String × UInt64)) : AtPositions (usageEvent members) := by
  refine ⟨_, rfl, ?_, ?_⟩
  · simp [reported_eq, UsageField.read, readReasoning, usageEvent, intField, nestedIntField]
  · intro m hm
    obtain rfl := List.mem_singleton.mp hm
    refine .inr (.inl ⟨rfl, _, rfl, ?_⟩)
    intro n hn
    obtain ⟨member, -, rfl⟩ := List.mem_map.mp hn
    exact .inl (quiet_number _)

private theorem usageObjects_usageEvent (members : List (String × UInt64)) :
    usageObjects (usageEvent members) = [counterObject members] := by
  simp [usageObjects, usageEvent]

/-- One record in two events. -/
theorem split_sample :
    bestUsage [usageEvent [("input_tokens", 5)], usageEvent [("output_tokens", 2)]] =
      bestUsage [usageEvent [("input_tokens", 5), ("output_tokens", 2)]] := by
  have hpositions : ∀ document ∈ [usageEvent [("input_tokens", 5)], usageEvent [("output_tokens", 2)]],
      AtPositions document := by
    intro document hmem
    simp only [List.mem_cons, List.not_mem_nil, or_false] at hmem
    obtain rfl | rfl := hmem
    · exact atPositions_usageEvent _
    · exact atPositions_usageEvent _
  refine (usage_latest hpositions).2.2 _ _ (atPositions_usageEvent _) (usageObjects_usageEvent _) ?_ ?_
  · intro field hfield other _ n m hn
    simp only [reasoningFields, List.mem_cons, List.not_mem_nil, or_false] at hfield
    obtain rfl | rfl | rfl := hfield <;>
      simp [UsageField.read, counterObject, intField, nestedIntField] at hn
  · simp only [List.flatMap_cons, List.flatMap_nil, usageObjects_usageEvent]
    constructor
    · intro part hpart field
      simp only [List.singleton_append, List.append_nil, List.mem_cons, List.not_mem_nil, or_false] at hpart
      obtain rfl | rfl := hpart <;> cases field <;>
        simp [UsageField.read, counterObject, intField, nestedIntField]
    · intro field n hn
      cases field <;> simp [UsageField.read, counterObject, intField, nestedIntField] at hn ⊢ <;> exact hn

theorem split_reasoning_differs :
    ¬ ∀ documents : List Json, (∀ document ∈ documents, AtPositions document) → ∀ record complete, AtPositions complete →
      usageObjects complete = [record] → Splits (documents.flatMap usageObjects) record →
        bestUsage documents = bestUsage [complete] := by
  intro h
  have hpositions : ∀ document ∈ [usageEvent [("thinking_tokens", 1)], usageEvent [("reasoning_tokens", 2)]],
      AtPositions document := by
    intro document hmem
    simp only [List.mem_cons, List.not_mem_nil, or_false] at hmem
    obtain rfl | rfl := hmem
    · exact atPositions_usageEvent _
    · exact atPositions_usageEvent _
  have hwhole : ∀ document ∈ [usageEvent [("thinking_tokens", 1), ("reasoning_tokens", 2)]], AtPositions document :=
    fun document hmem => List.mem_singleton.mp hmem ▸ atPositions_usageEvent _
  have hsame := h _ hpositions _ _ (atPositions_usageEvent [("thinking_tokens", 1), ("reasoning_tokens", 2)])
    (usageObjects_usageEvent _) ?_
  · have hone : (Json.num (.posInt 1)).asI64 = some 1 := rfl
    have htwo : (Json.num (.posInt 2)).asI64 = some 2 := rfl
    have hparts : counters [usageEvent [("thinking_tokens", 1)], usageEvent [("reasoning_tokens", 2)]] =
        { reasoning := some 2 } := by
      rw [counters_eq hpositions, List.flatMap_cons, List.flatMap_cons, usageObjects_usageEvent, usageObjects_usageEvent]
      simp [reported_eq, UsageField.read, readReasoning, counterObject, intField, nestedIntField, UsageCounters.merge, hone,
        htwo]
    have hcomplete : counters [usageEvent [("thinking_tokens", 1), ("reasoning_tokens", 2)]] = { reasoning := some 1 } := by
      rw [counters_eq hwhole, List.flatMap_cons, usageObjects_usageEvent]
      simp [reported_eq, UsageField.read, readReasoning, counterObject, intField, nestedIntField, hone, htwo]
    rw [bestUsage_eq, bestUsage_eq, hparts, hcomplete] at hsame
    exact absurd hsame (by decide)
  · simp only [List.flatMap_cons, List.flatMap_nil, usageObjects_usageEvent]
    constructor
    · intro part hpart field
      simp only [List.singleton_append, List.append_nil, List.mem_cons, List.not_mem_nil, or_false] at hpart
      obtain rfl | rfl := hpart <;> cases field <;>
        simp [UsageField.read, counterObject, intField, nestedIntField]
    · intro field n hn
      cases field <;> simp [UsageField.read, counterObject, intField, nestedIntField] at hn ⊢ <;> exact hn

end Split
end Abyss.AgentHook.Anthropic
