import Abyss.AgentHook.TokenUsage
import Abyss.Text.JsonSearch

/-! Anthropic token accounting. -/
namespace Abyss.AgentHook.Anthropic
open Abyss.Text

/-- Cumulative counters: the latest reported value of each field, including zero. -/
@[ext]
structure UsageCounters where
  input : Option Int64 := none
  output : Option Int64 := none
  nativeCacheRead : Option Int64 := none
  nativeCacheWrite : Option Int64 := none
  detailCacheRead : Option Int64 := none
  detailCacheWrite : Option Int64 := none
  reasoning : Option Int64 := none
  deriving DecidableEq

namespace UsageCounters

def apply (counters : UsageCounters) (object : Json) : UsageCounters where
  input := (intField object "input_tokens").or counters.input
  output := (intField object "output_tokens").or counters.output
  nativeCacheRead := (intField object "cache_read_input_tokens").or counters.nativeCacheRead
  nativeCacheWrite := (intField object "cache_creation_input_tokens").or counters.nativeCacheWrite
  detailCacheRead := (nestedIntField object "input_tokens_details" "cached_tokens").or counters.detailCacheRead
  detailCacheWrite := (nestedIntField object "input_tokens_details" "cache_creation_tokens").or
    counters.detailCacheWrite
  reasoning := (nestedIntField object "output_tokens_details" "thinking_tokens").or
    ((intField object "thinking_tokens").or ((intField object "reasoning_tokens").or counters.reasoning))

def visit : Nat → Json → UsageCounters → UsageCounters
  | 0, _, counters => counters
  | depth + 1, .obj members, counters =>
    members.foldl (fun counters m => visit depth m.2 counters) (counters.apply (.obj members))
  | depth + 1, .arr items, counters => items.foldl (fun counters item => visit depth item counters) counters
  | _ + 1, _, counters => counters

/-- Native cache counters are outside the input; those of compatible details are part of it. -/
def intoUsage (counters : UsageCounters) : TokenUsage :=
  let detailCacheRead := if counters.nativeCacheRead.isNone then counters.detailCacheRead.getD 0 else 0
  let detailCacheWrite := if counters.nativeCacheWrite.isNone then counters.detailCacheWrite.getD 0 else 0
  TokenUsage.fromParts
    (max (saturatingSub (saturatingSub (counters.input.getD 0) detailCacheRead) detailCacheWrite) 0)
    (counters.nativeCacheRead.getD detailCacheRead)
    (counters.nativeCacheWrite.getD detailCacheWrite)
    (counters.output.getD 0)
    (counters.reasoning.getD 0)

end UsageCounters

def bestUsage (values : List Json) : Option TokenUsage :=
  let usage := (values.foldl (fun counters value => UsageCounters.visit maxParseDepth value counters) {}).intoUsage
  if usage.isEmpty then none else some usage

namespace UsageCounters

/-- Counters with later ones reported on top. -/
def merge (counters later : UsageCounters) : UsageCounters where
  input := later.input.or counters.input
  output := later.output.or counters.output
  nativeCacheRead := later.nativeCacheRead.or counters.nativeCacheRead
  nativeCacheWrite := later.nativeCacheWrite.or counters.nativeCacheWrite
  detailCacheRead := later.detailCacheRead.or counters.detailCacheRead
  detailCacheWrite := later.detailCacheWrite.or counters.detailCacheWrite
  reasoning := later.reasoning.or counters.reasoning

@[simp] theorem merge_none (counters : UsageCounters) : counters.merge {} = counters := rfl

@[simp] theorem none_merge (counters : UsageCounters) : ({} : UsageCounters).merge counters = counters := by
  simp [merge]

theorem merge_assoc (a b c : UsageCounters) : (a.merge b).merge c = a.merge (b.merge c) := by
  simp [merge, Option.or_assoc]

theorem foldl_merge (counters : UsageCounters) (reports : List UsageCounters) :
    reports.foldl merge counters = counters.merge (reports.foldl merge {}) := by
  induction reports generalizing counters with
  | nil => rfl
  | cons report reports ih => rw [List.foldl_cons, List.foldl_cons, ih, ih (merge {} report), none_merge, merge_assoc]

theorem eq_none_of_merge {counters later : UsageCounters} (h : counters.merge later = {}) : later = {} := by
  simp only [merge, mk.injEq, Option.or_eq_none_iff] at h
  apply UsageCounters.ext <;> simp only [h]

theorem apply_eq (counters : UsageCounters) (object : Json) :
    counters.apply object = counters.merge (({} : UsageCounters).apply object) := by
  simp [apply, merge, Option.or_assoc]

end UsageCounters

/-- The members that Anthropic counters are read from. -/
def usageKeys : List String :=
  ["input_tokens", "output_tokens", "cache_read_input_tokens", "cache_creation_input_tokens", "thinking_tokens",
    "reasoning_tokens", "input_tokens_details", "output_tokens_details"]

/-- The counters that an object itself reports. -/
def reported (object : Json) : UsageCounters := ({} : UsageCounters).apply object

theorem reported_congr {object object' : Json} (h : ∀ key ∈ usageKeys, object.get key = object'.get key) :
    reported object = reported object' := by
  have hint := fun key hkey => intField_congr (h key hkey)
  have hnested := fun key hkey child => nestedIntField_congr (h key hkey) child
  simp only [usageKeys, List.forall_mem_cons, List.not_mem_nil, false_implies, implies_true, and_true] at hint hnested
  simp only [reported, UsageCounters.apply, hint, hnested]

/-- The search behind `UsageCounters::visit`: the counters of every object that has some. -/
def usageSearch : ObjectSearch UsageCounters where
  keys := usageKeys
  read object := if reported object = {} then [] else [reported object]
  read_congr := by
    intro object object' h
    rw [reported_congr h]
  read_empty := rfl

theorem foldl_read (counters : UsageCounters) (object : Json) :
    (usageSearch.read object).foldl UsageCounters.merge counters = counters.apply object := by
  rw [UsageCounters.apply_eq]
  change List.foldl _ _ (if reported object = {} then [] else [reported object]) = counters.merge (reported object)
  split
  · rename_i hnone
    rw [hnone]
    rfl
  · rfl

/-- Visiting a value merges what the search finds in it. -/
theorem visit_eq (depth : Nat) (value : Json) (counters : UsageCounters) :
    counters.visit depth value = (usageSearch.found depth value).foldl UsageCounters.merge counters := by
  induction depth generalizing value counters with
  | zero => rw [ObjectSearch.found_zero, UsageCounters.visit]; rfl
  | succ depth ih =>
    cases value with
    | obj members =>
      rw [UsageCounters.visit, ObjectSearch.found_obj, List.foldl_append, foldl_read, List.foldl_flatMap]
      simp only [ih]
    | arr items =>
      rw [UsageCounters.visit, ObjectSearch.found_arr, List.foldl_flatMap]
      simp only [ih]
    | _ => rfl

/-- Counters that a search finds leave something behind. -/
theorem found_eq_nil_of_merge {depth : Nat} {value : Json}
    (h : (usageSearch.found depth value).foldl UsageCounters.merge {} = {}) : usageSearch.found depth value = [] := by
  have hsome : ∀ report ∈ usageSearch.found depth value, report ≠ {} := by
    intro report hreport
    obtain ⟨object, _, hread⟩ := List.mem_flatMap.mp hreport
    change report ∈ (if reported object = {} then [] else [reported object]) at hread
    split at hread
    · cases hread
    · rename_i hne
      rw [List.mem_singleton.mp hread]
      exact hne
  obtain hnil | ⟨reports, report, hreports⟩ := (usageSearch.found depth value).eq_nil_or_concat
  · exact hnil
  · rw [hreports, List.concat_eq_append] at h hsome
    rw [List.foldl_append, List.foldl_cons, List.foldl_nil] at h
    have hlast : report ∈ reports ++ [report] := List.mem_append_right _ List.mem_cons_self
    exact absurd (UsageCounters.eq_none_of_merge h) (hsome report hlast)

/-- The counters of a list of documents. -/
def counters (values : List Json) : UsageCounters :=
  (values.flatMap (usageSearch.found maxParseDepth)).foldl UsageCounters.merge {}

/-- What a list of documents reports depends only on what the search finds in them. -/
theorem bestUsage_eq (values : List Json) : bestUsage values =
    if (counters values).intoUsage.isEmpty then none else some (counters values).intoUsage := by
  simp only [bestUsage, counters, List.foldl_flatMap, visit_eq]

end Abyss.AgentHook.Anthropic
