import Abyss.AgentHook.Anthropic.Usage
import Abyss.AgentHook.OpenAi.Exchange
import Mathlib.Logic.Relation

/-! When the content of provider documents has no influence on the usage they report. -/
namespace Abyss.AgentHook
open Abyss.Text Abyss.Text.Json

/-- The two usage extractions. -/
inductive UsageFormat where
  | anthropic
  | openAi

namespace UsageFormat

def bestUsage : UsageFormat → List Json → Option TokenUsage
  | .anthropic => Anthropic.bestUsage
  | .openAi => OpenAi.bestUsage

/-- A place that is not part of a usage object. -/
def Outside : UsageFormat → List Step → Prop
  | .anthropic => Anthropic.usageSearch.Outside
  | .openAi => OpenAi.usageSearch.Outside

/-- No object within the value, down to a depth, reports counters. -/
def Silent : UsageFormat → Nat → Json → Prop
  | .anthropic => Anthropic.usageSearch.Silent
  | .openAi => OpenAi.usageSearch.Silent

end UsageFormat

/-- One value of the content of one document is replaced by another one. -/
inductive ContentEdit (format : UsageFormat) (content : List Step → Json → Prop) : List Json → List Json → Prop where
  | replace (before : List Json) (document : Json) (after : List Json) (path : List Step) (value value' : Json)
    (houtside : format.Outside path) (hvalue : content path value) (hvalue' : content path value') :
    ContentEdit format content (before ++ replace path document value :: after)
      (before ++ replace path document value' :: after)

section Independent

private theorem found_documents {γ : Type} (search : ObjectSearch γ) {path : List Step} (hpath : search.Outside path)
    {value value' : Json} (h : search.Silent (maxParseDepth - path.length) value)
    (h' : search.Silent (maxParseDepth - path.length) value') (before : List Json) (document : Json)
    (after : List Json) :
    (before ++ replace path document value :: after).flatMap (search.found maxParseDepth) =
      (before ++ replace path document value' :: after).flatMap (search.found maxParseDepth) := by
  have hsame : search.found (maxParseDepth - path.length) value = search.found (maxParseDepth - path.length) value' := by
    rw [search.found_eq_nil.mpr h, search.found_eq_nil.mpr h']
  simp only [List.flatMap_append, List.flatMap_cons, search.found_replace hpath hsame document]

/-- Replacing a value without counters by another one leaves the usage alone. -/
theorem bestUsage_replace (format : UsageFormat) {path : List Step} (hpath : format.Outside path) {value value' : Json}
    (h : format.Silent (maxParseDepth - path.length) value) (h' : format.Silent (maxParseDepth - path.length) value')
    (before : List Json) (document : Json) (after : List Json) :
    format.bestUsage (before ++ replace path document value :: after) =
      format.bestUsage (before ++ replace path document value' :: after) := by
  cases format with
  | anthropic =>
    change Anthropic.bestUsage _ = Anthropic.bestUsage _
    rw [Anthropic.bestUsage_eq, Anthropic.bestUsage_eq, Anthropic.counters, Anthropic.counters,
      found_documents Anthropic.usageSearch hpath h h']
  | openAi =>
    change OpenAi.bestUsage _ = OpenAi.bestUsage _
    rw [OpenAi.bestUsage_eq, OpenAi.bestUsage_eq, found_documents OpenAi.usageSearch hpath h h']

end Independent

section Influence

/-- A document in which every part of the usage is one. -/
private def probe : Json :=
  .obj [(lit "input_tokens", .num (.posInt 3)), (lit "output_tokens", .num (.posInt 1)),
    (lit "reasoning_tokens", .num (.posInt 1)),
    (lit "input_tokens_details", .obj [(lit "cached_tokens", .num (.posInt 1)),
      (lit "cache_creation_tokens", .num (.posInt 1))])]

private def probeCounters : Anthropic.UsageCounters where
  input := some 3
  output := some 1
  detailCacheRead := some 1
  detailCacheWrite := some 1
  reasoning := some 1

private theorem counters_probe : Anthropic.counters [probe] = probeCounters := by decide +kernel

private theorem none_of_overwrite {later : Option Int64} (hzero : later.getD 0 = 0)
    (hone : (later.or (some 1)).getD 0 = 1) : later = none := by
  cases later with
  | none => rfl
  | some n =>
    change n = 0 at hzero
    change n = 1 at hone
    rw [hzero] at hone
    cases hone

private theorem none_of_cache_overwrite {native detail : Option Int64}
    (hzero : native.getD (if native.isNone then detail.getD 0 else 0) = 0)
    (hone : (native.or none).getD (if (native.or none).isNone then (detail.or (some 1)).getD 0 else 0) = 1) :
    native = none ∧ detail = none := by
  cases native with
  | none => exact ⟨rfl, none_of_overwrite hzero hone⟩
  | some n =>
    change n = 0 at hzero
    change n = 1 at hone
    rw [hzero] at hone
    cases hone

private theorem none_of_input_overwrite {input : Option Int64}
    (hzero : max (saturatingSub (saturatingSub (input.getD 0) 0) 0) 0 = 0)
    (hone : max (saturatingSub (saturatingSub ((input.or (some 3)).getD 0) 1) 1) 0 = 1) : input = none := by
  cases input with
  | none => rfl
  | some n =>
    change (if saturatingSub (saturatingSub n 0) 0 ≤ 0 then 0 else saturatingSub (saturatingSub n 0) 0) = 0 at hzero
    change (if saturatingSub (saturatingSub n 1) 1 ≤ 0 then 0 else saturatingSub (saturatingSub n 1) 1) = 1 at hone
    have hle : (saturatingSub (saturatingSub n 0) 0).toInt ≤ 0 := by
      split at hzero
      · rename_i hle
        exact Int64.le_iff_toInt_le.mp hle
      · rw [hzero]
        decide
    have hless : saturatingSub (saturatingSub n 1) 1 ≤ 0 := by
      apply Int64.le_iff_toInt_le.mpr
      simp only [toInt_saturatingSub, Int64.toInt_zero] at hle ⊢
      change max _ (min (max _ (min (n.toInt - 1) _) - 1) _) ≤ 0
      omega
    rw [if_pos hless] at hone
    cases hone

/-- Counters that neither report usage nor correct any are absent. -/
private theorem absent_of_no_influence {later : Anthropic.UsageCounters} (hempty : later.intoUsage.isEmpty = true)
    (hsame : (probeCounters.merge later).intoUsage = probeCounters.intoUsage) : later = {} := by
  obtain ⟨hinput, houtput, hread, hwrite, hreasoning⟩ := later.intoUsage.isEmpty_iff.mp hempty
  obtain ⟨hnativeRead, hdetailRead⟩ := none_of_cache_overwrite hread (congrArg TokenUsage.cacheReadTokens hsame)
  obtain ⟨hnativeWrite, hdetailWrite⟩ := none_of_cache_overwrite hwrite (congrArg TokenUsage.cacheWriteTokens hsame)
  have hout := none_of_overwrite houtput (congrArg TokenUsage.outputTokens hsame)
  have hreason := none_of_overwrite hreasoning (congrArg TokenUsage.reasoningTokens hsame)
  have hin : later.input = none := by
    have hmerged := congrArg TokenUsage.inputTokens hsame
    simp only [Anthropic.UsageCounters.intoUsage, Anthropic.UsageCounters.merge, TokenUsage.fromParts, hnativeRead,
      hdetailRead, hnativeWrite, hdetailWrite] at hinput hmerged
    exact none_of_input_overwrite hinput hmerged
  exact Anthropic.UsageCounters.ext hin hout hnativeRead hnativeWrite hdetailRead hdetailWrite hreason

/-- A value with counters changes what some documents around an empty text report. -/
theorem silent_of_no_influence (format : UsageFormat) {path : List Step} (hpath : format.Outside path) {value : Json}
    (h : ∀ before document, format.bestUsage (before ++ [replace path document (.str [])]) =
      format.bestUsage (before ++ [replace path document value])) :
    format.Silent (maxParseDepth - path.length) value := by
  have halone := h [] (wrap path .null)
  cases format with
  | anthropic =>
    apply Anthropic.usageSearch.found_eq_nil.mp
    apply Anthropic.found_eq_nil_of_merge
    have hcounters : ∀ inner before, Anthropic.counters (before ++ [replace path (wrap path .null) inner]) =
        (Anthropic.counters before).merge
          ((Anthropic.usageSearch.found (maxParseDepth - path.length) inner).foldl Anthropic.UsageCounters.merge {}) := by
      intro inner before
      rw [Anthropic.counters, List.flatMap_append, List.foldl_append, Anthropic.UsageCounters.foldl_merge,
        List.flatMap_singleton, ObjectSearch.found_replace_wrap _ hpath]
      rfl
    have hprobe := h [probe] (wrap path .null)
    change Anthropic.bestUsage _ = Anthropic.bestUsage _ at halone hprobe
    simp only [Anthropic.bestUsage_eq, hcounters, ObjectSearch.found_str, counters_probe] at halone hprobe
    generalize (Anthropic.usageSearch.found (maxParseDepth - path.length) value).foldl Anthropic.UsageCounters.merge {} =
      later at halone hprobe ⊢
    apply absent_of_no_influence
    · by_contra hreports
      change none = if (({} : Anthropic.UsageCounters).merge later).intoUsage.isEmpty then none else _ at halone
      rw [Anthropic.UsageCounters.none_merge, if_neg hreports] at halone
      cases halone
    · change some probeCounters.intoUsage = _ at hprobe
      split at hprobe
      · cases hprobe
      · exact (Option.some.inj hprobe).symm
  | openAi =>
    apply OpenAi.usageSearch.found_eq_nil.mp
    change OpenAi.bestUsage _ = OpenAi.bestUsage _ at halone
    simp only [OpenAi.bestUsage_eq, List.nil_append, List.flatMap_singleton,
      OpenAi.usageSearch.found_replace_wrap hpath, ObjectSearch.found_str] at halone
    exact OpenAi.maxByKey_eq_none.mp halone.symm

end Influence

/-- Texts, numbers and booleans report no counters. -/
theorem UsageFormat.silent_of_scalar (format : UsageFormat) {levels : Nat} {value : Json} (hobject : value.asObject = none)
    (harray : value.asArray = none) : format.Silent levels value := by
  cases value with
  | arr items => cases harray
  | obj members => cases hobject
  | _ => cases format <;> exact (ObjectSearch.found_eq_nil _).mp (by cases levels <;> rfl)

/-- The usage of documents is independent of the content of a family of values, which includes the
empty text, exactly when no object within the reach of the search inside such a value reports counters. -/
theorem usage_independent_iff (format : UsageFormat) (content : List Step → Json → Prop)
    (hempty : ∀ path, content path (.str [])) :
    (∀ documents documents', Relation.ReflTransGen (ContentEdit format content) documents documents' →
      format.bestUsage documents = format.bestUsage documents') ↔
    ∀ path value, format.Outside path → content path value → format.Silent (maxParseDepth - path.length) value := by
  constructor
  · intro h path value hpath hvalue
    apply silent_of_no_influence format hpath
    intro before document
    apply h
    exact .single (.replace before document [] path (.str []) value hpath (hempty path) hvalue)
  · intro h documents documents' hedits
    induction hedits with
    | refl => rfl
    | tail _ hedit ih =>
      rw [ih]
      obtain ⟨before, document, after, path, value, value', hpath, hvalue, hvalue'⟩ := hedit
      exact bestUsage_replace format hpath (h path value hpath hvalue) (h path value' hpath hvalue') before document after

private def toolPath : List Step := [.member "content", .item 0, .member "input"]

/-- A tool call whose input is an argument, beside the usage of its message. -/
private def toolUse (input : Json) : Json :=
  .obj [(lit "type", .str (lit "message")),
    (lit "content", .arr [.obj [(lit "type", .str (lit "tool_use")), (lit "id", .str (lit "call-1")),
      (lit "name", .str (lit "report")), (lit "input", input)]]),
    (lit "usage", .obj [(lit "input_tokens", .num (.posInt 10)), (lit "output_tokens", .num (.posInt 5))])]

private theorem toolPath_outside : UsageFormat.Outside .anthropic toolPath := by
  change ∀ key ∈ Anthropic.usageKeys, Step.member key ∉ toolPath
  decide

private theorem replace_toolPath (input value : Json) : replace toolPath (toolUse input) value = toolUse value := by
  simp [toolPath, toolUse, replace]

/-- An input that is a text leaves the usage of the message as it is. -/
theorem text_input_keeps_usage :
    UsageFormat.bestUsage .anthropic [toolUse (.str [])] = UsageFormat.bestUsage .anthropic [toolUse (.str (lit "sure"))] := by
  have hedit := @ContentEdit.replace .anthropic (fun _ value => value = .str [] ∨ value = .str (lit "sure")) []
    (toolUse .null) [] toolPath (.str []) (.str (lit "sure")) toolPath_outside (.inl rfl) (.inr rfl)
  rw [replace_toolPath, replace_toolPath] at hedit
  apply (usage_independent_iff .anthropic _ (fun _ => .inl rfl)).mpr _ _ _ (.single hedit)
  rintro path value - (rfl | rfl) <;> exact UsageFormat.silent_of_scalar .anthropic rfl rfl

/-- The input of a tool call adds its own counters to the usage of the message. -/
theorem tool_input_changes_usage : ¬ ∀ (format : UsageFormat) documents documents', Relation.ReflTransGen
    (ContentEdit format (fun _ _ => True)) documents documents' →
      format.bestUsage documents = format.bestUsage documents' := by
  intro h
  have hedit := @ContentEdit.replace .anthropic (fun _ _ => True) [] (toolUse .null) [] toolPath (.obj [])
    (.obj [(lit "reasoning_tokens", .num (.posInt 7))]) toolPath_outside trivial trivial
  have hsame := h .anthropic _ _ (.single hedit)
  revert hsame
  change ¬ (Anthropic.bestUsage _ = Anthropic.bestUsage _)
  decide +kernel

end Abyss.AgentHook
