import Abyss.AgentHook.Event.Normalizer
import Std.Data.ExtTreeMap.Lemmas

/-! Harness identifiers and the policy for them: enablement overrides, content
overrides and custom matchers over the source of a flow. -/
namespace Abyss.AgentHook.Harness
open Abyss.Text Std

section Id

/-- Built-in Harness implementations compiled into the broker. -/
inductive BuiltInHarness where
  | codex | claudeCode | claudeDesktop | deepSeekHarness | hermes | cursor | workBuddy | openCode
  deriving DecidableEq, Repr

/-- The stable configuration and event identity. -/
def BuiltInHarness.id : BuiltInHarness → Str
  | .codex => "codex".toList
  | .claudeCode => "claude-code".toList
  | .claudeDesktop => "claude-desktop".toList
  | .deepSeekHarness => "deepseek-harness".toList
  | .hermes => "hermes".toList
  | .cursor => "cursor".toList
  | .workBuddy => "workbuddy".toList
  | .openCode => "opencode".toList

/-- The characters that an identifier may have. -/
def isIdChar (c : Char) : Bool := c.isLower || c.isDigit || c == '.' || c == '_' || c == '-'

def isIdText (value : Str) : Bool := !value.isEmpty && value.length ≤ 64 && value.all isIdChar

/-- Stable built-in or custom Harness identity. -/
structure HarnessId where
  asStr : Str
  accepted : isIdText asStr = true
  deriving DecidableEq

namespace HarnessId

def ofBuiltIn (harness : BuiltInHarness) : HarnessId := ⟨harness.id, by cases harness <;> decide⟩

/-- Reading an identifier from a configuration; `claude-cli` is an alias. -/
def deserialize (value : Str) : Option HarnessId :=
  let value := if value = "claude-cli".toList then BuiltInHarness.claudeCode.id else value
  if h : isIdText value = true then some ⟨value, h⟩ else none

def isReserved (harnessId : HarnessId) : Bool :=
  ["codex", "claude-code", "claude-desktop", "deepseek-harness", "hermes", "cursor", "workbuddy", "opencode"].any
    (fun id => harnessId.asStr == id.toList)

theorem asStr_inj {a b : HarnessId} (h : a.asStr = b.asStr) : a = b := by
  cases a
  cases b
  cases h
  rfl

theorem ofBuiltIn_inj {a b : BuiltInHarness} (h : ofBuiltIn a = ofBuiltIn b) : a = b := by
  have htext : a.id = b.id := congrArg asStr h
  revert htext
  cases a <;> cases b <;> decide

@[simp] theorem ofBuiltIn_isReserved (harness : BuiltInHarness) : (ofBuiltIn harness).isReserved = true := by
  cases harness <;> decide

instance : Ord HarnessId := ⟨fun a b => compare a.asStr b.asStr⟩

instance : TransOrd HarnessId where
  eq_swap := fun {_ _} => @OrientedCmp.eq_swap Str compare _ _ _
  isLE_trans := fun {_ _ _} => @TransCmp.isLE_trans Str compare _ _ _ _

instance : LawfulEqOrd HarnessId where
  compare_self := fun {_} => @ReflCmp.compare_self Str compare _ _
  eq_of_compare h := asStr_inj (@LawfulEqCmp.eq_of_compare Str compare _ _ _ h)

end HarnessId
end Id

section Policy

/-- One custom Harness matcher: populated fields must all match, values within a
field are alternatives. -/
structure HarnessMatcherConfig where
  processNames : List Str
  applicationIds : List Str
  deriving DecidableEq

/-- Optional policy override and identity matchers for one Harness. -/
structure HarnessConfig where
  enabled : Option Bool
  content : Option HarnessUsageContentConfig
  matchers : List HarnessMatcherConfig

def HarnessConfig.default : HarnessConfig := ⟨none, none, []⟩

/-- Harness usage hook behavior configuration. -/
structure HarnessUsageConfig where
  content : HarnessUsageContentConfig
  harnesses : ExtTreeMap HarnessId HarnessConfig

namespace HarnessUsageConfig

def default : HarnessUsageConfig := ⟨.default, ∅⟩

def enabledForHarness (config : HarnessUsageConfig) (harnessId : HarnessId) : Bool :=
  (config.harnesses[harnessId]?.bind HarnessConfig.enabled).getD true

def contentForHarness (config : HarnessUsageConfig) (harnessId : HarnessId) : HarnessUsageContentConfig :=
  (config.harnesses[harnessId]?.bind HarnessConfig.content).getD config.content

/-- The configuration of a Harness, where an absent one overrides nothing. -/
def harness (config : HarnessUsageConfig) (harnessId : HarnessId) : HarnessConfig :=
  config.harnesses[harnessId]?.getD .default

theorem enabledForHarness_eq (config : HarnessUsageConfig) (harnessId : HarnessId) :
    config.enabledForHarness harnessId = (config.harness harnessId).enabled.getD true := by
  rw [enabledForHarness, harness]
  cases config.harnesses[harnessId]? <;> rfl

/-- Two policies that agree on everything but which Harnesses are enabled. -/
structure DiffersOnlyInEnabled (config config' : HarnessUsageConfig) : Prop where
  content : config.content = config'.content
  override : ∀ harnessId, (config.harness harnessId).content = (config'.harness harnessId).content
  matchers : ∀ harnessId, (config.harness harnessId).matchers = (config'.harness harnessId).matchers

theorem DiffersOnlyInEnabled.symm {config config' : HarnessUsageConfig} (h : config.DiffersOnlyInEnabled config') :
    config'.DiffersOnlyInEnabled config :=
  ⟨h.content.symm, fun harnessId => (h.override harnessId).symm, fun harnessId => (h.matchers harnessId).symm⟩

theorem DiffersOnlyInEnabled.trans {a b c : HarnessUsageConfig} (hab : a.DiffersOnlyInEnabled b)
    (hbc : b.DiffersOnlyInEnabled c) : a.DiffersOnlyInEnabled c :=
  ⟨hab.content.trans hbc.content, fun harnessId => (hab.override harnessId).trans (hbc.override harnessId),
    fun harnessId => (hab.matchers harnessId).trans (hbc.matchers harnessId)⟩

/-- The policy with the enablement of one Harness set. -/
def withEnabled (config : HarnessUsageConfig) (harnessId : HarnessId) (enabled : Bool) : HarnessUsageConfig :=
  { config with
    harnesses := config.harnesses.insert harnessId { config.harness harnessId with enabled := some enabled } }

theorem withEnabled_harness (config : HarnessUsageConfig) (harnessId other : HarnessId) (enabled : Bool) :
    (config.withEnabled harnessId enabled).harness other =
      if harnessId = other then { config.harness harnessId with enabled := some enabled }
      else config.harness other := by
  rw [harness, withEnabled, ExtTreeMap.getElem?_insert]
  by_cases h : harnessId = other
  · rw [if_pos (LawfulEqCmp.compare_eq_iff_eq.mpr h), if_pos h]
    rfl
  · rw [if_neg (fun heq => h (LawfulEqCmp.eq_of_compare heq)), if_neg h]
    rfl

theorem withEnabled_differs (config : HarnessUsageConfig) (harnessId : HarnessId) (enabled : Bool) :
    config.DiffersOnlyInEnabled (config.withEnabled harnessId enabled) := by
  refine ⟨rfl, fun other => ?_, fun other => ?_⟩
  all_goals
    rw [withEnabled_harness]
    split
    · next h => rw [← h]
    · rfl

theorem withEnabled_enabled (config : HarnessUsageConfig) (harnessId other : HarnessId) (enabled : Bool) :
    (config.withEnabled harnessId enabled).enabledForHarness other =
      if harnessId = other then enabled else config.enabledForHarness other := by
  rw [enabledForHarness_eq, withEnabled_harness, enabledForHarness_eq]
  split <;> rfl

/-- Enabling one Harness and disabling every other one of a list. -/
def withOnly (config : HarnessUsageConfig) (harnessId : HarnessId) (others : List HarnessId) : HarnessUsageConfig :=
  (others.foldl (fun config other => config.withEnabled other false) config).withEnabled harnessId true

theorem withOnly_differs (config : HarnessUsageConfig) (harnessId : HarnessId) (others : List HarnessId) :
    config.DiffersOnlyInEnabled (config.withOnly harnessId others) := by
  refine DiffersOnlyInEnabled.trans ?_ (withEnabled_differs _ harnessId true)
  induction others generalizing config with
  | nil => exact ⟨rfl, fun _ => rfl, fun _ => rfl⟩
  | cons other others ih => exact (withEnabled_differs config other false).trans (ih _)

theorem withOnly_enabled (config : HarnessUsageConfig) {harnessId other : HarnessId} {others : List HarnessId}
    (h : other ∈ others) :
    (config.withOnly harnessId others).enabledForHarness other = decide (harnessId = other) := by
  have hoff : ∀ config : HarnessUsageConfig, other ∈ others ∨ config.enabledForHarness other = false →
      (others.foldl (fun config other => config.withEnabled other false) config).enabledForHarness other = false := by
    clear h
    induction others with
    | nil => exact fun config h => h.resolve_left List.not_mem_nil
    | cons first others ih =>
      intro config h
      refine ih _ ?_
      rw [withEnabled_enabled]
      by_cases hfirst : first = other
      · exact .inr (if_pos hfirst)
      · rw [if_neg hfirst]
        exact h.imp_left (fun hmem => (List.mem_cons.mp hmem).resolve_left (fun heq => hfirst heq.symm))
  rw [withOnly, withEnabled_enabled, hoff config (.inl h)]
  by_cases heq : harnessId = other
  · rw [if_pos heq, decide_eq_true heq]
  · rw [if_neg heq, decide_eq_false heq]

end HarnessUsageConfig
end Policy
end Abyss.AgentHook.Harness
