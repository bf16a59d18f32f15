import Abyss.AgentHook.Conversation

/-! Protocol-level token counters. -/
namespace Abyss.AgentHook
open Abyss.Text

/-- `i64::saturating_add`. -/
def saturatingAdd (a b : Int64) : Int64 := .ofInt (max (-2 ^ 63) (min (a.toInt + b.toInt) (2 ^ 63 - 1)))

/-- `i64::saturating_sub`. -/
def saturatingSub (a b : Int64) : Int64 := .ofInt (max (-2 ^ 63) (min (a.toInt - b.toInt) (2 ^ 63 - 1)))

theorem toInt_saturatingSub (a b : Int64) :
    (saturatingSub a b).toInt = max (-2 ^ 63) (min (a.toInt - b.toInt) (2 ^ 63 - 1)) := by
  apply Int64.toInt_ofInt_of_le <;> omega

section Counters

/-- A counter of a usage object; a negative one is ignored. A value that is not an object has no
counters. -/
def intField (object : Json) (key : String) : Option Int64 :=
  (((object.get key).bind Json.asI64).filter (fun value => 0 ≤ value)).map Int64.ofInt

def nestedIntField (object : Json) (parent child : String) : Option Int64 :=
  (object.get parent).bind (fun nested => intField nested child)

theorem intField_congr {object object' : Json} {key : String} (h : object.get key = object'.get key) :
    intField object key = intField object' key := by
  rw [intField, h, intField]

theorem nestedIntField_congr {object object' : Json} {parent : String} (h : object.get parent = object'.get parent)
    (child : String) : nestedIntField object parent child = nestedIntField object' parent child := by
  rw [nestedIntField, h, nestedIntField]

end Counters

/-- Normalized counters; the total is always the sum of the four billing counters. -/
structure TokenUsage where
  inputTokens : Int64
  outputTokens : Int64
  cacheReadTokens : Int64
  cacheWriteTokens : Int64
  reasoningTokens : Int64
  totalTokens : Int64
  total_eq : totalTokens = saturatingAdd (saturatingAdd (saturatingAdd inputTokens cacheReadTokens) cacheWriteTokens)
    outputTokens
  deriving DecidableEq

namespace TokenUsage

def fromParts (inputTokens cacheReadTokens cacheWriteTokens outputTokens reasoningTokens : Int64) : TokenUsage where
  inputTokens
  outputTokens
  cacheReadTokens
  cacheWriteTokens
  reasoningTokens
  totalTokens := saturatingAdd (saturatingAdd (saturatingAdd inputTokens cacheReadTokens) cacheWriteTokens) outputTokens
  total_eq := rfl

/-- `TokenUsage::default`. -/
def zero : TokenUsage := fromParts 0 0 0 0 0

def isEmpty (usage : TokenUsage) : Bool :=
  usage.inputTokens = 0 && usage.outputTokens = 0 && usage.cacheReadTokens = 0 && usage.cacheWriteTokens = 0 &&
    usage.reasoningTokens = 0 && usage.totalTokens = 0

/-- Every input-side counter. -/
def requestSide (usage : TokenUsage) : TokenUsage :=
  fromParts usage.inputTokens usage.cacheReadTokens usage.cacheWriteTokens 0 0

/-- Output and its reasoning part. -/
def responseSide (usage : TokenUsage) : TokenUsage := fromParts 0 0 0 usage.outputTokens usage.reasoningTokens

/-- A usage is empty when its five independent counters are. -/
theorem isEmpty_iff (usage : TokenUsage) : usage.isEmpty = true ↔
    usage.inputTokens = 0 ∧ usage.outputTokens = 0 ∧ usage.cacheReadTokens = 0 ∧ usage.cacheWriteTokens = 0 ∧
      usage.reasoningTokens = 0 := by
  simp only [isEmpty, Bool.and_eq_true, decide_eq_true_eq, and_assoc]
  constructor
  · rintro ⟨hinput, houtput, hread, hwrite, hreasoning, _⟩
    exact ⟨hinput, houtput, hread, hwrite, hreasoning⟩
  · rintro ⟨hinput, houtput, hread, hwrite, hreasoning⟩
    refine ⟨hinput, houtput, hread, hwrite, hreasoning, ?_⟩
    rw [usage.total_eq, hinput, houtput, hread, hwrite]
    rfl

/-- Usage is on one of the two sides or nowhere. -/
theorem isEmpty_sides (usage : TokenUsage) :
    usage.isEmpty = (usage.requestSide.isEmpty && usage.responseSide.isEmpty) := by
  apply Bool.eq_iff_iff.mpr
  rw [Bool.and_eq_true, isEmpty_iff, isEmpty_iff, isEmpty_iff]
  simp only [requestSide, responseSide, fromParts]
  tauto

end TokenUsage
end Abyss.AgentHook
