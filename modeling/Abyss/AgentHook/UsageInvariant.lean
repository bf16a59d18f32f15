import Abyss.AgentHook.Anthropic.Usage
import Abyss.AgentHook.OpenAi.Responses.WebSocket

/-! The invariant of token usage: no negative counter, no token counted twice, whatever a provider reports. -/
namespace Abyss.AgentHook
open Text

section Model

/-- `AgentEventConversionError::NegativeTokenCounter`, the name of the counter and its value. -/
abbrev NegativeTokenCounter := String × Int64

def nonNegativeCounter (name : String) (value : Int64) : Except NegativeTokenCounter UInt64 :=
  if 0 ≤ value then .ok (.ofNat value.toInt.toNat) else .error (name, value)

/-- `TryFrom<TokenUsage> for PluginTokenUsage`. -/
def pluginTokenUsage (usage : TokenUsage) : Except NegativeTokenCounter PluginProtocol.TokenUsage := do
  return {
    inputTokens := ← nonNegativeCounter "input_tokens" usage.inputTokens
    outputTokens := ← nonNegativeCounter "output_tokens" usage.outputTokens
    cacheReadTokens := ← nonNegativeCounter "cache_read_tokens" usage.cacheReadTokens
    cacheWriteTokens := ← nonNegativeCounter "cache_write_tokens" usage.cacheWriteTokens
    reasoningTokens := ← nonNegativeCounter "reasoning_tokens" usage.reasoningTokens
    totalTokens := ← nonNegativeCounter "total_tokens" usage.totalTokens }

end Model

/-- What holds of every extracted usage. -/
structure TokenUsage.WellFormed (usage : TokenUsage) : Prop where
  nonneg : 0 ≤ usage.inputTokens ∧ 0 ≤ usage.outputTokens ∧ 0 ≤ usage.cacheReadTokens ∧ 0 ≤ usage.cacheWriteTokens ∧
    0 ≤ usage.reasoningTokens ∧ 0 ≤ usage.totalTokens
  total : usage.totalTokens.toInt = min (usage.inputTokens.toInt + usage.cacheReadTokens.toInt +
    usage.cacheWriteTokens.toInt + usage.outputTokens.toInt) (2 ^ 63 - 1)
  sides : saturatingAdd usage.requestSide.totalTokens usage.responseSide.totalTokens = usage.totalTokens
  converts : ∃ record, pluginTokenUsage usage = .ok record

/-- Where the reported input holds the cached tokens, the disjoint counters add up to the larger of the two. -/
def TokenUsage.Partitions (usage : TokenUsage) (reported cacheRead cacheWrite : Int64) : Prop :=
  usage.inputTokens.toInt + cacheRead.toInt + cacheWrite.toInt =
    max reported.toInt (cacheRead.toInt + cacheWrite.toInt)

section Arithmetic

theorem toInt_saturatingAdd (a b : Int64) :
    (saturatingAdd a b).toInt = max (-2 ^ 63) (min (a.toInt + b.toInt) (2 ^ 63 - 1)) := by
  apply Int64.toInt_ofInt_of_le <;> omega

theorem nonneg_iff {a : Int64} : 0 ≤ a ↔ 0 ≤ a.toInt := Int64.le_iff_toInt_le

theorem nonneg_saturatingAdd {a b : Int64} (ha : 0 ≤ a) (hb : 0 ≤ b) : 0 ≤ saturatingAdd a b := by
  rw [nonneg_iff] at ha hb ⊢
  rw [toInt_saturatingAdd]
  omega

theorem toInt_saturatingAdd_of_nonneg {a b : Int64} (ha : 0 ≤ a) (hb : 0 ≤ b) :
    (saturatingAdd a b).toInt = min (a.toInt + b.toInt) (2 ^ 63 - 1) := by
  rw [nonneg_iff] at ha hb
  rw [toInt_saturatingAdd]
  omega

theorem nonneg_intField {object : Json} {key : String} : ∀ value ∈ intField object key, 0 ≤ value := by
  intro value h
  obtain ⟨n, hn, rfl⟩ := Option.map_eq_some_iff.mp h
  obtain ⟨hread, hnonneg⟩ := Option.filter_eq_some_iff.mp hn
  obtain ⟨json, -, hnumber⟩ := Option.bind_eq_some_iff.mp hread
  have hnonneg : 0 ≤ n := by simpa using hnonneg
  have hbound : n < 2 ^ 63 := by
    unfold Json.asI64 at hnumber
    split at hnumber
    · split at hnumber
      · cases hnumber
        omega
      · cases hnumber
    · cases hnumber
      omega
    · cases hnumber
  rw [nonneg_iff, Int64.toInt_ofInt_of_le (by omega) hbound]
  exact hnonneg

theorem nonneg_nestedIntField {object : Json} {parent child : String} :
    ∀ value ∈ nestedIntField object parent child, 0 ≤ value := by
  intro value h
  obtain ⟨nested, -, h⟩ := Option.bind_eq_some_iff.mp h
  exact nonneg_intField value h

theorem nonneg_or {a b : Option Int64} (ha : ∀ value ∈ a, 0 ≤ value) (hb : ∀ value ∈ b, 0 ≤ value) :
    ∀ value ∈ a.or b, 0 ≤ value := by
  cases a with
  | none => exact hb
  | some n => exact ha

theorem nonneg_getD {a : Option Int64} (ha : ∀ value ∈ a, 0 ≤ value) : 0 ≤ a.getD 0 := by
  cases a with
  | none => exact Int64.le_refl 0
  | some n => exact ha n rfl

theorem toInt_max_zero (a : Int64) : (max a 0).toInt = max a.toInt 0 := by
  change (if a ≤ 0 then 0 else a).toInt = _
  split
  · next h =>
    have hle : a.toInt ≤ 0 := Int64.le_iff_toInt_le.mp h
    rw [Int64.toInt_zero]
    omega
  · next h =>
    have hlt : 0 < a.toInt := by
      rw [Int64.le_iff_toInt_le, Int64.toInt_zero] at h
      omega
    omega

/-- Cached tokens are taken out of the input, down to nothing. -/
theorem toInt_disjoint {reported cacheRead cacheWrite : Int64} (hinput : 0 ≤ reported) (hread : 0 ≤ cacheRead)
    (hwrite : 0 ≤ cacheWrite) :
    (max (saturatingSub (saturatingSub reported cacheRead) cacheWrite) 0).toInt =
      max (reported.toInt - cacheRead.toInt - cacheWrite.toInt) 0 := by
  rw [nonneg_iff] at hinput hread hwrite
  have hlt := reported.toInt_lt
  rw [toInt_max_zero, toInt_saturatingSub, toInt_saturatingSub]
  omega

end Arithmetic

section WellFormed

variable {input cacheRead cacheWrite output reasoning : Int64}

theorem nonNegativeCounter_ok {value : Int64} (h : 0 ≤ value) (name : String) :
    nonNegativeCounter name value = .ok (.ofNat value.toInt.toNat) := if_pos h

/-- Usage built from non-negative counters is well formed. -/
theorem wellFormed_fromParts (hinput : 0 ≤ input) (hread : 0 ≤ cacheRead) (hwrite : 0 ≤ cacheWrite) (houtput : 0 ≤ output)
    (hreasoning : 0 ≤ reasoning) : (TokenUsage.fromParts input cacheRead cacheWrite output reasoning).WellFormed := by
  have hcached := nonneg_saturatingAdd (nonneg_saturatingAdd hinput hread) hwrite
  have htotal := nonneg_saturatingAdd hcached houtput
  have hsum := toInt_saturatingAdd_of_nonneg hcached houtput
  rw [toInt_saturatingAdd_of_nonneg (nonneg_saturatingAdd hinput hread) hwrite, toInt_saturatingAdd_of_nonneg hinput hread]
    at hsum
  have hnone : saturatingAdd (saturatingAdd (saturatingAdd 0 0) 0) output = output := by
    have hstart : saturatingAdd (saturatingAdd 0 0) 0 = 0 := rfl
    have hlt := output.toInt_lt
    rw [nonneg_iff] at houtput
    rw [hstart, ← Int64.toInt_inj, toInt_saturatingAdd, Int64.toInt_zero]
    omega
  have hsides : saturatingAdd (saturatingAdd (saturatingAdd input cacheRead) cacheWrite) 0 =
      saturatingAdd (saturatingAdd input cacheRead) cacheWrite := by
    have hlt := (saturatingAdd (saturatingAdd input cacheRead) cacheWrite).toInt_lt
    rw [nonneg_iff] at hcached
    rw [← Int64.toInt_inj, toInt_saturatingAdd, Int64.toInt_zero]
    omega
  refine ⟨⟨hinput, houtput, hread, hwrite, hreasoning, htotal⟩, ?_, ?_, ?_⟩
  · rw [nonneg_iff] at hinput hread hwrite houtput
    simp only [TokenUsage.fromParts]
    omega
  · simp only [TokenUsage.requestSide, TokenUsage.responseSide, TokenUsage.fromParts]
    rw [hsides, hnone]
  · simp only [pluginTokenUsage, TokenUsage.fromParts, nonNegativeCounter_ok hinput, nonNegativeCounter_ok houtput,
      nonNegativeCounter_ok hread, nonNegativeCounter_ok hwrite, nonNegativeCounter_ok hreasoning, nonNegativeCounter_ok htotal]
    exact ⟨_, rfl⟩

end WellFormed

/-! What each parser extracts. -/
section Extracted

theorem wellFormed_zero : TokenUsage.zero.WellFormed :=
  wellFormed_fromParts (Int64.le_refl 0) (Int64.le_refl 0) (Int64.le_refl 0) (Int64.le_refl 0) (Int64.le_refl 0)

namespace OpenAi

/-- The input count of an object, under the name of either API. -/
def reportedInput (object : Json) : Int64 :=
  ((intField object "input_tokens").or (intField object "prompt_tokens")).getD 0

theorem usageFromObject_sound {object : Json} {usage : TokenUsage} (h : usageFromObject object = some usage) :
    usage.WellFormed ∧ usage.Partitions (reportedInput object) usage.cacheReadTokens usage.cacheWriteTokens := by
  unfold usageFromObject at h
  extract_lets input output cacheRead cacheWrite reasoning disjoint extracted at h
  have hinput : 0 ≤ reportedInput object := nonneg_getD (nonneg_or nonneg_intField nonneg_intField)
  have hread : 0 ≤ cacheRead :=
    nonneg_getD (nonneg_or nonneg_nestedIntField (nonneg_or nonneg_nestedIntField nonneg_intField))
  have hwrite : 0 ≤ cacheWrite := nonneg_getD (nonneg_or nonneg_nestedIntField
    (nonneg_or nonneg_nestedIntField (nonneg_or nonneg_nestedIntField nonneg_nestedIntField)))
  have hreasoning : 0 ≤ reasoning :=
    nonneg_getD (nonneg_or nonneg_nestedIntField (nonneg_or nonneg_nestedIntField nonneg_intField))
  have houtput : 0 ≤ output.getD 0 := nonneg_getD (nonneg_or nonneg_intField nonneg_intField)
  have hdisjoint : disjoint.toInt = max ((reportedInput object).toInt - cacheRead.toInt - cacheWrite.toInt) 0 :=
    toInt_disjoint hinput hread hwrite
  have hnonneg : 0 ≤ disjoint := by
    rw [nonneg_iff, hdisjoint]
    omega
  split at h
  · cases h
  · obtain rfl : extracted = usage := Option.some.inj h
    refine ⟨wellFormed_fromParts hnonneg hread hwrite houtput hreasoning, ?_⟩
    change disjoint.toInt + cacheRead.toInt + cacheWrite.toInt =
      max (reportedInput object).toInt (cacheRead.toInt + cacheWrite.toInt)
    rw [hdisjoint]
    omega

theorem mem_of_maxByKey {α κ : Type} [LE κ] [DecidableLE κ] {key : α → κ} {items : List α} {item : α}
    (h : maxByKey key items = some item) : item ∈ items := by
  induction items using List.reverseRecOn generalizing item with
  | nil => cases h
  | append_singleton items last ih =>
    rw [maxByKey, List.foldl_append, List.foldl_cons, List.foldl_nil, ← maxByKey, Option.some.injEq] at h
    cases hbest : maxByKey key items with
    | none =>
      rw [hbest] at h
      exact List.mem_append_right _ (List.mem_singleton.mpr h.symm)
    | some held =>
      rw [hbest] at h
      change (if key held ≤ key last then last else held) = item at h
      split at h
      · exact List.mem_append_right _ (List.mem_singleton.mpr h.symm)
      · exact List.mem_append_left _ (h ▸ ih hbest)

/-- The objects of some documents that are read for usage. -/
def usageObjects (values : List Json) : List Json :=
  (values.flatMap (Json.objectsWithin maxParseDepth)).flatMap (fun object => object :: (object.get "usage").toList)

theorem bestUsage_sound {values : List Json} {usage : TokenUsage} (h : bestUsage values = some usage) :
    ∃ object ∈ usageObjects values, usageFromObject object = some usage := by
  rw [bestUsage_eq] at h
  obtain ⟨value, hvalue, hfound⟩ := List.mem_flatMap.mp (mem_of_maxByKey h)
  obtain ⟨object, hobject, hread⟩ := List.mem_flatMap.mp hfound
  have hwithin : object ∈ values.flatMap (Json.objectsWithin maxParseDepth) := List.mem_flatMap.mpr ⟨value, hvalue, hobject⟩
  obtain hown | hmember := List.mem_append.mp hread
  · exact ⟨object, List.mem_flatMap.mpr ⟨object, hwithin, List.mem_cons_self⟩, Option.mem_toList.mp hown⟩
  · obtain ⟨inner, hinner, hown⟩ := Option.bind_eq_some_iff.mp (Option.mem_toList.mp hmember)
    exact ⟨inner, List.mem_flatMap.mpr ⟨object, hwithin, List.mem_cons_of_mem _ (Option.mem_toList.mpr hinner)⟩, hown⟩

end OpenAi
namespace Anthropic
namespace UsageCounters

/-- No counter is negative. -/
structure NonNeg (counters : UsageCounters) : Prop where
  input : ∀ value ∈ counters.input, 0 ≤ value
  output : ∀ value ∈ counters.output, 0 ≤ value
  nativeCacheRead : ∀ value ∈ counters.nativeCacheRead, 0 ≤ value
  nativeCacheWrite : ∀ value ∈ counters.nativeCacheWrite, 0 ≤ value
  detailCacheRead : ∀ value ∈ counters.detailCacheRead, 0 ≤ value
  detailCacheWrite : ∀ value ∈ counters.detailCacheWrite, 0 ≤ value
  reasoning : ∀ value ∈ counters.reasoning, 0 ≤ value

/-- Cached tokens that the input count holds. -/
def includedCacheRead (counters : UsageCounters) : Int64 :=
  if counters.nativeCacheRead.isNone then counters.detailCacheRead.getD 0 else 0

def includedCacheWrite (counters : UsageCounters) : Int64 :=
  if counters.nativeCacheWrite.isNone then counters.detailCacheWrite.getD 0 else 0

theorem nonNeg_reported (object : Json) : (reported object).NonNeg where
  input := nonneg_or nonneg_intField (fun _ h => by cases h)
  output := nonneg_or nonneg_intField (fun _ h => by cases h)
  nativeCacheRead := nonneg_or nonneg_intField (fun _ h => by cases h)
  nativeCacheWrite := nonneg_or nonneg_intField (fun _ h => by cases h)
  detailCacheRead := nonneg_or nonneg_nestedIntField (fun _ h => by cases h)
  detailCacheWrite := nonneg_or nonneg_nestedIntField (fun _ h => by cases h)
  reasoning := nonneg_or nonneg_nestedIntField (nonneg_or nonneg_intField (nonneg_or nonneg_intField (fun _ h => by cases h)))

theorem NonNeg.merge {counters later : UsageCounters} (h : counters.NonNeg) (hlater : later.NonNeg) :
    (counters.merge later).NonNeg where
  input := nonneg_or hlater.input h.input
  output := nonneg_or hlater.output h.output
  nativeCacheRead := nonneg_or hlater.nativeCacheRead h.nativeCacheRead
  nativeCacheWrite := nonneg_or hlater.nativeCacheWrite h.nativeCacheWrite
  detailCacheRead := nonneg_or hlater.detailCacheRead h.detailCacheRead
  detailCacheWrite := nonneg_or hlater.detailCacheWrite h.detailCacheWrite
  reasoning := nonneg_or hlater.reasoning h.reasoning

theorem NonNeg.foldl {reports : List UsageCounters} (h : ∀ report ∈ reports, report.NonNeg) {counters : UsageCounters}
    (hcounters : counters.NonNeg) : (reports.foldl UsageCounters.merge counters).NonNeg := by
  induction reports generalizing counters with
  | nil => exact hcounters
  | cons report reports ih =>
    exact ih (fun r hr => h r (List.mem_cons_of_mem _ hr)) (hcounters.merge (h report List.mem_cons_self))

theorem nonNeg_counters (values : List Json) : (counters values).NonNeg := by
  have hnone : ({} : UsageCounters).NonNeg := by
    constructor <;> exact fun _ h => by cases h
  refine NonNeg.foldl ?_ hnone
  intro report hreport
  obtain ⟨value, -, hfound⟩ := List.mem_flatMap.mp hreport
  obtain ⟨object, -, hread⟩ := List.mem_flatMap.mp hfound
  change report ∈ (if reported object = {} then [] else [reported object]) at hread
  split at hread
  · cases hread
  · obtain rfl := List.mem_singleton.mp hread
    exact nonNeg_reported object

theorem intoUsage_sound {counters : UsageCounters} (h : counters.NonNeg) :
    counters.intoUsage.WellFormed ∧
      counters.intoUsage.Partitions (counters.input.getD 0) counters.includedCacheRead counters.includedCacheWrite := by
  have hincluded : ∀ {native detail : Option Int64}, (∀ value ∈ detail, 0 ≤ value) →
      0 ≤ (if native.isNone then detail.getD 0 else 0) := by
    intro native detail hdetail
    split
    · exact nonneg_getD hdetail
    · exact Int64.le_refl 0
  have hcache : ∀ {native : Option Int64} {included : Int64}, (∀ value ∈ native, 0 ≤ value) → 0 ≤ included →
      0 ≤ native.getD included := by
    intro native included hnative hzero
    cases native with
    | none => exact hzero
    | some value => exact hnative value rfl
  have hread : 0 ≤ counters.includedCacheRead := hincluded h.detailCacheRead
  have hwrite : 0 ≤ counters.includedCacheWrite := hincluded h.detailCacheWrite
  have hdisjoint := toInt_disjoint (nonneg_getD h.input) hread hwrite
  have hnonneg : 0 ≤ max (saturatingSub (saturatingSub (counters.input.getD 0) counters.includedCacheRead)
      counters.includedCacheWrite) 0 := by
    rw [nonneg_iff, hdisjoint]
    omega
  refine ⟨wellFormed_fromParts hnonneg (hcache h.nativeCacheRead hread) (hcache h.nativeCacheWrite hwrite)
    (nonneg_getD h.output) (nonneg_getD h.reasoning), ?_⟩
  change (max (saturatingSub (saturatingSub (counters.input.getD 0) counters.includedCacheRead)
    counters.includedCacheWrite) 0).toInt + _ + _ = _
  rw [hdisjoint]
  omega

end UsageCounters

theorem bestUsage_sound {values : List Json} {usage : TokenUsage} (h : bestUsage values = some usage) :
    usage = (counters values).intoUsage := by
  rw [bestUsage_eq] at h
  split at h
  · cases h
  · exact (Option.some.inj h).symm

end Anthropic

/-! The usage that a WebSocket turn retains. -/
namespace OpenAi

variable {retained : TokenUsage → Prop}

/-- The usage that a frame brings. -/
def OpenAiWebSocketFrame.usage : OpenAiWebSocketFrame → Option TokenUsage
  | .request exchange => some exchange.usage
  | .response decoded => some decoded.exchange.usage
  | .undecodable _ => none
  | .irrelevant => none

namespace PendingTurn

theorem mergeExchange_usage {turn : PendingTurn} {next : ParsedOpenAiExchange} {identifiesTurn : Bool}
    (hturn : ∀ exchange ∈ turn.exchange, retained exchange.usage) (hnext : retained next.usage) :
    ∀ exchange ∈ (turn.mergeExchange next identifiesTurn).exchange, retained exchange.usage := by
  intro exchange hexchange
  obtain rfl := Option.some.inj hexchange
  cases hcurrent : turn.exchange with
  | none => exact hnext
  | some current =>
    change retained (if _ then next.usage else current.usage)
    split
    · exact hnext
    · exact hturn current hcurrent

/-- Merging a frame keeps what holds of its usage and of the usage held so far. -/
theorem record_usage {turn : PendingTurn} {frame : OpenAiWebSocketFrame}
    (hturn : ∀ exchange ∈ turn.exchange, retained exchange.usage) (hframe : ∀ usage ∈ frame.usage, retained usage) :
    ∀ exchange ∈ (turn.record frame).exchange, retained exchange.usage := by
  cases frame with
  | request exchange => exact mergeExchange_usage hturn (hframe exchange.usage rfl)
  | response response =>
    refine mergeExchange_usage ?_ (hframe response.exchange.usage rfl)
    intro exchange hexchange
    refine hturn exchange ?_
    have hsame : (turn.bufferResponseDocument response.document response.byteLen).exchange = turn.exchange := by
      unfold bufferResponseDocument
      split
      · rfl
      split
      · rfl
      · rfl
    exact hsame ▸ hexchange
  | undecodable direction => cases direction <;> exact hturn
  | irrelevant => exact hturn

theorem foldl_record_usage {frames : List OpenAiWebSocketFrame} (hframes : ∀ frame ∈ frames, ∀ usage ∈ frame.usage, retained usage)
    {turn : PendingTurn} (hturn : ∀ exchange ∈ turn.exchange, retained exchange.usage) :
    ∀ exchange ∈ (frames.foldl record turn).exchange, retained exchange.usage := by
  induction frames generalizing turn with
  | nil => exact hturn
  | cons frame frames ih =>
    exact ih (fun f hf => hframes f (List.mem_cons_of_mem _ hf)) (record_usage hturn (hframes frame List.mem_cons_self))

end PendingTurn

/-- What a retained usage is: nothing, or what one object of one of the payloads reports. -/
def Reported (payloads : List Json) (usage : TokenUsage) : Prop :=
  usage = .zero ∨ ∃ payload ∈ payloads, bestUsage [payload] = some usage

/-- A frame brings no usage, or that of its payload. -/
theorem parse_usage (env : FrameDecoding) (message : FrameMessage) :
    ∀ usage ∈ (parseOpenAiWebSocketMessage env message).usage,
      Reported (websocketJsonPayload env message).toList usage := by
  intro usage husage
  unfold parseOpenAiWebSocketMessage at husage
  split at husage
  · cases husage
  · cases husage
  · next payload host hpayload _ =>
    have hframe : (frameExchange env message host payload).usage = usage →
        Reported (websocketJsonPayload env message).toList usage := by
      intro heq
      change (if message.direction = .clientToServer then TokenUsage.zero else (bestUsage [payload]).getD .zero) = usage at heq
      split at heq
      · exact .inl heq.symm
      cases hbest : bestUsage [payload] with
      | none =>
        rw [hbest] at heq
        exact .inl heq.symm
      | some best =>
        rw [hbest] at heq
        exact .inr ⟨payload, Option.mem_toList.mpr hpayload, hbest.trans (congrArg some heq)⟩
    split at husage
    · cases husage
    split at husage
    · exact hframe (Option.some.inj husage)
    · exact hframe (Option.some.inj husage)

/-- A turn retains nothing, or the usage of one of its frames. -/
theorem reported_turn (env : FrameDecoding) (messages : List FrameMessage) (now : Nat) :
    ∀ exchange ∈ ((messages.map (parseOpenAiWebSocketMessage env)).foldl PendingTurn.record (.new now)).exchange,
      Reported (messages.filterMap (websocketJsonPayload env)) exchange.usage := by
  refine PendingTurn.foldl_record_usage ?_ (fun exchange h => by cases h)
  intro frame hframe usage husage
  obtain ⟨message, hmessage, rfl⟩ := List.mem_map.mp hframe
  obtain hzero | ⟨payload, hpayload, hbest⟩ := parse_usage env message usage husage
  · exact .inl hzero
  · exact .inr ⟨payload, List.mem_filterMap.mpr ⟨message, hmessage, Option.mem_toList.mp hpayload⟩, hbest⟩

end OpenAi

/-- Extracted usage, and the usage that a WebSocket turn retains, is well formed and counts no cached token twice. -/
theorem extracted_wellFormed :
    (∀ values usage, OpenAi.bestUsage values = some usage → usage.WellFormed ∧ ∃ object ∈ OpenAi.usageObjects values,
      OpenAi.usageFromObject object = some usage ∧
      usage.Partitions (OpenAi.reportedInput object) usage.cacheReadTokens usage.cacheWriteTokens) ∧
    (∀ values usage, Anthropic.bestUsage values = some usage → usage.WellFormed ∧ usage = (Anthropic.counters values).intoUsage ∧
      usage.Partitions ((Anthropic.counters values).input.getD 0) (Anthropic.counters values).includedCacheRead
        (Anthropic.counters values).includedCacheWrite) ∧
    ∀ env (messages : List OpenAi.FrameMessage) now, ∀ exchange ∈ ((messages.map (OpenAi.parseOpenAiWebSocketMessage env)).foldl OpenAi.PendingTurn.record
      (.new now)).exchange, exchange.usage.WellFormed ∧ (exchange.usage = .zero ∨
        ∃ payload ∈ messages.filterMap (OpenAi.websocketJsonPayload env), ∃ object ∈ OpenAi.usageObjects [payload],
          OpenAi.usageFromObject object = some exchange.usage ∧ exchange.usage.Partitions (OpenAi.reportedInput object)
            exchange.usage.cacheReadTokens exchange.usage.cacheWriteTokens) := by
  have hopenAi : ∀ values usage, OpenAi.bestUsage values = some usage → usage.WellFormed ∧
      ∃ object ∈ OpenAi.usageObjects values, OpenAi.usageFromObject object = some usage ∧
        usage.Partitions (OpenAi.reportedInput object) usage.cacheReadTokens usage.cacheWriteTokens := by
    intro values usage h
    obtain ⟨object, hobject, hread⟩ := OpenAi.bestUsage_sound h
    obtain ⟨hformed, hpartition⟩ := OpenAi.usageFromObject_sound hread
    exact ⟨hformed, object, hobject, hread, hpartition⟩
  refine ⟨hopenAi, ?_, ?_⟩
  · intro values usage h
    obtain rfl := Anthropic.bestUsage_sound h
    obtain ⟨hformed, hpartition⟩ := Anthropic.UsageCounters.intoUsage_sound (Anthropic.UsageCounters.nonNeg_counters values)
    exact ⟨hformed, rfl, hpartition⟩
  · intro env messages now exchange hexchange
    obtain hzero | ⟨payload, hpayload, hbest⟩ := OpenAi.reported_turn env messages now exchange hexchange
    · exact ⟨hzero ▸ wellFormed_zero, .inl hzero⟩
    · obtain ⟨hformed, hobject⟩ := hopenAi [payload] _ hbest
      exact ⟨hformed, .inr ⟨payload, hpayload, hobject⟩⟩

end Extracted
end Abyss.AgentHook
