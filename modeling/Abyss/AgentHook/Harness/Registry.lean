import Abyss.AgentHook.Harness.Detectors
import Abyss.Data.Sole
import Mathlib.Data.List.Forall2
import Mathlib.Data.List.Nodup

/-! Harness detection: the built-in detectors and the configured matchers, the
precedence of Hermes, the enabled policy and the rejection of ambiguous requests. -/
namespace Abyss.AgentHook.Harness
open Abyss.Text Abyss.Data Abyss.Mitm Abyss.Mitm.Http Std

section Detect

/-- Whether the flow satisfies every populated field; a matcher without one matches nothing. -/
def HarnessMatcherConfig.matches (config : HarnessMatcherConfig) (flow : FlowContext) : Bool :=
  if config.processNames.isEmpty && config.applicationIds.isEmpty then false
  else
    let processMatches := config.processNames.isEmpty ||
      (flow.sourceProcess.bind SourceProcess.name).any (fun name => config.processNames.any (· == name))
    let applicationMatches := config.applicationIds.isEmpty ||
      (flow.sourceProcess.bind SourceProcess.applicationId).any (fun id => config.applicationIds.any (· == id))
    processMatches && applicationMatches

def detectors : List HarnessDetector :=
  [codexDetector, claudeDesktopDetector, claudeCodeDetector, deepSeekHarnessDetector, hermesDetector,
    cursorDetector, workBuddyDetector, openCodeDetector]

def isHermes (detection : HarnessDetection) : Bool := detection.harnessId.asStr == "hermes".toList

/-- The clients whose fingerprints Hermes sends for compatibility. -/
def isImpersonated (detection : HarnessDetection) : Bool :=
  detection.harnessId.asStr == "codex".toList || detection.harnessId.asStr == "claude-code".toList

/-- The detection of a request under a policy; two detections are ambiguous and give none. -/
def detect (flow : FlowContext) (headers : HeaderMap) (path : Str) (config : HarnessUsageConfig) :
    Option HarnessDetection :=
  let detections := detectors.filterMap (fun detector => detector flow headers path)
  let detections := if detections.any isHermes then detections.filter (fun d => !isImpersonated d) else detections
  let detections := detections.filter (fun d => config.enabledForHarness d.harnessId)
  let detections := config.harnesses.toList.foldl (fun detections (harnessId, harness) =>
    if harnessId.isReserved || !harness.enabled.getD true then detections
    else if harness.matchers.any (·.matches flow) then detections ++ [⟨harnessId, none⟩]
    else detections) detections
  if detections.length ≠ 1 then none else detections.getLast?

end Detect

section Recognition

/-- What the built-in detectors recognize, before any policy. -/
def builtInDetections (flow : FlowContext) (headers : HeaderMap) (path : Str) : List HarnessDetection :=
  let detections := detectors.filterMap (fun detector => detector flow headers path)
  if detections.any isHermes then detections.filter (fun d => !isImpersonated d) else detections

/-- What one configured Harness recognizes, whether it is enabled or not. -/
def customDetection (flow : FlowContext) (item : HarnessId × HarnessConfig) : Option HarnessDetection :=
  if item.1.isReserved then none
  else if item.2.matchers.any (·.matches flow) then some ⟨item.1, none⟩ else none

/-- Everything recognized in a request, enabled or not. -/
def recognizedDetections (flow : FlowContext) (headers : HeaderMap) (path : Str) (config : HarnessUsageConfig) :
    List HarnessDetection :=
  builtInDetections flow headers path ++ config.harnesses.toList.filterMap (customDetection flow)

/-- A Harness is recognized in a request by its detector, where Hermes hides the clients it
impersonates, or by a configured matcher. -/
def Recognized (flow : FlowContext) (headers : HeaderMap) (path : Str) (config : HarnessUsageConfig)
    (d : HarnessDetection) : Prop :=
  ((∃ detector ∈ detectors, detector flow headers path = some d) ∧
      ((hermesDetector flow headers path).isSome = true → isImpersonated d = false)) ∨
    (d.harnessId.isReserved = false ∧ d.version = none ∧
      (config.harness d.harnessId).matchers.any (·.matches flow) = true)

variable {flow : FlowContext} {headers : HeaderMap} {path : Str} {config config' : HarnessUsageConfig}

private theorem isHermes_ofBuiltIn {harness : BuiltInHarness} {d : HarnessDetection}
    (h : d.harnessId = .ofBuiltIn harness) : isHermes d = decide (harness = .hermes) := by
  rw [isHermes, h]
  cases harness <;> decide

theorem detectors_report : List.Forall₂ Reports detectors
    [.codex, .claudeDesktop, .claudeCode, .deepSeekHarness, .hermes, .cursor, .workBuddy, .openCode] :=
  .cons codexDetector_reports <| .cons claudeDesktopDetector_reports <| .cons claudeCodeDetector_reports <|
    .cons deepSeekHarnessDetector_reports <| .cons hermesDetector_reports <| .cons cursorDetector_reports <|
      .cons workBuddyDetector_reports <| .cons openCodeDetector_reports .nil

/-- Each built-in Harness is reported at most once. -/
theorem builtIn_ids_nodup : ((detectors.filterMap (fun detector => detector flow headers path)).map
    HarnessDetection.harnessId).Nodup := by
  have hforall : List.Forall₂ (fun item k => ∀ d : HarnessDetection, item = some d → d.harnessId = k)
      (detectors.map (fun detector => detector flow headers path))
      ([.codex, .claudeDesktop, .claudeCode, .deepSeekHarness, .hermes, .cursor, .workBuddy, .openCode].map
        HarnessId.ofBuiltIn) := by
    rw [List.forall₂_map_left_iff, List.forall₂_map_right_iff]
    exact detectors_report.imp (fun _ _ hreports d hd => hreports flow headers path d hd)
  have hsub := map_key_sublist hforall
  rw [List.filterMap_map, Function.id_comp] at hsub
  refine hsub.nodup ?_
  exact List.Nodup.map (fun _ _ => HarnessId.ofBuiltIn_inj) (by decide)

/-- Every detector reports one Harness, and only the Hermes detector reports Hermes. -/
theorem reports_of_mem {detector : HarnessDetector} (h : detector ∈ detectors) :
    ∃ harness, Reports detector harness ∧ (harness = .hermes → detector = hermesDetector) := by
  simp only [detectors, List.mem_cons, List.not_mem_nil, or_false] at h
  obtain rfl | rfl | rfl | rfl | rfl | rfl | rfl | rfl := h
  · exact ⟨.codex, codexDetector_reports, nofun⟩
  · exact ⟨.claudeDesktop, claudeDesktopDetector_reports, nofun⟩
  · exact ⟨.claudeCode, claudeCodeDetector_reports, nofun⟩
  · exact ⟨.deepSeekHarness, deepSeekHarnessDetector_reports, nofun⟩
  · exact ⟨.hermes, hermesDetector_reports, fun _ => rfl⟩
  · exact ⟨.cursor, cursorDetector_reports, nofun⟩
  · exact ⟨.workBuddy, workBuddyDetector_reports, nofun⟩
  · exact ⟨.openCode, openCodeDetector_reports, nofun⟩

theorem hermes_detected : (detectors.filterMap (fun detector => detector flow headers path)).any isHermes =
    (hermesDetector flow headers path).isSome := by
  rw [Bool.eq_iff_iff, List.any_eq_true, Option.isSome_iff_exists]
  simp only [List.mem_filterMap]
  constructor
  · rintro ⟨d, ⟨detector, hmem, hd⟩, hhermes⟩
    obtain ⟨harness, hreports, honly⟩ := reports_of_mem hmem
    rw [isHermes_ofBuiltIn (hreports flow headers path d hd), decide_eq_true_eq] at hhermes
    rw [honly hhermes] at hd
    exact ⟨d, hd⟩
  · rintro ⟨d, hd⟩
    refine ⟨d, ⟨hermesDetector, by simp [detectors], hd⟩, ?_⟩
    rw [isHermes_ofBuiltIn (hermesDetector_reports flow headers path d hd)]
    rfl

theorem mem_builtInDetections {d : HarnessDetection} : d ∈ builtInDetections flow headers path ↔
    (∃ detector ∈ detectors, detector flow headers path = some d) ∧
      ((hermesDetector flow headers path).isSome = true → isImpersonated d = false) := by
  simp only [builtInDetections, hermes_detected]
  split
  · next h => simp [List.mem_filter, List.mem_filterMap, h]
  · next h => simp [List.mem_filterMap, h]

/-- A built-in detection carries a reserved identity. -/
theorem builtIn_isReserved {d : HarnessDetection} (h : d ∈ builtInDetections flow headers path) :
    d.harnessId.isReserved = true := by
  obtain ⟨⟨detector, hmem, hd⟩, -⟩ := mem_builtInDetections.mp h
  obtain ⟨harness, hreports, -⟩ := reports_of_mem hmem
  rw [hreports flow headers path d hd]
  exact HarnessId.ofBuiltIn_isReserved harness

theorem mem_customDetections {d : HarnessDetection} :
    d ∈ config.harnesses.toList.filterMap (customDetection flow) ↔
      d.harnessId.isReserved = false ∧ d.version = none ∧
        (config.harness d.harnessId).matchers.any (·.matches flow) = true := by
  simp only [List.mem_filterMap, Prod.exists, ExtTreeMap.mem_toList_iff_getElem?_eq_some, customDetection]
  constructor
  · rintro ⟨harnessId, harness, hget, hsome⟩
    split at hsome
    · cases hsome
    · next hreserved =>
      split at hsome
      · next hany =>
        cases hsome
        refine ⟨Bool.eq_false_iff.mpr hreserved, rfl, ?_⟩
        rw [HarnessUsageConfig.harness, hget]
        exact hany
      · cases hsome
  · rintro ⟨hreserved, hversion, hany⟩
    rw [HarnessUsageConfig.harness] at hany
    cases hget : config.harnesses[d.harnessId]? with
    | none =>
      rw [hget] at hany
      cases hany
    | some harness =>
      rw [hget] at hany
      refine ⟨d.harnessId, harness, hget, ?_⟩
      change (harness.matchers.any (·.matches flow)) = true at hany
      rw [if_neg (Bool.eq_false_iff.mp hreserved), if_pos hany, ← hversion]

theorem mem_recognizedDetections {d : HarnessDetection} :
    d ∈ recognizedDetections flow headers path config ↔ Recognized flow headers path config d := by
  rw [recognizedDetections, List.mem_append, mem_builtInDetections, mem_customDetections, Recognized]

/-- What is recognized does not depend on what is enabled. -/
theorem recognized_congr (h : config.DiffersOnlyInEnabled config') (d : HarnessDetection) :
    Recognized flow headers path config d ↔ Recognized flow headers path config' d := by
  rw [Recognized, Recognized, h.matchers]

theorem customDetections_ids : (config.harnesses.toList.filterMap (customDetection flow)).map
    HarnessDetection.harnessId |>.Sublist config.harnesses.keys := by
  rw [← ExtTreeMap.map_fst_toList_eq_keys]
  induction config.harnesses.toList with
  | nil => exact List.Sublist.slnil
  | cons item rest ih =>
    rw [List.filterMap_cons, List.map_cons]
    cases hd : customDetection flow item with
    | none => exact ih.cons _
    | some d =>
      have hid : d.harnessId = item.1 := by
        unfold customDetection at hd
        split at hd
        · cases hd
        · split at hd
          · cases hd
            rfl
          · cases hd
      change (d.harnessId :: _).Sublist _
      rw [hid]
      exact ih.cons_cons _

/-- No identity is recognized twice. -/
theorem recognized_ids_nodup : ((recognizedDetections flow headers path config).map HarnessDetection.harnessId).Nodup := by
  rw [recognizedDetections, List.map_append, List.nodup_append]
  refine ⟨?_, ?_, ?_⟩
  · refine (List.Sublist.map _ ?_).nodup (@builtIn_ids_nodup flow headers path)
    rw [builtInDetections]
    split
    · exact List.filter_sublist
    · exact List.Sublist.refl _
  · exact customDetections_ids.nodup ExtTreeMap.nodup_keys
  · intro a ha b hb heq
    obtain ⟨d, hd, rfl⟩ := List.mem_map.mp ha
    obtain ⟨d', hd', rfl⟩ := List.mem_map.mp hb
    have hreserved := builtIn_isReserved hd
    rw [heq, (mem_customDetections.mp hd').1] at hreserved
    cases hreserved

end Recognition

section Policy
variable {flow : FlowContext} {headers : HeaderMap} {path : Str} {config : HarnessUsageConfig}

/-- The loop over the configured Harnesses adds the enabled ones that are recognized. -/
private theorem foldl_custom (items : List (HarnessId × HarnessConfig)) (detections : List HarnessDetection)
    (hget : ∀ item ∈ items, config.harnesses[item.1]? = some item.2) :
    items.foldl (fun detections (harnessId, harness) =>
      if harnessId.isReserved || !harness.enabled.getD true then detections
      else if harness.matchers.any (·.matches flow) then detections ++ [⟨harnessId, none⟩]
      else detections) detections =
    detections ++ (items.filterMap (customDetection flow)).filter (fun d => config.enabledForHarness d.harnessId) := by
  induction items generalizing detections with
  | nil => exact (List.append_nil detections).symm
  | cons item items ih =>
    have henabled : config.enabledForHarness item.1 = item.2.enabled.getD true := by
      rw [HarnessUsageConfig.enabledForHarness, hget item List.mem_cons_self]
      rfl
    rw [List.foldl_cons, ih _ (fun item hmem => hget item (List.mem_cons_of_mem _ hmem)), List.filterMap_cons]
    by_cases hreserved : item.1.isReserved = true
    · simp [customDetection, hreserved]
    · by_cases hany : item.2.matchers.any (·.matches flow) = true
      · by_cases hon : item.2.enabled.getD true = true
        · simp [customDetection, hreserved, hany, hon, henabled]
        · simp [customDetection, hreserved, hany, hon, henabled]
      · by_cases hon : item.2.enabled.getD true = true
        · simp [customDetection, hreserved, hany, hon]
        · simp [customDetection, hreserved, hany, hon]

/-- What is recognized and enabled, in the order in which it is collected. -/
private theorem detect_eq : detect flow headers path config =
    if ((recognizedDetections flow headers path config).filter (fun d => config.enabledForHarness d.harnessId)).length ≠ 1
    then none
    else ((recognizedDetections flow headers path config).filter
      (fun d => config.enabledForHarness d.harnessId)).getLast? := by
  rw [recognizedDetections, List.filter_append, ← foldl_custom]
  · rfl
  · rintro ⟨harnessId, harness⟩ hmem
    exact ExtTreeMap.mem_toList_iff_getElem?_eq_some.mp hmem

/-- The detection is the only thing recognized that the policy enables. -/
theorem detect_eq_some {d : HarnessDetection} : detect flow headers path config = some d ↔
    Sole (Recognized flow headers path config) (fun d => config.enabledForHarness d.harnessId = true) d := by
  rw [detect_eq, getLast?_eq_sole, filter_eq_singleton_iff (List.Nodup.of_map _ recognized_ids_nodup)]
  exact Sole.congr (fun _ => mem_recognizedDetections) (fun _ _ => Iff.rfl)

/-- A policy that leaves one recognized Harness enabled and no other one. -/
theorem withOnly_enables {d : HarnessDetection} (hd : Recognized flow headers path config d) :
    ∀ d', Recognized flow headers path config d' →
      ((config.withOnly d.harnessId ((recognizedDetections flow headers path config).map HarnessDetection.harnessId)
        ).enabledForHarness d'.harnessId = true ↔ d' = d) := by
  intro d' hd'
  have hmem := mem_recognizedDetections.mpr hd'
  rw [HarnessUsageConfig.withOnly_enabled config (List.mem_map_of_mem hmem), decide_eq_true_eq]
  constructor
  · intro heq
    exact List.inj_on_of_nodup_map recognized_ids_nodup hmem (mem_recognizedDetections.mpr hd) heq.symm
  · rintro rfl
    rfl

/-- Under Hermes' identity the clients it impersonates are not recognized. -/
theorem hermes_hides {d : HarnessDetection} (hd : Recognized flow headers path config d)
    (hhermes : (hermesDetector flow headers path).isSome = true) :
    d.harnessId ≠ .ofBuiltIn .codex ∧ d.harnessId ≠ .ofBuiltIn .claudeCode := by
  have hreserved : d.harnessId.isReserved = false ∨ isImpersonated d = false := by
    obtain ⟨-, hhidden⟩ | ⟨hreserved, -⟩ := hd
    · exact .inr (hhidden hhermes)
    · exact .inl hreserved
  constructor
  all_goals
    intro heq
    rw [isImpersonated, heq] at hreserved
    revert hreserved
    decide

/-- What the enabled flags of a policy decide: the label is the one recognized Harness that is
enabled, so labels differ only on requests that more than one Harness is recognized in, and
each label is then disabled where the other one is given; an identity of Hermes is never
labelled as one of the clients it impersonates. -/
theorem detect_enabled_flags (flow : FlowContext) (headers : HeaderMap) (path : Str) (config : HarnessUsageConfig) :
    (∀ a, config.DiffersOnlyInEnabled a → ∀ d, detect flow headers path a = some d ↔
      Sole (Recognized flow headers path config) (fun d => a.enabledForHarness d.harnessId = true) d) ∧
    (∀ a b, config.DiffersOnlyInEnabled a → config.DiffersOnlyInEnabled b → ∀ d d',
      detect flow headers path a = some d → detect flow headers path b = some d' → d ≠ d' →
        a.enabledForHarness d'.harnessId = false ∧ b.enabledForHarness d.harnessId = false) ∧
    ((∀ a b, config.DiffersOnlyInEnabled a → config.DiffersOnlyInEnabled b → ∀ d d',
        detect flow headers path a = some d → detect flow headers path b = some d' → d = d') ↔
      ∀ d d', Recognized flow headers path config d → Recognized flow headers path config d' → d = d') ∧
    ((hermesDetector flow headers path).isSome = true → ∀ a d, detect flow headers path a = some d →
      d.harnessId ≠ .ofBuiltIn .codex ∧ d.harnessId ≠ .ofBuiltIn .claudeCode) := by
  have hlabel : ∀ a, config.DiffersOnlyInEnabled a → ∀ d, detect flow headers path a = some d ↔
      Sole (Recognized flow headers path config) (fun d => a.enabledForHarness d.harnessId = true) d := by
    intro a ha d
    rw [detect_eq_some]
    exact Sole.congr (fun d => (recognized_congr ha d).symm) (fun _ _ => Iff.rfl)
  refine ⟨hlabel, ?_, ?_, ?_⟩
  · intro a b ha hb d d' hd hd' hne
    have hoff := ((hlabel a ha d).mp hd).disabled ((hlabel b hb d').mp hd') hne
    exact ⟨Bool.eq_false_iff.mpr hoff.1, Bool.eq_false_iff.mpr hoff.2⟩
  · have hstable := @Sole.stable_iff _ (Recognized flow headers path config) { a // config.DiffersOnlyInEnabled a }
      (fun a d => a.1.enabledForHarness d.harnessId = true)
      (fun d hd => ⟨⟨_, HarnessUsageConfig.withOnly_differs config d.harnessId _⟩, withOnly_enables hd⟩)
    rw [← hstable]
    constructor
    · intro h a b d d' hd hd'
      exact h a.1 b.1 a.2 b.2 d d' ((hlabel a.1 a.2 d).mpr hd) ((hlabel b.1 b.2 d').mpr hd')
    · intro h a b ha hb d d' hd hd'
      exact h ⟨a, ha⟩ ⟨b, hb⟩ d d' ((hlabel a ha d).mp hd) ((hlabel b hb d').mp hd')
  · intro hhermes a d hd
    exact hermes_hides (detect_eq_some.mp hd).isCandidate hhermes

/-- A request of DeepSeek Harness that also carries a Codex header. -/
private def ambiguousHeaders : HeaderMap :=
  ⟨[(ascii "user-agent", ascii "deepseek-harness/0.2.0"), (ascii "x-codex-turn-metadata", ascii "\x7b\x7d")]⟩

private def without (harness : BuiltInHarness) : HarnessUsageConfig :=
  HarnessUsageConfig.default.withEnabled (.ofBuiltIn harness) false

/-- Disabling Codex labels the request as DeepSeek Harness, and disabling that labels it as Codex. -/
theorem disabling_relabels :
    ¬ ∀ flow headers path (a b : HarnessUsageConfig), a.DiffersOnlyInEnabled b → ∀ d d',
      detect flow headers path a = some d → detect flow headers path b = some d' → d.harnessId = d'.harnessId := by
  intro h
  have hdiffers : (without .codex).DiffersOnlyInEnabled (without .deepSeekHarness) :=
    (HarnessUsageConfig.withEnabled_differs _ _ _).symm.trans (HarnessUsageConfig.withEnabled_differs _ _ _)
  have hfirst : detect ⟨none⟩ ambiguousHeaders "/responses".toList (without .codex) =
      some ⟨.ofBuiltIn .deepSeekHarness, some "0.2.0".toList⟩ := by decide
  have hsecond : detect ⟨none⟩ ambiguousHeaders "/responses".toList (without .deepSeekHarness) =
      some ⟨.ofBuiltIn .codex, none⟩ := by decide
  have heq := h _ _ _ _ _ hdiffers _ _ hfirst hsecond
  exact absurd (HarnessId.ofBuiltIn_inj heq) (by decide)

end Policy
end Abyss.AgentHook.Harness
