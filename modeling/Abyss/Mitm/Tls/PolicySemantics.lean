import Abyss.Mitm.Tls.HostName
import Abyss.Mitm.Http.Head

/-! What a TLS decryption policy means, and that a TLS flow is routed by this meaning,
also on the path that decides without looking at the SNI. -/
namespace Abyss.Mitm.Tls
open Abyss.Text Abyss.Mitm.Http

/-- A host pattern covers a normalized name: `*.s` covers the names with one more nonempty label before `s`, any
other pattern covers the name it normalizes to. -/
inductive Covers (pattern : Str) : Str → Prop
  | wildcard {suffix label : Str} : normalizeHost pattern = some ("*.".toList ++ suffix) → label ≠ [] → '.' ∉ label →
    Covers pattern (label ++ '.' :: suffix)
  | exact {name : Str} : normalizeHost pattern = some name → ¬ "*.".toList <+: name → Covers pattern name

/-- A dimension of a rule is satisfied by some value of it; a missing attribute satisfies only an empty one. -/
def Meets (sat : Str → Str → Prop) (selectors : List Str) (given : Option Str) : Prop :=
  selectors ≠ [] → ∃ value, given = some value ∧ ∃ selector ∈ selectors, sat selector value

section Reference
variable (platform : Platform)

structure Satisfied (rule : TlsDecryptionRule) (domain : Option Str) (source : Option SourceProcess) : Prop where
  processName : Meets (platform.selectorValueMatches · ·) rule.processNames (source.bind SourceProcess.name)
  applicationId : Meets (platform.selectorValueMatches · ·) rule.applicationIds (source.bind SourceProcess.applicationId)
  entryPoint : Meets (platform.samePath · ·) rule.processEntryPoints (source.bind SourceProcess.entryPoint)
  destination : Meets Covers rule.destinationHosts (domain.bind normalizeHost)

/-- A rule that takes part in the selection and is satisfied. -/
def Applies (rule : TlsDecryptionRule) (domain : Option Str) (source : Option SourceProcess) : Prop :=
  rule.enabled = true ∧ Satisfied platform rule domain source

/-- The action a policy selects for a target domain and a source process. -/
inductive Selects (policy : TlsDecryptionPolicy) (domain : Option Str) (source : Option SourceProcess) :
    TlsDecryptionAction → Prop
  | rule {before after : List TlsDecryptionRule} {rule : TlsDecryptionRule} :
    policy.rules = before ++ rule :: after → Applies platform rule domain source →
    (∀ earlier ∈ before, ¬ Applies platform earlier domain source) → Selects policy domain source rule.action
  | missingDomain : (∀ rule ∈ policy.rules, ¬ Applies platform rule domain source) → domain.bind normalizeHost = none →
    Selects policy domain source (policy.missingSniAction.getD policy.defaultAction)
  | default {name : Str} : (∀ rule ∈ policy.rules, ¬ Applies platform rule domain source) →
    domain.bind normalizeHost = some name → Selects policy domain source policy.defaultAction

end Reference

section Matching

theorem wildcardMatches_iff {suffix serverName : Str} :
    wildcardMatches suffix serverName = true ↔
      ∃ label, label ≠ [] ∧ '.' ∉ label ∧ serverName = label ++ '.' :: suffix := by
  unfold wildcardMatches
  simp only [Bool.and_eq_true, decide_eq_true_eq, Option.any_eq_true, stripBack_eq_some, Bool.not_eq_true',
    List.isEmpty_eq_false_iff, List.contains_eq_mem, decide_eq_false_iff_not]
  constructor
  · rintro ⟨-, _, rfl, label, rfl, hne, hdot⟩
    exact ⟨label, hne, hdot, by simp⟩
  · rintro ⟨label, hne, hdot, rfl⟩
    exact ⟨⟨label ++ ['.'], by simp⟩, label ++ ['.'], by simp, label, rfl, hne, hdot⟩

theorem hostPatternMatches_iff {pattern name : Str} : hostPatternMatches pattern name = true ↔ Covers pattern name := by
  unfold hostPatternMatches
  constructor
  · intro h
    split at h
    · cases h
    · next normalized hnormalized =>
      split at h
      · next suffix hsuffix =>
        obtain ⟨label, hne, hdot, rfl⟩ := wildcardMatches_iff.mp h
        rw [stripFront_eq_some.mp hsuffix] at hnormalized
        exact .wildcard hnormalized hne hdot
      · next hplain =>
        obtain rfl := beq_iff_eq.mp h
        refine .exact hnormalized ?_
        rintro ⟨suffix, rfl⟩
        rw [stripFront_eq_some.mpr rfl] at hplain
        cases hplain
  · intro h
    cases h with
    | wildcard hnormalized hne hdot =>
      simp only [hnormalized, stripFront_eq_some.mpr rfl]
      exact wildcardMatches_iff.mpr ⟨_, hne, hdot, rfl⟩
    | exact hnormalized hplain =>
      have hnone : stripFront "*.".toList name = none := by
        cases hstrip : stripFront "*.".toList name with
        | none => rfl
        | some suffix => exact absurd ⟨suffix, (stripFront_eq_some.mp hstrip).symm⟩ hplain
      simp only [hnormalized, hnone, beq_self_eq_true]

/-- A wildcard does not cover the name behind it. -/
theorem Covers.not_apex {pattern suffix : Str} (h : normalizeHost pattern = some ("*.".toList ++ suffix)) :
    ¬ Covers pattern suffix := by
  generalize hname : suffix = name
  intro hcovers
  cases hcovers with
  | wildcard hnormalized hne hdot =>
    rw [h] at hnormalized
    obtain rfl := List.append_cancel_left (Option.some.inj hnormalized)
    have hlen := congrArg List.length hname
    rw [List.length_append, List.length_cons] at hlen
    omega
  | exact hnormalized hplain =>
    rw [h] at hnormalized
    exact hplain ⟨suffix, Option.some.inj hnormalized⟩

theorem dimensionMatches_iff {matchesValue : Str → Str → Bool} {selectors : List Str} {candidate : Option Str} :
    dimensionMatches matchesValue selectors candidate = true ↔
      Meets (fun selector value => matchesValue selector value = true) selectors candidate := by
  unfold dimensionMatches Meets
  rw [Bool.or_eq_true, List.isEmpty_iff, Option.any_eq_true]
  simp only [List.any_eq_true]
  tauto

variable {platform : Platform} {rule : TlsDecryptionRule} {domain : Option Str} {source : Option SourceProcess}

theorem matches_iff : rule.matches platform (domain.bind normalizeHost) source = true ↔
    Satisfied platform rule domain source := by
  simp only [TlsDecryptionRule.matches, Bool.and_eq_true, selectorMatches, entryPointSelectorMatches,
    destinationSelectorMatches, dimensionMatches_iff, hostPatternMatches_iff]
  constructor
  · rintro ⟨⟨⟨hname, hid⟩, hentry⟩, hhost⟩
    exact ⟨hname, hid, hentry, hhost⟩
  · rintro ⟨hname, hid, hentry, hhost⟩
    exact ⟨⟨⟨hname, hid⟩, hentry⟩, hhost⟩

theorem applies_iff : (rule.enabled && rule.matches platform (domain.bind normalizeHost) source) = true ↔
    Applies platform rule domain source := by
  rw [Bool.and_eq_true, matches_iff]
  rfl

/-- The loop over the rules stops at the first one that applies. -/
theorem find_applies_iff {rules : List TlsDecryptionRule} :
    rules.find? (fun rule => rule.enabled && rule.matches platform (domain.bind normalizeHost) source) = some rule ↔
      ∃ before after, rules = before ++ rule :: after ∧ Applies platform rule domain source ∧
        ∀ earlier ∈ before, ¬ Applies platform earlier domain source := by
  have hnot : ∀ earlier : TlsDecryptionRule,
      (!(earlier.enabled && earlier.matches platform (domain.bind normalizeHost) source)) = true ↔
        ¬ Applies platform earlier domain source := by
    intro earlier
    rw [Bool.not_eq_true', ← Bool.not_eq_true, applies_iff]
  rw [List.find?_eq_some_iff_append, applies_iff]
  simp only [hnot]
  constructor
  · rintro ⟨happlies, before, after, hrules, hbefore⟩
    exact ⟨before, after, hrules, happlies, hbefore⟩
  · rintro ⟨before, after, hrules, happlies, hbefore⟩
    exact ⟨happlies, before, after, hrules, hbefore⟩

theorem action_decisionForAction (id : Option Str) (action : TlsDecryptionAction) :
    (decisionForAction id action).action = action := by cases action <;> rfl

/-- The evaluation of a policy selects what the policy means, and nothing else. -/
theorem decide_action_iff {policy : TlsDecryptionPolicy} {action : TlsDecryptionAction} :
    (policy.decide platform domain source).action = action ↔ Selects platform policy domain source action := by
  unfold TlsDecryptionPolicy.decide
  simp only
  split
  · next rule hfind =>
    obtain ⟨before, after, hrules, happlies, hearlier⟩ := find_applies_iff.mp hfind
    rw [action_decisionForAction]
    constructor
    · rintro rfl
      exact .rule hrules happlies hearlier
    · intro h
      cases h with
      | @rule before' after' rule' hrules' happlies' hearlier' =>
        have hfind' := find_applies_iff.mpr ⟨before', after', hrules', happlies', hearlier'⟩
        rw [Option.some.inj (hfind.symm.trans hfind')]
      | missingDomain hnone _ => exact absurd happlies (hnone rule (by rw [hrules]; simp))
      | default hnone _ => exact absurd happlies (hnone rule (by rw [hrules]; simp))
  · next hfind =>
    have hnone : ∀ rule ∈ policy.rules, ¬ Applies platform rule domain source := by
      intro rule hmem
      rw [← applies_iff]
      exact List.find?_eq_none.mp hfind rule hmem
    rw [action_decisionForAction]
    unfold TlsDecryptionPolicy.fallbackAction
    constructor
    · rintro rfl
      cases hdomain : domain.bind normalizeHost with
      | none => exact .missingDomain hnone hdomain
      | some name => exact .default hnone hdomain
    · intro h
      cases h with
      | @rule before after rule hrules happlies _ => exact absurd happlies (hnone rule (by rw [hrules]; simp))
      | missingDomain _ hdomain => rw [hdomain]; rfl
      | default _ hdomain => rw [hdomain]; rfl

end Matching
section Spelling

/-- Two spellings of one host: they differ in case, in a port or in trailing dots. -/
inductive Respelled : Str → Str → Prop
  | refl (host : Str) : Respelled host host
  | case {host other : Str} : eqIgnoreAsciiCase host other = true → Respelled host other
  | dots {host : Str} (n : Nat) : AcceptsDots host → Respelled host (host ++ List.replicate n '.')
  | port (host port : Str) : Respelled host (host ++ ':' :: port)
  | symm {host other : Str} : Respelled host other → Respelled other host
  | trans {host other third : Str} : Respelled host other → Respelled other third → Respelled host third

theorem Respelled.normalizeHost {host other : Str} (h : Respelled host other) :
    Tls.normalizeHost host = Tls.normalizeHost other := by
  induction h with
  | refl host => rfl
  | case h => rw [← normalizeHost_toAsciiLowercase, beq_iff_eq.mp h, normalizeHost_toAsciiLowercase]
  | dots n h => exact (normalizeHost_dots h n).symm
  | port host port => exact (normalizeHost_port host port).symm
  | symm _ ih => exact ih.symm
  | trans _ _ ih ih' => exact ih.trans ih'

theorem normalizeHost_respelled {domain domain' : Option Str} (h : Option.Rel Respelled domain domain') :
    domain.bind normalizeHost = domain'.bind normalizeHost := by
  cases h with
  | none => rfl
  | some h => exact h.normalizeHost

theorem policyTargetDomain_respelled {serverName serverName' host host' : Option Str}
    (hname : Option.Rel Respelled serverName serverName') (hhost : Option.Rel Respelled host host') :
    Option.Rel Respelled (policyTargetDomain serverName host) (policyTargetDomain serverName' host') := by
  cases hname with
  | none => exact hhost
  | some h => exact .some h

/-- Two rules that differ only in the spelling of their host patterns. -/
structure RespelledRule (rule rule' : TlsDecryptionRule) : Prop where
  hosts : List.Forall₂ Respelled rule.destinationHosts rule'.destinationHosts
  rest : rule' = { rule with destinationHosts := rule'.destinationHosts }

structure RespelledPolicy (policy policy' : TlsDecryptionPolicy) : Prop where
  defaultAction : policy'.defaultAction = policy.defaultAction
  missingSniAction : policy'.missingSniAction = policy.missingSniAction
  rules : List.Forall₂ RespelledRule policy.rules policy'.rules

theorem destinationSelectorMatches_respelled {hosts hosts' : List Str} (h : List.Forall₂ Respelled hosts hosts')
    (candidate : Option Str) : destinationSelectorMatches hosts candidate = destinationSelectorMatches hosts' candidate := by
  have hany : ∀ name, hosts.any (hostPatternMatches · name) = hosts'.any (hostPatternMatches · name) := by
    intro name
    induction h with
    | nil => rfl
    | @cons pattern pattern' rest rest' hpattern hrest ih =>
      have hsame : hostPatternMatches pattern name = hostPatternMatches pattern' name := by
        simp only [hostPatternMatches, hpattern.normalizeHost]
      rw [List.any_cons, List.any_cons, hsame, ih]
  have hempty : hosts.isEmpty = hosts'.isEmpty := by cases h <;> rfl
  unfold destinationSelectorMatches dimensionMatches
  simp only [hany, hempty]

variable {platform : Platform}

theorem matches_respelled {rule rule' : TlsDecryptionRule} (h : RespelledRule rule rule') (domain : Option Str)
    (source : Option SourceProcess) : rule.matches platform domain source = rule'.matches platform domain source := by
  rw [h.rest]
  simp only [TlsDecryptionRule.matches, destinationSelectorMatches_respelled h.hosts]

/-- The first rule that applies has the same action in both policies. -/
theorem find_respelled {rules rules' : List TlsDecryptionRule} (h : List.Forall₂ RespelledRule rules rules')
    (domain : Option Str) (source : Option SourceProcess) :
    (rules.find? (fun rule => rule.enabled && rule.matches platform domain source)).map TlsDecryptionRule.action =
      (rules'.find? (fun rule => rule.enabled && rule.matches platform domain source)).map TlsDecryptionRule.action := by
  induction h with
  | nil => rfl
  | @cons rule rule' rest rest' hrule hrest ih =>
    have hsame : (rule.enabled && rule.matches platform domain source) =
        (rule'.enabled && rule'.matches platform domain source) := by
      rw [matches_respelled hrule, hrule.rest]
    have haction : rule.action = rule'.action := by rw [hrule.rest]
    simp only [List.find?_cons, ← hsame]
    cases (rule.enabled && rule.matches platform domain source) with
    | true => exact congrArg some haction
    | false => exact ih

theorem decide_respelled {policy policy' : TlsDecryptionPolicy} (hpolicy : RespelledPolicy policy policy')
    {domain domain' : Option Str} (hdomain : Option.Rel Respelled domain domain') (source : Option SourceProcess) :
    (policy'.decide platform domain' source).action = (policy.decide platform domain source).action := by
  have hfind := @find_respelled platform _ _ hpolicy.rules (domain'.bind normalizeHost) source
  unfold TlsDecryptionPolicy.decide
  rw [normalizeHost_respelled hdomain]
  simp only
  split
  · next rule' hrule' =>
    rw [hrule'] at hfind
    obtain ⟨rule, hrule, haction⟩ := Option.map_eq_some_iff.mp hfind
    simp only [hrule, action_decisionForAction, haction]
  · next hnone =>
    rw [hnone, Option.map_none, Option.map_eq_none_iff] at hfind
    simp only [hfind, action_decisionForAction, TlsDecryptionPolicy.fallbackAction, hpolicy.defaultAction,
      hpolicy.missingSniAction]

theorem requiresSniPeek_respelled {policy policy' : TlsDecryptionPolicy} (hpolicy : RespelledPolicy policy policy') :
    policy'.requiresSniPeek = policy.requiresSniPeek := by
  have hempty : policy.rules.isEmpty = policy'.rules.isEmpty := by
    have hrules := hpolicy.rules
    generalize policy.rules = rules, policy'.rules = rules' at hrules ⊢
    cases hrules <;> rfl
  simp only [TlsDecryptionPolicy.requiresSniPeek, hpolicy.defaultAction, hpolicy.missingSniAction, hempty]

end Spelling

section Routing
variable {platform : Platform} {policy : TlsDecryptionPolicy} {flow : TlsFlow} {serverName : Option Str}

theorem validateTlsServerName_unneeded {ingress : FlowIngress} (h : ingress.requiresTlsServerNameValidation = false) :
    ingress.validateTlsServerName serverName = .ok () := by
  unfold FlowIngress.requiresTlsServerNameValidation at h
  unfold FlowIngress.validateTlsServerName
  split at h
  · cases h
  · rfl

/-- A policy that needs no SNI intercepts everything. -/
theorem decide_without_peek (h : policy.requiresSniPeek = false) (domain : Option Str) (source : Option SourceProcess) :
    (policy.decide platform domain source).action = .intercept := by
  simp only [TlsDecryptionPolicy.requiresSniPeek, Bool.or_eq_false_iff, Option.isSome_eq_false_iff,
    Option.isNone_iff_eq_none, Bool.not_eq_false', List.isEmpty_iff, beq_eq_false_iff_ne] at h
  obtain ⟨⟨hmissing, hrules⟩, hdefault⟩ := h
  have hintercept : policy.defaultAction = .intercept := by
    cases haction : policy.defaultAction with
    | intercept => rfl
    | passthrough => exact absurd haction hdefault
  simp only [TlsDecryptionPolicy.decide, hrules, List.find?_nil, action_decisionForAction,
    TlsDecryptionPolicy.fallbackAction, hmissing, hintercept, Option.getD_none, ite_self]

/-- The route of an inspected flow, with or without the shortcut. -/
theorem handle_eq (hhello : flow.clientHello = .ok serverName) : flow.handle platform policy =
    (flow.ingress.validateTlsServerName serverName).map (fun _ => routeForAction
      (policy.decide platform (policyTargetDomain serverName flow.destinationHost) flow.sourceProcess).action) := by
  unfold TlsFlow.handle
  split
  · next hshortcut =>
    simp only [Bool.and_eq_true, Bool.not_eq_true'] at hshortcut
    rw [validateTlsServerName_unneeded hshortcut.2, decide_without_peek hshortcut.1]
    rfl
  · rw [hhello]
    cases hvalid : flow.ingress.validateTlsServerName serverName with
    | error e => simp only [bind, Except.bind, Except.map, hvalid]
    | ok _ => simp only [bind, Except.bind, Except.map, hvalid, pure, Except.pure]

theorem routeForAction_tlsHttp {action : TlsDecryptionAction} : routeForAction action = .tlsHttp ↔ action = .intercept := by
  cases action <;> simp [routeForAction]

/-- A TLS flow is decrypted exactly where the policy selects it, and the spelling of hosts does not matter. -/
theorem handle_follows_policy (platform : Platform) (policy : ValidatedTlsDecryptionPolicy platform) (flow : TlsFlow)
    (serverName : Option Str) (hhello : flow.clientHello = .ok serverName) :
    (flow.handle platform policy.policy = .ok .tlsHttp ↔ flow.ingress.validateTlsServerName serverName = .ok () ∧
      Selects platform policy.policy (policyTargetDomain serverName flow.destinationHost) flow.sourceProcess .intercept) ∧
    (∀ pattern suffix, normalizeHost pattern = some ("*.".toList ++ suffix) → ¬ Covers pattern suffix) ∧
    ∀ (policy' : ValidatedTlsDecryptionPolicy platform) (flow' : TlsFlow) (serverName' : Option Str),
      RespelledPolicy policy.policy policy'.policy → Option.Rel Respelled serverName serverName' →
      Option.Rel Respelled flow.destinationHost flow'.destinationHost → flow'.sourceProcess = flow.sourceProcess →
      flow'.clientHello = .ok serverName' → flow.ingress.validateTlsServerName serverName = .ok () →
      flow'.ingress.validateTlsServerName serverName' = .ok () →
      flow'.handle platform policy'.policy = flow.handle platform policy.policy := by
  refine ⟨?_, fun pattern suffix => Covers.not_apex, ?_⟩
  · rw [handle_eq hhello, ← decide_action_iff, ← routeForAction_tlsHttp]
    cases flow.ingress.validateTlsServerName serverName with
    | error e => simp [Except.map]
    | ok _ => simp [Except.map]
  · intro policy' flow' serverName' hpolicy hname hhost hsource hhello' hvalid hvalid'
    rw [handle_eq hhello, handle_eq hhello', hvalid, hvalid', hsource,
      decide_respelled hpolicy (policyTargetDomain_respelled hname hhost)]

/-- Intercept one host. -/
def oneHostPolicy : ValidatedTlsDecryptionPolicy Platform.unix :=
  ⟨⟨.passthrough, none, [⟨"r".toList, true, .intercept, [], [], [], ["h".toList]⟩]⟩, by decide⟩

/-- A flow without SNI to a host that the platform reports. -/
def platformFlow (host : String) : TlsFlow := ⟨.ok none, some host.toList, none, .transparent⟩

theorem handle_follows_policy_one_host :
    (platformFlow "h").handle Platform.unix oneHostPolicy.policy = .ok .tlsHttp ∧
    (platformFlow "H:443").handle Platform.unix oneHostPolicy.policy =
      (platformFlow "h").handle Platform.unix oneHostPolicy.policy := by
  obtain ⟨hroute, -, hspelling⟩ := handle_follows_policy Platform.unix oneHostPolicy (platformFlow "h") none rfl
  refine ⟨hroute.mpr ⟨rfl, decide_action_iff.mp (by decide)⟩, ?_⟩
  refine hspelling oneHostPolicy (platformFlow "H:443") none ?_ .none ?_ rfl rfl rfl rfl
  · exact ⟨rfl, rfl, .cons ⟨.cons (.refl _) .nil, rfl⟩ .nil⟩
  · exact .some (.trans (.case (by decide)) (.port "H".toList "443".toList))

/-- A dot behind whitespace is a spelling that does matter. -/
theorem dot_behind_whitespace_reroutes :
    (platformFlow "h ").handle Platform.unix oneHostPolicy.policy = .ok .tlsHttp ∧
    (platformFlow "h .").handle Platform.unix oneHostPolicy.policy = .ok .passthrough := by
  decide

end Routing
end Abyss.Mitm.Tls
