import Mathlib.Data.List.Infix
import Abyss.Broker.RuntimeConfig

/-! Serializability of runtime policy updates: between transactions the snapshot, the live
cells and the policy file agree, in every interleaving of callers, cancellations and failures. -/
namespace Abyss.Broker
open Abyss.Text Abyss.Mitm.Http Abyss.Mitm.Tls Abyss.System
open Abyss.Mitm (bind_eq_ok)
variable {H : Type} {build : Build H}

section History

def Entry.succeeded (entry : Entry build) : Bool :=
  match entry.outcome with
  | .ok _ => true
  | .error _ => false

def Update.mitm? : Update H → Option MitmConfig
  | .mitm config => some config
  | _ => none

def Update.hooks? : Update H → Option H
  | .hooks config => some config
  | _ => none

def Update.network? : Update H → Option (Option NetworkConfig)
  | .network config => some (some config)
  | _ => none

/-- The last value that a successful transaction gave to a section, or its initial value. -/
def lastSuccessful {β : Type} (read : Update H → Option β) (initial : β) (log : List (Entry build)) : β :=
  ((log.filter Entry.succeeded).filterMap (fun entry => read entry.update)).getLast?.getD initial

/-- The live cells hold what the snapshot says. -/
structure Agrees (startup : Startup build) (live : Live build) (current : RuntimePolicies H) : Prop where
  mitm : live.mitm.policy = current.mitm.tlsDecryption
  hooks : live.hooks = current.hooks
  network : (startupNetwork startup.upstream current.network).snapshot build.types = .ok live.network

/-- A view that reflects exactly the successful transactions of a history. -/
structure Consistent (startup : Startup build) (log : List (Entry build)) (view : View build) : Prop where
  mitm : view.current.mitm = lastSuccessful Update.mitm? startup.view.current.mitm log
  hooks : view.current.hooks = lastSuccessful Update.hooks? startup.view.current.hooks log
  network : view.current.network = lastSuccessful Update.network? startup.view.current.network log
  agrees : Agrees startup view.live view.current
  file : (∃ entry ∈ log, entry.succeeded = true) → ∃ text, view.file = some text ∧
    view.current.render build = some text ∧ RuntimePolicies.load build text = .ok view.current

/-- What the last transaction of a history left behind. -/
def viewAfter (startup : Startup build) (log : List (Entry build)) : View build :=
  (log.getLast?.map Entry.after).getD startup.view

/-- A transaction left a consistent view, and the old one if it failed. -/
structure Settled (startup : Startup build) (before : List (Entry build)) (entry : Entry build) : Prop where
  consistent : Consistent startup (before ++ [entry]) entry.after
  unchanged : entry.succeeded = false → entry.after = viewAfter startup before

theorem viewAfter_concat (startup : Startup build) (log : List (Entry build)) (entry : Entry build) :
    viewAfter startup (log ++ [entry]) = entry.after := by
  rw [viewAfter, List.getLast?_concat]
  rfl

theorem lastSuccessful_failed {β : Type} (read : Update H → Option β) (initial : β) (log : List (Entry build))
    {entry : Entry build} (h : entry.succeeded = false) :
    lastSuccessful read initial (log ++ [entry]) = lastSuccessful read initial log := by
  have hnot : ¬ entry.succeeded = true := by simp [h]
  rw [lastSuccessful, List.filter_append, List.filter_cons_of_neg hnot, List.filter_nil, List.append_nil]
  rfl

theorem lastSuccessful_succeeded {β : Type} (read : Update H → Option β) (initial : β) (log : List (Entry build))
    {entry : Entry build} (h : entry.succeeded = true) :
    lastSuccessful read initial (log ++ [entry]) = (read entry.update).getD (lastSuccessful read initial log) := by
  rw [lastSuccessful, List.filter_append, List.filter_cons_of_pos h, List.filter_nil, List.filterMap_append]
  cases hread : read entry.update with
  | none => simp [hread, lastSuccessful]
  | some value => simp [hread]

end History

section Validation
variable {startup : Startup build}

theorem new_policy {platform : Platform} {policy : TlsDecryptionPolicy} {validated : ValidatedTlsDecryptionPolicy platform}
    (h : ValidatedTlsDecryptionPolicy.new platform policy = .ok validated) : validated.policy = policy := by
  unfold ValidatedTlsDecryptionPolicy.new at h
  split at h
  · cases h
  · cases h
    rfl

/-- A published section agrees with the candidate snapshot. -/
theorem Agrees.publish {live : Live build} {current : RuntimePolicies H} (h : Agrees startup live current)
    {update : Update H} {publication : Publication build} (hprepare : update.prepare build = .ok publication) :
    Agrees startup (live.publish publication) (update.applyTo current) := by
  cases update with
  | mitm config =>
    simp only [Update.prepare] at hprepare
    split at hprepare
    · cases hprepare
    · next policy hpolicy =>
      obtain rfl := Except.ok.inj hprepare
      exact ⟨new_policy hpolicy, h.hooks, h.network⟩
  | hooks config =>
    obtain rfl := Except.ok.inj hprepare
    exact ⟨h.mitm, rfl, h.network⟩
  | network config =>
    simp only [Update.prepare] at hprepare
    split at hprepare
    · cases hprepare
    · next snapshot hsnapshot =>
      obtain rfl := Except.ok.inj hprepare
      exact ⟨h.mitm, h.hooks, hsnapshot⟩

theorem HttpConnectProxy.new_ok {types : HttpTypes} {config : UpstreamProxyConfig} {proxy : HttpConnectProxy}
    (h : HttpConnectProxy.new types config = .ok proxy) : config.validate types = .ok () := by
  obtain ⟨_, hvalid, -⟩ := bind_eq_ok.mp h
  exact hvalid

/-- A written snapshot with valid sections is accepted when it is loaded. -/
theorem load_render (htoml : build.toml.RoundTrips) {live : Live build} {current : RuntimePolicies H} {text : Str}
    (hagrees : Agrees startup live current) (hrender : current.render build = some text) :
    RuntimePolicies.load build text = .ok current := by
  obtain ⟨written, hwritten, rfl⟩ := Option.map_eq_some_iff.mp hrender
  have hvalid : current.mitm.tlsDecryption.validate build.platform = .ok () := hagrees.mitm ▸ live.mitm.valid
  simp only [RuntimePolicies.load, htoml _ _ hwritten, ne_eq, not_true_eq_false, if_false, hvalid]
  split
  · next reason hreason =>
    obtain ⟨upstream, hupstream, herror⟩ := Option.map_eq_some_iff.mp hreason
    obtain ⟨config, hconfig, hsome⟩ := Option.bind_eq_some_iff.mp hupstream
    have hsnapshot := hagrees.network
    rw [hconfig, startupNetwork, Option.getD_some, NetworkConfig.snapshot, hsome] at hsnapshot
    simp only at hsnapshot
    cases hproxy : HttpConnectProxy.new build.types upstream with
    | error e =>
      rw [hproxy] at hsnapshot
      cases hsnapshot
    | ok proxy =>
      rw [HttpConnectProxy.new_ok hproxy] at herror
      cases herror
  · rfl

end Validation

section Consistency
variable {startup : Startup build} {log : List (Entry build)} {view : View build}

theorem consistent_startup (startup : Startup build) : Consistent startup [] startup.view where
  mitm := rfl
  hooks := rfl
  network := rfl
  agrees := ⟨rfl, rfl, startup.routed⟩
  file := by simp

/-- A failed transaction leaves a consistent view behind by leaving it alone. -/
theorem Consistent.failed (h : Consistent startup log view) {entry : Entry build} (hfailed : entry.succeeded = false) :
    Consistent startup (log ++ [entry]) view where
  mitm := by rw [lastSuccessful_failed _ _ _ hfailed, h.mitm]
  hooks := by rw [lastSuccessful_failed _ _ _ hfailed, h.hooks]
  network := by rw [lastSuccessful_failed _ _ _ hfailed, h.network]
  agrees := h.agrees
  file := by
    rintro ⟨entry', hmem, hsucceeded⟩
    rcases List.mem_append.mp hmem with hmem | hmem
    · exact h.file ⟨entry', hmem, hsucceeded⟩
    · obtain rfl := List.mem_singleton.mp hmem
      rw [hfailed] at hsucceeded
      cases hsucceeded

/-- A successful transaction replaces one section of snapshot, live cells and file. -/
theorem Consistent.succeeded (htoml : build.toml.RoundTrips) (h : Consistent startup log view) {entry : Entry build}
    (hsucceeded : entry.succeeded = true) {publication : Publication build}
    (hprepare : entry.update.prepare build = .ok publication) {contents : Str}
    (hrender : (entry.update.applyTo view.current).render build = some contents) :
    Consistent startup (log ++ [entry])
      ⟨entry.update.applyTo view.current, view.live.publish publication, some contents⟩ where
  mitm := by
    rw [lastSuccessful_succeeded _ _ _ hsucceeded, ← h.mitm]
    cases entry.update <;> rfl
  hooks := by
    rw [lastSuccessful_succeeded _ _ _ hsucceeded, ← h.hooks]
    cases entry.update <;> rfl
  network := by
    rw [lastSuccessful_succeeded _ _ _ hsucceeded, ← h.network]
    cases entry.update <;> rfl
  agrees := h.agrees.publish hprepare
  file := fun _ => ⟨contents, rfl, hrender, load_render htoml (h.agrees.publish hprepare) hrender⟩

end Consistency
section Invariant
variable (startup : Startup build)

/-- What is known of the lock holder between two steps. -/
def HolderOk (s : Service build) : Prop :=
  match s.holder with
  | none => s.view = viewAfter startup s.log
  | some (.starting _ _) => s.view = viewAfter startup s.log
  | some (.running transaction) =>
    transaction.update.prepare build = .ok transaction.publication ∧
    transaction.candidate = transaction.update.applyTo (viewAfter startup s.log).current ∧
    transaction.candidate.render build = some transaction.contents ∧
    match transaction.phase with
    | .persisting remaining => s.view = viewAfter startup s.log ∧ remaining ≠ [] ∧ remaining <:+ persistSteps build.os ∧
      (PersistStep.writeTemporary ∉ remaining → s.temporary = some transaction.contents)
    | .cleaning _ => s.view = viewAfter startup s.log
    | .installed => s.view = { viewAfter startup s.log with file := some transaction.contents }
    | .published => s.view = { viewAfter startup s.log with
        live := (viewAfter startup s.log).live.publish transaction.publication, file := some transaction.contents }

def HistoryOk (log : List (Entry build)) : Prop :=
  ∀ before entry after, log = before ++ entry :: after → Settled startup before entry

@[grind =] def Service.holderCaller (s : Service build) : List Nat :=
  match s.holder with
  | none => []
  | some (.starting caller _) => [caller]
  | some (.running transaction) => [transaction.caller]

/-- Every caller, by where it has got to. -/
def Service.callers (s : Service build) : List Nat :=
  s.waiting.map Prod.fst ++ (s.holderCaller ++ (s.log.map Entry.caller ++ s.cancelled))

structure Invariant (s : Service build) : Prop where
  holder : HolderOk startup s
  history : HistoryOk startup s.log
  distinct : s.callers.Nodup
  issued : ∀ caller ∈ s.callers, caller < s.issued

variable {startup}

theorem HistoryOk.consistent {log : List (Entry build)} (h : HistoryOk startup log) :
    Consistent startup log (viewAfter startup log) := by
  rcases List.eq_nil_or_concat log with rfl | ⟨before, entry, rfl⟩
  · exact consistent_startup startup
  · rw [List.concat_eq_append] at h ⊢
    rw [viewAfter_concat]
    exact (h before entry [] rfl).consistent

theorem HistoryOk.concat {log : List (Entry build)} (h : HistoryOk startup log) {entry : Entry build}
    (hentry : Settled startup log entry) : HistoryOk startup (log ++ [entry]) := by
  intro before entry' after hsplit
  rcases List.eq_nil_or_concat after with rfl | ⟨front, last, rfl⟩
  · obtain ⟨rfl, hsame⟩ := List.append_inj' hsplit rfl
    obtain rfl := (List.cons.inj hsame).1
    exact hentry
  · rw [List.concat_eq_append, ← List.cons_append, ← List.append_assoc] at hsplit
    exact h before entry' front (List.append_inj' hsplit rfl).1

/-- The lock is released with a failure, and nothing has changed. -/
theorem settled_failed {s : Service build} (hhistory : HistoryOk startup s.log) (hview : s.view = viewAfter startup s.log)
    (caller : Nat) (update : Update H) (e : BrokerError) :
    HolderOk startup (s.finish caller update (.error e)) ∧ HistoryOk startup (s.finish caller update (.error e)).log := by
  refine ⟨(viewAfter_concat startup s.log ⟨caller, update, .error e, s.view⟩).symm,
    hhistory.concat ⟨?_, fun _ => hview⟩⟩
  apply Consistent.failed
  · rw [hview]
    exact hhistory.consistent
  · rfl

theorem start_ok {s : Service build} (hhistory : HistoryOk startup s.log) (hview : s.view = viewAfter startup s.log)
    (caller : Nat) (update : Update H) :
    HolderOk startup (s.start caller update) ∧ HistoryOk startup (s.start caller update).log := by
  unfold Service.start
  split
  · exact settled_failed hhistory hview caller update _
  · next publication hprepare =>
    split
    · exact settled_failed hhistory hview caller update _
    · next contents hrender =>
      have hwrites : ∀ os : Os, PersistStep.writeTemporary ∈ persistSteps os := by
        intro os
        cases os <;> decide
      refine ⟨⟨hprepare, by rw [hview], hrender, hview, ?_, List.suffix_refl _, ?_⟩, hhistory⟩
      · exact List.ne_nil_of_mem (hwrites build.os)
      · exact fun hwritten => absurd (hwrites build.os) hwritten

/-- The temporary file is created before it is written, and the rename comes last. -/
theorem persistSteps_order {os : Os} {step : PersistStep} {rest : List PersistStep}
    (h : step :: rest <:+ persistSteps os) :
    (step = .createTemporary → PersistStep.writeTemporary ∈ rest) ∧ (step = .install ↔ rest = []) := by
  have hall : ∀ remaining ∈ (persistSteps os).tails,
      (remaining.head? = some .createTemporary → PersistStep.writeTemporary ∈ remaining.tail) ∧
      (remaining ≠ [] → (remaining.head? = some .install ↔ remaining.tail = [])) := by
    cases os <;> decide
  obtain ⟨hcreate, hinstall⟩ := hall (step :: rest) ((List.mem_tails ..).mpr h)
  exact ⟨fun heq => hcreate (congrArg some heq), by simpa using hinstall (List.cons_ne_nil step rest)⟩

theorem perform_log (s : Service build) (contents : Str) (step : PersistStep) :
    (s.perform contents step).log = s.log := by cases step <;> rfl

/-- An operation before the rename does not touch the view. -/
theorem perform_view {step : PersistStep} (h : step ≠ .install) (s : Service build) (contents : Str) :
    (s.perform contents step).view = s.view := by cases step <;> first | rfl | exact absurd rfl h

/-- Behind the write the temporary file holds the contents. -/
theorem perform_temporary {os : Os} {step : PersistStep} {rest : List PersistStep} (hsuffix : step :: rest <:+ persistSteps os)
    (hne : rest ≠ []) {s : Service build} {contents : Str}
    (hwritten : PersistStep.writeTemporary ∉ step :: rest → s.temporary = some contents)
    (hrest : PersistStep.writeTemporary ∉ rest) : (s.perform contents step).temporary = some contents := by
  obtain ⟨hcreate, hinstall⟩ := persistSteps_order hsuffix
  have hkept : step ≠ .writeTemporary → s.temporary = some contents := by
    intro hstep
    apply hwritten
    rw [List.mem_cons, not_or]
    exact ⟨Ne.symm hstep, hrest⟩
  cases step with
  | createTemporary => exact absurd (hcreate rfl) hrest
  | writeTemporary => rfl
  | install => exact absurd (hinstall.mp rfl) hne
  | createParent => exact hkept (by decide)
  | secureParent => exact hkept (by decide)
  | openParent => exact hkept (by decide)
  | syncTemporary => exact hkept (by decide)
  | syncTemporaryParent => exact hkept (by decide)

theorem spoil_view (s : Service build) (contents : Str) (written : Nat) (step : PersistStep) :
    (s.spoil contents written step).view = s.view ∧ (s.spoil contents written step).log = s.log := by
  cases step <;> exact ⟨rfl, rfl⟩

section Advance
variable {s : Service build} {transaction : Transaction build}
  (hprepare : transaction.update.prepare build = .ok transaction.publication)
  (hcandidate : transaction.candidate = transaction.update.applyTo (viewAfter startup s.log).current)
  (hrender : transaction.candidate.render build = some transaction.contents)
include hprepare hcandidate hrender

theorem persisted_ok {step : PersistStep} {rest : List PersistStep} (hview : s.view = viewAfter startup s.log)
    (hsuffix : step :: rest <:+ persistSteps build.os)
    (hwritten : PersistStep.writeTemporary ∉ step :: rest → s.temporary = some transaction.contents) :
    HolderOk startup ((s.perform transaction.contents step).runs transaction
      (if rest = [] then .installed else .persisting rest)) := by
  obtain ⟨-, hinstall⟩ := persistSteps_order hsuffix
  by_cases hlast : rest = []
  · obtain rfl := hinstall.mpr hlast
    subst hlast
    refine ⟨hprepare, hcandidate, hrender, ?_⟩
    have htemporary := hwritten (by decide)
    simp only [Service.runs, Service.perform, htemporary, hview, if_true]
  · rw [if_neg hlast]
    refine ⟨hprepare, ?_, hrender, ?_, hlast, (List.suffix_cons step rest).trans hsuffix, ?_⟩
    · rw [hcandidate, Service.runs, perform_log]
    · rw [Service.runs, perform_log, perform_view (fun h => hlast (hinstall.mp h)), hview]
    · exact perform_temporary hsuffix hlast hwritten

theorem persistFailed_ok (hhistory : HistoryOk startup s.log) (hview : s.view = viewAfter startup s.log)
    (step : PersistStep) (written : Nat) :
    HolderOk startup (s.persistFailed transaction step written) ∧
      HistoryOk startup (s.persistFailed transaction step written).log := by
  unfold Service.persistFailed
  obtain ⟨hspoiled, hlog⟩ := spoil_view s transaction.contents written step
  simp only
  split
  · refine ⟨⟨hprepare, ?_, hrender, ?_⟩, ?_⟩
    · rw [hcandidate, Service.runs, hlog]
    · rw [Service.runs, hlog, hspoiled, hview]
    · rw [Service.runs, hlog]
      exact hhistory
  · exact settled_failed hhistory hview transaction.caller transaction.update _

end Advance
/-- One step of a running transaction keeps what is known of it. -/
theorem advance_ok (htoml : build.toml.RoundTrips) {s : Service build} {transaction : Transaction build}
    (hholder : s.holder = some (.running transaction)) (hok : HolderOk startup s) (hhistory : HistoryOk startup s.log)
    (outcome : Outcome) :
    HolderOk startup (s.advance transaction outcome) ∧ HistoryOk startup (s.advance transaction outcome).log := by
  simp only [HolderOk, hholder] at hok
  obtain ⟨hprepare, hcandidate, hrender, hphase⟩ := hok
  unfold Service.advance
  split
  · next _ _ hpersisting =>
    rw [hpersisting] at hphase
    exact absurd rfl hphase.2.1
  · next _ _ step rest hpersisting =>
    rw [hpersisting] at hphase
    obtain ⟨hview, -, hsuffix, hwritten⟩ := hphase
    refine ⟨persisted_ok hprepare hcandidate hrender hview hsuffix hwritten, ?_⟩
    rw [Service.runs, perform_log]
    exact hhistory
  · next _ _ step rest written hpersisting =>
    rw [hpersisting] at hphase
    exact persistFailed_ok hprepare hcandidate hrender hhistory hphase.1 step written
  · next _ _ outcome error hcleaning =>
    rw [hcleaning] at hphase
    exact settled_failed (s := { s with temporary := if outcome = Outcome.done then none else s.temporary })
      hhistory hphase transaction.caller transaction.update _
  · next _ _ _ hinstalled =>
    rw [hinstalled] at hphase
    refine ⟨⟨hprepare, hcandidate, hrender, ?_⟩, hhistory⟩
    simp only [Service.runs, hphase]
  · next _ _ _ hpublished =>
    rw [hpublished] at hphase
    let entry : Entry build :=
      ⟨transaction.caller, transaction.update, .ok (), { s.view with current := transaction.candidate }⟩
    have hview : entry.after = ⟨entry.update.applyTo (viewAfter startup s.log).current,
        (viewAfter startup s.log).live.publish transaction.publication, some transaction.contents⟩ := by
      simp only [entry, hphase, hcandidate]
    have hconsistent : Consistent startup (s.log ++ [entry]) entry.after := by
      rw [hcandidate] at hrender
      rw [hview]
      exact hhistory.consistent.succeeded htoml rfl hprepare hrender
    exact ⟨(viewAfter_concat startup s.log entry).symm, hhistory.concat ⟨hconsistent, fun h => by cases h⟩⟩

section Callers
variable {s : Service build}

theorem finish_callers {caller : Nat} (h : s.holderCaller = [caller]) (update : Update H)
    (outcome : Except BrokerError Unit) : (s.finish caller update outcome).callers.Perm s.callers := by
  have hmoved : (s.finish caller update outcome).callers =
      s.waiting.map Prod.fst ++ (s.log.map Entry.caller ++ [caller] ++ s.cancelled) := by
    simp [Service.callers, Service.finish, Service.holderCaller]
  rw [hmoved, Service.callers, h, List.append_assoc]
  apply List.Perm.append_left
  exact List.perm_middle

/-- A step inside a transaction leaves every caller where it is. -/
theorem runs_callers {transaction : Transaction build} (h : s.holderCaller = [transaction.caller]) {s' : Service build}
    (hwaiting : s'.waiting = s.waiting) (hlog : s'.log = s.log) (hcancelled : s'.cancelled = s.cancelled) (phase : Phase) :
    (s'.runs transaction phase).callers.Perm s.callers := by
  have hholder : (s'.runs transaction phase).holderCaller = [transaction.caller] := rfl
  rw [Service.callers, Service.callers, hholder, h]
  simp only [Service.runs, hwaiting, hlog, hcancelled]
  exact List.Perm.refl _

theorem start_callers {caller : Nat} {update : Update H} (h : s.holder = some (.starting caller update)) :
    (s.start caller update).callers.Perm s.callers := by
  have hholder : s.holderCaller = [caller] := by rw [Service.holderCaller, h]
  unfold Service.start
  split
  · exact finish_callers hholder update _
  · split
    · exact finish_callers hholder update _
    · next publication _ _ contents _ =>
      exact @runs_callers H build s ⟨caller, update, update.applyTo s.view.current, publication, contents,
        .persisting (persistSteps build.os)⟩ hholder s rfl rfl rfl (.persisting (persistSteps build.os))

theorem perform_frame (s : Service build) (contents : Str) (step : PersistStep) :
    (s.perform contents step).waiting = s.waiting ∧ (s.perform contents step).cancelled = s.cancelled := by
  cases step <;> exact ⟨rfl, rfl⟩

theorem spoil_frame (s : Service build) (contents : Str) (written : Nat) (step : PersistStep) :
    (s.spoil contents written step).waiting = s.waiting ∧ (s.spoil contents written step).cancelled = s.cancelled := by
  cases step <;> exact ⟨rfl, rfl⟩

theorem advance_callers {transaction : Transaction build} (h : s.holder = some (.running transaction))
    (outcome : Outcome) : (s.advance transaction outcome).callers.Perm s.callers := by
  have hholder : s.holderCaller = [transaction.caller] := by rw [Service.holderCaller, h]
  unfold Service.advance
  split
  · exact runs_callers hholder rfl rfl rfl _
  · next _ _ step rest _ =>
    obtain ⟨hwaiting, hcancelled⟩ := perform_frame s transaction.contents step
    exact runs_callers hholder hwaiting (perform_log s transaction.contents step) hcancelled _
  · next _ _ step rest written _ =>
    unfold Service.persistFailed
    simp only
    split
    · obtain ⟨hwaiting, hcancelled⟩ := spoil_frame s transaction.contents written step
      exact runs_callers hholder hwaiting (spoil_view s transaction.contents written step).2 hcancelled _
    · exact finish_callers hholder transaction.update _
  · next _ _ outcome error _ =>
    exact @finish_callers H build { s with temporary := if outcome = Outcome.done then none else s.temporary }
      transaction.caller hholder transaction.update _
  · exact runs_callers hholder rfl rfl rfl _
  · exact @finish_callers H build { s with view := { s.view with current := transaction.candidate } }
      transaction.caller hholder transaction.update _

theorem start_issued (s : Service build) (caller : Nat) (update : Update H) : (s.start caller update).issued = s.issued := by
  unfold Service.start
  split
  · rfl
  · split
    · rfl
    · rfl

theorem advance_issued (s : Service build) (transaction : Transaction build) (outcome : Outcome) :
    (s.advance transaction outcome).issued = s.issued := by
  unfold Service.advance
  split
  · rfl
  · next _ _ step _ _ => cases step <;> rfl
  · next _ _ step _ _ _ => cases step <;> rfl
  · rfl
  · rfl
  · rfl

theorem waiting_perm (hdistinct : (s.waiting.map Prod.fst).Nodup) {caller : Nat} (hmem : caller ∈ s.waiting.map Prod.fst) :
    (s.waiting.map Prod.fst).Perm (caller :: (s.waiting.filter (fun request => request.1 != caller)).map Prod.fst) := by
  have hfilter : (s.waiting.filter (fun request => request.1 != caller)).map Prod.fst =
      (s.waiting.map Prod.fst).filter (· != caller) := by
    rw [List.filter_map]
    rfl
  rw [hfilter, ← hdistinct.erase_eq_filter]
  exact List.perm_cons_erase hmem

end Callers

theorem step_callers {s s' : Service build} {action : Action H} (hdistinct : s.callers.Nodup)
    (h : s.step action = some s') :
    s'.callers.Perm s.callers ∧ s'.issued = s.issued ∨
      s'.callers.Perm (s.issued :: s.callers) ∧ s'.issued = s.issued + 1 := by
  have hwaiting : (s.waiting.map Prod.fst).Nodup := (List.nodup_append.mp hdistinct).1
  cases action with
  | call update =>
    obtain rfl := Option.some.inj h
    refine .inr ⟨?_, rfl⟩
    simp only [Service.callers, Service.holderCaller, List.map_append, List.map_singleton, List.append_assoc,
      List.singleton_append]
    exact List.perm_middle
  | cancel caller =>
    simp only [Service.step] at h
    split at h
    · next hmem =>
      obtain rfl := Option.some.inj h
      refine .inl ⟨?_, rfl⟩
      have hmoved : ∀ front : List Nat, (front ++ (s.holderCaller ++ (s.log.map Entry.caller ++ caller :: s.cancelled))).Perm
          (caller :: front ++ (s.holderCaller ++ (s.log.map Entry.caller ++ s.cancelled))) := by
        intro front
        simp only [← List.append_assoc, List.cons_append]
        exact List.perm_middle
      exact (hmoved _).trans ((waiting_perm hwaiting hmem).symm.append_right _)
    · obtain rfl := Option.some.inj h
      exact .inl ⟨List.Perm.refl _, rfl⟩
  | acquire caller =>
    simp only [Service.step] at h
    split at h
    · next request hholder hfind =>
      obtain rfl := Option.some.inj h
      have hcaller : request.1 = caller := by simpa using List.find?_some hfind
      have hmem : caller ∈ s.waiting.map Prod.fst :=
        List.mem_map.mpr ⟨request, List.mem_of_find?_eq_some hfind, hcaller⟩
      refine .inl ⟨?_, rfl⟩
      have hheld : s.holderCaller = [] := by rw [Service.holderCaller, hholder]
      rw [Service.callers, Service.callers, hheld, List.nil_append]
      exact List.perm_middle.trans ((waiting_perm hwaiting hmem).symm.append_right _)
    · cases h
  | advance outcome =>
    simp only [Service.step] at h
    split at h
    · cases h
    · next caller update hholder =>
      obtain rfl := Option.some.inj h
      exact .inl ⟨start_callers hholder, start_issued s caller update⟩
    · next transaction hholder =>
      obtain rfl := Option.some.inj h
      exact .inl ⟨advance_callers hholder outcome, advance_issued s transaction outcome⟩

/-- Every step keeps the invariant. -/
theorem step_invariant (htoml : build.toml.RoundTrips) {s s' : Service build} {action : Action H}
    (hs : Invariant startup s) (h : s.step action = some s') : Invariant startup s' := by
  have hordered : HolderOk startup s' ∧ HistoryOk startup s'.log := by
    cases action with
    | call update =>
      obtain rfl := Option.some.inj h
      exact ⟨hs.holder, hs.history⟩
    | cancel caller =>
      simp only [Service.step] at h
      split at h
      · obtain rfl := Option.some.inj h
        exact ⟨hs.holder, hs.history⟩
      · obtain rfl := Option.some.inj h
        exact ⟨hs.holder, hs.history⟩
    | acquire caller =>
      simp only [Service.step] at h
      split at h
      · next request hholder _ =>
        obtain rfl := Option.some.inj h
        have hview := hs.holder
        simp only [HolderOk, hholder] at hview
        exact ⟨hview, hs.history⟩
      · cases h
    | advance outcome =>
      simp only [Service.step] at h
      split at h
      · cases h
      · next caller update hholder =>
        obtain rfl := Option.some.inj h
        have hview := hs.holder
        simp only [HolderOk, hholder] at hview
        exact start_ok hs.history hview caller update
      · next transaction hholder =>
        obtain rfl := Option.some.inj h
        exact advance_ok htoml hholder hs.holder hs.history outcome
  refine ⟨hordered.1, hordered.2, ?_, ?_⟩
  · rcases step_callers hs.distinct h with ⟨hperm, -⟩ | ⟨hperm, -⟩
    · exact hperm.nodup_iff.mpr hs.distinct
    · apply hperm.nodup_iff.mpr
      exact List.nodup_cons.mpr ⟨fun hmem => Nat.lt_irrefl _ (hs.issued _ hmem), hs.distinct⟩
  · intro caller hmem
    rcases step_callers hs.distinct h with ⟨hperm, hissued⟩ | ⟨hperm, hissued⟩
    · rw [hissued]
      exact hs.issued caller (hperm.mem_iff.mp hmem)
    · rw [hissued]
      rcases List.mem_cons.mp (hperm.mem_iff.mp hmem) with rfl | hold
      · exact Nat.lt_succ_self _
      · exact Nat.lt_succ_of_lt (hs.issued caller hold)

theorem startup_invariant (startup : Startup build) : Invariant startup startup.service where
  holder := rfl
  history := by
    intro before entry after h
    exact absurd h.symm (List.append_ne_nil_of_right_ne_nil before (List.cons_ne_nil entry after))
  distinct := List.nodup_nil
  issued := by simp [Startup.service, Service.callers, Service.holderCaller]

end Invariant

/-- In every run the transactions that ran are ordered so that each left a view that agrees with the successful updates
up to it, and failed ones left the view alone; a caller cancelled while it waits has no transaction. -/
theorem updates_serializable (htoml : build.toml.RoundTrips) (startup : Startup build) (actions : List (Action H))
    (s : Service build) (h : run Service.step startup.service actions = some s) :
    (∀ before entry after, s.log = before ++ entry :: after → Settled startup before entry) ∧
    (s.holder = none → s.view = viewAfter startup s.log ∧ Consistent startup s.log s.view) ∧
    (s.log.map Entry.caller).Nodup ∧
    ∀ caller ∈ s.cancelled, caller ∉ s.log.map Entry.caller ∧ caller ∉ s.holderCaller := by
  have hs := run_invariant (step_invariant htoml) (startup_invariant startup) h
  have hdistinct := hs.distinct
  rw [Service.callers, List.nodup_append, List.nodup_append, List.nodup_append] at hdistinct
  obtain ⟨-, ⟨-, ⟨hlog, -, hfresh⟩, hheld⟩, -⟩ := hdistinct
  refine ⟨hs.history, ?_, hlog, ?_⟩
  · intro hnone
    have hview := hs.holder
    simp only [HolderOk, hnone] at hview
    exact ⟨hview, hview ▸ hs.history.consistent⟩
  · intro caller hmem
    refine ⟨fun hran => hfresh caller hran caller hmem rfl, ?_⟩
    exact fun hholder => hheld caller hholder caller (List.mem_append_right _ hmem) rfl

/-- A snapshot whose hooks section is the switch of the harness hook. -/
def samplePolicies : RuntimePolicies Bool := ⟨⟨⟨.intercept, none, []⟩⟩, true, none⟩

def sampleText : Str :=
  "schema_version = 1\n\n[mitm.tls_decryption]\ndefault_action = \"intercept\"\nrules = []\n\n[hooks.harness_usage]\nenabled = true\n".toList

/-- The TOML text of one snapshot. -/
def sampleBuild : Build Bool where
  os := .linux
  platform := .unix
  types := ⟨fun _ => none, fun _ => none, fun _ => none, fun _ => none, fun _ => none, fun _ => none⟩
  toml :=
    { toStringPretty := fun file =>
        if file.schemaVersion = 1 ∧ file.policies.mitm = samplePolicies.mitm ∧ file.policies.hooks = true ∧
            file.policies.network = none then some sampleText
        else none
      fromStr := fun text => if text = sampleText ++ ['\n'] then some ⟨1, samplePolicies⟩ else none }

theorem sampleBuild_roundTrips : sampleBuild.toml.RoundTrips := by
  intro file text h
  simp only [sampleBuild] at h ⊢
  split at h
  · next hfile =>
    obtain rfl := Option.some.inj h
    obtain ⟨version, mitm, hooks, network⟩ := file
    obtain ⟨rfl, rfl, rfl, rfl⟩ := hfile
    rw [if_pos rfl]
    rfl
  · cases h

def sampleStartup : Startup sampleBuild :=
  ⟨⟨⟨.passthrough, some .passthrough, []⟩, rfl⟩, true, none, none, ⟨⟨none⟩, none⟩, rfl, none⟩

/-- One update that is committed, and one that is cancelled while it waits. -/
def sampleActions : List (Action Bool) :=
  [.call (.mitm samplePolicies.mitm), .call (.hooks false), .acquire 0, .cancel 1, .cancel 0] ++
    List.replicate 11 (.advance .done)

theorem updates_serializable_mitm :
    ∃ s, run Service.step sampleStartup.service sampleActions = some s ∧ s.log.map Entry.caller = [0] ∧
      s.cancelled = [1] ∧ s.view.file = some (sampleText ++ ['\n']) ∧ Consistent sampleStartup s.log s.view := by
  have hrun : (run Service.step sampleStartup.service sampleActions).map (fun s =>
      (s.log.map Entry.caller, s.cancelled, s.view.file, s.holder.isNone)) =
      some ([0], [1], some (sampleText ++ ['\n']), true) := by decide +kernel
  obtain ⟨s, hs, hfields⟩ := Option.map_eq_some_iff.mp hrun
  simp only [Prod.mk.injEq, Option.isNone_iff_eq_none] at hfields
  obtain ⟨hlog, hcancelled, hfile, hnone⟩ := hfields
  obtain ⟨-, hview, -, -⟩ := updates_serializable sampleBuild_roundTrips sampleStartup sampleActions s hs
  exact ⟨s, hs, hlog, hcancelled, hfile, (hview hnone).2⟩

end Abyss.Broker
