import Abyss.Delivery.Exclusion

/-! The managed credential along every schedule: what a request carries, and what a refusal revokes. -/
namespace Abyss.Delivery
open Abyss.Text Abyss.System
variable {Time : Type} {config : UploaderConfig Time} {worker worker' : Worker} {i : Nat}

section Safety

/-- The bearer that is installed after a history: none after a clear, a refusal or a restart. -/
def current (trace : List CredentialEvent) : Option Str :=
  trace.foldl (fun token event =>
    match event with
    | .installed token _ => some token
    | .sent .. => token
    | .cleared | .refused _ | .restarted => none) none

/-- Requests carry the bearer that is installed, in the state `Configured`; only the bearer that is
installed is revoked; and what is installed is not blank, and meant for the origin of the endpoint. -/
inductive SafeTrace (config : UploaderConfig Time) : List CredentialEvent → Prop
  | start : SafeTrace config []
  | installed {trace : List CredentialEvent} {bearerToken token audience : Str} (h : SafeTrace config trace)
    (htoken : token = trim bearerToken) (hblank : token ≠ [])
    (horigin : config.authentication.httpOrigin audience = .ok config.authentication.endpointOrigin) :
    SafeTrace config (trace ++ [.installed token audience])
  | sent {trace : List CredentialEvent} {token : Str} (h : SafeTrace config trace) (hcurrent : current trace = some token) :
    SafeTrace config (trace ++ [.sent (.fromBearer token) .configured])
  | refused {trace : List CredentialEvent} {token : Str} (h : SafeTrace config trace) (hcurrent : current trace = some token) :
    SafeTrace config (trace ++ [.refused (.fromBearer token)])
  | cleared {trace : List CredentialEvent} (h : SafeTrace config trace) : SafeTrace config (trace ++ [.cleared])
  | restarted {trace : List CredentialEvent} (h : SafeTrace config trace) : SafeTrace config (trace ++ [.restarted])

theorem current_append (trace : List CredentialEvent) (event : CredentialEvent) : current (trace ++ [event]) =
    match event with
    | .installed token _ => some token
    | .sent .. => current trace
    | .cleared | .refused _ | .restarted => none := by
  rw [current, List.foldl_append]
  rfl

/-- The runtime says what the history does: configured with the bearer that is installed, or not at all. -/
def Follows (runtime : AuthenticationRuntime) : Option Str → Prop
  | some token => runtime = AuthenticationConfig.installBearer token
  | none => runtime.state ≠ .configured

structure Guarded (config : UploaderConfig Time) (worker : Worker) : Prop where
  safe : SafeTrace config worker.trace
  follows : Follows worker.runtime (current worker.trace)
  holder : Exclusive worker
  carries : ∀ (j : Nat) (phase : Phase) authentication, worker.tasks[j]? = some phase → phase.credential = some authentication →
    ∃ token, current worker.trace = some token ∧ authentication = .fromBearer token
  installs : ∀ (j : Nat) (phase : Phase) token audience, worker.tasks[j]? = some phase → phase.installs = some (token, audience) →
    ∃ bearerToken, config.authentication.checkManagedBearer bearerToken audience = .ok token

private theorem credential_locked {phase : Phase} {authentication : DeliveryAuthentication}
    (h : phase.credential = some authentication) : phase.locked = true := by
  cases phase <;> first | rfl | cases h

private theorem installs_locked {phase : Phase} {p : Str × Str} (h : phase.installs = some p) : phase.locked = true := by
  cases phase <;> first | rfl | cases h

private theorem absent {α : Type} {x : Option α} {p : α → Prop} (h : x = none) : ∀ a, x = some a → p a := by
  intro a hsome
  cases h.symm.trans hsome

private theorem Guarded.moves {next : Phase} (h : Guarded config worker) (hlock : worker.lock = some i)
    (hmoves : Moves worker worker' i next) (hsafe : SafeTrace config worker'.trace)
    (hfollows : Follows worker'.runtime (current worker'.trace))
    (hcarries : ∀ authentication, next.credential = some authentication →
      ∃ token, current worker'.trace = some token ∧ authentication = .fromBearer token)
    (hinstalls : ∀ p, next.installs = some p →
      ∃ bearerToken, config.authentication.checkManagedBearer bearerToken p.2 = .ok p.1) : Guarded config worker' := by
  refine ⟨hsafe, hfollows, h.holder.moves hlock hmoves, ?_, ?_⟩
  · intro j phase authentication hphase hcredential
    rw [hmoves.tasks] at hphase
    obtain ⟨rfl, rfl⟩ := h.holder.inside hlock hphase (credential_locked hcredential)
    exact hcarries authentication hcredential
  · intro j phase token audience hphase hinstall
    rw [hmoves.tasks] at hphase
    obtain ⟨rfl, rfl⟩ := h.holder.inside hlock hphase (installs_locked hinstall)
    exact hinstalls (token, audience) hinstall

private theorem follows_configured {runtime : AuthenticationRuntime} {token : Option Str} (h : Follows runtime token)
    (hstate : runtime.state = .configured) : ∃ t, token = some t ∧ runtime = AuthenticationConfig.installBearer t := by
  cases token with
  | none => exact absurd hstate h
  | some t => exact ⟨t, rfl, h⟩

private theorem Guarded.credentialStep (hmode : config.authentication.mode = .managedBearer) {phase : Phase}
    (h : Guarded config worker) (hlock : worker.lock = some i) (hphase : worker.tasks[i]? = some phase)
    (hstep : CredentialStep config worker i phase worker') : Guarded config worker' := by
  cases hstep with
  | idle hidle =>
    obtain ⟨next, hmoves, hruntime, htrace, hcredential, hinstalls⟩ := hidle
    refine h.moves hlock hmoves (htrace ▸ h.safe) (by rw [hruntime, htrace]; exact h.follows) ?_ ?_
    · exact absent hcredential
    · exact absent hinstalls
  | snapshot hmoves hruntime htrace hcredential hinstalls hfrom =>
    refine h.moves hlock hmoves (htrace ▸ h.safe) (by rw [hruntime, htrace]; exact h.follows) ?_ ?_
    · intro authentication hsome
      obtain rfl := Option.some.inj (hcredential.symm.trans hsome)
      rw [htrace]
      rcases hfrom with hcarried | hsnapshot
      · exact h.carries i phase _ hphase hcarried
      · obtain ⟨hstate, rfl⟩ := AuthenticationConfig.forRequest_managed hmode hsnapshot
        obtain ⟨token, hcurrent, hruntime⟩ := follows_configured h.follows hstate
        exact ⟨token, hcurrent, by rw [hruntime]; rfl⟩
    · exact absent hinstalls
  | send hmoves hruntime htrace hcredential hinstalls hcarried =>
    obtain ⟨token, hcurrent, rfl⟩ := h.carries i phase _ hphase hcarried
    have hconfigured : worker.runtime.state = .configured := by
      have hfollows := h.follows
      rw [hcurrent] at hfollows
      rw [hfollows]
      rfl
    have hsame : current worker'.trace = some token := by
      rw [htrace, current_append]
      exact hcurrent
    refine h.moves hlock hmoves ?_ ?_ ?_ ?_
    · rw [htrace, hconfigured]
      exact .sent h.safe hcurrent
    · rw [hruntime, hsame, ← hcurrent]
      exact h.follows
    · intro authentication hsome
      obtain rfl := Option.some.inj (hcredential.symm.trans hsome)
      exact ⟨token, hsame, rfl⟩
    · exact absent hinstalls
  | refuse hmoves hruntime htrace hcredential hinstalls hcarried =>
    obtain ⟨token, hcurrent, rfl⟩ := h.carries i phase _ hphase hcarried
    refine h.moves hlock hmoves ?_ ?_ ?_ ?_
    · rw [htrace]
      exact .refused h.safe hcurrent
    · rw [hruntime, htrace, current_append, AuthenticationConfig.markUnauthorized, if_pos hmode]
      exact DeliveryAuthenticationState.noConfusion
    · exact absent hcredential
    · exact absent hinstalls
  | check hmoves hruntime htrace hcredential hinstalls hcheck =>
    refine h.moves hlock hmoves (htrace ▸ h.safe) (by rw [hruntime, htrace]; exact h.follows) ?_ ?_
    · exact absent hcredential
    · intro p hsome
      cases hinstalls.symm.trans hsome
      exact ⟨_, hcheck⟩
  | install hmoves hruntime htrace hcredential hinstalls hphaseInstalls =>
    obtain ⟨bearerToken, hcheck⟩ := h.installs i phase _ _ hphase hphaseInstalls
    obtain ⟨htoken, hblank, horigin⟩ := AuthenticationConfig.checkManagedBearer_ok hcheck
    refine h.moves hlock hmoves ?_ ?_ ?_ ?_
    · rw [htrace]
      exact .installed h.safe htoken hblank horigin
    · rw [hruntime, htrace, current_append]
      exact rfl
    · exact absent hcredential
    · exact absent hinstalls
  | clear hmoves hruntime htrace hcredential hinstalls =>
    refine h.moves hlock hmoves ?_ ?_ ?_ ?_
    · rw [htrace]
      exact .cleared h.safe
    · rw [hruntime, htrace, current_append]
      exact DeliveryAuthenticationState.noConfusion
    · exact absent hcredential
    · exact absent hinstalls

private theorem Guarded.lock (h : Guarded config worker) (hfree : worker.lock = none) (i : Nat) :
    Guarded config { worker with lock := some i } := ⟨h.safe, h.follows, h.holder.lock hfree i, h.carries, h.installs⟩

theorem Guarded.step (hmode : config.authentication.mode = .managedBearer) {action : Action Time} (h : Guarded config worker)
    (hstep : worker.step config action = some worker') : Guarded config worker' := by
  cases action with
  | start operation =>
    have hholder := h.holder.step hstep
    cases hstep
    refine ⟨h.safe, h.follows, hholder, ?_, ?_⟩
    · exact fun j phase authentication hphase hcredential =>
        h.carries j phase authentication (inside_start hphase (credential_locked hcredential)) hcredential
    · exact fun j phase token audience hphase hinstalls =>
        h.installs j phase token audience (inside_start hphase (installs_locked hinstalls)) hinstalls
  | task i outcome =>
    have hholder := h.holder.step hstep
    simp only [Worker.step, Option.bind_eq_bind, Option.bind_eq_some_iff] at hstep
    obtain ⟨phase, hphase, hstep⟩ := hstep
    rcases stepTask_credential hstep with ⟨hlocked, hcredential⟩ | ⟨-, hfree, hcredential⟩ | ⟨-, reply, rfl⟩
    · exact h.credentialStep hmode (h.holder i phase hphase hlocked) hphase hcredential
    · exact (h.lock hfree i).credentialStep hmode rfl hphase hcredential
    · refine ⟨h.safe, h.follows, hholder, ?_, ?_⟩
      · exact fun j next authentication hnext hcredential =>
          h.carries j next authentication (inside_report hnext (credential_locked hcredential)) hcredential
      · exact fun j next token audience hnext hinstalls =>
          h.installs j next token audience (inside_report hnext (installs_locked hinstalls)) hinstalls
  | crash credential =>
    cases hstep
    refine ⟨.restarted h.safe, ?_, ?_, ?_, ?_⟩
    · rw [current_append, AuthenticationConfig.load, hmode]
      exact DeliveryAuthenticationState.noConfusion
    all_goals
      intro j phase
      simp

theorem guarded_initial (hmode : config.authentication.mode = .managedBearer) (credential : Str) :
    Guarded config (Worker.initial config credential) := by
  refine ⟨.start, ?_, ?_, ?_, ?_⟩
  · rw [Worker.initial, AuthenticationConfig.load, hmode]
    exact DeliveryAuthenticationState.noConfusion
  all_goals
    intro j phase
    simp [Worker.initial]

/-- A `set` that the checks reject changes nothing. -/
def RejectsSet (config : UploaderConfig Time) (worker : Worker) : Prop :=
  ∀ (i : Nat) (bearerToken audience : Str) (outcome : Outcome) (e : DeliveryPluginError) (worker' : Worker),
    worker.tasks[i]? = some (.locking (.setManagedBearerAndReplay bearerToken audience)) →
    config.authentication.checkManagedBearer bearerToken audience = .error e →
    worker.step config (.task i outcome) = some worker' →
      worker' = { worker with tasks := worker.tasks.set i (.done (.error e)) }

/-- Along every schedule in managed mode: requests are sent in the state `Configured` with the bearer that was
installed last and not cleared or refused since; a refusal revokes the bearer that its request carried and no
other; only a bearer that is not blank and meant for the origin of the endpoint is installed; the runtime always
agrees with this history; and a `set` that is rejected changes nothing. -/
theorem managed_credential_safe (config : UploaderConfig Time) (hmode : config.authentication.mode = .managedBearer)
    (credential : Str) {actions : List (Action Time)} {worker : Worker}
    (h : run (Worker.step config) (.initial config credential) actions = some worker) :
    SafeTrace config worker.trace ∧ Follows worker.runtime (current worker.trace) ∧ RejectsSet config worker := by
  have hguarded : Guarded config worker :=
    @run_invariant _ _ (Worker.step config) (Guarded config) (fun hinv hstep => hinv.step hmode hstep) _ _ _
      (guarded_initial hmode credential) h
  refine ⟨hguarded.safe, hguarded.follows, ?_⟩
  intro i bearerToken audience outcome e worker' hphase hcheck hstep
  simp only [Worker.step, hphase, Option.bind_eq_bind, Option.bind_some] at hstep
  cases outcome <;> simp only [Worker.stepTask, Worker.stepPost, Worker.stepSpool, Worker.stepReplay, Worker.stepControl,
    Option.or, reduceCtorEq] at hstep
  split at hstep
  · next hfree =>
    simp only [Worker.locked, hcheck, Option.some.injEq] at hstep
    rw [← hstep]
    simp [Worker.finish, Worker.goto, hfree]
  · cases hstep

end Safety

section Samples

private def sampleUrl : Url := ⟨"https".toList, "https://example.test".toList⟩

private def sampleConfig : UploaderConfig Unit where
  authentication := ⟨.managedBearer, sampleUrl.origin, fun _ => .ok sampleUrl⟩
  spoolEnabled := true
  rfc3339 _ := "2026-01-02T03:04:05+00:00".toList
  statusText _ := "401 Unauthorized".toList
  debugText _ := "[]".toList

private def sampleSchedule : List (Action Unit) :=
  [.start (.setManagedBearerAndReplay " t1 ".toList "https://example.test/login".toList), .start (.deliver sampleEvent),
    .task 0 .ok, .task 0 .ok, .task 0 .notFound, .task 1 .ok, .task 1 .ok, .task 1 .ok,
    .task 1 (.answer 401 (.error [])), .task 1 .ok]

private theorem sample_trace : ∃ worker, run (Worker.step sampleConfig) (.initial sampleConfig []) sampleSchedule = some worker ∧
    worker.trace = [.installed "t1".toList "https://example.test/login".toList,
      .sent (.fromBearer "t1".toList) .configured, .refused (.fromBearer "t1".toList)] := ⟨_, rfl, rfl⟩

/-- A bearer is installed, a request that carries it is refused, and the bearer is revoked. -/
theorem sample_refusal : ∃ worker, run (Worker.step sampleConfig) (.initial sampleConfig []) sampleSchedule = some worker ∧
    worker.trace = [.installed "t1".toList "https://example.test/login".toList,
      .sent (.fromBearer "t1".toList) .configured, .refused (.fromBearer "t1".toList)] ∧
    SafeTrace sampleConfig worker.trace ∧ Follows worker.runtime (current worker.trace) ∧ RejectsSet sampleConfig worker := by
  obtain ⟨worker, hrun, htrace⟩ := sample_trace
  exact ⟨worker, hrun, htrace, managed_credential_safe sampleConfig rfl [] hrun⟩

end Samples
end Abyss.Delivery
