import Abyss.Cli.DeployLocal.Launch

/-! The stages of a start: preparation, the backend, the dashboard and the configuration. -/
namespace Abyss.Cli.DeployLocal
open Abyss.Text Abyss.System

section Worlds

/-- The dashboard process was launched against a backend URL. -/
def Process.launchedAgainst (process : Process) (url : Str) : Prop := [lit "--backend", url] <:+: process.commandLine

/-- A held lifetime lock has its file. -/
def Locked (w : World) : Prop := ∀ service, w.held service = true → w.lockFile service = true

/-- A dashboard on the recorded port was launched against the recorded backend. -/
def Truthful (w : World) : Prop := ∀ state, w.state = .contents state → state.usesCurrentArtifacts = true →
  ∀ p ∈ w.processes, p.service = some .dashboard → p.port = some state.dashboardPort →
    p.launchedAgainst (loopbackUrl state.backendPort)

/-- A world in which a call can begin: the promises of the system hold, the files fit the processes, and the call has
launched nothing and failed nowhere. -/
structure Sound (w : World) : Prop where
  processes : SoundProcesses w.processes
  locked : Locked w
  recorded : Truthful w
  launched : ∀ p ∈ w.processes, p.launched = false
  unfailed : w.failedAt = none

end Worlds

section Shrink

/-- An operation that launches nothing and writes neither configuration. -/
structure Shrinks (w w' : World) : Prop extends Evolves w w' where
  processes : w'.processes.Sublist w.processes
  lockFile : ∀ service, w.lockFile service = true → w'.lockFile service = true
  state : w'.state = w.state

theorem Shrinks.trans {w w' w'' : World} (h : Shrinks w w') (h' : Shrinks w' w'') : Shrinks w w'' where
  toEvolves := h.toEvolves.trans h'.toEvolves
  processes := h'.processes.trans h.processes
  lockFile service hlock := h'.lockFile service (h.lockFile service hlock)
  state := h'.state.trans h.state

theorem Still.shrinks {service : ManagedService} {w w' : World} (h : Still service w w') : Shrinks w w' :=
  ⟨h.toEvolves, h.processes ▸ List.Sublist.refl _, h.lockFile, h.state⟩

theorem Stopped.shrinks {machine : Machine} {service : ManagedService} {record : Option ProcessRecord} {w w' : World}
    {r : Except CliError Bool} (h : Stopped machine service record w r w') : Shrinks w w' :=
  ⟨h.touches.toEvolves, h.processes, h.touches.lockFile, h.touches.state⟩

theorem Shrinks.locked {w w' : World} (h : Shrinks w w') (hlocked : Locked w) : Locked w' := by
  intro service hheld
  obtain ⟨p, hp, hservice⟩ := held_iff.mp hheld
  exact h.lockFile service (hlocked service (held_iff.mpr ⟨p, h.processes.subset hp, hservice⟩))

theorem Shrinks.free {w w' : World} (h : Shrinks w w') {service : ManagedService} (hfree : w.held service = false) :
    w'.held service = false := by
  rw [← Bool.not_eq_true, held_iff] at hfree ⊢
  rintro ⟨p, hp, hservice⟩
  exact hfree ⟨p, h.processes.subset hp, hservice⟩

end Shrink

section Prepare
variable (machine : Machine) {w : World}

theorem stopServices_post (hlocked : Locked w) : Fallible.Post (stopServices machine) w (fun r w' => Shrinks w w' ∧
    (∀ e, r = .error e → w'.failedAt.isSome = true) ∧ (r = .ok () → ∀ service, w'.held service = false)) := by
  refine .bind (stop_post machine .dashboard w (hlocked .dashboard)) ?_ ?_
  · rintro stopped w₁ ⟨hdashboard, -⟩
    have hfree := hdashboard.released stopped rfl
    refine .bind (stop_post machine .backend w₁ (hdashboard.shrinks.locked hlocked .backend)) ?_ ?_
    · rintro stopped' w₂ ⟨hbackend, -⟩
      refine ⟨hdashboard.shrinks.trans hbackend.shrinks, nofun, fun _ service => ?_⟩
      cases service with
      | backend => exact hbackend.released stopped' rfl
      | dashboard => exact hbackend.shrinks.free hfree
    · rintro e w₂ ⟨hbackend, -⟩
      exact ⟨hdashboard.shrinks.trans hbackend.shrinks, fun _ _ => hbackend.failed e rfl, nofun⟩
  · rintro e w₁ ⟨hdashboard, -⟩
    exact ⟨hdashboard.shrinks, fun _ _ => hdashboard.failed e rfl, nofun⟩

/-- A state that is continued was read from the file and names distinct ports. -/
theorem loadState_post (w : World) : Fallible.Post (loadState machine) w (fun r w' => Still .backend w w' ∧
    (∀ e, r = .error e → w'.failedAt.isSome = true) ∧
    ∀ state, r = .ok (some state) → w.state = .contents state ∧ state.backendPort ≠ state.dashboardPort) := by
  refine .bind (io_post machine .backend w _) ?_ ?_
  · rintro _ w₁ ⟨hstill, -, -, -⟩
    apply Fallible.Post.get
    rw [hstill.state]
    have hfail : ∀ error, Fallible.Post (fail error : Op (Option DeploymentState)) w₁ (fun r w' => Still .backend w w' ∧
        (∀ e, r = .error e → w'.failedAt.isSome = true) ∧ ∀ state, r ≠ .ok (some state)) :=
      fun error => ⟨hstill.trans (failNow_still .backend w₁), fun _ _ => failNow_failed w₁, nofun⟩
    cases hfile : w.state with
    | absent => exact ⟨hstill, nofun, nofun⟩
    | irregular => exact (hfail _).mono (fun r w' h => ⟨h.1, h.2.1, fun state hr => absurd hr (h.2.2 state)⟩)
    | malformed => exact (hfail _).mono (fun r w' h => ⟨h.1, h.2.1, fun state hr => absurd hr (h.2.2 state)⟩)
    | contents state =>
      unfold DeploymentState.validate
      dsimp only
      split
      · next hvalid =>
        refine ⟨hstill, nofun, ?_⟩
        intro found hfound
        obtain rfl := Option.some.inj (Except.ok.inj hfound)
        split at hvalid
        · cases hvalid
        · split at hvalid
          · cases hvalid
          · next hports =>
            obtain rfl := Except.ok.inj hvalid
            exact ⟨rfl, hports⟩
      · exact (hfail _).mono (fun r w' h => ⟨h.1, h.2.1, fun state hr => absurd hr (h.2.2 state)⟩)
  · rintro e w₁ ⟨hstill, houtcome, -, -⟩
    exact ⟨hstill, fun _ _ => houtcome.failed e rfl, nofun⟩

theorem validateProductConfigOwnership_post (w : World) : Fallible.Post (validateProductConfigOwnership machine) w
    (fun r w' => Still .backend w w' ∧ ∀ e, r = .error e → w'.failedAt.isSome = true) := by
  refine .bind (io_post machine .backend w _) ?_ ?_
  · rintro _ w₁ ⟨hstill, -, -, -⟩
    apply Fallible.Post.get
    have hfail : ∀ error, Fallible.Post (fail error : Op Unit) w₁ (fun r w' => Still .backend w w' ∧
        ∀ e, r = .error e → w'.failedAt.isSome = true) :=
      fun error => ⟨hstill.trans (failNow_still .backend w₁), fun _ _ => failNow_failed w₁⟩
    cases w₁.productConfig with
    | absent => exact ⟨hstill, nofun⟩
    | irregular => exact hfail _
    | malformed => exact hfail _
    | contents value =>
      dsimp only
      split
      · exact ⟨hstill, nofun⟩
      · exact hfail _
  · rintro e w₁ ⟨hstill, houtcome, -, -⟩
    exact ⟨hstill, fun _ _ => houtcome.failed e rfl⟩

/-- What is known before the services are ensured. -/
structure Prepared (w : World) (r : Except CliError (Option DeploymentState)) (w' : World) : Prop where
  shrinks : Shrinks w w'
  failed : ∀ e, r = .error e → w'.failedAt.isSome = true
  fresh : r = .ok none → ∀ service, w'.held service = false
  continued : ∀ state, r = .ok (some state) → w.state = .contents state ∧ state.usesCurrentArtifacts = true ∧
    state.backendPort ≠ state.dashboardPort

theorem prepare_post (hlocked : Locked w) : Fallible.Post (prepare machine) w (Prepared w) := by
  have hio : ∀ (w₁ : World) (error : CliError) (rest : Op (Option DeploymentState)), Shrinks w w₁ →
      (∀ w₂, Shrinks w w₂ → Fallible.Post rest w₂ (Prepared w)) →
      Fallible.Post (io machine error >>= fun _ => rest) w₁ (Prepared w) := by
    intro w₁ error rest hbefore hrest
    refine .bind (io_post machine .backend w₁ error) ?_ ?_
    · rintro _ w₂ ⟨hstill, -, -, -⟩
      exact hrest w₂ (hbefore.trans hstill.shrinks)
    · rintro e w₂ ⟨hstill, houtcome, -, -⟩
      exact ⟨hbefore.trans hstill.shrinks, fun _ _ => houtcome.failed e rfl, nofun, nofun⟩
  have hstop : ∀ w₁, Shrinks w w₁ → Fallible.Post (do stopServices machine; return none : Op (Option DeploymentState)) w₁
      (Prepared w) := by
    intro w₁ hbefore
    refine .bind (stopServices_post machine (hbefore.locked hlocked)) ?_ ?_
    · rintro _ w₂ ⟨hshrinks, -, hfree⟩
      exact ⟨hbefore.trans hshrinks, nofun, fun _ => hfree rfl, nofun⟩
    · rintro e w₂ ⟨hshrinks, hfailed, -⟩
      exact ⟨hbefore.trans hshrinks, fun _ _ => hfailed e rfl, nofun, nofun⟩
  refine hio w _ _ (Still.refl .backend w).shrinks (fun w₁ h₁ => ?_)
  refine hio w₁ _ _ h₁ (fun w₂ h₂ => ?_)
  refine .bind (validateProductConfigOwnership_post machine w₂) ?_ ?_
  · rintro _ w₃ ⟨hvalidate, -⟩
    refine hio w₃ _ _ (h₂.trans hvalidate.shrinks) (fun w₄ h₄ => ?_)
    refine hio w₄ _ _ h₄ (fun w₅ h₅ => ?_)
    refine .bind (loadState_post machine w₅) ?_ ?_
    · rintro found w₆ ⟨hload, -, hfound⟩
      have h₆ := h₅.trans hload.shrinks
      cases found with
      | none => exact hstop w₆ h₆
      | some state =>
        obtain ⟨hstate, hports⟩ := hfound state rfl
        dsimp only
        split
        · next hcurrent =>
          refine ⟨h₆, nofun, nofun, ?_⟩
          intro other hother
          obtain rfl := Option.some.inj (Except.ok.inj hother)
          exact ⟨h₅.state.symm.trans hstate, hcurrent, hports⟩
        · exact hstop w₆ h₆
    · rintro e w₆ ⟨hload, hfailed, -⟩
      exact ⟨h₅.trans hload.shrinks, fun _ _ => hfailed e rfl, nofun, nofun⟩
  · rintro e w₃ ⟨hvalidate, hfailed⟩
    exact ⟨h₂.trans hvalidate.shrinks, fun _ _ => hfailed e rfl, nofun, nofun⟩

end Prepare

section Services
variable (machine : Machine)

/-- A launched service runs with its record in place, so that it can be stopped. -/
def Stoppable (service : ManagedService) (w : World) : Prop :=
  ∃ target p, recorded service w = some target ∧ Owned w service target p

/-- A launched service is stopped unless the machine prevents it, and others are spared. -/
theorem stopLaunched_post {w : World} (service : ManagedService) (started : Bool) (hlocked : Locked w)
    (hsound : SoundProcesses w.processes) (hstoppable : started = true → Stoppable service w) :
    Fallible.Post (stopLaunched machine service started) w (fun r w' => r = .ok () ∧ Shrinks w w' ∧ (Quiet machine w →
      Touches service w w' ∧ (∀ p ∈ w.processes, p.service ≠ some service → p ∈ w'.processes) ∧
      (started = true → w'.held service = false))) := by
  refine .when (fun hstarted => .attempt ?_) (fun hskip => ?_)
  · refine (stop_post machine service w (hlocked service)).mono ?_
    rintro r w' ⟨h, hfree⟩
    refine ⟨rfl, h.shrinks, fun hquiet => ?_⟩
    obtain ⟨target, p, hrecorded, howned⟩ := hstoppable hstarted
    obtain ⟨stopped, hok⟩ := h.succeeds target hrecorded ⟨p, howned⟩ hquiet
    exact ⟨h.touches, fun q hq hservice => h.spares machine service hfree hok hsound hq hservice, fun _ => h.released stopped hok⟩
  · refine ⟨rfl, (Still.refl service w).shrinks, fun _ => ⟨.refl service w, fun p hp _ => hp, fun hstarted => ?_⟩⟩
    rw [hskip] at hstarted
    cases hstarted

/-- A service is up: it listens on its port, and it can be stopped if this call has launched it. -/
structure Up (service : ManagedService) (start : PortStart) (w : World) : Prop where
  runs : ∃ p ∈ w.processes, p.service = some service ∧ p.port = some start.port
  stoppable : start.started = true → Stoppable service w

/-- A service stays up while another one is handled. -/
theorem Up.persists {service other : ManagedService} {start : PortStart} {w w' : World} (h : Up service start w)
    (hother : service ≠ other) (htouches : Touches other w w') (hsound : SoundProcesses w'.processes)
    (hkept : ∀ p ∈ w.processes, p.service ≠ some other → p ∈ w'.processes) : Up service start w' := by
  have hkeep : ∀ p ∈ w.processes, p.service = some service → p ∈ w'.processes := by
    intro p hp hservice
    exact hkept p hp (fun hsame => hother (Option.some.inj (hservice.symm.trans hsame)))
  obtain ⟨p, hp, hservice, hport⟩ := h.runs
  refine ⟨⟨p, hkeep p hp hservice, hservice, hport⟩, fun hstarted => ?_⟩
  obtain ⟨target, q, hrecorded, howned⟩ := h.stoppable hstarted
  refine ⟨target, q, ?_, hsound, hkeep q howned.mem howned.holds, howned.holds, howned.pid, howned.range, howned.marker⟩
  rw [recorded, htouches.pidFile service hother]
  exact hrecorded

/-- A service that answers on a port listens there. -/
theorem up_of_ready {service : ManagedService} {port : UInt16} {w w' : World} (hsound : SoundProcesses w.processes)
    (hprocesses : w'.processes = w.processes) (hready : w.httpReady service port = true) : Up service ⟨port, false⟩ w' := by
  rw [World.httpReady, List.any_eq_true] at hready
  obtain ⟨p, hp, hanswers⟩ := hready
  rw [Bool.and_eq_true, decide_eq_true_iff, decide_eq_true_iff] at hanswers
  exact ⟨⟨p, hprocesses ▸ hp, hsound.answers p hp service hanswers.2, hanswers.1⟩, fun h => absurd h Bool.false_ne_true⟩

theorem Child.up {service : ManagedService} {command : ServiceCommand} {port : UInt16} {w w' : World} {child : Process}
    (h : Child w service command port w' child) : Up service ⟨port, true⟩ w' :=
  ⟨⟨child, h.owned.mem, h.owned.holds, h.listens⟩, fun _ => ⟨_, child, h.record, h.owned⟩⟩

/-- The processes are those from before the call and the services that it has launched. -/
def Accounted (w w' : World) (started : ManagedService → Bool) : Prop :=
  ∀ p ∈ w'.processes, p ∈ w.processes ∨ ∃ service, started service = true ∧ p.service = some service

/-- Once the launched services are stopped, nothing that was launched is left. -/
theorem Accounted.nothing {w w' : World} {started : ManagedService → Bool} (h : Accounted w w' started)
    (hlaunched : ∀ p ∈ w.processes, p.launched = false) (hstopped : ∀ service, started service = true → w'.held service = false) :
    ∀ p ∈ w'.processes, p.launched = false := by
  intro p hp
  obtain hbefore | ⟨service, hstarted, hservice⟩ := h p hp
  · exact hlaunched p hbefore
  · have hfree := hstopped service hstarted
    rw [held_iff.mpr ⟨p, hp, hservice⟩] at hfree
    cases hfree

/-- The services that a start has launched so far. -/
def launchedSoFar (backend dashboard : Bool) : ManagedService → Bool
  | .backend => backend
  | .dashboard => dashboard

/-- The deployment behind the start of the backend. -/
structure BackendReady (w : World) (previous : Option DeploymentState) (backend : PortStart) (w' : World) : Prop where
  evolves : Evolves w w'
  locked : Locked w'
  sound : SoundProcesses w'.processes
  up : Up .backend backend w'
  accounted : Accounted w w' (launchedSoFar backend.started false)
  state : w'.state = w.state
  fresh : previous = none → w'.held .dashboard = false
  continued : ∀ state, previous = some state → w.state = .contents state ∧ state.usesCurrentArtifacts = true ∧
    state.backendPort ≠ state.dashboardPort

theorem Touches.locked {service : ManagedService} {w w' : World} (h : Touches service w w') (hlocked : Locked w)
    (hheld : ∀ other, w'.held other = true → w.held other = true ∨ w'.lockFile other = true) : Locked w' := by
  intro other hother
  obtain hbefore | hlock := hheld other hother
  · exact h.lockFile other (hlocked other hbefore)
  · exact hlock

/-- After a service was ensured, a held lock has its file. -/
theorem EnsureResult.locked {service : ManagedService} {command : UInt16 → ServiceCommand} {previousPort : Option UInt16}
    {w w' : World} {r : Except CliError PortStart} (h : EnsureResult service command previousPort w r w') (hlocked : Locked w) :
    Locked w' := by
  apply h.touches.locked hlocked
  intro other hheld
  obtain ⟨p, hp, hservice⟩ := held_iff.mp hheld
  obtain ⟨-, hsame, -⟩ | ⟨-, -, -, hsame, -⟩ | ⟨port, child, -, hchild⟩ := h.result
  · exact .inl (held_iff.mpr ⟨p, hsame ▸ hp, hservice⟩)
  · exact .inl (held_iff.mpr ⟨p, hsame ▸ hp, hservice⟩)
  · rw [hchild.processes] at hp
    obtain hbefore | hlast := List.mem_append.mp hp
    · exact .inl (held_iff.mpr ⟨p, hbefore, hservice⟩)
    · obtain rfl := List.mem_singleton.mp hlast
      obtain rfl := Option.some.inj (hservice.symm.trans hchild.owned.holds)
      exact .inr hchild.lockFile

theorem EnsureResult.sound {service : ManagedService} {command : UInt16 → ServiceCommand} {previousPort : Option UInt16}
    {w w' : World} {r : Except CliError PortStart} (h : EnsureResult service command previousPort w r w')
    (hsound : SoundProcesses w.processes) : SoundProcesses w'.processes := by
  obtain ⟨-, hsame, -⟩ | ⟨-, -, -, hsame, -⟩ | ⟨port, child, -, hchild⟩ := h.result
  · exact hsame ▸ hsound
  · exact hsame ▸ hsound
  · exact hchild.owned.sound

/-- What a start of the backend leaves behind. -/
structure BackendStage (w : World) (r : Except CliError (Option DeploymentState × PortStart)) (w' : World) : Prop where
  evolves : Evolves w w'
  state : w'.state = w.state
  failed : ∀ e, r = .error e → Locked w' ∧ w'.processes.Sublist w.processes
  ready : ∀ previous backend, r = .ok (previous, backend) → BackendReady w previous backend w'

theorem startBackend_post {w : World} (hlocked : Locked w) (hsound : SoundProcesses w.processes) :
    Fallible.Post (startBackend machine) w (BackendStage w) := by
  refine .bind (prepare_post machine hlocked) ?_ ?_
  · rintro previous w₁ hprepared
    have hlocked₁ := hprepared.shrinks.locked hlocked
    have hsound₁ := hsound.sublist hprepared.shrinks.processes
    have hfree : previous.map (·.backendPort) = none → w₁.held .backend = false := by
      intro hnone
      obtain rfl := Option.map_eq_none_iff.mp hnone
      exact hprepared.fresh rfl .backend
    refine .bind (ensureService_post machine .backend hsound₁ (hlocked₁ .backend) hfree
      (fun _ => List.mem_cons_self)) ?_ ?_
    · rintro backend w₂ hensured
      have hready : Up .backend backend w₂ ∧ Accounted w w₂ (launchedSoFar backend.started false) := by
        obtain ⟨⟨e, he⟩, -, -⟩ | ⟨port, hport, -, hsame, -, hanswers⟩ | ⟨port, child, hport, hchild⟩ := hensured.result
        · cases he
        · obtain rfl := Except.ok.inj hport
          exact ⟨up_of_ready hsound₁ hsame hanswers, fun p hp => .inl (hprepared.shrinks.processes.subset (hsame ▸ hp))⟩
        · obtain rfl := Except.ok.inj hport
          refine ⟨hchild.up, fun p hp => ?_⟩
          rw [hchild.processes] at hp
          obtain hbefore | hlast := List.mem_append.mp hp
          · exact .inl (hprepared.shrinks.processes.subset hbefore)
          · obtain rfl := List.mem_singleton.mp hlast
            exact .inr ⟨.backend, rfl, hchild.owned.holds⟩
      have hevolves := hprepared.shrinks.toEvolves.trans hensured.touches.toEvolves
      have hstate := hensured.touches.state.trans hprepared.shrinks.state
      refine ⟨hevolves, hstate, nofun, ?_⟩
      intro previous' backend' hok
      obtain ⟨rfl, rfl⟩ := Prod.mk.inj (Except.ok.inj hok)
      refine ⟨hevolves, hensured.locked hlocked₁, hensured.sound hsound₁, hready.1, hready.2, hstate, ?_, ?_⟩
      · rintro rfl
        have hdashboard := hprepared.fresh rfl .dashboard
        rw [← Bool.not_eq_true, held_iff] at hdashboard ⊢
        rintro ⟨p, hp, hservice⟩
        change p ∈ w₂.processes at hp
        obtain ⟨-, hsame, -⟩ | ⟨-, -, -, hsame, -⟩ | ⟨port, child, -, hchild⟩ := hensured.result
        · exact hdashboard ⟨p, hsame ▸ hp, hservice⟩
        · exact hdashboard ⟨p, hsame ▸ hp, hservice⟩
        · rw [hchild.processes] at hp
          obtain hbefore | hlast := List.mem_append.mp hp
          · exact hdashboard ⟨p, hbefore, hservice⟩
          · obtain rfl := List.mem_singleton.mp hlast
            exact nomatch hservice.symm.trans hchild.owned.holds
      · rintro state rfl
        exact hprepared.continued state rfl
    · rintro e w₂ hensured
      refine ⟨hprepared.shrinks.toEvolves.trans hensured.touches.toEvolves,
        hensured.touches.state.trans hprepared.shrinks.state, fun _ _ => ⟨hensured.locked hlocked₁, ?_⟩, nofun⟩
      obtain ⟨-, hsame, -⟩ | ⟨port, hport, -⟩ | ⟨port, child, hport, -⟩ := hensured.result
      · exact hsame ▸ hprepared.shrinks.processes
      · cases hport
      · cases hport
  · rintro e w₁ hprepared
    exact ⟨hprepared.shrinks.toEvolves, hprepared.shrinks.state,
      fun _ _ => ⟨hprepared.shrinks.locked hlocked, hprepared.shrinks.processes⟩, nofun⟩

/-- The deployment once the dashboard may be ensured: a new backend address has stopped it. -/
structure DashboardPending (w : World) (previous : Option DeploymentState) (backend : PortStart) (w' : World) : Prop extends
    BackendReady w previous backend w' where
  stopped : backendAddressChanged previous backend = true → w'.held .dashboard = false

theorem backend_ne_dashboard : ManagedService.backend ≠ ManagedService.dashboard := nofun

/-- The optional stop of the dashboard, and how it may fail. -/
theorem stopChanged_post {w w₁ : World} {previous : Option DeploymentState} {backend : PortStart}
    (h : BackendReady w previous backend w₁) :
    Fallible.Post (Fallible.when (backendAddressChanged previous backend)
        (do let _ ← ManagedService.dashboard.stop machine; return)) w₁ (fun r w₂ => Shrinks w₁ w₂ ∧
      (∀ e, r = .error e → backendAddressChanged previous backend = true ∧
        ManagedService.dashboard.stop machine w₁ = (.error e, w₂)) ∧
      (r = .ok () → DashboardPending w previous backend w₂)) := by
  refine .when (fun hchanged => ?_) (fun hskip => ?_)
  · refine .bind ((stop_post machine .dashboard w₁ (h.locked .dashboard)).and (.run _ w₁)) ?_ ?_
    · rintro stopped w₂ ⟨⟨hstop, hfree⟩, -⟩
      have hevolves := hstop.touches.toEvolves
      have hsound := h.sound.sublist hstop.processes
      refine ⟨hstop.shrinks, nofun, fun _ => ⟨⟨h.evolves.trans hevolves, hstop.shrinks.locked h.locked, hsound, ?_, ?_,
        hstop.touches.state.trans h.state, ?_, h.continued⟩, fun _ => hstop.released stopped rfl⟩⟩
      · exact h.up.persists backend_ne_dashboard hstop.touches hsound
          (fun p hp hservice => hstop.spares machine .dashboard hfree rfl h.sound hp hservice)
      · exact fun p hp => h.accounted p (hstop.processes.subset hp)
      · exact fun hnone => hstop.shrinks.free (h.fresh hnone)
    · rintro e w₂ ⟨⟨hstop, -⟩, hrun⟩
      refine ⟨hstop.shrinks, ?_, nofun⟩
      rintro _ ⟨⟩
      exact ⟨hchanged, hrun⟩
  · refine ⟨(Still.refl .dashboard w₁).shrinks, nofun, fun _ => ⟨h, fun hchanged => ?_⟩⟩
    rw [hskip] at hchanged
    cases hchanged

/-- The deployment behind the start of both services. -/
structure ServicesReady (w : World) (backend dashboard : PortStart) (w' : World) : Prop where
  evolves : Evolves w w'
  locked : Locked w'
  sound : SoundProcesses w'.processes
  backendUp : Up .backend backend w'
  dashboardUp : Up .dashboard dashboard w'
  against : ∀ p ∈ w'.processes, p.service = some .dashboard → p.launchedAgainst (loopbackUrl backend.port)
  accounted : Accounted w w' (launchedSoFar backend.started dashboard.started)
  ports : backend.port ≠ dashboard.port

theorem dashboardCommand_against (port backendPort : UInt16) :
    [lit "--backend", loopbackUrl backendPort] <:+:
      (dashboardCommand machine port backendPort).program :: (dashboardCommand machine port backendPort).arguments := by
  refine ⟨machine.artifacts.dashboard.program.1 :: (machine.artifacts.dashboard.program.2.1 ++
    [lit "--host", lit "127.0.0.1", lit "--port", decimal port.toNat]), [lit "--token-file", machine.paths.tokenFile], ?_⟩
  simp [dashboardCommand]

theorem dashboardCommand_marker (port backendPort : UInt16) : (dashboardCommand machine port backendPort).marker ∈
    (dashboardCommand machine port backendPort).program :: (dashboardCommand machine port backendPort).arguments := by
  unfold dashboardCommand
  cases machine.artifacts.dashboard with
  | direct path => exact List.mem_cons_self
  | nodeScript node script => exact List.mem_cons_of_mem _ (List.mem_append_left _ List.mem_cons_self)

/-- What ensuring the dashboard leaves behind. -/
theorem ensureDashboard_post {w w₂ : World} {previous : Option DeploymentState} {backend : PortStart} (hw : Sound w)
    (h : DashboardPending w previous backend w₂) :
    Fallible.Post (ensureDashboard machine backend.port (previous.map (·.dashboardPort))) w₂ (fun r w₃ =>
      Evolves w w₃ ∧ w₃.state = w.state ∧
      (∀ e, r = .error e → w₃.failedAt.isSome = true ∧ Locked w₃ ∧ SoundProcesses w₃.processes ∧ Up .backend backend w₃ ∧
        Accounted w w₃ (launchedSoFar backend.started false)) ∧
      ∀ dashboard, r = .ok dashboard → ServicesReady w backend dashboard w₃) := by
  have hfree : previous.map (·.dashboardPort) = none → w₂.held .dashboard = false :=
    fun hnone => h.fresh (Option.map_eq_none_iff.mp hnone)
  refine (ensureService_post machine .dashboard h.sound (h.locked .dashboard) hfree
    (fun port => dashboardCommand_marker machine port backend.port)).mono ?_
  rintro r w₃ hensured
  have hevolves := h.evolves.trans hensured.touches.toEvolves
  have hstate := hensured.touches.state.trans h.state
  have hlocked := hensured.locked h.locked
  have hsound := hensured.sound h.sound
  have hup : (∀ p ∈ w₂.processes, p ∈ w₃.processes) → Up .backend backend w₃ :=
    fun hkept => h.up.persists backend_ne_dashboard hensured.touches hsound (fun p hp _ => hkept p hp)
  obtain ⟨⟨e, rfl⟩, hsame, hfailed⟩ | ⟨port, rfl, hprevious, hsame, hheld, hready⟩ | ⟨port, child, rfl, hchild⟩ := hensured.result
  · refine ⟨hevolves, hstate, fun _ _ => ⟨hfailed, hlocked, hsound, hup (fun p hp => hsame ▸ hp), fun p hp => ?_⟩, nofun⟩
    exact h.accounted p (hsame ▸ hp)
  · refine ⟨hevolves, hstate, nofun, ?_⟩
    rintro _ ⟨⟩
    obtain ⟨state, rfl, rfl⟩ := Option.map_eq_some_iff.mp hprevious
    obtain ⟨hcontents, hcurrent, hports⟩ := h.continued state rfl
    have haddress : state.backendPort = backend.port := by
      by_contra hne
      have hstopped := h.stopped (by simpa [backendAddressChanged] using hne)
      rw [hheld] at hstopped
      cases hstopped
    have hdashboard : Up .dashboard ⟨state.dashboardPort, false⟩ w₃ := up_of_ready h.sound hsame hready
    refine ⟨hevolves, hlocked, hsound, hup (fun p hp => hsame ▸ hp), hdashboard, ?_, ?_, haddress ▸ hports⟩
    · intro p hp hservice
      obtain ⟨q, hq, hholds, hport⟩ := hdashboard.runs
      obtain rfl := hsound.holder p hp q hq .dashboard hservice hholds
      obtain hbefore | ⟨service, hstarted, hother⟩ := h.accounted p (hsame ▸ hp)
      · exact haddress ▸ hw.recorded state hcontents hcurrent p hbefore hservice hport
      · obtain rfl := Option.some.inj (hservice.symm.trans hother)
        cases hstarted
    · intro p hp
      obtain hbefore | ⟨service, hstarted, hservice⟩ := h.accounted p (hsame ▸ hp)
      · exact .inl hbefore
      · cases service with
        | backend => exact .inr ⟨.backend, hstarted, hservice⟩
        | dashboard => cases hstarted
  · refine ⟨hevolves, hstate, nofun, ?_⟩
    rintro _ ⟨⟩
    have hkept : ∀ p ∈ w₂.processes, p ∈ w₃.processes := by
      intro p hp
      rw [hchild.processes]
      exact List.mem_append_left _ hp
    refine ⟨hevolves, hlocked, hsound, hup hkept, hchild.up, ?_, ?_, ?_⟩
    · intro p hp hservice
      obtain rfl := hsound.holder p hp child hchild.owned.mem .dashboard hservice hchild.owned.holds
      rw [Process.launchedAgainst, hchild.commandLine]
      exact dashboardCommand_against machine port backend.port
    · intro p hp
      rw [hchild.processes] at hp
      obtain hbefore | hlast := List.mem_append.mp hp
      · obtain hold | ⟨service, hstarted, hservice⟩ := h.accounted p hbefore
        · exact .inl hold
        · cases service with
          | backend => exact .inr ⟨.backend, hstarted, hservice⟩
          | dashboard => cases hstarted
      · obtain rfl := List.mem_singleton.mp hlast
        exact .inr ⟨.dashboard, rfl, hchild.owned.holds⟩
    · intro hports
      obtain ⟨p, hp, -, hport⟩ := h.up.runs
      have htaken := hchild.free
      rw [taken_iff.mpr ⟨p, hp, hport.trans (congrArg some hports)⟩] at htaken
      cases htaken

end Services

section Configuration
variable (machine : Machine)

/-- An operation that leaves processes, locks and records alone. -/
structure Writes (w w' : World) : Prop extends Evolves w w' where
  processes : w'.processes = w.processes
  pidFile : w'.pidFile = w.pidFile
  lockFile : w'.lockFile = w.lockFile

theorem Writes.trans {w w' w'' : World} (h : Writes w w') (h' : Writes w' w'') : Writes w w'' :=
  ⟨h.toEvolves.trans h'.toEvolves, h'.processes.trans h.processes, h'.pidFile.trans h.pidFile, h'.lockFile.trans h.lockFile⟩

theorem io_writes (w : World) (error : CliError) : Fallible.Post (io machine error) w (fun r w' => Writes w w' ∧
    w'.state = w.state ∧ w'.productConfig = w.productConfig ∧ ∀ e, r = .error e → w'.failedAt.isSome = true) := by
  refine (io_post machine .backend w error).mono ?_
  rintro r w' ⟨hstill, houtcome, hpid, hlock⟩
  exact ⟨⟨hstill.toEvolves, hstill.processes, hpid, hlock⟩, hstill.state, hstill.productConfig, houtcome.failed⟩

theorem fail_writes (w : World) : Writes w w.failNow :=
  ⟨(failNow_still .backend w).toEvolves, rfl, rfl, rfl⟩

theorem writeState_post (w : World) (state : DeploymentState) : Fallible.Post (writeState machine state) w (fun r w' =>
    Writes w w' ∧ (∀ e, r = .error e → w'.failedAt.isSome = true) ∧ (∀ e, r = .error e → w'.state = w.state) ∧
      (r = .ok () → w'.state = .contents state)) := by
  refine .bind (io_writes machine w _) ?_ ?_
  · rintro _ w₁ ⟨hwrites, hstate, -, -⟩
    apply Fallible.Post.get
    have hwrite : Fallible.Post (Fallible.modify fun w => { w with state := .contents state } : Op Unit) w₁ (fun r w' =>
        Writes w w' ∧ (∀ e, r = .error e → w'.failedAt.isSome = true) ∧ (∀ e, r = .error e → w'.state = w.state) ∧
          (r = .ok () → w'.state = .contents state)) :=
      ⟨hwrites.trans ⟨⟨Nat.le_refl _, fun _ => id, fun _ => .inl, fun _ => .inl⟩, rfl, rfl, rfl⟩, nofun, nofun, fun _ => rfl⟩
    cases w₁.state with
    | irregular => exact ⟨hwrites.trans (fail_writes w₁), fun _ _ => failNow_failed w₁, fun _ _ => hstate, nofun⟩
    | absent => exact hwrite
    | malformed => exact hwrite
    | contents old => exact hwrite
  · rintro e w₁ ⟨hwrites, hstate, -, hfailed⟩
    exact ⟨hwrites, fun _ _ => hfailed e rfl, fun _ _ => hstate, nofun⟩

theorem writeProductConfig_post (w : World) (state : DeploymentState) :
    Fallible.Post (writeProductConfig machine state) w (fun r w' => Writes w w' ∧
      (∀ e, r = .error e → w'.failedAt.isSome = true) ∧ w'.state = w.state ∧
      (r = .ok () → w'.productConfig = .contents (productConfig state))) := by
  refine .bind (io_writes machine w _) ?_ ?_
  · rintro _ w₁ ⟨hwrites, hstate, -, -⟩
    apply Fallible.Post.get
    have hwrite : Fallible.Post (do
          Fallible.modify fun w => { w with productConfig := .contents (productConfig state) }
          io machine (.filesystem "protect local deployment directory") : Op Unit) w₁ (fun r w' => Writes w w' ∧
        (∀ e, r = .error e → w'.failedAt.isSome = true) ∧ w'.state = w.state ∧
        (r = .ok () → w'.productConfig = .contents (productConfig state))) := by
      refine .bind (.modify (R := fun r w₂ => r = .ok () ∧ w₂ = { w₁ with productConfig := .contents (productConfig state) })
        ⟨rfl, rfl⟩) ?_ (fun e w₂ h => nomatch h.1)
      rintro _ w₂ ⟨-, rfl⟩
      refine (io_writes machine _ _).mono ?_
      rintro r w₃ ⟨hprotect, hstate₃, hproduct, hfailed⟩
      have hset : Writes w₁ { w₁ with productConfig := .contents (productConfig state) } :=
        ⟨⟨Nat.le_refl _, fun _ => id, fun _ => .inl, fun _ => .inl⟩, rfl, rfl, rfl⟩
      exact ⟨hwrites.trans (hset.trans hprotect), hfailed, hstate₃.trans hstate, fun _ => hproduct⟩
    cases w₁.productConfig with
    | irregular => exact ⟨hwrites.trans (fail_writes w₁), fun _ _ => failNow_failed w₁, hstate, nofun⟩
    | absent => exact hwrite
    | malformed => exact hwrite
    | contents old => exact hwrite
  · rintro e w₁ ⟨hwrites, hstate, -, hfailed⟩
    exact ⟨hwrites, fun _ _ => hfailed e rfl, hstate, nofun⟩

/-- Services stay ready while configuration is written. -/
theorem ServicesReady.writes {w w' w'' : World} {backend dashboard : PortStart} (h : ServicesReady w backend dashboard w')
    (hwrites : Writes w' w'') : ServicesReady w backend dashboard w'' := by
  have hup : ∀ {service : ManagedService} {start : PortStart}, Up service start w' → Up service start w'' := by
    rintro service start ⟨⟨p, hp, hruns⟩, hstoppable⟩
    refine ⟨⟨p, hwrites.processes ▸ hp, hruns⟩, fun hstarted => ?_⟩
    obtain ⟨target, q, hrecorded, howned⟩ := hstoppable hstarted
    refine ⟨target, q, ?_, howned.of_processes hwrites.processes⟩
    rw [recorded, hwrites.pidFile]
    exact hrecorded
  refine ⟨h.evolves.trans hwrites.toEvolves, ?_, hwrites.processes ▸ h.sound, hup h.backendUp, hup h.dashboardUp, ?_, ?_, h.ports⟩
  · intro service hheld
    rw [World.held, hwrites.processes] at hheld
    rw [hwrites.lockFile]
    exact h.locked service hheld
  · rw [hwrites.processes]
    exact h.against
  · intro p hp
    exact h.accounted p (hwrites.processes ▸ hp)

/-- Exactly one process runs a service that is up. -/
theorem Up.only {service : ManagedService} {start : PortStart} {w : World} (h : Up service start w)
    (hsound : SoundProcesses w.processes) :
    ∃ p, w.processes.filter (fun q => q.service = some service) = [p] ∧ p ∈ w.processes ∧ p.service = some service ∧
      p.port = some start.port := by
  obtain ⟨p, hp, hservice, hport⟩ := h.runs
  refine ⟨p, ?_, hp, hservice, hport⟩
  have hnodup : w.processes.Nodup := hsound.pids.of_map
  apply List.perm_singleton.mp
  apply (List.perm_ext_iff_of_nodup (hnodup.filter _) (List.nodup_singleton p)).mpr
  intro q
  rw [List.mem_filter, List.mem_singleton, decide_eq_true_iff]
  constructor
  · exact fun hq => hsound.holder q hq.1 p hp service hq.2 hservice
  · rintro rfl
    exact ⟨hp, hservice⟩

end Configuration
end Abyss.Cli.DeployLocal
