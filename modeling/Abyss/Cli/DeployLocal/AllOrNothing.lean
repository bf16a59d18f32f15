import Abyss.Cli.DeployLocal.Stages

/-! A start of a local deployment deploys both services or leaves none that it has launched. -/
namespace Abyss.Cli.DeployLocal
open Abyss.Text Abyss.System

section Statement

/-- One backend and one dashboard run, the dashboard was launched against the port on which the backend listens, and the
two distinct ports are those of the state file and the product configuration. -/
structure Deployed (services : StartedLocalServices) (w : World) : Prop where
  running : ∃ backend dashboard, w.processes.filter (fun p => p.service = some .backend) = [backend] ∧
    w.processes.filter (fun p => p.service = some .dashboard) = [dashboard] ∧
    backend.port = some services.state.backendPort ∧ dashboard.port = some services.state.dashboardPort ∧
    dashboard.launchedAgainst (loopbackUrl services.state.backendPort)
  state : w.state = .contents services.state
  productConfig : w.productConfig = .contents (productConfig services.state)
  ports : services.state.backendPort ≠ services.state.dashboardPort

/-- No operation fails by itself behind the first failure. -/
def SingleFailure (machine : Machine) (w : World) : Prop :=
  ∀ n, (start machine w).2.failedAt = some n → ∀ m, n < m → machine.faults m = false

/-- The call has launched the backend on another port than the recorded one, and stopping the dashboard then fails while
the backend runs. -/
def EarlyExit (machine : Machine) (w : World) : Prop :=
  ∃ previous backend w₁ e w₂, startBackend machine w = (.ok (previous, backend), w₁) ∧
    backendAddressChanged previous backend = true ∧
    ManagedService.dashboard.stop machine w₁ = (.error e, w₂) ∧ ∃ p ∈ w₂.processes, p.launched = true

end Statement

section Finish
variable (machine : Machine)

/-- Nothing fails by itself behind the first failure of a run that ends here. -/
def Steady (w : World) : Prop := ∀ n, w.failedAt = some n → ∀ m, n < m → machine.faults m = false

/-- Behind the failure of a steady run, nothing fails any more. -/
theorem Steady.quiet {w w' w'' : World} (h : Steady machine w'') (hunfailed : w.failedAt = none) (hevolves : Evolves w w')
    (hfailed : w'.failedAt.isSome = true) (hafter : Evolves w' w'') : Quiet machine w' := by
  obtain ⟨n, hn⟩ := Option.isSome_iff_exists.mp hfailed
  intro m hm
  apply h n (hafter.failedAt n hn)
  obtain hbefore | hlt := hevolves.failedBefore n hn
  · rw [hunfailed] at hbefore
    cases hbefore
  · exact hlt.trans_le hm

/-- A call ends in a world where the next one can begin, if its run is steady. -/
structure Settled (w w' : World) : Prop where
  evolves : Evolves w w'
  locked : Locked w'
  sound : SoundProcesses w'.processes
  truthful : Steady machine w' → Truthful w'

/-- What a start leaves behind. -/
structure StartResult (w : World) (r : Except CliError StartedLocalServices) (w' : World) : Prop extends
    Settled machine w w' where
  deployed : ∀ services, r = .ok services → Deployed services w'
  nothing : ∀ e, r = .error e → Steady machine w' → (∀ p ∈ w'.processes, p.launched = false) ∨ EarlyExit machine w

variable {w : World}

/-- The recorded state stays true while no dashboard is added. -/
theorem Truthful.of_old {w' : World} (h : Truthful w) (hstate : w'.state = w.state)
    (hold : ∀ p ∈ w'.processes, p.service = some .dashboard → p ∈ w.processes) : Truthful w' := by
  intro state hcontents hcurrent p hp hservice
  exact h state (hstate ▸ hcontents) hcurrent p (hold p hp hservice) hservice

theorem Accounted.old {w' : World} {started : Bool} (h : Accounted w w' (launchedSoFar started false)) {p : Process}
    (hp : p ∈ w'.processes) (hservice : p.service = some .dashboard) : p ∈ w.processes := by
  obtain hbefore | ⟨service, hstarted, hother⟩ := h p hp
  · exact hbefore
  · obtain rfl := Option.some.inj (hservice.symm.trans hother)
    cases hstarted

/-- The cleanup behind a failure to ensure the dashboard. -/
theorem cleanupBackend_post {w₃ : World} {backend : PortStart} (hw : Sound w) (hevolves : Evolves w w₃)
    (hstate : w₃.state = w.state) (hfailed : w₃.failedAt.isSome = true) (hlocked : Locked w₃)
    (hsound : SoundProcesses w₃.processes) (hup : Up .backend backend w₃)
    (haccounted : Accounted w w₃ (launchedSoFar backend.started false)) :
    Fallible.Post (stopLaunched machine .backend backend.started) w₃ (fun _ w₄ => Settled machine w w₄ ∧
      (Steady machine w₄ → ∀ p ∈ w₄.processes, p.launched = false)) := by
  refine (stopLaunched_post machine .backend backend.started hlocked hsound hup.stoppable).mono ?_
  rintro r w₄ ⟨-, hshrinks, hquiet⟩
  have hafter : Accounted w w₄ (launchedSoFar backend.started false) := fun p hp => haccounted p (hshrinks.processes.subset hp)
  refine ⟨⟨hevolves.trans hshrinks.toEvolves, hshrinks.locked hlocked, hsound.sublist hshrinks.processes, fun _ => ?_⟩,
    fun hsteady => ?_⟩
  · exact hw.recorded.of_old (hshrinks.state.trans hstate) (fun p hp hservice => hafter.old hp hservice)
  · obtain ⟨-, -, hstopped⟩ := hquiet (hsteady.quiet machine hw.unfailed hevolves hfailed hshrinks.toEvolves)
    apply hafter.nothing hw.launched
    intro service hstarted
    cases service with
    | backend => exact hstopped hstarted
    | dashboard => cases hstarted

/-- The state file records ports that a ready dashboard was launched for. -/
theorem ServicesReady.truthful {w' w'' : World} {backend dashboard : PortStart} (h : ServicesReady w backend dashboard w')
    (hstate : w''.state = .contents (.new backend.port dashboard.port)) (hold : ∀ p ∈ w''.processes, p ∈ w'.processes) :
    Truthful w'' := by
  intro state hcontents _ p hp hservice _
  obtain rfl := PrivateFile.contents.inj (hstate.symm.trans hcontents)
  exact h.against p (hold p hp) hservice

/-- The cleanup behind a failure to write the configuration. -/
theorem cleanupServices_post {w₄ : World} {backend dashboard : PortStart} (hw : Sound w)
    (h : ServicesReady w backend dashboard w₄) (hfailed : w₄.failedAt.isSome = true)
    (hstate : w₄.state = w.state ∨ w₄.state = .contents (.new backend.port dashboard.port)) :
    Fallible.Post (do
        stopLaunched machine .dashboard dashboard.started
        stopLaunched machine .backend backend.started)
      w₄ (fun _ w₆ => Settled machine w w₆ ∧ (Steady machine w₆ → ∀ p ∈ w₆.processes, p.launched = false)) := by
  refine .bind (stopLaunched_post machine .dashboard dashboard.started h.locked h.sound h.dashboardUp.stoppable) ?_
    (fun e w₅ hstop => nomatch hstop.1)
  rintro _ w₅ ⟨-, hshrinks, hquiet⟩
  have hsound := h.sound.sublist hshrinks.processes
  -- the second stop finds the backend as it was only in a steady run, where the first one has succeeded
  have hsecond : Fallible.Post (stopLaunched machine .backend backend.started) w₅ (fun r w₆ => r = .ok () ∧ Shrinks w₅ w₆) := by
    refine .when (fun _ => .attempt ?_) (fun _ => ⟨rfl, (Still.refl .backend w₅).shrinks⟩)
    exact (stop_post machine .backend w₅ (hshrinks.locked h.locked .backend)).mono (fun r w₆ hstop => ⟨rfl, hstop.1.shrinks⟩)
  refine (hsecond.and (.run _ w₅)).mono ?_
  rintro r w₆ ⟨⟨-, hlast⟩, hrun⟩
  have hboth := hshrinks.trans hlast
  have hquiet₄ : Steady machine w₆ → Quiet machine w₄ :=
    fun hsteady => hsteady.quiet machine hw.unfailed h.evolves hfailed hboth.toEvolves
  have hfree : Steady machine w₆ → dashboard.started = true → w₆.held .dashboard = false :=
    fun hsteady hstarted => hlast.free ((hquiet (hquiet₄ hsteady)).2.2 hstarted)
  refine ⟨⟨h.evolves.trans hboth.toEvolves, hboth.locked h.locked, h.sound.sublist hboth.processes, fun hsteady => ?_⟩,
    fun hsteady => ?_⟩
  · obtain hsame | hnew := hstate
    · apply hw.recorded.of_old (hboth.state.trans hsame)
      intro p hp hservice
      obtain hbefore | ⟨service, hstarted, hother⟩ := h.accounted p (hboth.processes.subset hp)
      · exact hbefore
      · obtain rfl := Option.some.inj (hservice.symm.trans hother)
        have hgone := hfree hsteady hstarted
        rw [held_iff.mpr ⟨p, hp, hservice⟩] at hgone
        cases hgone
    · exact h.truthful (hboth.state.trans hnew) (fun p hp => hboth.processes.subset hp)
  · obtain ⟨htouches, hspared, -⟩ := hquiet (hquiet₄ hsteady)
    have hup := h.backendUp.persists backend_ne_dashboard htouches hsound hspared
    obtain ⟨-, -, hquiet₅⟩ := (stopLaunched_post machine .backend backend.started (hshrinks.locked h.locked) hsound
      hup.stoppable).apply hrun
    obtain ⟨-, -, hstopped⟩ := hquiet₅ ((hquiet₄ hsteady).mono hshrinks.clock)
    have hafter : Accounted w w₆ (launchedSoFar backend.started dashboard.started) :=
      fun p hp => h.accounted p (hboth.processes.subset hp)
    apply hafter.nothing hw.launched
    intro service hstarted
    cases service with
    | backend => exact hstopped hstarted
    | dashboard => exact hfree hsteady hstarted

/-- Writing the configuration of services that are ready. -/
theorem writeConfiguration_post {w₃ : World} {backend dashboard : PortStart} (h : ServicesReady w backend dashboard w₃)
    (hsame : w₃.state = w.state) (state : DeploymentState) :
    Fallible.Post (do writeState machine state; writeProductConfig machine state) w₃ (fun r w₄ =>
      ServicesReady w backend dashboard w₄ ∧ (∀ e, r = .error e → w₄.failedAt.isSome = true) ∧
      (w₄.state = w.state ∨ w₄.state = .contents state) ∧
      (r = .ok () → w₄.state = .contents state ∧ w₄.productConfig = .contents (productConfig state))) := by
  refine .bind (writeState_post machine w₃ state) ?_ ?_
  · rintro _ w₄ ⟨hwrites, -, -, hstate⟩
    refine (writeProductConfig_post machine w₄ state).mono ?_
    rintro r w₅ ⟨hwrites', hfailed, hkept, hproduct⟩
    have hwritten := hkept.trans (hstate rfl)
    exact ⟨h.writes (hwrites.trans hwrites'), hfailed, .inr hwritten, fun hok => ⟨hwritten, hproduct hok⟩⟩
  · rintro e w₄ ⟨hwrites, hfailed, hkept, -⟩
    exact ⟨h.writes hwrites, fun _ _ => hfailed e rfl, .inl ((hkept e rfl).trans hsame), nofun⟩

/-- Services that are ready are deployed once their ports are written down. -/
theorem ServicesReady.deployed {w' : World} {backend dashboard : PortStart} (h : ServicesReady w backend dashboard w')
    (hstate : w'.state = .contents (.new backend.port dashboard.port))
    (hproduct : w'.productConfig = .contents (productConfig (.new backend.port dashboard.port))) :
    Deployed ⟨.new backend.port dashboard.port, backend.started, dashboard.started⟩ w' := by
  obtain ⟨b, hbackend, -, -, hbackendPort⟩ := h.backendUp.only h.sound
  obtain ⟨d, hdashboard, hmem, hservice, hdashboardPort⟩ := h.dashboardUp.only h.sound
  exact ⟨⟨b, d, hbackend, hdashboard, hbackendPort, hdashboardPort, h.against d hmem hservice⟩, hstate, hproduct, h.ports⟩

/-- A start behind a pending dashboard. -/
theorem finish_post {w₂ : World} {previous : Option DeploymentState} {backend : PortStart} (hw : Sound w)
    (hpending : DashboardPending w previous backend w₂) :
    Fallible.Post (do
        let dashboard ← Fallible.onError
          (ensureDashboard machine backend.port (previous.map (·.dashboardPort)))
          (stopLaunched machine .backend backend.started)
        let state := DeploymentState.new backend.port dashboard.port
        Fallible.onError (do writeState machine state; writeProductConfig machine state)
          (do
            stopLaunched machine .dashboard dashboard.started
            stopLaunched machine .backend backend.started)
        return StartedLocalServices.mk state backend.started dashboard.started)
      w₂ (fun r w' => Settled machine w w' ∧ (∀ services, r = .ok services → Deployed services w') ∧
        ∀ e, r = .error e → Steady machine w' → ∀ p ∈ w'.processes, p.launched = false) := by
  refine .bind (P := fun r w' => (∀ dashboard, r = .ok dashboard → ServicesReady w backend dashboard w' ∧ w'.state = w.state) ∧
      ∀ e, r = .error e → Settled machine w w' ∧ (Steady machine w' → ∀ p ∈ w'.processes, p.launched = false))
    (.onError (ensureDashboard_post machine hw hpending) ?_ ?_) ?_ ?_
  · rintro dashboard w₃ ⟨-, hstate, -, hservices⟩
    exact ⟨fun found hfound => ⟨hservices found hfound, hstate⟩, nofun⟩
  · rintro e w₃ ⟨hevolves, hstate, herror, -⟩
    obtain ⟨hfailed, hlocked, hsound, hup, haccounted⟩ := herror e rfl
    refine (cleanupBackend_post machine hw hevolves hstate hfailed hlocked hsound hup haccounted).mono ?_
    rintro r w₄ h
    refine ⟨nofun, ?_⟩
    rintro _ ⟨⟩
    exact h
  · rintro dashboard w₃ ⟨hservices, -⟩
    obtain ⟨hready, hstate₃⟩ := hservices dashboard rfl
    refine .bind (P := fun r w' => (r = .ok () → ServicesReady w backend dashboard w' ∧
        w'.state = .contents (.new backend.port dashboard.port) ∧
        w'.productConfig = .contents (productConfig (.new backend.port dashboard.port))) ∧
        ∀ e, r = .error e → Settled machine w w' ∧ (Steady machine w' → ∀ p ∈ w'.processes, p.launched = false))
      (.onError (writeConfiguration_post machine hready hstate₃ _) ?_ ?_) ?_ ?_
    · rintro _ w₄ ⟨hready₄, -, -, hwritten⟩
      exact ⟨fun _ => ⟨hready₄, hwritten rfl⟩, nofun⟩
    · rintro e w₄ ⟨hready₄, hfailed, hstate, -⟩
      refine (cleanupServices_post machine hw hready₄ (hfailed e rfl) hstate).mono ?_
      rintro r w₅ h
      refine ⟨nofun, ?_⟩
      rintro _ ⟨⟩
      exact h
    · rintro _ w₄ ⟨hwritten, -⟩
      obtain ⟨hready₄, hstate, hproduct⟩ := hwritten rfl
      refine ⟨⟨hready₄.evolves, hready₄.locked, hready₄.sound, fun _ => hready₄.truthful hstate (fun _ => id)⟩, ?_, nofun⟩
      rintro _ ⟨⟩
      exact hready₄.deployed hstate hproduct
    · rintro e w₄ ⟨-, herror⟩
      exact ⟨(herror e rfl).1, nofun, fun _ _ => (herror e rfl).2⟩
  · rintro e w₃ ⟨-, herror⟩
    exact ⟨(herror e rfl).1, nofun, fun _ _ => (herror e rfl).2⟩

theorem start_result (hw : Sound w) : Fallible.Post (start machine) w (StartResult machine w) := by
  refine .bind ((startBackend_post machine hw.locked hw.processes).and (.run _ w)) ?_ ?_
  · rintro ⟨previous, backend⟩ w₁ ⟨hstage, hrun⟩
    have hready := hstage.ready previous backend rfl
    refine .bind (stopChanged_post machine hready) ?_ ?_
    · rintro _ w₂ ⟨-, -, hpending⟩
      refine (finish_post machine hw (hpending rfl)).mono ?_
      rintro r w' ⟨hsettled, hdeployed, hnothing⟩
      exact ⟨hsettled, hdeployed, fun e he hsteady => .inl (hnothing e he hsteady)⟩
    · rintro e w₂ ⟨hshrinks, hexit, -⟩
      obtain ⟨hchanged, hstop⟩ := hexit e rfl
      refine ⟨⟨hready.evolves.trans hshrinks.toEvolves, hshrinks.locked hready.locked,
        hready.sound.sublist hshrinks.processes, fun _ => ?_⟩, nofun, fun _ _ _ => ?_⟩
      · exact hw.recorded.of_old (hshrinks.state.trans hready.state)
          (fun p hp hservice => hready.accounted.old (hshrinks.processes.subset hp) hservice)
      · by_cases hlaunched : ∃ p ∈ w₂.processes, p.launched = true
        · exact .inr ⟨previous, backend, w₁, e, w₂, hrun, hchanged, hstop, hlaunched⟩
        · refine .inl (fun p hp => ?_)
          rw [← Bool.not_eq_true]
          exact fun h => hlaunched ⟨p, hp, h⟩
  · rintro e w₁ ⟨hstage, -⟩
    obtain ⟨hlocked, hprocesses⟩ := hstage.failed e rfl
    exact ⟨⟨hstage.evolves, hlocked, hw.processes.sublist hprocesses,
      fun _ => hw.recorded.of_old hstage.state (fun p hp _ => hprocesses.subset hp)⟩, nofun,
      fun _ _ _ => .inl (fun p hp => hw.launched p (hprocesses.subset hp))⟩

/-- An early exit leaves a launched process behind. -/
theorem EarlyExit.leaves (h : EarlyExit machine w) :
    (∃ e, (start machine w).1 = .error e) ∧ ∃ p ∈ (start machine w).2.processes, p.launched = true := by
  obtain ⟨previous, backend, w₁, e, w₂, hbackend, hchanged, hstop, hlaunched⟩ := h
  have hwhen : Fallible.when (backendAddressChanged previous backend)
      (do let _ ← ManagedService.dashboard.stop machine; return) w₁ = (.error e, w₂) := by
    rw [hchanged]
    exact Fallible.bind_of_error hstop
  have hrun : start machine w = (.error e, w₂) :=
    (Fallible.bind_of_ok hbackend).trans (Fallible.bind_of_error hwhen)
  rw [hrun]
  exact ⟨⟨e, rfl⟩, hlaunched⟩

theorem stop_shrinks (hw : Sound w) : Fallible.Post (stop machine) w (fun _ w' => Shrinks w w') := by
  refine .bind (io_post machine .backend w _) ?_ (fun e w₁ h => h.1.shrinks)
  rintro _ w₁ ⟨hdirectories, -, -, -⟩
  refine .bind (io_post machine .backend w₁ _) ?_ (fun e w₂ h => hdirectories.shrinks.trans h.1.shrinks)
  rintro _ w₂ ⟨hlock, -, -, -⟩
  have hbefore := (hdirectories.trans hlock).shrinks
  refine (stopServices_post machine (hbefore.locked hw.locked)).mono ?_
  exact fun r w₃ h => hbefore.trans h.1

end Finish

section Sample

/-- Another program has taken the port of the backend, which is gone, and the dashboard runs. -/
private def moved : World where
  processes := [⟨10, [lit "/usr/bin/other"], none, some 8080, [], true, false⟩,
    ⟨20, [lit "/opt/abyss-dashboard", lit "--backend", loopbackUrl 8080], some .dashboard, some 9090, [.dashboard], true, false⟩]
  lockFile _ := true
  pidFile
    | .backend => .absent
    | .dashboard => .contents ⟨20, lit "/opt/abyss-dashboard"⟩
  state := .contents (.new 8080 9090)
  productConfig := .absent
  signals := []
  clock := 0
  failedAt := none

end Sample
end Abyss.Cli.DeployLocal
