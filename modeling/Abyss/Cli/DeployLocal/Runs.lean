import Abyss.Cli.DeployLocal.AllOrNothing

/-! Deployments across calls, while services exit and other programs come and go. -/
namespace Abyss.Cli.DeployLocal
open Abyss.Text Abyss.System

section Calls
variable {machine : Machine} {w w' : World}

/-- The next call has launched nothing yet. -/
def World.nextCall (w : World) : World :=
  { w with processes := w.processes.map (fun p => { p with launched := false }), failedAt := none }

theorem mem_nextCall {p : Process} (hp : p ∈ w.nextCall.processes) :
    ∃ q ∈ w.processes, p = { q with launched := false } := by
  obtain ⟨q, hq, rfl⟩ := List.mem_map.mp hp
  exact ⟨q, hq, rfl⟩

theorem SoundProcesses.nextCall (h : SoundProcesses w.processes) : SoundProcesses w.nextCall.processes := by
  refine ⟨?_, ?_, ?_, ?_⟩
  · change ((w.processes.map _).map _).Nodup
    rw [List.map_map]
    exact h.pids
  · intro p hp q hq service hpservice hqservice
    obtain ⟨p', hp', rfl⟩ := mem_nextCall hp
    obtain ⟨q', hq', rfl⟩ := mem_nextCall hq
    rw [h.holder p' hp' q' hq' service hpservice hqservice]
  · intro p hp q hq port hpport hqport
    obtain ⟨p', hp', rfl⟩ := mem_nextCall hp
    obtain ⟨q', hq', rfl⟩ := mem_nextCall hq
    rw [h.listener p' hp' q' hq' port hpport hqport]
  · intro p hp service hservice
    obtain ⟨p', hp', rfl⟩ := mem_nextCall hp
    exact h.answers p' hp' service hservice

/-- The next call can begin where a steady run has ended. -/
theorem Settled.next (h : Settled machine w w') (hsteady : Steady machine w') : Sound w'.nextCall := by
  refine ⟨h.sound.nextCall, ?_, ?_, ?_, rfl⟩
  · intro service hheld
    obtain ⟨p, hp, hservice⟩ := held_iff.mp hheld
    obtain ⟨q, hq, rfl⟩ := mem_nextCall hp
    exact h.locked service (held_iff.mpr ⟨q, hq, hservice⟩)
  · intro state hstate hcurrent p hp hservice hport
    obtain ⟨q, hq, rfl⟩ := mem_nextCall hp
    exact h.truthful hsteady state hstate hcurrent q hq hservice hport
  · intro p hp
    obtain ⟨q, -, rfl⟩ := mem_nextCall hp
    rfl

/-- What launches nothing and writes no state file needs no steady run. -/
theorem Shrinks.next (h : Shrinks w w') (hw : Sound w) : Sound w'.nextCall := by
  refine ⟨(hw.processes.sublist h.processes).nextCall, ?_, ?_, ?_, rfl⟩
  · intro service hheld
    obtain ⟨p, hp, hservice⟩ := held_iff.mp hheld
    obtain ⟨q, hq, rfl⟩ := mem_nextCall hp
    exact h.locked hw.locked service (held_iff.mpr ⟨q, hq, hservice⟩)
  · intro state hstate hcurrent p hp hservice hport
    obtain ⟨q, hq, rfl⟩ := mem_nextCall hp
    exact hw.recorded state (h.state.symm.trans hstate) hcurrent q (h.processes.subset hq) hservice hport
  · intro p hp
    obtain ⟨q, -, rfl⟩ := mem_nextCall hp
    rfl

end Calls

section Runs
variable {w w' : World}

/-- What happens between calls: services exit, hang or close their port, and other programs come and go. -/
structure Environment (w w' : World) : Prop where
  processes : SoundProcesses w'.processes
  services : ∀ p ∈ w'.processes, ∀ service, p.service = some service →
    ∃ q ∈ w.processes, q.service = some service ∧ q.commandLine = p.commandLine ∧ (p.port = q.port ∨ p.port = none)
  launched : ∀ p ∈ w'.processes, p.launched = false
  lockFile : w'.lockFile = w.lockFile
  state : w'.state = w.state
  failedAt : w'.failedAt = w.failedAt

theorem Environment.next (h : Environment w w') (hw : Sound w) : Sound w' := by
  refine ⟨h.processes, ?_, ?_, h.launched, h.failedAt.trans hw.unfailed⟩
  · intro service hheld
    obtain ⟨p, hp, hservice⟩ := held_iff.mp hheld
    obtain ⟨q, hq, hbefore, -, -⟩ := h.services p hp service hservice
    rw [h.lockFile]
    exact hw.locked service (held_iff.mpr ⟨q, hq, hbefore⟩)
  · intro state hstate hcurrent p hp hservice hport
    obtain ⟨q, hq, hbefore, hcommand, hsame | hclosed⟩ := h.services p hp .dashboard hservice
    · rw [Process.launchedAgainst, ← hcommand]
      exact hw.recorded state (h.state.symm.trans hstate) hcurrent q hq hbefore (hsame.symm.trans hport)
    · rw [hclosed] at hport
      cases hport

/-- The worlds of a deployment: nothing runs at first, and then calls and the environment take turns. -/
inductive Reachable : World → Prop where
  | initial {w : World} : SoundProcesses w.processes → (∀ p ∈ w.processes, p.service = none ∧ p.launched = false) →
      w.failedAt = none → Reachable w
  | start {w : World} (machine : Machine) : Reachable w → SingleFailure machine w → Reachable (start machine w).2.nextCall
  | stop {w : World} (machine : Machine) : Reachable w → Reachable (stop machine w).2.nextCall
  | rollback {w : World} (machine : Machine) (started : StartedLocalServices) : Reachable w →
      Reachable (rollback machine started w).2.nextCall
  | environment {w w' : World} : Reachable w → Environment w w' → Reachable w'

theorem rollback_post (machine : Machine) (started : StartedLocalServices) (hw : Sound w) :
    Fallible.Post (rollback machine started) w (fun _ w' => Shrinks w w') := by
  have hstop : ∀ (service : ManagedService) (launched : Bool) (w₁ : World), Locked w₁ →
      Fallible.Post (stopLaunched machine service launched) w₁ (fun r w₂ => r = .ok () ∧ Shrinks w₁ w₂) := by
    intro service launched w₁ hlocked
    refine .when (fun _ => .attempt ?_) (fun _ => ⟨rfl, (Still.refl service w₁).shrinks⟩)
    exact (stop_post machine service w₁ (hlocked service)).mono (fun r w₂ h => ⟨rfl, h.1.shrinks⟩)
  refine .attempt (.bind (io_post machine .backend w _) ?_ (fun e w₁ h => h.1.shrinks))
  rintro _ w₁ ⟨hdirectories, -, -, -⟩
  refine .bind (io_post machine .backend w₁ _) ?_ (fun e w₂ h => hdirectories.shrinks.trans h.1.shrinks)
  rintro _ w₂ ⟨hlock, -, -, -⟩
  have hbefore := (hdirectories.trans hlock).shrinks
  refine .bind (hstop .dashboard started.dashboardStarted w₂ (hbefore.locked hw.locked)) ?_ (fun e w₃ h => nomatch h.1)
  rintro _ w₃ ⟨-, hdashboard⟩
  have hboth := hbefore.trans hdashboard
  refine (hstop .backend started.backendStarted w₃ (hboth.locked hw.locked)).mono ?_
  exact fun r w₄ h => hboth.trans h.2

/-- Every reachable world is one in which a call can begin, so that a start there is all or nothing unless it takes the
early exit. -/
theorem reachable_sound (h : Reachable w) : Sound w := by
  induction h with
  | initial hprocesses hnone hunfailed =>
    refine ⟨hprocesses, ?_, ?_, fun p hp => (hnone p hp).2, hunfailed⟩
    · intro service hheld
      obtain ⟨p, hp, hservice⟩ := held_iff.mp hheld
      rw [(hnone p hp).1] at hservice
      cases hservice
    · intro state _ _ p hp hservice
      rw [(hnone p hp).1] at hservice
      cases hservice
  | start machine _ hsingle ih => exact (start_result machine ih).toSettled.next hsingle
  | stop machine _ ih => exact (stop_shrinks machine ih).next ih
  | rollback machine started _ ih => exact (rollback_post machine started ih).next ih
  | environment _ henvironment ih => exact henvironment.next ih

end Runs
end Abyss.Cli.DeployLocal
