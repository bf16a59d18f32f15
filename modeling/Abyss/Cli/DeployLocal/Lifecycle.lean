import Mathlib.Data.List.Nodup
import Abyss.Cli.DeployLocal.Deployment

/-! What starting, inspecting and stopping one managed service can do. -/
namespace Abyss.Cli.DeployLocal
open Abyss.Text Abyss.System

section Relations

/-- The target of a signal matched the marker that identifies it. -/
def SentSignal.Matches (sent : SentSignal) : Prop := ∃ shown, sent.shown = some shown ∧ sent.marker <:+: shown

/-- What no operation undoes: time, the first failure, and signals, which go to matching processes only. -/
structure Evolves (w w' : World) : Prop where
  clock : w.clock ≤ w'.clock
  failedAt : ∀ n, w.failedAt = some n → w'.failedAt = some n
  failedBefore : ∀ n, w'.failedAt = some n → w.failedAt = some n ∨ n < w'.clock
  signals : ∀ sent ∈ w'.signals, sent ∈ w.signals ∨ sent.Matches

theorem Evolves.refl (w : World) : Evolves w w :=
  ⟨Nat.le_refl _, fun _ => id, fun _ => .inl, fun _ => .inl⟩

theorem Evolves.trans {w w' w'' : World} (h : Evolves w w') (h' : Evolves w' w'') : Evolves w w'' where
  clock := h.clock.trans h'.clock
  failedAt n hn := h'.failedAt n (h.failedAt n hn)
  failedBefore n hn := by
    obtain hn | hn := h'.failedBefore n hn
    · exact (h.failedBefore n hn).imp id (fun hlt => hlt.trans_le h'.clock)
    · exact .inr hn
  signals sent hsent := by
    obtain hsent | hmatches := h'.signals sent hsent
    · exact h.signals sent hsent
    · exact .inr hmatches

/-- An operation on the files of one service. -/
structure Touches (service : ManagedService) (w w' : World) : Prop extends Evolves w w' where
  state : w'.state = w.state
  productConfig : w'.productConfig = w.productConfig
  pidFile : ∀ other, other ≠ service → w'.pidFile other = w.pidFile other
  lockFile : ∀ other, w.lockFile other = true → w'.lockFile other = true

theorem Touches.refl (service : ManagedService) (w : World) : Touches service w w :=
  ⟨.refl w, rfl, rfl, fun _ _ => rfl, fun _ => id⟩

theorem Touches.trans {service : ManagedService} {w w' w'' : World} (h : Touches service w w') (h' : Touches service w' w'') :
    Touches service w w'' where
  toEvolves := h.toEvolves.trans h'.toEvolves
  state := h'.state.trans h.state
  productConfig := h'.productConfig.trans h.productConfig
  pidFile other hother := (h'.pidFile other hother).trans (h.pidFile other hother)
  lockFile other hother := h'.lockFile other (h.lockFile other hother)

/-- An operation that leaves all processes alone. -/
structure Still (service : ManagedService) (w w' : World) : Prop extends Touches service w w' where
  processes : w'.processes = w.processes

theorem Still.refl (service : ManagedService) (w : World) : Still service w w := ⟨.refl service w, rfl⟩

theorem Still.trans {service : ManagedService} {w w' w'' : World} (h : Still service w w') (h' : Still service w' w'') :
    Still service w w'' := ⟨h.toTouches.trans h'.toTouches, h'.processes.trans h.processes⟩

theorem Still.held {service : ManagedService} {w w' : World} (h : Still service w w') (other : ManagedService) :
    w'.held other = w.held other := by rw [World.held, World.held, h.processes]

/-- No operation fails by itself from now on. -/
def Quiet (machine : Machine) (w : World) : Prop := ∀ n, w.clock ≤ n → machine.faults n = false

theorem Quiet.mono {machine : Machine} {w w' : World} (h : Quiet machine w) (hclock : w.clock ≤ w'.clock) : Quiet machine w' :=
  fun n hn => h n (hclock.trans hn)

/-- A failure is remembered, and what has no reason to fail does not, unless the machine lets it. -/
structure Outcome {α : Type} (machine : Machine) (good : Prop) (w : World) (r : Except CliError α) (w' : World) : Prop where
  failed : ∀ e, r = .error e → w'.failedAt.isSome = true
  succeeds : good → Quiet machine w → ∃ a, r = .ok a

theorem Outcome.ok {α : Type} {machine : Machine} {good : Prop} {w w' : World} (a : α) :
    Outcome machine good w (.ok a) w' := ⟨nofun, fun _ _ => ⟨a, rfl⟩⟩

/-- The error of a part of a program is the error of the program. -/
theorem Outcome.error {α β : Type} {machine : Machine} {good good' : Prop} {w w' : World} {e : CliError}
    (h : Outcome machine good w (.error e : Except CliError α) w') (hgood : good' → good) :
    Outcome machine good' w (.error e : Except CliError β) w' := by
  refine ⟨fun _ _ => h.failed e rfl, fun hgood' hquiet => ?_⟩
  obtain ⟨a, ha⟩ := h.succeeds (hgood hgood') hquiet
  cases ha

/-- The rest of a program runs later. -/
theorem Outcome.later {α : Type} {machine : Machine} {good good' : Prop} {w w' w'' : World} {r : Except CliError α}
    (h : Outcome machine good w' r w'') (hclock : w.clock ≤ w'.clock) (hgood : good' → Quiet machine w → good) :
    Outcome machine good' w r w'' :=
  ⟨h.failed, fun hgood' hquiet => h.succeeds (hgood hgood' hquiet) (hquiet.mono hclock)⟩

end Relations

section Processes

/-- What the operating system and the readiness paths promise about all processes: IDs are distinct, a lifetime lock and a
port have one holder, and a readiness path is answered by its own service only. -/
structure SoundProcesses (processes : List Process) : Prop where
  pids : (processes.map (·.pid)).Nodup
  holder : ∀ p ∈ processes, ∀ q ∈ processes, ∀ service, p.service = some service → q.service = some service → p = q
  listener : ∀ p ∈ processes, ∀ q ∈ processes, ∀ port, p.port = some port → q.port = some port → p = q
  answers : ∀ p ∈ processes, ∀ service ∈ p.answers, p.service = some service

theorem SoundProcesses.sublist {processes processes' : List Process} (h : SoundProcesses processes)
    (hsub : processes'.Sublist processes) : SoundProcesses processes' where
  pids := h.pids.sublist (hsub.map _)
  holder p hp q hq := h.holder p (hsub.subset hp) q (hsub.subset hq)
  listener p hp q hq := h.listener p (hsub.subset hp) q (hsub.subset hq)
  answers p hp := h.answers p (hsub.subset hp)

theorem held_iff {w : World} {service : ManagedService} :
    w.held service = true ↔ ∃ p ∈ w.processes, p.service = some service := by
  simp [World.held]

theorem SoundProcesses.same_pid {processes : List Process} (h : SoundProcesses processes) {p q : Process}
    (hp : p ∈ processes) (hq : q ∈ processes) (hpid : p.pid = q.pid) : p = q :=
  List.inj_on_of_nodup_map h.pids hp hq hpid

theorem process_eq {w : World} (h : SoundProcesses w.processes) {p : Process} (hp : p ∈ w.processes) :
    w.process p.pid = some p := by
  unfold World.process
  cases hfind : w.processes.find? (fun q => q.pid = p.pid) with
  | none =>
    have hnone := List.find?_eq_none.mp hfind p hp
    simp at hnone
  | some q =>
    have hpid : q.pid = p.pid := by simpa using List.find?_some hfind
    rw [h.same_pid (List.mem_of_find?_eq_some hfind) hp hpid]

theorem deliver_sublist (w : World) (pid : UInt32) (signal : Signal) : (w.deliver pid signal).Sublist w.processes := by
  cases signal <;> exact List.filter_sublist

/-- Only the target of a signal can end. -/
theorem mem_deliver {w : World} {pid : UInt32} {p : Process} (signal : Signal) (hp : p ∈ w.processes) (hpid : p.pid ≠ pid) :
    p ∈ w.deliver pid signal := by
  cases signal <;> exact List.mem_filter.mpr ⟨hp, by simp [hpid]⟩

/-- The recorded process is the one that holds the lifetime lock, and signals can reach it. -/
structure Owned (w : World) (service : ManagedService) (record : ProcessRecord) (p : Process) : Prop where
  sound : SoundProcesses w.processes
  mem : p ∈ w.processes
  holds : p.service = some service
  pid : record.pid = p.pid
  range : p.pid.toNat < 2 ^ 31
  marker : record.marker <:+: p.shown

theorem Owned.matchesRecord {w : World} {service : ManagedService} {record : ProcessRecord} {p : Process}
    (h : Owned w service record p) : w.matchesRecord record = true := by
  rw [World.matchesRecord, h.pid, process_eq h.sound h.mem]
  exact decide_eq_true h.marker

theorem Owned.of_processes {w w' : World} {service : ManagedService} {record : ProcessRecord} {p : Process}
    (h : Owned w service record p) (hprocesses : w'.processes = w.processes) : Owned w' service record p := by
  constructor
  · rw [hprocesses]
    exact h.sound
  · rw [hprocesses]
    exact h.mem
  · exact h.holds
  · exact h.pid
  · exact h.range
  · exact h.marker

/-- An owned process that outlives a signal is still owned. -/
theorem Owned.sublist {w w' : World} {service : ManagedService} {record : ProcessRecord} {p : Process}
    (h : Owned w service record p) (hsub : w'.processes.Sublist w.processes) (hheld : w'.held service = true) :
    Owned w' service record p := by
  obtain ⟨q, hq, hholds⟩ := held_iff.mp hheld
  obtain rfl := h.sound.holder q (hsub.subset hq) p h.mem service hholds h.holds
  exact ⟨h.sound.sublist hsub, hq, h.holds, h.pid, h.range, h.marker⟩

/-- Killing the owned process gives up the lock. -/
theorem Owned.kill {w w' : World} {service : ManagedService} {record : ProcessRecord} {p : Process}
    (h : Owned w service record p) (hprocesses : w'.processes = w.deliver record.pid .kill) : w'.held service = false := by
  rw [← Bool.not_eq_true, held_iff, hprocesses]
  rintro ⟨q, hq, hholds⟩
  obtain ⟨hq, hpid⟩ := List.mem_filter.mp hq
  obtain rfl := h.sound.holder q hq p h.mem service hholds h.holds
  exact of_decide_eq_true hpid h.pid.symm

end Processes

section Steps
variable (machine : Machine) (service : ManagedService) (w : World)

theorem tick_still : Still service w w.tick :=
  ⟨⟨⟨Nat.le_succ _, fun _ => id, fun _ => .inl, fun _ => .inl⟩, rfl, rfl, fun _ _ => rfl, fun _ => id⟩, rfl⟩

theorem failNow_still : Still service w w.failNow := by
  refine ⟨⟨⟨Nat.le_succ _, ?_, ?_, fun _ => .inl⟩, rfl, rfl, fun _ _ => rfl, fun _ => id⟩, rfl⟩
  · intro n hn
    rw [World.failNow, hn]
    rfl
  · intro n hn
    change (w.failedAt <|> some w.clock) = some n at hn
    cases hfailed : w.failedAt with
    | none =>
      rw [hfailed] at hn
      obtain rfl := Option.some.inj hn
      exact .inr (Nat.lt_succ_self _)
    | some m =>
      rw [hfailed] at hn
      exact .inl hn

theorem failNow_failed : w.failNow.failedAt.isSome = true := by
  change (w.failedAt <|> some w.clock).isSome = true
  cases w.failedAt <;> rfl

theorem setPidFile_still (file : PrivateFile ProcessRecord) : Still service w (w.setPidFile service file) :=
  ⟨⟨⟨Nat.le_refl _, fun _ => id, fun _ => .inl, fun _ => .inl⟩, rfl, rfl,
    fun _ hother => Function.update_of_ne hother _ _, fun _ => id⟩, rfl⟩

theorem fail_post {α : Type} (error : CliError) :
    Fallible.Post (fail error : Op α) w (fun r w' => Still service w w' ∧ Outcome machine False w r w' ∧ ∃ e, r = .error e) :=
  ⟨failNow_still service w, ⟨fun _ _ => failNow_failed w, False.elim⟩, error, rfl⟩

theorem io_post (error : CliError) :
    Fallible.Post (io machine error) w (fun r w' => Still service w w' ∧ Outcome machine True w r w' ∧
      w'.pidFile = w.pidFile ∧ w'.lockFile = w.lockFile) := by
  unfold Fallible.Post io
  split
  · next hfault =>
    refine ⟨failNow_still service w, ⟨fun _ _ => failNow_failed w, fun _ hquiet => ?_⟩, rfl, rfl⟩
    rw [hquiet _ (Nat.le_refl _)] at hfault
    cases hfault
  · exact ⟨tick_still service w, .ok (), rfl, rfl⟩

theorem removePidFile_post : Fallible.Post (removePidFile machine service) w (fun r w' => Still service w w' ∧ r = .ok () ∧
    w'.lockFile = w.lockFile) := by
  refine ⟨?_, rfl, ?_⟩
  · unfold removePidFile ignored
    dsimp only
    split
    · exact tick_still service w
    · exact (tick_still service w).trans (setPidFile_still service w.tick .absent)
  · unfold removePidFile ignored
    dsimp only
    split <;> rfl

theorem openLockFile_post : Fallible.Post (openLockFile machine service) w (fun r w' => Still service w w' ∧
    Outcome machine True w r w' ∧ w'.pidFile = w.pidFile ∧ (r = .ok () → w'.lockFile service = true)) := by
  refine .bind (io_post machine service w _) ?_ ?_
  · rintro _ w' ⟨hstill, -, hpid, -⟩
    refine ⟨hstill.trans ⟨⟨⟨Nat.le_refl _, fun _ => id, fun _ => .inl, fun _ => .inl⟩, rfl, rfl, fun _ _ => rfl, ?_⟩, rfl⟩,
      .ok (), hpid, fun _ => Function.update_self _ _ _⟩
    intro other hother
    by_cases hsame : other = service
    · rw [hsame]
      exact Function.update_self _ _ _
    · exact (Function.update_of_ne hsame _ _).trans hother
  · rintro e w' ⟨hstill, houtcome, hpid, -⟩
    exact ⟨hstill, houtcome.error id, hpid, nofun⟩

theorem tryLock_post (operation : String) : Fallible.Post (tryLock machine service operation) w (fun r w' =>
    Still service w w' ∧ Outcome machine True w r w' ∧ w'.pidFile = w.pidFile ∧ w'.lockFile = w.lockFile ∧
      ∀ free, r = .ok free → free = !w.held service) := by
  refine .bind (io_post machine service w _) ?_ ?_
  · rintro _ w' ⟨hstill, -, hpid, hlock⟩
    refine ⟨hstill, .ok _, hpid, hlock, ?_⟩
    intro free hfree
    obtain rfl := Except.ok.inj hfree
    exact congrArg _ (hstill.held service)
  · rintro e w' ⟨hstill, houtcome, hpid, hlock⟩
    exact ⟨hstill, houtcome.error id, hpid, hlock, nofun⟩

/-- The record that a service's file holds. -/
def recorded : Option ProcessRecord :=
  match w.pidFile service with
  | .contents record => some record
  | _ => none

theorem readProcessRecord_post : Fallible.Post (readProcessRecord machine service) w (fun r w' =>
    Still service w w' ∧ Outcome machine ((recorded service w).isSome = true) w r w' ∧
      w'.pidFile = w.pidFile ∧ w'.lockFile = w.lockFile ∧ ∀ found, r = .ok found → found = recorded service w) := by
  refine .bind (io_post machine service w _) ?_ ?_
  · rintro _ w' ⟨hstill, -, hpid, hlock⟩
    apply Fallible.Post.get
    unfold recorded
    rw [hpid]
    have hfail : ∀ error, Fallible.Post (fail error : Op (Option ProcessRecord)) w' (fun r w'' => Still service w w'' ∧
        Outcome machine ((none : Option ProcessRecord).isSome = true) w r w'' ∧ w''.pidFile = w.pidFile ∧
        w''.lockFile = w.lockFile ∧ ∀ found, r = .ok found → found = none) := by
      intro error
      exact ⟨hstill.trans (failNow_still service w'), ⟨fun _ _ => failNow_failed w', nofun⟩, hpid, hlock, nofun⟩
    cases w.pidFile service with
    | absent => exact ⟨hstill, .ok none, hpid, hlock, fun _ hfound => (Except.ok.inj hfound).symm⟩
    | irregular => exact hfail _
    | malformed => exact hfail _
    | contents record => exact ⟨hstill, .ok (some record), hpid, hlock, fun _ hfound => (Except.ok.inj hfound).symm⟩
  · rintro e w' ⟨hstill, houtcome, hpid, hlock⟩
    exact ⟨hstill, houtcome.error (fun _ => trivial), hpid, hlock, nofun⟩

theorem writeProcessRecord_post (record : ProcessRecord) :
    Fallible.Post (writeProcessRecord machine service record) w (fun r w' => Still service w w' ∧
      Outcome machine False w r w' ∧ w'.lockFile = w.lockFile ∧ (r = .ok () → w'.pidFile service = .contents record)) := by
  refine .bind (io_post machine service w _) ?_ ?_
  · rintro _ w' ⟨hstill, -, -, hlock⟩
    apply Fallible.Post.get
    have hwrite : Fallible.Post (Fallible.modify fun w => w.setPidFile service (.contents record) : Op Unit) w' (fun r w'' =>
        Still service w w'' ∧ Outcome machine False w r w'' ∧ w''.lockFile = w.lockFile ∧
          (r = .ok () → w''.pidFile service = .contents record)) :=
      ⟨hstill.trans (setPidFile_still service w' _), .ok (), hlock, fun _ => Function.update_self _ _ _⟩
    cases w'.pidFile service with
    | irregular => exact ⟨hstill.trans (failNow_still service w'), ⟨fun _ _ => failNow_failed w', False.elim⟩, hlock, nofun⟩
    | absent => exact hwrite
    | malformed => exact hwrite
    | contents old => exact hwrite
  · rintro e w' ⟨hstill, houtcome, -, hlock⟩
    exact ⟨hstill, houtcome.error (fun _ => trivial), hlock, nofun⟩

theorem Still.matchesRecord {service : ManagedService} {w w' : World} (h : Still service w w') (record : ProcessRecord) :
    w'.matchesRecord record = w.matchesRecord record := by
  rw [World.matchesRecord, World.matchesRecord, World.process, World.process, h.processes]

theorem processMatches_post (record : ProcessRecord) : Fallible.Post (processMatches machine record) w (fun r w' =>
    Still service w w' ∧ Outcome machine True w r w' ∧ w'.pidFile = w.pidFile ∧ w'.lockFile = w.lockFile ∧
      ∀ found, r = .ok found → found = w.matchesRecord record) := by
  refine .bind (io_post machine service w _) ?_ ?_
  · rintro _ w' ⟨hstill, -, hpid, hlock⟩
    refine ⟨hstill, .ok _, hpid, hlock, ?_⟩
    intro found hfound
    obtain rfl := Except.ok.inj hfound
    exact hstill.matchesRecord record
  · rintro e w' ⟨hstill, houtcome, hpid, hlock⟩
    exact ⟨hstill, houtcome.error id, hpid, hlock, nofun⟩

theorem requireProcessMatch_post (record : ProcessRecord) :
    Fallible.Post (requireProcessMatch machine record service) w (fun r w' => Still service w w' ∧
      Outcome machine (w.matchesRecord record = true) w r w' ∧ w'.pidFile = w.pidFile ∧
      (r = .ok () → w.matchesRecord record = true)) := by
  refine .bind (processMatches_post machine service w record) ?_ ?_
  · rintro found w' ⟨hstill, -, hpid, -, hfound⟩
    obtain rfl := hfound found rfl
    cases hmatch : w.matchesRecord record with
    | true => exact ⟨hstill, .ok (), hpid, fun _ => rfl⟩
    | false => exact ⟨hstill.trans (failNow_still service w'), ⟨fun _ _ => failNow_failed w', nofun⟩, hpid, nofun⟩
  · rintro e w' ⟨hstill, houtcome, hpid, -⟩
    exact ⟨hstill, houtcome.error (fun _ => trivial), hpid, nofun⟩

/-- A signal that is sent to a process whose identity matches its record. -/
theorem send_touches {record : ProcessRecord} (signal : Signal) (hmatch : w.matchesRecord record = true) :
    Touches service w (w.send record.pid signal record.marker) := by
  refine ⟨⟨Nat.le_refl _, fun _ => id, fun _ => .inl, ?_⟩, rfl, rfl, fun _ _ => rfl, fun _ => id⟩
  intro sent hsent
  refine (List.mem_append.mp hsent).imp id (fun hlast => ?_)
  obtain rfl := List.mem_singleton.mp hlast
  obtain ⟨p, hp, hmarker⟩ := (Option.any_eq_true ..).mp hmatch
  exact ⟨p.shown, by rw [hp]; rfl, of_decide_eq_true hmarker⟩

theorem signalProcess_post {record : ProcessRecord} (signal : Signal) (hmatch : w.matchesRecord record = true) :
    Fallible.Post (signalProcess machine record signal service) w (fun r w' => Touches service w w' ∧
      Outcome machine (record.pid.toNat < 2 ^ 31) w r w' ∧ w'.pidFile = w.pidFile ∧
      (r = .ok () ∧ w'.processes = w.deliver record.pid signal ∨ w'.processes = w.processes ∧ ∃ e, r = .error e)) := by
  unfold signalProcess
  split
  · next hrange =>
    refine ⟨(failNow_still service w).toTouches, ⟨fun _ _ => failNow_failed w, fun hlt => ?_⟩, rfl, .inr ⟨rfl, _, rfl⟩⟩
    omega
  · refine .bind (io_post machine service w _) ?_ ?_
    · rintro _ w' ⟨hstill, -, hpid, -⟩
      rw [← hstill.matchesRecord record] at hmatch
      refine ⟨hstill.toTouches.trans (send_touches service w' signal hmatch), .ok (), hpid, .inl ⟨rfl, ?_⟩⟩
      change w'.deliver record.pid signal = w.deliver record.pid signal
      cases signal <;> rw [World.deliver, World.deliver, hstill.processes]
    · rintro e w' ⟨hstill, houtcome, hpid, -⟩
      exact ⟨hstill.toTouches, houtcome.error (fun _ => trivial), hpid, .inr ⟨hstill.processes, e, rfl⟩⟩

/-- Stopping a service removes at most one process, and it succeeds once nobody holds the lifetime lock. -/
structure Stopped (machine : Machine) (service : ManagedService) (record : Option ProcessRecord) (w : World)
    (r : Except CliError Bool) (w' : World) : Prop where
  touches : Touches service w w'
  processes : w'.processes.Sublist w.processes
  others : ∀ p ∈ w.processes, (∀ target, record = some target → p.pid ≠ target.pid) → p ∈ w'.processes
  failed : ∀ e, r = .error e → w'.failedAt.isSome = true
  released : ∀ a, r = .ok a → w'.held service = false
  succeeds : ∀ target, record = some target → (∃ p, Owned w service target p) → Quiet machine w → ∃ a, r = .ok a

theorem Stopped.of_still {machine : Machine} {service : ManagedService} {record : Option ProcessRecord} {w w' : World}
    {e : CliError} (hstill : Still service w w')
    (houtcome : Outcome machine (∃ p target, record = some target ∧ Owned w service target p) w (.error e : Except CliError Bool) w') :
    Stopped machine service record w (.error e) w' where
  touches := hstill.toTouches
  processes := hstill.processes ▸ List.Sublist.refl _
  others p hp _ := hstill.processes ▸ hp
  failed := houtcome.failed
  released := nofun
  succeeds := by
    rintro target hrecord ⟨p, howned⟩
    exact houtcome.succeeds ⟨p, target, hrecord, howned⟩

/-- The rest of a stop, behind a step that left all processes alone. -/
theorem Stopped.after_still {machine : Machine} {service : ManagedService} {record : Option ProcessRecord} {w w' w'' : World}
    {r : Except CliError Bool} (hstill : Still service w w') (h : Stopped machine service record w' r w'') :
    Stopped machine service record w r w'' where
  touches := hstill.toTouches.trans h.touches
  processes := hstill.processes ▸ h.processes
  others p hp := h.others p (hstill.processes ▸ hp)
  failed := h.failed
  released := h.released
  succeeds := by
    rintro target hrecord ⟨p, howned⟩ hquiet
    exact h.succeeds target hrecord ⟨p, howned.of_processes hstill.processes⟩ (hquiet.mono hstill.clock)

/-- The rest of a stop, behind a signal. -/
theorem Stopped.after_signal {machine : Machine} {service : ManagedService} {target : ProcessRecord} {w w' w'' : World}
    {signal : Signal} {r : Except CliError Bool} (htouches : Touches service w w')
    (hprocesses : w'.processes = w.deliver target.pid signal) (h : Stopped machine service (some target) w' r w'')
    (hsucceeds : w'.held service = false → Quiet machine w' → ∃ a, r = .ok a) :
    Stopped machine service (some target) w r w'' where
  touches := htouches.trans h.touches
  processes := h.processes.trans (hprocesses ▸ deliver_sublist w target.pid signal)
  others p hp hother := h.others p (hprocesses ▸ mem_deliver signal hp (hother target rfl)) hother
  failed := h.failed
  released := h.released
  succeeds := by
    rintro other hrecord ⟨p, howned⟩ hquiet
    obtain rfl := Option.some.inj hrecord
    have hquiet' := hquiet.mono htouches.clock
    cases hheld : w'.held service with
    | true =>
      exact h.succeeds target rfl ⟨p, howned.sublist (hprocesses ▸ deliver_sublist w target.pid signal) hheld⟩ hquiet'
    | false => exact hsucceeds hheld hquiet'

/-- The end of a stop that found the lock free. -/
theorem removed_post (result : Bool) (record : Option ProcessRecord) (hfree : w.held service = false) :
    Fallible.Post (do removePidFile machine service; return result : Op Bool) w (fun r w' =>
      Stopped machine service record w r w' ∧ r = .ok result ∧ w'.processes = w.processes) := by
  refine .bind (removePidFile_post machine service w) ?_ ?_
  · rintro _ w' ⟨hstill, -, -⟩
    refine ⟨⟨hstill.toTouches, hstill.processes ▸ List.Sublist.refl _, fun p hp _ => hstill.processes ▸ hp, nofun, ?_, ?_⟩,
      rfl, hstill.processes⟩
    · intro a _
      exact (hstill.held service).trans hfree
    · exact fun _ _ _ _ => ⟨result, rfl⟩
  · rintro e w' ⟨-, herror, -⟩
    cases herror

/-- A checked signal and what comes behind it. -/
theorem signalled_post (record : ProcessRecord) (signal : Signal) {rest : Op Bool}
    (hrest : ∀ w' : World, (signal = .kill → ∀ p, ¬ Owned w' service record p) →
      Fallible.Post rest w' (fun r w'' => Stopped machine service (some record) w' r w'' ∧
        (w'.held service = false → Quiet machine w' → ∃ a, r = .ok a))) :
    Fallible.Post (do requireProcessMatch machine record service; signalProcess machine record signal service; rest) w
      (fun r w' => Stopped machine service (some record) w r w') := by
  refine .bind (requireProcessMatch_post machine service w record) ?_ ?_
  · rintro _ w₁ ⟨hstill, -, -, hmatch⟩
    rw [← hstill.matchesRecord record] at hmatch
    refine .bind (signalProcess_post machine service w₁ signal (hmatch rfl)) ?_ ?_
    · rintro _ w₂ ⟨htouches, -, -, hsent⟩
      obtain ⟨-, hprocesses⟩ | ⟨-, e, he⟩ := hsent
      · refine (hrest w₂ ?_).mono (fun r w₃ h => .after_still hstill (.after_signal htouches hprocesses h.1 h.2))
        rintro rfl p howned
        have hmem := howned.mem
        rw [hprocesses] at hmem
        exact of_decide_eq_true (List.mem_filter.mp hmem).2 howned.pid.symm
      · cases he
    · rintro e w₂ ⟨htouches, houtcome, -, hsent⟩
      obtain ⟨hok, -⟩ | ⟨hprocesses, -⟩ := hsent
      · cases hok
      · refine .after_still hstill (.of_still ⟨htouches, hprocesses⟩ (houtcome.error ?_))
        rintro ⟨p, target, hrecord, howned⟩
        obtain rfl := Option.some.inj hrecord
        rw [howned.pid]
        exact howned.range
  · rintro e w₁ ⟨hstill, houtcome, -, -⟩
    refine .of_still hstill (houtcome.error ?_)
    rintro ⟨p, target, hrecord, howned⟩
    obtain rfl := Option.some.inj hrecord
    exact howned.matchesRecord

/-- The end of a stop behind a signal: the lock was given up, or not in time. -/
theorem waited_post (record : ProcessRecord) {rest : Op Bool}
    (hrest : ∀ w' : World, (∀ p, Owned w' service record p → Owned w service record p) →
      Fallible.Post rest w' (fun r w'' => Stopped machine service (some record) w' r w'')) :
    Fallible.Post (do if ← waitForUnlock machine service then (do removePidFile machine service; return true) else rest) w
      (fun r w' => Stopped machine service (some record) w r w' ∧
        (w.held service = false → Quiet machine w → ∃ a, r = .ok a)) := by
  refine .bind (tryLock_post machine service w _) ?_ ?_
  · rintro free w₁ ⟨hstill, -, -, -, hfree⟩
    obtain rfl := hfree free rfl
    cases hheld : w.held service with
    | false =>
      refine (removed_post machine service w₁ true (some record) ((hstill.held service).trans hheld)).mono ?_
      rintro _ w₂ ⟨h, rfl, -⟩
      exact ⟨.after_still hstill h, fun _ _ => ⟨true, rfl⟩⟩
    | true =>
      refine (hrest w₁ (fun p howned => howned.of_processes hstill.processes.symm)).mono (fun r w₂ h => ?_)
      exact ⟨.after_still hstill h, nofun⟩
  · rintro e w₁ ⟨hstill, houtcome, -, -, -⟩
    exact ⟨.of_still hstill (houtcome.error (fun _ => trivial)),
      fun _ hquiet => by
        obtain ⟨a, ha⟩ := houtcome.succeeds trivial hquiet
        cases ha⟩

theorem stopRecorded_post (record : ProcessRecord) : Fallible.Post (stopRecorded machine service record) w
    (fun r w' => Stopped machine service (some record) w r w') := by
  refine signalled_post machine service w record .term (fun w₁ _ => waited_post machine service w₁ record (fun w₂ _ => ?_))
  refine signalled_post machine service w₂ record .kill (fun w₃ hkilled => waited_post machine service w₃ record (fun w₄ howned => ?_))
  refine ⟨(failNow_still service w₄).toTouches, List.Sublist.refl _, fun p hp _ => hp, fun _ _ => failNow_failed w₄, nofun, ?_⟩
  rintro target hrecord ⟨p, hown⟩
  obtain rfl := Option.some.inj hrecord
  exact absurd (howned p hown) (hkilled rfl p)

theorem stop_post (hlocked : w.held service = true → w.lockFile service = true) :
    Fallible.Post (service.stop machine) w (fun r w' => Stopped machine service (recorded service w) w r w' ∧
      (w.held service = false → w'.processes = w.processes)) := by
  apply Fallible.Post.get
  cases hlock : w.lockFile service with
  | false =>
    have hfree : w.held service = false := by
      rw [← Bool.not_eq_true]
      intro hheld
      rw [hlocked hheld] at hlock
      cases hlock
    exact (removed_post machine service w false _ hfree).mono (fun _ _ h => ⟨h.1, fun _ => h.2.2⟩)
  | true =>
    refine .bind (openLockFile_post machine service w) ?_ ?_
    · rintro _ w₁ ⟨hopen, -, hpid₁, -⟩
      refine .bind (tryLock_post machine service w₁ _) ?_ ?_
      · rintro free w₂ ⟨htry, -, hpid₂, -, hfree⟩
        have hstill := hopen.trans htry
        have hrecorded : recorded service w₂ = recorded service w := by
          rw [recorded, recorded, hpid₂.trans hpid₁]
        obtain rfl := hfree free rfl
        rw [hopen.held service]
        cases hheld : w.held service with
        | false =>
          refine .bind (io_post machine service w₂ _) ?_ ?_
          · rintro _ w₃ ⟨hunlock, -, -, -⟩
            have hstill₃ := hstill.trans hunlock
            refine (removed_post machine service w₃ false (recorded service w) ((hstill₃.held service).trans hheld)).mono ?_
            rintro _ w₄ ⟨h, -, hprocesses⟩
            exact ⟨.after_still hstill₃ h, fun _ => hprocesses.trans hstill₃.processes⟩
          · rintro e w₃ ⟨hunlock, houtcome, -, -⟩
            exact ⟨.after_still hstill (.of_still hunlock (houtcome.error (fun _ => trivial))),
              fun _ => (hstill.trans hunlock).processes⟩
        | true =>
          refine .bind (readProcessRecord_post machine service w₂) ?_ ?_
          · rintro found w₃ ⟨hread, -, -, -, hfound⟩
            rw [hfound found rfl, hrecorded]
            cases recorded service w with
            | none => exact ⟨.after_still hstill (.of_still (hread.trans (failNow_still service w₃))
                ⟨fun _ _ => failNow_failed w₃, nofun⟩), nofun⟩
            | some record =>
              exact (stopRecorded_post machine service w₃ record).mono
                (fun _ _ h => ⟨.after_still (hstill.trans hread) h, nofun⟩)
          · rintro e w₃ ⟨hread, houtcome, -, -, -⟩
            refine ⟨.after_still hstill (.of_still hread (houtcome.error ?_)), nofun⟩
            rintro ⟨p, target, hrecord, -⟩
            rw [hrecorded, hrecord]
            rfl
      · rintro e w₂ ⟨htry, houtcome, -, -, -⟩
        exact ⟨.after_still hopen (.of_still htry (houtcome.error (fun _ => trivial))),
          fun _ => (hopen.trans htry).processes⟩
    · rintro e w₁ ⟨hopen, houtcome, -, -⟩
      exact ⟨.of_still hopen (houtcome.error (fun _ => trivial)), fun _ => hopen.processes⟩

/-- A stop that succeeds spares the processes of other services. -/
theorem Stopped.spares {w w' : World} {r : Except CliError Bool} {stopped : Bool}
    (h : Stopped machine service (recorded service w) w r w') (hfree : w.held service = false → w'.processes = w.processes)
    (hok : r = .ok stopped) (hsound : SoundProcesses w.processes) {p : Process} (hp : p ∈ w.processes)
    (hservice : p.service ≠ some service) : p ∈ w'.processes := by
  cases hheld : w.held service with
  | false =>
    rw [hfree hheld]
    exact hp
  | true =>
    obtain ⟨holder, hholder, hholds⟩ := held_iff.mp hheld
    apply h.others p hp
    intro target htarget hpid
    -- the recorded process is the holder, for the lock was given up
    have hgone : holder ∉ w'.processes := by
      intro hmem
      have hreleased := h.released stopped hok
      rw [held_iff.mpr ⟨holder, hmem, hholds⟩] at hreleased
      cases hreleased
    apply hgone
    apply h.others holder hholder
    intro other hother hsame
    obtain rfl := Option.some.inj (htarget.symm.trans hother)
    obtain rfl := hsound.same_pid hp hholder (hpid.trans hsame.symm)
    exact hservice hholds

end Steps
end Abyss.Cli.DeployLocal
