import Abyss.Cli.DeployLocal.Lifecycle

/-! What launching one managed service can do. -/
namespace Abyss.Cli.DeployLocal
open Abyss.Text Abyss.System

section Status
variable (machine : Machine) (service : ManagedService) (w : World)

theorem Still.httpReady {service : ManagedService} {w w' : World} (h : Still service w w')
    (other : ManagedService) (port : UInt16) : w'.httpReady other port = w.httpReady other port := by
  rw [World.httpReady, World.httpReady, h.processes]

theorem heldStatus_post (port : UInt16) : Fallible.Post (heldStatus machine service port) w (fun r w' =>
    Still service w w' ∧ (∀ e, r = .error e → w'.failedAt.isSome = true) ∧
      (∀ pid, r = .ok (.running pid) → w.httpReady service port = true) ∧ r ≠ .ok .stopped) := by
  refine .bind (readProcessRecord_post machine service w) ?_ ?_
  · rintro found w₁ ⟨hread, -, -, -, -⟩
    cases found with
    | none => exact ⟨hread, nofun, nofun, nofun⟩
    | some record =>
      refine .bind (processMatches_post machine service w₁ record) ?_ ?_
      · rintro matched w₂ ⟨hmatch, -, -, -, -⟩
        have hstill := hread.trans hmatch
        cases matched with
        | false => exact ⟨hstill, nofun, nofun, nofun⟩
        | true =>
          apply Fallible.Post.get
          cases hready : w₂.httpReady service port with
          | false => exact ⟨hstill, nofun, nofun, nofun⟩
          | true =>
            refine ⟨hstill, nofun, fun _ _ => ?_, nofun⟩
            rw [← hstill.httpReady]
            exact hready
      · rintro e w₂ ⟨hmatch, houtcome, -, -, -⟩
        exact ⟨hread.trans hmatch, fun _ _ => houtcome.failed e rfl, nofun, nofun⟩
  · rintro e w₁ ⟨hread, houtcome, -, -, -⟩
    exact ⟨hread, fun _ _ => houtcome.failed e rfl, nofun, nofun⟩

/-- A running service holds its lock and something answers on its port; a stopped one has given up the lock. -/
theorem status_post (port : UInt16) (hlocked : w.held service = true → w.lockFile service = true) :
    Fallible.Post (service.status machine port) w (fun r w' => Still service w w' ∧
      (∀ e, r = .error e → w'.failedAt.isSome = true) ∧
      (∀ pid, r = .ok (.running pid) → w.held service = true ∧ w.httpReady service port = true) ∧
      (r = .ok .stopped → w.held service = false)) := by
  apply Fallible.Post.get
  cases hlock : w.lockFile service with
  | false =>
    refine ⟨.refl service w, nofun, nofun, fun _ => ?_⟩
    rw [← Bool.not_eq_true]
    intro hheld
    rw [hlocked hheld] at hlock
    cases hlock
  | true =>
    refine .bind (openLockFile_post machine service w) ?_ ?_
    · rintro _ w₁ ⟨hopen, -, -, -⟩
      refine .bind (tryLock_post machine service w₁ _) ?_ ?_
      · rintro free w₂ ⟨htry, -, -, -, hfree⟩
        have hstill := hopen.trans htry
        obtain rfl := hfree free rfl
        rw [hopen.held service]
        cases hheld : w.held service with
        | false =>
          refine .bind (io_post machine service w₂ _) ?_ ?_
          · rintro _ w₃ ⟨hunlock, -, -, -⟩
            refine .bind (removePidFile_post machine service w₃) ?_ ?_
            · rintro _ w₄ ⟨hremove, -, -⟩
              exact ⟨(hstill.trans hunlock).trans hremove, nofun, nofun, fun _ => rfl⟩
            · rintro e w₄ ⟨-, herror, -⟩
              cases herror
          · rintro e w₃ ⟨hunlock, houtcome, -, -⟩
            exact ⟨hstill.trans hunlock, fun _ _ => houtcome.failed e rfl, nofun, nofun⟩
        | true =>
          refine (heldStatus_post machine service w₂ port).mono ?_
          rintro r w₃ ⟨hstatus, hfailed, hrunning, hstopped⟩
          refine ⟨hstill.trans hstatus, hfailed, fun pid hpid => ⟨rfl, ?_⟩, fun h => absurd h hstopped⟩
          rw [← hstill.httpReady]
          exact hrunning pid hpid
      · rintro e w₂ ⟨htry, houtcome, -, -, -⟩
        exact ⟨hopen.trans htry, fun _ _ => houtcome.failed e rfl, nofun, nofun⟩
    · rintro e w₁ ⟨hopen, houtcome, -, -⟩
      exact ⟨hopen, fun _ _ => houtcome.failed e rfl, nofun, nofun⟩

end Status

section Launch
variable (machine : Machine) (service : ManagedService)

theorem unusedPid_ne {w : World} {pid : UInt32} (h : w.unusedPid pid = true) {p : Process} (hp : p ∈ w.processes) :
    p.pid ≠ pid := by
  rw [World.unusedPid, Bool.and_eq_true, List.all_eq_true] at h
  exact of_decide_eq_true (h.2 p hp)

theorem taken_iff {w : World} {port : UInt16} : w.taken port = true ↔ ∃ p ∈ w.processes, p.port = some port := by
  simp [World.taken]

/-- A launched process fits in with the others. -/
theorem SoundProcesses.spawn {w : World} (h : SoundProcesses w.processes) (hfree : w.held service = false) (launch : Launch)
    (hpid : w.unusedPid launch.pid = true) (command : ServiceCommand) (port : UInt16) :
    SoundProcesses (w.processes ++ [w.spawned service launch command port]) := by
  have hmem : ∀ p ∈ w.processes ++ [w.spawned service launch command port],
      p ∈ w.processes ∨ p = w.spawned service launch command port := by
    intro p hp
    exact (List.mem_append.mp hp).imp id List.mem_singleton.mp
  have hholder : ∀ p ∈ w.processes, p.service ≠ some service := by
    intro p hp hservice
    rw [held_iff.mpr ⟨p, hp, hservice⟩] at hfree
    cases hfree
  have hlistener : ∀ p ∈ w.processes, ∀ other, p.port = some other →
      (w.spawned service launch command port).port ≠ some other := by
    intro p hp other hother hport
    simp only [World.spawned] at hport
    split at hport
    · next hready =>
      obtain rfl := Option.some.inj hport
      rw [taken_iff.mpr ⟨p, hp, hother⟩] at hready
      simp at hready
    · cases hport
  constructor
  · rw [List.map_append, List.map_singleton]
    refine List.nodup_append.mpr ⟨h.pids, List.nodup_singleton _, ?_⟩
    rintro pid hpids other hother rfl
    obtain ⟨p, hp, rfl⟩ := List.mem_map.mp hpids
    exact unusedPid_ne hpid hp (List.mem_singleton.mp hother)
  · intro p hp q hq other hpo hqo
    obtain hp | rfl := hmem p hp
    · obtain hq | rfl := hmem q hq
      · exact h.holder p hp q hq other hpo hqo
      · obtain rfl := Option.some.inj hqo
        exact absurd hpo (hholder p hp)
    · obtain rfl := Option.some.inj hpo
      obtain hq | rfl := hmem q hq
      · exact absurd hqo (hholder q hq)
      · rfl
  · intro p hp q hq other hpo hqo
    obtain hp | rfl := hmem p hp
    · obtain hq | rfl := hmem q hq
      · exact h.listener p hp q hq other hpo hqo
      · exact absurd hqo (hlistener p hp other hpo)
    · obtain hq | rfl := hmem q hq
      · exact absurd hpo (hlistener q hq other hqo)
      · rfl
  · intro p hp other hother
    obtain hp | rfl := hmem p hp
    · exact h.answers p hp other hother
    · simp only [World.spawned] at hother ⊢
      split at hother
      · exact congrArg some (List.mem_singleton.mp hother).symm
      · cases hother

theorem spawn_post (w : World) (command : ServiceCommand) (port : UInt16) :
    Fallible.Post (spawn machine service command port) w (fun r w' => Touches service w w' ∧
      ((∃ e, r = .error e) ∧ w'.processes = w.processes ∧ w'.failedAt.isSome = true ∨
        ∃ launch, r = .ok launch ∧ w.unusedPid launch.pid = true ∧ w'.pidFile = w.pidFile ∧ w'.lockFile = w.lockFile ∧
          w'.processes = w.processes ++ [w.spawned service launch command port])) := by
  apply Fallible.Post.get
  refine .bind (io_post machine service w _) ?_ ?_
  · rintro _ w₁ ⟨hstill, -, hpid, hlock⟩
    apply Fallible.Post.get
    have hunused : ∀ pid, w₁.unusedPid pid = w.unusedPid pid := by
      intro pid
      rw [World.unusedPid, World.unusedPid, hstill.processes]
    rw [hunused]
    cases hfresh : w.unusedPid (machine.launch w.clock).pid with
    | true =>
      refine ⟨hstill.toTouches.trans ⟨⟨Nat.le_refl _, fun _ => id, fun _ => .inl, fun _ => .inl⟩, rfl, rfl,
        fun _ _ => rfl, fun _ => id⟩, .inr ⟨machine.launch w.clock, rfl, hfresh, hpid, hlock, ?_⟩⟩
      change w₁.processes ++ [w₁.spawned service (machine.launch w.clock) command port] = _
      rw [World.spawned, World.spawned, World.taken, World.taken, hstill.processes]
    | false =>
      exact ⟨(hstill.trans (failNow_still service w₁)).toTouches, .inl ⟨⟨_, rfl⟩, hstill.processes, failNow_failed w₁⟩⟩
  · rintro e w₁ ⟨hstill, houtcome, -, -⟩
    exact ⟨hstill.toTouches, .inl ⟨⟨e, rfl⟩, hstill.processes, houtcome.failed e rfl⟩⟩

/-- What `ps` shows contains every argument. -/
theorem infix_join (separator : Str) {part : Str} {parts : List Str} (h : part ∈ parts) : part <:+: join separator parts := by
  induction parts with
  | nil => cases h
  | cons first rest ih =>
    cases rest with
    | nil =>
      obtain rfl := List.mem_singleton.mp h
      simp [join]
    | cons second rest =>
      have hjoin : join separator (first :: second :: rest) = first ++ (separator ++ join separator (second :: rest)) := by
        simp [join, List.intercalate_cons_cons]
      rw [hjoin]
      obtain rfl | hrest := List.mem_cons.mp h
      · exact (List.prefix_append part _).isInfix
      · exact (ih hrest).trans ((List.suffix_append separator _).trans (List.suffix_append first _)).isInfix

/-- A process that was launched and is ready, beside the processes from before. -/
structure Child (w : World) (service : ManagedService) (command : ServiceCommand) (port : UInt16) (w' : World)
    (child : Process) : Prop where
  processes : w'.processes = w.processes ++ [child]
  commandLine : child.commandLine = command.program :: command.arguments
  listens : child.port = some port
  free : w.taken port = false
  launched : child.launched = true
  owned : Owned w' service ⟨child.pid, command.marker⟩ child
  record : recorded service w' = some ⟨child.pid, command.marker⟩
  lockFile : w'.lockFile service = true

/-- A child that is killed leaves the processes from before. -/
theorem terminateChild_post {w : World} {record : ProcessRecord} {processes : List Process} {child : Process}
    (howned : Owned w service record child) (hprocesses : w.processes = processes ++ [child]) :
    Fallible.Post (terminateChild record.pid record.marker) w (fun r w' => r = .ok () ∧ Touches service w w' ∧
      w'.processes = processes ∧ w'.failedAt = w.failedAt) := by
  refine ⟨rfl, send_touches service w .kill howned.matchesRecord, ?_, rfl⟩
  change w.processes.filter (fun p => decide (p.pid ≠ record.pid)) = processes
  have hne : ∀ p ∈ processes, p.pid ≠ child.pid := by
    have hpids := howned.sound.pids
    rw [hprocesses, List.map_append, List.map_singleton] at hpids
    exact fun p hp => (List.nodup_append.mp hpids).2.2 p.pid (List.mem_map_of_mem hp) child.pid List.mem_cons_self
  rw [hprocesses, List.filter_append, howned.pid, List.filter_eq_self.mpr (fun p hp => decide_eq_true (hne p hp)),
    List.filter_singleton, decide_eq_false (fun h => h rfl)]
  exact List.append_nil _

variable {w : World} {command : ServiceCommand} {port : UInt16}

/-- The process that a spawn leaves behind. -/
theorem spawned_owned (hsound : SoundProcesses w.processes) (hfree : w.held service = false)
    (hmarker : command.marker ∈ command.program :: command.arguments) {launch : Launch}
    (hpid : w.unusedPid launch.pid = true) {w' : World}
    (hprocesses : w'.processes = w.processes ++ [w.spawned service launch command port]) :
    Owned w' service ⟨launch.pid, command.marker⟩ (w.spawned service launch command port) := by
  refine ⟨hprocesses ▸ hsound.spawn service hfree launch hpid command port, ?_, rfl, rfl, ?_, infix_join _ hmarker⟩
  · rw [hprocesses]
    exact List.mem_append_right _ List.mem_cons_self
  · rw [World.unusedPid, Bool.and_eq_true, Bool.and_eq_true] at hpid
    exact of_decide_eq_true hpid.1.2

/-- An answer on the port of a launched process comes from that process. -/
theorem spawned_ready (hsound : SoundProcesses w.processes) (hfree : w.held service = false) {launch : Launch} {w' : World}
    (hprocesses : w'.processes = w.processes ++ [w.spawned service launch command port])
    (hready : w'.httpReady service port = true) :
    (w.spawned service launch command port).port = some port ∧ w.taken port = false := by
  rw [World.httpReady, List.any_eq_true, hprocesses] at hready
  obtain ⟨p, hp, hanswers⟩ := hready
  rw [Bool.and_eq_true, decide_eq_true_iff, decide_eq_true_iff] at hanswers
  obtain hp | hp := List.mem_append.mp hp
  · rw [held_iff.mpr ⟨p, hp, hsound.answers p hp service hanswers.2⟩] at hfree
    cases hfree
  · obtain rfl := List.mem_singleton.mp hp
    refine ⟨hanswers.1, ?_⟩
    have hlistens := hanswers.1
    simp only [World.spawned] at hlistens
    split at hlistens
    · next h =>
      rw [Bool.and_eq_true, Bool.and_eq_true, Bool.not_eq_true'] at h
      exact h.1.2
    · cases hlistens

theorem waitUntilReady_post (launch : Launch) (port : UInt16) (w : World) :
    Fallible.Post (waitUntilReady machine service launch port) w (fun r w' => Still service w w' ∧
      w'.pidFile = w.pidFile ∧ w'.lockFile = w.lockFile ∧ (∀ e, r = .error e → w'.failedAt.isSome = true) ∧
      (r = .ok () → w.httpReady service port = true)) := by
  refine .bind (io_post machine service w _) ?_ ?_
  · rintro _ w₁ ⟨hstill, -, hpid, hlock⟩
    apply Fallible.Post.get
    cases hready : w₁.httpReady service port with
    | true =>
      refine ⟨hstill, hpid, hlock, nofun, fun _ => ?_⟩
      rw [← hstill.httpReady]
      exact hready
    | false =>
      have hfail : ∀ error, Fallible.Post (fail error : Op Unit) w₁ (fun r w' => Still service w w' ∧
          w'.pidFile = w.pidFile ∧ w'.lockFile = w.lockFile ∧ (∀ e, r = .error e → w'.failedAt.isSome = true) ∧
          (r = .ok () → w.httpReady service port = true)) :=
        fun error => ⟨hstill.trans (failNow_still service w₁), hpid, hlock, fun _ _ => failNow_failed w₁, nofun⟩
      cases launch.exit with
      | none => exact hfail _
      | some status => exact hfail _
  · rintro e w₁ ⟨hstill, houtcome, hpid, hlock⟩
    exact ⟨hstill, hpid, hlock, fun _ _ => houtcome.failed e rfl, nofun⟩

/-- A launch either leaves the processes as they were, or adds one that is ready. -/
structure LaunchResult (service : ManagedService) (command : ServiceCommand) (port : UInt16) (w : World)
    (r : Except CliError StartDisposition) (w' : World) : Prop where
  touches : Touches service w w'
  result : ((∃ e, r = .error e) ∧ w'.processes = w.processes ∧ w'.failedAt.isSome = true) ∨
    r = .ok .started ∧ ∃ child, Child w service command port w' child

theorem LaunchResult.after_still {w' w'' : World} {r : Except CliError StartDisposition} (hstill : Still service w w')
    (h : LaunchResult service command port w' r w'') : LaunchResult service command port w r w'' := by
  refine ⟨hstill.toTouches.trans h.touches, ?_⟩
  have hprocesses := hstill.processes
  refine h.result.imp ?_ ?_
  · rintro ⟨hr, hsame, hfailed⟩
    exact ⟨hr, hsame.trans hprocesses, hfailed⟩
  · rintro ⟨hr, child, hchild⟩
    refine ⟨hr, child, hprocesses ▸ hchild.processes, hchild.commandLine, hchild.listens, ?_, hchild.launched, hchild.owned,
      hchild.record, hchild.lockFile⟩
    have hfree := hchild.free
    rw [World.taken, hprocesses] at hfree
    exact hfree

/-- The failing end of a launch: the child is killed. -/
theorem LaunchResult.terminated {w' w'' : World} {e : CliError} (htouches : Touches service w w')
    (hfailed : w'.failedAt.isSome = true) (htouches' : Touches service w' w'') (hprocesses : w''.processes = w.processes)
    (hfailedAt : w''.failedAt = w'.failedAt) : LaunchResult service command port w (.error e) w'' :=
  ⟨htouches.trans htouches', .inl ⟨⟨e, rfl⟩, hprocesses, by rw [hfailedAt]; exact hfailed⟩⟩

/-- A spawned child is recorded and waited for, or killed. -/
theorem readied_post (hsound : SoundProcesses w.processes) (hfree : w.held service = false)
    (hmarker : command.marker ∈ command.program :: command.arguments) {launch : Launch} (hpid : w.unusedPid launch.pid = true)
    {w₁ : World} (htouches : Touches service w w₁) (hlock : w₁.lockFile service = true)
    (hprocesses : w₁.processes = w.processes ++ [w.spawned service launch command port]) :
    Fallible.Post (do
        Fallible.onError (writeProcessRecord machine service ⟨launch.pid, command.marker⟩)
          (terminateChild launch.pid command.marker)
        Fallible.onError (waitUntilReady machine service launch port)
          (do terminateChild launch.pid command.marker; removePidFile machine service)
        return StartDisposition.started)
      w₁ (LaunchResult service command port w) := by
  refine .bind (P := fun r w' => (∀ e, r = .error e → LaunchResult service command port w (.error e) w') ∧
      (r = .ok () → Touches service w w' ∧ w'.processes = w.processes ++ [w.spawned service launch command port] ∧
        w'.lockFile service = true ∧ w'.pidFile service = .contents ⟨launch.pid, command.marker⟩)) (.onError
      (writeProcessRecord_post machine service w₁ ⟨launch.pid, command.marker⟩) ?_ ?_) ?_ ?_
  · rintro _ w₂ ⟨hwrite, -, hlock₂, hrecord⟩
    exact ⟨nofun, fun _ => ⟨htouches.trans hwrite.toTouches, hwrite.processes.trans hprocesses, hlock₂ ▸ hlock, hrecord rfl⟩⟩
  · rintro e w₂ ⟨hwrite, houtcome, -, -⟩
    have hprocesses₂ := hwrite.processes.trans hprocesses
    refine (terminateChild_post service (spawned_owned service hsound hfree hmarker hpid hprocesses₂) hprocesses₂).mono ?_
    rintro _ w₃ ⟨-, hkill, hgone, hfailed⟩
    refine ⟨?_, nofun⟩
    rintro _ ⟨⟩
    exact .terminated service (htouches.trans hwrite.toTouches) (houtcome.failed e rfl) hkill hgone hfailed
  · rintro _ w₂ ⟨-, hok⟩
    obtain ⟨htouches₂, hprocesses₂, hlock₂, hrecord₂⟩ := hok rfl
    refine .bind (P := fun r w' => (∀ e, r = .error e → LaunchResult service command port w (.error e) w') ∧
        (r = .ok () → Touches service w w' ∧ ∃ child, Child w service command port w' child)) (.onError
        (waitUntilReady_post machine service launch port w₂) ?_ ?_) ?_ ?_
    · rintro _ w₃ ⟨hwait, hpid₃, hlock₃, -, hready⟩
      obtain ⟨hlistens, hport⟩ := spawned_ready service hsound hfree hprocesses₂ (hready rfl)
      have hprocesses₃ := hwait.processes.trans hprocesses₂
      refine ⟨nofun, fun _ => ⟨htouches₂.trans hwait.toTouches, w.spawned service launch command port, hprocesses₃, rfl,
        hlistens, hport, rfl, spawned_owned service hsound hfree hmarker hpid hprocesses₃, ?_, hlock₃ ▸ hlock₂⟩⟩
      rw [recorded, hpid₃, hrecord₂]
      rfl
    · rintro e w₃ ⟨hwait, -, -, hfailed, -⟩
      have hprocesses₃ := hwait.processes.trans hprocesses₂
      refine .bind (terminateChild_post service (spawned_owned service hsound hfree hmarker hpid hprocesses₃) hprocesses₃)
        ?_ (fun e w₄ h => nomatch h.1)
      rintro _ w₄ ⟨-, hkill, hgone, hfailed₄⟩
      refine (removePidFile_post machine service w₄).mono ?_
      rintro _ w₅ ⟨hremove, -, -⟩
      refine ⟨?_, nofun⟩
      rintro _ ⟨⟩
      have hset : w₄.failedAt.isSome = true := by
        rw [hfailed₄]
        exact hfailed e rfl
      obtain ⟨n, hn⟩ := Option.isSome_iff_exists.mp hset
      refine ⟨(htouches₂.trans hwait.toTouches).trans (hkill.trans hremove.toTouches), .inl ⟨⟨e, rfl⟩,
        hremove.processes.trans hgone, ?_⟩⟩
      rw [hremove.failedAt n hn]
      rfl
    · rintro _ w₃ ⟨-, hchild⟩
      exact ⟨(hchild rfl).1, .inr ⟨rfl, (hchild rfl).2⟩⟩
    · rintro e w₃ ⟨herror, -⟩
      exact herror e rfl
  · rintro e w₂ ⟨herror, -⟩
    exact herror e rfl

theorem launchService_post (hsound : SoundProcesses w.processes) (hfree : w.held service = false)
    (hlock : w.lockFile service = true) (hmarker : command.marker ∈ command.program :: command.arguments) :
    Fallible.Post (launchService machine service command port) w (LaunchResult service command port w) := by
  refine .bind (removePidFile_post machine service w) ?_ (fun e w₁ h => nomatch h.2.1)
  rintro _ w₁ ⟨hremove, -, hlock₁⟩
  refine .bind (io_post machine service w₁ _) ?_ ?_
  · rintro _ w₂ ⟨hopen, -, -, hlock₂⟩
    have hstill := hremove.trans hopen
    have hsound₂ : SoundProcesses w₂.processes := hstill.processes ▸ hsound
    have hfree₂ : w₂.held service = false := (hstill.held service).trans hfree
    refine .bind (spawn_post machine service w₂ command port) ?_ ?_
    · rintro launch w₃ ⟨hspawn, hresult⟩
      obtain ⟨⟨e, he⟩, -, -⟩ | ⟨other, hother, hpid, -, hlock₃, hprocesses⟩ := hresult
      · cases he
      · obtain rfl := Except.ok.inj hother
        refine (readied_post machine service hsound₂ hfree₂ hmarker hpid hspawn ?_ hprocesses).mono
          (fun r w₄ h => .after_still service hstill h)
        rw [hlock₃, hlock₂, hlock₁]
        exact hlock
    · rintro e w₃ ⟨hspawn, hresult⟩
      obtain ⟨-, hsame, hfailed⟩ | ⟨_, hok, -⟩ := hresult
      · exact ⟨hstill.toTouches.trans hspawn, .inl ⟨⟨e, rfl⟩, hsame.trans hstill.processes, hfailed⟩⟩
      · cases hok
  · rintro e w₂ ⟨hopen, houtcome, -, -⟩
    exact ⟨(hremove.trans hopen).toTouches, .inl ⟨⟨e, rfl⟩, (hremove.trans hopen).processes, houtcome.failed e rfl⟩⟩

theorem start_post (hsound : SoundProcesses w.processes) (hfree : w.held service = false)
    (hmarker : command.marker ∈ command.program :: command.arguments) :
    Fallible.Post (service.start machine command port) w (LaunchResult service command port w) := by
  refine .bind (openLockFile_post machine service w) ?_ ?_
  · rintro _ w₁ ⟨hopen, -, -, hlock⟩
    refine .bind (tryLock_post machine service w₁ _) ?_ ?_
    · rintro free w₂ ⟨htry, -, -, hlock₂, hresult⟩
      have hstill := hopen.trans htry
      obtain rfl := hresult free rfl
      rw [hopen.held service, hfree]
      refine (launchService_post machine service (hstill.processes ▸ hsound) ((hstill.held service).trans hfree) ?_ hmarker).mono
        (fun r w₃ h => .after_still service hstill h)
      rw [hlock₂]
      exact hlock rfl
    · rintro e w₂ ⟨htry, houtcome, -, -, -⟩
      exact ⟨(hopen.trans htry).toTouches, .inl ⟨⟨e, rfl⟩, (hopen.trans htry).processes, houtcome.failed e rfl⟩⟩
  · rintro e w₁ ⟨hopen, houtcome, -, -⟩
    exact ⟨hopen.toTouches, .inl ⟨⟨e, rfl⟩, hopen.processes, houtcome.failed e rfl⟩⟩

end Launch

section Ensure
variable (machine : Machine) (service : ManagedService) {w : World}

theorem ephemeralPort_post (excluded : Option UInt16) (attempts : Nat) (w : World) :
    Fallible.Post (ephemeralPort machine excluded attempts) w (fun r w' => Still service w w' ∧
      ∀ e, r = .error e → w'.failedAt.isSome = true) := by
  induction attempts generalizing w with
  | zero => exact ⟨failNow_still service w, fun _ _ => failNow_failed w⟩
  | succ attempts ih =>
    apply Fallible.Post.get
    refine .bind (io_post machine service w _) ?_ ?_
    · rintro _ w₁ ⟨hallocate, -, -, -⟩
      refine .bind (io_post machine service w₁ _) ?_ ?_
      · rintro _ w₂ ⟨hinspect, -, -, -⟩
        have hstill := hallocate.trans hinspect
        split
        · exact ⟨hstill, nofun⟩
        · exact (ih w₂).mono (fun r w₃ h => ⟨hstill.trans h.1, h.2⟩)
      · rintro e w₂ ⟨hinspect, houtcome, -, -⟩
        exact ⟨hallocate.trans hinspect, fun _ _ => houtcome.failed e rfl⟩
    · rintro e w₁ ⟨hallocate, houtcome, -, -⟩
      exact ⟨hallocate, fun _ _ => houtcome.failed e rfl⟩

theorem availablePort_post (preferred excluded : Option UInt16) (w : World) :
    Fallible.Post (availablePort machine preferred excluded) w (fun r w' => Still service w w' ∧
      ∀ e, r = .error e → w'.failedAt.isSome = true) := by
  unfold availablePort
  cases preferred with
  | none => exact ephemeralPort_post machine service excluded 20 w
  | some port =>
    dsimp only
    split
    · refine .bind (P := fun r w' => Still service w w' ∧ ∃ free, r = .ok free) ⟨tick_still service w, _, rfl⟩ ?_ ?_
      · rintro free w₁ ⟨hstill, -⟩
        cases free with
        | true => exact ⟨hstill, nofun⟩
        | false => exact (ephemeralPort_post machine service excluded 20 w₁).mono (fun r w₂ h => ⟨hstill.trans h.1, h.2⟩)
      · rintro e w₁ ⟨-, free, hfree⟩
        cases hfree
    · exact ephemeralPort_post machine service excluded 20 w

/-- A service is reused on its previous port, or launched, or nothing happened to the processes. -/
structure EnsureResult (service : ManagedService) (command : UInt16 → ServiceCommand) (previousPort : Option UInt16)
    (w : World) (r : Except CliError PortStart) (w' : World) : Prop where
  touches : Touches service w w'
  result : ((∃ e, r = .error e) ∧ w'.processes = w.processes ∧ w'.failedAt.isSome = true) ∨
    (∃ port, r = .ok ⟨port, false⟩ ∧ previousPort = some port ∧ w'.processes = w.processes ∧ w.held service = true ∧
      w.httpReady service port = true) ∨
    ∃ port child, r = .ok ⟨port, true⟩ ∧ Child w service (command port) port w' child

theorem ensureService_post {command : UInt16 → ServiceCommand} {previousPort excluded : Option UInt16}
    (hsound : SoundProcesses w.processes) (hlocked : w.held service = true → w.lockFile service = true)
    (hfree : previousPort = none → w.held service = false)
    (hmarker : ∀ port, (command port).marker ∈ (command port).program :: (command port).arguments) :
    Fallible.Post (ensureService machine service command previousPort excluded) w
      (EnsureResult service command previousPort w) := by
  have hlaunch : ∀ w₁ : World, Still service w w₁ → w.held service = false →
      Fallible.Post (do
          let port ← availablePort machine previousPort excluded
          let disposition ← service.start machine (command port) port
          return PortStart.mk port disposition.wasStarted)
        w₁ (EnsureResult service command previousPort w) := by
    intro w₁ hbefore hnone
    refine .bind (availablePort_post machine service previousPort excluded w₁) ?_ ?_
    · rintro port w₂ ⟨hport, -⟩
      have hstill := hbefore.trans hport
      refine .bind (start_post machine service (hstill.processes ▸ hsound)
        ((hstill.held service).trans hnone) (hmarker port)) ?_ ?_
      · rintro disposition w₃ hresult
        obtain ⟨htouches, ⟨⟨e, he⟩, -⟩ | ⟨hstarted, child, hchild⟩⟩ := LaunchResult.after_still service hstill hresult
        · cases he
        · obtain rfl := Except.ok.inj hstarted
          exact ⟨htouches, .inr (.inr ⟨port, child, rfl, hchild⟩)⟩
      · rintro e w₃ hresult
        obtain ⟨htouches, ⟨-, hsame, hfailed⟩ | ⟨hstarted, -⟩⟩ := LaunchResult.after_still service hstill hresult
        · exact ⟨htouches, .inl ⟨⟨e, rfl⟩, hsame, hfailed⟩⟩
        · cases hstarted
    · rintro e w₂ ⟨hport, hfailed⟩
      exact ⟨(hbefore.trans hport).toTouches, .inl ⟨⟨e, rfl⟩, (hbefore.trans hport).processes, hfailed e rfl⟩⟩
  cases hprevious : previousPort with
  | none =>
    subst hprevious
    exact hlaunch w (.refl service w) (hfree rfl)
  | some previous =>
    subst hprevious
    refine .bind (status_post machine service w previous hlocked) ?_ ?_
    · rintro status w₁ ⟨hstill, -, hrunning, hstopped⟩
      have hfail : ∀ error, Fallible.Post (fail error : Op PortStart) w₁ (EnsureResult service command (some previous) w) :=
        fun error => ⟨(hstill.trans (failNow_still service w₁)).toTouches, .inl ⟨⟨_, rfl⟩, hstill.processes, failNow_failed w₁⟩⟩
      cases status with
      | running pid =>
        obtain ⟨hheld, hready⟩ := hrunning pid rfl
        exact ⟨hstill.toTouches, .inr (.inl ⟨previous, rfl, rfl, hstill.processes, hheld, hready⟩)⟩
      | stopped => exact hlaunch w₁ hstill (hstopped rfl)
      | unhealthy pid reason => exact hfail _
    · rintro e w₁ ⟨hstill, hfailed, -, -⟩
      exact ⟨hstill.toTouches, .inl ⟨⟨e, rfl⟩, hstill.processes, hfailed e rfl⟩⟩

end Ensure
end Abyss.Cli.DeployLocal
