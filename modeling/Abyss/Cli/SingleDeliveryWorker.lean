import Abyss.Cli.DeliveryWorker

/-! At most one delivery worker, and whose record a launcher returns. -/
namespace Abyss.Cli
open Abyss.Text Abyss.System
variable {paths : CliPaths} {s s' : WorkerSystem} {i j : Nat}

section Invariant

/-- The start lock is held. -/
def CallPhase.started : CallPhase → Bool
  | .idle => false
  | .startLock _ => false
  | _ => true

/-- The lifetime lock can be open in this process. -/
def CallPhase.launching : CallPhase → Bool
  | .idle => false
  | .startLock _ => false
  | .probe _ => false
  | .readRecord _ _ => false
  | _ => true

/-- No worker has the lifetime lock open. -/
def WorkerSystem.NoWorker (s : WorkerSystem) : Prop := ∀ j, .worker j ∉ s.lifetime

/-- No worker but `j` has the lifetime lock open, and a record is the one of `j`. -/
def WorkerSystem.Only (s : WorkerSystem) (j : Nat) : Prop :=
  (∀ k, .worker k ∈ s.lifetime → k = j) ∧ ∀ info, s.record = some info → info.publisher = some j

/-- What a call has seen before it connects. -/
structure Seen (broker : UInt32) (info : WorkerStartupInfo) (probed atRead : List Process) : Prop where
  broker : info.brokerPid = broker
  publisher : ∃ j, info.publisher = some j ∧ (∀ k, .worker k ∈ probed ↔ k = j) ∧ ∀ k, .worker k ∈ atRead → k = j

/-- What a call knows, which nobody else changes while it holds the start lock. -/
def CallPhase.Known (s : WorkerSystem) : CallPhase → Prop
  | .readRecord _ probed => ∃ j, (∀ k, .worker k ∈ probed ↔ k = j) ∧ s.Only j
  | .removeStale _ | .removeFailed _ => s.NoWorker
  | .spawn _ => s.NoWorker ∧ s.record = none
  | .readOwn _ child | .tryWait _ child | .kill child _ | .reap child _ => s.Only child
  | .connect broker info probed atRead => Seen broker info probed atRead
  | _ => True

/-- The endpoint of a worker for the broker that was asked for. -/
structure Ready.Sound (ready : Ready) : Prop where
  seen : Seen ready.broker ready.info ready.probed ready.atRead
  endpoint : ready.connection.endpoint = ready.info.controlEndpoint

structure WorkerSystem.Inv (s : WorkerSystem) : Prop where
  start : ∀ (i : Nat) (phase : CallPhase), s.calls[i]? = some phase → phase.started = true → s.start = some i
  launcher : ∀ i, .launcher i ∈ s.lifetime → ∃ phase : CallPhase, s.calls[i]? = some phase ∧ phase.launching = true
  worker : ∀ j, .worker j ∈ s.lifetime ↔ ∃ worker : Worker, s.workers[j]? = some worker ∧ worker.phase ≠ .dead
  one : ∀ j k, .worker j ∈ s.lifetime → .worker k ∈ s.lifetime → j = k
  record : ∀ info k, s.record = some info → .worker k ∈ s.lifetime → info.publisher = some k
  known : ∀ (i : Nat) (phase : CallPhase), s.calls[i]? = some phase → phase.Known s
  returned : ∀ ready, .ok ready ∈ s.returned → ready.Sound

/-- No new worker, and no record but one of a worker that runs. -/
structure Evolves (s s' : WorkerSystem) : Prop where
  lifetime : ∀ k, .worker k ∈ s'.lifetime → .worker k ∈ s.lifetime
  record : ∀ info, s'.record = some info → s.record = some info ∨ ∃ k, .worker k ∈ s.lifetime ∧ info.publisher = some k

theorem WorkerSystem.Only.evolves (h : s.Only j) (hevolves : Evolves s s') : s'.Only j := by
  refine ⟨fun k hk => h.1 k (hevolves.lifetime k hk), fun info hinfo => ?_⟩
  rcases hevolves.record info hinfo with hold | ⟨k, hk, hpublisher⟩
  · exact h.2 info hold
  · exact h.1 k hk ▸ hpublisher

theorem WorkerSystem.NoWorker.evolves (h : s.NoWorker) (hevolves : Evolves s s') : s'.NoWorker :=
  fun j hj => h j (hevolves.lifetime j hj)

theorem CallPhase.Known.evolves {phase : CallPhase} (h : phase.Known s) (hevolves : Evolves s s') : phase.Known s' := by
  cases phase with
  | readRecord broker probed =>
    obtain ⟨j, hprobed, honly⟩ := h
    exact ⟨j, hprobed, honly.evolves hevolves⟩
  | removeStale broker => exact WorkerSystem.NoWorker.evolves h hevolves
  | removeFailed error => exact WorkerSystem.NoWorker.evolves h hevolves
  | spawn broker =>
    refine ⟨WorkerSystem.NoWorker.evolves h.1 hevolves, ?_⟩
    rw [Option.eq_none_iff_forall_ne_some]
    intro info hinfo
    rcases hevolves.record info hinfo with hold | ⟨k, hk, -⟩
    · rw [h.2] at hold
      cases hold
    · exact h.1 k hk
  | readOwn broker child => exact WorkerSystem.Only.evolves h hevolves
  | tryWait broker child => exact WorkerSystem.Only.evolves h hevolves
  | kill child error => exact WorkerSystem.Only.evolves h hevolves
  | reap child error => exact WorkerSystem.Only.evolves h hevolves
  | connect broker info probed atRead => exact h
  | _ => trivial

/-- A phase without the start lock knows nothing. -/
theorem known_of_not_started {phase : CallPhase} (h : phase.started = false) : phase.Known s := by
  cases phase <;> trivial

end Invariant

section Workers

theorem enter_worker {worker : Worker} {phase : WorkerPhase} (hworker : s.workers[j]? = some worker) (k : Nat) :
    (∃ w : Worker, (s.enter j worker phase).workers[k]? = some w ∧ w.phase ≠ .dead) ↔
      (k = j ∧ phase ≠ .dead) ∨ (k ≠ j ∧ ∃ w : Worker, s.workers[k]? = some w ∧ w.phase ≠ .dead) := by
  have hj : j < s.workers.length := (List.getElem?_eq_some_iff.mp hworker).1
  by_cases hk : k = j
  · subst hk
    simp [WorkerSystem.enter, hj]
  · simp [WorkerSystem.enter, List.getElem?_set_ne (Ne.symm hk), hk]

/-- A worker goes on, and its record is the only one. -/
theorem WorkerSystem.Inv.worker_step {worker : Worker} {phase : WorkerPhase} (h : s.Inv) (hworker : s.workers[j]? = some worker)
    (halive : worker.phase ≠ .dead) (hcalls : s'.calls = s.calls) (hstart : s'.start = s.start)
    (hworkers : s'.workers = (s.enter j worker phase).workers) (hreturned : s'.returned = s.returned)
    (hlifetime : phase ≠ .dead ∧ s'.lifetime = s.lifetime ∨ phase = .dead ∧ s'.lifetime = s.lifetime.filter (· ≠ .worker j))
    (hrecord : ∀ info, s'.record = some info → s.record = some info ∨ info.publisher = some j) : s'.Inv := by
  have hself : .worker j ∈ s.lifetime := (h.worker j).mpr ⟨worker, hworker, halive⟩
  have hmem : ∀ process, process ∈ s'.lifetime ↔ process ∈ s.lifetime ∧ (process = .worker j → phase ≠ .dead) := by
    intro process
    rcases hlifetime with ⟨hphase, hsame⟩ | ⟨hphase, hfilter⟩
    · rw [hsame]
      exact ⟨fun hp => ⟨hp, fun _ => hphase⟩, fun hp => hp.1⟩
    · rw [hfilter, List.mem_filter, decide_eq_true_iff]
      exact ⟨fun hp => ⟨hp.1, fun heq => absurd heq hp.2⟩, fun hp => ⟨hp.1, fun heq => hp.2 heq hphase⟩⟩
  have hevolves : Evolves s s' := by
    refine ⟨fun k hk => ((hmem _).mp hk).1, fun info hinfo => ?_⟩
    exact (hrecord info hinfo).imp id (fun hpublisher => ⟨j, hself, hpublisher⟩)
  refine ⟨?_, ?_, ?_, ?_, ?_, ?_, ?_⟩
  · rw [hcalls, hstart]
    exact h.start
  · rw [hcalls]
    exact fun i hi => h.launcher i ((hmem _).mp hi).1
  · intro k
    rw [hworkers, enter_worker hworker, hmem, h.worker k]
    by_cases hk : k = j
    · subst hk
      constructor
      · exact fun hp => .inl ⟨rfl, hp.2 rfl⟩
      · rintro (⟨-, hphase⟩ | ⟨hne, -⟩)
        · exact ⟨⟨worker, hworker, halive⟩, fun _ => hphase⟩
        · exact absurd rfl hne
    · constructor
      · exact fun hp => .inr ⟨hk, hp.1⟩
      · rintro (⟨heq, -⟩ | ⟨-, hp⟩)
        · exact absurd heq hk
        · exact ⟨hp, fun heq => absurd (Process.worker.inj heq) hk⟩
  · exact fun k l hk hl => h.one k l (hevolves.lifetime k hk) (hevolves.lifetime l hl)
  · intro info k hinfo hk
    rcases hrecord info hinfo with hold | hpublisher
    · exact h.record info k hold (hevolves.lifetime k hk)
    · rw [hpublisher, h.one j k hself (hevolves.lifetime k hk)]
  · rw [hcalls]
    exact fun i phase hphase => (h.known i phase hphase).evolves hevolves
  · rw [hreturned]
    exact h.returned

theorem alive_of_workerStep {worker : Worker} {outcome : Outcome}
    (hstep : s.workerStep paths j worker worker.phase outcome = some s') : worker.phase ≠ .dead := by
  intro hdead
  rw [hdead] at hstep
  cases hstep

theorem WorkerSystem.Inv.workerStep {worker : Worker} {outcome : Outcome} (h : s.Inv) (hworker : s.workers[j]? = some worker)
    (hstep : s.workerStep paths j worker worker.phase outcome = some s') : s'.Inv := by
  have halive := alive_of_workerStep hstep
  have henter : ∀ phase : WorkerPhase, phase ≠ .dead → (s.enter j worker phase).Inv := fun phase hphase =>
    h.worker_step hworker halive rfl rfl rfl rfl (.inl ⟨hphase, rfl⟩) (fun _ hinfo => .inl hinfo)
  have hdie : (s.die j worker).Inv :=
    h.worker_step hworker halive rfl rfl rfl rfl (.inr ⟨rfl, rfl⟩) (fun _ hinfo => .inl hinfo)
  unfold WorkerSystem.workerStep at hstep
  split at hstep
  · cases hstep
  · cases hstep
    exact hdie
  · cases hstep
    refine h.worker_step hworker halive rfl rfl rfl rfl (.inl ⟨nofun, rfl⟩) ?_
    rintro info ⟨⟩
    exact .inr rfl
  · cases hstep
    refine h.worker_step hworker halive rfl rfl rfl rfl (.inl ⟨nofun, rfl⟩) ?_
    rintro info ⟨⟩
    exact .inr rfl
  · cases hstep
    exact henter _ nofun
  · split at hstep
    · split at hstep <;> cases hstep <;> exact henter _ nofun
    · cases hstep
      exact henter _ nofun
  · cases hstep
    exact henter _ nofun
  · cases hstep
    exact h.worker_step hworker halive rfl rfl rfl rfl (.inl ⟨nofun, rfl⟩) nofun
  · cases hstep
    exact henter _ nofun
  · cases hstep
    exact hdie
  · cases hstep

end Workers
section Calls
variable {p p' : CallPhase}

/-- A step of a call that starts no worker, and that leaves the record or removes it. -/
theorem WorkerSystem.Inv.quiet (h : s.Inv) (hp : s.calls[i]? = some p) (hcalls : s'.calls = s.calls.set i p')
    (hworkers : s'.workers = s.workers) (hrecord : s'.record = s.record ∨ s'.record = none)
    (hlifetime : ∀ j, .worker j ∈ s'.lifetime ↔ .worker j ∈ s.lifetime)
    (hlauncher : ∀ k, .launcher k ∈ s'.lifetime → k = i ∧ p'.launching = true ∨ k ≠ i ∧ .launcher k ∈ s.lifetime)
    (hothers : ∀ k, k ≠ i → s.start = some k → s'.start = some k) (hstart : p'.started = true → s'.start = some i)
    (hknown : p'.Known s') (hreturned : ∀ ready, .ok ready ∈ s'.returned → .ok ready ∈ s.returned ∨ ready.Sound) : s'.Inv := by
  have hi : i < s.calls.length := (List.getElem?_eq_some_iff.mp hp).1
  have hkept : ∀ info, s'.record = some info → s.record = some info := by
    intro info hinfo
    rcases hrecord with hsame | hnone
    · exact hsame ▸ hinfo
    · rw [hnone] at hinfo
      cases hinfo
  have hevolves : Evolves s s' := ⟨fun k hk => (hlifetime k).mp hk, fun info hinfo => .inl (hkept info hinfo)⟩
  refine ⟨?_, ?_, ?_, ?_, ?_, ?_, ?_⟩
  · rw [hcalls]
    intro k phase hk hstarted
    rcases getElem?_set_cases hk with ⟨rfl, rfl⟩ | ⟨hne, hold⟩
    · exact hstart hstarted
    · exact hothers k hne (h.start k phase hold hstarted)
  · rw [hcalls]
    intro k hk
    rcases hlauncher k hk with ⟨rfl, hlaunching⟩ | ⟨hne, hold⟩
    · exact ⟨p', List.getElem?_set_self hi, hlaunching⟩
    · obtain ⟨phase, hphase, hlaunching⟩ := h.launcher k hold
      exact ⟨phase, by rw [List.getElem?_set_ne (Ne.symm hne), hphase], hlaunching⟩
  · intro j
    rw [hlifetime, hworkers]
    exact h.worker j
  · exact fun j k hj hk => h.one j k ((hlifetime j).mp hj) ((hlifetime k).mp hk)
  · exact fun info k hinfo hk => h.record info k (hkept info hinfo) ((hlifetime k).mp hk)
  · rw [hcalls]
    intro k phase hk
    rcases getElem?_set_cases hk with ⟨rfl, rfl⟩ | ⟨-, hold⟩
    · exact hknown
    · exact (h.known k phase hold).evolves hevolves
  · intro ready hready
    exact (hreturned ready hready).elim (h.returned ready) id

theorem WorkerSystem.Inv.goto (h : s.Inv) (hp : s.calls[i]? = some p) (hstarted : p'.started = true → p.started = true)
    (hlaunching : p.launching = true → p'.launching = true) (hknown : p'.Known s) : (s.goto i p').Inv := by
  refine h.quiet hp rfl rfl (.inl rfl) (fun _ => .rfl) ?_ (fun _ _ hk => hk) (fun hp' => h.start i p hp (hstarted hp')) ?_
    (fun _ hready => .inl hready)
  · intro k hk
    by_cases hki : k = i
    · subst hki
      obtain ⟨phase, hphase, hphaseLaunching⟩ := h.launcher k hk
      obtain rfl := Option.some.inj (hp.symm.trans hphase)
      exact .inl ⟨rfl, hlaunching hphaseLaunching⟩
    · exact .inr ⟨hki, hk⟩
  · exact hknown.evolves ⟨fun _ hk => hk, fun _ hinfo => .inl hinfo⟩

/-- The handles of a call are closed; the record may be removed before. -/
theorem WorkerSystem.Inv.closed (h : s.Inv) (hp : s.calls[i]? = some p) (hcalls : s'.calls = s.calls.set i .idle)
    (hworkers : s'.workers = s.workers) (hrecord : s'.record = s.record ∨ s'.record = none)
    (hlifetime : s'.lifetime = s.lifetime.filter (· ≠ .launcher i))
    (hstart : s'.start = if s.start = some i then none else s.start)
    (hreturned : ∀ ready, .ok ready ∈ s'.returned → .ok ready ∈ s.returned ∨ ready.Sound) : s'.Inv := by
  refine h.quiet hp hcalls hworkers hrecord ?_ ?_ ?_ nofun trivial hreturned
  · intro j
    rw [hlifetime, List.mem_filter, decide_eq_true_iff]
    exact ⟨fun hj => hj.1, fun hj => ⟨hj, nofun⟩⟩
  · intro k hk
    rw [hlifetime, List.mem_filter, decide_eq_true_iff] at hk
    exact .inr ⟨fun heq => hk.2 (congrArg _ heq), hk.1⟩
  · intro k hne hk
    rw [hstart, hk, if_neg (fun heq => hne (Option.some.inj heq))]

theorem WorkerSystem.Inv.finish (h : s.Inv) (hp : s.calls[i]? = some p) {result : Except CliError Ready}
    (hresult : ∀ ready, result = .ok ready → ready.Sound) : (s.finish i result).Inv := by
  refine h.closed hp rfl rfl (.inl rfl) rfl rfl ?_
  intro ready hready
  rcases List.mem_append.mp hready with hold | hnew
  · exact .inl hold
  · exact .inr (hresult ready (List.mem_singleton.mp hnew).symm)

theorem WorkerSystem.Inv.fail (h : s.Inv) (hp : s.calls[i]? = some p) (error : CliError) : (s.fail i error).Inv :=
  h.finish hp nofun

theorem WorkerSystem.Inv.acquireStart {broker : UInt32} (h : s.Inv) (hp : s.calls[i]? = some (.startLock broker)) (expired : Bool) :
    (s.acquireStart i broker expired).Inv := by
  unfold WorkerSystem.acquireStart
  split
  · next hfree =>
    refine h.quiet hp rfl rfl (.inl rfl) (fun _ => .rfl) ?_ ?_ (fun _ => rfl) trivial (fun _ hready => .inl hready)
    · intro k hk
      refine .inr ⟨?_, hk⟩
      rintro rfl
      obtain ⟨phase, hphase, hlaunching⟩ := h.launcher k hk
      obtain rfl := Option.some.inj (hp.symm.trans hphase)
      cases hlaunching
    · intro k _ hk
      rw [hfree] at hk
      cases hk
  · split
    · exact h.fail hp _
    · exact h

theorem WorkerSystem.Inv.tryAcquireLifetime {broker : UInt32} (h : s.Inv) (hp : s.calls[i]? = some (.probe broker)) :
    (s.tryAcquireLifetime i broker).Inv := by
  have hstart : s.start = some i := h.start i _ hp rfl
  unfold WorkerSystem.tryAcquireLifetime
  split
  · next hfree =>
    refine h.quiet hp rfl rfl (.inl rfl) ?_ ?_ (fun _ _ hk => hk) (fun _ => hstart) ?_ (fun _ hready => .inl hready)
    · intro j
      rw [hfree]
      simp
    · intro k hk
      obtain rfl := Process.launcher.inj (List.mem_singleton.mp hk)
      exact .inl ⟨rfl, rfl⟩
    · intro j hj
      cases List.mem_singleton.mp hj
  · next hlocked =>
    refine h.goto hp (fun _ => rfl) nofun ?_
    -- a launcher with the handle has the start lock, which is ours
    obtain ⟨process, hprocess⟩ := List.exists_mem_of_ne_nil _ hlocked
    cases process with
    | launcher k =>
      obtain ⟨phase, hphase, hlaunching⟩ := h.launcher k hprocess
      have hstarted : phase.started = true := by cases phase <;> first | rfl | cases hlaunching
      obtain rfl := Option.some.inj (hstart.symm.trans (h.start k phase hphase hstarted))
      obtain rfl := Option.some.inj (hp.symm.trans hphase)
      cases hlaunching
    | worker j =>
      refine ⟨j, fun k => ⟨fun hk => h.one k j hk hprocess, ?_⟩, fun k hk => h.one k j hk hprocess, ?_⟩
      · rintro rfl
        exact hprocess
      · exact fun info hinfo => h.record info j hinfo hprocess

theorem WorkerSystem.Inv.again {broker : UInt32} (h : s.Inv) (hp : s.calls[i]? = some p) (hstarted : p.started = true)
    (hlaunching : p.launching = false) (expired : Bool) : (s.again i broker expired).Inv := by
  unfold WorkerSystem.again
  split
  · exact h.fail hp _
  · refine h.goto hp (fun _ => hstarted) ?_ trivial
    rw [hlaunching]
    nofun

theorem WorkerSystem.Inv.readRecord {broker : UInt32} {probed : List Process} (h : s.Inv)
    (hp : s.calls[i]? = some (.readRecord broker probed)) (expired : Bool) : (s.readRecord i broker probed expired).Inv := by
  obtain ⟨j, hprobed, honly⟩ := h.known i _ hp
  unfold WorkerSystem.readRecord
  split
  · next info hinfo =>
    split
    · next hmatch => exact h.goto hp (fun _ => rfl) nofun ⟨hmatch.1, j, honly.2 info hinfo, hprobed, honly.1⟩
    · exact h.again hp rfl rfl expired
  · exact h.again hp rfl rfl expired

theorem WorkerSystem.Inv.readOwn {broker : UInt32} {child : Nat} (h : s.Inv) (hp : s.calls[i]? = some (.readOwn broker child)) :
    (s.readOwn i broker child).Inv := by
  have honly : s.Only child := h.known i _ hp
  unfold WorkerSystem.readOwn
  split
  · next info hinfo =>
    split
    · next hmatch =>
      refine h.goto hp (fun _ => rfl) (fun _ => rfl) ⟨hmatch.2, child, honly.2 info hinfo, ?_, honly.1⟩
      intro k
      rw [List.mem_singleton, Process.worker.injEq]
    · exact h.goto hp (fun _ => rfl) (fun _ => rfl) honly
  · exact h.goto hp (fun _ => rfl) (fun _ => rfl) honly

theorem WorkerSystem.Inv.noWorker {child : Nat} (h : s.Inv) (honly : s.Only child) (hdead : s.Dead child) : s.NoWorker := by
  intro k hk
  obtain rfl := honly.1 k hk
  obtain ⟨worker, hworker, hphase⟩ := hdead
  obtain ⟨other, hother, halive⟩ := (h.worker k).mp hk
  obtain rfl := Option.some.inj (hworker.symm.trans hother)
  exact halive hphase

/-- The one step that starts a worker. -/
theorem WorkerSystem.Inv.spawned {broker pid : UInt32} (h : s.Inv) (hp : s.calls[i]? = some (.spawn broker)) :
    WorkerSystem.Inv { s.goto i (.readOwn broker s.workers.length) with
      workers := s.workers ++ [⟨pid, broker, .starting⟩]
      lifetime := s.lifetime ++ [.worker s.workers.length] } := by
  obtain ⟨hnone, hrecord⟩ := h.known i _ hp
  have hi : i < s.calls.length := (List.getElem?_eq_some_iff.mp hp).1
  have hstart : s.start = some i := h.start i _ hp rfl
  have hworkers : ∀ j, .worker j ∈ s.lifetime ++ [.worker s.workers.length] ↔ j = s.workers.length := by
    intro j
    rw [List.mem_append, List.mem_singleton, Process.worker.injEq]
    exact ⟨fun hj => hj.resolve_left (hnone j), .inr⟩
  refine ⟨?_, ?_, ?_, ?_, ?_, ?_, h.returned⟩
  · intro k phase hk hstarted
    rcases getElem?_set_cases hk with ⟨rfl, rfl⟩ | ⟨-, hold⟩
    · exact hstart
    · exact h.start k phase hold hstarted
  · intro k hk
    have hold : .launcher k ∈ s.lifetime := (List.mem_append.mp hk).resolve_right (by simp)
    obtain ⟨phase, hphase, hlaunching⟩ := h.launcher k hold
    by_cases hki : k = i
    · subst hki
      exact ⟨_, List.getElem?_set_self hi, rfl⟩
    · exact ⟨phase, (List.getElem?_set_ne (Ne.symm hki)).trans hphase, hlaunching⟩
  · intro j
    refine (hworkers j).trans ⟨?_, ?_⟩
    · rintro rfl
      exact ⟨_, List.getElem?_concat_length, nofun⟩
    · rintro ⟨worker, hworker, halive⟩
      by_contra hne
      have hj : j < s.workers.length := by
        have hlength := (List.getElem?_eq_some_iff.mp hworker).1
        rw [List.length_append, List.length_singleton] at hlength
        omega
      rw [List.getElem?_append_left hj] at hworker
      exact hnone j ((h.worker j).mpr ⟨worker, hworker, halive⟩)
  · intro j k hj hk
    rw [(hworkers j).mp hj, (hworkers k).mp hk]
  · intro info k hinfo
    have hinfo : s.record = some info := hinfo
    rw [hrecord] at hinfo
    cases hinfo
  · intro k phase hk
    rcases getElem?_set_cases hk with ⟨rfl, rfl⟩ | ⟨hne, hold⟩
    · refine ⟨fun j hj => (hworkers j).mp hj, fun info hinfo => ?_⟩
      have hinfo : s.record = some info := hinfo
      rw [hrecord] at hinfo
      cases hinfo
    · apply known_of_not_started
      by_contra hstarted
      have hother := h.start k phase hold (by simpa using hstarted)
      exact hne (Option.some.inj (hother.symm.trans hstart))

theorem fromStartupInfo_endpoint {info : WorkerStartupInfo} {token : Option Str} {connection : DeliveryConnection}
    (h : DeliveryConnection.fromStartupInfo paths info token = .ok connection) : connection.endpoint = info.controlEndpoint := by
  unfold DeliveryConnection.fromStartupInfo at h
  split at h
  · cases h
  · split at h
    · cases h
    · split at h
      · cases h
      · split at h
        · cases h
        · split at h
          · cases h
          · cases h
            rfl

theorem WorkerSystem.Inv.callStep {outcome : Outcome} (h : s.Inv) (hp : s.calls[i]? = some p)
    (hstep : s.callStep paths i p outcome = some s') : s'.Inv := by
  have hknown := h.known i p hp
  unfold WorkerSystem.callStep at hstep
  split at hstep
  · cases hstep
    exact h.goto hp nofun nofun trivial
  · cases hstep
  · cases hstep
    exact h.closed hp rfl rfl (.inl rfl) rfl rfl (fun _ hready => .inl hready)
  · cases hstep
    exact h.acquireStart hp false
  · cases hstep
    exact h.acquireStart hp true
  · cases hstep
    exact h.fail hp _
  · cases hstep
    exact h.tryAcquireLifetime hp
  · cases hstep
    exact h.fail hp _
  · cases hstep
    exact h.readRecord hp false
  · cases hstep
    exact h.readRecord hp true
  · cases hstep
    exact h.fail hp _
  · cases hstep
    refine h.quiet hp rfl rfl (.inr rfl) (fun _ => .rfl) ?_ (fun _ _ hk => hk) (fun _ => h.start i _ hp rfl) ⟨hknown, rfl⟩
      (fun _ hready => .inl hready)
    intro k hk
    by_cases hki : k = i
    · exact .inl ⟨hki, rfl⟩
    · exact .inr ⟨hki, hk⟩
  · cases hstep
    exact h.fail hp _
  · cases hstep
    exact h.spawned hp
  · cases hstep
    exact h.fail hp _
  · cases hstep
    exact h.readOwn hp
  · cases hstep
    exact h.goto hp (fun _ => rfl) (fun _ => rfl) hknown
  · cases hstep
    exact h.goto hp (fun _ => rfl) (fun _ => rfl) hknown
  · next broker child =>
    cases hstep
    split
    · next hdead => exact h.goto hp (fun _ => rfl) (fun _ => rfl) (h.noWorker hknown hdead)
    · exact h.goto hp (fun _ => rfl) (fun _ => rfl) hknown
  · cases hstep
    exact h.fail hp _
  · cases hstep
    exact h.goto hp (fun _ => rfl) (fun _ => rfl) hknown
  · cases hstep
    exact h.fail hp _
  · split at hstep
    · next hdead =>
      cases hstep
      exact h.goto hp (fun _ => rfl) (fun _ => rfl) (h.noWorker hknown hdead)
    · cases hstep
  · cases hstep
    exact h.fail hp _
  · cases hstep
    refine h.closed hp rfl rfl (.inr rfl) rfl rfl ?_
    intro ready hready
    rcases List.mem_append.mp hready with hold | hnew
    · exact .inl hold
    · cases List.mem_singleton.mp hnew
  · cases hstep
    exact h.fail hp _
  · next broker info probed atRead token =>
    cases hstep
    refine h.finish hp ?_
    intro ready hready
    cases hconnection : DeliveryConnection.fromStartupInfo paths info token with
    | error e =>
      rw [hconnection] at hready
      cases hready
    | ok connection =>
      rw [hconnection] at hready
      cases hready
      exact ⟨hknown, fromStartupInfo_endpoint hconnection⟩
  · cases hstep

theorem WorkerSystem.Inv.step {action : Action} (h : s.Inv) (hstep : s.step paths action = some s') : s'.Inv := by
  unfold WorkerSystem.step at hstep
  split at hstep
  · obtain ⟨phase, hp, hcall⟩ := Option.bind_eq_some_iff.mp hstep
    exact h.callStep hp hcall
  · obtain ⟨worker, hworker, hworkerStep⟩ := Option.bind_eq_some_iff.mp hstep
    exact h.workerStep hworker hworkerStep

theorem initial_inv (calls : Nat) (stale : Option WorkerStartupInfo) : (WorkerSystem.initial calls stale).Inv := by
  have hidle : ∀ {k : Nat} {phase : CallPhase}, (WorkerSystem.initial calls stale).calls[k]? = some phase → phase = .idle :=
    fun hk => List.eq_of_mem_replicate (List.mem_of_getElem? hk)
  refine ⟨?_, nofun, ?_, nofun, nofun, ?_, nofun⟩
  · intro k phase hk hstarted
    rw [hidle hk] at hstarted
    cases hstarted
  · intro j
    refine ⟨nofun, ?_⟩
    rintro ⟨worker, hworker, -⟩
    cases hworker
  · intro k phase hk
    rw [hidle hk]
    trivial

end Calls

section Contract

/-- A worker process runs. -/
def WorkerSystem.Alive (s : WorkerSystem) (j : Nat) : Prop := ∃ worker : Worker, s.workers[j]? = some worker ∧ worker.phase ≠ .dead

theorem acquireStart_record (broker : UInt32) (expired : Bool) : (s.acquireStart i broker expired).record = s.record := by
  unfold WorkerSystem.acquireStart
  split
  · rfl
  · split <;> rfl

theorem tryAcquireLifetime_record (broker : UInt32) : (s.tryAcquireLifetime i broker).record = s.record := by
  unfold WorkerSystem.tryAcquireLifetime
  split <;> rfl

theorem readRecord_record (broker : UInt32) (probed : List Process) (expired : Bool) :
    (s.readRecord i broker probed expired).record = s.record := by
  have hagain : (s.again i broker expired).record = s.record := by
    unfold WorkerSystem.again
    split <;> rfl
  unfold WorkerSystem.readRecord
  split
  · split
    · rfl
    · exact hagain
  · exact hagain

theorem readOwn_record (broker : UInt32) (child : Nat) : (s.readOwn i broker child).record = s.record := by
  unfold WorkerSystem.readOwn
  split
  · split <;> rfl
  · rfl

/-- A call removes a record only where it knows that no worker runs. -/
theorem callStep_record {phase : CallPhase} {outcome : Outcome} (hstep : s.callStep paths i phase outcome = some s')
    (hknown : phase.Known s) : s'.record = s.record ∨ s.NoWorker := by
  unfold WorkerSystem.callStep at hstep
  split at hstep
  case h_4 | h_5 =>
    cases hstep
    exact .inl (acquireStart_record ..)
  case h_7 =>
    cases hstep
    exact .inl (tryAcquireLifetime_record _)
  case h_9 | h_10 =>
    cases hstep
    exact .inl (readRecord_record ..)
  case h_12 => exact .inr hknown
  case h_16 =>
    cases hstep
    exact .inl (readOwn_record ..)
  case h_23 =>
    split at hstep
    · cases hstep
      exact .inl rfl
    · cases hstep
  case h_25 => exact .inr hknown
  all_goals
    cases hstep
    try exact .inl rfl

/-- The record of a running worker stays where it is, unless that worker removes it. -/
theorem WorkerSystem.Inv.keeps {action : Action} {info : WorkerStartupInfo} (h : s.Inv) (hstep : s.step paths action = some s')
    (hrecord : s.record = some info) (halive : s.Alive j) (hother : action.process ≠ .worker j) : s'.record = some info := by
  have hj : .worker j ∈ s.lifetime := (h.worker j).mpr halive
  unfold WorkerSystem.step at hstep
  split at hstep
  · next i hi =>
    obtain ⟨phase, hp, hcall⟩ := Option.bind_eq_some_iff.mp hstep
    rcases callStep_record hcall (h.known i phase hp) with hsame | hnone
    · exact hsame.trans hrecord
    · exact absurd hj (hnone j)
  · next k hk =>
    obtain ⟨worker, hworker, hworkerStep⟩ := Option.bind_eq_some_iff.mp hstep
    have hself : .worker k ∈ s.lifetime := (h.worker k).mpr ⟨worker, hworker, alive_of_workerStep hworkerStep⟩
    rw [hk, h.one k j hself hj] at hother
    exact absurd rfl hother

/-- What holds wherever the processes are. -/
structure SingleWorker (paths : CliPaths) (s : WorkerSystem) : Prop where
  one : ∀ j k, s.Alive j → s.Alive k → j = k
  record : ∀ (action : Action) (s' : WorkerSystem) (info : WorkerStartupInfo) (j : Nat), s.step paths action = some s' →
    s.record = some info → info.publisher = some j → s.Alive j → action.process ≠ .worker j → s'.record = some info
  returned : ∀ ready, .ok ready ∈ s.returned → ready.Sound

/-- One worker at a time, whose record only it removes, and what a call returns is the endpoint of the worker that had the
lifetime lock when the call tried it. -/
theorem single_delivery_worker {calls : Nat} {stale : Option WorkerStartupInfo} {actions : List Action}
    (h : run (WorkerSystem.step paths) (.initial calls stale) actions = some s) : SingleWorker paths s := by
  have hinv : s.Inv := run_invariant (fun h hstep => WorkerSystem.Inv.step h hstep) (initial_inv calls stale) h
  refine ⟨?_, ?_, hinv.returned⟩
  · exact fun j k hj hk => hinv.one j k ((hinv.worker j).mpr hj) ((hinv.worker k).mpr hk)
  · exact fun action s' info j hstep hrecord _ halive hother => hinv.keeps hstep hrecord halive hother

def samplePaths : CliPaths := ⟨"token".toList, "log".toList, fun _ => some ("http".toList, some "127.0.0.1".toList)⟩

/-- A call launches a worker that publishes its record, and returns its endpoint. -/
def launched : List Action :=
  [⟨.launcher 0, .start 73⟩, ⟨.launcher 0, .ok⟩, ⟨.launcher 0, .ok⟩, ⟨.launcher 0, .ok⟩, ⟨.launcher 0, .spawned 500⟩,
    ⟨.launcher 0, .ok⟩, ⟨.worker 0, .publish "http://127.0.0.1:49152".toList⟩, ⟨.launcher 0, .ok⟩, ⟨.launcher 0, .ok⟩,
    ⟨.launcher 0, .token (some "secret".toList)⟩]

theorem sample_single_worker : ∃ s, run (WorkerSystem.step samplePaths) (.initial 2 none) launched = some s ∧
    SingleWorker samplePaths s ∧ s.returned.length = 1 := by
  obtain ⟨s, hs, hlength⟩ : ∃ s, run (WorkerSystem.step samplePaths) (.initial 2 none) launched = some s ∧ s.returned.length = 1 :=
    ⟨_, rfl, rfl⟩
  exact ⟨s, hs, single_delivery_worker hs, hlength⟩

/-- The worker is killed between the attempt at its lock and the read of its record. -/
theorem killed_worker_is_returned : ¬ ∀ (actions : List Action) (s : WorkerSystem),
    run (WorkerSystem.step samplePaths) (.initial 2 none) actions = some s →
    ∀ ready, .ok ready ∈ s.returned → ∃ j, ready.info.publisher = some j ∧ .worker j ∈ ready.atRead := by
  intro hclaim
  obtain ⟨j, -, hj⟩ := hclaim (launched ++ [⟨.launcher 1, .start 73⟩, ⟨.launcher 1, .ok⟩, ⟨.launcher 1, .ok⟩, ⟨.worker 0, .killed⟩,
    ⟨.launcher 1, .ok⟩, ⟨.launcher 1, .token (some "secret".toList)⟩]) _ rfl
    ⟨73, ⟨500, 73, "http://127.0.0.1:49152".toList, "token".toList, some 0⟩, [.worker 0], [],
      ⟨"http://127.0.0.1:49152".toList, "Bearer secret".toList⟩⟩ (by decide)
  exact List.not_mem_nil hj

end Contract
end Abyss.Cli
