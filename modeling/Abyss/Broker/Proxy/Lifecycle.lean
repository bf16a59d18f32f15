import Abyss.Broker.Proxy.Service

/-! The lifecycle of the proxy along every schedule: who owns the worker that runs. -/
namespace Abyss.Broker.Proxy
open Abyss.Text Abyss.System
variable {Plan Ingress : Type} {processId : Nat} {service service' : ProxyService Plan Ingress} {i : Nat}

section Owners

/-- The worker of that index exists, with its ingress. -/
def ProxyService.Running (service : ProxyService Plan Ingress) (w : Nat) : Prop :=
  ∃ worker, service.workers[w]? = some worker ∧ worker.alive = true

def ProxyService.Stopped (service : ProxyService Plan Ingress) : Prop := ∃ id, service.state = .stopped id

/-- Whether the call holds the lock of the state while it waits. -/
def CallPhase.Inside : CallPhase Plan Ingress → Prop
  | .binding _ _ | .joining _ => True
  | _ => False

/-- A call that waits inside holds the lock and has left the state stopped, and a worker that runs belongs to the
state or to a call that joins it. -/
structure Settled (service : ProxyService Plan Ingress) : Prop where
  holder : ∀ (j : Nat) (phase : CallPhase Plan Ingress), service.calls[j]? = some phase → phase.Inside →
    service.lock = some j ∧ service.Stopped
  owned : ∀ w, service.Running w → (∃ runtime, service.state = .started runtime ∧ runtime.task.worker = w) ∨
    ∃ (j : Nat) (runtime : StartedProxyRuntime Plan Ingress), service.calls[j]? = some (.joining runtime) ∧
      runtime.task.worker = w

/-- The lock is free, and so no call is inside. -/
theorem Settled.outside (h : Settled service) (hlock : service.lock = none) {j : Nat} {phase : CallPhase Plan Ingress}
    (hphase : service.calls[j]? = some phase) : ¬ phase.Inside := by
  intro hinside
  have hholder := (h.holder j phase hphase hinside).1
  rw [hlock] at hholder
  cases hholder

/-- Only the call that holds the lock is inside. -/
theorem Settled.alone (h : Settled service) {phase other : CallPhase Plan Ingress} {j : Nat}
    (hphase : service.calls[i]? = some phase) (hinside : phase.Inside) (hother : service.calls[j]? = some other)
    (hotherInside : other.Inside) : j = i := by
  have hholder := (h.holder i phase hphase hinside).1
  rw [(h.holder j other hother hotherInside).1] at hholder
  exact Option.some.inj hholder

/-- A stopped state with a free lock: nothing runs. -/
theorem Settled.idle (h : Settled service) (hlock : service.lock = none) (hstopped : service.Stopped) (w : Nat) :
    ¬ service.Running w := by
  intro hrunning
  rcases h.owned w hrunning with ⟨runtime, hstate, -⟩ | ⟨j, runtime, hjoining, -⟩
  · obtain ⟨id, hid⟩ := hstopped
    rw [hid] at hstate
    cases hstate
  · exact h.outside hlock hjoining trivial

/-- Nothing runs while a call binds. -/
theorem Settled.binding (h : Settled service) {id : Nat} {plan : Plan} (hbinding : service.calls[i]? = some (.binding id plan))
    (w : Nat) : ¬ service.Running w := by
  intro hrunning
  rcases h.owned w hrunning with ⟨runtime, hstate, -⟩ | ⟨j, runtime, hjoining, -⟩
  · obtain ⟨id, hid⟩ := (h.holder i _ hbinding trivial).2
    rw [hid] at hstate
    cases hstate
  · obtain rfl := h.alone hbinding trivial hjoining trivial
    rw [hbinding] at hjoining
    cases hjoining

/-- Nothing but the worker that a call joins runs. -/
theorem Settled.joining (h : Settled service) {runtime : StartedProxyRuntime Plan Ingress}
    (hjoining : service.calls[i]? = some (.joining runtime)) {w : Nat} (hrunning : service.Running w) :
    runtime.task.worker = w := by
  rcases h.owned w hrunning with ⟨started, hstate, -⟩ | ⟨j, other, hother, hworker⟩
  · obtain ⟨id, hid⟩ := (h.holder i _ hjoining trivial).2
    rw [hid] at hstate
    cases hstate
  · obtain rfl := h.alone hjoining trivial hother trivial
    cases hother.symm.trans hjoining
    exact hworker

/-- Nothing runs once the worker that a call joins is over. -/
theorem Settled.over (h : Settled service) {runtime : StartedProxyRuntime Plan Ingress} {worker : ProxyWorker}
    (hjoining : service.calls[i]? = some (.joining runtime)) (hworker : service.workers[runtime.task.worker]? = some worker)
    (hover : worker.alive = false) (w : Nat) : ¬ service.Running w := by
  intro hrunning
  obtain rfl := h.joining hjoining hrunning
  obtain ⟨other, hother, halive⟩ := hrunning
  cases hother.symm.trans hworker
  rw [hover] at halive
  cases halive

/-- One worker runs at most. -/
theorem Settled.single (h : Settled service) {v w : Nat} (hv : service.Running v) (hw : service.Running w) : v = w := by
  rcases h.owned v hv with ⟨runtime, hstate, hworker⟩ | ⟨j, runtime, hjoining, hworker⟩
  · rcases h.owned w hw with ⟨other, hother, hotherWorker⟩ | ⟨j, other, hjoining, -⟩
    · cases hother.symm.trans hstate
      rw [← hworker, hotherWorker]
    · obtain ⟨id, hid⟩ := (h.holder j _ hjoining trivial).2
      rw [hid] at hstate
      cases hstate
  · rw [← hworker, h.joining hjoining hw]

theorem settled_initial (processId : Nat) : Settled (ProxyService.initial processId : ProxyService Plan Ingress) := by
  constructor
  · exact nofun
  · rintro w ⟨worker, hworker, -⟩
    cases hworker

end Owners

section Steps

/-- No call stops waiting for the end of a worker. -/
def Waits (service : ProxyService Plan Ingress) : Action Plan Ingress → Prop
  | .cancel i => ∀ runtime : StartedProxyRuntime Plan Ingress, service.calls[i]? ≠ some (.joining runtime)
  | _ => True

/-- A worker comes to life only by its start. -/
theorem ProxyWorker.alive_of_step {worker worker' : ProxyWorker} {telemetry telemetry' : Telemetry} {event : WorkerEvent}
    (h : worker.step telemetry event = some (worker', telemetry')) (halive : worker'.alive = true) : worker.alive = true := by
  cases event with
  | connection k event =>
    simp only [ProxyWorker.step, Option.bind_eq_bind, Option.bind_eq_some_iff, Option.some.injEq, Prod.mk.injEq] at h
    obtain ⟨connection, -, ⟨next, after⟩, -, rfl, -⟩ := h
    exact halive
  | accepted | acceptFailed | joined =>
    simp only [ProxyWorker.step, Option.ite_none_right_eq_some, Option.some.injEq, Prod.mk.injEq] at h
    obtain ⟨-, rfl, -⟩ := h
    exact halive
  | shutdown | drainTimeout | closed =>
    simp only [ProxyWorker.step, Option.ite_none_right_eq_some, Option.some.injEq, Prod.mk.injEq] at h
    obtain ⟨hphase, rfl, -⟩ := h
    simp_all [ProxyWorker.alive]
  | drained =>
    simp only [ProxyWorker.step, Option.ite_none_right_eq_some, Option.some.injEq, Prod.mk.injEq] at h
    obtain ⟨⟨hphase, -⟩, -⟩ := h
    rcases (by simpa using hphase : worker.phase = .draining ∨ worker.phase = .aborting) with heq | heq <;>
      rw [ProxyWorker.alive, heq]
  | panicked =>
    simp only [ProxyWorker.step, Option.ite_none_right_eq_some] at h
    exact h.1

theorem running_signal {v w : Nat} (h : (service.signal v).Running w) : service.Running w := by
  obtain ⟨worker, hworker, halive⟩ := h
  rw [ProxyService.signal, List.getElem?_modify] at hworker
  obtain ⟨old, hold, rfl⟩ := Option.map_eq_some_iff.mp hworker
  refine ⟨old, hold, ?_⟩
  split at halive <;> exact halive

theorem running_spawn {id w : Nat} {plan : Plan} {ingress : Ingress} [ProxyPlan Plan]
    (h : (service.spawnStarted i id plan ingress).Running w) : service.Running w ∨ w = service.workers.length := by
  obtain ⟨worker, hworker, halive⟩ := h
  rw [ProxyService.spawnStarted, List.getElem?_append] at hworker
  split at hworker
  · exact .inl ⟨worker, hworker, halive⟩
  · next hlength =>
    obtain ⟨hindex, -⟩ := List.getElem?_eq_some_iff.mp hworker
    right
    rw [List.length_singleton] at hindex
    have hle : service.workers.length ≤ w := Nat.not_lt.mp hlength
    exact Nat.le_antisymm (by rw [← Nat.sub_eq_zero_iff_le]; exact Nat.lt_one_iff.mp hindex) hle

/-- A call is over, and nothing else has changed. -/
theorem Settled.finish (h : Settled service) (hlock : service.lock = none) (result : Except BrokerError (ProxyStatus Ingress)) :
    Settled (service.finish i result) := by
  constructor
  · intro j phase hphase hinside
    rcases getElem?_set_cases hphase with ⟨-, rfl⟩ | ⟨-, hold⟩
    · exact hinside.elim
    · exact absurd hinside (h.outside hlock hold)
  · intro w hrunning
    rcases h.owned w hrunning with hstate | ⟨j, runtime, hjoining, -⟩
    · exact .inl hstate
    · exact absurd trivial (h.outside hlock hjoining)

/-- A call that was inside is over, and nothing runs. -/
theorem Settled.leave {phase : CallPhase Plan Ingress} (h : Settled service) (hphase : service.calls[i]? = some phase)
    (hinside : phase.Inside) {next : CallPhase Plan Ingress} (hcalls : service'.calls = service.calls.set i next)
    (hnext : ¬ next.Inside)
    (hrunning : ∀ w, service'.Running w → ∃ runtime, service'.state = .started runtime ∧ runtime.task.worker = w) :
    Settled service' := by
  constructor
  · intro j other hother hotherInside
    rw [hcalls] at hother
    rcases getElem?_set_cases hother with ⟨-, rfl⟩ | ⟨hj, hold⟩
    · exact absurd hotherInside hnext
    · exact absurd (h.alone hphase hinside hold hotherInside) hj
  · exact fun w hw => .inl (hrunning w hw)

/-- The free lock is taken, and the state left stopped. -/
theorem Settled.enter {next : CallPhase Plan Ingress} (h : Settled service) (hlock : service.lock = none)
    (hcalls : service'.calls = service.calls.set i next) (hlock' : service'.lock = some i) (hstopped : service'.Stopped)
    (hrunning : ∀ w, service'.Running w → ∃ runtime : StartedProxyRuntime Plan Ingress,
      service'.calls[i]? = some (.joining runtime) ∧ runtime.task.worker = w) : Settled service' := by
  constructor
  · intro j other hother hinside
    rw [hcalls] at hother
    rcases getElem?_set_cases hother with ⟨rfl, -⟩ | ⟨-, hold⟩
    · exact ⟨hlock', hstopped⟩
    · exact absurd hinside (h.outside hlock hold)
  · exact fun w hw => .inr ⟨i, hrunning w hw⟩

theorem Settled.cancel {phase : CallPhase Plan Ingress} (h : Settled service) (hphase : service.calls[i]? = some phase)
    (hwaits : ∀ runtime : StartedProxyRuntime Plan Ingress, phase ≠ .joining runtime)
    (hstep : service.cancel i phase = some service') : Settled service' := by
  unfold ProxyService.cancel at hstep
  split at hstep
  · next operation =>
    cases hstep
    constructor
    · intro j other hother hinside
      rcases getElem?_set_cases hother with ⟨-, rfl⟩ | ⟨-, hold⟩
      · exact hinside.elim
      · exact h.holder j other hold hinside
    · intro w hrunning
      rcases h.owned w hrunning with hstate | ⟨j, runtime, hjoining, hworker⟩
      · exact .inl hstate
      · refine .inr ⟨j, runtime, ?_, hworker⟩
        have hj : i ≠ j := by
          rintro rfl
          cases hphase.symm.trans hjoining
        exact (List.getElem?_set_ne hj).trans hjoining
  · cases hstep
    refine h.leave hphase trivial rfl not_false ?_
    exact fun w hw => absurd hw (h.binding hphase w)
  · next runtime => exact absurd rfl (hwaits runtime)
  · cases hstep

end Steps

section Runs
variable [ProxyPlan Plan]

theorem Settled.proceed {phase : CallPhase Plan Ingress} {outcome : Outcome Ingress} (h : Settled service)
    (hphase : service.calls[i]? = some phase) (hstep : service.proceed processId i phase outcome = some service') :
    Settled service' := by
  unfold ProxyService.proceed at hstep
  split at hstep
  · next operation =>
    split at hstep <;> cases hstep
    next hlock =>
    cases operation with
    | start plan =>
      simp only [ProxyService.locked]
      split
      · split
        · exact h.finish hlock _
        · exact h.finish hlock _
      · next id hstate =>
        refine h.enter hlock rfl rfl ⟨processId, rfl⟩ ?_
        exact fun w hw => absurd hw (h.idle hlock ⟨id, hstate⟩ w)
    | stop =>
      simp only [ProxyService.locked]
      split
      · exact h.finish hlock _
      · next runtime hstate =>
        refine h.enter hlock rfl rfl ⟨processId, rfl⟩ ?_
        intro w hw
        rcases h.owned w (running_signal hw) with ⟨started, hstarted, hworker⟩ | ⟨j, joined, hjoined, -⟩
        · cases hstarted.symm.trans hstate
          exact ⟨runtime, List.getElem?_set_self (List.getElem?_eq_some_iff.mp hphase).1, hworker⟩
        · exact absurd trivial (h.outside hlock hjoined)
    | status => exact h.finish hlock _
  · next id plan ingress =>
    cases hstep
    refine h.leave hphase trivial rfl not_false ?_
    intro w hw
    rcases running_spawn hw with hold | rfl
    · exact absurd hold (h.binding hphase w)
    · exact ⟨_, rfl, rfl⟩
  · cases hstep
    refine h.leave hphase trivial rfl not_false ?_
    exact fun w hw => absurd hw (h.binding hphase w)
  · next runtime =>
    obtain ⟨worker, hworker, hstep⟩ := Option.bind_eq_some_iff.mp hstep
    have hover := h.over hphase hworker
    unfold ProxyService.joined at hstep
    split at hstep <;> cases hstep
    · next hreturned =>
      refine h.leave hphase trivial rfl not_false ?_
      exact fun w hw => absurd hw (hover (by rw [ProxyWorker.alive, hreturned]) w)
    · next hfailed =>
      refine h.leave hphase trivial rfl not_false ?_
      exact fun w hw => absurd hw (hover (by rw [ProxyWorker.alive, hfailed]) w)
  · cases hstep

/-- A call that goes on changes no other call. -/
theorem proceed_calls {phase : CallPhase Plan Ingress} {outcome : Outcome Ingress}
    (hstep : service.proceed processId i phase outcome = some service') :
    ∃ next, service'.calls = service.calls.set i next := by
  unfold ProxyService.proceed at hstep
  split at hstep
  · next operation =>
    split at hstep <;> cases hstep
    unfold ProxyService.locked
    split
    · split
      · split <;> exact ⟨_, rfl⟩
      · exact ⟨_, rfl⟩
    · split <;> exact ⟨_, rfl⟩
    · exact ⟨_, rfl⟩
  · cases hstep
    exact ⟨_, rfl⟩
  · cases hstep
    exact ⟨_, rfl⟩
  · obtain ⟨worker, -, hstep⟩ := Option.bind_eq_some_iff.mp hstep
    unfold ProxyService.joined at hstep
    split at hstep <;> cases hstep <;> exact ⟨_, rfl⟩
  · cases hstep

theorem Settled.worker {w : Nat} {event : WorkerEvent} (h : Settled service)
    (hstep : service.step processId (.worker w event) = some service') : Settled service' := by
  simp only [ProxyService.step, Option.bind_eq_bind, Option.bind_eq_some_iff, Option.some.injEq] at hstep
  obtain ⟨worker, hworker, ⟨worker', telemetry⟩, hevent, rfl⟩ := hstep
  refine ⟨h.holder, fun v hrunning => h.owned v ?_⟩
  obtain ⟨other, hother, halive⟩ := hrunning
  rcases getElem?_set_cases hother with ⟨rfl, rfl⟩ | ⟨-, hold⟩
  · exact ⟨worker, hworker, ProxyWorker.alive_of_step hevent halive⟩
  · exact ⟨other, hold, halive⟩

/-- What every step under the condition keeps. -/
theorem Settled.step {action : Action Plan Ingress} (h : Settled service) (hwaits : Waits service action)
    (hstep : service.step processId action = some service') : Settled service' := by
  cases action with
  | call operation =>
    cases hstep
    constructor
    · intro j phase hphase hinside
      rw [List.getElem?_append] at hphase
      split at hphase
      · exact h.holder j phase hphase hinside
      · obtain rfl := List.mem_singleton.mp (List.mem_of_getElem? hphase)
        exact hinside.elim
    · intro w hrunning
      rcases h.owned w hrunning with hstate | ⟨j, runtime, hjoining, hworker⟩
      · exact .inl hstate
      · exact .inr ⟨j, runtime, (List.getElem?_append_left (List.getElem?_eq_some_iff.mp hjoining).1).trans hjoining, hworker⟩
  | proceed i outcome =>
    obtain ⟨phase, hphase, hstep⟩ := Option.bind_eq_some_iff.mp hstep
    exact h.proceed hphase hstep
  | cancel i =>
    obtain ⟨phase, hphase, hstep⟩ := Option.bind_eq_some_iff.mp hstep
    refine h.cancel hphase (fun runtime => ?_) hstep
    rintro rfl
    exact hwaits runtime hphase
  | worker w event => exact h.worker hstep

end Runs

section Contract
variable [ProxyPlan Plan]

/-- At most one worker runs; a call returns `Stopped` only when none does; none does while a call binds an ingress;
and a bind that fails leaves the state stopped, and none that runs. -/
structure Lifecycle (processId : Nat) (service : ProxyService Plan Ingress) : Prop where
  single : ∀ v w, service.Running v → service.Running w → v = w
  reports : ∀ (action : Action Plan Ingress) (service' : ProxyService Plan Ingress) (i id : Nat),
    service.step processId action = some service' → service'.calls[i]? = some (.done (.ok (.stopped id))) →
    service.calls[i]? ≠ some (.done (.ok (.stopped id))) → ∀ w, ¬ service'.Running w
  binds : ∀ (i id : Nat) (plan : Plan), service.calls[i]? = some (.binding id plan) → ∀ w, ¬ service.Running w
  fails : ∀ (i id : Nat) (plan : Plan) (text : Str) (service' : ProxyService Plan Ingress),
    service.calls[i]? = some (.binding id plan) → service.step processId (.proceed i (.failed text)) = some service' →
    service'.Stopped ∧ ∀ w, ¬ service'.Running w

theorem Settled.reports {phase : CallPhase Plan Ingress} {outcome : Outcome Ingress} {id : Nat} (h : Settled service)
    (hphase : service.calls[i]? = some phase) (hstep : service.proceed processId i phase outcome = some service')
    (hstopped : service'.calls[i]? = some (.done (.ok (.stopped id)))) (w : Nat) : ¬ service'.Running w := by
  have hself : ∀ next : CallPhase Plan Ingress, (service.calls.set i next)[i]? = some next :=
    fun next => List.getElem?_set_self (List.getElem?_eq_some_iff.mp hphase).1
  unfold ProxyService.proceed at hstep
  split at hstep
  · next operation =>
    split at hstep <;> cases hstep
    next hlock =>
    have hidle : ∀ id, service.state = .stopped id → ¬ service.Running w := fun id hid => h.idle hlock ⟨id, hid⟩ w
    cases operation with
    | start plan =>
      simp only [ProxyService.locked] at hstopped
      split at hstopped
      · split at hstopped <;> cases (hself _).symm.trans hstopped
      · cases (hself _).symm.trans hstopped
    | stop =>
      simp only [ProxyService.locked] at hstopped ⊢
      split at hstopped
      · next hstate => exact hidle _ hstate
      · cases (hself _).symm.trans hstopped
    | status =>
      have hstatus := (hself _).symm.trans hstopped
      simp only [Option.some.injEq, CallPhase.done.injEq, Except.ok.injEq, ProxyService.status] at hstatus
      split at hstatus
      · next hstate => exact hidle _ hstate
      · cases hstatus
  · cases hstep
    cases (hself _).symm.trans hstopped
  · cases hstep
    cases (hself _).symm.trans hstopped
  · next runtime =>
    obtain ⟨worker, hworker, hstep⟩ := Option.bind_eq_some_iff.mp hstep
    have hover := h.over hphase hworker
    unfold ProxyService.joined at hstep
    split at hstep <;> cases hstep
    · next hreturned => exact hover (by rw [ProxyWorker.alive, hreturned]) w
    · cases (hself _).symm.trans hstopped
  · cases hstep

theorem Settled.lifecycle (h : Settled service) : Lifecycle processId service := by
  refine ⟨fun v w => h.single, ?_, fun i id plan hbinding => h.binding hbinding, ?_⟩
  · intro action service' i id hstep hstopped hbefore
    cases action with
    | call operation =>
      cases hstep
      rw [List.getElem?_append] at hstopped
      split at hstopped
      · exact absurd hstopped hbefore
      · cases List.mem_singleton.mp (List.mem_of_getElem? hstopped)
    | proceed j outcome =>
      obtain ⟨phase, hphase, hstep⟩ := Option.bind_eq_some_iff.mp hstep
      by_cases hj : i = j
      · subst hj
        exact h.reports hphase hstep hstopped
      · obtain ⟨next, hcalls⟩ := proceed_calls hstep
        rw [hcalls, List.getElem?_set_ne (Ne.symm hj)] at hstopped
        exact absurd hstopped hbefore
    | cancel j =>
      obtain ⟨phase, hphase, hstep⟩ := Option.bind_eq_some_iff.mp hstep
      unfold ProxyService.cancel at hstep
      split at hstep <;> cases hstep <;> rcases getElem?_set_cases hstopped with ⟨-, hnext⟩ | ⟨-, hold⟩
      all_goals first | exact absurd hold hbefore | cases hnext
    | worker w event =>
      simp only [ProxyService.step, Option.bind_eq_bind, Option.bind_eq_some_iff, Option.some.injEq] at hstep
      obtain ⟨worker, -, moved, -, rfl⟩ := hstep
      exact absurd hstopped hbefore
  · intro i id plan text service' hbinding hstep
    obtain ⟨phase, hphase, hstep⟩ := Option.bind_eq_some_iff.mp hstep
    cases hphase.symm.trans hbinding
    cases hstep
    exact ⟨(h.holder i _ hbinding trivial).2, h.binding hbinding⟩

/-- Along every schedule of calls, failures, cancellations and workers, in which no call stops waiting for the end of
a worker, the proxy keeps its lifecycle. -/
theorem proxy_lifecycle (processId : Nat) {actions : List (Action Plan Ingress)} {service : ProxyService Plan Ingress}
    (halong : Along (ProxyService.step processId) Waits (.initial processId) actions)
    (h : run (ProxyService.step processId) (.initial processId) actions = some service) : Lifecycle processId service := by
  have hsettled : Settled service :=
    @run_invariant_along _ _ (ProxyService.step processId) Settled Waits (fun hwaits hinv hstep => hinv.step hwaits hstep)
      _ _ _ (settled_initial processId) halong h
  exact hsettled.lifecycle

end Contract

section Samples

private instance : ProxyPlan Unit where
  mode _ := "explicit".toList
  endpointLabel _ := "127.0.0.1:8080".toList

/-- A proxy is started, a connection comes, and the proxy is stopped up to the join of its worker. -/
private def stopping : List (Action Unit Unit) :=
  [.call (.start ()), .proceed 0 .ready, .proceed 0 (.bound ()), .worker 0 .accepted, .worker 0 (.connection 0 .prepared),
    .call .stop, .proceed 1 .ready, .worker 0 .shutdown]

private def drained : List (Action Unit Unit) :=
  [.worker 0 (.connection 0 .handled), .worker 0 (.joined 0), .worker 0 .drained, .worker 0 .closed, .proceed 1 .ready]

private def forgotten : List (Action Unit Unit) :=
  [.cancel 1, .call .status, .proceed 2 .ready, .call (.start ()), .proceed 3 .ready, .proceed 3 (.bound ())]

/-- The worker drains its connection, and the stop returns. -/
theorem sample_lifecycle : ∃ service : ProxyService Unit Unit,
    run (ProxyService.step 7) (.initial 7) (stopping ++ drained) = some service ∧
    service.calls[1]? = some (.done (.ok (.stopped 7))) ∧ Lifecycle 7 service := by
  have halong : Along (ProxyService.step 7) Waits (.initial 7) (stopping ++ drained) := by
    iterate 13 refine .cons trivial rfl ?_
    exact trivial
  exact ⟨_, rfl, rfl, proxy_lifecycle 7 halong rfl⟩

/-- The stop is cancelled: a status reports `Stopped` while the worker drains, and a start binds a second one. -/
theorem cancelled_stop_forgets_worker : ∃ service : ProxyService Unit Unit,
    run (ProxyService.step 7) (.initial 7) (stopping ++ forgotten) = some service ∧
    service.calls[2]? = some (.done (.ok (.stopped 7))) ∧ service.Running 0 ∧ service.Running 1 ∧ ¬ Lifecycle 7 service := by
  refine ⟨_, rfl, rfl, ⟨_, rfl, rfl⟩, ⟨_, rfl, rfl⟩, fun hlifecycle => ?_⟩
  exact absurd (hlifecycle.single 0 1 ⟨_, rfl, rfl⟩ ⟨_, rfl, rfl⟩) (by decide)

end Samples
end Abyss.Broker.Proxy
