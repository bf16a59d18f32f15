import Mathlib.Data.List.Perm.Basic
import Abyss.Broker.Proxy.Service

/-! The flow counters and the traffic monitor along every schedule: what becomes of a flow whose task ends
without a result. -/
namespace Abyss.Broker.Proxy
open Abyss.Text Abyss.System

section Flows

/-- The flow whose task is alive. -/
def Connection.flows (connection : Connection) : List Nat :=
  match connection.phase with
  | .handling flowId => [flowId]
  | _ => []

def ProxyWorker.flows (worker : ProxyWorker) : List Nat := worker.connections.flatMap Connection.flows

/-- The flows that were recorded accepted and whose task is alive. -/
def ProxyService.flows {Plan Ingress : Type} (service : ProxyService Plan Ingress) : List Nat :=
  service.workers.flatMap ProxyWorker.flows

/-- One entry of a table and the others. -/
theorem flatMap_set_perm {α β : Type} {l : List α} {i : Nat} {x : α} (f : α → List β) (h : l[i]? = some x) :
    ∃ rest, (l.flatMap f).Perm (f x ++ rest) ∧ ∀ y, ((l.set i y).flatMap f).Perm (f y ++ rest) := by
  induction l generalizing i with
  | nil => cases h
  | cons first l ih =>
    cases i with
    | zero =>
      obtain rfl := Option.some.inj h
      exact ⟨l.flatMap f, List.Perm.refl _, fun y => List.Perm.refl _⟩
    | succ i =>
      obtain ⟨rest, hbefore, hafter⟩ := ih h
      refine ⟨f first ++ rest, ?_, fun y => ?_⟩
      · exact (hbefore.append_left (f first)).trans (List.perm_append_comm_assoc _ _ _)
      · exact ((hafter y).append_left (f first)).trans (List.perm_append_comm_assoc _ _ _)

/-- The counters and the monitor, for the flows that are alive: a flow without a result stays in flight. -/
structure Balanced (telemetry : Telemetry) (flows : List Nat) : Prop where
  inFlight : telemetry.diagnostics.inFlight = flows.length + telemetry.lost
  accepted : telemetry.diagnostics.acceptedTotal = telemetry.diagnostics.completedTotal + telemetry.diagnostics.inFlight
  traffic : telemetry.traffic.flows.Perm flows

/-- The accounts as long as no counter has reached the largest number. -/
def Kept (telemetry : Telemetry) (flows : List Nat) : Prop :=
  telemetry.diagnostics.acceptedTotal ≤ 2 ^ 64 - 1 ∧
    (telemetry.diagnostics.acceptedTotal < 2 ^ 64 - 1 → Balanced telemetry flows)

theorem Kept.perm {telemetry : Telemetry} {flows flows' : List Nat} (h : Kept telemetry flows) (hperm : flows.Perm flows') :
    Kept telemetry flows' := by
  refine ⟨h.1, fun hcounted => ?_⟩
  obtain ⟨hinFlight, haccepted, htraffic⟩ := h.2 hcounted
  exact ⟨hperm.length_eq ▸ hinFlight, haccepted, htraffic.trans hperm⟩

end Flows

section Steps
variable {telemetry telemetry' : Telemetry} {rest : List Nat}

/-- The flow of a task without a result leaves the monitor, and stays in flight. -/
theorem Connection.unwind_kept {connection connection' : Connection} (hkept : Kept telemetry (connection.flows ++ rest))
    (h : connection.unwind telemetry = some (connection', telemetry')) : Kept telemetry' (connection'.flows ++ rest) := by
  unfold Connection.unwind at h
  split at h <;> cases h
  · next hphase =>
    simp only [Connection.flows, hphase] at hkept ⊢
    exact hkept
  · next flowId hphase =>
    simp only [Connection.flows, hphase] at hkept ⊢
    refine ⟨hkept.1, fun hcounted => ?_⟩
    obtain ⟨hinFlight, haccepted, htraffic⟩ := hkept.2 hcounted
    refine ⟨?_, haccepted, ?_⟩
    · rw [List.singleton_append, List.length_cons] at hinFlight
      rw [List.nil_append]
      change telemetry.diagnostics.inFlight = rest.length + (telemetry.lost + 1)
      omega
    · have herase := htraffic.erase flowId
      rwa [List.singleton_append, List.erase_cons_head] at herase

theorem Connection.step_kept {connection connection' : Connection} {event : ConnectionEvent}
    (hkept : Kept telemetry (connection.flows ++ rest))
    (h : connection.step telemetry event = some (connection', telemetry')) : Kept telemetry' (connection'.flows ++ rest) := by
  cases event with
  | prepared =>
    simp only [Connection.step] at h
    split at h <;> cases h
    next hphase =>
    simp only [Connection.flows, hphase] at hkept ⊢
    refine ⟨Nat.min_le_right _ _, fun hcounted => ?_⟩
    have hcount : telemetry.diagnostics.acceptedTotal + 1 < 2 ^ 64 - 1 := by
      simp only [FlowDiagnosticsState.recordAccepted, increment] at hcounted
      omega
    obtain ⟨hinFlight, haccepted, htraffic⟩ := hkept.2 (by omega)
    refine ⟨?_, ?_, htraffic.cons _⟩
    · simp only [FlowDiagnosticsState.recordAccepted, increment, List.singleton_append, List.length_cons]
      rw [List.nil_append] at hinFlight
      omega
    · simp only [FlowDiagnosticsState.recordAccepted, increment]
      omega
  | rejected =>
    simp only [Connection.step] at h
    split at h <;> cases h
    next hphase =>
    simp only [Connection.flows, hphase] at hkept ⊢
    refine ⟨hkept.1, fun hcounted => ?_⟩
    obtain ⟨hinFlight, haccepted, htraffic⟩ := hkept.2 hcounted
    exact ⟨hinFlight, haccepted, htraffic⟩
  | handled =>
    simp only [Connection.step] at h
    split at h <;> cases h
    next flowId hphase =>
    simp only [Connection.flows, hphase] at hkept ⊢
    refine ⟨hkept.1, fun hcounted => ?_⟩
    obtain ⟨hinFlight, haccepted, htraffic⟩ := hkept.2 hcounted
    rw [List.singleton_append, List.length_cons] at hinFlight
    have hcounted : telemetry.diagnostics.acceptedTotal < 2 ^ 64 - 1 := hcounted
    refine ⟨?_, ?_, ?_⟩
    · simp only [FlowDiagnosticsState.recordCompleted, List.nil_append]
      omega
    · simp only [FlowDiagnosticsState.recordCompleted, increment]
      omega
    · have herase := htraffic.erase flowId
      rwa [List.singleton_append, List.erase_cons_head] at herase
  | panicked => exact unwind_kept hkept h
  | cancelled =>
    simp only [Connection.step, Option.ite_none_right_eq_some] at h
    exact unwind_kept hkept h.2

theorem ProxyWorker.flows_abortAll (worker : ProxyWorker) : worker.abortAll.flows = worker.flows :=
  List.flatMap_map _ _ worker.connections

/-- An ended task has no flow. -/
theorem ProxyWorker.flows_joined {worker : ProxyWorker} {k : Nat} {connection : Connection}
    (hconnection : worker.connections[k]? = some connection) (hended : connection.phase = .ended) :
    ((worker.connections.eraseIdx k).flatMap Connection.flows).Perm worker.flows := by
  obtain ⟨hk, rfl⟩ := List.getElem?_eq_some_iff.mp hconnection
  have hperm := (List.getElem_cons_eraseIdx_perm hk).flatMap_right Connection.flows
  rwa [List.flatMap_cons, Connection.flows, hended, List.nil_append] at hperm

theorem ProxyWorker.step_kept {worker worker' : ProxyWorker} {event : WorkerEvent}
    (hkept : Kept telemetry (worker.flows ++ rest))
    (h : worker.step telemetry event = some (worker', telemetry')) : Kept telemetry' (worker'.flows ++ rest) := by
  cases event with
  | connection k event =>
    simp only [ProxyWorker.step, Option.bind_eq_bind, Option.bind_eq_some_iff, Option.some.injEq, Prod.mk.injEq] at h
    obtain ⟨connection, hconnection, ⟨next, after⟩, hstep, rfl, rfl⟩ := h
    obtain ⟨others, hbefore, hafter⟩ := flatMap_set_perm Connection.flows hconnection
    have hsplit : Kept telemetry (connection.flows ++ (others ++ rest)) := by
      rw [← List.append_assoc]
      exact hkept.perm (hbefore.append_right rest)
    have hnext := Connection.step_kept hsplit hstep
    rw [← List.append_assoc] at hnext
    exact hnext.perm ((hafter next).append_right rest).symm
  | accepted =>
    simp only [ProxyWorker.step, Option.ite_none_right_eq_some, Option.some.injEq, Prod.mk.injEq] at h
    obtain ⟨-, rfl, rfl⟩ := h
    have hflows : (worker.connections ++ [(⟨.preparing, false⟩ : Connection)]).flatMap Connection.flows = worker.flows := by
      rw [List.flatMap_append, List.flatMap_singleton, Connection.flows, List.append_nil]
      rfl
    rwa [ProxyWorker.flows, hflows]
  | acceptFailed =>
    simp only [ProxyWorker.step, Option.ite_none_right_eq_some, Option.some.injEq, Prod.mk.injEq] at h
    obtain ⟨-, rfl, rfl⟩ := h
    refine ⟨hkept.1, fun hcounted => ?_⟩
    obtain ⟨hinFlight, haccepted, htraffic⟩ := hkept.2 hcounted
    exact ⟨hinFlight, haccepted, htraffic⟩
  | joined k =>
    simp only [ProxyWorker.step, Option.ite_none_right_eq_some, Option.some.injEq, Prod.mk.injEq] at h
    obtain ⟨⟨-, hended⟩, rfl, rfl⟩ := h
    obtain ⟨connection, hconnection, hended⟩ := Option.map_eq_some_iff.mp hended
    exact hkept.perm ((ProxyWorker.flows_joined hconnection hended).symm.append_right rest)
  | shutdown | drained | closed =>
    simp only [ProxyWorker.step, Option.ite_none_right_eq_some, Option.some.injEq, Prod.mk.injEq] at h
    obtain ⟨-, rfl, rfl⟩ := h
    exact hkept
  | drainTimeout | panicked =>
    simp only [ProxyWorker.step, Option.ite_none_right_eq_some, Option.some.injEq, Prod.mk.injEq] at h
    obtain ⟨-, rfl, rfl⟩ := h
    rw [← ProxyWorker.flows_abortAll] at hkept
    exact hkept

/-- A worker that is past its drain has no connections. -/
def ProxyWorker.Drained (worker : ProxyWorker) : Prop :=
  worker.phase = .closing ∨ worker.phase = .returned → worker.connections = []

theorem ProxyWorker.Drained.step {worker worker' : ProxyWorker} {event : WorkerEvent} (hdrained : worker.Drained)
    (h : worker.step telemetry event = some (worker', telemetry')) : worker'.Drained := by
  cases event with
  | connection k event =>
    simp only [ProxyWorker.step, Option.bind_eq_bind, Option.bind_eq_some_iff, Option.some.injEq, Prod.mk.injEq] at h
    obtain ⟨connection, hconnection, ⟨next, after⟩, hstep, rfl, rfl⟩ := h
    intro hphase
    rw [hdrained hphase] at hconnection
    cases hconnection
  | accepted | acceptFailed | shutdown | drainTimeout | panicked =>
    simp only [ProxyWorker.step, Option.ite_none_right_eq_some, Option.some.injEq, Prod.mk.injEq] at h
    obtain ⟨hguard, rfl, rfl⟩ := h
    intro hphase
    simp_all
  | joined k =>
    simp only [ProxyWorker.step, Option.ite_none_right_eq_some, Option.some.injEq, Prod.mk.injEq] at h
    obtain ⟨⟨hrunning, -⟩, rfl, -⟩ := h
    intro hphase
    rcases hphase with (heq : worker.phase = .closing) | (heq : worker.phase = .returned) <;> simp [heq] at hrunning
  | drained =>
    simp only [ProxyWorker.step, Option.ite_none_right_eq_some, Option.some.injEq, Prod.mk.injEq] at h
    obtain ⟨⟨-, hempty⟩, rfl, -⟩ := h
    exact fun _ => hempty
  | closed =>
    simp only [ProxyWorker.step, Option.ite_none_right_eq_some, Option.some.injEq, Prod.mk.injEq] at h
    obtain ⟨hclosing, rfl, -⟩ := h
    exact fun _ => hdrained (.inl hclosing)

end Steps

section Contract
variable {Plan Ingress : Type} [ProxyPlan Plan] {processId : Nat} {service service' : ProxyService Plan Ingress}

/-- In flight are the flows that were accepted and whose task is alive; accepted are these, the completed ones and
those without a result; and once every worker has returned, nothing is in flight or active. -/
structure Accounted (service : ProxyService Plan Ingress) : Prop where
  inFlight : service.telemetry.diagnostics.inFlight = service.flows.length
  accepted : service.telemetry.diagnostics.acceptedTotal = service.telemetry.diagnostics.completedTotal +
    service.telemetry.diagnostics.inFlight + service.telemetry.lost
  returned : (∀ worker ∈ service.workers, worker.phase = .returned) →
    service.telemetry.diagnostics.inFlight = 0 ∧ service.telemetry.traffic.flows = []

/-- No task of an accepted flow is aborted or panics. -/
def Settles (service : ProxyService Plan Ingress) : Action Plan Ingress → Prop
  | .worker w (.connection k event) => event = .panicked ∨ event = .cancelled → ∀ worker connection,
      service.workers[w]? = some worker → worker.connections[k]? = some connection → connection.flows = []
  | _ => True

/-- What every step keeps. -/
structure Recorded (service : ProxyService Plan Ingress) : Prop where
  kept : Kept service.telemetry service.flows
  drained : ∀ worker ∈ service.workers, worker.Drained

/-- The workers behind a step of a call: one is told to shut down, or a new one starts. -/
inductive WorkersMove (workers : List ProxyWorker) : List ProxyWorker → Prop
  | same : WorkersMove workers workers
  | signal (w : Nat) : WorkersMove workers (workers.modify w fun worker => { worker with shutdown := true })
  | start : WorkersMove workers (workers ++ [.new])

theorem flatMap_signal (workers : List ProxyWorker) (w : Nat) :
    (workers.modify w fun worker => { worker with shutdown := true }).flatMap ProxyWorker.flows =
      workers.flatMap ProxyWorker.flows := by
  induction workers generalizing w with
  | nil => cases w <;> rfl
  | cons worker workers ih =>
    cases w with
    | zero => rfl
    | succ w => rw [List.modify_succ_cons, List.flatMap_cons, List.flatMap_cons, ih]

theorem WorkersMove.flows {workers workers' : List ProxyWorker} (h : WorkersMove workers workers') :
    workers'.flatMap ProxyWorker.flows = workers.flatMap ProxyWorker.flows := by
  cases h with
  | same => rfl
  | signal w => exact flatMap_signal workers w
  | start =>
    rw [List.flatMap_append, List.flatMap_singleton]
    exact List.append_nil _

theorem WorkersMove.drained {workers workers' : List ProxyWorker} (h : WorkersMove workers workers')
    (hdrained : ∀ worker ∈ workers, worker.Drained) : ∀ worker ∈ workers', worker.Drained := by
  intro worker hworker
  cases h with
  | same => exact hdrained worker hworker
  | signal w =>
    obtain ⟨j, hj⟩ := List.mem_iff_getElem?.mp hworker
    rw [List.getElem?_modify] at hj
    obtain ⟨old, hold, rfl⟩ := Option.map_eq_some_iff.mp hj
    have hbefore := hdrained old (List.mem_of_getElem? hold)
    split <;> exact hbefore
  | start =>
    rcases List.mem_append.mp hworker with hold | hnew
    · exact hdrained worker hold
    · obtain rfl := List.mem_singleton.mp hnew
      exact fun _ => rfl

theorem proceed_workers {i : Nat} {phase : CallPhase Plan Ingress} {outcome : Outcome Ingress}
    (hstep : service.proceed processId i phase outcome = some service') :
    service'.telemetry = service.telemetry ∧ WorkersMove service.workers service'.workers := by
  unfold ProxyService.proceed at hstep
  split at hstep
  · next operation =>
    split at hstep <;> cases hstep
    unfold ProxyService.locked
    split
    · split
      · split <;> exact ⟨rfl, .same⟩
      · exact ⟨rfl, .same⟩
    · split
      · exact ⟨rfl, .same⟩
      · exact ⟨rfl, .signal _⟩
    · exact ⟨rfl, .same⟩
  · cases hstep
    exact ⟨rfl, .start⟩
  · cases hstep
    exact ⟨rfl, .same⟩
  · obtain ⟨worker, -, hstep⟩ := Option.bind_eq_some_iff.mp hstep
    unfold ProxyService.joined at hstep
    split at hstep <;> cases hstep <;> exact ⟨rfl, .same⟩
  · cases hstep

/-- A step of the service is one of a worker, or leaves the telemetry alone. -/
theorem step_workers {action : Action Plan Ingress} (hstep : service.step processId action = some service') :
    (service'.telemetry = service.telemetry ∧ WorkersMove service.workers service'.workers) ∨
    ∃ w event worker worker', action = .worker w event ∧ service.workers[w]? = some worker ∧
      worker.step service.telemetry event = some (worker', service'.telemetry) ∧
      service'.workers = service.workers.set w worker' := by
  cases action with
  | call operation =>
    cases hstep
    exact .inl ⟨rfl, .same⟩
  | proceed i outcome =>
    obtain ⟨phase, -, hstep⟩ := Option.bind_eq_some_iff.mp hstep
    exact .inl (proceed_workers hstep)
  | cancel i =>
    obtain ⟨phase, -, hstep⟩ := Option.bind_eq_some_iff.mp hstep
    unfold ProxyService.cancel at hstep
    split at hstep <;> cases hstep <;> exact .inl ⟨rfl, .same⟩
  | worker w event =>
    simp only [ProxyService.step, Option.bind_eq_bind, Option.bind_eq_some_iff, Option.some.injEq] at hstep
    obtain ⟨worker, hworker, ⟨worker', telemetry⟩, hevent, rfl⟩ := hstep
    exact .inr ⟨w, event, worker, worker', rfl, hworker, hevent, rfl⟩

theorem Recorded.step {action : Action Plan Ingress} (h : Recorded service)
    (hstep : service.step processId action = some service') : Recorded service' := by
  rcases step_workers hstep with ⟨htelemetry, hworkers⟩ | ⟨w, event, worker, worker', -, hworker, hevent, hset⟩
  · refine ⟨?_, hworkers.drained h.drained⟩
    rw [htelemetry, ProxyService.flows, hworkers.flows]
    exact h.kept
  · constructor
    · obtain ⟨rest, hbefore, hafter⟩ := flatMap_set_perm ProxyWorker.flows hworker
      rw [ProxyService.flows, hset]
      exact (ProxyWorker.step_kept (h.kept.perm hbefore) hevent).perm (hafter worker').symm
    · intro other hother
      rw [hset] at hother
      rcases List.mem_or_eq_of_mem_set hother with hold | rfl
      · exact h.drained other hold
      · exact (h.drained worker (List.mem_of_getElem? hworker)).step hevent

omit [ProxyPlan Plan] in
theorem recorded_initial (processId : Nat) : Recorded (ProxyService.initial processId : ProxyService Plan Ingress) :=
  ⟨⟨Nat.zero_le _, fun _ => ⟨rfl, rfl, List.Perm.refl []⟩⟩, nofun⟩

omit [ProxyPlan Plan] in
/-- The accounts are those of the flows exactly when no flow was lost. -/
theorem Recorded.accounted (h : Recorded service) (hcounted : service.telemetry.diagnostics.acceptedTotal < 2 ^ 64 - 1) :
    Accounted service ↔ service.telemetry.lost = 0 := by
  obtain ⟨hinFlight, haccepted, htraffic⟩ := h.kept.2 hcounted
  constructor
  · intro haccounted
    have hequal := haccounted.inFlight
    omega
  · intro hlost
    rw [hlost, Nat.add_zero] at hinFlight
    refine ⟨hinFlight, by rw [hlost]; exact haccepted, ?_⟩
    intro hreturned
    have hflows : service.flows = [] := by
      rw [ProxyService.flows, List.flatMap_eq_nil_iff]
      intro worker hworker
      rw [ProxyWorker.flows, h.drained worker hworker (.inr (hreturned worker hworker))]
      rfl
    rw [hflows] at hinFlight htraffic
    exact ⟨hinFlight, htraffic.eq_nil⟩

theorem Connection.lost_step {connection connection' : Connection} {telemetry telemetry' : Telemetry} {event : ConnectionEvent}
    (hsettles : event = .panicked ∨ event = .cancelled → connection.flows = [])
    (h : connection.step telemetry event = some (connection', telemetry')) : telemetry'.lost = telemetry.lost := by
  have hunwind : connection.flows = [] → connection.unwind telemetry = some (connection', telemetry') →
      telemetry'.lost = telemetry.lost := by
    intro hflows h
    unfold Connection.unwind at h
    split at h <;> cases h
    · rfl
    · next flowId hphase =>
      rw [Connection.flows, hphase] at hflows
      cases hflows
  cases event with
  | prepared | rejected | handled =>
    simp only [Connection.step] at h
    split at h <;> cases h
    rfl
  | panicked => exact hunwind (hsettles (.inl rfl)) h
  | cancelled =>
    simp only [Connection.step, Option.ite_none_right_eq_some] at h
    exact hunwind (hsettles (.inr rfl)) h.2

theorem lost_step {action : Action Plan Ingress} (hsettles : Settles service action)
    (hstep : service.step processId action = some service') : service'.telemetry.lost = service.telemetry.lost := by
  rcases step_workers hstep with ⟨htelemetry, -⟩ | ⟨w, event, worker, worker', rfl, hworker, hevent, -⟩
  · rw [htelemetry]
  · cases event with
    | connection k event =>
      simp only [ProxyWorker.step, Option.bind_eq_bind, Option.bind_eq_some_iff, Option.some.injEq, Prod.mk.injEq] at hevent
      obtain ⟨connection, hconnection, ⟨next, after⟩, hstep, -, rfl⟩ := hevent
      exact Connection.lost_step (fun hends => hsettles hends worker connection hworker hconnection) hstep
    | accepted | acceptFailed | shutdown | joined | drainTimeout | drained | closed | panicked =>
      simp only [ProxyWorker.step, Option.ite_none_right_eq_some, Option.some.injEq, Prod.mk.injEq] at hevent
      obtain ⟨-, -, htelemetry⟩ := hevent
      rw [← htelemetry]

/-- Along every schedule with fewer accepted flows than the counter can hold, the accounts are right exactly when no
task of an accepted flow was aborted or has panicked, as in a run whose steps do not do that. -/
theorem flow_accounting (processId : Nat) {actions : List (Action Plan Ingress)} {service : ProxyService Plan Ingress}
    (h : run (ProxyService.step processId) (.initial processId) actions = some service)
    (hcounted : service.telemetry.diagnostics.acceptedTotal < 2 ^ 64 - 1) :
    (Along (ProxyService.step processId) Settles (.initial processId) actions → Accounted service) ∧
      (Accounted service ↔ service.telemetry.lost = 0) := by
  have hrecorded : Recorded service :=
    @run_invariant _ _ (ProxyService.step processId) Recorded (fun hinv hstep => hinv.step hstep) _ _ _
      (recorded_initial processId) h
  have haccounted := hrecorded.accounted hcounted
  refine ⟨fun halong => haccounted.mpr ?_, haccounted⟩
  exact @run_invariant_along _ _ (ProxyService.step processId) (fun service => service.telemetry.lost = 0) Settles
    (fun hsettles hinv hstep => (lost_step hsettles hstep).trans hinv) _ _ _ rfl halong h

end Contract

section Samples

private instance : ProxyPlan Bool where
  mode _ := "explicit".toList
  endpointLabel _ := "127.0.0.1:8080".toList

/-- A proxy with one connection is told to stop. -/
private def shuttingDown : List (Action Bool Unit) :=
  [.call (.start true), .proceed 0 .ready, .proceed 0 (.bound ()), .worker 0 .accepted, .worker 0 (.connection 0 .prepared),
    .call .stop, .proceed 1 .ready, .worker 0 .shutdown]

private def naturalEnd : List (Action Bool Unit) :=
  [.worker 0 (.connection 0 .handled), .worker 0 (.joined 0), .worker 0 .drained, .worker 0 .closed]

private def abortedEnd : List (Action Bool Unit) :=
  [.worker 0 .drainTimeout, .worker 0 (.connection 0 .cancelled), .worker 0 (.joined 0), .worker 0 .drained, .worker 0 .closed]

/-- A connection that ends in time. -/
theorem sample_accounted : ∃ service : ProxyService Bool Unit,
    run (ProxyService.step 7) (.initial 7) (shuttingDown ++ naturalEnd) = some service ∧
    service.telemetry.diagnostics = ⟨1, 1, 0, 0⟩ ∧ Accounted service := by
  have hrun : ∃ service : ProxyService Bool Unit, run (ProxyService.step 7) (.initial 7) (shuttingDown ++ naturalEnd) = some service ∧
      service.telemetry = ⟨⟨1, 1, 0, 0⟩, ⟨[], 1⟩, 0⟩ := ⟨_, rfl, rfl⟩
  obtain ⟨service, hrun, htelemetry⟩ := hrun
  refine ⟨service, hrun, by rw [htelemetry], ((flow_accounting 7 hrun ?_).2).mpr ?_⟩
  · rw [htelemetry]
    decide
  · rw [htelemetry]

/-- A connection that outlives the drain: the worker has returned, and its flow is in flight for ever. -/
theorem aborted_flow_stays_in_flight : ∃ service : ProxyService Bool Unit,
    run (ProxyService.step 7) (.initial 7) (shuttingDown ++ abortedEnd) = some service ∧
    (∀ worker ∈ service.workers, worker.phase = .returned) ∧ service.flows = [] ∧
    service.telemetry.diagnostics.inFlight = 1 ∧ service.telemetry.traffic.flows = [] ∧ ¬ Accounted service := by
  refine ⟨_, rfl, by decide, rfl, rfl, rfl, fun haccounted => ?_⟩
  exact absurd haccounted.inFlight (by decide)

end Samples
end Abyss.Broker.Proxy
