import Abyss.Mitm.Hook.Isolation
import Abyss.System.Machine

/-! Runs of the dispatcher: the worker comes to an end with every accepted event, and one
panicking hook ends the worker, behind which no event is accepted any more. -/
namespace Abyss.Mitm.Hook
open Abyss.System Abyss.Mitm.Http Abyss.Mitm.WebSocket Abyss.Mitm.Hook.ContentDecoder
variable {Flow Value Hook : Type} {env : DecodingEnv Value}

section Progress

/-- Steps of the worker that remain for what was accepted, were every hook to be asked and called. -/
def HookWorker.load (hooks : Nat) : HookWorker Flow Value Hook → Nat
  | .receiving => 0
  | .decoding .. => 2 * hooks + 3
  | .ready .. => 2 * hooks + 2
  | .dispatching _ _ remaining _ => 2 * remaining.length + 1
  | .calling _ _ remaining _ => 2 * remaining.length + 2
  | .stopped _ => 0

def HookDispatcher.pending (dispatcher : HookDispatcher Flow Value Hook) : Nat :=
  dispatcher.waiting.length * (2 * dispatcher.hooks.length + 4) + dispatcher.worker.load dispatcher.hooks.length

/-- The worker never gets stuck and comes to an end with every accepted event. -/
structure Progresses (env : DecodingEnv Value) (dispatcher : HookDispatcher Flow Value Hook) : Prop where
  enabled : dispatcher.pending ≠ 0 → ∃ action, action.ofWorker = true ∧ action.panics = false ∧
    (dispatcher.step env action).isSome = true
  decreases : ∀ action next, action.ofWorker = true → dispatcher.step env action = some next →
    next.pending < dispatcher.pending
  drained : dispatcher.pending = 0 → dispatcher.waiting = [] ∧ dispatcher.deliveries = dispatcher.finished

variable {dispatcher next : HookDispatcher Flow Value Hook}

theorem HookDispatcher.take_load (dispatcher : HookDispatcher Flow Value Hook) (ticket : Nat)
    (event : HookEvent Flow Value) (hooks : Nat) : (dispatcher.take ticket event).load hooks ≤ 2 * hooks + 3 := by
  cases event with
  | httpExchange exchange =>
    rw [take]
    split
    · exact Nat.le_refl _
    · exact Nat.le_succ _
  | webSocketMessage message => exact Nat.le_succ _

theorem unwind_waiting (delivery : Delivery Flow Value Hook) : (dispatcher.unwind delivery).waiting = [] := by
  cases hsender : dispatcher.sender <;> simp [HookDispatcher.unwind, HookDispatcher.waiting, hsender]

theorem unwind_pending (delivery : Delivery Flow Value Hook) : (dispatcher.unwind delivery).pending = 0 := by
  rw [HookDispatcher.pending, unwind_waiting]
  simp [HookDispatcher.unwind, HookWorker.load]

/-- Every step of the worker brings it closer to the end of its work. -/
theorem pending_lt {action : HookAction Flow Value Hook} (hworker : action.ofWorker = true)
    (hstep : dispatcher.step env action = some next) : next.pending < dispatcher.pending := by
  have hload : ∀ {worker : HookWorker Flow Value Hook}, dispatcher.worker = worker →
      dispatcher.pending = dispatcher.waiting.length * (2 * dispatcher.hooks.length + 4) +
        worker.load dispatcher.hooks.length := by
    rintro _ rfl
    rfl
  cases action with
  | push hook => cases hworker
  | submit event => cases hworker
  | send submission => cases hworker
  | recv =>
    simp only [HookDispatcher.step] at hstep
    split at hstep
    · next ticket event rest hphase hrecv =>
      cases hstep
      obtain ⟨channel, hsender, hrecv⟩ := Option.bind_eq_some_iff.mp hrecv
      have hwaiting : dispatcher.waiting.length = rest.waiting.length + 1 := by
        simp [HookDispatcher.waiting, hsender, (BoundedChannel.recv_some hrecv).1]
      have htake := dispatcher.take_load ticket event dispatcher.hooks.length
      rw [hload hphase, hwaiting, Nat.succ_mul]
      change rest.waiting.length * (2 * dispatcher.hooks.length + 4) +
        (dispatcher.take ticket event).load dispatcher.hooks.length < _
      omega
    · cases hstep
  | decoded =>
    simp only [HookDispatcher.step] at hstep
    split at hstep
    · next hphase =>
      cases hstep
      rw [hload hphase]
      exact Nat.lt_succ_self _
    · cases hstep
  | decodeFailed =>
    simp only [HookDispatcher.step] at hstep
    split at hstep
    · next hphase =>
      cases hstep
      rw [hload hphase]
      exact Nat.lt_add_of_pos_right (Nat.succ_pos _)
    · cases hstep
  | snapshot =>
    simp only [HookDispatcher.step] at hstep
    split at hstep
    · next hphase =>
      cases hstep
      rw [hload hphase]
      refine Nat.add_lt_add_left ?_ _
      simp [HookWorker.load]
    · cases hstep
  | ask interest =>
    simp only [HookDispatcher.step] at hstep
    split at hstep
    · next hphase =>
      rw [hload hphase]
      cases interest with
      | skip =>
        cases hstep
        refine Nat.add_lt_add_left ?_ _
        simp [HookWorker.load]
      | observe =>
        cases hstep
        refine Nat.add_lt_add_left ?_ _
        simp only [HookWorker.load, List.length_cons]
        omega
      | panic =>
        cases hstep
        rw [unwind_pending]
        exact Nat.lt_of_lt_of_le (Nat.succ_pos _) (Nat.le_add_left _ _)
    · cases hstep
  | reply reply =>
    simp only [HookDispatcher.step] at hstep
    split at hstep
    · next hphase =>
      rw [hload hphase]
      cases reply with
      | ok =>
        cases hstep
        exact Nat.lt_succ_self _
      | failed error =>
        cases hstep
        exact Nat.lt_succ_self _
      | panic =>
        cases hstep
        rw [unwind_pending]
        exact Nat.lt_of_lt_of_le (Nat.succ_pos _) (Nat.le_add_left _ _)
    · cases hstep
  | finish =>
    simp only [HookDispatcher.step] at hstep
    split at hstep
    · next hphase =>
      cases hstep
      rw [hload hphase]
      exact Nat.lt_succ_self _
    · cases hstep

theorem Serving.enabled (h : Serving env dispatcher) (hpending : dispatcher.pending ≠ 0) :
    ∃ action : HookAction Flow Value Hook, action.ofWorker = true ∧ action.panics = false ∧
      (dispatcher.step env action).isSome = true := by
  cases hphase : dispatcher.worker with
  | receiving =>
    refine ⟨.recv, rfl, rfl, ?_⟩
    cases hsender : dispatcher.sender with
    | none =>
      refine absurd ?_ hpending
      simp [HookDispatcher.pending, HookDispatcher.waiting, hphase, hsender, HookWorker.load]
    | some channel =>
      have hwaiting : channel.waiting ≠ [] := by
        intro hempty
        refine hpending ?_
        simp [HookDispatcher.pending, HookDispatcher.waiting, hphase, hsender, hempty, HookWorker.load]
      obtain ⟨⟨⟨ticket, event⟩, rest⟩, hrecv⟩ := Option.isSome_iff_exists.mp (BoundedChannel.recv_isSome.mpr hwaiting)
      simp [HookDispatcher.step, hphase, hsender, hrecv]
  | decoding delivery exchange => exact ⟨.decoded, rfl, rfl, by simp [HookDispatcher.step, hphase]⟩
  | ready delivery event => exact ⟨.snapshot, rfl, rfl, by simp [HookDispatcher.step, hphase]⟩
  | dispatching delivery event remaining lastError =>
    cases remaining with
    | nil => exact ⟨.finish, rfl, rfl, by simp [HookDispatcher.step, hphase]⟩
    | cons first remaining => exact ⟨.ask .skip, rfl, rfl, by simp [HookDispatcher.step, hphase]⟩
  | calling delivery event remaining lastError => exact ⟨.reply .ok, rfl, rfl, by simp [HookDispatcher.step, hphase]⟩
  | stopped delivery =>
    have hsound := h.sound
    rw [hphase] at hsound
    exact hsound.elim

theorem Serving.drained (h : Serving env dispatcher) (hpending : dispatcher.pending = 0) :
    dispatcher.waiting = [] ∧ dispatcher.deliveries = dispatcher.finished := by
  obtain ⟨hwaiting, hload⟩ := Nat.add_eq_zero_iff.mp hpending
  refine ⟨?_, ?_⟩
  · rcases Nat.mul_eq_zero.mp hwaiting with hempty | hzero
    · exact List.length_eq_zero_iff.mp hempty
    · cases hzero
  · cases hphase : dispatcher.worker with
    | receiving => simp [HookDispatcher.deliveries, hphase]
    | stopped delivery =>
      have hsound := h.sound
      rw [hphase] at hsound
      exact hsound.elim
    | decoding | ready | dispatching | calling =>
      rw [hphase] at hload
      cases hload

theorem Serving.progresses (h : Serving env dispatcher) : Progresses env dispatcher :=
  ⟨h.enabled, fun _ _ => pending_lt, h.drained⟩

end Progress

section Panic

/-- A dispatcher whose worker was unwound: its queue is closed for good. -/
structure Lost (dispatcher : HookDispatcher Flow Value Hook) : Prop where
  stopped : ∃ delivery, dispatcher.worker = .stopped delivery
  closed : ∃ channel, dispatcher.sender = some channel ∧ channel.closed = true ∧ channel.waiting = []
  hooked : dispatcher.hooks ≠ []

/-- Nothing was handed to a hook since, and every submission was answered `Closed`. -/
structure Silent (before after : HookDispatcher Flow Value Hook) : Prop where
  calls : after.calls = before.calls
  finished : after.finished = before.finished
  answers : ∃ more, after.answers = before.answers ++ more ∧ ∀ answer ∈ more, answer.2 = .closed

theorem Silent.of_eq {before after : HookDispatcher Flow Value Hook} (hcalls : after.calls = before.calls)
    (hfinished : after.finished = before.finished) (hanswers : after.answers = before.answers) : Silent before after :=
  ⟨hcalls, hfinished, [], hanswers.trans (List.append_nil _).symm, fun _ h => absurd h List.not_mem_nil⟩

theorem Silent.trans {a b c : HookDispatcher Flow Value Hook} (hab : Silent a b) (hbc : Silent b c) : Silent a c := by
  obtain ⟨more, hmore, hclosed⟩ := hab.answers
  obtain ⟨more', hmore', hclosed'⟩ := hbc.answers
  refine ⟨hbc.calls.trans hab.calls, hbc.finished.trans hab.finished, more ++ more', ?_, ?_⟩
  · rw [hmore', hmore, List.append_assoc]
  · intro answer hanswer
    exact (List.mem_append.mp hanswer).elim (hclosed answer) (hclosed' answer)

variable {dispatcher next : HookDispatcher Flow Value Hook}

/-- A panic in any call into a hook unwinds the worker. -/
theorem Serving.lost (h : Serving env dispatcher) {action : HookAction Flow Value Hook} (hpanic : action.panics = true)
    (hstep : dispatcher.step env action = some next) : Lost next := by
  have hunwound : ∀ delivery, dispatcher.worker ≠ .receiving → Lost (dispatcher.unwind delivery) := by
    intro delivery hbusy
    cases hsender : dispatcher.sender with
    | none => exact absurd (h.started hsender) hbusy
    | some channel =>
      refine ⟨⟨delivery, rfl⟩, ⟨channel.close, ?_, rfl, rfl⟩, h.hooked (.inr (by rw [hsender]; rfl))⟩
      simp [HookDispatcher.unwind, hsender]
  cases action with
  | ask interest =>
    cases interest with
    | panic =>
      simp only [HookDispatcher.step] at hstep
      split at hstep
      · next hphase =>
        cases hstep
        exact hunwound _ (by rw [hphase]; rintro ⟨⟩)
      · cases hstep
    | skip => cases hpanic
    | observe => cases hpanic
  | reply reply =>
    cases reply with
    | panic =>
      simp only [HookDispatcher.step] at hstep
      split at hstep
      · next hphase =>
        cases hstep
        exact hunwound _ (by rw [hphase]; rintro ⟨⟩)
      · cases hstep
    | ok => cases hpanic
    | failed error => cases hpanic
  | push | submit | send | recv | decoded | decodeFailed | snapshot | finish => cases hpanic

/-- The worker task never runs again, and the queue stays closed. -/
theorem Lost.step (h : Lost dispatcher) {action : HookAction Flow Value Hook}
    (hstep : dispatcher.step env action = some next) : Lost next ∧ Silent dispatcher next := by
  obtain ⟨delivery, hphase⟩ := h.stopped
  obtain ⟨channel, hsender, hclosed, hempty⟩ := h.closed
  cases action with
  | push hook =>
    cases hstep
    exact ⟨⟨h.stopped, h.closed, List.append_ne_nil_of_right_ne_nil _ (List.cons_ne_nil hook [])⟩, .of_eq rfl rfl rfl⟩
  | submit event =>
    simp only [HookDispatcher.step] at hstep
    rw [if_neg (fun hnone => h.hooked (List.isEmpty_iff.mp hnone))] at hstep
    cases hstep
    exact ⟨⟨h.stopped, h.closed, h.hooked⟩, .of_eq rfl rfl rfl⟩
  | send submission =>
    obtain ⟨event, -, rfl⟩ := Option.map_eq_some_iff.mp hstep
    simp only [hsender, Option.getD_some, BoundedChannel.trySend_closed hclosed]
    refine ⟨⟨h.stopped, ⟨channel, rfl, hclosed, hempty⟩, h.hooked⟩, rfl, rfl, [(event, .closed)], rfl, ?_⟩
    intro answer hanswer
    rw [List.mem_singleton.mp hanswer]
  | recv => simp [HookDispatcher.step, hphase] at hstep
  | decoded => simp [HookDispatcher.step, hphase] at hstep
  | decodeFailed => simp [HookDispatcher.step, hphase] at hstep
  | snapshot => simp [HookDispatcher.step, hphase] at hstep
  | ask interest => simp [HookDispatcher.step, hphase] at hstep
  | reply reply => simp [HookDispatcher.step, hphase] at hstep
  | finish => simp [HookDispatcher.step, hphase] at hstep

theorem Lost.run {actions : List (HookAction Flow Value Hook)} (h : Lost dispatcher)
    (hrun : run (HookDispatcher.step env) dispatcher actions = some next) : Lost next ∧ Silent dispatcher next := by
  have hinvariant : ∀ {s : HookDispatcher Flow Value Hook} {action s'}, Lost s ∧ Silent dispatcher s →
      s.step env action = some s' → Lost s' ∧ Silent dispatcher s' := by
    intro s action s' hs hstep
    obtain ⟨hlost, hsilent⟩ := hs.1.step hstep
    exact ⟨hlost, hs.2.trans hsilent⟩
  exact run_invariant hinvariant ⟨h, .of_eq rfl rfl rfl⟩ hrun

/-- A run that has a panic ends without a worker. -/
theorem Serving.lost_of_run {actions : List (HookAction Flow Value Hook)} (h : Serving env dispatcher)
    (hrun : run (HookDispatcher.step env) dispatcher actions = some next)
    (hpanic : ∃ action ∈ actions, action.panics = true) : Lost next := by
  induction actions generalizing dispatcher with
  | nil =>
    obtain ⟨action, hmem, -⟩ := hpanic
    cases hmem
  | cons action rest ih =>
    obtain ⟨middle, hstep, hrest⟩ := run_cons.mp hrun
    cases hfirst : action.panics with
    | true => exact ((h.lost hfirst hstep).run hrest).1
    | false =>
      refine ih (h.step hfirst hstep) hrest ?_
      obtain ⟨other, hmem, hother⟩ := hpanic
      rcases List.mem_cons.mp hmem with rfl | hmem
      · rw [hfirst] at hother
        cases hother
      · exact ⟨other, hmem, hother⟩

/-- In every run in which no call into a hook panics, the hooks are isolated and the worker comes to
an end with every accepted event. Behind a panic no event reaches any hook and every submission is
answered `Closed`. -/
theorem dispatch_isolated {queueCapacity : Nat} {actions : List (HookAction Flow Value Hook)}
    {dispatcher : HookDispatcher Flow Value Hook}
    (hrun : run (HookDispatcher.step env) (HookDispatcher.withCapacity queueCapacity) actions = some dispatcher) :
    ((∀ action ∈ actions, action.panics = false) → Isolated env dispatcher ∧ Progresses env dispatcher) ∧
    ((∃ action ∈ actions, action.panics = true) → ∀ more next,
      run (HookDispatcher.step env) dispatcher more = some next → Silent dispatcher next) := by
  constructor
  · intro hcalm
    have hserving : Serving env dispatcher :=
      run_invariant_of (fun hallowed hs hstep => Serving.step hs hallowed hstep) hcalm
        (serving_withCapacity queueCapacity) hrun
    exact ⟨hserving.isolated, hserving.progresses⟩
  · intro hpanic more next hmore
    exact (((serving_withCapacity queueCapacity).lost_of_run hrun hpanic).run hmore).2

/-- A text message of a tunnel without headers. -/
def sampleEvent : HookEvent Unit Unit :=
  .webSocketMessage ⟨(), getRequest, ⟨101, .http11, ⟨[]⟩⟩, .clientToServer, 1, some "hello".toList, none⟩

/-- Two hooks observe a message, the second one although the first one fails. -/
private def observed : List (HookAction Unit Unit Unit) :=
  [.push (), .push (), .submit sampleEvent, .send 0, .recv, .snapshot, .ask .observe, .reply (.failed []),
    .ask .observe, .reply .ok, .finish]

theorem dispatch_isolated_observed : ∃ dispatcher,
    run (HookDispatcher.step sampleEnv) (HookDispatcher.withCapacity 1) observed = some dispatcher ∧
      Isolated sampleEnv dispatcher ∧ dispatcher.calls.map HookCall.hookIndex = [0, 1] := by
  have hcalm : ∀ action ∈ observed, action.panics = false := by simp [observed, HookAction.panics]
  exact ⟨_, rfl, ((@dispatch_isolated Unit Unit Unit sampleEnv 1 observed _ rfl).1 hcalm).1, rfl⟩

/-- The first hook panics: the second one is not called, and the next submission is answered `Closed`. -/
private def unwound : List (HookAction Unit Unit Unit) :=
  [.push (), .push (), .submit sampleEvent, .send 0, .recv, .snapshot, .ask .observe, .reply .panic,
    .submit sampleEvent, .send 0]

theorem panic_not_isolated : ¬ ∀ (queueCapacity : Nat) (actions : List (HookAction Unit Unit Unit)) dispatcher,
    run (HookDispatcher.step sampleEnv) (HookDispatcher.withCapacity queueCapacity) actions = some dispatcher →
      Isolated sampleEnv dispatcher := by
  intro h
  have hisolated := h 1024 unwound _ rfl
  exact hisolated.neverClosed (sampleEvent, .closed) (List.mem_cons_of_mem _ List.mem_cons_self) rfl

end Panic
end Abyss.Mitm.Hook
