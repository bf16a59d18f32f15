import Abyss.Mitm.Hook.Dispatcher
import Abyss.Mitm.Hook.FastPath
import Mathlib.Data.List.Nodup

/-! Isolation of the hooks: while no hook panics every accepted event reaches every interested
hook once and in order, and behind a panic nothing reaches any hook. -/
namespace Abyss.Mitm.Hook
open Abyss.System Abyss.Mitm.WebSocket Abyss.Mitm.Hook.ContentDecoder
variable {Flow Value Hook : Type} {env : DecodingEnv Value}

section Records

/-- The accepted events under their tickets, in the order in which they were accepted. -/
def enqueued (answers : List (HookEvent Flow Value × HookDispatchStatus)) : List (Nat × HookEvent Flow Value) :=
  answers.zipIdx.filterMap (fun answer =>
    if answer.1.2 = .enqueued then some (answer.2, answer.1.1) else none)

theorem enqueued_concat (answers : List (HookEvent Flow Value × HookDispatchStatus)) (event : HookEvent Flow Value)
    (status : HookDispatchStatus) : enqueued (answers ++ [(event, status)]) =
      enqueued answers ++ if status = .enqueued then [(answers.length, event)] else [] := by
  simp only [enqueued, List.zipIdx_append, List.filterMap_append]
  congr 1
  by_cases h : status = .enqueued <;> simp [h]

theorem mem_enqueued {answers : List (HookEvent Flow Value × HookDispatchStatus)} {ticket : Nat}
    {event : HookEvent Flow Value} (h : (ticket, event) ∈ enqueued answers) :
    answers[ticket]? = some (event, .enqueued) := by
  obtain ⟨⟨⟨event', status⟩, ticket'⟩, hmem, hsome⟩ := List.mem_filterMap.mp h
  have hget := List.mem_zipIdx_iff_getElem?.mp hmem
  dsimp only at hsome
  split at hsome
  · next hstatus =>
    obtain ⟨rfl, rfl⟩ := Prod.mk.inj (Option.some.inj hsome)
    rw [hget]
    exact congrArg some (Prod.ext rfl hstatus)
  · cases hsome

/-- Tickets are given out in the order of acceptance. -/
theorem enqueued_ordered (answers : List (HookEvent Flow Value × HookDispatchStatus)) :
    ((enqueued answers).map Prod.fst).Pairwise (· < ·) := by
  have hpositions : answers.zipIdx.Pairwise (fun a b => a.2 < b.2) := by
    have hrange : (answers.zipIdx.map Prod.snd).Pairwise (· < ·) := by
      rw [List.zipIdx_map_snd]
      exact List.pairwise_lt_range'
    exact List.pairwise_map.mp hrange
  rw [List.pairwise_map, enqueued, List.pairwise_filterMap]
  refine hpositions.imp ?_
  intro a b hlt c hc d hd
  split at hc
  · split at hd
    · cases hc
      cases hd
      exact hlt
    · cases hd
  · cases hc

namespace Delivery
variable (delivery : Delivery Flow Value Hook)

theorem calls_skip : ({ delivery with interested := delivery.interested ++ [false] } : Delivery Flow Value Hook).calls env =
    delivery.calls env := by
  simp [calls, List.zipIdx_append]

theorem calls_observe : ({ delivery with interested := delivery.interested ++ [true] } : Delivery Flow Value Hook).calls env =
    delivery.calls env ++ [⟨delivery.ticket, delivery.interested.length, delivery.taken.prepared env⟩] := by
  simp [calls, List.zipIdx_append]

theorem mem_calls {delivery : Delivery Flow Value Hook} {call : HookCall Flow Value} :
    call ∈ delivery.calls env ↔ call.ticket = delivery.ticket ∧ delivery.interested[call.hookIndex]? = some true ∧
      call.event = delivery.taken.prepared env := by
  simp only [calls, List.mem_map, List.mem_filter, Prod.exists, List.mem_zipIdx_iff_getElem?]
  constructor
  · rintro ⟨answer, index, ⟨hget, hanswer⟩, rfl⟩
    exact ⟨rfl, hget.trans (congrArg some hanswer), rfl⟩
  · obtain ⟨ticket, index, event⟩ := call
    rintro ⟨rfl, hget, rfl⟩
    exact ⟨true, index, ⟨hget, rfl⟩, rfl⟩

/-- A delivery that ended: every hook of the snapshot was asked, and the snapshot has all hooks that were
registered when the event was taken; or the decode task of an exchange failed and no hook was asked. -/
def Settled (delivery : Delivery Flow Value Hook) : Prop :=
  (delivery.decodeFailed = true ∧ delivery.interested = [] ∧
      ∃ exchange, delivery.taken = .httpExchange exchange ∧ requiresProcessing exchange = true) ∨
    (delivery.decodeFailed = false ∧ delivery.registered <+: delivery.snapshot ∧
      delivery.interested.length = delivery.snapshot.length)

/-- A delivery whose event no hook was asked about yet. -/
structure Fresh (delivery : Delivery Flow Value Hook) (hooks : List Hook) : Prop where
  notFailed : delivery.decodeFailed = false
  notAsked : delivery.interested = []
  registered : delivery.registered <+: hooks

/-- A delivery of which some hooks of the snapshot were asked and the remaining ones were not. -/
structure Asking (env : DecodingEnv Value) (delivery : Delivery Flow Value Hook) (event : HookEvent Flow Value)
    (remaining : List (Hook × Nat)) : Prop where
  prepared : event = delivery.taken.prepared env
  notFailed : delivery.decodeFailed = false
  registered : delivery.registered <+: delivery.snapshot
  asked : delivery.interested.length ≤ delivery.snapshot.length
  remaining : remaining = delivery.snapshot.zipIdx.drop delivery.interested.length

variable {delivery}

theorem Asking.first {event : HookEvent Flow Value} {hook : Hook} {hookIndex : Nat} {rest : List (Hook × Nat)}
    (h : delivery.Asking env event ((hook, hookIndex) :: rest)) : hookIndex = delivery.interested.length := by
  have hget := congrArg (·[0]?) h.remaining
  simp only [List.getElem?_cons_zero, List.getElem?_drop, Nat.add_zero, List.getElem?_zipIdx] at hget
  obtain ⟨_, -, heq⟩ := Option.map_eq_some_iff.mp hget.symm
  have hindex := (Prod.mk.inj heq).2
  omega

/-- Asking one more hook leaves the hooks behind it. -/
theorem Asking.next {event : HookEvent Flow Value} {first : Hook × Nat} {rest : List (Hook × Nat)}
    (h : delivery.Asking env event (first :: rest)) (answer : Bool) :
    ({ delivery with interested := delivery.interested ++ [answer] } : Delivery Flow Value Hook).Asking env event rest := by
  have hlength : delivery.interested.length < delivery.snapshot.length := by
    have hremaining := congrArg List.length h.remaining
    rw [List.length_cons, List.length_drop, List.length_zipIdx] at hremaining
    omega
  refine ⟨h.prepared, h.notFailed, h.registered, ?_, ?_⟩
  · rw [List.length_append]
    exact hlength
  · have htail := congrArg List.tail h.remaining
    rw [List.tail_cons, List.tail_drop] at htail
    simpa using htail

theorem Asking.settled {event : HookEvent Flow Value} (h : delivery.Asking env event []) : delivery.Settled := by
  refine .inr ⟨h.notFailed, h.registered, ?_⟩
  have hremaining := congrArg List.length h.remaining
  rw [List.length_nil, List.length_drop, List.length_zipIdx] at hremaining
  have hasked := h.asked
  omega

end Delivery
end Records

section Serving

/-- What the worker knows of the event that it is at. -/
def HookWorker.Sound (env : DecodingEnv Value) (hooks : List Hook) : HookWorker Flow Value Hook → Prop
  | .receiving => True
  | .decoding delivery exchange =>
    delivery.taken = .httpExchange exchange ∧ requiresProcessing exchange = true ∧ delivery.Fresh hooks
  | .ready delivery event => event = delivery.taken.prepared env ∧ delivery.Fresh hooks
  | .dispatching delivery event remaining _ | .calling delivery event remaining _ => delivery.Asking env event remaining
  | .stopped _ => False

/-- A dispatcher whose worker was never unwound. -/
structure Serving (env : DecodingEnv Value) (dispatcher : HookDispatcher Flow Value Hook) : Prop where
  sound : dispatcher.worker.Sound env dispatcher.hooks
  opened : ∀ channel, dispatcher.sender = some channel →
    channel.closed = false ∧ channel.capacity = dispatcher.queueCapacity
  started : dispatcher.sender = none → dispatcher.worker = .receiving
  hooked : dispatcher.submitting ≠ [] ∨ dispatcher.sender.isSome = true → dispatcher.hooks ≠ []
  neverClosed : ∀ answer ∈ dispatcher.answers, answer.2 ≠ .closed
  fifo : dispatcher.deliveries.map (fun delivery => (delivery.ticket, delivery.taken)) ++ dispatcher.waiting =
    enqueued dispatcher.answers
  handed : dispatcher.calls = dispatcher.deliveries.flatMap (Delivery.calls env)
  settled : ∀ delivery ∈ dispatcher.finished, delivery.Settled

theorem Delivery.Fresh.mono {delivery : Delivery Flow Value Hook} {hooks : List Hook} (h : delivery.Fresh hooks)
    (hook : Hook) : delivery.Fresh (hooks ++ [hook]) :=
  ⟨h.notFailed, h.notAsked, h.registered.trans (List.prefix_append ..)⟩

theorem HookWorker.Sound.push {worker : HookWorker Flow Value Hook} {hooks : List Hook} (h : worker.Sound env hooks)
    (hook : Hook) : worker.Sound env (hooks ++ [hook]) := by
  cases worker with
  | receiving => trivial
  | decoding delivery exchange => exact ⟨h.1, h.2.1, h.2.2.mono hook⟩
  | ready delivery event => exact ⟨h.1, h.2.mono hook⟩
  | dispatching delivery event remaining lastError => exact h
  | calling delivery event remaining lastError => exact h
  | stopped delivery => exact h

@[simp] theorem receiving_delivery : (HookWorker.receiving : HookWorker Flow Value Hook).delivery = none := rfl

variable {dispatcher next : HookDispatcher Flow Value Hook}

theorem serving_withCapacity (queueCapacity : Nat) :
    Serving env (HookDispatcher.withCapacity queueCapacity : HookDispatcher Flow Value Hook) where
  sound := trivial
  opened _ h := by
    rw [HookDispatcher.withCapacity] at h
    cases h
  started _ := rfl
  hooked h := h.elim (fun h => absurd rfl h) (fun h => absurd h Bool.false_ne_true)
  neverClosed _ h := absurd h List.not_mem_nil
  fifo := rfl
  handed := rfl
  settled _ h := absurd h List.not_mem_nil

/-- The worker moves on with the event that it is at. -/
theorem Serving.advance (h : Serving env dispatcher) {worker : HookWorker Flow Value Hook}
    {delivery delivery' : Delivery Flow Value Hook} {called : List (HookCall Flow Value)}
    (hold : dispatcher.worker.delivery = some delivery) (hnew : worker.delivery = some delivery')
    (hsound : worker.Sound env dispatcher.hooks) (hticket : delivery'.ticket = delivery.ticket)
    (htaken : delivery'.taken = delivery.taken) (hcalls : delivery'.calls env = delivery.calls env ++ called) :
    Serving env { dispatcher with worker, calls := dispatcher.calls ++ called } where
  sound := hsound
  opened := h.opened
  started hnone := by
    rw [h.started hnone] at hold
    cases hold
  hooked := h.hooked
  neverClosed := h.neverClosed
  fifo := by
    rw [← h.fifo]
    simp [HookDispatcher.deliveries, HookDispatcher.waiting, hold, hnew, hticket, htaken]
  handed := by
    simp only [h.handed, HookDispatcher.deliveries, hold, hnew]
    simp [hcalls]
  settled := h.settled

/-- The worker moves on without a call. -/
theorem Serving.move (h : Serving env dispatcher) (worker : HookWorker Flow Value Hook)
    {delivery delivery' : Delivery Flow Value Hook} (hold : dispatcher.worker.delivery = some delivery)
    (hnew : worker.delivery = some delivery') (hsound : worker.Sound env dispatcher.hooks)
    (hticket : delivery'.ticket = delivery.ticket) (htaken : delivery'.taken = delivery.taken)
    (hcalls : delivery'.calls env = delivery.calls env) : Serving env { dispatcher with worker } := by
  have hnext := h.advance hold hnew hsound hticket htaken (hcalls.trans (List.append_nil _).symm)
  rwa [List.append_nil] at hnext

/-- The worker is done with an event and receives again. -/
theorem Serving.ended (h : Serving env dispatcher) {delivery delivery' : Delivery Flow Value Hook}
    (hold : dispatcher.worker.delivery = some delivery) (hsettled : delivery'.Settled)
    (hticket : delivery'.ticket = delivery.ticket) (htaken : delivery'.taken = delivery.taken)
    (hcalls : delivery'.calls env = delivery.calls env) :
    Serving env { dispatcher with worker := .receiving, finished := dispatcher.finished ++ [delivery'] } where
  sound := trivial
  opened := h.opened
  started _ := rfl
  hooked := h.hooked
  neverClosed := h.neverClosed
  fifo := by
    rw [← h.fifo]
    simp [HookDispatcher.deliveries, HookDispatcher.waiting, hold, hticket, htaken]
  handed := by
    simp only [h.handed, HookDispatcher.deliveries, hold]
    simp [hcalls]
  settled := by
    intro d hd
    rcases List.mem_append.mp hd with hd | hd
    · exact h.settled d hd
    · rw [List.mem_singleton.mp hd]
      exact hsettled

theorem Serving.push (h : Serving env dispatcher) (hook : Hook) :
    Serving env { dispatcher with hooks := dispatcher.hooks ++ [hook] } where
  sound := h.sound.push hook
  opened := h.opened
  started := h.started
  hooked _ := List.append_ne_nil_of_right_ne_nil _ (List.cons_ne_nil hook [])
  neverClosed := h.neverClosed
  fifo := h.fifo
  handed := h.handed
  settled := h.settled

theorem Serving.submit (h : Serving env dispatcher) {event : HookEvent Flow Value}
    (hstep : dispatcher.step env (.submit event) = some next) : Serving env next := by
  simp only [HookDispatcher.step] at hstep
  split at hstep
  · cases hstep
    refine { h with neverClosed := ?_, fifo := ?_ }
    · intro answer hanswer
      rcases List.mem_append.mp hanswer with hanswer | hanswer
      · exact h.neverClosed answer hanswer
      · rw [List.mem_singleton.mp hanswer]
        exact nofun
    · rw [enqueued_concat, if_neg (by decide), List.append_nil]
      exact h.fifo
  · next hhooks =>
    cases hstep
    exact { h with hooked := fun _ hempty => hhooks (List.isEmpty_iff.mpr hempty) }

/-- What a submission does to the queue: the queue is open, so the event is accepted or dropped. -/
theorem Serving.send (h : Serving env dispatcher) {submission : Nat}
    (hstep : dispatcher.step env (.send submission) = some next) : Serving env next := by
  obtain ⟨event, hevent, rfl⟩ := Option.map_eq_some_iff.mp hstep
  have hhooks : dispatcher.hooks ≠ [] := by
    refine h.hooked (.inl ?_)
    intro hempty
    rw [hempty] at hevent
    cases hevent
  have hopen : (dispatcher.sender.getD (.new dispatcher.queueCapacity)).closed = false ∧
      (dispatcher.sender.getD (.new dispatcher.queueCapacity)).capacity = dispatcher.queueCapacity ∧
      (dispatcher.sender.getD (.new dispatcher.queueCapacity)).waiting = dispatcher.waiting := by
    cases hsender : dispatcher.sender with
    | none => simp [BoundedChannel.new, HookDispatcher.waiting, hsender]
    | some channel => simp [h.opened channel hsender, HookDispatcher.waiting, hsender]
  obtain ⟨hopened, hcapacity, hwaiting⟩ := hopen
  revert hopened hcapacity hwaiting
  generalize dispatcher.sender.getD (.new dispatcher.queueCapacity) = channel
  intro hopened hcapacity hwaiting
  have hsent := @BoundedChannel.trySend_open _ channel (dispatcher.answers.length, event) hopened
  refine ⟨h.sound, ?_, fun hnone => absurd hnone (Option.some_ne_none _), fun _ => hhooks, ?_, ?_, h.handed, h.settled⟩
  · intro other hother
    obtain rfl := Option.some.inj hother
    rw [BoundedChannel.trySend_stays, BoundedChannel.trySend_capacity]
    exact ⟨hopened, hcapacity⟩
  · intro answer hanswer
    rcases List.mem_append.mp hanswer with hanswer | hanswer
    · exact h.neverClosed answer hanswer
    · rw [List.mem_singleton.mp hanswer]
      rcases hsent with hsent | hsent
      · rw [hsent.1]
        rintro ⟨⟩
      · rw [hsent.1]
        rintro ⟨⟩
  · rw [enqueued_concat, ← h.fifo, List.append_assoc]
    refine congrArg _ ?_
    change (channel.trySend _).2.waiting = _
    rcases hsent with hsent | hsent
    · rw [hsent.2, hsent.1, hwaiting]
      rfl
    · rw [hsent.2, hsent.1, hwaiting]
      exact (List.append_nil _).symm

theorem HookDispatcher.take_delivery (dispatcher : HookDispatcher Flow Value Hook) (ticket : Nat)
    (event : HookEvent Flow Value) :
    (dispatcher.take ticket event).delivery = some ⟨ticket, event, dispatcher.hooks, [], [], false⟩ := by
  cases event with
  | httpExchange exchange =>
    rw [take]
    split <;> rfl
  | webSocketMessage message => rfl

theorem HookDispatcher.take_sound (dispatcher : HookDispatcher Flow Value Hook) (ticket : Nat)
    (event : HookEvent Flow Value) : (dispatcher.take ticket event).Sound env dispatcher.hooks := by
  cases event with
  | httpExchange exchange =>
    rw [take]
    split
    · next hprocess => exact ⟨rfl, hprocess, rfl, rfl, List.prefix_refl _⟩
    · next hready =>
      refine ⟨?_, rfl, rfl, List.prefix_refl _⟩
      rw [HookEvent.prepared, workerStep, if_neg hready]
  | webSocketMessage message => exact ⟨rfl, rfl, rfl, List.prefix_refl _⟩

theorem Serving.recv (h : Serving env dispatcher) (hstep : dispatcher.step env .recv = some next) :
    Serving env next := by
  simp only [HookDispatcher.step] at hstep
  split at hstep
  · next ticket event rest hworker hrecv =>
    cases hstep
    obtain ⟨channel, hsender, hrecv⟩ := Option.bind_eq_some_iff.mp hrecv
    obtain ⟨hwaiting, hcapacity, hclosed⟩ := BoundedChannel.recv_some hrecv
    have hopened := h.opened channel hsender
    refine ⟨dispatcher.take_sound ticket event, ?_, nofun, fun _ => h.hooked (.inr (by rw [hsender]; rfl)),
      h.neverClosed, ?_, ?_, h.settled⟩
    · intro other hother
      obtain rfl := Option.some.inj hother
      rw [hclosed, hcapacity]
      exact hopened
    · rw [← h.fifo]
      simp [HookDispatcher.deliveries, HookDispatcher.waiting, HookDispatcher.take_delivery, hworker,
        hsender, hwaiting]
    · rw [h.handed]
      simp [HookDispatcher.deliveries, HookDispatcher.take_delivery, hworker, Delivery.calls]
  · cases hstep

/-- A step without a panic keeps the worker serving. -/
theorem Serving.step (h : Serving env dispatcher) {action : HookAction Flow Value Hook} (hcalm : action.panics = false)
    (hstep : dispatcher.step env action = some next) : Serving env next := by
  have hsound := h.sound
  have hold : ∀ {worker : HookWorker Flow Value Hook}, dispatcher.worker = worker →
      dispatcher.worker.delivery = worker.delivery := fun hworker => congrArg _ hworker
  cases action with
  | push hook =>
    cases hstep
    exact h.push hook
  | submit event => exact h.submit hstep
  | send submission => exact h.send hstep
  | recv => exact h.recv hstep
  | decoded =>
    simp only [HookDispatcher.step] at hstep
    split at hstep
    · next delivery exchange hworker =>
      cases hstep
      rw [hworker] at hsound
      obtain ⟨htaken, hprocess, hfresh⟩ := hsound
      have hprepared : delivery.taken.prepared env = .httpExchange (decodeExchange env exchange) := by
        rw [htaken, HookEvent.prepared, workerStep, if_pos hprocess]
      exact h.move _ (hold hworker) rfl ⟨hprepared.symm, hfresh⟩ rfl rfl rfl
    · cases hstep
  | decodeFailed =>
    simp only [HookDispatcher.step] at hstep
    split at hstep
    · next delivery exchange hworker =>
      cases hstep
      rw [hworker] at hsound
      obtain ⟨htaken, hprocess, hfresh⟩ := hsound
      exact h.ended (hold hworker) (.inl ⟨rfl, hfresh.notAsked, exchange, htaken, hprocess⟩) rfl rfl rfl
    · cases hstep
  | snapshot =>
    simp only [HookDispatcher.step] at hstep
    split at hstep
    · next delivery event hworker =>
      cases hstep
      rw [hworker] at hsound
      obtain ⟨hprepared, hfresh⟩ := hsound
      have hasking : ({ delivery with snapshot := dispatcher.hooks } : Delivery Flow Value Hook).Asking env event
          dispatcher.hooks.zipIdx := by
        refine ⟨hprepared, hfresh.notFailed, hfresh.registered, ?_, ?_⟩
        · rw [hfresh.notAsked]
          exact Nat.zero_le _
        · rw [hfresh.notAsked]
          rfl
      exact h.move _ (hold hworker) rfl hasking rfl rfl rfl
    · cases hstep
  | ask interest =>
    simp only [HookDispatcher.step] at hstep
    split at hstep
    · next delivery event hook hookIndex remaining lastError hworker =>
      rw [hworker] at hsound
      have hnext := fun answer => Delivery.Asking.next hsound answer
      cases interest with
      | skip =>
        cases hstep
        exact h.move _ (hold hworker) rfl (hnext false) rfl rfl delivery.calls_skip
      | observe =>
        cases hstep
        have hcalls := @Delivery.calls_observe Flow Value Hook env delivery
        rw [← Delivery.Asking.first hsound, ← Delivery.Asking.prepared hsound] at hcalls
        exact h.advance (hold hworker) rfl (hnext true) rfl rfl hcalls
      | panic => cases hcalm
    · cases hstep
  | reply reply =>
    simp only [HookDispatcher.step] at hstep
    split at hstep
    · next delivery event remaining lastError hworker =>
      rw [hworker] at hsound
      cases reply with
      | ok =>
        cases hstep
        exact h.move _ (hold hworker) rfl hsound rfl rfl rfl
      | failed error =>
        cases hstep
        exact h.move _ (hold hworker) rfl hsound rfl rfl rfl
      | panic => cases hcalm
    · cases hstep
  | finish =>
    simp only [HookDispatcher.step] at hstep
    split at hstep
    · next delivery event lastError hworker =>
      cases hstep
      rw [hworker] at hsound
      exact h.ended (hold hworker) (Delivery.Asking.settled hsound) rfl rfl rfl
    · cases hstep

end Serving

section Guarantee

/-- One call comes before another: an earlier event, or an earlier hook of the same event. -/
def HookCall.Before (call call' : HookCall Flow Value) : Prop :=
  call.ticket < call'.ticket ∨ call.ticket = call'.ticket ∧ call.hookIndex < call'.hookIndex

/-- What the hooks can rely on. -/
structure Isolated (env : DecodingEnv Value) (dispatcher : HookDispatcher Flow Value Hook) : Prop where
  bounded : dispatcher.waiting.length ≤ dispatcher.queueCapacity
  neverClosed : ∀ answer ∈ dispatcher.answers, answer.2 ≠ .closed
  inOrder : dispatcher.deliveries.map (fun delivery => (delivery.ticket, delivery.taken)) ++ dispatcher.waiting =
    enqueued dispatcher.answers
  settled : ∀ delivery ∈ dispatcher.finished, delivery.Settled
  handed : dispatcher.calls = dispatcher.deliveries.flatMap (Delivery.calls env)
  once : dispatcher.calls.Pairwise HookCall.Before
  acceptedOnly : ∀ call ∈ dispatcher.calls, ∃ event,
    dispatcher.answers[call.ticket]? = some (event, .enqueued) ∧ call.event = event.prepared env
  reached : ∀ delivery ∈ dispatcher.finished, delivery.decodeFailed = false →
    ∀ hookIndex < delivery.registered.length, ∃ interested, delivery.interested[hookIndex]? = some interested ∧
      ((∃ call ∈ dispatcher.calls, call.ticket = delivery.ticket ∧ call.hookIndex = hookIndex) ↔ interested = true)

variable {dispatcher : HookDispatcher Flow Value Hook}

theorem Delivery.calls_ordered (delivery : Delivery Flow Value Hook) :
    (delivery.calls env).Pairwise HookCall.Before := by
  have hpositions : (delivery.interested.zipIdx.filter Prod.fst).Pairwise (fun a b => a.2 < b.2) := by
    have hrange : (delivery.interested.zipIdx.map Prod.snd).Pairwise (· < ·) := by
      rw [List.zipIdx_map_snd]
      exact List.pairwise_lt_range'
    exact (List.pairwise_map.mp hrange).filter _
  rw [Delivery.calls, List.pairwise_map]
  exact hpositions.imp (fun hlt => .inr ⟨rfl, hlt⟩)

theorem Serving.tickets_ordered (h : Serving env dispatcher) :
    (dispatcher.deliveries.map Delivery.ticket).Pairwise (· < ·) := by
  have hall := enqueued_ordered dispatcher.answers
  rw [← h.fifo, List.map_append, List.map_map] at hall
  exact (List.pairwise_append.mp hall).1

theorem Serving.mem_calls (h : Serving env dispatcher) {call : HookCall Flow Value} :
    call ∈ dispatcher.calls ↔ ∃ delivery ∈ dispatcher.deliveries, call ∈ delivery.calls env := by
  rw [h.handed, List.mem_flatMap]

theorem Serving.isolated (h : Serving env dispatcher) : Isolated env dispatcher where
  bounded := by
    rw [HookDispatcher.waiting]
    cases hsender : dispatcher.sender with
    | none => exact Nat.zero_le _
    | some channel =>
      rw [← (h.opened channel hsender).2]
      exact channel.bounded
  neverClosed := h.neverClosed
  inOrder := h.fifo
  settled := h.settled
  handed := h.handed
  once := by
    rw [h.handed, List.pairwise_flatMap]
    refine ⟨fun delivery _ => delivery.calls_ordered, ?_⟩
    refine (List.pairwise_map.mp h.tickets_ordered).imp ?_
    intro delivery delivery' hlt call hcall call' hcall'
    left
    rw [(Delivery.mem_calls.mp hcall).1, (Delivery.mem_calls.mp hcall').1]
    exact hlt
  acceptedOnly := by
    intro call hcall
    obtain ⟨delivery, hmem, hdelivery⟩ := h.mem_calls.mp hcall
    obtain ⟨hticket, -, hevent⟩ := Delivery.mem_calls.mp hdelivery
    refine ⟨delivery.taken, ?_, hevent⟩
    rw [hticket]
    apply mem_enqueued
    rw [← h.fifo]
    exact List.mem_append_left _ (List.mem_map_of_mem hmem)
  reached := by
    intro delivery hfinished hdecoded hookIndex hindex
    have hmem : delivery ∈ dispatcher.deliveries := List.mem_append_left _ hfinished
    have hlength : hookIndex < delivery.interested.length := by
      rcases h.settled delivery hfinished with hfailed | ⟨-, hregistered, hasked⟩
      · rw [hdecoded] at hfailed
        cases hfailed.1
      · rw [hasked]
        exact Nat.lt_of_lt_of_le hindex hregistered.length_le
    refine ⟨delivery.interested[hookIndex], List.getElem?_eq_getElem hlength, ?_⟩
    constructor
    · rintro ⟨call, hcall, hticket, rfl⟩
      obtain ⟨other, hother, hdelivery⟩ := h.mem_calls.mp hcall
      obtain ⟨hticket', hanswer, -⟩ := Delivery.mem_calls.mp hdelivery
      have hnodup : (dispatcher.deliveries.map Delivery.ticket).Nodup := h.tickets_ordered.imp (Nat.ne_of_lt ·)
      obtain rfl := List.inj_on_of_nodup_map hnodup hother hmem (hticket'.symm.trans hticket)
      exact Option.some.inj ((List.getElem?_eq_getElem hlength).symm.trans hanswer)
    · intro hinterested
      refine ⟨⟨delivery.ticket, hookIndex, delivery.taken.prepared env⟩, h.mem_calls.mpr ⟨delivery, hmem, ?_⟩, rfl, rfl⟩
      exact Delivery.mem_calls.mpr ⟨rfl, (List.getElem?_eq_getElem hlength).trans (congrArg some hinterested), rfl⟩

end Guarantee
end Abyss.Mitm.Hook
