import Abyss.Mitm.WebSocket.Loop

/-! Faithfulness of the WebSocket relay: what each side receives, what the hooks are given
and what is counted, for every order of turns and every failing send. -/
namespace Abyss.Mitm.WebSocket
open Abyss.Mitm.Http Abyss.System
variable {Flow : Type}

section History

/-- The messages read in one direction. -/
def messagesOf (direction : WebSocketDirection) (seen : List (WebSocketDirection × Option Message)) : List Message :=
  seen.filterMap (fun entry => if entry.1 = direction then entry.2 else none)

def totalLen (messages : List Message) : Nat := (messages.map Message.len).sum

/-- A read behind which the loop goes on. -/
def continues (entry : WebSocketDirection × Option Message) : Bool := entry.2.any (fun message => !message.isClose)

/-- The hook messages of a sequence of reads: one for each payload message, numbered by its place in the read order. -/
def hookLog (tunnel : Tunnel Flow) (seen : List (WebSocketDirection × Option Message)) : List (WebSocketMessage Flow) :=
  (seen.zipIdx 1).filterMap (fun numbered =>
    numbered.1.2.bind (hookMessageFromWebsocket tunnel numbered.1.1 numbered.2))

def scripted (events : List ReadEvent) : List Message :=
  events.filterMap (fun event => match event with
    | .message message => some message
    | .failed _ => none)

variable (seen : List (WebSocketDirection × Option Message)) (direction : WebSocketDirection)

theorem messagesOf_note (message : Message) :
    messagesOf direction (seen ++ [(direction, some message)]) = messagesOf direction seen ++ [message] := by
  simp [messagesOf]

theorem messagesOf_other {direction other : WebSocketDirection} (h : other ≠ direction) (message : Option Message) :
    messagesOf direction (seen ++ [(other, message)]) = messagesOf direction seen := by
  simp [messagesOf, h]

theorem messagesOf_end (other : WebSocketDirection) :
    messagesOf direction (seen ++ [(other, none)]) = messagesOf direction seen := by
  simp [messagesOf]

theorem hookLog_concat (tunnel : Tunnel Flow) (entry : WebSocketDirection × Option Message) :
    hookLog tunnel (seen ++ [entry]) =
      hookLog tunnel seen ++ (entry.2.bind (hookMessageFromWebsocket tunnel entry.1 (seen.length + 1))).toList := by
  rw [hookLog, hookLog, List.zipIdx_append, List.filterMap_append, Nat.add_comm 1 seen.length]
  congr 1

theorem totalLen_concat (messages : List Message) (message : Message) :
    totalLen (messages ++ [message]) = totalLen messages + message.len := by simp [totalLen]

theorem sequence_of_hook {tunnel : Tunnel Flow} {sequence : Nat} {message : Message} {hookMessage : WebSocketMessage Flow}
    (h : hookMessageFromWebsocket tunnel direction sequence message = some hookMessage) :
    hookMessage.sequence = sequence ∧ hookMessage.direction = direction := by
  cases message <;> cases h <;> exact ⟨rfl, rfl⟩

/-- Sequence numbers increase along the reads. -/
theorem hookLog_increasing (tunnel : Tunnel Flow) :
    ((hookLog tunnel seen).map WebSocketMessage.sequence).Pairwise (· < ·) := by
  have hbound : ((hookLog tunnel seen).map WebSocketMessage.sequence).Pairwise (· < ·) ∧
      ∀ n ∈ (hookLog tunnel seen).map WebSocketMessage.sequence, n ≤ seen.length := by
    induction seen using List.reverseRecOn with
    | nil => exact ⟨List.Pairwise.nil, by simp [hookLog]⟩
    | append_singleton front entry ih =>
      obtain ⟨hincreasing, hbounded⟩ := ih
      rw [hookLog_concat]
      cases hentry : entry.2.bind (hookMessageFromWebsocket tunnel entry.1 (front.length + 1)) with
      | none =>
        rw [Option.toList_none, List.append_nil, List.length_append]
        exact ⟨hincreasing, fun n hn => Nat.le_succ_of_le (hbounded n hn)⟩
      | some hookMessage =>
        obtain ⟨message, -, hhook⟩ := Option.bind_eq_some_iff.mp hentry
        have hsequence := (sequence_of_hook entry.1 hhook).1
        rw [Option.toList_some, List.map_append, List.map_singleton, hsequence, List.length_append]
        refine ⟨List.pairwise_append.mpr ⟨hincreasing, List.pairwise_singleton _ _, ?_⟩, ?_⟩
        · intro n hn m hm
          rw [List.mem_singleton.mp hm]
          exact Nat.lt_succ_of_le (hbounded n hn)
        · intro n hn
          rcases List.mem_append.mp hn with hn | hn
          · exact Nat.le_succ_of_le (hbounded n hn)
          · rw [List.mem_singleton.mp hn]
            exact Nat.le_refl _
  exact hbound.1

end History
section Faithfulness
variable (tunnel : Tunnel Flow) (streams : WebSocketDirection → List ReadEvent) (loop : RelayLoop Flow)

/-- The loop goes on: everything it read was payload or control, and all of it was passed on. -/
structure Running : Prop where
  continuing : ∀ entry ∈ loop.seen, continues entry = true
  sequence : loop.sequence = loop.seen.length
  sent : ∀ direction, loop.sent direction = messagesOf direction loop.seen
  bytes : ∀ direction, loop.bytes direction = totalLen (messagesOf direction loop.seen)
  submitted : loop.submitted.map Prod.fst = hookLog tunnel loop.seen
  streams : ∀ direction, streams direction =
    (messagesOf direction loop.seen).map ReadEvent.message ++ loop.remaining direction

/-- The stream of one side is at its end, or broke off as a departing Agent leaves it. -/
def Ended (direction : WebSocketDirection) : Prop :=
  streams direction = (messagesOf direction loop.seen).map ReadEvent.message ∨
  ∃ source rest, isAgentStreamEnd direction source = true ∧
    streams direction = (messagesOf direction loop.seen).map ReadEvent.message ++ .failed source :: rest

/-- The loop ended at the first close message, which was passed on, or at the first end of a stream. -/
structure Stopped (outcome : WebSocketRelayOutcome) : Prop where
  first : ∃ front last, loop.seen = front ++ [last] ∧ (∀ entry ∈ front, continues entry = true) ∧
    continues last = false ∧ (last.2 = none → Ended streams loop last.1)
  sent : ∀ direction, loop.sent direction = messagesOf direction loop.seen
  outcome : outcome = ⟨totalLen (messagesOf .clientToServer loop.seen), totalLen (messagesOf .serverToClient loop.seen)⟩
  submitted : loop.submitted.map Prod.fst = hookLog tunnel loop.seen
  streams : ∀ direction, (messagesOf direction loop.seen).map ReadEvent.message <+: streams direction

/-- The loop failed: at most the last message it read was not passed on. A counter fails only where it is exhausted. -/
structure Failed (error : TransparentFlowError) : Prop where
  front : ∃ front more, loop.seen = front ++ more ∧ more.length ≤ 1 ∧ (∀ entry ∈ front, continues entry = true) ∧
    (∀ direction, messagesOf direction front <+: loop.sent direction ∧
      loop.sent direction <+: messagesOf direction loop.seen) ∧
    hookLog tunnel front <+: loop.submitted.map Prod.fst ∧
    (error ≠ .byteCountOverflow → loop.submitted.map Prod.fst = hookLog tunnel loop.seen)
  cause : (∃ operation source, error = .webSocket operation source) ∨ error = .byteCountOverflow ∧
    (u64Bound ≤ loop.seen.length ∨ ∃ direction, u64Bound ≤ totalLen (scripted (streams direction)))
  submitted : loop.submitted.map Prod.fst <+: hookLog tunnel loop.seen
  streams : ∀ direction, (messagesOf direction loop.seen).map ReadEvent.message <+: streams direction

def Faithful : Prop :=
  match loop.result with
  | none => Running tunnel streams loop
  | some (.ok outcome) => Stopped tunnel streams loop outcome
  | some (.error error) => Failed tunnel streams loop error

variable {tunnel streams loop}

theorem scripted_append (events more : List ReadEvent) : scripted (events ++ more) = scripted events ++ scripted more :=
  List.filterMap_append

theorem scripted_messages (messages : List Message) : scripted (messages.map ReadEvent.message) = messages := by
  induction messages with
  | nil => rfl
  | cons message rest ih => exact congrArg (message :: ·) ih

theorem totalLen_le {messages : List Message} {events : List ReadEvent}
    (h : messages.map ReadEvent.message <+: events) : totalLen messages ≤ totalLen (scripted events) := by
  obtain ⟨more, rfl⟩ := h
  rw [scripted_append, scripted_messages, totalLen, totalLen, List.map_append, List.sum_append]
  exact Nat.le_add_right _ _

theorem addLen_error {left right : Nat} {e : TransparentFlowError} (h : addLen left right = .error e) :
    e = .byteCountOverflow ∧ u64Bound ≤ left + right := by
  unfold addLen at h
  split at h
  · cases h
  · next hle => exact ⟨(Except.error.inj h).symm, Nat.le_of_not_lt hle⟩

theorem usizeToU64_error {value : Nat} {e : TransparentFlowError} (h : usizeToU64 value = .error e) :
    e = .byteCountOverflow ∧ u64Bound ≤ value := by
  unfold usizeToU64 at h
  split at h
  · cases h
  · next hle => exact ⟨(Except.error.inj h).symm, Nat.le_of_not_lt hle⟩

/-- A message was read and submitted, and is about to be sent. -/
structure Pending (tunnel : Tunnel Flow) (streams : WebSocketDirection → List ReadEvent) (loop : RelayLoop Flow)
    (front : List (WebSocketDirection × Option Message)) (direction : WebSocketDirection) (message : Message) : Prop where
  seen : loop.seen = front ++ [(direction, some message)]
  continuing : ∀ entry ∈ front, continues entry = true
  sequence : loop.sequence = loop.seen.length
  sent : ∀ direction, loop.sent direction = messagesOf direction front
  bytes : ∀ direction, loop.bytes direction = totalLen (messagesOf direction front)
  submitted : loop.submitted.map Prod.fst = hookLog tunnel loop.seen
  streams : ∀ direction, streams direction =
    (messagesOf direction loop.seen).map ReadEvent.message ++ loop.remaining direction

theorem messagesOf_mono (direction : WebSocketDirection) (front more : List (WebSocketDirection × Option Message)) :
    messagesOf direction front <+: messagesOf direction (front ++ more) := by
  rw [messagesOf, messagesOf, List.filterMap_append]
  exact List.prefix_append ..

theorem hookLog_mono (tunnel : Tunnel Flow) (front more : List (WebSocketDirection × Option Message)) :
    hookLog tunnel front <+: hookLog tunnel (front ++ more) := by
  rw [hookLog, hookLog, List.zipIdx_append, List.filterMap_append]
  exact List.prefix_append ..

section Sending
variable {front : List (WebSocketDirection × Option Message)} {direction : WebSocketDirection} {message : Message}

theorem Pending.streams_front (h : Pending tunnel streams loop front direction message) (other : WebSocketDirection) :
    (messagesOf other loop.seen).map ReadEvent.message <+: streams other :=
  ⟨loop.remaining other, (h.streams other).symm⟩

/-- What is sent in the direction of the message, and what stays in the other. -/
theorem Pending.sent_update (h : Pending tunnel streams loop front direction message) (other : WebSocketDirection) :
    Function.update loop.sent direction (loop.sent direction ++ [message]) other = messagesOf other loop.seen := by
  rw [h.seen]
  by_cases heq : other = direction
  · subst heq
    rw [Function.update_self, h.sent, messagesOf_note]
  · rw [Function.update_of_ne heq, h.sent, messagesOf_other front (Ne.symm heq)]

theorem Pending.bytes_update (h : Pending tunnel streams loop front direction message) (other : WebSocketDirection) :
    Function.update loop.bytes direction (loop.bytes direction + message.len) other =
      totalLen (messagesOf other loop.seen) := by
  rw [h.seen]
  by_cases heq : other = direction
  · subst heq
    rw [Function.update_self, h.bytes, messagesOf_note, totalLen_concat]
  · rw [Function.update_of_ne heq, h.bytes, messagesOf_other front (Ne.symm heq)]

theorem Pending.failed (h : Pending tunnel streams loop front direction message) (source : WebSocketError) :
    Faithful tunnel streams (loop.fail (.webSocket direction.writeOperation source)) where
  front := by
    refine ⟨front, [(direction, some message)], h.seen, Nat.le_refl _, h.continuing, ?_, ?_, fun _ => h.submitted⟩
    · intro other
      change messagesOf other front <+: loop.sent other ∧ loop.sent other <+: messagesOf other loop.seen
      rw [h.sent, h.seen]
      exact ⟨List.prefix_refl _, messagesOf_mono other front _⟩
    · change hookLog tunnel front <+: loop.submitted.map Prod.fst
      rw [h.submitted, h.seen]
      exact hookLog_mono tunnel front _
  cause := .inl ⟨_, _, rfl⟩
  submitted := by
    change loop.submitted.map Prod.fst <+: hookLog tunnel loop.seen
    exact h.submitted ▸ List.prefix_refl _
  streams := h.streams_front

theorem Pending.counted (h : Pending tunnel streams loop front direction message) (hresult : loop.result = none) :
    Faithful tunnel streams (loop.send direction message message.len (.ok ())) := by
  unfold RelayLoop.send RelayLoop.count
  simp only
  split
  · next e hoverflow =>
    obtain ⟨rfl, hbound⟩ := addLen_error hoverflow
    refine ⟨⟨front, [(direction, some message)], h.seen, Nat.le_refl _, h.continuing, ?_, ?_, ?_⟩, ?_, ?_, h.streams_front⟩
    · intro other
      change messagesOf other front <+: Function.update loop.sent direction _ other ∧
        Function.update loop.sent direction _ other <+: messagesOf other loop.seen
      rw [h.sent_update, h.seen]
      exact ⟨messagesOf_mono other front _, List.prefix_refl _⟩
    · change hookLog tunnel front <+: loop.submitted.map Prod.fst
      rw [h.submitted, h.seen]
      exact hookLog_mono tunnel front _
    · exact fun hne => absurd rfl hne
    · refine .inr ⟨rfl, .inr ⟨direction, ?_⟩⟩
      have htotal := h.bytes_update direction
      rw [Function.update_self] at htotal
      rw [htotal] at hbound
      exact Nat.le_trans hbound (totalLen_le (h.streams_front direction))
    · change loop.submitted.map Prod.fst <+: hookLog tunnel loop.seen
      exact h.submitted ▸ List.prefix_refl _
  · next total htotal =>
    obtain ⟨rfl, -⟩ := addLen_ok htotal
    split
    · next hclose =>
      refine ⟨⟨front, (direction, some message), h.seen, h.continuing, ?_, ?_⟩, h.sent_update, ?_, h.submitted,
        h.streams_front⟩
      · simp [continues, hclose]
      · exact fun hnone => by cases hnone
      · exact congrArg₂ WebSocketRelayOutcome.mk (h.bytes_update .clientToServer) (h.bytes_update .serverToClient)
    · next hopen =>
      simp only [Faithful, hresult]
      refine ⟨?_, h.sequence, h.sent_update, h.bytes_update, h.submitted, h.streams⟩
      intro entry hmem
      rw [h.seen] at hmem
      rcases List.mem_append.mp hmem with hmem | hmem
      · exact h.continuing entry hmem
      · rw [List.mem_singleton.mp hmem]
        simpa [continues] using hopen

end Sending

section Reading
variable {direction : WebSocketDirection}

theorem Running.streams_front (h : Running tunnel streams loop) (other : WebSocketDirection) :
    (messagesOf other loop.seen).map ReadEvent.message <+: streams other :=
  ⟨loop.remaining other, (h.streams other).symm⟩

/-- The loop ends at an end of a stream. -/
theorem Running.ended (h : Running tunnel streams loop) (rest : List ReadEvent)
    (hended : Ended streams loop direction) :
    Faithful tunnel streams ((loop.consume direction rest).note direction none).finish where
  first := by
    refine ⟨loop.seen, (direction, none), rfl, h.continuing, rfl, fun _ => ?_⟩
    have hseen : messagesOf direction (loop.seen ++ [(direction, none)]) = messagesOf direction loop.seen :=
      messagesOf_end loop.seen direction direction
    unfold Ended at hended ⊢
    change streams direction = (messagesOf direction (loop.seen ++ [(direction, none)])).map ReadEvent.message ∨
      ∃ source rest, isAgentStreamEnd direction source = true ∧ streams direction =
        (messagesOf direction (loop.seen ++ [(direction, none)])).map ReadEvent.message ++ .failed source :: rest
    rw [hseen]
    exact hended
  sent := by
    intro other
    exact (h.sent other).trans (messagesOf_end loop.seen other direction).symm
  outcome := by
    change (⟨loop.bytes _, loop.bytes _⟩ : WebSocketRelayOutcome) = ⟨totalLen (messagesOf _ (loop.seen ++ [(direction, none)])),
      totalLen (messagesOf _ (loop.seen ++ [(direction, none)]))⟩
    rw [messagesOf_end, messagesOf_end, h.bytes, h.bytes]
  submitted := by
    change loop.submitted.map Prod.fst = hookLog tunnel (loop.seen ++ [(direction, none)])
    rw [hookLog_concat, h.submitted]
    exact (List.append_nil _).symm
  streams := by
    intro other
    change (messagesOf other (loop.seen ++ [(direction, none)])).map ReadEvent.message <+: streams other
    rw [messagesOf_end]
    exact h.streams_front other

/-- The loop fails before it has read a message. -/
theorem Running.broken (h : Running tunnel streams loop) (rest : List ReadEvent) {error : TransparentFlowError}
    (hcause : (∃ operation source, error = .webSocket operation source) ∨ error = .byteCountOverflow ∧
      (u64Bound ≤ loop.seen.length ∨ ∃ direction, u64Bound ≤ totalLen (scripted (streams direction)))) :
    Faithful tunnel streams ((loop.consume direction rest).fail error) where
  front := by
    refine ⟨loop.seen, [], (List.append_nil _).symm, Nat.zero_le _, h.continuing, ?_, ?_, fun _ => h.submitted⟩
    · intro other
      change messagesOf other loop.seen <+: loop.sent other ∧ loop.sent other <+: messagesOf other loop.seen
      rw [h.sent]
      exact ⟨List.prefix_refl _, List.prefix_refl _⟩
    · change hookLog tunnel loop.seen <+: loop.submitted.map Prod.fst
      exact h.submitted ▸ List.prefix_refl _
  cause := hcause
  submitted := by
    change loop.submitted.map Prod.fst <+: hookLog tunnel loop.seen
    exact h.submitted ▸ List.prefix_refl _
  streams := h.streams_front

section Message
variable {message : Message} {rest : List ReadEvent}

/-- Reading a message moves it from the stream to what was seen. -/
theorem Running.streams_note (h : Running tunnel streams loop) (hread : loop.remaining direction = .message message :: rest)
    (other : WebSocketDirection) : streams other =
      (messagesOf other (loop.seen ++ [(direction, some message)])).map ReadEvent.message ++
        Function.update loop.remaining direction rest other := by
  rw [h.streams other]
  by_cases heq : other = direction
  · subst heq
    rw [messagesOf_note, Function.update_self, hread, List.map_append, List.append_assoc]
    rfl
  · rw [messagesOf_other loop.seen (Ne.symm heq), Function.update_of_ne heq]

/-- The message is numbered by its place among the reads. -/
theorem Running.submit (h : Running tunnel streams loop) (hread : loop.remaining direction = .message message :: rest)
    {next : RelayLoop Flow}
    (hsubmit : ((loop.consume direction rest).note direction (some message)).submitHookMessage tunnel direction message =
      .ok next) : Pending tunnel streams next loop.seen direction message ∧ next.result = loop.result := by
  unfold RelayLoop.submitHookMessage at hsubmit
  split at hsubmit
  · cases hsubmit
  · next sequence hsequence =>
    obtain ⟨hnumber, -⟩ := addLen_ok hsequence
    have hlength : sequence = loop.seen.length + 1 := hnumber.trans (congrArg (· + 1) h.sequence)
    have hlog : hookLog tunnel (loop.seen ++ [(direction, some message)]) = loop.submitted.map Prod.fst ++
        (hookMessageFromWebsocket tunnel direction sequence message).toList := by
      rw [hookLog_concat, h.submitted, hlength]
      rfl
    have hseen : sequence = (loop.seen ++ [(direction, some message)]).length := by
      rw [hlength, List.length_append, List.length_singleton]
    split at hsubmit
    · next hnone =>
      obtain rfl := Except.ok.inj hsubmit
      refine ⟨⟨rfl, h.continuing, hseen, h.sent, h.bytes, ?_, h.streams_note hread⟩, rfl⟩
      rw [hnone] at hlog
      exact (hlog.trans (List.append_nil _)).symm
    · next hookMessage hsome =>
      obtain rfl := Except.ok.inj hsubmit
      refine ⟨⟨rfl, h.continuing, hseen, h.sent, h.bytes, ?_, h.streams_note hread⟩, rfl⟩
      rw [hsome] at hlog
      rw [List.map_append]
      exact hlog.symm

theorem Running.unnumbered (h : Running tunnel streams loop) (hread : loop.remaining direction = .message message :: rest)
    {error : TransparentFlowError}
    (hsubmit : ((loop.consume direction rest).note direction (some message)).submitHookMessage tunnel direction message =
      .error error) :
    Faithful tunnel streams (((loop.consume direction rest).note direction (some message)).fail error) := by
  unfold RelayLoop.submitHookMessage at hsubmit
  split at hsubmit
  · next e hoverflow =>
    obtain rfl := Except.error.inj hsubmit
    obtain ⟨rfl, hbound⟩ := addLen_error hoverflow
    have hlength : u64Bound ≤ (loop.seen ++ [(direction, some message)]).length := by
      rw [List.length_append, List.length_singleton, ← h.sequence]
      exact hbound
    refine ⟨⟨loop.seen, [(direction, some message)], rfl, Nat.le_refl _, h.continuing, ?_, ?_, ?_⟩, .inr ⟨rfl, .inl hlength⟩,
      ?_, ?_⟩
    · intro other
      change messagesOf other loop.seen <+: loop.sent other ∧
        loop.sent other <+: messagesOf other (loop.seen ++ [(direction, some message)])
      rw [h.sent]
      exact ⟨List.prefix_refl _, messagesOf_mono other loop.seen _⟩
    · change hookLog tunnel loop.seen <+: loop.submitted.map Prod.fst
      exact h.submitted ▸ List.prefix_refl _
    · exact fun hne => absurd rfl hne
    · change loop.submitted.map Prod.fst <+: hookLog tunnel (loop.seen ++ [(direction, some message)])
      rw [h.submitted]
      exact hookLog_mono tunnel loop.seen _
    · intro other
      exact ⟨_, (h.streams_note hread other).symm⟩
  · split at hsubmit <;> cases hsubmit

end Message

/-- One turn of the loop keeps it faithful. -/
theorem Running.turn (h : Running tunnel streams loop) (hresult : loop.result = none) (direction : WebSocketDirection)
    (sending : Except WebSocketError Unit) : Faithful tunnel streams (loop.turn tunnel direction sending) := by
  unfold RelayLoop.turn
  split
  · next hend =>
    have hended : Ended streams loop direction := .inl (by rw [h.streams, hend, List.append_nil])
    have hsame : loop.consume direction [] = loop := by
      rw [RelayLoop.consume, ← hend, Function.update_eq_self]
    have hfaithful := h.ended [] hended
    rw [hsame] at hfaithful
    exact hfaithful
  · next source rest hread =>
    split
    · next hagent =>
      exact h.ended rest (.inr ⟨source, rest, hagent, by rw [h.streams, hread]⟩)
    · exact h.broken rest (.inl ⟨_, _, rfl⟩)
  · next message rest hread =>
    split
    · next e hoverflow =>
      obtain ⟨rfl, hbound⟩ := usizeToU64_error hoverflow
      refine h.broken rest (.inr ⟨rfl, .inr ⟨direction, Nat.le_trans hbound ?_⟩⟩)
      rw [h.streams, hread, scripted_append, totalLen, List.map_append, List.sum_append]
      apply Nat.le_trans _ (Nat.le_add_left _ _)
      change message.len ≤ ((message :: scripted rest).map Message.len).sum
      rw [List.map_cons, List.sum_cons]
      exact Nat.le_add_right _ _
    · next payloadBytes hpayload =>
      obtain ⟨rfl, -⟩ := usizeToU64_ok hpayload
      unfold RelayLoop.forward
      split
      · next hsubmit => exact h.unnumbered hread hsubmit
      · next next hsubmit =>
        obtain ⟨hpending, hnext⟩ := h.submit hread hsubmit
        cases sending with
        | error source => exact hpending.failed source
        | ok _ => exact hpending.counted (hnext.trans hresult)

end Reading
end Faithfulness
section Dispatching

/-- The messages that the queue to the hooks accepted, in the order of submission. -/
def accepted (loop : RelayLoop Flow) : List (WebSocketMessage Flow) :=
  (loop.submitted.filter (fun entry => entry.2 == .enqueued)).map Prod.fst

/-- The hooks have received a front of the accepted messages; the queue of a running worker holds the rest. -/
structure Dispatched (loop : RelayLoop Flow) : Prop where
  delivered : loop.hooks.delivered <+: accepted loop
  queued : loop.hooks.workerRuns = true → loop.hooks.delivered ++ loop.hooks.queue.filterMap id = accepted loop

variable {tunnel : Tunnel Flow} {loop : RelayLoop Flow}

theorem Dispatched.submit (h : Dispatched loop) {next : RelayLoop Flow} {hookMessage : WebSocketMessage Flow}
    (hhooks : next.hooks = (loop.hooks.submitEvent (some hookMessage)).2)
    (hsubmitted : next.submitted = loop.submitted ++ [(hookMessage, (loop.hooks.submitEvent (some hookMessage)).1)]) :
    Dispatched next := by
  have hother : ∀ status, status ≠ .enqueued → loop.hooks.submitEvent (some hookMessage) = (status, loop.hooks) →
      Dispatched next := by
    intro status hstatus hevent
    rw [hevent] at hhooks hsubmitted
    have hsame : accepted next = accepted loop := by
      have hskip : ((hookMessage, status).2 == HookDispatchStatus.enqueued) = false := by simpa using hstatus
      rw [accepted, hsubmitted, List.filter_append, List.filter_cons_of_neg (by simp [hskip]), List.filter_nil,
        List.append_nil]
      rfl
    refine ⟨?_, ?_⟩
    · rw [hhooks, hsame]
      exact h.delivered
    · rw [hhooks, hsame]
      exact h.queued
  by_cases hhas : loop.hooks.hasHooks = true
  · by_cases hruns : loop.hooks.workerRuns = true
    · by_cases hfull : loop.hooks.queueCapacity ≤ loop.hooks.queue.length
      · exact hother .dropped (by decide) (by simp [HookDispatcher.submitEvent, hhas, hruns, hfull])
      · have hevent : loop.hooks.submitEvent (some hookMessage) =
            (.enqueued, { loop.hooks with queue := loop.hooks.queue ++ [some hookMessage] }) := by
          simp [HookDispatcher.submitEvent, hhas, hruns, hfull]
        rw [hevent] at hhooks hsubmitted
        have hmore : accepted next = accepted loop ++ [hookMessage] := by
          rw [accepted, hsubmitted, List.filter_append, List.map_append]
          rfl
        refine ⟨?_, fun _ => ?_⟩
        · rw [hhooks, hmore]
          exact h.delivered.trans (List.prefix_append ..)
        · rw [hhooks, hmore, ← h.queued hruns, List.filterMap_append, List.append_assoc]
          rfl
    · exact hother .closed (by decide) (by simp [HookDispatcher.submitEvent, hhas, hruns])
  · exact hother .noHooks (by decide) (by simp [HookDispatcher.submitEvent, hhas])

/-- A turn gives the hooks at most one message. -/
theorem turn_hooks (tunnel : Tunnel Flow) (loop : RelayLoop Flow) (direction : WebSocketDirection)
    (sending : Except WebSocketError Unit) :
    ((loop.turn tunnel direction sending).hooks = loop.hooks ∧
      (loop.turn tunnel direction sending).submitted = loop.submitted) ∨
    ∃ hookMessage, (loop.turn tunnel direction sending).hooks = (loop.hooks.submitEvent (some hookMessage)).2 ∧
      (loop.turn tunnel direction sending).submitted =
        loop.submitted ++ [(hookMessage, (loop.hooks.submitEvent (some hookMessage)).1)] := by
  have hsend : ∀ (l : RelayLoop Flow) (message : Message) (payloadBytes : Nat),
      (l.send direction message payloadBytes sending).hooks = l.hooks ∧
      (l.send direction message payloadBytes sending).submitted = l.submitted := by
    intro l message payloadBytes
    cases sending with
    | error source => exact ⟨rfl, rfl⟩
    | ok _ =>
      simp only [RelayLoop.send, RelayLoop.count]
      split
      · exact ⟨rfl, rfl⟩
      · split <;> exact ⟨rfl, rfl⟩
  unfold RelayLoop.turn
  split
  · exact .inl ⟨rfl, rfl⟩
  · split <;> exact .inl ⟨rfl, rfl⟩
  · split
    · exact .inl ⟨rfl, rfl⟩
    · unfold RelayLoop.forward
      split
      · exact .inl ⟨rfl, rfl⟩
      · next next hsubmit =>
        obtain ⟨hhooks, hsubmitted⟩ := hsend next _ _
        rw [hhooks, hsubmitted]
        unfold RelayLoop.submitHookMessage at hsubmit
        split at hsubmit
        · cases hsubmit
        · split at hsubmit
          · obtain rfl := Except.ok.inj hsubmit
            exact .inl ⟨rfl, rfl⟩
          · next hookMessage _ =>
            obtain rfl := Except.ok.inj hsubmit
            exact .inr ⟨hookMessage, rfl, rfl⟩

theorem Dispatched.step (h : Dispatched loop) {action : Action} {next : RelayLoop Flow}
    (hstep : loop.step tunnel action = some next) : Dispatched next := by
  cases action with
  | turn direction sending =>
    simp only [RelayLoop.step] at hstep
    split at hstep
    · cases hstep
    · obtain rfl := Option.some.inj hstep
      rcases turn_hooks tunnel loop direction sending with ⟨hhooks, hsubmitted⟩ | ⟨hookMessage, hhooks, hsubmitted⟩
      · have hsame : accepted (loop.turn tunnel direction sending) = accepted loop := by rw [accepted, hsubmitted]; rfl
        refine ⟨?_, ?_⟩
        · rw [hhooks, hsame]
          exact h.delivered
        · rw [hhooks, hsame]
          exact h.queued
      · exact h.submit hhooks hsubmitted
  | work =>
    obtain ⟨hooks, hwork, rfl⟩ := Option.map_eq_some_iff.mp hstep
    unfold HookDispatcher.work at hwork
    split at hwork
    · next event rest hruns hqueue =>
      obtain rfl := Option.some.inj hwork
      have hqueued := h.queued hruns
      rw [hqueue] at hqueued
      have hmoved : (loop.hooks.delivered ++ event.toList) ++ rest.filterMap id = accepted loop := by
        rw [← hqueued]
        cases event with
        | none => simp
        | some hookMessage => simp
      exact ⟨⟨_, hmoved⟩, fun _ => hmoved⟩
    · cases hwork
  | workerStops =>
    obtain rfl := Option.some.inj hstep
    exact ⟨h.delivered, fun hruns => by cases hruns⟩
  | otherFlow =>
    obtain rfl := Option.some.inj hstep
    have hsame : (loop.hooks.submitEvent none).2.delivered = loop.hooks.delivered ∧
        (loop.hooks.submitEvent none).2.queue.filterMap id = loop.hooks.queue.filterMap id ∧
        (loop.hooks.submitEvent none).2.workerRuns = loop.hooks.workerRuns := by
      unfold HookDispatcher.submitEvent
      split
      · exact ⟨rfl, rfl, rfl⟩
      · split
        · exact ⟨rfl, rfl, rfl⟩
        · split
          · exact ⟨rfl, rfl, rfl⟩
          · exact ⟨rfl, by simp, rfl⟩
    obtain ⟨hdelivered, hqueue, hruns⟩ := hsame
    refine ⟨?_, ?_⟩
    · change (loop.hooks.submitEvent none).2.delivered <+: accepted loop
      rw [hdelivered]
      exact h.delivered
    · intro hrunning
      change (loop.hooks.submitEvent none).2.delivered ++ _ = accepted loop
      rw [hdelivered, hqueue]
      exact h.queued (hruns.symm.trans hrunning)

end Dispatching
section Runs
variable {tunnel : Tunnel Flow} {streams : WebSocketDirection → List ReadEvent} {loop next : RelayLoop Flow} {action : Action}

/-- What the hooks do has no influence on the relay. -/
theorem Faithful.with_hooks (h : Faithful tunnel streams loop) (hooks : HookDispatcher (WebSocketMessage Flow)) :
    Faithful tunnel streams { loop with hooks } := by
  cases hresult : loop.result with
  | none =>
    simp only [Faithful, hresult] at h ⊢
    exact ⟨h.continuing, h.sequence, h.sent, h.bytes, h.submitted, h.streams⟩
  | some result =>
    cases result with
    | ok outcome =>
      simp only [Faithful, hresult] at h ⊢
      exact ⟨h.first, h.sent, h.outcome, h.submitted, h.streams⟩
    | error error =>
      simp only [Faithful, hresult] at h ⊢
      exact ⟨h.front, h.cause, h.submitted, h.streams⟩

theorem Faithful.step (h : Faithful tunnel streams loop) (hstep : loop.step tunnel action = some next) :
    Faithful tunnel streams next := by
  cases action with
  | turn direction sending =>
    simp only [RelayLoop.step] at hstep
    split at hstep
    · cases hstep
    · next hrunning =>
      obtain rfl := Option.some.inj hstep
      have hresult : loop.result = none := by simpa using hrunning
      simp only [Faithful, hresult] at h
      exact h.turn hresult direction sending
  | work =>
    obtain ⟨hooks, -, rfl⟩ := Option.map_eq_some_iff.mp hstep
    exact h.with_hooks hooks
  | workerStops =>
    obtain rfl := Option.some.inj hstep
    exact h.with_hooks _
  | otherFlow =>
    obtain rfl := Option.some.inj hstep
    exact h.with_hooks _

/-- A step in which no send fails. -/
def Action.Sends (action : Action) : Prop := ∀ direction source, action ≠ .turn direction (.error source)

/-- Streams without transport errors are read without errors. -/
structure Clean (loop : RelayLoop Flow) : Prop where
  remaining : ∀ direction source, ReadEvent.failed source ∉ loop.remaining direction
  result : ∀ error, loop.result = some (.error error) → error = .byteCountOverflow

theorem Clean.turn (h : Clean loop) (hresult : loop.result = none) (direction : WebSocketDirection) :
    Clean (loop.turn tunnel direction (.ok ())) := by
  have hnone : ∀ l : RelayLoop Flow, l.result = none → ∀ error, l.result = some (.error error) → error = .byteCountOverflow := by
    intro l hl error herror
    rw [hl] at herror
    cases herror
  have hrest : ∀ event rest, loop.remaining direction = event :: rest → ∀ other source,
      ReadEvent.failed source ∉ Function.update loop.remaining direction rest other := by
    intro event rest hread other source hmem
    by_cases heq : other = direction
    · subst heq
      rw [Function.update_self] at hmem
      exact h.remaining other source (hread ▸ List.mem_cons_of_mem _ hmem)
    · rw [Function.update_of_ne heq] at hmem
      exact h.remaining other source hmem
  have hsend : ∀ (l : RelayLoop Flow) (message : Message) (payloadBytes : Nat), l.result = none →
      (∀ other source, ReadEvent.failed source ∉ l.remaining other) → Clean (l.send direction message payloadBytes (.ok ())) := by
    intro l message payloadBytes hl hremaining
    simp only [RelayLoop.send, RelayLoop.count]
    split
    · next e hoverflow => exact ⟨hremaining, fun error herror => by cases herror; exact (addLen_error hoverflow).1⟩
    · split
      · exact ⟨hremaining, fun error herror => by cases herror⟩
      · exact ⟨hremaining, hnone _ hl⟩
  unfold RelayLoop.turn
  split
  · exact ⟨h.remaining, fun error herror => by cases herror⟩
  · next source rest hread => exact absurd (hread ▸ List.mem_cons_self) (h.remaining direction source)
  · next message rest hread =>
    split
    · next e hoverflow =>
      exact ⟨hrest _ rest hread, fun error herror => by cases herror; exact (usizeToU64_error hoverflow).1⟩
    · unfold RelayLoop.forward
      split
      · next e hsubmit =>
        refine ⟨hrest _ rest hread, fun error herror => ?_⟩
        cases herror
        unfold RelayLoop.submitHookMessage at hsubmit
        split at hsubmit
        · next hoverflow =>
          obtain rfl := Except.error.inj hsubmit
          exact (addLen_error hoverflow).1
        · split at hsubmit <;> cases hsubmit
      · next after hsubmit =>
        have hafter : after.result = none ∧ after.remaining = Function.update loop.remaining direction rest := by
          unfold RelayLoop.submitHookMessage at hsubmit
          split at hsubmit
          · cases hsubmit
          · split at hsubmit <;> obtain rfl := Except.ok.inj hsubmit <;> exact ⟨hresult, rfl⟩
        exact hsend after message _ hafter.1 (by rw [hafter.2]; exact hrest _ rest hread)

theorem Clean.step (haction : action.Sends) (h : Clean loop) (hstep : loop.step tunnel action = some next) : Clean next := by
  cases action with
  | turn direction sending =>
    simp only [RelayLoop.step] at hstep
    split at hstep
    · cases hstep
    · next hrunning =>
      obtain rfl := Option.some.inj hstep
      cases sending with
      | error source => exact absurd rfl (haction direction source)
      | ok _ => exact h.turn (by simpa using hrunning) direction
  | work =>
    obtain ⟨hooks, -, rfl⟩ := Option.map_eq_some_iff.mp hstep
    exact ⟨h.remaining, h.result⟩
  | workerStops =>
    obtain rfl := Option.some.inj hstep
    exact ⟨h.remaining, h.result⟩
  | otherFlow =>
    obtain rfl := Option.some.inj hstep
    exact ⟨h.remaining, h.result⟩

/-- In every run the loop is faithful, the hooks receive what their queue accepted, in read order, and without failing
sends and reads only an exhausted counter can end the loop with an error. -/
theorem relay_faithful (tunnel : Tunnel Flow) (streams : WebSocketDirection → List ReadEvent) (dispatch : Dispatch)
    (actions : List Action) (loop : RelayLoop Flow)
    (h : run (RelayLoop.step tunnel) (RelayLoop.new streams dispatch) actions = some loop) :
    Faithful tunnel streams loop ∧ Dispatched loop ∧
    ((hookLog tunnel loop.seen).map WebSocketMessage.sequence).Pairwise (· < ·) ∧
    ((∀ action ∈ actions, action.Sends) → (∀ direction source, ReadEvent.failed source ∉ streams direction) →
      ∀ error, loop.result = some (.error error) → error = .byteCountOverflow) := by
  have hfaithful : Faithful tunnel streams (RelayLoop.new streams dispatch) :=
    ⟨fun _ hmem => absurd hmem List.not_mem_nil, rfl, fun _ => rfl, fun _ => rfl, rfl, fun _ => rfl⟩
  have hqueue : (List.replicate dispatch.others (none : Option (WebSocketMessage Flow))).filterMap id = [] := by simp
  have hdispatched : Dispatched (RelayLoop.new streams dispatch : RelayLoop Flow) :=
    ⟨List.prefix_refl [], fun _ => hqueue⟩
  refine ⟨run_invariant Faithful.step hfaithful h, run_invariant (fun hs => hs.step) hdispatched h, hookLog_increasing _ tunnel, ?_⟩
  intro hsends hstreams
  have hclean : Clean (RelayLoop.new streams dispatch : RelayLoop Flow) := ⟨hstreams, fun error herror => by cases herror⟩
  exact (run_invariant_of Clean.step hsends hclean h).result

def plainTunnel : Tunnel Unit :=
  ⟨(), ⟨ascii "GET", ⟨none, none, some ⟨ascii "/", ascii "/"⟩, ascii "/"⟩, .http11, ⟨[]⟩⟩, ⟨101, .http11, ⟨[]⟩⟩⟩

/-- The client sends two texts and leaves. -/
def twoTexts : WebSocketDirection → List ReadEvent
  | .clientToServer => [.message (.text "a".toList), .message (.text "b".toList)]
  | .serverToClient => []

/-- Three turns on the side of the client, with a worker that starts late. -/
def clientTurns : List Action :=
  [.turn .clientToServer (.ok ()), .turn .clientToServer (.ok ()), .work, .turn .clientToServer (.ok ())]

theorem relay_faithful_two_texts :
    ∃ loop, run (RelayLoop.step plainTunnel) (RelayLoop.new twoTexts ⟨true, 4, 0, true⟩) clientTurns = some loop ∧
      loop.result = some (.ok ⟨2, 0⟩) ∧ Faithful plainTunnel twoTexts loop := by
  have hrun : (run (RelayLoop.step plainTunnel) (RelayLoop.new twoTexts ⟨true, 4, 0, true⟩) clientTurns).map
      RelayLoop.result = some (some (.ok ⟨2, 0⟩)) := by decide
  obtain ⟨loop, hloop, hresult⟩ := Option.map_eq_some_iff.mp hrun
  exact ⟨loop, hloop, hresult, (relay_faithful plainTunnel twoTexts ⟨true, 4, 0, true⟩ clientTurns loop hloop).1⟩

/-- A full queue drops a message that was read and passed on. -/
theorem full_queue_drops_text :
    ∃ loop, run (RelayLoop.step plainTunnel) (RelayLoop.new twoTexts ⟨true, 1, 0, true⟩) clientTurns = some loop ∧
      loop.result = some (.ok ⟨2, 0⟩) ∧ messagesOf .clientToServer loop.seen = [.text "a".toList, .text "b".toList] ∧
      loop.hooks.queue = [] ∧ loop.hooks.delivered.map WebSocketMessage.text = [some "a".toList] := by
  have hresult : (run (RelayLoop.step plainTunnel) (RelayLoop.new twoTexts ⟨true, 1, 0, true⟩) clientTurns).map
      RelayLoop.result = some (some (.ok ⟨2, 0⟩)) := by decide
  have hseen : (run (RelayLoop.step plainTunnel) (RelayLoop.new twoTexts ⟨true, 1, 0, true⟩) clientTurns).map
      (fun loop => messagesOf .clientToServer loop.seen) = some [.text "a".toList, .text "b".toList] := by decide
  have hhooks : (run (RelayLoop.step plainTunnel) (RelayLoop.new twoTexts ⟨true, 1, 0, true⟩) clientTurns).map
      (fun loop => (loop.hooks.queue.isEmpty, loop.hooks.delivered.map WebSocketMessage.text)) =
      some (true, [some "a".toList]) := by decide
  obtain ⟨loop, hloop, hresult⟩ := Option.map_eq_some_iff.mp hresult
  rw [hloop, Option.map_some, Option.some.injEq] at hseen hhooks
  rw [Prod.mk.injEq, List.isEmpty_iff] at hhooks
  exact ⟨loop, hloop, hresult, hseen, hhooks⟩

end Runs
end Abyss.Mitm.WebSocket
