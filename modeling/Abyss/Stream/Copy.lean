import Abyss.Stream.Layered
import Abyss.Stream.Sink
import Abyss.System.Machine

/-! Copying a stream into a sink until the stream has ended and the sink is shut
down, and two such copies side by side. Each step is one call on one of the
streams; the schedule chooses the calls and the room of each read. -/
namespace Abyss.Stream
variable {β ε : Type}

inductive CopyPhase (ε : Type) where
  | reading
  | draining
  | done
  | failed (error : ε)

/-- One direction: what was read and not yet written, and how much was written. -/
structure Copy (β ε : Type) where
  reader : Layered β ε
  buffer : List β
  writer : Sink β ε
  amount : Nat
  phase : CopyPhase ε

inductive CopyAction where
  | fill (room : Nat)
  | drain
  | flush
  | finish
  deriving DecidableEq, Repr

namespace Copy

def start (reader : Layered β ε) (writer : Sink β ε) : Copy β ε := ⟨reader, [], writer, 0, .reading⟩

def fill (room : Nat) (c : Copy β ε) : Copy β ε :=
  match c.reader.read room with
  | (.error e, reader) => { c with reader, phase := .failed e }
  | (.ok [], reader) => { c with reader, phase := .draining }
  | (.ok (b :: bs), reader) => { c with reader, buffer := c.buffer ++ b :: bs }

def drain (zero : ε) (c : Copy β ε) : Copy β ε :=
  match c.writer.write c.buffer with
  | (.error e, writer) => { c with writer, phase := .failed e }
  | (.ok n, writer) =>
    if n = 0 then { c with writer, phase := .failed zero }
    else { c with writer, buffer := c.buffer.drop n, amount := c.amount + n }

def flush (c : Copy β ε) : Copy β ε :=
  match c.writer.flush with
  | (some e, writer) => { c with writer, phase := .failed e }
  | (none, writer) => { c with writer }

def shutdown (c : Copy β ε) : Copy β ε :=
  match c.writer.shutdown with
  | (some e, writer) => { c with writer, phase := .failed e }
  | (none, writer) => { c with writer, phase := .done }

/-- The end of a direction: everything is flushed before the sink is shut down. -/
def finish (c : Copy β ε) : Copy β ε :=
  match c.writer.flush with
  | (some e, writer) => { c with writer, phase := .failed e }
  | (none, writer) => { c with writer }.shutdown

/-- A read needs room; a write needs something to write; the end comes behind the last write. -/
def step (zero : ε) (c : Copy β ε) (action : CopyAction) : Option (Copy β ε) :=
  match action, c.phase with
  | .fill room, .reading => if 0 < room then some (c.fill room) else none
  | .drain, .reading | .drain, .draining => if c.buffer = [] then none else some (c.drain zero)
  | .flush, .reading => some c.flush
  | .finish, .draining => if c.buffer = [] then some c.finish else none
  | _, _ => none

/-- Accounting of one direction: what the sink has accepted behind `base`, what is buffered and what
the reader still serves make up the stream. -/
structure Accounts (base stream : List β) (c : Copy β ε) : Prop where
  split : c.writer.accepted ++ c.buffer ++ c.reader.contents = base ++ stream
  count : c.writer.accepted.length = base.length + c.amount
  drained : c.phase = .draining ∨ c.phase = .done → c.reader.contents = []
  flushed : c.phase = .done → c.buffer = []

theorem accounts_start (reader : Layered β ε) (writer : Sink β ε) :
    (start reader writer).Accounts writer.accepted reader.contents :=
  ⟨by simp [start], by simp [start], by simp [start], by simp [start]⟩

section Steps
variable {base stream : List β} {zero : ε} {c : Copy β ε}

private theorem Accounts.fill (h : c.Accounts base stream) (hphase : c.phase = .reading) {room : Nat}
    (hroom : 0 < room) : (c.fill room).Accounts base stream := by
  unfold Copy.fill
  split
  · next e reader hread =>
    obtain ⟨hnil, hrest, _⟩ := Layered.read_error hread
    exact ⟨by simpa [hnil, hrest] using h.split, h.count, by simp, by simp⟩
  · next reader hread =>
    obtain ⟨hnil, hrest, _⟩ := Layered.read_empty hroom hread
    exact ⟨by simpa [hnil, hrest] using h.split, h.count, fun _ => hrest, by simp⟩
  · next b bs reader hread =>
    have hsplit := h.split
    rw [(Layered.read_contents hread).1] at hsplit
    exact ⟨by simpa using hsplit, h.count, by simp [hphase], by simp [hphase]⟩

private theorem Accounts.writer {w : Sink β ε} (h : c.Accounts base stream)
    (hw : w.accepted = c.writer.accepted) : ({ c with writer := w } : Copy β ε).Accounts base stream := by
  obtain ⟨hsplit, hcount, hdrained, hflushed⟩ := h
  exact ⟨by simpa [hw] using hsplit, by simpa [hw] using hcount, hdrained, hflushed⟩

private theorem Accounts.failed {w : Sink β ε} (h : c.Accounts base stream)
    (hw : w.accepted = c.writer.accepted) (e : ε) :
    ({ c with writer := w, phase := .failed e } : Copy β ε).Accounts base stream := by
  obtain ⟨hsplit, hcount, _, _⟩ := h
  exact ⟨by simpa [hw] using hsplit, by simpa [hw] using hcount, by simp, by simp⟩

private theorem Accounts.drain (h : c.Accounts base stream) (hphase : c.phase ≠ .done) :
    (c.drain zero).Accounts base stream := by
  unfold Copy.drain
  split
  · next e w hwrite => exact h.failed (Sink.write_error hwrite) e
  · next n w hwrite =>
    obtain ⟨hle, hacc⟩ := Sink.write_ok hwrite
    split
    · next hzero =>
      refine h.failed ?_ zero
      rw [hacc, hzero, List.take_zero, List.append_nil]
    · refine ⟨?_, ?_, h.drained, fun hdone => absurd hdone hphase⟩
      · rw [hacc, List.append_assoc c.writer.accepted, List.take_append_drop]
        exact h.split
      · rw [hacc, List.length_append, List.length_take, Nat.min_eq_left hle, h.count, Nat.add_assoc]

private theorem Accounts.flush (h : c.Accounts base stream) : c.flush.Accounts base stream := by
  have hacc := c.writer.flush_accepted
  unfold Copy.flush
  split
  · next e w hw =>
    rw [hw] at hacc
    exact h.failed hacc e
  · next w hw =>
    rw [hw] at hacc
    exact h.writer hacc

private theorem Accounts.shutdown (h : c.Accounts base stream) (hphase : c.phase = .draining)
    (hnil : c.buffer = []) : c.shutdown.Accounts base stream := by
  have hacc := c.writer.shutdown_accepted
  unfold Copy.shutdown
  split
  · next e w hw =>
    rw [hw] at hacc
    exact h.failed hacc e
  · next w hw =>
    rw [hw] at hacc
    have hdrained := h.drained (.inl hphase)
    exact ⟨(h.writer hacc).split, (h.writer hacc).count, fun _ => hdrained, fun _ => hnil⟩

private theorem Accounts.finish (h : c.Accounts base stream) (hphase : c.phase = .draining)
    (hnil : c.buffer = []) : c.finish.Accounts base stream := by
  have hacc := c.writer.flush_accepted
  unfold Copy.finish
  split
  · next e w hw =>
    rw [hw] at hacc
    exact h.failed hacc e
  · next w hw =>
    rw [hw] at hacc
    exact (h.writer hacc).shutdown hphase hnil

/-- Every call keeps the accounts of its direction. -/
theorem Accounts.step (h : c.Accounts base stream) {action : CopyAction} {c' : Copy β ε}
    (hstep : c.step zero action = some c') : c'.Accounts base stream := by
  unfold Copy.step at hstep
  split at hstep
  · next room hphase =>
    obtain ⟨hroom, rfl⟩ := (by simpa using hstep : 0 < room ∧ c.fill room = c')
    exact h.fill hphase hroom
  · next hphase =>
    obtain ⟨_, rfl⟩ := (by simpa using hstep : c.buffer ≠ [] ∧ c.drain zero = c')
    exact h.drain (by simp [hphase])
  · next hphase =>
    obtain ⟨_, rfl⟩ := (by simpa using hstep : c.buffer ≠ [] ∧ c.drain zero = c')
    exact h.drain (by simp [hphase])
  · obtain rfl := Option.some.inj hstep
    exact h.flush
  · next hphase =>
    obtain ⟨hnil, rfl⟩ := (by simpa using hstep : c.buffer = [] ∧ c.finish = c')
    exact h.finish hphase hnil
  · cases hstep

/-- At every moment the sink has accepted a front part of the stream, in order. -/
theorem Accounts.front (h : c.Accounts base stream) : c.writer.accepted <+: base ++ stream :=
  ⟨c.buffer ++ c.reader.contents, by rw [← List.append_assoc]; exact h.split⟩

/-- A finished direction has delivered the stream exactly, and counted it. -/
theorem Accounts.exact (h : c.Accounts base stream) (hdone : c.phase = .done) :
    c.writer.accepted = base ++ stream ∧ c.amount = stream.length := by
  have hsplit := h.split
  rw [h.flushed hdone, h.drained (.inr hdone), List.append_nil, List.append_nil] at hsplit
  refine ⟨hsplit, ?_⟩
  have hcount := h.count
  rw [hsplit, List.length_append] at hcount
  omega

end Steps

/-- Nothing in the direction will fail: the stream ends cleanly and the sink takes every call. -/
structure Healthy (c : Copy β ε) : Prop where
  ends : c.reader.ending = none
  writes : c.writer.WritesSucceed
  flushes : ∀ r ∈ c.writer.flushes, r = none
  shutdowns : ∀ r ∈ c.writer.shutdowns, r = none
  running : ∀ e, c.phase ≠ .failed e

/-- What a direction still has to do; every read, write and the end of it make this smaller. -/
def work (c : Copy β ε) : Nat :=
  match c.phase with
  | .reading => 2 * c.reader.contents.length + c.buffer.length + 2
  | .draining => c.buffer.length + 1
  | _ => 0

section Completion
variable {zero : ε} {c : Copy β ε}

private theorem head_join {r : List (Option ε)} (h : ∀ x ∈ r, x = none) : r.head?.join = none := by
  cases r with
  | nil => rfl
  | cons x rest => simpa using h x List.mem_cons_self

private theorem forall_tail {r : List (Option ε)} (h : ∀ x ∈ r, x = none) : ∀ x ∈ r.tail, x = none :=
  fun x hx => h x (List.mem_of_mem_tail hx)

private theorem Healthy.fill (h : c.Healthy) (hphase : c.phase = .reading) {room : Nat} :
    (c.fill room).Healthy ∧ (c.fill room).work < c.work := by
  obtain ⟨hends, hwrites, hflushes, hshutdowns, _⟩ := h
  unfold Copy.fill
  split
  · next e reader hread =>
    have hend := (Layered.read_error hread).2.2
    rw [hends] at hend
    cases hend
  · next reader hread =>
    have hend := (Layered.read_contents hread).2.2
    refine ⟨⟨hend.trans hends, hwrites, hflushes, hshutdowns, by simp⟩, ?_⟩
    simp only [work, hphase]
    omega
  · next b bs reader hread =>
    obtain ⟨hsplit, _, hend⟩ := Layered.read_contents hread
    refine ⟨⟨hend.trans hends, hwrites, hflushes, hshutdowns, by simp [hphase]⟩, ?_⟩
    simp [work, hphase, hsplit]
    omega

private theorem Healthy.drain (h : c.Healthy) (hne : c.buffer ≠ []) (zero : ε) :
    (c.drain zero).Healthy ∧ (c.phase = .draining → (c.drain zero).work < c.work) := by
  obtain ⟨hends, hwrites, hflushes, hshutdowns, hrunning⟩ := h
  obtain ⟨n, w, hwrite, hw⟩ := hwrites.write hne
  have hframe := c.writer.write_frame c.buffer
  have hpos := List.length_pos_of_ne_nil hne
  simp only [hwrite] at hframe
  simp only [Copy.drain, hwrite, Nat.add_one_ne_zero, if_false]
  refine ⟨⟨hends, hw, ?_, ?_, hrunning⟩, ?_⟩
  · rwa [hframe.1]
  · rwa [hframe.2]
  · intro hphase
    simp [work, hphase]
    omega

private theorem Healthy.flush (h : c.Healthy) : c.flush.Healthy := by
  obtain ⟨hends, hwrites, hflushes, hshutdowns, hrunning⟩ := h
  simp only [Copy.flush, Sink.flush, head_join hflushes]
  exact ⟨hends, hwrites, forall_tail hflushes, hshutdowns, hrunning⟩

private theorem Healthy.finish (h : c.Healthy) : c.finish.Healthy ∧ c.finish.phase = .done := by
  obtain ⟨hends, hwrites, hflushes, hshutdowns, _⟩ := h
  simp only [Copy.finish, Copy.shutdown, Sink.flush, Sink.shutdown, head_join hflushes, head_join hshutdowns]
  exact ⟨⟨hends, hwrites, forall_tail hflushes, forall_tail hshutdowns, by simp⟩, trivial⟩

theorem Healthy.step (h : c.Healthy) {action : CopyAction} {c' : Copy β ε}
    (hstep : c.step zero action = some c') : c'.Healthy := by
  unfold Copy.step at hstep
  split at hstep
  · next room hphase =>
    obtain ⟨_, rfl⟩ := (by simpa using hstep : 0 < room ∧ c.fill room = c')
    exact (h.fill hphase).1
  · obtain ⟨hne, rfl⟩ := (by simpa using hstep : c.buffer ≠ [] ∧ c.drain zero = c')
    exact (h.drain hne zero).1
  · obtain ⟨hne, rfl⟩ := (by simpa using hstep : c.buffer ≠ [] ∧ c.drain zero = c')
    exact (h.drain hne zero).1
  · obtain rfl := Option.some.inj hstep
    exact h.flush
  · obtain ⟨_, rfl⟩ := (by simpa using hstep : c.buffer = [] ∧ c.finish = c')
    exact h.finish.1
  · cases hstep

/-- A healthy direction can always be carried to its end. -/
theorem Healthy.completes (h : c.Healthy) (zero : ε) :
    ∃ actions c', System.run (Copy.step zero) c actions = some c' ∧ c'.phase = .done := by
  induction hn : c.work using Nat.strongRecOn generalizing c with
  | ind n ih =>
    subst hn
    cases hphase : c.phase with
    | reading =>
      obtain ⟨hnext, hless⟩ := @Healthy.fill β ε c h hphase 1
      obtain ⟨actions, c', hrun, hdone⟩ := ih _ hless hnext rfl
      exact ⟨.fill 1 :: actions, c', System.run_cons.mpr ⟨_, by simp [Copy.step, hphase], hrun⟩, hdone⟩
    | draining =>
      by_cases hnil : c.buffer = []
      · exact ⟨[.finish], c.finish, by simp [System.run, Copy.step, hphase, hnil], h.finish.2⟩
      · obtain ⟨hnext, hless⟩ := h.drain hnil zero
        obtain ⟨actions, c', hrun, hdone⟩ := ih _ (hless hphase) hnext rfl
        exact ⟨.drain :: actions, c', System.run_cons.mpr ⟨_, by simp [Copy.step, hphase, hnil], hrun⟩, hdone⟩
    | done => exact ⟨[], c, rfl, hphase⟩
    | failed e => exact absurd hphase (h.running e)

end Completion
end Copy

/-- Two directions between two parties. -/
structure Bidirectional (β ε : Type) where
  forward : Copy β ε
  backward : Copy β ε

inductive Side where
  | forward
  | backward
  deriving DecidableEq, Repr

namespace Bidirectional

/-- The outcome: the first failure, or both amounts once both directions are done. -/
def result (p : Bidirectional β ε) : Option (Except ε (Nat × Nat)) :=
  match p.forward.phase, p.backward.phase with
  | .failed e, _ => some (.error e)
  | _, .failed e => some (.error e)
  | .done, .done => some (.ok (p.forward.amount, p.backward.amount))
  | _, _ => none

/-- One call in one direction; nothing happens behind the outcome. -/
def step (zero : ε) (p : Bidirectional β ε) (action : Side × CopyAction) : Option (Bidirectional β ε) :=
  if p.result.isSome then none else
  match action.1 with
  | .forward => (p.forward.step zero action.2).map fun forward => { p with forward }
  | .backward => (p.backward.step zero action.2).map fun backward => { p with backward }

variable {zero : ε} {p p' : Bidirectional β ε}

theorem step_some {action : Side × CopyAction} (h : p.step zero action = some p') :
    (p.forward.step zero action.2 = some p'.forward ∧ p'.backward = p.backward) ∨
      (p'.forward = p.forward ∧ p.backward.step zero action.2 = some p'.backward) := by
  unfold step at h
  split at h
  · cases h
  · split at h
    · obtain ⟨c, hc, rfl⟩ := Option.map_eq_some_iff.mp h
      exact .inl ⟨hc, rfl⟩
    · obtain ⟨c, hc, rfl⟩ := Option.map_eq_some_iff.mp h
      exact .inr ⟨rfl, hc⟩

/-- Along every schedule the forward direction keeps its accounts. -/
theorem run_accounts {base stream : List β} {schedule : List (Side × CopyAction)}
    (h : p.forward.Accounts base stream) (hrun : System.run (step zero) p schedule = some p') :
    p'.forward.Accounts base stream := by
  refine @System.run_invariant _ _ (step zero) (fun q => q.forward.Accounts base stream) ?_ p p' schedule h hrun
  intro q action q' hq hstep
  rcases step_some hstep with ⟨hc, _⟩ | ⟨hsame, _⟩
  · exact hq.step hc
  · rwa [hsame]

theorem result_ok {amounts : Nat × Nat} (h : p.result = some (.ok amounts)) :
    p.forward.phase = .done ∧ amounts = (p.forward.amount, p.backward.amount) := by
  unfold result at h
  split at h
  · simp at h
  · simp at h
  · next hphase _ => exact ⟨hphase, by simpa using h.symm⟩
  · cases h

/-- Both directions will succeed. -/
structure Healthy (p : Bidirectional β ε) : Prop where
  forward : p.forward.Healthy
  backward : p.backward.Healthy

theorem Healthy.run {schedule : List (Side × CopyAction)} (h : p.Healthy)
    (hrun : System.run (step zero) p schedule = some p') : p'.Healthy := by
  refine @System.run_invariant _ _ (step zero) Healthy ?_ p p' schedule h hrun
  intro q action q' hq hstep
  rcases step_some hstep with ⟨hc, hsame⟩ | ⟨hsame, hc⟩
  · exact ⟨hq.forward.step hc, hsame ▸ hq.backward⟩
  · exact ⟨hsame ▸ hq.forward, hq.backward.step hc⟩

private theorem enabled_phase {c c' : Copy β ε} {action : CopyAction} (h : c.step zero action = some c') :
    c.phase = .reading ∨ c.phase = .draining := by
  unfold Copy.step at h
  split at h <;> first | cases h; done | simp_all

private theorem Healthy.result_none (h : p.Healthy)
    (hopen : p.forward.phase ≠ .done ∨ p.backward.phase ≠ .done) : p.result = none := by
  have hf := h.forward.running
  have hb := h.backward.running
  unfold result
  split <;> simp_all

private theorem Healthy.run_forward (h : p.Healthy) {actions : List CopyAction} {c : Copy β ε}
    (hrun : System.run (Copy.step zero) p.forward actions = some c) :
    System.run (step zero) p (actions.map (Side.forward, ·)) = some { p with forward := c } := by
  induction actions generalizing p with
  | nil =>
    obtain rfl := Option.some.inj hrun
    rfl
  | cons action rest ih =>
    obtain ⟨next, hnext, hrest⟩ := System.run_cons.mp hrun
    have hopen : p.forward.phase ≠ .done := by rcases enabled_phase hnext with h | h <;> simp [h]
    refine System.run_cons.mpr ⟨{ p with forward := next }, ?_, ?_⟩
    · simp [step, h.result_none (.inl hopen), hnext]
    · exact @ih { p with forward := next } ⟨h.forward.step hnext, h.backward⟩ hrest

private theorem Healthy.run_backward (h : p.Healthy) {actions : List CopyAction} {c : Copy β ε}
    (hrun : System.run (Copy.step zero) p.backward actions = some c) :
    System.run (step zero) p (actions.map (Side.backward, ·)) = some { p with backward := c } := by
  induction actions generalizing p with
  | nil =>
    obtain rfl := Option.some.inj hrun
    rfl
  | cons action rest ih =>
    obtain ⟨next, hnext, hrest⟩ := System.run_cons.mp hrun
    have hopen : p.backward.phase ≠ .done := by rcases enabled_phase hnext with h | h <;> simp [h]
    refine System.run_cons.mpr ⟨{ p with backward := next }, ?_, ?_⟩
    · simp [step, h.result_none (.inr hopen), hnext]
    · exact @ih { p with backward := next } ⟨h.forward, h.backward.step hnext⟩ hrest

/-- Between healthy parties every copy can be carried to a successful end, from any point of it. -/
theorem Healthy.completes (h : p.Healthy) (zero : ε) : ∃ more p' amounts,
    System.run (step zero) p more = some p' ∧ p'.result = some (.ok amounts) := by
  obtain ⟨actions, c, hrun, hdone⟩ := h.forward.completes zero
  obtain ⟨actions', c', hrun', hdone'⟩ := h.backward.completes zero
  have hfirst := h.run_forward hrun
  have hsecond := @Healthy.run_backward _ _ zero _ (h.run hfirst) _ _ hrun'
  refine ⟨_, _, (c.amount, c'.amount), System.run_append.mpr ⟨_, hfirst, hsecond⟩, ?_⟩
  simp [result, hdone, hdone']

end Bidirectional
end Abyss.Stream
