import Mathlib.Data.List.Basic

/-! Channels between tasks: a bounded broadcast ring that every receiver reads at its own
position, a watched value, and a bounded queue to one receiver that never blocks its senders. -/
namespace Abyss.System
variable {α : Type}

section Broadcast

inductive RecvError where
  | lagged (skipped : Nat)
  | closed
  deriving DecidableEq, Repr

/-- The last values sent on a broadcast channel, oldest first, and the number of all of them. -/
structure Ring (capacity : Nat) (α : Type) where
  retained : List α
  sent : Nat
  length_retained : retained.length = min capacity sent

namespace Ring
variable {capacity : Nat}

def empty : Ring capacity α := ⟨[], 0, (Nat.min_zero capacity).symm⟩

/-- The oldest value is overwritten once the ring is full. -/
def send (ring : Ring capacity α) (value : α) : Ring capacity α where
  retained := (ring.retained ++ [value]).drop (ring.retained.length + 1 - capacity)
  sent := ring.sent + 1
  length_retained := by
    have h := ring.length_retained
    simp only [List.length_drop, List.length_append, List.length_singleton]
    omega

/-- A new receiver starts after the last value. -/
def subscribe (ring : Ring capacity α) : Nat := ring.sent

/-- What a receiver finds, and where it goes on; nothing when it is up to date. -/
def recv (ring : Ring capacity α) (next : Nat) : Option (Except RecvError α × Nat) :=
  if hsent : ring.sent ≤ next then none
  else if hlag : next + capacity < ring.sent then
    some (.error (.lagged (ring.sent - capacity - next)), ring.sent - capacity)
  else
    have h : next - (ring.sent - ring.retained.length) < ring.retained.length := by
      have := ring.length_retained
      omega
    some (.ok (ring.retained.get ⟨_, h⟩), next + 1)

/-- The ring holds the end of the history of its channel. -/
structure Holds (ring : Ring capacity α) (history : List α) : Prop where
  sent : ring.sent = history.length
  retained : ring.retained = history.drop (history.length - capacity)

theorem empty_holds : (empty : Ring capacity α).Holds [] := ⟨rfl, List.drop_nil.symm⟩

theorem Holds.send {ring : Ring capacity α} {history : List α} (h : ring.Holds history) (value : α) :
    (ring.send value).Holds (history ++ [value]) := by
  have hfront : history.length - capacity ≤ history.length := Nat.sub_le _ _
  constructor
  · simp [Ring.send, h.sent]
  · simp only [Ring.send, h.retained, List.length_drop]
    rw [← List.drop_append_of_le_length hfront, List.drop_drop, List.length_append, List.length_singleton]
    congr 1
    omega

/-- What a receiver finds, told from the whole history. -/
inductive Receives (capacity : Nat) (history : List α) (next : Nat) : Option (Except RecvError α × Nat) → Prop
  | nothing (h : history.length ≤ next) : Receives capacity history next none
  | value {value : α} {rest : List α} (h : history.drop next = value :: rest) (hretained : rest.length < capacity) :
    Receives capacity history next (some (.ok value, next + 1))
  | lagged {skipped : Nat} (h : next + capacity < history.length) (hskipped : next + skipped + capacity = history.length) :
    Receives capacity history next (some (.error (.lagged skipped), history.length - capacity))

theorem Holds.receives {ring : Ring capacity α} {history : List α} (h : ring.Holds history) (next : Nat) :
    Receives capacity history next (ring.recv next) := by
  have hsent := h.sent
  have hlength := ring.length_retained
  unfold recv
  split
  · exact .nothing (by omega)
  · split
    · rw [hsent]
      exact .lagged (by omega) (by omega)
    · have hlt : next < history.length := by omega
      refine @Receives.value _ _ _ _ _ (history.drop (next + 1)) ?_ (by rw [List.length_drop]; omega)
      rw [List.drop_eq_getElem_cons hlt]
      congr 1
      simp only [List.get_eq_getElem, h.retained, List.getElem_drop]
      congr 1
      rw [h.retained, List.length_drop] at *
      omega

end Ring
end Broadcast

section Watch

/-- A watched value, the number of times it was sent, and whether its sender is gone. -/
structure Watch (α : Type) where
  value : α
  version : Nat
  closed : Bool

namespace Watch

def send (watch : Watch α) (value : α) : Watch α := { watch with value, version := watch.version + 1 }

def close (watch : Watch α) : Watch α := { watch with closed := true }

/-- A change since the version seen last, or the end of all changes; nothing when there is neither. -/
def changed (watch : Watch α) (seen : Nat) : Option (Except Unit Nat) :=
  if watch.version ≠ seen then some (.ok watch.version)
  else if watch.closed then some (.error ())
  else none

end Watch
end Watch

section Queue

/-- What waits in the channel never exceeds its capacity. -/
structure BoundedChannel (α : Type) where
  capacity : Nat
  waiting : List α
  closed : Bool
  bounded : waiting.length ≤ capacity

inductive TrySend where
  | sent | full | closed
  deriving DecidableEq, Repr

namespace BoundedChannel

def new (capacity : Nat) : BoundedChannel α := ⟨capacity, [], false, Nat.zero_le _⟩

/-- Sending never waits: the item is taken, or the channel is full or closed. -/
def trySend (channel : BoundedChannel α) (item : α) : TrySend × BoundedChannel α :=
  if channel.closed then (.closed, channel)
  else if h : channel.waiting.length < channel.capacity then
    (.sent, { channel with
      waiting := channel.waiting ++ [item]
      bounded := by rw [List.length_append]; exact h })
  else (.full, channel)

/-- The first item that waits, and the channel behind it. -/
def recv (channel : BoundedChannel α) : Option (α × BoundedChannel α) :=
  match h : channel.waiting with
  | [] => none
  | item :: rest => some (item, { channel with
      waiting := rest
      bounded := by have := channel.bounded; rw [h, List.length_cons] at this; omega })

/-- A receiver that ends drops what waits. -/
def close (channel : BoundedChannel α) : BoundedChannel α :=
  { channel with waiting := [], closed := true, bounded := Nat.zero_le _ }

@[simp] theorem new_waiting (capacity : Nat) : (new capacity : BoundedChannel α).waiting = [] := rfl

@[simp] theorem close_closed (channel : BoundedChannel α) : channel.close.closed = true := rfl

@[simp] theorem close_waiting (channel : BoundedChannel α) : channel.close.waiting = [] := rfl

@[simp] theorem trySend_capacity (channel : BoundedChannel α) (item : α) :
    (channel.trySend item).2.capacity = channel.capacity := by
  unfold trySend
  split
  · rfl
  · split <;> rfl

@[simp] theorem trySend_stays (channel : BoundedChannel α) (item : α) :
    (channel.trySend item).2.closed = channel.closed := by
  unfold trySend
  split
  · rfl
  · split <;> rfl

theorem trySend_open {channel : BoundedChannel α} {item : α} (h : channel.closed = false) :
    ((channel.trySend item).1 = .sent ∧ (channel.trySend item).2.waiting = channel.waiting ++ [item]) ∨
      ((channel.trySend item).1 = .full ∧ (channel.trySend item).2.waiting = channel.waiting) := by
  rw [trySend, h]
  by_cases hroom : channel.waiting.length < channel.capacity
  · rw [dif_pos hroom]
    exact .inl ⟨rfl, rfl⟩
  · rw [dif_neg hroom]
    exact .inr ⟨rfl, rfl⟩

theorem trySend_closed {channel : BoundedChannel α} {item : α} (h : channel.closed = true) :
    channel.trySend item = (.closed, channel) := by
  rw [trySend, if_pos h]

theorem recv_some {channel rest : BoundedChannel α} {item : α} (h : channel.recv = some (item, rest)) :
    channel.waiting = item :: rest.waiting ∧ rest.capacity = channel.capacity ∧ rest.closed = channel.closed := by
  unfold recv at h
  split at h
  · cases h
  · next hwaiting =>
    cases h
    exact ⟨hwaiting, rfl, rfl⟩

theorem recv_isSome {channel : BoundedChannel α} : channel.recv.isSome = true ↔ channel.waiting ≠ [] := by
  unfold recv
  split
  · next h => simp [h]
  · next h => simp [h]

end BoundedChannel

end Queue
end Abyss.System
