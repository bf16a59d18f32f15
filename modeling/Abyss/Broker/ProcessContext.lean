import Abyss.Data.HashMap
import Abyss.System.Machine

/-! Working directories of source processes. Flows ask for them on threads that interleave;
one lookup answers the flows of a process for a minute. -/
namespace Abyss.Broker.ProcessContext
open Abyss.Data Abyss.System
variable {Path : Type}

/-- `CACHE_TTL`, in nanoseconds. -/
def cacheTtl : Nat := 60000000000

structure ProcessIdentity where
  pid : UInt32
  pidVersion : Option UInt32
  deriving DecidableEq

/-- A cell that is set once; while one thread initializes it, the others wait. -/
inductive OnceLock (α : Type) where
  | empty
  | initializing
  | set (value : α)

structure CacheEntry (Path : Type) where
  workingDirectory : OnceLock (Option Path)
  expiresAt : Nat

/-- A call of `working_directory`: `now` is the instant it has read before it takes the lock, and `lookup` the instant
at which it asked the platform, if it was the one to ask. -/
inductive Call (Path : Type) where
  | outside
  | clocked (identity : ProcessIdentity) (now : Nat)
  | entered (identity : ProcessIdentity) (now entry : Nat)
  | lookingUp (identity : ProcessIdentity) (now entry started : Nat)
  | returned (identity : ProcessIdentity) (now entry : Nat) (directory : Option Path) (lookup : Option Nat)
  | missingPid

/-- `CachedProcessContextResolver` with its shared entries on a heap, and every call that was made. -/
structure Resolver (Path : Type) where
  clock : Nat
  entries : HashMap ProcessIdentity Nat
  heap : List (CacheEntry Path)
  calls : Nat → Call Path

def Resolver.new : Resolver Path := ⟨0, ∅, [], fun _ => .outside⟩

inductive Action (Path : Type) where
  | tick (elapsed : Nat)
  | call (thread : Nat) (pid pidVersion : Option UInt32)
  | entry (thread : Nat)
  | getOrInit (thread : Nat)
  /-- The platform's lookup comes back. -/
  | answer (thread : Nat) (directory : Option Path)
  /-- The platform's lookup panics, which leaves the cell uninitialized. -/
  | unwind (thread : Nat)

def Action.thread : Action Path → Option Nat
  | .tick _ => none
  | .call thread _ _ | .entry thread | .getOrInit thread | .answer thread _ | .unwind thread => some thread

namespace Resolver

def withCall (r : Resolver Path) (thread : Nat) (call : Call Path) : Resolver Path :=
  { r with calls := Function.update r.calls thread call }

def expiresAt (r : Resolver Path) (entry : Nat) : Nat := (r.heap[entry]?).elim 0 CacheEntry.expiresAt

/-- `Instant::checked_add` on a clock that ends at `range`. -/
def checkedAdd (range now duration : Nat) : Option Nat := if now + duration ≤ range then some (now + duration) else none

/-- Drop what has expired and share a new entry. -/
def insertEntry (range : Nat) (r : Resolver Path) (identity : ProcessIdentity) (now : Nat) : Nat × Resolver Path :=
  (r.heap.length, { r with
    entries := (r.entries.retain (fun entry => decide (now < r.expiresAt entry))).insert identity r.heap.length
    heap := r.heap ++ [⟨.empty, (checkedAdd range now cacheTtl).getD now⟩] })

/-- `CachedProcessContextResolver::entry`, under the lock. -/
def entry (range : Nat) (r : Resolver Path) (identity : ProcessIdentity) (now : Nat) : Nat × Resolver Path :=
  match r.entries.lookup identity with
  | some entry => if now < r.expiresAt entry then (entry, r) else r.insertEntry range identity now
  | none => r.insertEntry range identity now

def setCell (r : Resolver Path) (entry : Nat) (cell : OnceLock (Option Path)) : Resolver Path :=
  { r with heap := r.heap.modify entry (fun cached => { cached with workingDirectory := cell }) }

end Resolver

/-- One step of one call, or the passing of time. -/
def step (range : Nat) (r : Resolver Path) : Action Path → Option (Resolver Path)
  | .tick elapsed => some { r with clock := r.clock + elapsed }
  | .call thread pid pidVersion =>
    match r.calls thread, pid with
    | .outside, some pid => some (r.withCall thread (.clocked ⟨pid, pidVersion⟩ r.clock))
    | .outside, none => some (r.withCall thread .missingPid)
    | _, _ => none
  | .entry thread =>
    match r.calls thread with
    | .clocked identity now =>
      let (entry, next) := r.entry range identity now
      some (next.withCall thread (.entered identity now entry))
    | _ => none
  | .getOrInit thread =>
    match r.calls thread with
    | .entered identity now entry =>
      match (r.heap[entry]?).map CacheEntry.workingDirectory with
      | some (.set directory) => some (r.withCall thread (.returned identity now entry directory none))
      | some .empty => some ((r.setCell entry .initializing).withCall thread (.lookingUp identity now entry r.clock))
      | _ => none
    | _ => none
  | .answer thread directory =>
    match r.calls thread with
    | .lookingUp identity now entry started =>
      some ((r.setCell entry (.set directory)).withCall thread (.returned identity now entry directory (some started)))
    | _ => none
  | .unwind thread =>
    match r.calls thread with
    | .lookingUp _ _ entry _ => some ((r.setCell entry .empty).withCall thread .outside)
    | _ => none

section Sharing
variable {range : Nat} {r r' : Resolver Path} {owner owner' : Nat → ProcessIdentity} {call : Call Path}

/-- The entry whose cell a call depends on. -/
def Call.uses : Call Path → Option Nat
  | .lookingUp _ _ entry _ | .returned _ _ entry _ _ => some entry
  | _ => none

/-- The entry for which a call itself asks the platform. -/
def Call.asks : Call Path → Option Nat
  | .lookingUp _ _ entry _ | .returned _ _ entry _ (some _) => some entry
  | _ => none

/-- A call holds an entry of its own process that was still valid when the call began, and that was made no earlier
than a minute before its lookup ends. -/
def CallSound (owner : Nat → ProcessIdentity) (r : Resolver Path) : Call Path → Prop
  | .outside | .missingPid => True
  | .clocked _ now => now ≤ r.clock
  | .entered identity now entry =>
    owner entry = identity ∧ ∃ cell expiresAt, r.heap[entry]? = some ⟨cell, expiresAt⟩ ∧ now ≤ expiresAt
  | .lookingUp identity now entry started => owner entry = identity ∧
    ∃ expiresAt, r.heap[entry]? = some ⟨.initializing, expiresAt⟩ ∧ now ≤ expiresAt ∧ expiresAt ≤ started + cacheTtl
  | .returned identity now entry directory lookup => owner entry = identity ∧
    ∃ expiresAt, r.heap[entry]? = some ⟨.set directory, expiresAt⟩ ∧ now ≤ expiresAt ∧
      ∀ started ∈ lookup, expiresAt ≤ started + cacheTtl

/-- The invariant of the resolver; `owner` names the process that each entry was made for. -/
structure Sound (owner : Nat → ProcessIdentity) (r : Resolver Path) : Prop where
  mapped : ∀ {identity entry}, r.entries.lookup identity = some entry → entry < r.heap.length ∧ owner entry = identity
  expiry : ∀ {entry : Nat} {cell expiresAt}, r.heap[entry]? = some ⟨cell, expiresAt⟩ → expiresAt ≤ r.clock + cacheTtl
  calls : ∀ thread, CallSound owner r (r.calls thread)
  sole : ∀ {thread other entry}, (r.calls thread).asks = some entry → (r.calls other).asks = some entry → thread = other
  asked : ∀ {entry : Nat} {cell expiresAt}, r.heap[entry]? = some ⟨cell, expiresAt⟩ → cell ≠ .empty →
    ∃ thread, (r.calls thread).asks = some entry

theorem Call.uses_of_asks {entry : Nat} (h : call.asks = some entry) : call.uses = some entry := by
  cases call with
  | lookingUp identity now found started => exact h
  | returned identity now found directory lookup =>
    cases lookup with
    | none => cases h
    | some started => exact h
  | _ => cases h

/-- What a call relies on survives where entries keep their expiry and used cells their value. -/
theorem CallSound.mono (h : CallSound owner r call) (hclock : r.clock ≤ r'.clock)
    (howner : ∀ entry, entry < r.heap.length → owner' entry = owner entry)
    (hheap : ∀ {entry : Nat} {cell expiresAt}, r.heap[entry]? = some ⟨cell, expiresAt⟩ →
      ∃ cell', r'.heap[entry]? = some ⟨cell', expiresAt⟩ ∧ (call.uses = some entry → cell' = cell)) :
    CallSound owner' r' call := by
  have hlt : ∀ {entry : Nat} {cached}, r.heap[entry]? = some cached → entry < r.heap.length := by
    intro entry cached hat
    exact (List.getElem?_eq_some_iff.mp hat).1
  cases call with
  | outside => trivial
  | missingPid => trivial
  | clocked identity now => exact Nat.le_trans h hclock
  | entered identity now entry =>
    obtain ⟨howns, cell, expiresAt, hat, hnow⟩ := h
    obtain ⟨cell', hat', -⟩ := hheap hat
    exact ⟨(howner entry (hlt hat)).trans howns, cell', expiresAt, hat', hnow⟩
  | lookingUp identity now entry started =>
    obtain ⟨howns, expiresAt, hat, hnow, hstarted⟩ := h
    obtain ⟨cell', hat', hsame⟩ := hheap hat
    obtain rfl := hsame rfl
    exact ⟨(howner entry (hlt hat)).trans howns, expiresAt, hat', hnow, hstarted⟩
  | returned identity now entry directory lookup =>
    obtain ⟨howns, expiresAt, hat, hnow, hstarted⟩ := h
    obtain ⟨cell', hat', hsame⟩ := hheap hat
    obtain rfl := hsame rfl
    exact ⟨(howner entry (hlt hat)).trans howns, expiresAt, hat', hnow, hstarted⟩

/-- A used cell is being initialized or set. -/
theorem CallSound.used (h : CallSound owner r call) {entry : Nat} (huses : call.uses = some entry) :
    ∃ cell expiresAt, r.heap[entry]? = some ⟨cell, expiresAt⟩ ∧ cell ≠ .empty := by
  cases call with
  | lookingUp identity now found started =>
    obtain rfl := Option.some.inj huses
    obtain ⟨-, expiresAt, hat, -⟩ := h
    exact ⟨_, expiresAt, hat, by simp⟩
  | returned identity now found directory lookup =>
    obtain rfl := Option.some.inj huses
    obtain ⟨-, expiresAt, hat, -⟩ := h
    exact ⟨_, expiresAt, hat, by simp⟩
  | _ => cases huses

/-- A step of one call that keeps the others' cells is sound when the new call is. -/
theorem Sound.change {thread : Nat} (h : Sound owner r) (hclock : r.clock ≤ r'.clock)
    (howner : ∀ entry, entry < r.heap.length → owner' entry = owner entry)
    (hcalls : r'.calls = Function.update r.calls thread call)
    (hmapped : ∀ {identity entry}, r'.entries.lookup identity = some entry → entry < r'.heap.length ∧ owner' entry = identity)
    (hexpiry : ∀ {entry : Nat} {cell expiresAt}, r'.heap[entry]? = some ⟨cell, expiresAt⟩ → expiresAt ≤ r'.clock + cacheTtl)
    (hcall : CallSound owner' r' call)
    (hheap : ∀ {entry : Nat} {cell expiresAt}, r.heap[entry]? = some ⟨cell, expiresAt⟩ → ∃ cell', r'.heap[entry]? = some ⟨cell', expiresAt⟩ ∧
      ∀ other, other ≠ thread → (r.calls other).uses = some entry → cell' = cell)
    (hsole : ∀ {other entry}, call.asks = some entry → other ≠ thread → (r.calls other).asks ≠ some entry)
    (hasked : ∀ {entry : Nat} {cell expiresAt}, r'.heap[entry]? = some ⟨cell, expiresAt⟩ → cell ≠ .empty →
      call.asks = some entry ∨ ∃ other, other ≠ thread ∧ (r.calls other).asks = some entry) : Sound owner' r' where
  mapped := hmapped
  expiry := hexpiry
  calls other := by
    rw [hcalls]
    by_cases hother : other = thread
    · subst hother
      rw [Function.update_self]
      exact hcall
    · rw [Function.update_of_ne hother]
      refine (h.calls other).mono hclock howner ?_
      intro entry cell expiresAt hat
      obtain ⟨cell', hat', hsame⟩ := hheap hat
      exact ⟨cell', hat', hsame other hother⟩
  sole {first second entry} hfirst hsecond := by
    rw [hcalls] at hfirst hsecond
    by_cases h1 : first = thread <;> by_cases h2 : second = thread
    · exact h1.trans h2.symm
    · subst h1
      rw [Function.update_self] at hfirst
      rw [Function.update_of_ne h2] at hsecond
      exact absurd hsecond (hsole hfirst h2)
    · subst h2
      rw [Function.update_self] at hsecond
      rw [Function.update_of_ne h1] at hfirst
      exact absurd hfirst (hsole hsecond h1)
    · rw [Function.update_of_ne h1] at hfirst
      rw [Function.update_of_ne h2] at hsecond
      exact h.sole hfirst hsecond
  asked {entry cell expiresAt} hat hcell := by
    rw [hcalls]
    obtain hasks | ⟨other, hother, hasks⟩ := hasked hat hcell
    · exact ⟨thread, by rw [Function.update_self]; exact hasks⟩
    · exact ⟨other, by rw [Function.update_of_ne hother]; exact hasks⟩

/-- A step of a call that neither asked nor asks the platform. -/
theorem Sound.advance {thread : Nat} (h : Sound owner r) (hold : (r.calls thread).asks = none) (hnew : call.asks = none)
    (hcall : CallSound owner r call) : Sound owner (r.withCall thread call) := by
  refine h.change (Nat.le_refl _) (fun _ _ => rfl) rfl h.mapped h.expiry (hcall.mono (Nat.le_refl _) (fun _ _ => rfl) ?_) ?_ ?_ ?_
  · intro entry cell expiresAt hat
    exact ⟨cell, hat, fun _ => rfl⟩
  · intro entry cell expiresAt hat
    exact ⟨cell, hat, fun _ _ _ => rfl⟩
  · intro other entry hasks
    rw [hnew] at hasks
    cases hasks
  · intro entry cell expiresAt hat hcell
    obtain ⟨other, hother⟩ := h.asked hat hcell
    refine .inr ⟨other, ?_, hother⟩
    rintro rfl
    rw [hold] at hother
    cases hother

theorem setCell_self {entry expiresAt : Nat} {cell : OnceLock (Option Path)} (h : r.heap[entry]? = some ⟨cell, expiresAt⟩)
    (next : OnceLock (Option Path)) : (r.setCell entry next).heap[entry]? = some ⟨next, expiresAt⟩ := by
  simp [Resolver.setCell, h]

theorem setCell_of_ne {entry other : Nat} (h : other ≠ entry) (next : OnceLock (Option Path)) :
    (r.setCell entry next).heap[other]? = r.heap[other]? := by
  simp [Resolver.setCell, Ne.symm h]

/-- A step that sets the cell of an entry which no other call uses. -/
theorem Sound.set {thread entry expiresAt : Nat} {cell next : OnceLock (Option Path)} (h : Sound owner r)
    (hat : r.heap[entry]? = some ⟨cell, expiresAt⟩) (hfree : ∀ other, other ≠ thread → (r.calls other).uses ≠ some entry)
    (hold : ∀ other, (r.calls thread).asks = some other → other = entry)
    (hnew : ∀ other, call.asks = some other → other = entry) (hfilled : next ≠ .empty → call.asks = some entry)
    (hcall : CallSound owner (r.setCell entry next) call) : Sound owner ((r.setCell entry next).withCall thread call) := by
  have hother : ∀ {other : Nat} {cell' expires}, (r.setCell entry next).heap[other]? = some ⟨cell', expires⟩ → other ≠ entry →
      r.heap[other]? = some ⟨cell', expires⟩ := by
    intro other cell' expires hat' hne
    rwa [setCell_of_ne hne] at hat'
  refine h.change (Nat.le_refl _) (fun _ _ => rfl) rfl ?_ ?_ (hcall.mono (Nat.le_refl _) (fun _ _ => rfl) ?_) ?_ ?_ ?_
  · intro identity found hlookup
    obtain ⟨hlt, howns⟩ := h.mapped hlookup
    exact ⟨by simpa [Resolver.withCall, Resolver.setCell] using hlt, howns⟩
  · intro other cell' expires hat'
    by_cases hne : other = entry
    · subst hne
      obtain ⟨-, rfl⟩ := CacheEntry.mk.inj (Option.some.inj ((setCell_self hat next).symm.trans hat'))
      exact h.expiry hat
    · exact h.expiry (hother hat' hne)
  · intro other cell' expires hat'
    exact ⟨cell', hat', fun _ => rfl⟩
  · intro other cell' expires hat'
    by_cases hne : other = entry
    · subst hne
      obtain ⟨rfl, rfl⟩ := CacheEntry.mk.inj (Option.some.inj (hat.symm.trans hat'))
      exact ⟨next, setCell_self hat next, fun user huser huses => absurd huses (hfree user huser)⟩
    · exact ⟨cell', (setCell_of_ne hne next).trans hat', fun _ _ _ => rfl⟩
  · intro other found hasks hne
    obtain rfl := hnew found hasks
    exact fun hothers => hfree other hne (Call.uses_of_asks hothers)
  · intro other cell' expires hat' hcell
    by_cases hne : other = entry
    · subst hne
      obtain ⟨rfl, -⟩ := CacheEntry.mk.inj (Option.some.inj ((setCell_self hat next).symm.trans hat'))
      exact .inl (hfilled hcell)
    · obtain ⟨asker, hasker⟩ := h.asked (hother hat' hne) hcell
      refine .inr ⟨asker, ?_, hasker⟩
      rintro rfl
      exact hne (hold other hasker)

theorem le_checkedAdd (range now duration : Nat) :
    now ≤ (Resolver.checkedAdd range now duration).getD now ∧ (Resolver.checkedAdd range now duration).getD now ≤ now + duration := by
  unfold Resolver.checkedAdd
  split
  · exact ⟨Nat.le_add_right .., Nat.le_refl _⟩
  · exact ⟨Nat.le_refl _, Nat.le_add_right ..⟩

/-- A new entry belongs to the process that it was made for. -/
theorem Sound.insertEntry {thread now : Nat} {identity : ProcessIdentity} (h : Sound owner r)
    (hold : r.calls thread = .clocked identity now) :
    Sound (Function.update owner r.heap.length identity)
      ((r.insertEntry range identity now).2.withCall thread (.entered identity now r.heap.length)) := by
  have hnow : now ≤ r.clock := by
    have hcall := h.calls thread
    rwa [hold] at hcall
  obtain ⟨hle, hmax⟩ := le_checkedAdd range now cacheTtl
  have howner : ∀ entry, entry < r.heap.length → Function.update owner r.heap.length identity entry = owner entry :=
    fun entry hlt => Function.update_of_ne (Nat.ne_of_lt hlt) _ _
  have hcases : ∀ {entry : Nat} {cell expiresAt}, (r.heap ++ [(⟨.empty, (Resolver.checkedAdd range now cacheTtl).getD now⟩ :
      CacheEntry Path)])[entry]? = some ⟨cell, expiresAt⟩ → r.heap[entry]? = some ⟨cell, expiresAt⟩ ∨
      cell = .empty ∧ expiresAt = (Resolver.checkedAdd range now cacheTtl).getD now := by
    intro entry cell expiresAt hat
    rcases List.mem_append.mp (List.mem_of_getElem? hat) with hmem | hmem
    · rw [List.getElem?_append] at hat
      split at hat
      · exact .inl hat
      · next hge =>
        obtain ⟨rfl, rfl⟩ := CacheEntry.mk.inj (List.mem_singleton.mp (List.mem_of_getElem? hat))
        exact .inr ⟨rfl, rfl⟩
    · obtain ⟨rfl, rfl⟩ := CacheEntry.mk.inj (List.mem_singleton.mp hmem)
      exact .inr ⟨rfl, rfl⟩
  refine h.change (Nat.le_refl _) howner rfl ?_ ?_ ?_ ?_ ?_ ?_
  · intro identity' entry hlookup
    change ((r.entries.retain _).insert identity r.heap.length).lookup identity' = some entry at hlookup
    have hlength : ((r.insertEntry range identity now).2.withCall thread (.entered identity now r.heap.length)).heap.length =
        r.heap.length + 1 := by
      simp [Resolver.insertEntry, Resolver.withCall]
    rw [hlength]
    by_cases hsame : identity' = identity
    · subst hsame
      rw [AList.lookup_insert] at hlookup
      obtain rfl := Option.some.inj hlookup
      exact ⟨Nat.lt_succ_self _, Function.update_self ..⟩
    · rw [AList.lookup_insert_ne hsame, HashMap.lookup_retain] at hlookup
      obtain ⟨hlt, howns⟩ := h.mapped (Option.filter_eq_some_iff.mp hlookup).1
      exact ⟨Nat.lt_succ_of_lt hlt, (howner entry hlt).trans howns⟩
  · intro entry cell expiresAt hat
    rcases hcases hat with hat | ⟨-, rfl⟩
    · exact h.expiry hat
    · exact Nat.le_trans hmax (Nat.add_le_add_right hnow _)
  · exact ⟨Function.update_self .., _, _, List.getElem?_concat_length, hle⟩
  · intro entry cell expiresAt hat
    exact ⟨cell, (List.getElem?_append_left (List.getElem?_eq_some_iff.mp hat).1).trans hat, fun _ _ _ => rfl⟩
  · intro other entry hasks
    cases hasks
  · intro entry cell expiresAt hat hcell
    rcases hcases hat with hat | ⟨rfl, -⟩
    · obtain ⟨other, hother⟩ := h.asked hat hcell
      refine .inr ⟨other, ?_, hother⟩
      rintro rfl
      rw [hold] at hother
      cases hother
    · exact absurd rfl hcell

/-- A call that asks the platform is alone on its entry. -/
theorem Sound.lookingUp {thread now entry started : Nat} {identity : ProcessIdentity} (h : Sound owner r)
    (hold : r.calls thread = .lookingUp identity now entry started) :
    ∃ expiresAt, owner entry = identity ∧ r.heap[entry]? = some ⟨.initializing, expiresAt⟩ ∧ now ≤ expiresAt ∧
      expiresAt ≤ started + cacheTtl ∧ ∀ other, other ≠ thread → (r.calls other).uses ≠ some entry := by
  have hcall := h.calls thread
  rw [hold] at hcall
  obtain ⟨howns, expiresAt, hat, hnow, hstarted⟩ := hcall
  refine ⟨expiresAt, howns, hat, hnow, hstarted, ?_⟩
  intro other hother huses
  have hasks : (r.calls other).asks = some entry := by
    have hcall := h.calls other
    cases hc : r.calls other with
    | lookingUp identity' now' entry' started' =>
      rw [hc] at huses
      exact huses
    | returned identity' now' entry' directory lookup =>
      rw [hc] at huses hcall
      obtain rfl := Option.some.inj huses
      obtain ⟨-, expires, hset, -⟩ := hcall
      cases hat.symm.trans hset
    | _ =>
      rw [hc] at huses
      cases huses
  exact hother (h.sole hasks (by rw [hold]; rfl))

/-- Every step keeps the entries sound. -/
theorem Sound.step {action : Action Path} (h : Sound owner r) (hstep : step range r action = some r') :
    ∃ owner', Sound owner' r' := by
  cases action with
  | tick elapsed =>
    obtain rfl := Option.some.inj hstep
    refine ⟨owner, h.mapped, fun hat => ?_, fun thread => ?_, h.sole, h.asked⟩
    · exact Nat.le_trans (h.expiry hat) (Nat.add_le_add_right (Nat.le_add_right ..) _)
    · exact (h.calls thread).mono (Nat.le_add_right ..) (fun _ _ => rfl) (fun hat => ⟨_, hat, fun _ => rfl⟩)
  | call thread pid pidVersion =>
    simp only [ProcessContext.step] at hstep
    split at hstep
    · next pid hold =>
      obtain rfl := Option.some.inj hstep
      exact ⟨owner, h.advance (by rw [hold]; rfl) rfl (Nat.le_refl _)⟩
    · next hold =>
      obtain rfl := Option.some.inj hstep
      exact ⟨owner, h.advance (by rw [hold]; rfl) rfl trivial⟩
    · cases hstep
  | entry thread =>
    simp only [ProcessContext.step] at hstep
    split at hstep
    · next identity now hold =>
      obtain rfl := Option.some.inj hstep
      unfold Resolver.entry
      split
      · next entry hlookup =>
        split
        · next hvalid =>
          obtain ⟨hlt, howns⟩ := h.mapped hlookup
          obtain ⟨⟨cell, expiresAt⟩, hat⟩ : ∃ cached, r.heap[entry]? = some cached := ⟨_, List.getElem?_eq_getElem hlt⟩
          rw [Resolver.expiresAt, hat] at hvalid
          exact ⟨owner, h.advance (by rw [hold]; rfl) rfl ⟨howns, cell, expiresAt, hat, Nat.le_of_lt hvalid⟩⟩
        · exact ⟨_, h.insertEntry hold⟩
      · exact ⟨_, h.insertEntry hold⟩
    · cases hstep
  | getOrInit thread =>
    simp only [ProcessContext.step] at hstep
    split at hstep
    · next identity now entry hold =>
      have hcall := h.calls thread
      rw [hold] at hcall
      obtain ⟨howns, cell, expiresAt, hat, hnow⟩ := hcall
      rw [hat] at hstep
      cases cell with
      | empty =>
        obtain rfl := Option.some.inj hstep
        have hfree : ∀ other, other ≠ thread → (r.calls other).uses ≠ some entry := by
          intro other _ huses
          obtain ⟨cell, expires, hused, hcell⟩ := (h.calls other).used huses
          obtain ⟨rfl, -⟩ := CacheEntry.mk.inj (Option.some.inj (hat.symm.trans hused))
          exact hcell rfl
        refine ⟨owner, h.set hat hfree ?_ ?_ (fun _ => rfl) ?_⟩
        · intro other hasks
          rw [hold] at hasks
          cases hasks
        · intro other hasks
          exact (Option.some.inj hasks).symm
        · exact ⟨howns, expiresAt, setCell_self hat _, hnow, h.expiry hat⟩
      | initializing => cases hstep
      | set directory =>
        obtain rfl := Option.some.inj hstep
        refine ⟨owner, h.advance (by rw [hold]; rfl) rfl ⟨howns, expiresAt, hat, hnow, ?_⟩⟩
        intro started hstarted
        cases hstarted
    · cases hstep
  | answer thread directory =>
    simp only [ProcessContext.step] at hstep
    split at hstep
    · next identity now entry started hold =>
      obtain rfl := Option.some.inj hstep
      obtain ⟨expiresAt, howns, hat, hnow, hstarted, hfree⟩ := h.lookingUp hold
      refine ⟨owner, h.set hat hfree ?_ ?_ (fun _ => rfl) ⟨howns, expiresAt, setCell_self hat _, hnow, ?_⟩⟩
      · intro other hasks
        rw [hold] at hasks
        exact (Option.some.inj hasks).symm
      · intro other hasks
        exact (Option.some.inj hasks).symm
      · intro started' hmem
        obtain rfl := Option.some.inj hmem
        exact hstarted
    · cases hstep
  | unwind thread =>
    simp only [ProcessContext.step] at hstep
    split at hstep
    · next identity now entry started hold =>
      obtain rfl := Option.some.inj hstep
      obtain ⟨expiresAt, howns, hat, hnow, hstarted, hfree⟩ := h.lookingUp hold
      refine ⟨owner, h.set hat hfree ?_ ?_ (fun hne => absurd rfl hne) trivial⟩
      · intro other hasks
        rw [hold] at hasks
        exact (Option.some.inj hasks).symm
      · intro other hasks
        cases hasks
    · cases hstep

theorem sound_new : Sound owner (Resolver.new : Resolver Path) where
  mapped h := by cases h
  expiry h := by cases h
  calls _ := trivial
  sole h := by cases h
  asked h := by cases h

/-- The entries are sound along every schedule. -/
theorem sound_run {actions : List (Action Path)} (h : run (step range) Resolver.new actions = some r) :
    ∃ owner, Sound owner r := by
  refine @run_invariant _ _ _ (fun r => ∃ owner, Sound owner r) ?_ _ _ _ ⟨fun _ => ⟨0, none⟩, sound_new⟩ h
  rintro s action s' ⟨owner, hs⟩ hstep
  exact hs.step hstep

/-- A directory comes from the one lookup of its entry. -/
theorem Sound.returned {thread now entry : Nat} {identity : ProcessIdentity} {directory : Option Path} {lookup : Option Nat}
    (h : Sound owner r) (hreturned : r.calls thread = .returned identity now entry directory lookup) :
    ∃ asker now' started, r.calls asker = .returned identity now' entry directory (some started) ∧ now ≤ started + cacheTtl := by
  have hcall := h.calls thread
  rw [hreturned] at hcall
  obtain ⟨howns, expiresAt, hat, hnow, -⟩ := hcall
  obtain ⟨asker, hasker⟩ := h.asked hat (by simp)
  have hother := h.calls asker
  cases hc : r.calls asker with
  | lookingUp identity' now' entry' started =>
    rw [hc] at hasker hother
    obtain rfl := Option.some.inj hasker
    obtain ⟨-, expires, hinit, -⟩ := hother
    cases hat.symm.trans hinit
  | returned identity' now' entry' directory' lookup' =>
    rw [hc] at hasker hother
    cases lookup' with
    | none => cases hasker
    | some started =>
      obtain rfl := Option.some.inj hasker
      obtain ⟨howns', expires, hset, -, hstarted⟩ := hother
      obtain ⟨hcell, rfl⟩ := CacheEntry.mk.inj (Option.some.inj (hat.symm.trans hset))
      obtain rfl := OnceLock.set.inj hcell
      obtain rfl := howns.symm.trans howns'
      exact ⟨asker, now', started, hc, Nat.le_trans hnow (hstarted started rfl)⟩
  | _ =>
    rw [hc] at hasker
    cases hasker

/-- A call that has not returned yet. -/
def Call.running : Call Path → Bool
  | .clocked _ _ | .entered _ _ _ | .lookingUp _ _ _ _ => true
  | _ => false

/-- A call waits for nothing but the lookup of its own entry. -/
theorem Sound.progress {thread : Nat} (h : Sound owner r) (hrunning : (r.calls thread).running = true) :
    (∃ action : Action Path, action.thread = some thread ∧ (ProcessContext.step range r action).isSome = true) ∨
    ∃ identity now entry other now' started, r.calls thread = .entered identity now entry ∧
      r.calls other = .lookingUp identity now' entry started := by
  have hcall := h.calls thread
  cases hc : r.calls thread with
  | clocked identity now => exact .inl ⟨.entry thread, rfl, by simp [ProcessContext.step, hc]⟩
  | entered identity now entry =>
    rw [hc] at hcall
    obtain ⟨howns, cell, expiresAt, hat, -⟩ := hcall
    cases cell with
    | empty => exact .inl ⟨.getOrInit thread, rfl, by simp [ProcessContext.step, hc, hat]⟩
    | set directory => exact .inl ⟨.getOrInit thread, rfl, by simp [ProcessContext.step, hc, hat]⟩
    | initializing =>
      obtain ⟨other, hasks⟩ := h.asked hat (by simp)
      have hother := h.calls other
      cases ho : r.calls other with
      | lookingUp identity' now' entry' started =>
        rw [ho] at hasks hother
        obtain rfl := Option.some.inj hasks
        obtain rfl := howns.symm.trans hother.1
        exact .inr ⟨identity, now, entry', other, now', started, rfl, ho⟩
      | returned identity' now' entry' directory lookup =>
        rw [ho] at hasks hother
        obtain rfl := Option.some.inj (Call.uses_of_asks hasks)
        obtain ⟨-, expires, hset, -⟩ := hother
        cases hat.symm.trans hset
      | _ =>
        rw [ho] at hasks
        cases hasks
  | lookingUp identity now entry started => exact .inl ⟨.unwind thread, rfl, by simp [ProcessContext.step, hc]⟩
  | _ =>
    rw [hc] at hrunning
    cases hrunning

/-- On every schedule, a returned directory was looked up for the same process and version, by the only call that asked
for its entry, and no more than a minute before the call began; and a call is held up by nothing but the running lookup
for its own process. -/
theorem directories_shared {actions : List (Action Path)} (h : run (step range) Resolver.new actions = some r) :
    (∀ {thread identity now entry directory lookup}, r.calls thread = .returned identity now entry directory lookup →
      ∃ asker now' started, r.calls asker = .returned identity now' entry directory (some started) ∧
        now ≤ started + cacheTtl ∧ ∀ {other identity' now'' directory' started'},
          r.calls other = .returned identity' now'' entry directory' (some started') → other = asker) ∧
    ∀ {thread}, (r.calls thread).running = true →
      (∃ action : Action Path, action.thread = some thread ∧ (step range r action).isSome = true) ∨
      ∃ identity now entry other now' started, r.calls thread = .entered identity now entry ∧
        r.calls other = .lookingUp identity now' entry started := by
  obtain ⟨owner, hs⟩ := sound_run h
  refine ⟨?_, hs.progress⟩
  intro thread identity now entry directory lookup hreturned
  obtain ⟨asker, now', started, hasker, hnow⟩ := hs.returned hreturned
  refine ⟨asker, now', started, hasker, hnow, ?_⟩
  intro other identity' now'' directory' started' hother
  exact hs.sole (by rw [hother]; rfl) (by rw [hasker]; rfl)

/-- Two flows of one process; the second one begins while the first one asks. -/
def burst : List (Action Nat) :=
  [.call 0 (some 42) (some 7), .entry 0, .getOrInit 0, .tick 5, .call 1 (some 42) (some 7), .entry 1, .answer 0 (some 3),
    .getOrInit 1]

def afterBurst : Resolver Nat := (run (step 1000000000000) Resolver.new burst).getD Resolver.new

theorem burst_shared : ∃ asker now' started,
    afterBurst.calls asker = .returned ⟨42, some 7⟩ now' 0 (some 3) (some started) ∧ 5 ≤ started + cacheTtl ∧
      ∀ {other identity' now'' directory' started'},
        afterBurst.calls other = .returned identity' now'' 0 directory' (some started') → other = asker :=
  (@directories_shared Nat 1000000000000 afterBurst burst rfl).1 (show afterBurst.calls 1 = .returned ⟨42, some 7⟩ 5 0 (some 3) none from rfl)

end Sharing
end Abyss.Broker.ProcessContext
