import Mathlib.Data.List.Basic

/-! Programs over a state that may fail: a failure keeps what was done before it. -/
namespace Abyss.System

/-- A program that changes a state, and returns a value or fails. -/
def Fallible (σ ε α : Type) : Type := σ → Except ε α × σ

namespace Fallible
variable {σ ε α β : Type}

instance : Monad (Fallible σ ε) where
  pure a := fun s => (.ok a, s)
  bind x f := fun s => match x s with
    | (.ok a, s') => f a s'
    | (.error e, s') => (.error e, s')

def get : Fallible σ ε σ := fun s => (.ok s, s)

def modify (f : σ → σ) : Fallible σ ε Unit := fun s => (.ok (), f s)

/-- Forget the outcome, but not the effect. -/
def attempt (x : Fallible σ ε α) : Fallible σ ε Unit := fun s => (.ok (), (x s).2)

/-- Clean up behind a failure, which stays the outcome. -/
def onError (x : Fallible σ ε α) (cleanup : Fallible σ ε Unit) : Fallible σ ε α := fun s =>
  match x s with
  | (.ok a, s') => (.ok a, s')
  | (.error e, s') => (.error e, (cleanup s').2)

def when (c : Bool) (x : Fallible σ ε Unit) : Fallible σ ε Unit := if c then x else pure ()

/-- A result that is computed without the state. -/
def lift (r : Except ε α) : Fallible σ ε α := fun s => (r, s)

/-- Rounds of a loop, each of which ends it or goes on with other values. -/
def rounds (round : β → Fallible σ ε (α ⊕ β)) : Nat → β → Fallible σ ε (Option α)
  | 0, _ => pure none
  | fuel + 1, b => do
    match ← round b with
    | .inl a => return some a
    | .inr next => rounds round fuel next

/-- A program on a part of the state, with the errors of the whole. -/
def zoom {τ ε' : Type} (part : σ → τ) (put : τ → σ → σ) (fault : ε' → ε) (x : Fallible τ ε' α) : Fallible σ ε α := fun s =>
  ((x (part s)).1.mapError fault, put (x (part s)).2 s)

/-- Programs one after the other, each of which starts where the one before it has ended, also in failure. -/
def all : List (Fallible σ ε α) → σ → List (Except ε α) × σ
  | [], s => ([], s)
  | x :: rest, s => ((x s).1 :: (all rest (x s).2).1, (all rest (x s).2).2)

section Post

/-- The outcome and the final state of a program from one state. -/
def Post (x : Fallible σ ε α) (s : σ) (Q : Except ε α → σ → Prop) : Prop := Q (x s).1 (x s).2

variable {x : Fallible σ ε α} {f : α → Fallible σ ε β} {s : σ} {P Q : Except ε α → σ → Prop}

theorem Post.mono (h : Post x s P) (hpq : ∀ r s', P r s' → Q r s') : Post x s Q := hpq _ _ h

theorem Post.and (hp : Post x s P) (hq : Post x s Q) : Post x s (fun r s' => P r s' ∧ Q r s') := ⟨hp, hq⟩

theorem Post.pure {a : α} (h : Q (.ok a) s) : Post (Pure.pure a : Fallible σ ε α) s Q := h

/-- What a program reads is its state. -/
theorem Post.get {g : σ → Fallible σ ε α} (h : Post (g s) s Q) : Post (Fallible.get >>= g) s Q := h

theorem Post.modify {g : σ → σ} {R : Except ε Unit → σ → Prop} (h : R (.ok ()) (g s)) : Post (Fallible.modify g) s R := h

/-- The rest of a program starts where its first part has ended. -/
theorem Post.bind {R : Except ε β → σ → Prop} (hx : Post x s P) (hok : ∀ a s', P (.ok a) s' → Post (f a) s' R)
    (herror : ∀ e s', P (.error e) s' → R (.error e) s') : Post (x >>= f) s R := by
  unfold Post at *
  change R (match x s with | (.ok a, s') => f a s' | (.error e, s') => (.error e, s')).1
    (match x s with | (.ok a, s') => f a s' | (.error e, s') => (.error e, s')).2
  cases hresult : x s with
  | mk r s' =>
    rw [hresult] at hx
    cases r with
    | ok a => exact hok a s' hx
    | error e => exact herror e s' hx

theorem Post.map {g : α → β} {R : Except ε β → σ → Prop} (hx : Post x s P) (hok : ∀ a s', P (.ok a) s' → R (.ok (g a)) s')
    (herror : ∀ e s', P (.error e) s' → R (.error e) s') : Post (g <$> x) s R :=
  Post.bind hx (fun a s' ha => Post.pure (hok a s' ha)) herror

theorem Post.attempt {R : Except ε Unit → σ → Prop} (hx : Post x s (fun _ s' => R (.ok ()) s')) :
    Post (Fallible.attempt x) s R := hx

theorem Post.onError {cleanup : Fallible σ ε Unit} (hx : Post x s P) (hok : ∀ a s', P (.ok a) s' → Q (.ok a) s')
    (herror : ∀ e s', P (.error e) s' → Post cleanup s' (fun _ s'' => Q (.error e) s'')) :
    Post (Fallible.onError x cleanup) s Q := by
  unfold Post Fallible.onError at *
  cases hresult : x s with
  | mk r s' =>
    rw [hresult] at hx
    cases r with
    | ok a => exact hok a s' hx
    | error e => exact herror e s' hx

theorem Post.when {c : Bool} {y : Fallible σ ε Unit} {R : Except ε Unit → σ → Prop} (hy : c = true → Post y s R)
    (hskip : c = false → R (.ok ()) s) : Post (Fallible.when c y) s R := by
  cases c with
  | true => exact hy rfl
  | false => exact hskip rfl

/-! What is known of the first part of a program starts the rest of it. -/

theorem Post.bind_pure {a : α} {R : Except ε β → σ → Prop} (h : Post (f a) s R) :
    Post ((Pure.pure a : Fallible σ ε α) >>= f) s R := h

theorem Post.bind_modify {g : σ → σ} {f : Unit → Fallible σ ε β} {R : Except ε β → σ → Prop} (h : Post (f ()) (g s) R) :
    Post (Fallible.modify g >>= f) s R := h

theorem Post.lift {r : Except ε α} (h : Q r s) : Post (Fallible.lift r) s Q := h

theorem Post.bind_lift {r : Except ε α} {R : Except ε β → σ → Prop} (hok : ∀ a, r = .ok a → Post (f a) s R)
    (herror : ∀ e, r = .error e → R (.error e) s) : Post (Fallible.lift r >>= f) s R := by
  cases r with
  | ok a => exact hok a rfl
  | error e => exact herror e rfl

theorem Post.zoom {τ ε' : Type} {part : σ → τ} {put : τ → σ → σ} {fault : ε' → ε} {x : Fallible τ ε' α}
    {R : Except ε' α → τ → Prop} (hx : Post x (part s) R) (h : ∀ r t, R r t → Q (r.mapError fault) (put t s)) :
    Post (Fallible.zoom part put fault x) s Q := h _ _ hx

/-- What the rounds keep holds where the loop ends; it ends while the rounds lower `left`. -/
theorem Post.rounds {round : β → Fallible σ ε (α ⊕ β)} {inv : β → σ → Prop} {left : β → Nat}
    {R : Except ε (Option α) → σ → Prop}
    (hround : ∀ b s, inv b s → Post (round b) s (fun r s' => match r with
      | .ok (.inl a) => R (.ok (some a)) s'
      | .ok (.inr next) => inv next s' ∧ left next < left b
      | .error e => R (.error e) s'))
    {fuel : Nat} {b : β} (hfuel : left b < fuel) {s : σ} (hb : inv b s) : Post (Fallible.rounds round fuel b) s R := by
  induction fuel generalizing b s with
  | zero => exact absurd hfuel (Nat.not_lt_zero _)
  | succ fuel ih =>
    apply Post.bind (hround b s hb)
    · intro outcome s' houtcome
      cases outcome with
      | inl a => exact Post.pure houtcome
      | inr next => exact ih (Nat.lt_of_lt_of_le houtcome.2 (Nat.le_of_lt_succ hfuel)) houtcome.1
    · intro e s' he
      exact he

/-- A program is described by its run. -/
theorem Post.run (x : Fallible σ ε α) (s : σ) : Post x s (fun r s' => x s = (r, s')) := rfl

/-- What a run from a state returns. -/
theorem Post.apply (h : Post x s Q) {r : Except ε α} {s' : σ} (hrun : x s = (r, s')) : Q r s' := by
  unfold Post at h
  rw [hrun] at h
  exact h

end Post

section Run
variable {x : Fallible σ ε α} {f : α → Fallible σ ε β} {s s' : σ}

theorem bind_of_ok {a : α} (h : x s = (.ok a, s')) : (x >>= f) s = f a s' := by
  change (match x s with | (.ok a, s') => f a s' | (.error e, s') => (.error e, s')) = _
  rw [h]

theorem bind_of_error {e : ε} (h : x s = (.error e, s')) : (x >>= f) s = (.error e, s') := by
  change (match x s with | (.ok a, s') => f a s' | (.error e, s') => (.error e, s')) = _
  rw [h]

end Run

section All
variable {programs front back : List (Fallible σ ε α)} {s : σ}

theorem all_append : all (front ++ back) s =
    ((all front s).1 ++ (all back (all front s).2).1, (all back (all front s).2).2) := by
  induction front generalizing s with
  | nil => rfl
  | cons x rest ih => simp only [List.cons_append, all, ih]

theorem length_all : (all programs s).1.length = programs.length := by
  induction programs generalizing s with
  | nil => rfl
  | cons x rest ih => rw [all, List.length_cons, ih, List.length_cons]

/-- The outcome of one program among others. -/
theorem getElem?_all {x : Fallible σ ε α} :
    (all (front ++ x :: back) s).1[front.length]? = some (x (all front s).2).1 := by
  rw [all_append, List.getElem?_append_right (Nat.le_of_eq length_all), length_all, Nat.sub_self]
  rfl

/-- What every program keeps holds behind all of them, and what each outcome satisfies holds of all outcomes. -/
theorem all_invariant {inv : σ → Prop} {good : Except ε α → Prop}
    (hprogram : ∀ x ∈ programs, ∀ s, inv s → Post x s (fun r s' => inv s' ∧ good r)) (hs : inv s) :
    inv (all programs s).2 ∧ ∀ r ∈ (all programs s).1, good r := by
  induction programs generalizing s with
  | nil => exact ⟨hs, by simp [all]⟩
  | cons x rest ih =>
    obtain ⟨hnext, hgood⟩ := hprogram x List.mem_cons_self s hs
    obtain ⟨hlast, hrest⟩ := ih (fun y hy => hprogram y (List.mem_cons_of_mem _ hy)) hnext
    refine ⟨hlast, fun r hr => ?_⟩
    rcases List.mem_cons.mp hr with rfl | hr
    · exact hgood
    · exact hrest r hr

end All
end Fallible
end Abyss.System
