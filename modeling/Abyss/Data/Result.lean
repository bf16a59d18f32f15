/-! Results of fallible programs, with their errors forgotten. -/
namespace Abyss.Data
variable {ε α β γ : Type}

@[simp] theorem toOption_ok (a : α) : (Except.ok a : Except ε α).toOption = some a := rfl

@[simp] theorem toOption_error (e : ε) : (Except.error e : Except ε α).toOption = none := rfl

@[simp] theorem toOption_bind (x : Except ε α) (f : α → Except ε β) :
    (x >>= f).toOption = x.toOption.bind (fun a => (f a).toOption) := by
  cases x <;> rfl

@[simp] theorem toOption_map (f : α → β) (x : Except ε α) : (f <$> x).toOption = x.toOption.map f := by
  cases x <;> rfl

@[simp] theorem toOption_ite {p : Prop} [Decidable p] (x y : Except ε α) :
    (if p then x else y).toOption = if p then x.toOption else y.toOption := by
  split <;> rfl

theorem toOption_eq_none {x : Except ε α} : x.toOption = none ↔ ∃ e, x = .error e := by
  cases x <;> simp

theorem toOption_eq_some {x : Except ε α} {a : α} : x.toOption = some a ↔ x = .ok a := by
  cases x <;> simp

theorem toOption_mapM (f : α → Except ε β) (as : List α) :
    (as.mapM f).toOption = as.mapM (fun a => (f a).toOption) := by
  induction as with
  | nil => rfl
  | cons a as ih =>
    rw [List.mapM_cons, List.mapM_cons, toOption_bind]
    simp only [toOption_bind, ih]
    rfl

theorem mapM_congr {f g : α → Option β} {as : List α} (h : ∀ a ∈ as, f a = g a) : as.mapM f = as.mapM g := by
  induction as with
  | nil => rfl
  | cons a as ih =>
    rw [List.mapM_cons, List.mapM_cons, h a List.mem_cons_self, ih (fun b hb => h b (List.mem_cons_of_mem _ hb))]

theorem mapM_map (f : α → Option β) (g : β → γ) (as : List α) :
    (as.mapM f).map (List.map g) = as.mapM (fun a => (f a).map g) := by
  induction as with
  | nil => rfl
  | cons a as ih =>
    rw [List.mapM_cons, List.mapM_cons, ← ih]
    cases f a with
    | none => rfl
    | some b => cases as.mapM f <;> rfl

/-! The same laws for `do` blocks: these keep the blocks in the form in which they are written. -/

theorem toOption_do (x : Except ε α) (f : α → Except ε β) : (x >>= f).toOption = x.toOption >>= fun a => (f a).toOption :=
  toOption_bind x f

theorem none_do (f : α → Option β) : (none >>= f) = none := rfl

theorem some_do (a : α) (f : α → Option β) : (some a >>= f) = f a := rfl

theorem do_none (x : Option α) : (x >>= fun _ => (none : Option β)) = none := by
  cases x <;> rfl

section Checks

/-- A check that fails with an error. -/
def refuseIf (c : Prop) [Decidable c] (e : ε) : Except ε Unit := if c then .error e else .ok ()

/-- A sequence succeeds through the successes of its parts. -/
theorem do_eq_ok {x : Except ε α} {f : α → Except ε β} {b : β} : (x >>= f) = .ok b ↔ ∃ a, x = .ok a ∧ f a = .ok b := by
  cases x with
  | ok a => exact ⟨fun h => ⟨a, rfl, h⟩, by rintro ⟨_, ⟨⟩, h⟩; exact h⟩
  | error e => exact ⟨fun h => absurd h (by rintro ⟨⟩), by rintro ⟨_, h, -⟩; cases h⟩

theorem refuseIf_eq_ok {c : Prop} [Decidable c] {e : ε} {u : Unit} : refuseIf c e = .ok u ↔ ¬ c := by
  unfold refuseIf
  split
  · next h => exact ⟨fun hf => absurd hf (by rintro ⟨⟩), fun hf => absurd h hf⟩
  · next h => exact ⟨fun _ => h, fun _ => rfl⟩

theorem mapError_eq_ok {ε' : Type} {x : Except ε α} {f : ε → ε'} {a : α} : x.mapError f = .ok a ↔ x = .ok a := by
  cases x with
  | ok b => exact ⟨fun h => congrArg Except.ok (Except.ok.inj h), fun h => congrArg Except.ok (Except.ok.inj h)⟩
  | error e => exact ⟨fun h => absurd h (by rintro ⟨⟩), fun h => absurd h (by rintro ⟨⟩)⟩

theorem mapError_eq_error {ε' : Type} {x : Except ε α} {f : ε → ε'} {e : ε'} :
    x.mapError f = .error e ↔ ∃ source, x = .error source ∧ f source = e := by
  cases x with
  | ok b => exact ⟨fun h => absurd h (by rintro ⟨⟩), by rintro ⟨_, ⟨⟩, -⟩⟩
  | error source => exact ⟨fun h => ⟨source, rfl, Except.error.inj h⟩, by rintro ⟨_, ⟨⟩, rfl⟩; rfl⟩

/-- Fails at the first item that a check finds, or on which the check itself fails. -/
def refuseAny (check : α → Except ε Bool) (refusal : α → ε) : List α → Except ε Unit
  | [] => .ok ()
  | a :: rest => match check a with
    | .error e => .error e
    | .ok true => .error (refusal a)
    | .ok false => refuseAny check refusal rest

theorem refuseAny_eq_ok {check : α → Except ε Bool} {refusal : α → ε} {l : List α} :
    refuseAny check refusal l = .ok () ↔ ∀ a ∈ l, check a = .ok false := by
  induction l with
  | nil => exact ⟨fun _ _ ha => absurd ha List.not_mem_nil, fun _ => rfl⟩
  | cons a rest ih =>
    rw [List.forall_mem_cons, refuseAny, ← ih]
    split <;> simp_all

/-- A failure is that of an item of the list. -/
theorem refuseAny_eq_error {check : α → Except ε Bool} {refusal : α → ε} {l : List α} {e : ε}
    (h : refuseAny check refusal l = .error e) : ∃ a ∈ l, check a = .error e ∨ check a = .ok true ∧ e = refusal a := by
  induction l with
  | nil => cases h
  | cons a rest ih =>
    rw [refuseAny] at h
    split at h
    · next hcheck => exact ⟨a, List.mem_cons_self, .inl (hcheck.trans (congrArg Except.error (Except.error.inj h)))⟩
    · next hcheck => exact ⟨a, List.mem_cons_self, .inr ⟨hcheck, (Except.error.inj h).symm⟩⟩
    · obtain ⟨b, hb, hcheck⟩ := ih h
      exact ⟨b, List.mem_cons_of_mem _ hb, hcheck⟩

end Checks

end Abyss.Data
