import Mathlib.Data.List.Basic

/-! Runs of a transition system whose steps are chosen by an action: the schedule, the
failures and the cancellations of a run are the list of its actions. -/
namespace Abyss.System
variable {σ α : Type}

/-- Take the actions in order; a disabled action ends the run without a state. -/
def run (step : σ → α → Option σ) (s : σ) : List α → Option σ
  | [] => some s
  | action :: rest => (step s action).bind (run step · rest)

variable {step : σ → α → Option σ}

theorem run_cons {s s' : σ} {action : α} {rest : List α} :
    run step s (action :: rest) = some s' ↔ ∃ next, step s action = some next ∧ run step next rest = some s' := by
  rw [run, Option.bind_eq_some_iff]

theorem run_append {s s' : σ} {front back : List α} :
    run step s (front ++ back) = some s' ↔ ∃ middle, run step s front = some middle ∧ run step middle back = some s' := by
  induction front generalizing s with
  | nil => simp [run]
  | cons action front ih =>
    simp only [List.cons_append, run_cons, ih]
    constructor
    · rintro ⟨next, hstep, middle, hfront, hback⟩
      exact ⟨middle, ⟨next, hstep, hfront⟩, hback⟩
    · rintro ⟨middle, ⟨next, hstep, hfront⟩, hback⟩
      exact ⟨next, hstep, middle, hfront, hback⟩

/-- What every allowed step preserves holds at the end of a run of allowed steps. -/
theorem run_invariant_of {inv : σ → Prop} {allowed : α → Prop}
    (hstep : ∀ {s action s'}, allowed action → inv s → step s action = some s' → inv s')
    {s s' : σ} {actions : List α} (hallowed : ∀ action ∈ actions, allowed action) (hs : inv s)
    (h : run step s actions = some s') : inv s' := by
  induction actions generalizing s with
  | nil =>
    obtain rfl := Option.some.inj h
    exact hs
  | cons action rest ih =>
    obtain ⟨next, hnext, hrest⟩ := run_cons.mp h
    apply ih (fun a ha => hallowed a (List.mem_cons_of_mem _ ha)) _ hrest
    exact hstep (hallowed action List.mem_cons_self) hs hnext

/-- What every step preserves holds at the end of a run. -/
theorem run_invariant {inv : σ → Prop} (hstep : ∀ {s action s'}, inv s → step s action = some s' → inv s')
    {s s' : σ} {actions : List α} (hs : inv s) (h : run step s actions = some s') : inv s' :=
  @run_invariant_of σ α step inv (fun _ => True) (fun _ => hstep) s s' actions (fun _ _ => trivial) hs h

/-- A condition on every step that a schedule takes. -/
def Along (step : σ → α → Option σ) (condition : σ → α → Prop) (s : σ) : List α → Prop
  | [] => True
  | action :: rest => condition s action ∧ ∀ next, step s action = some next → Along step condition next rest

theorem Along.cons {condition : σ → α → Prop} {s next : σ} {action : α} {rest : List α} (hcondition : condition s action)
    (hstep : step s action = some next) (hrest : Along step condition next rest) :
    Along step condition s (action :: rest) := by
  refine ⟨hcondition, fun other hother => ?_⟩
  obtain rfl := Option.some.inj (hstep.symm.trans hother)
  exact hrest

theorem Along.append {condition : σ → α → Prop} {s middle : σ} {front back : List α}
    (h : Along step condition s (front ++ back)) (hfront : run step s front = some middle) :
    Along step condition s front ∧ Along step condition middle back := by
  induction front generalizing s with
  | nil =>
    obtain rfl := Option.some.inj hfront
    exact ⟨trivial, h⟩
  | cons action front ih =>
    obtain ⟨next, hnext, hrest⟩ := run_cons.mp hfront
    obtain ⟨hfirst, hback⟩ := ih (h.2 next hnext) hrest
    exact ⟨.cons h.1 hnext hfirst, hback⟩

/-- What every step under a condition preserves holds at the end of a run whose steps all meet it. -/
theorem run_invariant_along {inv : σ → Prop} {condition : σ → α → Prop}
    (hstep : ∀ {s action s'}, condition s action → inv s → step s action = some s' → inv s')
    {s s' : σ} {actions : List α} (hs : inv s) (halong : Along step condition s actions)
    (h : run step s actions = some s') : inv s' := by
  induction actions generalizing s with
  | nil =>
    obtain rfl := Option.some.inj h
    exact hs
  | cons action rest ih =>
    obtain ⟨next, hnext, hrest⟩ := run_cons.mp h
    exact ih (hstep halong.1 hs hnext) (halong.2 next hnext) hrest

/-- An entry of a table of tasks behind the update of one of them. -/
theorem getElem?_set_cases {tasks : List α} {i j : Nat} {next task : α} (h : (tasks.set i next)[j]? = some task) :
    j = i ∧ task = next ∨ j ≠ i ∧ tasks[j]? = some task := by
  by_cases hj : i = j
  · subst hj
    rw [List.getElem?_set_self'] at h
    obtain ⟨old, -, rfl⟩ := Option.map_eq_some_iff.mp h
    exact .inl ⟨rfl, rfl⟩
  · rw [List.getElem?_set_ne hj] at h
    exact .inr ⟨Ne.symm hj, h⟩

end Abyss.System
