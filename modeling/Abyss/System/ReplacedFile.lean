import Abyss.System.Fallible
import Mathlib.Logic.Function.Basic

/-! A file that is replaced as a whole: its new contents are written to a temporary file, which is renamed over it. -/
namespace Abyss.System

/-- A file, and the temporary files of the processes that replace it. -/
structure ReplacedFile where
  file : Option (List UInt8)
  temporary : Nat → Option (List UInt8)

/-- Where a replacement stops: before there is a temporary file, with a part of it written, or at a step behind that. -/
inductive WriteFault (Step : Type) where
  | create
  | write (written : List UInt8)
  | step (step : Step)
  deriving DecidableEq, Repr

/-- What goes wrong for a process: where it stops, and whether its temporary file then stays. -/
structure WriteFaults (Step : Type) where
  fault : Option (WriteFault Step)
  cleanup : Bool

namespace ReplacedFile
variable {Step : Type}

section Programs
variable (pid : Nat) (faults : WriteFaults Step) (contents : List UInt8)

def setTemporary (contents : Option (List UInt8)) : Fallible ReplacedFile (WriteFault Step) Unit :=
  Fallible.modify fun f => { f with temporary := Function.update f.temporary pid contents }

def fail (fault : WriteFault Step) : Fallible ReplacedFile (WriteFault Step) Unit := Fallible.lift (.error fault)

/-- Create a new temporary file, write it and rename it. -/
def writeSteps : Fallible ReplacedFile (WriteFault Step) Unit := do
  if ((← Fallible.get).temporary pid).isSome then fail .create
  else match faults.fault with
    | some .create => fail .create
    | some (.write written) =>
      setTemporary pid (some written)
      fail (.write written)
    | some (.step step) =>
      setTemporary pid (some contents)
      fail (.step step)
    | none =>
      Fallible.modify fun f => { f with file := some contents }
      setTemporary pid none

/-- The temporary file is removed behind a failure, also one that an earlier process has left. -/
def replace : Fallible ReplacedFile (WriteFault Step) Unit :=
  Fallible.onError (writeSteps pid faults contents) (Fallible.when (!faults.cleanup) (setTemporary pid none))

end Programs

section Outcomes
variable {pid : Nat} {faults : WriteFaults Step} {f f' : ReplacedFile}

/-- Without the temporary file of a process. -/
def cleared (f : ReplacedFile) (pid : Nat) : ReplacedFile := { f with temporary := Function.update f.temporary pid none }

/-- The process can replace the file. -/
def Writable (pid : Nat) (faults : WriteFaults Step) (f : ReplacedFile) : Prop := f.temporary pid = none ∧ faults.fault = none

/-- Only the temporary file of the process may have changed, and it stays only where it could not be removed. -/
structure Cleared (pid : Nat) (faults : WriteFaults Step) (f f' : ReplacedFile) : Prop where
  same : f'.cleared pid = f.cleared pid
  removed : faults.cleanup = false → f'.temporary pid = none

theorem cleared_cleared (f : ReplacedFile) (pid : Nat) : (f.cleared pid).cleared pid = f.cleared pid := by
  unfold cleared
  rw [Function.update_idem]

theorem Cleared.file_eq (h : Cleared pid faults f f') : f'.file = f.file := by
  have hfile : (f'.cleared pid).file = (f.cleared pid).file := congrArg file h.same
  exact hfile

theorem Cleared.temporary_eq (h : Cleared pid faults f f') {other : Nat} (hother : pid ≠ other) :
    f'.temporary other = f.temporary other := by
  have hrest : (f'.cleared pid).temporary other = (f.cleared pid).temporary other :=
    congrFun (congrArg temporary h.same) other
  simp only [cleared] at hrest
  rwa [Function.update_of_ne hother.symm, Function.update_of_ne hother.symm] at hrest

theorem writeSteps_post (contents : List UInt8) (f : ReplacedFile) :
    Fallible.Post (writeSteps pid faults contents) f (fun r f' =>
      Writable pid faults f ∧ r = .ok () ∧ f' = { f.cleared pid with file := some contents } ∨
      ¬ Writable pid faults f ∧ (∃ e, r = .error e) ∧ f'.cleared pid = f.cleared pid) := by
  unfold Writable writeSteps
  apply Fallible.Post.get
  split
  · next hleft =>
    refine Fallible.Post.lift (.inr ⟨fun h => ?_, ⟨_, rfl⟩, rfl⟩)
    rw [h.1] at hleft
    cases hleft
  · next hleft =>
    have hnone : f.temporary pid = none := Option.not_isSome_iff_eq_none.mp hleft
    cases hfault : faults.fault with
    | none => exact Fallible.Post.bind_modify (Fallible.Post.modify (.inl ⟨⟨hnone, rfl⟩, rfl, rfl⟩))
    | some fault =>
      have hstop : ¬ (f.temporary pid = none ∧ some fault = none) := fun h => Option.some_ne_none _ h.2
      cases fault with
      | create => exact Fallible.Post.lift (.inr ⟨hstop, ⟨_, rfl⟩, rfl⟩)
      | write written =>
        exact Fallible.Post.bind_modify (Fallible.Post.lift (.inr ⟨hstop, ⟨_, rfl⟩, by simp [cleared]⟩))
      | step step =>
        exact Fallible.Post.bind_modify (Fallible.Post.lift (.inr ⟨hstop, ⟨_, rfl⟩, by simp [cleared]⟩))

/-- The file is replaced whole or not at all. -/
theorem replace_post (contents : List UInt8) (f : ReplacedFile) :
    Fallible.Post (replace pid faults contents) f (fun r f' =>
      Writable pid faults f ∧ r = .ok () ∧ f' = { f.cleared pid with file := some contents } ∨
      ¬ Writable pid faults f ∧ (∃ e, r = .error e) ∧ Cleared pid faults f f') := by
  apply Fallible.Post.onError (writeSteps_post contents f)
  · rintro ⟨⟩ f' h
    rcases h with h | ⟨-, ⟨e, he⟩, -⟩
    · exact .inl h
    · cases he
  · rintro e f' h
    rcases h with ⟨-, h, -⟩ | ⟨hwritable, -, hsame⟩
    · cases h
    · apply Fallible.Post.when
      · intro _
        refine Fallible.Post.modify (.inr ⟨hwritable, ⟨e, rfl⟩, ?_, fun _ => Function.update_self _ _ _⟩)
        exact (f'.cleared_cleared pid).trans hsame
      · intro hcleanup
        refine .inr ⟨hwritable, ⟨e, rfl⟩, hsame, fun h => ?_⟩
        simp [h] at hcleanup

end Outcomes
end ReplacedFile
end Abyss.System
