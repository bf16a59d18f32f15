import Mathlib.Data.List.Basic
import Mathlib.Tactic.Cases

/-! Parsers that are run again on a growing buffer. Once such a parser has
answered it keeps its answer, and it looks no further than what it consumes. -/
namespace Abyss.Stream
variable {β α γ ε δ : Type}

/-- Answer on a buffer: a value with the number of items it spans, a wish for more
input, or a final rejection. -/
inductive Answer (α ε : Type) where
  | complete (value : α) (consumed : Nat)
  | incomplete
  | invalid (error : ε)
  deriving DecidableEq

/-- A parser whose complete and invalid answers survive growth of the buffer and
whose complete answers depend on the consumed front part alone. -/
structure Incremental (β α ε : Type) where
  run : List β → Answer α ε
  consumed_le {l : List β} {v : α} {n : Nat} : run l = .complete v n → n ≤ l.length
  settled {l : List β} (r : List β) : run l ≠ .incomplete → run (l ++ r) = run l
  front {l : List β} {v : α} {n : Nat} : run l = .complete v n → run (l.take n) = .complete v n

namespace Incremental
variable (p : Incremental β α ε)

theorem complete_append {l : List β} {v : α} {n : Nat} (r : List β) (h : p.run l = .complete v n) :
    p.run (l ++ r) = .complete v n := by
  rw [p.settled r (by simp [h]), h]

theorem invalid_append {l : List β} {e : ε} (r : List β) (h : p.run l = .invalid e) :
    p.run (l ++ r) = .invalid e := by
  rw [p.settled r (by simp [h]), h]

/-- A value that spans only the front part of a buffer is found there already. -/
theorem complete_of_append {l r : List β} {v : α} {n : Nat} (h : p.run (l ++ r) = .complete v n)
    (hn : n ≤ l.length) : p.run l = .complete v n := by
  have hf := p.front h
  rw [List.take_append_of_le_length hn] at hf
  rw [← List.take_append_drop n l]
  exact p.complete_append _ hf

/-- Before the last consumed item the parser asks for more. -/
theorem incomplete_of_short {l r : List β} {v : α} {n : Nat} (h : p.run (l ++ r) = .complete v n)
    (hn : l.length < n) : p.run l = .incomplete := by
  by_contra hne
  rw [p.settled r hne] at h
  have := p.consumed_le h
  omega

/-- Convert complete values; a failed conversion rejects the buffer. -/
def tryMap (f : α → Except δ γ) (g : ε → δ) : Incremental β γ δ where
  run l := match p.run l with
    | .complete v n => match f v with
      | .ok w => .complete w n
      | .error e => .invalid e
    | .incomplete => .incomplete
    | .invalid e => .invalid (g e)
  consumed_le {l v n} h := by
    cases hl : p.run l with
    | complete w m =>
      cases hf : f w <;> simp only [hl, hf] at h <;> cases h
      exact p.consumed_le hl
    | incomplete => simp [hl] at h
    | invalid e => simp [hl] at h
  settled {l} r h := by
    have hne : p.run l ≠ .incomplete := by
      intro hl
      rw [hl] at h
      exact h rfl
    rw [p.settled r hne]
  front {l v n} h := by
    cases hl : p.run l with
    | complete w m =>
      cases hf : f w <;> simp only [hl, hf] at h <;> cases h
      simp only [p.front hl, hf]
    | incomplete => simp [hl] at h
    | invalid e => simp [hl] at h

theorem tryMap_complete {f : α → Except δ γ} {g : ε → δ} {l : List β} {w : γ} {n : Nat}
    (h : (p.tryMap f g).run l = .complete w n) : ∃ v, p.run l = .complete v n ∧ f v = .ok w := by
  cases hl : p.run l with
  | complete v m =>
    cases hf : f v <;> simp only [tryMap, hl, hf] at h <;> cases h
    exact ⟨v, rfl, hf⟩
  | incomplete => simp [tryMap, hl] at h
  | invalid e => simp [tryMap, hl] at h

theorem complete_tryMap {f : α → Except δ γ} {g : ε → δ} {l : List β} {v : α} {w : γ} {n : Nat}
    (hl : p.run l = .complete v n) (hf : f v = .ok w) : (p.tryMap f g).run l = .complete w n := by
  simp only [tryMap, hl, hf]

end Incremental

/-- What a scanner does with one item. -/
inductive Scan (σ α ε : Type) where
  | next (state : σ)
  | done (value : α)
  | bad (error : ε)

def Answer.shift : Answer α ε → Answer α ε
  | .complete v n => .complete v (n + 1)
  | answer => answer

/-- Scan item by item until the first decision. -/
def scan {σ : Type} (step : σ → β → Scan σ α ε) : σ → List β → Answer α ε
  | _, [] => .incomplete
  | s, b :: rest => match step s b with
    | .next s' => (scan step s' rest).shift
    | .done v => .complete v 1
    | .bad e => .invalid e

theorem scan_complete {σ : Type} {step : σ → β → Scan σ α ε} {s : σ} {l : List β} {v : α} {n : Nat}
    (h : scan step s l = .complete v n) : n ≤ l.length ∧ scan step s (l.take n) = .complete v n := by
  induction l generalizing s n with
  | nil => cases h
  | cons b rest ih =>
    rw [scan] at h
    cases hb : step s b with
    | next s' =>
      cases hr : scan step s' rest <;> simp only [hb, hr, Answer.shift] at h <;> cases h
      obtain ⟨hle, ht⟩ := ih hr
      refine ⟨Nat.succ_le_succ hle, ?_⟩
      simp only [List.take_succ_cons, scan, hb, ht, Answer.shift]
    | done w =>
      simp only [hb] at h
      cases h
      exact ⟨Nat.succ_le_succ (Nat.zero_le _), by simp [scan, hb]⟩
    | bad e => simp [hb] at h

theorem scan_settled {σ : Type} {step : σ → β → Scan σ α ε} {s : σ} {l : List β} (r : List β)
    (h : scan step s l ≠ .incomplete) : scan step s (l ++ r) = scan step s l := by
  induction l generalizing s with
  | nil => exact absurd rfl h
  | cons b rest ih =>
    rw [scan] at h
    rw [List.cons_append, scan, scan]
    cases hb : step s b with
    | next s' =>
      simp only [hb] at h ⊢
      rw [ih]
      intro hinc
      rw [hinc] at h
      exact h rfl
    | done v => rfl
    | bad e => rfl

/-- A scanner is an incremental parser. -/
def Incremental.ofScan {σ : Type} (step : σ → β → Scan σ α ε) (start : σ) : Incremental β α ε where
  run := scan step start
  consumed_le h := (scan_complete h).1
  settled r h := scan_settled r h
  front h := (scan_complete h).2

section Reader

/-- A reader that accepts exactly the texts of valid values at the front of its input. -/
structure ReadsText (read : List β → Option (α × List β)) (text : α → List β) (valid : α → Prop) : Prop where
  iff {l : List β} {v : α} {r : List β} : read l = some (v, r) ↔ valid v ∧ l = text v ++ r

variable {read : List β → Option (α × List β)} {text : α → List β} {valid : α → Prop}

theorem ReadsText.run (h : ReadsText read text valid) {v : α} (hv : valid v) (r : List β) : read (text v ++ r) = some (v, r) :=
  h.iff.mpr ⟨hv, rfl⟩

/-- Such a reader is an incremental parser that rejects nothing. -/
def Incremental.ofReader (h : ReadsText read text valid) : Incremental β α ε where
  run l := match read l with
    | some (v, rest) => .complete v (l.length - rest.length)
    | none => .incomplete
  consumed_le {l v n} hl := by
    split at hl
    · cases hl
      exact Nat.sub_le ..
    · cases hl
  settled {l} r hl := by
    split at hl
    · next v rest hread =>
      obtain ⟨hv, rfl⟩ := h.iff.mp hread
      have hmore := h.run hv (rest ++ r)
      rw [← List.append_assoc] at hmore
      simp only [hmore]
      congr 1
      simp
    · exact absurd rfl hl
  front {l v n} hl := by
    split at hl
    · next w rest hread =>
      cases hl
      obtain ⟨hv, rfl⟩ := h.iff.mp hread
      have hfront := h.run hv []
      rw [List.append_nil] at hfront
      rw [List.length_append, Nat.add_sub_cancel, List.take_left]
      simp only [hfront, List.length_nil, Nat.sub_zero]
    · cases hl

theorem Incremental.ofReader_complete (h : ReadsText read text valid) {l : List β} {v : α} {n : Nat} :
    (Incremental.ofReader h : Incremental β α ε).run l = .complete v n ↔
      valid v ∧ ∃ r, l = text v ++ r ∧ n = (text v).length := by
  simp only [Incremental.ofReader]
  cases hread : read l with
  | none =>
    refine iff_of_false (by simp) ?_
    rintro ⟨hv, r, rfl, -⟩
    rw [h.run hv] at hread
    cases hread
  | some parts =>
    obtain ⟨w, rest⟩ := parts
    obtain ⟨hw, rfl⟩ := h.iff.mp hread
    simp only [Answer.complete.injEq, List.length_append, Nat.add_sub_cancel]
    constructor
    · rintro ⟨rfl, rfl⟩
      exact ⟨hw, rest, rfl, rfl⟩
    · rintro ⟨hv, r, htext, rfl⟩
      rw [htext, h.run hv] at hread
      obtain ⟨rfl, rfl⟩ := Prod.mk.inj (Option.some.inj hread)
      exact ⟨rfl, rfl⟩

end Reader

end Abyss.Stream
