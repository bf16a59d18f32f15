import Mathlib.Data.List.Basic
import Mathlib.Tactic.Cases

/-! Finite input streams seen through their reads. The transport chooses the
arrival boundaries; a reader chooses the capacity of each read. -/
namespace Abyss.Stream
variable {β ε : Type}

/-- One arrival. It is never empty: an empty read is how a source reports its end. -/
structure Fragment (β : Type) where
  items : List β
  nonempty : items ≠ []

/-- A finite stream with the arrival boundaries of its transport. After the last
arrival a read reports a clean end, or the recorded error. -/
structure Source (β ε : Type) where
  arrivals : List (Fragment β)
  ending : Option ε

namespace Source

/-- The items still to be read, without their boundaries. -/
def contents (s : Source β ε) : List β := s.arrivals.flatMap Fragment.items

/-- Read at most `cap` items of the first arrival; the rest of it stays in front. -/
def read (s : Source β ε) (cap : Nat) : Except ε (List β) × Source β ε :=
  match s.arrivals with
  | [] => (match s.ending with | none => .ok [] | some e => .error e, s)
  | f :: rest => (.ok (f.items.take cap),
      if h : f.items.drop cap = [] then { s with arrivals := rest }
      else { s with arrivals := ⟨f.items.drop cap, h⟩ :: rest })

/-- A read moves a bounded front part of the contents to the reader. -/
theorem read_contents {s s' : Source β ε} {cap : Nat} {items : List β}
    (h : s.read cap = (.ok items, s')) :
    s.contents = items ++ s'.contents ∧ items.length ≤ cap ∧ s'.ending = s.ending := by
  obtain ⟨arrivals, ending⟩ := s
  cases arrivals with
  | nil =>
    cases ending with
    | none =>
      simp only [read, Prod.mk.injEq, Except.ok.injEq] at h
      obtain ⟨rfl, rfl⟩ := h
      simp
    | some e => simp [read] at h
  | cons f rest =>
    simp only [read, Prod.mk.injEq, Except.ok.injEq] at h
    obtain ⟨rfl, rfl⟩ := h
    refine ⟨?_, List.length_take_le _ _, ?_⟩
    · split
      · next hd =>
        have ht := List.take_append_drop cap f.items
        rw [hd, List.append_nil] at ht
        simp [contents, ht]
      · simp [contents, ← List.append_assoc]
    · split <;> rfl

/-- With room to read, an empty answer means that the stream ended cleanly. -/
theorem read_empty {s s' : Source β ε} {cap : Nat} (hc : 0 < cap)
    (h : s.read cap = (.ok [], s')) : s' = s ∧ s.contents = [] ∧ s.ending = none := by
  obtain ⟨arrivals, ending⟩ := s
  cases arrivals with
  | nil =>
    cases ending with
    | none =>
      simp only [read, Prod.mk.injEq] at h
      exact ⟨h.2.symm, rfl, rfl⟩
    | some e => simp [read] at h
  | cons f rest =>
    simp only [read, Prod.mk.injEq, Except.ok.injEq, List.take_eq_nil_iff] at h
    rcases h.1 with h | h
    · omega
    · exact absurd h f.nonempty

/-- A failed read leaves a source that has nothing more to deliver. -/
theorem read_error {s s' : Source β ε} {cap : Nat} {e : ε}
    (h : s.read cap = (.error e, s')) : s' = s ∧ s.contents = [] ∧ s.ending = some e := by
  obtain ⟨arrivals, ending⟩ := s
  cases arrivals with
  | nil =>
    cases ending with
    | none => simp [read] at h
    | some e' =>
      simp only [read, Prod.mk.injEq, Except.error.injEq] at h
      exact ⟨h.2.symm, rfl, by rw [h.1]⟩
  | cons f rest => simp [read] at h

/-- While contents remain, a read with room makes progress. -/
theorem read_progress (s : Source β ε) {cap : Nat} (hc : 0 < cap) (h : s.contents ≠ []) :
    ∃ item items s', s.read cap = (.ok (item :: items), s') := by
  obtain ⟨arrivals, ending⟩ := s
  cases arrivals with
  | nil => exact absurd rfl h
  | cons f rest =>
    obtain ⟨items, hne⟩ := f
    obtain ⟨a, as, rfl⟩ := List.exists_cons_of_ne_nil hne
    obtain ⟨n, rfl⟩ := Nat.exists_eq_succ_of_ne_zero (Nat.pos_iff_ne_zero.mp hc)
    exact ⟨a, as.take n, _, rfl⟩

/-- After its contents a source with a clean ending answers with the empty read. -/
theorem read_end (s : Source β ε) (cap : Nat) (h : s.contents = []) (he : s.ending = none) :
    s.read cap = (.ok [], s) := by
  obtain ⟨arrivals, ending⟩ := s
  cases arrivals with
  | nil => simp_all [read]
  | cons f rest =>
    simp only [contents, List.flatMap_cons, List.append_eq_nil_iff] at h
    exact absurd h.1 f.nonempty

theorem read_shrinks {s s' : Source β ε} {cap : Nat} {item : β} {items : List β}
    (h : s.read cap = (.ok (item :: items), s')) : s'.contents.length < s.contents.length := by
  have hc := (read_contents h).1
  rw [hc, List.length_append, List.length_cons]
  omega

/-- A run of nonempty reads. The capacity of each may depend on how much was read before it. -/
inductive Reads (cap : Nat → Nat) : Nat → Source β ε → List (List β) → Source β ε → Prop
  | nil (n : Nat) (s : Source β ε) : Reads cap n s [] s
  | cons {n : Nat} {s s' s'' : Source β ε} {items : List β} {rest : List (List β)}
      (hr : s.read (cap n) = (.ok items, s')) (hne : items ≠ [])
      (ht : Reads cap (n + items.length) s' rest s'') : Reads cap n s (items :: rest) s''

/-- A run of reads cuts the contents at its boundaries and loses nothing. -/
theorem Reads.contents {cap : Nat → Nat} {n : Nat} {s s' : Source β ε} {reads : List (List β)}
    (h : Reads cap n s reads s') :
    s.contents = reads.flatten ++ s'.contents ∧ s'.ending = s.ending := by
  induction h with
  | nil => simp
  | cons hr _ _ ih =>
    obtain ⟨hc, _, he⟩ := read_contents hr
    rw [hc, ih.1, List.flatten_cons, List.append_assoc]
    exact ⟨rfl, ih.2.trans he⟩

theorem Reads.nonempty {cap : Nat → Nat} {n : Nat} {s s' : Source β ε} {reads : List (List β)}
    (h : Reads cap n s reads s') : ∀ items ∈ reads, items ≠ [] := by
  induction h with
  | nil => simp
  | cons _ hne _ ih => simpa [hne] using ih

/-- Two runs of reads with the same capacities agree as far as both go. -/
theorem Reads.comparable {cap : Nat → Nat} {n : Nat} {s s₁ s₂ : Source β ε} {xs ys : List (List β)}
    (h₁ : Reads cap n s xs s₁) (h₂ : Reads cap n s ys s₂) : xs <+: ys ∨ ys <+: xs := by
  induction h₁ generalizing ys with
  | nil => exact .inl (List.nil_prefix ..)
  | cons hr hne ht ih =>
    cases h₂ with
    | nil => exact .inr (List.nil_prefix ..)
    | cons hr' hne' ht' =>
      rw [hr, Prod.mk.injEq, Except.ok.injEq] at hr'
      obtain ⟨rfl, rfl⟩ := hr'
      simpa [List.cons_prefix_cons] using ih ht'

/-- Runs of reads that deliver the same items are the same run. -/
theorem Reads.unique {cap : Nat → Nat} {n : Nat} {s s₁ s₂ : Source β ε} {xs ys : List (List β)}
    (h₁ : Reads cap n s xs s₁) (h₂ : Reads cap n s ys s₂) (hflat : xs.flatten = ys.flatten) :
    xs = ys ∧ s₁ = s₂ := by
  induction h₁ generalizing ys with
  | nil =>
    cases h₂ with
    | nil => exact ⟨rfl, rfl⟩
    | cons _ hne _ =>
      rw [List.flatten_cons] at hflat
      exact absurd (List.append_eq_nil_iff.mp hflat.symm).1 hne
  | cons hr hne ht ih =>
    cases h₂ with
    | nil =>
      rw [List.flatten_cons] at hflat
      exact absurd (List.append_eq_nil_iff.mp hflat).1 hne
    | cons hr' hne' ht' =>
      rw [hr, Prod.mk.injEq, Except.ok.injEq] at hr'
      obtain ⟨rfl, rfl⟩ := hr'
      rw [List.flatten_cons, List.flatten_cons, List.append_cancel_left_eq] at hflat
      obtain ⟨rfl, rfl⟩ := ih ht' hflat
      exact ⟨rfl, rfl⟩

end Source
end Abyss.Stream
