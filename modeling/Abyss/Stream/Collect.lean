import Abyss.Stream.Layered

/-! Reading ahead: a reader collects items until it can decide, and hands on what
it collected together with the stream behind it. -/
namespace Abyss.Stream
variable {β σ δ ε : Type}

/-- Before a read the collected items may decide; a read may decide as well, or move a state on. -/
structure Collector (β σ δ : Type) where
  check : List β → Option δ
  cap : Nat → Nat
  feed : σ → List β → Except δ σ

/-- Why collecting stopped. -/
inductive Halt (δ ε : Type) where
  | decided (decision : δ)
  | ended
  | broken (error : ε)
  deriving DecidableEq

/-- The collected items and the stream behind them. -/
structure Collected (β δ ε : Type) where
  halt : Halt δ ε
  items : List β
  rest : Layered β ε

namespace Collector

def collect (c : Collector β σ δ) (state : σ) (items : List β) (stream : Layered β ε) : Collected β δ ε :=
  match c.check items with
  | some decision => ⟨.decided decision, items, stream⟩
  | none =>
    match _h : stream.read (c.cap items.length) with
    | (.error e, rest) => ⟨.broken e, items, rest⟩
    | (.ok [], rest) => ⟨.ended, items, rest⟩
    | (.ok (b :: bs), rest) =>
      match c.feed state (b :: bs) with
      | .error decision => ⟨.decided decision, items ++ b :: bs, rest⟩
      | .ok state' => collect c state' (items ++ b :: bs) rest
termination_by stream.contents.length
decreasing_by exact Layered.read_shrinks _h

/-- Collecting neither loses nor repeats an item. -/
theorem collect_contents (c : Collector β σ δ) (state : σ) (items : List β) (stream : Layered β ε) :
    (c.collect state items stream).items ++ (c.collect state items stream).rest.contents =
      items ++ stream.contents := by
  fun_induction collect c state items stream with
  | case1 state items stream decision hcheck => rfl
  | case2 state items stream hcheck e rest hread =>
    obtain ⟨hnil, hrest, _⟩ := Layered.read_error hread
    rw [hnil, hrest]
  | case3 state items stream hcheck rest hread =>
    rw [(Layered.read_contents hread).1, List.nil_append]
  | case4 state items stream hcheck b bs rest hread decision hfeed =>
    rw [(Layered.read_contents hread).1, List.append_assoc]
  | case5 state items stream hcheck b bs rest hread state' hfeed ih =>
    rw [ih, (Layered.read_contents hread).1, List.append_assoc]

/-- A stream read ahead ends as it would have ended. -/
theorem collect_ending (c : Collector β σ δ) (state : σ) (items : List β) (stream : Layered β ε)
    {decision : δ} (h : (c.collect state items stream).halt = .decided decision) :
    (c.collect state items stream).rest.ending = stream.ending := by
  fun_induction collect c state items stream with
  | case1 => rfl
  | case2 => cases h
  | case3 => cases h
  | case4 state items stream hcheck b bs rest hread decision hfeed =>
    exact (Layered.read_contents hread).2.2
  | case5 state items stream hcheck b bs rest hread state' hfeed ih =>
    exact (ih h).trans (Layered.read_contents hread).2.2

/-- What is known where collecting stopped, for a property of the collected items and the state
that every read keeps. -/
def Stopped (c : Collector β σ δ) (Inv : List β → σ → Prop) (ending : Option ε) (out : Collected β δ ε) : Prop :=
  match out.halt with
  | .decided decision => (∃ state, Inv out.items state ∧ c.check out.items = some decision) ∨
      ∃ state front piece, Inv front state ∧ c.check front = none ∧ out.items = front ++ piece ∧ piece ≠ [] ∧
        piece.length ≤ c.cap front.length ∧ c.feed state piece = .error decision
  | .ended => (∃ state, Inv out.items state ∧ c.check out.items = none) ∧ out.rest.contents = [] ∧ ending = none
  | .broken e => (∃ state, Inv out.items state ∧ c.check out.items = none) ∧ out.rest.contents = [] ∧ ending = some e

/-- Invariant rule for reading ahead. What is collected is always a front part of the stream. -/
theorem collect_stopped {c : Collector β σ δ} {Inv : List β → σ → Prop} {all : List β}
    (hcap : ∀ {items state}, Inv items state → c.check items = none → 0 < c.cap items.length)
    (hfeed : ∀ {items state piece state'}, Inv items state → c.check items = none → piece ≠ [] →
      piece.length ≤ c.cap items.length → items ++ piece <+: all → c.feed state piece = .ok state' →
      Inv (items ++ piece) state')
    {state : σ} {items : List β} {stream : Layered β ε} (hinv : Inv items state)
    (hall : items ++ stream.contents = all) :
    c.Stopped Inv stream.ending (c.collect state items stream) := by
  fun_induction collect c state items stream with
  | case1 state items stream decision hcheck => exact .inl ⟨state, hinv, hcheck⟩
  | case2 state items stream hcheck e rest hread =>
    obtain ⟨_, hrest, hend⟩ := Layered.read_error hread
    exact ⟨⟨state, hinv, hcheck⟩, hrest, hend⟩
  | case3 state items stream hcheck rest hread =>
    obtain ⟨_, hrest, hend⟩ := Layered.read_empty (hcap hinv hcheck) hread
    exact ⟨⟨state, hinv, hcheck⟩, hrest, hend⟩
  | case4 state items stream hcheck b bs rest hread decision hf =>
    have hle := (Layered.read_contents hread).2.1
    exact .inr ⟨state, items, b :: bs, hinv, hcheck, rfl, by simp, hle, hf⟩
  | case5 state items stream hcheck b bs rest hread state' hf ih =>
    obtain ⟨hsplit, hle, hend⟩ := Layered.read_contents hread
    rw [hsplit, ← List.append_assoc] at hall
    rw [← hend]
    exact ih (hfeed hinv hcheck (by simp) hle ⟨_, hall⟩ hf) hall

end Collector
end Abyss.Stream
