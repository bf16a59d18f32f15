import Abyss.Stream.Source

/-! Readers stacked on a transport: items taken from a stream for inspection are
served again in front of it. Such a stack reads like one plain source. -/
namespace Abyss.Stream
variable {β ε : Type}

/-- A transport, a front of items read earlier that is served again before an inner stream,
or a stream whose reads are counted. -/
inductive Layered (β ε : Type) where
  | transport (source : Source β ε)
  | replay (front : List β) (offset : Nat) (bound : offset ≤ front.length) (inner : Layered β ε)
  | observed (counts : List Nat) (inner : Layered β ε)

namespace Layered

/-- One read. A layer with something left to replay answers alone. -/
def read : Layered β ε → Nat → Except ε (List β) × Layered β ε
  | .transport source, cap => ((source.read cap).1, .transport (source.read cap).2)
  | .replay front offset bound inner, cap =>
    if front.drop offset = [] then ((inner.read cap).1, .replay front offset bound (inner.read cap).2)
    else (.ok ((front.drop offset).take cap),
      .replay front (offset + min cap (front.length - offset)) (by omega) inner)
  | .observed counts inner, cap =>
    match inner.read cap with
    | (.ok [], inner') => (.ok [], .observed counts inner')
    | (.ok items, inner') => (.ok items, .observed (counts ++ [items.length]) inner')
    | (.error e, inner') => (.error e, .observed counts inner')

/-- The plain source a stack behaves like: what a layer still replays is one more arrival. -/
def toSource : Layered β ε → Source β ε
  | .transport source => source
  | .replay front offset _ inner =>
    if h : front.drop offset = [] then inner.toSource
    else ⟨⟨front.drop offset, h⟩ :: inner.toSource.arrivals, inner.toSource.ending⟩
  | .observed _ inner => inner.toSource

/-- The items a stack still serves. -/
def contents (s : Layered β ε) : List β := s.toSource.contents

def ending (s : Layered β ε) : Option ε := s.toSource.ending

@[simp] theorem contents_transport (source : Source β ε) : (transport source).contents = source.contents := rfl

@[simp] theorem contents_replay (front : List β) (offset : Nat) (bound : offset ≤ front.length) (inner : Layered β ε) :
    (replay front offset bound inner).contents = front.drop offset ++ inner.contents := by
  rw [contents, toSource]
  split
  · next h => rw [h, List.nil_append, contents]
  · rfl

@[simp] theorem contents_observed (counts : List Nat) (inner : Layered β ε) :
    (observed counts inner).contents = inner.contents := rfl

@[simp] theorem ending_transport (source : Source β ε) : (transport source).ending = source.ending := rfl

@[simp] theorem ending_replay (front : List β) (offset : Nat) (bound : offset ≤ front.length) (inner : Layered β ε) :
    (replay front offset bound inner).ending = inner.ending := by
  unfold ending
  rw [toSource]
  split <;> rfl

@[simp] theorem ending_observed (counts : List Nat) (inner : Layered β ε) :
    (observed counts inner).ending = inner.ending := rfl

/-- Serving again advances over the same items as dropping them. -/
private theorem drop_advance (front : List β) (offset cap : Nat) :
    front.drop (offset + min cap (front.length - offset)) = (front.drop offset).drop cap := by
  rw [List.drop_drop, List.drop_eq_drop_iff]
  omega

/-- Refinement: reading a stack is reading the plain source it stands for. -/
theorem read_toSource (s : Layered β ε) (cap : Nat) :
    s.toSource.read cap = ((s.read cap).1, (s.read cap).2.toSource) := by
  induction s with
  | transport source => rfl
  | replay front offset bound inner ih =>
    by_cases h : front.drop offset = []
    · simp only [toSource, read, h, if_true, dif_pos, ih]
    · simp only [toSource, read, h, if_false, dif_neg, not_false_eq_true, Source.read, drop_advance]
  | observed counts inner ih =>
    rw [toSource, ih, read]
    split <;> simp_all [toSource]

section Reads
variable {s s' : Layered β ε} {cap : Nat}

private theorem read_source {answer : Except ε (List β)} (h : s.read cap = (answer, s')) :
    s.toSource.read cap = (answer, s'.toSource) := by rw [read_toSource, h]

/-- A read moves a bounded front part of the contents to the reader. -/
theorem read_contents {items : List β} (h : s.read cap = (.ok items, s')) :
    s.contents = items ++ s'.contents ∧ items.length ≤ cap ∧ s'.ending = s.ending :=
  Source.read_contents (read_source h)

/-- With room to read, an empty answer means that the stream ended cleanly. -/
theorem read_empty (hc : 0 < cap) (h : s.read cap = (.ok [], s')) :
    s.contents = [] ∧ s'.contents = [] ∧ s.ending = none := by
  obtain ⟨hsame, hnil, hend⟩ := Source.read_empty hc (read_source h)
  refine ⟨hnil, ?_, hend⟩
  rw [contents, hsame]
  exact hnil

theorem read_error {e : ε} (h : s.read cap = (.error e, s')) :
    s.contents = [] ∧ s'.contents = [] ∧ s.ending = some e := by
  obtain ⟨hsame, hnil, hend⟩ := Source.read_error (read_source h)
  refine ⟨hnil, ?_, hend⟩
  rw [contents, hsame]
  exact hnil

theorem read_shrinks {item : β} {items : List β} (h : s.read cap = (.ok (item :: items), s')) :
    s'.contents.length < s.contents.length :=
  Source.read_shrinks (read_source h)

end Reads
end Layered
end Abyss.Stream
