import Abyss.Stream.Source

/-! Copying a source read by read through a decoder that inspects every read
before it is passed on. The plan of a copy says which reads happen, and where
and why they stop, when nobody downstream interferes. -/
namespace Abyss.Stream
variable {β σ κ δ ε : Type}

/-- How one read ends a copy: it is the last one, it is withheld, or it is passed on and
the copy fails behind it. -/
inductive Decision (κ δ : Type) where
  | done (result : κ)
  | fail (error : δ)
  | spoil (error : δ)

inductive Step (σ κ δ : Type) where
  | stop (decision : Decision κ δ)
  | more (next : σ)

/-- A decoder chooses the size of the next read, inspects it, and judges the end of the source. -/
structure Decoder (β σ κ δ : Type) where
  cap : σ → Nat
  feed : σ → List β → Step σ κ δ
  atEnd : σ → Except δ κ

/-- Why the reads of a copy stop. -/
inductive Verdict (β κ δ ε : Type) where
  | decided (piece : List β) (decision : Decision κ δ)
  | ended (result : Except δ κ)
  | broken (error : ε)

/-- The pieces passed on before the verdict, and the source behind it. -/
structure Plan (β κ δ ε : Type) where
  earlier : List (List β)
  verdict : Verdict β κ δ ε
  rest : Source β ε

/-- A plan that passes one more piece on first. -/
def Plan.after (p : Plan β κ δ ε) (items : List β) : Plan β κ δ ε :=
  { p with earlier := items :: p.earlier }

namespace Decoder

def plan (d : Decoder β σ κ δ) (s : σ) (src : Source β ε) : Plan β κ δ ε :=
  match _h : src.read (d.cap s) with
  | (.error e, src') => ⟨[], .broken e, src'⟩
  | (.ok [], src') => ⟨[], .ended (d.atEnd s), src'⟩
  | (.ok (b :: bs), src') =>
    match d.feed s (b :: bs) with
    | .stop decision => ⟨[], .decided (b :: bs) decision, src'⟩
    | .more s' => (plan d s' src').after (b :: bs)
termination_by src.contents.length
decreasing_by exact Source.read_shrinks _h

/-- The plan behind items that are already read. -/
def planFrom (d : Decoder β σ κ δ) (s : σ) (items : List β) (src : Source β ε) : Plan β κ δ ε :=
  match d.feed s items with
  | .stop decision => ⟨[], .decided items decision, src⟩
  | .more s' => (d.plan s' src).after items

section Equations
variable {d : Decoder β σ κ δ} {s : σ} {src src' : Source β ε}

theorem plan_broken {e : ε} (h : src.read (d.cap s) = (.error e, src')) :
    d.plan s src = ⟨[], .broken e, src'⟩ := by
  rw [plan]
  split <;> simp_all

theorem plan_ended (h : src.read (d.cap s) = (.ok [], src')) :
    d.plan s src = ⟨[], .ended (d.atEnd s), src'⟩ := by
  rw [plan]
  split <;> simp_all

theorem planFrom_stop {items : List β} {decision : Decision κ δ} (h : d.feed s items = .stop decision) :
    d.planFrom s items src = ⟨[], .decided items decision, src⟩ := by
  rw [planFrom, h]

theorem planFrom_more {s' : σ} {items : List β} (h : d.feed s items = .more s') :
    d.planFrom s items src = (d.plan s' src).after items := by
  rw [planFrom, h]

theorem plan_read {b : β} {bs : List β} (h : src.read (d.cap s) = (.ok (b :: bs), src')) :
    d.plan s src = d.planFrom s (b :: bs) src' := by
  rw [plan]
  split
  · simp_all
  · simp_all
  · next b' bs' src'' h' =>
    rw [h, Prod.mk.injEq, Except.ok.injEq] at h'
    obtain ⟨⟨rfl, rfl⟩, rfl⟩ := h'
    rfl

end Equations

/-- A copy that starts with items read beforehand, if there are any. -/
def planOn (d : Decoder β σ κ δ) (s : σ) (buffered : List β) (src : Source β ε) : Plan β κ δ ε :=
  if buffered = [] then d.plan s src else d.planFrom s buffered src

/-- The pieces of a copy: what was buffered, then the reads. -/
def pieces (buffered : List β) (reads : List (List β)) : List (List β) :=
  if buffered = [] then reads else buffered :: reads

@[simp] theorem pieces_flatten (buffered : List β) (reads : List (List β)) :
    (pieces buffered reads).flatten = buffered ++ reads.flatten := by
  unfold pieces
  split
  · next h => rw [h, List.nil_append]
  · rw [List.flatten_cons]

/-- What is known where a plan stops, at position `s` and with `front` passed on before the reads. -/
def Stops (d : Decoder β σ κ δ) (Fits : σ → List β → Prop) (cap : Nat → Nat) (front : List (List β))
    (n : Nat) (src : Source β ε) (s : σ) (p : Plan β κ δ ε) : Prop :=
  ∃ reads, Source.Reads cap n src reads p.rest ∧
    match p.verdict with
    | .decided piece decision => front ++ reads = p.earlier ++ [piece] ∧
        d.feed s piece = .stop decision ∧ Fits s piece
    | .ended result => front ++ reads = p.earlier ∧ d.atEnd s = result ∧
        p.rest.contents = [] ∧ p.rest.ending = none
    | .broken e => front ++ reads = p.earlier ∧ p.rest.contents = [] ∧ p.rest.ending = some e

/-- What the invariant rule asks of a decoder: the invariant fixes the next capacity, and every
accepted read keeps it. -/
structure Keeps (d : Decoder β σ κ δ) (Inv : List β → σ → Prop) (Fits : σ → List β → Prop)
    (cap : Nat → Nat) : Prop where
  cap_eq {seen : List β} {s : σ} : Inv seen s → d.cap s = cap seen.length
  cap_pos {seen : List β} {s : σ} : Inv seen s → 0 < d.cap s
  fits {s : σ} {items : List β} : items.length ≤ d.cap s → Fits s items
  more {seen : List β} {s s' : σ} {items : List β} : Inv seen s → Fits s items →
    d.feed s items = .more s' → Inv (seen ++ items) s'

section Rules
variable {d : Decoder β σ κ δ} {Inv : List β → σ → Prop} {Fits : σ → List β → Prop} {cap : Nat → Nat}

private theorem Stops.cons {n : Nat} {src src' : Source β ε} {s : σ} {p : Plan β κ δ ε} {items : List β}
    (hr : src.read (cap n) = (.ok items, src')) (hne : items ≠ [])
    (h : Stops d Fits cap [] (n + items.length) src' s p) : Stops d Fits cap [] n src s (p.after items) := by
  obtain ⟨reads, hreads, h⟩ := h
  refine ⟨items :: reads, .cons hr hne hreads, ?_⟩
  obtain ⟨earlier, verdict, rest⟩ := p
  cases verdict with
  | decided piece decision => exact ⟨congrArg (items :: ·) h.1, h.2⟩
  | ended result => exact ⟨congrArg (items :: ·) h.1, h.2⟩
  | broken e => exact ⟨congrArg (items :: ·) h.1, h.2⟩

private theorem Stops.after {n : Nat} {src : Source β ε} {s : σ} {p : Plan β κ δ ε} {items : List β}
    (h : Stops d Fits cap [] n src s p) : Stops d Fits cap [items] n src s (p.after items) := by
  obtain ⟨reads, hreads, h⟩ := h
  refine ⟨reads, hreads, ?_⟩
  obtain ⟨earlier, verdict, rest⟩ := p
  cases verdict with
  | decided piece decision => exact ⟨congrArg (items :: ·) h.1, h.2⟩
  | ended result => exact ⟨congrArg (items :: ·) h.1, h.2⟩
  | broken e => exact ⟨congrArg (items :: ·) h.1, h.2⟩

private theorem Keeps.plan_stops (hd : Keeps d Inv Fits cap) {seen : List β} {s : σ} (h : Inv seen s)
    (src : Source β ε) : ∃ s', Inv (seen ++ (d.plan s src).earlier.flatten) s' ∧
      Stops d Fits cap [] seen.length src s' (d.plan s src) := by
  fun_induction plan d s src generalizing seen with
  | case1 s src e src' hr =>
    obtain ⟨rfl, hc, he⟩ := Source.read_error hr
    exact ⟨s, by simpa using h, [], .nil .., rfl, hc, he⟩
  | case2 s src src' hr =>
    obtain ⟨rfl, hc, he⟩ := Source.read_empty (hd.cap_pos h) hr
    exact ⟨s, by simpa using h, [], .nil .., rfl, rfl, hc, he⟩
  | case3 s src b bs src' hr decision hf =>
    have hfit := hd.fits (Source.read_contents hr).2.1
    rw [hd.cap_eq h] at hr
    exact ⟨s, by simpa using h, [b :: bs], .cons hr (by simp) (.nil ..), rfl, hf, hfit⟩
  | case4 s src b bs src' hr s' hf ih =>
    obtain ⟨s'', hinv, hstop⟩ := ih (hd.more h (hd.fits (Source.read_contents hr).2.1) hf)
    rw [hd.cap_eq h] at hr
    rw [List.length_append] at hstop
    refine ⟨s'', ?_, hstop.cons hr (by simp)⟩
    rwa [Plan.after, List.flatten_cons, ← List.append_assoc]

/-- Invariant rule: a property of the position and the items seen that every accepted read keeps
holds where the copy stops. -/
theorem Keeps.stops (hd : Keeps d Inv Fits cap) {s : σ} (h : Inv [] s) (buffered : List β)
    (hfit : Fits s buffered) (src : Source β ε) :
    ∃ s', Inv (d.planOn s buffered src).earlier.flatten s' ∧
      Stops d Fits cap (pieces buffered []) buffered.length src s' (d.planOn s buffered src) := by
  unfold planOn pieces planFrom
  by_cases hnil : buffered = []
  · subst hnil
    obtain ⟨s', hinv, hstop⟩ := hd.plan_stops h src
    exact ⟨s', hinv, hstop⟩
  · rw [if_neg hnil, if_neg hnil]
    split
    · next decision hf => exact ⟨s, h, [], .nil .., rfl, hf, hfit⟩
    · next s₁ hf =>
      obtain ⟨s', hinv, hstop⟩ := hd.plan_stops (hd.more h hfit hf) src
      exact ⟨s', by simpa [Plan.after] using hinv, hstop.after⟩

end Rules
end Decoder

theorem pieces_append (buffered : List β) (reads : List (List β)) :
    Decoder.pieces buffered [] ++ reads = Decoder.pieces buffered reads := by
  unfold Decoder.pieces
  split <;> rfl

end Abyss.Stream
