import Abyss.Stream.Source
import Abyss.Stream.Sink

/-! Streams driven through polls that may find nothing yet: exact reads, the items a decoder draws until its stream ends
or fails, and writes that the peer may accept in part, refuse, or have no room for. -/
namespace Abyss.Stream
variable {β ε : Type}

/-- Answer of a poll: a result, or nothing yet. -/
inductive Poll (ρ : Type) where
  | ready (result : ρ)
  | pending
  deriving DecidableEq

/-- A computation advanced by polls. Only finitely many polls in a row find nothing. -/
structure Future (σ ρ : Type) where
  poll : σ → Poll ρ × σ
  waits : σ → Nat
  progress : ∀ {s s' : σ}, poll s = (.pending, s') → waits s' < waits s

namespace Future
variable {σ ρ : Type}

/-- Poll until there is a result. -/
def await (f : Future σ ρ) (s : σ) : ρ × σ :=
  match _h : f.poll s with
  | (.ready result, s') => (result, s')
  | (.pending, s') => f.await s'
termination_by f.waits s
decreasing_by exact f.progress _h

/-- What every fruitless poll preserves still holds at the poll that gives the result. -/
theorem await_rule (f : Future σ ρ) {inv : σ → Prop} {post : ρ → σ → Prop}
    (hpending : ∀ {s s'}, inv s → f.poll s = (.pending, s') → inv s')
    (hready : ∀ {s result s'}, inv s → f.poll s = (.ready result, s') → post result s')
    {s : σ} (hs : inv s) : post (f.await s).1 (f.await s).2 := by
  fun_induction await f s with
  | case1 s result s' h => exact hready hs h
  | case2 s s' h ih => exact ih (hpending hs h)

end Future

/-- A finite stream as its polls see it. An absent arrival is a poll that finds nothing yet. -/
structure Polled (β ε : Type) where
  arrivals : List (Option (Fragment β))
  ending : Option ε

namespace Polled

def contents (s : Polled β ε) : List β := s.arrivals.flatMap (fun a => (a.map Fragment.items).getD [])

/-- How many more polls find nothing. -/
def waits (s : Polled β ε) : Nat := s.arrivals.countP Option.isNone

/-- Poll for at most `cap` items of the next arrival. -/
def poll (s : Polled β ε) (cap : Nat) : Poll (Except ε (List β)) × Polled β ε :=
  match s.arrivals with
  | [] => (.ready (match s.ending with | none => .ok [] | some e => .error e), s)
  | none :: rest => (.pending, { s with arrivals := rest })
  | some f :: rest => (.ready (.ok (f.items.take cap)),
      if h : f.items.drop cap = [] then { s with arrivals := rest }
      else { s with arrivals := some ⟨f.items.drop cap, h⟩ :: rest })

theorem poll_pending {s s' : Polled β ε} {cap : Nat} (h : s.poll cap = (.pending, s')) : s'.waits < s.waits := by
  obtain ⟨arrivals, ending⟩ := s
  cases arrivals with
  | nil => simp [poll] at h
  | cons arrival rest =>
    cases arrival with
    | none =>
      obtain rfl := (Prod.mk.inj h).2
      simp [waits]
    | some f => simp [poll] at h

/-- A read, as the future that its polls advance. -/
def read (cap : Nat) : Future (Polled β ε) (Except ε (List β)) where
  poll := fun s => s.poll cap
  waits := waits
  progress := poll_pending

/-- What one poll with room can find. -/
inductive Polls (cap : Nat) (s : Polled β ε) : Poll (Except ε (List β)) → Polled β ε → Prop
  | pending {s' : Polled β ε} (hc : s'.contents = s.contents) (he : s'.ending = s.ending)
      (hw : s'.waits < s.waits) : Polls cap s .pending s'
  | items {items : List β} {s' : Polled β ε} (hne : items ≠ []) (hcap : items.length ≤ cap)
      (hc : s.contents = items ++ s'.contents) (he : s'.ending = s.ending)
      (hw : s'.waits = s.waits) : Polls cap s (.ready (.ok items)) s'
  | ended (hc : s.contents = []) (he : s.ending = none) : Polls cap s (.ready (.ok [])) s
  | failed {e : ε} (hc : s.contents = []) (he : s.ending = some e) : Polls cap s (.ready (.error e)) s

theorem poll_polls (s : Polled β ε) {cap : Nat} (hcap : 0 < cap) :
    Polls cap s (s.poll cap).1 (s.poll cap).2 := by
  obtain ⟨arrivals, ending⟩ := s
  cases arrivals with
  | nil =>
    cases ending with
    | none => exact .ended rfl rfl
    | some e => exact .failed rfl rfl
  | cons arrival rest =>
    cases arrival with
    | none => exact .pending rfl rfl (by simp [waits, poll])
    | some f =>
      have hne : f.items.take cap ≠ [] := by
        simp only [ne_eq, List.take_eq_nil_iff, not_or]
        exact ⟨by omega, f.nonempty⟩
      have hcut := List.take_append_drop cap f.items
      simp only [poll]
      split
      · next hd =>
        rw [hd, List.append_nil] at hcut
        exact .items hne (List.length_take_le _ _) (by simp [contents, hcut]) rfl (by simp [waits])
      · apply Polls.items hne (List.length_take_le _ _)
        · simp [contents, ← List.append_assoc]
        · rfl
        · simp [waits]

/-- What one read with room can deliver. -/
inductive Delivers (cap : Nat) (s : Polled β ε) : Except ε (List β) → Polled β ε → Prop
  | items {item : β} {items : List β} {s' : Polled β ε} (hcap : items.length < cap)
      (hc : s.contents = item :: items ++ s'.contents) (he : s'.ending = s.ending) :
      Delivers cap s (.ok (item :: items)) s'
  | ended {s' : Polled β ε} (hc : s.contents = []) (he : s.ending = none) : Delivers cap s (.ok []) s'
  | failed {e : ε} {s' : Polled β ε} (hc : s.contents = []) (he : s.ending = some e) :
      Delivers cap s (.error e) s'

theorem read_delivers (s : Polled β ε) {cap : Nat} (hcap : 0 < cap) :
    Delivers cap s ((read cap).await s).1 ((read cap).await s).2 := by
  apply @Future.await_rule _ _ (read cap) (fun t => t.contents = s.contents ∧ t.ending = s.ending)
    (Delivers cap s)
  · intro t t' ht hpoll
    have h := poll_polls t hcap
    rw [show t.poll cap = _ from hpoll] at h
    cases h with
    | pending hc he hw => exact ⟨hc.trans ht.1, he.trans ht.2⟩
  · intro t result t' ht hpoll
    have h := poll_polls t hcap
    rw [show t.poll cap = _ from hpoll] at h
    cases h with
    | @items items _ hne hcap' hc he hw =>
      obtain ⟨item, items, rfl⟩ := List.exists_cons_of_ne_nil hne
      exact .items hcap' (ht.1.symm.trans hc) (he.trans ht.2)
    | ended hc he => exact .ended (ht.1.symm.trans hc) (ht.2.symm.trans he)
    | failed hc he => exact .failed (ht.1.symm.trans hc) (ht.2.symm.trans he)
  · exact ⟨rfl, rfl⟩

/-- Read exactly `n` items; a stream that ends before them is the error `eof`. -/
def readExact (eof : ε) (s : Polled β ε) (n : Nat) : Except ε (List β) × Polled β ε :=
  if n = 0 then (.ok [], s) else
  match (read n).await s with
  | (.error e, s') => (.error e, s')
  | (.ok [], s') => (.error eof, s')
  | (.ok (item :: items), s') =>
    match readExact eof s' (n - (items.length + 1)) with
    | (.error e, s'') => (.error e, s'')
    | (.ok more, s'') => (.ok (item :: items ++ more), s'')
termination_by n

/-- With enough contents the next `n` items are read, whatever the arrival boundaries. -/
theorem readExact_ok (eof : ε) (s : Polled β ε) (n : Nat) (hn : n ≤ s.contents.length) :
    ∃ s', s.readExact eof n = (.ok (s.contents.take n), s') ∧
      s'.contents = s.contents.drop n ∧ s'.ending = s.ending := by
  induction n using Nat.strongRecOn generalizing s with
  | ind n ih =>
    rw [readExact]
    split
    · next h0 => exact ⟨s, by simp [h0], by simp [h0], rfl⟩
    · next h0 =>
      have hread := read_delivers s (Nat.pos_of_ne_zero h0)
      generalize (read n).await s = answer at hread ⊢
      obtain ⟨result, s'⟩ := answer
      cases hread with
      | @items item items _ hcap hc he =>
        rw [hc, List.length_append] at hn
        simp only [List.length_cons] at hn
        obtain ⟨s'', hrest, hc', he'⟩ := ih (n - (items.length + 1)) (by omega) s' (by omega)
        have hsum : n = (item :: items).length + (n - (items.length + 1)) := by simp; omega
        refine ⟨s'', ?_, ?_, he'.trans he⟩
        · simp only [hrest, hc]
          nth_rewrite 2 [hsum]
          rw [List.take_length_add_append]
        · rw [hc', hc]
          nth_rewrite 2 [hsum]
          rw [List.drop_length_add_append]
      | ended hc he =>
        rw [hc] at hn
        exact absurd hn (by simp; omega)
      | failed hc he =>
        rw [hc] at hn
        exact absurd hn (by simp; omega)

/-- A stream that ends too early gives its own error, or `eof` when it ended cleanly. -/
theorem readExact_short (eof : ε) (s : Polled β ε) (n : Nat) (hn : s.contents.length < n) :
    (s.readExact eof n).1 = .error (s.ending.getD eof) := by
  induction n using Nat.strongRecOn generalizing s with
  | ind n ih =>
    rw [readExact, if_neg (by omega)]
    have hread := @read_delivers _ _ s n (by omega)
    generalize (read n).await s = answer at hread ⊢
    obtain ⟨result, s'⟩ := answer
    cases hread with
    | @items item items _ hcap hc he =>
      rw [hc, List.length_append] at hn
      simp only [List.length_cons] at hn
      have hrest := ih (n - (items.length + 1)) (by omega) s' (by omega)
      simp only
      generalize s'.readExact eof (n - (items.length + 1)) = answer at hrest ⊢
      obtain ⟨result, s''⟩ := answer
      obtain rfl : result = _ := hrest
      rw [show s.ending = s'.ending from he.symm]
    | ended hc he => simp [he]
    | failed hc he => simp [he]

end Polled

/-- A decoder that draws one item after another. Every item uses up some of its input. -/
structure Producer (σ α ε : Type) where
  next : σ → Except ε (Option α) × σ
  size : σ → Nat
  shrinks : ∀ {s s' : σ} {item : α}, next s = (.ok (some item), s') → size s' < size s

namespace Producer
variable {σ α : Type}

/-- All items up to the end of the stream, and the failure that stopped it, if any. -/
def drain (p : Producer σ α ε) (s : σ) : List α × Option ε :=
  match _h : p.next s with
  | (.ok (some item), s') => (item :: (p.drain s').1, (p.drain s').2)
  | (.ok none, _) => ([], none)
  | (.error e, _) => ([], some e)
termination_by p.size s
decreasing_by all_goals exact p.shrinks _h

theorem drain_item {p : Producer σ α ε} {s s' : σ} {item : α} (h : p.next s = (.ok (some item), s')) :
    p.drain s = (item :: (p.drain s').1, (p.drain s').2) := by
  rw [drain]
  split <;> next h' => simp_all

theorem drain_end {p : Producer σ α ε} {s s' : σ} (h : p.next s = (.ok none, s')) : p.drain s = ([], none) := by
  rw [drain]
  split <;> next h' => simp_all

theorem drain_error {p : Producer σ α ε} {s s' : σ} {e : ε} (h : p.next s = (.error e, s')) :
    p.drain s = ([], some e) := by
  rw [drain]
  split <;> next h' => simp_all

end Producer

section Writes

/-- The items accepted so far and the answers to the next polls. A poll beyond its script
succeeds completely. -/
structure PolledSink (β ε : Type) where
  accepted : List β
  writes : List (Poll (Reply ε))
  flushes : List (Poll (Option ε))
  shutdowns : List (Poll (Option ε))

namespace PolledSink

/-- One poll to write; a peer never accepts more than it was offered. -/
def pollWrite (s : PolledSink β ε) (items : List β) : Poll (Except ε Nat) × PolledSink β ε :=
  match s.writes with
  | [] => (.ready (.ok items.length), { s with accepted := s.accepted ++ items })
  | .pending :: rest => (.pending, { s with writes := rest })
  | .ready (.accept n) :: rest => (.ready (.ok (min n items.length)),
      { s with accepted := s.accepted ++ items.take n, writes := rest })
  | .ready (.fail e) :: rest => (.ready (.error e), { s with writes := rest })

def pollFlush (s : PolledSink β ε) : Poll (Option ε) × PolledSink β ε :=
  (s.flushes.head?.getD (.ready none), { s with flushes := s.flushes.tail })

def pollShutdown (s : PolledSink β ε) : Poll (Option ε) × PolledSink β ε :=
  (s.shutdowns.head?.getD (.ready none), { s with shutdowns := s.shutdowns.tail })

/-- Whether a script takes `n` items without a pause, a failure or an empty acceptance. -/
def takesAll : List (Poll (Reply ε)) → Nat → Bool
  | _, 0 => true
  | [], _ => true
  | .ready (.accept k) :: rest, n => k ≠ 0 && takesAll rest (n - k)
  | _, _ => false

/-- Whether the peer takes `n` more items at once. -/
def takes (s : PolledSink β ε) (n : Nat) : Bool := takesAll s.writes n

/-- What one poll to write something can come to. -/
inductive Writes (s : PolledSink β ε) (items : List β) : Poll (Except ε Nat) → PolledSink β ε → Prop
  | refused {result : Poll (Except ε Nat)} {s' : PolledSink β ε} (hresult : ∀ n, result = .ready (.ok n) → n = 0)
      (ha : s'.accepted = s.accepted) (ht : s.takes items.length = false) : Writes s items result s'
  | accepted {n : Nat} {s' : PolledSink β ε} (hpos : 0 < n) (hle : n ≤ items.length)
      (ha : s'.accepted = s.accepted ++ items.take n) (ht : s.takes items.length = s'.takes (items.length - n)) :
      Writes s items (.ready (.ok n)) s'

theorem pollWrite_writes (s : PolledSink β ε) {items : List β} (hne : items ≠ []) :
    Writes s items (s.pollWrite items).1 (s.pollWrite items).2 := by
  obtain ⟨accepted, writes, flushes, shutdowns⟩ := s
  obtain ⟨item, rest, rfl⟩ := List.exists_cons_of_ne_nil hne
  cases writes with
  | nil =>
    apply Writes.accepted (by simp) (Nat.le_refl _)
    · simp [pollWrite]
    · simp [takes, takesAll]
  | cons reply replies =>
    cases reply with
    | pending => exact .refused (by simp [pollWrite]) rfl (by simp [takes, takesAll])
    | ready answer =>
      cases answer with
      | fail e => exact .refused (by simp [pollWrite]) rfl (by simp [takes, takesAll])
      | accept n =>
        simp only [pollWrite]
        by_cases hzero : n = 0
        · subst hzero
          exact .refused (by simp) (by simp) (by simp [takes, takesAll])
        · apply Writes.accepted
          · simp only [List.length_cons]
            omega
          · exact Nat.min_le_right _ _
          · simp [List.take_eq_take_iff]
          · simp only [takes, takesAll, List.length_cons, ne_eq, hzero, not_false_eq_true, decide_true, Bool.true_and]
            congr 1
            omega

end PolledSink

end Writes

end Abyss.Stream
