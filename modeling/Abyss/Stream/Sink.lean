import Mathlib.Data.List.Basic
import Mathlib.Tactic.Cases

/-! Output streams whose peer may refuse, shorten or delay any call. The replies
of the peer are a script fixed in advance, so one sink stands for one behaviour
and a statement about all sinks is a statement about all behaviours. -/
namespace Abyss.Stream
variable {β ε : Type}

/-- Answer to one write call: accept at most `n` items, or fail. -/
inductive Reply (ε : Type) where
  | accept (n : Nat)
  | fail (e : ε)

/-- One answered call, in the order the peer saw them. -/
inductive Call (β ε : Type) where
  | wrote (items : List β)
  | refused (e : ε)
  | flushed (failure : Option ε)
  | shutdown (failure : Option ε)

@[grind =] def Call.items : Call β ε → List β
  | .wrote items => items
  | _ => []

def Call.isShutdown : Call β ε → Bool
  | .shutdown _ => true
  | _ => false

/-- The calls answered so far and the replies to the next ones. A call beyond its
script succeeds completely. -/
structure Sink (β ε : Type) where
  log : List (Call β ε)
  writes : List (Reply ε)
  flushes : List (Option ε)
  shutdowns : List (Option ε)

namespace Sink

/-- The items the peer has accepted, in order. -/
def accepted (s : Sink β ε) : List β := s.log.flatMap Call.items

/-- One write call. A peer never accepts more than it was offered. -/
def write (s : Sink β ε) (items : List β) : Except ε Nat × Sink β ε :=
  match s.writes with
  | [] => (.ok items.length, { s with log := s.log ++ [.wrote items] })
  | .accept n :: rest => (.ok (min n items.length),
      { s with log := s.log ++ [.wrote (items.take n)], writes := rest })
  | .fail e :: rest => (.error e, { s with log := s.log ++ [.refused e], writes := rest })

def flush (s : Sink β ε) : Option ε × Sink β ε :=
  (s.flushes.head?.join, { s with
    log := s.log ++ [.flushed s.flushes.head?.join], flushes := s.flushes.tail })

def shutdown (s : Sink β ε) : Option ε × Sink β ε :=
  (s.shutdowns.head?.join, { s with
    log := s.log ++ [.shutdown s.shutdowns.head?.join], shutdowns := s.shutdowns.tail })

/-- A successful write accepts a front part of what was offered. -/
theorem write_ok {s s' : Sink β ε} {items : List β} {n : Nat} (h : s.write items = (.ok n, s')) :
    n ≤ items.length ∧ s'.accepted = s.accepted ++ items.take n := by
  unfold write at h
  split at h
  · obtain ⟨rfl, rfl⟩ := (by simpa using h : items.length = n ∧ _ = s')
    simp [accepted, Call.items]
  · next m rest _ =>
    obtain ⟨rfl, rfl⟩ := (by simpa using h : min m items.length = n ∧ _ = s')
    refine ⟨Nat.min_le_right _ _, ?_⟩
    simp [accepted, Call.items, List.take_eq_take_iff]
  · simp at h

theorem write_error {s s' : Sink β ε} {items : List β} {e : ε} (h : s.write items = (.error e, s')) :
    s'.accepted = s.accepted := by
  unfold write at h
  split at h
  · simp at h
  · simp at h
  · obtain ⟨_, rfl⟩ := (by simpa using h : _ ∧ _ = s')
    simp [accepted, Call.items]

/-- A write uses up a reply to writes only. -/
theorem write_frame (s : Sink β ε) (items : List β) :
    (s.write items).2.flushes = s.flushes ∧ (s.write items).2.shutdowns = s.shutdowns := by
  unfold write
  split <;> exact ⟨rfl, rfl⟩

theorem flush_accepted (s : Sink β ε) : s.flush.2.accepted = s.accepted := by
  simp [flush, accepted, Call.items]

theorem shutdown_accepted (s : Sink β ε) : s.shutdown.2.accepted = s.accepted := by
  simp [shutdown, accepted, Call.items]

/-- From one state of a stream to a later one without a shutdown in between. -/
def StaysOpen (s s' : Sink β ε) : Prop := ∃ calls, s'.log = s.log ++ calls ∧ ∀ c ∈ calls, c.isShutdown = false

theorem StaysOpen.refl (s : Sink β ε) : s.StaysOpen s := ⟨[], by simp⟩

theorem StaysOpen.trans {s s' s'' : Sink β ε} (h : s.StaysOpen s') (h' : s'.StaysOpen s'') : s.StaysOpen s'' := by
  obtain ⟨calls, hlog, hopen⟩ := h
  obtain ⟨calls', hlog', hopen'⟩ := h'
  refine ⟨calls ++ calls', by rw [hlog', hlog, List.append_assoc], ?_⟩
  intro c hc
  rcases List.mem_append.mp hc with hc | hc
  · exact hopen c hc
  · exact hopen' c hc

theorem write_open (s : Sink β ε) (items : List β) : s.StaysOpen (s.write items).2 := by
  unfold write
  split
  · exact ⟨[.wrote items], rfl, by simp [Call.isShutdown]⟩
  · next n _ _ => exact ⟨[.wrote (items.take n)], rfl, by simp [Call.isShutdown]⟩
  · next e _ _ => exact ⟨[.refused e], rfl, by simp [Call.isShutdown]⟩

theorem flush_open (s : Sink β ε) : s.StaysOpen s.flush.2 :=
  ⟨[.flushed s.flushes.head?.join], rfl, by simp [Call.isShutdown]⟩

/-- Write until everything is accepted, a call fails, or a call accepts nothing, which is
reported as `zero`. The result is the failure, if any. -/
def writeAll (zero : ε) (s : Sink β ε) (items : List β) : Option ε × Sink β ε :=
  if items = [] then (none, s) else
  match _h : s.write items with
  | (.error e, s') => (some e, s')
  | (.ok n, s') => if n = 0 then (some zero, s') else writeAll zero s' (items.drop n)
termination_by items.length
decreasing_by
  have := (write_ok _h).1
  rw [List.length_drop]
  omega

theorem writeAll_of_error {zero e : ε} {s s' : Sink β ε} {items : List β} (hne : items ≠ [])
    (h : s.write items = (.error e, s')) : s.writeAll zero items = (some e, s') := by
  rw [writeAll, if_neg hne]
  split <;> simp_all

theorem writeAll_of_zero {zero : ε} {s s' : Sink β ε} {items : List β} (hne : items ≠ [])
    (h : s.write items = (.ok 0, s')) : s.writeAll zero items = (some zero, s') := by
  rw [writeAll, if_neg hne]
  split <;> simp_all

theorem writeAll_of_ok {zero : ε} {s s' : Sink β ε} {items : List β} {n : Nat} (hne : items ≠ [])
    (h : s.write items = (.ok n, s')) (hn : n ≠ 0) : s.writeAll zero items = s'.writeAll zero (items.drop n) := by
  rw [writeAll, if_neg hne]
  split
  · simp_all
  · next m s₁ h₁ =>
    rw [h, Prod.mk.injEq, Except.ok.injEq] at h₁
    obtain ⟨rfl, rfl⟩ := h₁
    exact if_neg hn

/-- Whatever happens, the peer has accepted a front part; success means all of it. -/
theorem writeAll_accepted (zero : ε) (s : Sink β ε) (items : List β) :
    ∃ done left, items = done ++ left ∧ (s.writeAll zero items).2.accepted = s.accepted ++ done ∧
      ((s.writeAll zero items).1 = none ↔ left = []) := by
  fun_induction writeAll zero s items with
  | case1 s => exact ⟨[], [], by simp⟩
  | case2 s items hne e s' hw =>
    refine ⟨[], items, rfl, by simpa using write_error hw, ?_⟩
    simp [hne]
  | case3 s items hne s' hw =>
    refine ⟨[], items, rfl, by simpa using (write_ok hw).2, ?_⟩
    simp [hne]
  | case4 s items hne n s' hw hn ih =>
    obtain ⟨done, left, hsplit, hacc, hiff⟩ := ih
    refine ⟨items.take n ++ done, left, ?_, ?_, hiff⟩
    · rw [List.append_assoc, ← hsplit, List.take_append_drop]
    · rw [hacc, (write_ok hw).2, List.append_assoc]

theorem writeAll_none {zero : ε} {s s' : Sink β ε} {items : List β}
    (h : s.writeAll zero items = (none, s')) : s'.accepted = s.accepted ++ items := by
  obtain ⟨done, left, hs, ha, hn⟩ := writeAll_accepted zero s items
  rw [h] at ha hn
  rw [hn.mp rfl, List.append_nil] at hs
  rw [hs]
  exact ha

@[simp] theorem writeAll_nil (zero : ε) (s : Sink β ε) : s.writeAll zero [] = (none, s) := by
  rw [writeAll, if_pos rfl]

theorem writeAll_open (zero : ε) (s : Sink β ε) (items : List β) : s.StaysOpen (s.writeAll zero items).2 := by
  fun_induction writeAll zero s items with
  | case1 s => exact .refl s
  | case2 s items hne e s' hw => simpa [hw] using s.write_open items
  | case3 s items hne s' hw => simpa [hw] using s.write_open items
  | case4 s items hne n s' hw hn ih =>
    have hfirst := s.write_open items
    rw [hw] at hfirst
    exact hfirst.trans ih

theorem writeAll_frame (zero : ε) (s : Sink β ε) (items : List β) :
    (s.writeAll zero items).2.flushes = s.flushes ∧ (s.writeAll zero items).2.shutdowns = s.shutdowns := by
  fun_induction writeAll zero s items with
  | case1 s => exact ⟨rfl, rfl⟩
  | case2 s items hne e s' hw => simpa [hw] using s.write_frame items
  | case3 s items hne s' hw => simpa [hw] using s.write_frame items
  | case4 s items hne n s' hw hn ih =>
    have hfirst := s.write_frame items
    simp only [hw] at hfirst
    exact ⟨ih.1.trans hfirst.1, ih.2.trans hfirst.2⟩

/-- Write several pieces in turn, stopping at the first failure. -/
@[grind =] def writeEach (zero : ε) (s : Sink β ε) : List (List β) → Option ε × Sink β ε
  | [] => (none, s)
  | piece :: rest =>
    match s.writeAll zero piece with
    | (some e, s') => (some e, s')
    | (none, s') => writeEach zero s' rest

theorem writeEach_append (zero : ε) (s : Sink β ε) (xs ys : List (List β)) :
    s.writeEach zero (xs ++ ys) =
      match s.writeEach zero xs with
      | (some e, s') => (some e, s')
      | (none, s') => s'.writeEach zero ys := by
  induction xs generalizing s with
  | nil => rfl
  | cons piece rest ih =>
    simp only [List.cons_append, writeEach]
    cases hw : s.writeAll zero piece with
    | mk failure s' => cases failure <;> simp [ih]

theorem writeEach_none {zero : ε} {s s' : Sink β ε} {pieces : List (List β)}
    (h : s.writeEach zero pieces = (none, s')) : s'.accepted = s.accepted ++ pieces.flatten := by
  induction pieces generalizing s with
  | nil => simp_all [writeEach]
  | cons piece rest ih =>
    simp only [writeEach] at h
    split at h
    · simp at h
    · next s₁ hw => rw [ih h, writeAll_none hw, List.flatten_cons, List.append_assoc]

/-- Whatever happens, the peer has accepted a front part of the pieces. -/
theorem writeEach_accepted (zero : ε) (s : Sink β ε) (pieces : List (List β)) :
    ∃ done, done <+: pieces.flatten ∧ (s.writeEach zero pieces).2.accepted = s.accepted ++ done := by
  induction pieces generalizing s with
  | nil => exact ⟨[], List.nil_prefix, by simp [writeEach]⟩
  | cons piece rest ih =>
    obtain ⟨done, left, hsplit, hacc, -⟩ := writeAll_accepted zero s piece
    cases hw : s.writeAll zero piece with
    | mk failure s' =>
      rw [hw] at hacc
      cases failure with
      | some e =>
        refine ⟨done, ?_, by simpa [writeEach, hw] using hacc⟩
        rw [List.flatten_cons, hsplit, List.append_assoc]
        exact List.prefix_append ..
      | none =>
        obtain ⟨more, hmore, hacc'⟩ := ih s'
        refine ⟨piece ++ more, ?_, ?_⟩
        · rw [List.flatten_cons]
          exact (List.prefix_append_right_inj piece).mpr hmore
        · simp only [writeEach, hw]
          rw [hacc', writeAll_none hw, List.append_assoc]

theorem writeEach_open (zero : ε) (s : Sink β ε) (pieces : List (List β)) :
    s.StaysOpen (s.writeEach zero pieces).2 := by
  induction pieces generalizing s with
  | nil => exact .refl s
  | cons piece rest ih =>
    have hfirst := writeAll_open zero s piece
    simp only [writeEach]
    split
    · next hw => rwa [hw] at hfirst
    · next s' hw =>
      rw [hw] at hfirst
      exact hfirst.trans (ih s')

/-- Every scripted write makes progress. Short writes are allowed. -/
def WritesSucceed (s : Sink β ε) : Prop := ∀ r ∈ s.writes, ∃ n, r = .accept (n + 1)

theorem WritesSucceed.write {s : Sink β ε} (h : s.WritesSucceed) {items : List β} (hne : items ≠ []) :
    ∃ n s', s.write items = (.ok (n + 1), s') ∧ s'.WritesSucceed := by
  obtain ⟨log, writes, flushes, shutdowns⟩ := s
  obtain ⟨a, as, rfl⟩ := List.exists_cons_of_ne_nil hne
  cases writes with
  | nil => exact ⟨as.length, _, rfl, h⟩
  | cons r rest =>
    obtain ⟨n, rfl⟩ := h r (List.mem_cons_self ..)
    refine ⟨min n as.length, _, by simp [Sink.write, Nat.succ_min_succ]; rfl, ?_⟩
    exact fun r' hr' => h r' (List.mem_cons_of_mem _ hr')

theorem WritesSucceed.writeAll {s : Sink β ε} (h : s.WritesSucceed) (zero : ε) (items : List β) :
    ∃ s', s.writeAll zero items = (none, s') ∧ s'.WritesSucceed := by
  fun_induction Sink.writeAll zero s items with
  | case1 s => exact ⟨s, rfl, h⟩
  | case2 s items hne e s' hw =>
    obtain ⟨n, s₁, h₁, _⟩ := h.write hne
    simp [h₁] at hw
  | case3 s items hne s' hw =>
    obtain ⟨n, s₁, h₁, _⟩ := h.write hne
    simp [h₁] at hw
  | case4 s items hne n s' hw hn ih =>
    obtain ⟨m, s₁, h₁, hs₁⟩ := h.write hne
    rw [h₁, Prod.mk.injEq] at hw
    exact ih (hw.2 ▸ hs₁)

theorem WritesSucceed.writeEach {s : Sink β ε} (h : s.WritesSucceed) (zero : ε)
    (pieces : List (List β)) : ∃ s', s.writeEach zero pieces = (none, s') ∧ s'.WritesSucceed := by
  induction pieces generalizing s with
  | nil => exact ⟨s, rfl, h⟩
  | cons piece rest ih =>
    obtain ⟨s', hw, hs'⟩ := h.writeAll zero piece
    simpa only [Sink.writeEach, hw] using ih hs'

end Sink
end Abyss.Stream
