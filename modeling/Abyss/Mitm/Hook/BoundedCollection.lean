import Abyss.Mitm.Hook.ContentDecoding

/-! Bounded collection of a decoded representation. The decompressor chooses the sizes of
its reads; the collector reads one byte more than fits. -/
namespace Abyss.Mitm.Hook.ContentDecoder
open Relay
variable {Value : Type} {env : DecodingEnv Value}

/-- What a reader answers behind its last byte. -/
def endAnswer : Option ErrorKind → Except ErrorKind Bytes
  | none => .ok []
  | some error => .error error

/-- A reader that delivers these bytes, in pieces of its own choice, and then ends for good. -/
inductive Delivers (env : DecodingEnv Value) : env.Reader → Bytes → Option ErrorKind → Prop
  | ended {reader : env.Reader} {ending : Option ErrorKind}
      (answer : ∀ n, 0 < n → (env.read reader n).1 = endAnswer ending)
      (still : ∀ n m, 0 < n → 0 < m → (env.read (env.read reader n).2 m).1 = endAnswer ending) :
      Delivers env reader [] ending
  | more {reader : env.Reader} {bytes : Bytes} {ending : Option ErrorKind} (piece : Nat → Bytes)
      (answer : ∀ n, 0 < n → (env.read reader n).1 = .ok (piece n) ∧ piece n ≠ [] ∧ piece n <+: bytes)
      (rest : ∀ n, 0 < n → Delivers env (env.read reader n).2 (bytes.drop (piece n).length) ending) :
      Delivers env reader bytes ending

/-- What collecting a delivery yields. -/
def collected (limit : Nat) (bytes : Bytes) (ending : Option ErrorKind) (inputTruncated : Bool) :
    Except BodyDecodingStatus (Bytes × Bool) :=
  if limit < bytes.length then .ok (bytes.take limit, true)
  else match ending with
    | none => .ok (bytes, inputTruncated)
    | some .timedOut => .error .budgetExceeded
    | some .unexpectedEof => if inputTruncated then .ok (bytes, true) else .error .invalidData
    | some _ => .error .invalidData

theorem collected_of_lt {limit : Nat} {bytes : Bytes} {ending : Option ErrorKind} {inputTruncated : Bool}
    (h : limit < bytes.length) : collected limit bytes ending inputTruncated = .ok (bytes.take limit, true) := by
  simp only [collected, if_pos h]

/-- The outputs that the loop holds between its reads; there is no reader once it has returned. -/
inductive Holds (env : DecodingEnv Value) (limit : Nat) (start : env.Reader) : Option env.Reader → Bytes → Prop
  | start : Holds env limit start (some start) []
  | more {reader reader' : env.Reader} {output piece : Bytes} (before : Holds env limit start (some reader) output)
      (running : env.expired reader = false) (nonempty : piece ≠ [])
      (read : env.read reader (min chunkBytes (limit - output.length + 1)) = (.ok piece, reader'))
      (fits : piece.length ≤ limit - output.length) : Holds env limit start (some reader') (output ++ piece)
  | full {reader reader' : env.Reader} {output piece : Bytes} (before : Holds env limit start (some reader) output)
      (running : env.expired reader = false)
      (read : env.read reader (min chunkBytes (limit - output.length + 1)) = (.ok piece, reader'))
      (overflows : limit - output.length < piece.length) :
      Holds env limit start none (output ++ piece.take (limit - output.length))

section Passes
variable {limit : Nat} {reader reader' : env.Reader} {output piece : Bytes} {inputTruncated : Bool}

/-- A pass over a piece that fits goes on behind it. -/
theorem collect_more (hrunning : env.expired reader = false) (hne : piece ≠ [])
    (hread : env.read reader (min chunkBytes (limit - output.length + 1)) = (.ok piece, reader'))
    (hfits : piece.length ≤ limit - output.length) :
    collect env limit reader output inputTruncated = collect env limit reader' (output ++ piece) inputTruncated := by
  obtain ⟨byte, rest, rfl⟩ := List.exists_cons_of_ne_nil hne
  have hnot : ¬ limit - output.length < (byte :: rest).length := Nat.not_lt.mpr hfits
  rw [collect.eq_def env limit reader, hrunning]
  split
  · contradiction
  · split <;> simp_all only [Prod.mk.injEq, Except.ok.injEq, List.cons.injEq, reduceCtorEq, false_and, dite_false]

/-- A pass over a piece that does not fit returns a full output. -/
theorem collect_full (hrunning : env.expired reader = false)
    (hread : env.read reader (min chunkBytes (limit - output.length + 1)) = (.ok piece, reader'))
    (hover : limit - output.length < piece.length) :
    collect env limit reader output inputTruncated =
      .ok (output ++ piece.take (limit - output.length), true) := by
  obtain ⟨byte, rest, rfl⟩ := List.exists_cons_of_ne_nil (List.ne_nil_of_length_pos (Nat.zero_lt_of_lt hover))
  rw [collect.eq_def env limit reader, hrunning]
  split
  · contradiction
  · split <;> simp_all

/-- A reader that has ended settles the outcome, whatever was read before. -/
theorem collect_ended {ending : Option ErrorKind} (hrunning : ∀ reader, env.expired reader = false)
    (answer : ∀ n, 0 < n → (env.read reader n).1 = endAnswer ending)
    (still : ∀ n m, 0 < n → 0 < m → (env.read (env.read reader n).2 m).1 = endAnswer ending)
    (hfits : output.length ≤ limit) :
    collect env limit reader output inputTruncated = collected limit output ending inputTruncated := by
  have hcap : 0 < min chunkBytes (limit - output.length + 1) := by
    simp only [chunkBytes]
    omega
  have hanswer := answer _ hcap
  have hstill := still _ 1 hcap Nat.one_pos
  rw [collect.eq_def env limit reader, hrunning]
  simp only [collected, if_neg (Nat.not_lt.mpr hfits)]
  cases ending with
  | none =>
    simp only [endAnswer] at hanswer hstill
    split
    · contradiction
    · split <;> simp_all
  | some error =>
    simp only [endAnswer] at hanswer
    split
    · contradiction
    · cases error <;> split <;> simp_all

end Passes

section Delivered
variable {limit : Nat} {reader : env.Reader} {bytes : Bytes} {ending : Option ErrorKind} {inputTruncated : Bool}

/-- Collecting goes on from any output it has room for. -/
theorem collect_from (hrunning : ∀ reader, env.expired reader = false) (h : Delivers env reader bytes ending)
    {output : Bytes} (hfits : output.length ≤ limit) :
    collect env limit reader output inputTruncated = collected limit (output ++ bytes) ending inputTruncated := by
  induction h generalizing output with
  | ended answer still =>
    rw [List.append_nil]
    exact collect_ended hrunning answer still hfits
  | @more reader bytes ending piece answer rest ih =>
    have hcap : 0 < min chunkBytes (limit - output.length + 1) := by
      simp only [chunkBytes]
      omega
    obtain ⟨hread, hne, tail, htail⟩ := answer _ hcap
    have hstep := @ih _ hcap
    generalize piece (min chunkBytes (limit - output.length + 1)) = front at hread hne htail hstep
    subst htail
    have hpair : env.read reader (min chunkBytes (limit - output.length + 1)) =
        (.ok front, (env.read reader (min chunkBytes (limit - output.length + 1))).2) := Prod.ext hread rfl
    by_cases hover : limit - output.length < front.length
    · -- the extra byte was there: the output is full and there is more
      have hlong : limit < (output ++ (front ++ tail)).length := by
        simp only [List.length_append]
        omega
      rw [collect_full (hrunning reader) hpair hover, collected_of_lt hlong, List.take_append,
        List.take_of_length_le hfits, List.take_append_of_le_length hover.le]
    · rw [collect_more (hrunning reader) hne hpair (Nat.not_lt.mp hover), hstep, List.drop_left,
        List.append_assoc]
      rw [List.length_append]
      omega

/-- The loop never holds more than the limit. -/
theorem Holds.bounded {start : env.Reader} {now : Option env.Reader} {output : Bytes}
    (h : Holds env limit start now output) : output.length ≤ limit := by
  induction h with
  | start => exact Nat.zero_le _
  | more _ _ _ _ fits ih =>
    rw [List.length_append]
    omega
  | full _ _ _ _ ih =>
    rw [List.length_append, List.length_take]
    omega

/-- What the loop holds is what it goes on from. -/
theorem Holds.collect_eq {start reader : env.Reader} {output : Bytes}
    (h : Holds env limit start (some reader) output) :
    collect env limit start [] inputTruncated = collect env limit reader output inputTruncated := by
  generalize hnow : some reader = now at h
  induction h generalizing reader with
  | start =>
    cases hnow
    rfl
  | more _ running nonempty read fits ih =>
    cases hnow
    rw [ih rfl, collect_more running nonempty read fits]
  | full => cases hnow

/-- Bounded collection, for every way in which a reader delivers its bytes: the first `limit` of them after a clean
end or at the end of a truncated input, an error after any other failure that comes within the limit, and never more
than the limit held. -/
theorem collect_delivered (limit : Nat) (inputTruncated : Bool) (hrunning : ∀ reader, env.expired reader = false)
    (h : Delivers env reader bytes ending) :
    (ending = none → collect env limit reader [] inputTruncated =
      .ok (bytes.take limit, inputTruncated || decide (limit < bytes.length))) ∧
    (ending = some .unexpectedEof → inputTruncated = true →
      collect env limit reader [] inputTruncated = .ok (bytes.take limit, true)) ∧
    (∀ error, ending = some error → ¬ (error = .unexpectedEof ∧ inputTruncated = true) →
      if limit < bytes.length then collect env limit reader [] inputTruncated = .ok (bytes.take limit, true)
      else ∃ status, collect env limit reader [] inputTruncated = .error status) ∧
    ∀ now output, Holds env limit reader now output → output.length ≤ limit := by
  have heq : collect env limit reader [] inputTruncated = collected limit bytes ending inputTruncated :=
    collect_from hrunning h (Nat.zero_le _)
  refine ⟨?_, ?_, ?_, fun _ _ => Holds.bounded⟩
  · rintro rfl
    rw [heq]
    by_cases hlong : limit < bytes.length
    · rw [collected_of_lt hlong]
      simp [hlong]
    · simp [collected, hlong, List.take_of_length_le (Nat.not_lt.mp hlong)]
  · rintro rfl rfl
    rw [heq]
    by_cases hlong : limit < bytes.length
    · rw [collected_of_lt hlong]
    · simp [collected, hlong, List.take_of_length_le (Nat.not_lt.mp hlong)]
  · rintro error rfl hother
    rw [heq]
    split
    · next hlong => rw [collected_of_lt hlong]
    · next hlong =>
      simp only [collected, if_neg hlong]
      cases error <;> simp_all

end Delivered
/-- Readers of finite streams, on a clock that has time. -/
def sourceEnv : DecodingEnv Unit where
  fromSlice := fun _ => none
  Reader := Reader
  newReader := fun _ _ => none
  read := Stream.Source.read
  read_length := by
    intro reader n bytes h
    exact (Stream.Source.read_contents (Prod.ext h rfl)).2.1
  expired := fun _ => false

/-- A finite stream delivers its contents, whatever its arrival boundaries. -/
theorem delivers_source (reader : Reader) : Delivers sourceEnv reader reader.contents reader.ending := by
  generalize hlength : reader.contents.length = length
  induction length using Nat.strong_induction_on generalizing reader with
  | _ length ih =>
    obtain ⟨arrivals, ending⟩ := reader
    cases arrivals with
    | nil => cases ending <;> exact .ended (fun _ _ => rfl) (fun _ _ _ _ => rfl)
    | cons fragment rest =>
      have hread (n : Nat) : Stream.Source.read ⟨fragment :: rest, ending⟩ n =
          (.ok (fragment.items.take n), (Stream.Source.read ⟨fragment :: rest, ending⟩ n).2) := rfl
      refine .more (fun n => fragment.items.take n) (fun n hn => ⟨rfl, ?_, ?_⟩) (fun n hn => ?_)
      · simp [List.take_eq_nil_iff, fragment.nonempty, Nat.ne_of_gt hn]
      · simp only [Stream.Source.contents, List.flatMap_cons]
        exact (List.take_prefix ..).trans (List.prefix_append ..)
      · obtain ⟨hcontents, -, hending⟩ := Stream.Source.read_contents (hread n)
        have hshort : 0 < (fragment.items.take n).length := by
          have := List.length_pos_of_ne_nil fragment.nonempty
          rw [List.length_take]
          omega
        have hrest := ih _ ?_ (Stream.Source.read ⟨fragment :: rest, ending⟩ n).2 rfl
        · rw [hending] at hrest
          rw [hcontents, List.drop_left]
          exact hrest
        · rw [← hlength, hcontents, List.length_append]
          omega

theorem collect_delivered_source : collect sourceEnv 2 (⟨[⟨[1], by decide⟩, ⟨[2], by decide⟩], none⟩ : Reader) [] false =
    .ok ([1, 2], false) :=
  (collect_delivered 2 false (fun _ => rfl) (delivers_source ⟨[⟨[1], by decide⟩, ⟨[2], by decide⟩], none⟩)).1 rfl

end Abyss.Mitm.Hook.ContentDecoder
