import Abyss.Text.Scalar

/-! The timestamp of an event as the broker writes it, and `datetime.fromisoformat` of Python 3.9 that reads it. -/
namespace Abyss.Sdk
open Abyss.Text

section Broker

def isLeap (year : Nat) : Bool := year % 4 = 0 ∧ (year % 100 ≠ 0 ∨ year % 400 = 0)

def daysInMonth (year : Nat) : Nat → Nat
  | 2 => if isLeap year then 29 else 28
  | 4 | 6 | 9 | 11 => 30
  | _ => 31

/-- A UTC time of the years that are written with four digits. -/
structure Timestamp where
  year : Nat
  month : Nat
  day : Nat
  hour : Nat
  minute : Nat
  second : Nat
  nanosecond : Nat
  year_mem : 1 ≤ year ∧ year ≤ 9999
  month_mem : 1 ≤ month ∧ month ≤ 12
  day_mem : 1 ≤ day ∧ day ≤ daysInMonth year month
  hour_lt : hour < 24
  minute_lt : minute < 60
  second_lt : second < 60
  nanosecond_lt : nanosecond < 10 ^ 9
  deriving DecidableEq

namespace Timestamp
variable (time : Timestamp)

/-- No fraction, milliseconds, microseconds or nanoseconds: the shortest that is exact. -/
def fraction : Str :=
  if time.nanosecond = 0 then []
  else if time.nanosecond % 1000000 = 0 then '.' :: fixed 3 (time.nanosecond / 1000000)
  else if time.nanosecond % 1000 = 0 then '.' :: fixed 6 (time.nanosecond / 1000)
  else '.' :: fixed 9 time.nanosecond

/-- The time of day with a mark for the zone. -/
def clockText (zone : Str) : Str :=
  fixed 2 time.hour ++ ':' :: (fixed 2 time.minute ++ ':' :: (fixed 2 time.second ++ (time.fraction ++ zone)))

/-- `DateTime<Utc>` in RFC 3339. -/
def format : Str :=
  fixed 4 time.year ++ '-' :: (fixed 2 time.month ++ '-' :: (fixed 2 time.day ++ 'T' :: time.clockText ['Z']))

/-- At most six digits after the point. -/
def Microseconds : Prop := time.nanosecond % 1000 = 0

end Timestamp
end Broker

section Python

/-- A `datetime`; the offset from UTC is in microseconds. -/
structure PyDatetime where
  year : Nat
  month : Nat
  day : Nat
  hour : Nat
  minute : Nat
  second : Nat
  microsecond : Nat
  utcOffset : Option Int
  deriving DecidableEq, Repr

/-- `.fff` or `.ffffff`, in microseconds. -/
def parseFraction (s : Str) : Option Nat :=
  if s.length = 3 then (takeDigits 3 s).map (fun p => p.1 * 1000)
  else if s.length = 6 then (takeDigits 6 s).map Prod.fst
  else none

/-- `HH[:MM[:SS[.fff[fff]]]]` -/
def parseHhMmSsFf (s : Str) : Option (Nat × Nat × Nat × Nat) := do
  let (hour, s) ← takeDigits 2 s
  match s with
  | [] => some (hour, 0, 0, 0)
  | ':' :: s =>
    let (minute, s) ← takeDigits 2 s
    match s with
    | [] => some (hour, minute, 0, 0)
    | ':' :: s =>
      let (second, s) ← takeDigits 2 s
      match s with
      | [] => some (hour, minute, second, 0)
      | '.' :: s =>
        let microsecond ← parseFraction s
        some (hour, minute, second, microsecond)
      | _ => none
    | _ => none
  | _ => none

def isSign (c : Char) : Bool := c == '+' || c == '-'

/-- The text before the first sign, and the sign with the zone after it. -/
def splitZone (s : Str) : Str × Option (Int × Str) :=
  match s.dropWhile (fun c => !isSign c) with
  | sign :: zone => (s.takeWhile (fun c => !isSign c), some (if sign = '-' then -1 else 1, zone))
  | [] => (s, none)

/-- The offset of a zone; `timezone` takes less than a day. -/
def parseZone (zone : Int × Str) : Option Int := do
  if zone.2.length ∉ [5, 8, 15] then none
  else
    let (hours, minutes, seconds, microseconds) ← parseHhMmSsFf zone.2
    let offset := ((hours * 60 + minutes) * 60 + seconds) * 1000000 + microseconds
    if offset < 24 * 60 * 60 * 1000000 then some (zone.1 * offset) else none

/-- The clock and the offset of a text after the separator. -/
def parseIsoformatTime (s : Str) : Option ((Nat × Nat × Nat × Nat) × Option Int) :=
  match splitZone s with
  | (clock, none) => (parseHhMmSsFf clock).map (fun clock => (clock, none))
  | (clock, some zone) => do some (← parseHhMmSsFf clock, some (← parseZone zone))

/-- The checks of the `datetime` constructor. -/
def mkDatetime (year month day : Nat) (clock : Nat × Nat × Nat × Nat) (utcOffset : Option Int) : Option PyDatetime :=
  let (hour, minute, second, microsecond) := clock
  if 1 ≤ year ∧ year ≤ 9999 ∧ 1 ≤ month ∧ month ≤ 12 ∧ 1 ≤ day ∧ day ≤ daysInMonth year month ∧ hour < 24 ∧ minute < 60 ∧
      second < 60 ∧ microsecond < 1000000 then
    some { year, month, day, hour, minute, second, microsecond, utcOffset }
  else none

/-- `datetime.fromisoformat`: `YYYY-MM-DD[*HH[:MM[:SS[.fff[fff]]]][+HH:MM[:SS[.ffffff]]]]` -/
def fromisoformat (s : Str) : Option PyDatetime := do
  let (year, s) ← takeDigits 4 s
  match s with
  | '-' :: s =>
    let (month, s) ← takeDigits 2 s
    match s with
    | '-' :: s =>
      let (day, s) ← takeDigits 2 s
      match s with
      | [] => mkDatetime year month day (0, 0, 0, 0) none
      | _ :: s =>
        let (clock, offset) ← parseIsoformatTime s
        mkDatetime year month day clock offset
    | _ => none
  | _ => none

/-- `value.replace("Z", "+00:00")` -/
def replaceZ (value : Str) : Str := value.flatMap (fun c => if c = 'Z' then "+00:00".toList else [c])

/-- How `_datetime` reads a timestamp. -/
def parseDatetime (value : Str) : Option PyDatetime := fromisoformat (replaceZ value)

end Python

section Reading
variable {time : Timestamp}

/-- The `datetime` of a time that has whole microseconds. -/
def Timestamp.toDatetime (time : Timestamp) : PyDatetime where
  year := time.year
  month := time.month
  day := time.day
  hour := time.hour
  minute := time.minute
  second := time.second
  microsecond := time.nanosecond / 1000
  utcOffset := some 0

private theorem replaceZ_append (s t : Str) : replaceZ (s ++ t) = replaceZ s ++ replaceZ t := List.flatMap_append

private theorem replaceZ_plain {s : Str} (h : ∀ c ∈ s, c ≠ 'Z') : replaceZ s = s := by
  induction s with
  | nil => rfl
  | cons c s ih =>
    rw [replaceZ, List.flatMap_cons, if_neg (h c List.mem_cons_self), ← replaceZ, ih (fun d hd => h d (List.mem_cons_of_mem _ hd))]
    rfl

private theorem ne_of_digit {c d : Char} (hc : c.isDigit = true) (hd : d.isDigit = false) : c ≠ d :=
  fun h => by rw [h, hd] at hc; cases hc

private theorem digits_plain {width n : Nat} {d : Char} (hd : d.isDigit = false) : ∀ c ∈ fixed width n, c ≠ d :=
  fun _ hc => ne_of_digit (isDigit_of_mem_fixed hc) hd

/-- The characters of the clock are digits, colons and a point. -/
private theorem mem_clockText {c : Char} (h : c ∈ time.clockText []) : c.isDigit = true ∨ c = ':' ∨ c = '.' := by
  have hfraction : c ∈ time.fraction → c.isDigit = true ∨ c = ':' ∨ c = '.' := by
    intro hc
    unfold Timestamp.fraction at hc
    split at hc
    · cases hc
    · split at hc
      · rcases List.mem_cons.mp hc with hc | hc
        · exact .inr (.inr hc)
        · exact .inl (isDigit_of_mem_fixed hc)
      · split at hc
        · rcases List.mem_cons.mp hc with hc | hc
          · exact .inr (.inr hc)
          · exact .inl (isDigit_of_mem_fixed hc)
        · rcases List.mem_cons.mp hc with hc | hc
          · exact .inr (.inr hc)
          · exact .inl (isDigit_of_mem_fixed hc)
  simp only [Timestamp.clockText, List.append_nil, List.mem_append, List.mem_cons] at h
  rcases h with h | h | h | h | h | h
  · exact .inl (isDigit_of_mem_fixed h)
  · exact .inr (.inl h)
  · exact .inl (isDigit_of_mem_fixed h)
  · exact .inr (.inl h)
  · exact .inl (isDigit_of_mem_fixed h)
  · exact hfraction h

private theorem clockText_append (zone : Str) : time.clockText zone = time.clockText [] ++ zone := by
  simp only [Timestamp.clockText, List.append_nil, List.append_assoc, List.cons_append]

theorem replaceZ_format : replaceZ time.format = fixed 4 time.year ++ '-' :: (fixed 2 time.month ++ '-' ::
    (fixed 2 time.day ++ 'T' :: (time.clockText [] ++ "+00:00".toList))) := by
  have hplain : replaceZ (time.clockText []) = time.clockText [] := by
    apply replaceZ_plain
    intro c hc
    rcases mem_clockText hc with h | rfl | rfl
    · exact ne_of_digit h rfl
    · decide
    · decide
  have hcons : ∀ (c : Char) (s : Str), c ≠ 'Z' → replaceZ (c :: s) = c :: replaceZ s := by
    intro c s hc
    rw [replaceZ, List.flatMap_cons, if_neg hc]
    rfl
  rw [Timestamp.format, clockText_append]
  simp only [replaceZ_append, hcons _ _ (show '-' ≠ 'Z' by decide), hcons _ _ (show 'T' ≠ 'Z' by decide),
    replaceZ_plain (digits_plain (show 'Z'.isDigit = false from rfl)), hplain]
  rfl

private theorem parse_fraction (h : time.Microseconds) : (time.fraction = [] ∧ time.nanosecond / 1000 = 0) ∨
    ∃ s, time.fraction = '.' :: s ∧ parseFraction s = some (time.nanosecond / 1000) := by
  have hlt := time.nanosecond_lt
  unfold Timestamp.Microseconds at h
  unfold Timestamp.fraction
  by_cases hzero : time.nanosecond = 0
  · exact .inl ⟨if_pos hzero, by omega⟩
  · rw [if_neg hzero]
    by_cases hmilli : time.nanosecond % 1000000 = 0
    · rw [if_pos hmilli]
      refine .inr ⟨_, rfl, ?_⟩
      rw [parseFraction, if_pos (length_fixed ..), takeDigits_fixed_end (by omega), Option.map_some]
      congr 1
      omega
    · rw [if_neg hmilli, if_pos h]
      refine .inr ⟨_, rfl, ?_⟩
      rw [parseFraction, if_neg (by rw [length_fixed]; decide), if_pos (length_fixed ..), takeDigits_fixed_end (by omega)]
      rfl

theorem parse_clock (h : time.Microseconds) :
    parseHhMmSsFf (time.clockText []) = some (time.hour, time.minute, time.second, time.nanosecond / 1000) := by
  have hhour := time.hour_lt
  have hminute := time.minute_lt
  have hsecond := time.second_lt
  rw [parseHhMmSsFf, Timestamp.clockText, List.append_nil, takeDigits_fixed (by omega)]
  simp only [Option.bind_eq_bind, Option.bind_some]
  rw [takeDigits_fixed (by omega)]
  simp only [Option.bind_some]
  rw [takeDigits_fixed (by omega)]
  rcases parse_fraction h with ⟨hfraction, hzero⟩ | ⟨s, hfraction, hs⟩
  · simp only [hfraction, Option.bind_some, hzero]
  · simp only [hfraction, Option.bind_some, hs]

theorem splitZone_clock : splitZone (time.clockText [] ++ "+00:00".toList) = (time.clockText [], some (1, "00:00".toList)) := by
  have hplain : ∀ c ∈ time.clockText [], (!isSign c) = true := by
    intro c hc
    rcases mem_clockText hc with h | rfl | rfl
    · have hplus : c ≠ '+' := ne_of_digit h rfl
      have hminus : c ≠ '-' := ne_of_digit h rfl
      simp [isSign, hplus, hminus]
    · decide
    · decide
  rw [splitZone, List.dropWhile_append_of_pos hplain, List.takeWhile_append_of_pos hplain]
  simp [isSign]

/-- A time with at most six digits after the point is read as it is. -/
theorem parseDatetime_format (h : time.Microseconds) : parseDatetime time.format = some time.toDatetime := by
  obtain ⟨hyear, hyear'⟩ := time.year_mem
  obtain ⟨hmonth, hmonth'⟩ := time.month_mem
  obtain ⟨hday, hday'⟩ := time.day_mem
  have hdays : time.day < 10 ^ 2 := by
    have hmax : daysInMonth time.year time.month ≤ 31 := by
      unfold daysInMonth
      split <;> first | split <;> decide | decide
    omega
  have hzone : parseZone (1, "00:00".toList) = some 0 := by decide
  rw [parseDatetime, replaceZ_format, fromisoformat, takeDigits_fixed (by omega)]
  simp only [Option.bind_eq_bind, Option.bind_some]
  rw [takeDigits_fixed (by omega)]
  simp only [Option.bind_some]
  rw [takeDigits_fixed hdays]
  simp only [Option.bind_some, parseIsoformatTime, splitZone_clock, parse_clock h, hzone]
  have hmicrosecond : time.nanosecond / 1000 < 1000000 := by
    have := time.nanosecond_lt
    omega
  exact if_pos ⟨hyear, hyear', hmonth, hmonth', hday, hday', time.hour_lt, time.minute_lt, time.second_lt, hmicrosecond⟩

end Reading
end Abyss.Sdk
