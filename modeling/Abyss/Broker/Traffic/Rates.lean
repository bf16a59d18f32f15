import Abyss.Broker.Traffic.Monitor

/-! What live rates and totals mean: they are compared with all that was recorded. -/
namespace Abyss.Broker.Traffic
open Abyss.Data

section Ledger

/-- Bytes that were recorded for an active flow. -/
structure Entry where
  time : Nat
  direction : TrafficDirection
  bytes : Nat

/-- All that was recorded while flows were active. -/
structure Ledger where
  active : Uuid → Bool
  entries : List Entry

namespace Ledger

def empty : Ledger := ⟨fun _ => false, []⟩

def apply (ledger : Ledger) : Operation → Ledger
  | .startFlow id _ => { ledger with active := Function.update ledger.active id true }
  | .recordBytes now id direction bytes =>
    if ledger.active id then { ledger with entries := ledger.entries ++ [⟨now, direction, bytes.toNat⟩] } else ledger
  | .finishFlow id => { ledger with active := Function.update ledger.active id false }
  | .snapshot _ => ledger

def ofRun (operations : List Operation) : Ledger := operations.foldl apply empty

/-- The bytes of the entries that are of one kind. -/
def sumOf (kind : Entry → Bool) (entries : List Entry) : Nat :=
  (entries.map (fun entry => if kind entry then entry.bytes else 0)).sum

/-- All bytes of a direction. -/
def total (ledger : Ledger) (direction : TrafficDirection) : Nat :=
  sumOf (fun entry => entry.direction = direction) ledger.entries

/-- The bytes of a direction in the second that starts at `startMs`. -/
def inSecond (ledger : Ledger) (direction : TrafficDirection) (startMs : Nat) : Nat :=
  sumOf (fun entry => entry.direction = direction ∧ bucketStart entry.time = startMs) ledger.entries

theorem sumOf_append (kind : Entry → Bool) (entries : List Entry) (entry : Entry) :
    sumOf kind (entries ++ [entry]) = sumOf kind entries + if kind entry then entry.bytes else 0 := by
  simp [sumOf]

theorem sumOf_eq_zero {kind : Entry → Bool} {entries : List Entry} (h : ∀ entry ∈ entries, kind entry = false) :
    sumOf kind entries = 0 := by
  induction entries with
  | nil => rfl
  | cons entry entries ih =>
    have hrest := ih (fun other hother => h other (List.mem_cons_of_mem _ hother))
    rw [sumOf, List.map_cons, List.sum_cons, h entry (List.mem_cons_self ..), ← sumOf, hrest]
    rfl

/-- A second only gains bytes. -/
theorem inSecond_le_apply (ledger : Ledger) (operation : Operation) (direction : TrafficDirection) (startMs : Nat) :
    ledger.inSecond direction startMs ≤ (ledger.apply operation).inSecond direction startMs := by
  cases operation with
  | startFlow id metadata => exact Nat.le_refl _
  | finishFlow id => exact Nat.le_refl _
  | snapshot now => exact Nat.le_refl _
  | recordBytes now id recorded bytes =>
    simp only [apply]
    split
    · rw [inSecond, inSecond, sumOf_append]
      exact Nat.le_add_right ..
    · exact Nat.le_refl _

end Ledger
end Ledger

section Buckets
variable {now : Nat} {buckets : List RateBucket}

theorem bucketStart_le (now : Nat) : bucketStart now ≤ now := Nat.sub_le ..

theorem dvd_bucketStart (now : Nat) : RATE_BUCKET_MS ∣ bucketStart now := Nat.dvd_sub_mod now

theorem lt_bucketStart_add (now : Nat) : now < bucketStart now + RATE_BUCKET_MS := by
  have hmod := Nat.mod_lt now (show RATE_BUCKET_MS > 0 by decide)
  have hle := Nat.mod_le now RATE_BUCKET_MS
  unfold bucketStart
  omega

/-- A start on the grid that is not after a time is not after the start of its second. -/
theorem le_bucketStart {startMs : Nat} (hgrid : RATE_BUCKET_MS ∣ startMs) (h : startMs ≤ now) :
    startMs ≤ bucketStart now := by
  by_contra hlt
  have hstep : RATE_BUCKET_MS ≤ startMs - bucketStart now :=
    Nat.le_of_dvd (by omega) (Nat.dvd_sub hgrid (dvd_bucketStart now))
  have hnow := lt_bucketStart_add now
  omega

/-- A bucket is in the window until the window has been behind its end for as long as it lasts. -/
def InWindow (now startMs : Nat) : Prop := now ≤ startMs + RATE_BUCKET_MS + RATE_WINDOW_MS

theorem inWindow_iff {startMs : Nat} (hnow : now < 2 ^ 64) : inWindow now startMs = true ↔ InWindow now startMs := by
  rw [inWindow, decide_eq_true_iff, InWindow, windowCutoff, saturatingAdd, addUpTo, RATE_WINDOW_MS, RATE_BUCKET_MS]
  omega

/-- The buckets of a monitor whose clock has read at most this. -/
structure Ordered (clock : Nat) (buckets : List RateBucket) : Prop where
  ascending : buckets.Pairwise (fun left right => left.startMs < right.startMs)
  grid : ∀ bucket ∈ buckets, RATE_BUCKET_MS ∣ bucket.startMs
  past : ∀ bucket ∈ buckets, bucket.startMs ≤ clock

theorem Ordered.sublist {clock : Nat} {kept : List RateBucket} (h : Ordered clock buckets) (hkept : kept.Sublist buckets) :
    Ordered clock kept :=
  ⟨h.ascending.sublist hkept, fun bucket hmem => h.grid bucket (hkept.subset hmem),
    fun bucket hmem => h.past bucket (hkept.subset hmem)⟩

theorem Ordered.later {clock : Nat} (h : Ordered clock buckets) (hclock : clock ≤ now) : Ordered now buckets :=
  ⟨h.ascending, h.grid, fun bucket hmem => Nat.le_trans (h.past bucket hmem) hclock⟩

theorem popExcess_suffix (buckets : List RateBucket) : popExcess buckets <:+ buckets := by
  induction buckets with
  | nil => exact List.suffix_refl _
  | cons bucket buckets ih =>
    rw [popExcess]
    split
    · exact ih.trans (List.suffix_cons ..)
    · exact List.suffix_refl _

theorem popExcess_of_length_le (h : buckets.length ≤ MAX_RATE_BUCKETS) : popExcess buckets = buckets := by
  cases buckets with
  | nil => rfl
  | cons bucket buckets => rw [popExcess, if_neg (Nat.not_lt.mpr h)]

theorem length_popExcess_le (buckets : List RateBucket) : (popExcess buckets).length ≤ MAX_RATE_BUCKETS := by
  induction buckets with
  | nil => exact Nat.zero_le _
  | cons bucket buckets ih =>
    rw [popExcess]
    split
    · exact ih
    · next h => exact Nat.not_lt.mp h

theorem popExcess_concat (front : List RateBucket) (last : RateBucket) :
    ∃ kept, kept <:+ front ∧ popExcess (front ++ [last]) = kept ++ [last] := by
  induction front with
  | nil => exact ⟨[], List.suffix_refl _, rfl⟩
  | cons bucket front ih =>
    rw [List.cons_append, popExcess]
    split
    · obtain ⟨kept, hkept, heq⟩ := ih
      exact ⟨kept, hkept.trans (List.suffix_cons ..), heq⟩
    · exact ⟨bucket :: front, List.suffix_refl _, rfl⟩

/-- A bucket is added when the current second has none, which is then the last of all. -/
theorem not_needsBucket (h : needsBucket now buckets = false) :
    ∃ front last, buckets = front ++ [last] ∧ last.startMs = bucketStart now := by
  induction buckets using List.reverseRecOn with
  | nil => simp [needsBucket] at h
  | append_singleton front last ih =>
    refine ⟨front, last, rfl, ?_⟩
    simpa [needsBucket] using h

theorem Ordered.concat {clock : Nat} (h : Ordered clock buckets) (hclock : clock ≤ now)
    (hneeds : needsBucket now buckets = true) : Ordered now (buckets ++ [⟨bucketStart now, ⟨0, 0⟩⟩]) := by
  have hbefore : ∀ bucket ∈ buckets, bucket.startMs < bucketStart now := by
    intro bucket hmem
    induction buckets using List.reverseRecOn with
    | nil => cases hmem
    | append_singleton front last ih =>
      have hlast : last.startMs < bucketStart now := by
        have hle := le_bucketStart (h.grid last (by simp)) (Nat.le_trans (h.past last (by simp)) hclock)
        have hne : last.startMs ≠ bucketStart now := by simpa [needsBucket] using hneeds
        omega
      rcases List.mem_append.mp hmem with hmem | hmem
      · exact Nat.lt_trans ((List.pairwise_append.mp h.ascending).2.2 bucket hmem last (by simp)) hlast
      · rw [List.mem_singleton.mp hmem]
        exact hlast
  refine ⟨List.pairwise_append.mpr ⟨h.ascending, List.pairwise_singleton .., ?_⟩, ?_, ?_⟩
  · intro bucket hmem last hlast
    rw [List.mem_singleton.mp hlast]
    exact hbefore bucket hmem
  · intro bucket hmem
    rcases List.mem_append.mp hmem with hmem | hmem
    · exact h.grid bucket hmem
    · rw [List.mem_singleton.mp hmem]
      exact dvd_bucketStart now
  · intro bucket hmem
    rcases List.mem_append.mp hmem with hmem | hmem
    · exact Nat.le_trans (h.past bucket hmem) hclock
    · rw [List.mem_singleton.mp hmem]
      exact bucketStart_le now

/-- What recording does to the buckets: the last one is that of the current second, and those before it were there. -/
theorem ensureBucket_spec {clock : Nat} (h : Ordered clock buckets) (hclock : clock ≤ now) :
    ∃ front last, ensureBucket now buckets = front ++ [last] ∧ last.startMs = bucketStart now ∧
      (∀ bucket ∈ front, bucket ∈ buckets) ∧ (last ∈ buckets ∨ last.bytes = ⟨0, 0⟩) ∧
      Ordered now (front ++ [last]) := by
  unfold ensureBucket
  cases hneeds : needsBucket now buckets with
  | true =>
    obtain ⟨kept, hkept, heq⟩ := popExcess_concat buckets ⟨bucketStart now, ⟨0, 0⟩⟩
    rw [if_pos rfl, heq]
    exact ⟨kept, _, rfl, rfl, fun bucket hmem => hkept.subset hmem, .inr rfl,
      (h.concat hclock hneeds).sublist (hkept.sublist.append_right _)⟩
  | false =>
    obtain ⟨front, last, rfl, hlast⟩ := not_needsBucket hneeds
    obtain ⟨kept, hkept, heq⟩ := popExcess_concat front last
    rw [if_neg (by decide), heq]
    exact ⟨kept, last, rfl, hlast, fun bucket hmem => List.mem_append_left _ (hkept.subset hmem), .inl (by simp),
      (h.later hclock).sublist (hkept.sublist.append_right _)⟩

theorem updateLast_concat (update : RateBucket → RateBucket) (front : List RateBucket) (last : RateBucket) :
    updateLast update (front ++ [last]) = front ++ [update last] := by
  induction front with
  | nil => rfl
  | cons bucket front ih =>
    cases front with
    | nil => rfl
    | cons next front =>
      rw [List.cons_append, List.cons_append, updateLast, ← List.cons_append, ih]
      rfl

end Buckets

section Runs
variable {now clock : Nat} {ledger : Ledger} {state : TrafficState}

/-- The readings of the clock do not go back. -/
structure Clocked (operations : List Operation) : Prop where
  ascending : (operations.filterMap Operation.reading).Pairwise (· ≤ ·)
  bounded : ∀ reading ∈ operations.filterMap Operation.reading, reading < 2 ^ 64

/-- What a monitor knows of the ledger. -/
structure Accounts (clock : Nat) (ledger : Ledger) (state : TrafficState) : Prop where
  active : ∀ id, id ∈ state.flows ↔ ledger.active id = true
  totals : ∀ direction, state.totals.of direction = min (ledger.total direction) (2 ^ 64 - 1)
  buckets : Ordered clock state.buckets
  capped : state.buckets.length ≤ MAX_RATE_BUCKETS
  recorded : ∀ bucket ∈ state.buckets, ∀ direction, bucket.bytes.of direction ≤ ledger.inSecond direction bucket.startMs

theorem accounts_new : Accounts clock Ledger.empty TrafficState.new where
  active id := by simp [TrafficState.new, Ledger.empty]
  totals direction := by cases direction <;> rfl
  buckets := ⟨.nil, fun _ hmem => absurd hmem List.not_mem_nil, fun _ hmem => absurd hmem List.not_mem_nil⟩
  capped := Nat.zero_le _
  recorded _ hmem := absurd hmem List.not_mem_nil

theorem of_observe (counts : Counts) (recorded direction : TrafficDirection) (bytes : Nat) :
    (counts.observe recorded bytes).of direction =
      if recorded = direction then saturatingAdd (counts.of direction) bytes else counts.of direction := by
  cases recorded <;> cases direction <;> rfl

/-- Recording for an active flow keeps the accounts. -/
theorem accounts_recordBytes (h : Accounts clock ledger state) (hclock : clock ≤ now) {id : Uuid}
    (direction : TrafficDirection) (bytes : UInt64) :
    Accounts now (ledger.apply (.recordBytes now id direction bytes)) (recordBytes now id direction bytes state) := by
  cases hflow : state.flows.lookup id with
  | none =>
    have hactive : ¬ ledger.active id = true := by
      rw [← h.active, ← AList.lookup_eq_none]
      exact hflow
    simp only [Ledger.apply, recordBytes, hflow, if_neg hactive]
    exact ⟨h.active, h.totals, h.buckets.later hclock, h.capped, h.recorded⟩
  | some flow =>
    have hmem : id ∈ state.flows := AList.lookup_isSome.mp (Option.isSome_of_eq_some hflow)
    have hactive : ledger.active id = true := (h.active id).mp hmem
    have hrecorded : ∀ direction' startMs, ledger.inSecond direction' startMs ≤
        (ledger.apply (.recordBytes now id direction bytes)).inSecond direction' startMs :=
      fun direction' startMs => ledger.inSecond_le_apply _ direction' startMs
    obtain ⟨front, last, hensure, hlast, hfront, hold, hordered⟩ := ensureBucket_spec h.buckets hclock
    have hlastBytes : ∀ direction', last.bytes.of direction' ≤ ledger.inSecond direction' last.startMs := by
      intro direction'
      rcases hold with hold | hnew
      · exact h.recorded last hold direction'
      · rw [hnew]
        cases direction' <;> exact Nat.zero_le _
    have happly : ledger.apply (.recordBytes now id direction bytes) =
        { ledger with entries := ledger.entries ++ [⟨now, direction, bytes.toNat⟩] } := by
      simp only [Ledger.apply, if_pos hactive]
    simp only [recordBytes, hflow, hensure, updateLast_concat]
    refine ⟨?_, ?_, ?_, ?_, ?_⟩
    · intro other
      rw [happly, AList.mem_insert, ← h.active]
      constructor
      · rintro (rfl | hother)
        · exact hmem
        · exact hother
      · exact .inr
    · intro direction'
      rw [happly, of_observe, Ledger.total, Ledger.sumOf_append, ← Ledger.total, h.totals, saturatingAdd, addUpTo_min]
      by_cases hdirection : direction = direction'
      · rw [if_pos hdirection, if_pos (decide_eq_true hdirection)]
      · rw [if_neg hdirection, if_neg (by simpa using hdirection), Nat.add_zero]
    · refine ⟨?_, ?_, ?_⟩
      · have hascending := List.pairwise_append.mp hordered.ascending
        refine List.pairwise_append.mpr ⟨hascending.1, List.pairwise_singleton .., ?_⟩
        intro bucket hbucket updated hupdated
        rw [List.mem_singleton.mp hupdated]
        exact hascending.2.2 bucket hbucket last (by simp)
      · intro bucket hbucket
        rcases List.mem_append.mp hbucket with hbucket | hbucket
        · exact hordered.grid bucket (List.mem_append_left _ hbucket)
        · rw [List.mem_singleton.mp hbucket]
          exact hordered.grid last (by simp)
      · intro bucket hbucket
        rcases List.mem_append.mp hbucket with hbucket | hbucket
        · exact hordered.past bucket (List.mem_append_left _ hbucket)
        · rw [List.mem_singleton.mp hbucket]
          exact hordered.past last (by simp)
    · have hlength := length_popExcess_le
        (if needsBucket now state.buckets then state.buckets ++ [⟨bucketStart now, ⟨0, 0⟩⟩] else state.buckets)
      rw [← ensureBucket, hensure, List.length_append, List.length_singleton] at hlength
      rw [List.length_append, List.length_singleton]
      exact hlength
    · intro bucket hbucket direction'
      rcases List.mem_append.mp hbucket with hbucket | hbucket
      · exact Nat.le_trans (h.recorded bucket (hfront bucket hbucket) direction') (hrecorded _ _)
      · rw [List.mem_singleton.mp hbucket]
        show (last.bytes.observe direction bytes.toNat).of direction' ≤
          (ledger.apply (.recordBytes now id direction bytes)).inSecond direction' last.startMs
        rw [of_observe]
        by_cases hdirection : direction = direction'
        · rw [if_pos hdirection, happly, Ledger.inSecond, Ledger.sumOf_append, ← Ledger.inSecond,
            if_pos (decide_eq_true ⟨hdirection, hlast.symm⟩)]
          exact Nat.le_trans (addUpTo_le ..) (Nat.add_le_add_right (hlastBytes direction') _)
        · rw [if_neg hdirection]
          exact Nat.le_trans (hlastBytes direction') (hrecorded _ _)

/-- Every operation keeps the accounts. -/
theorem accounts_apply (h : Accounts clock ledger state) (operation : Operation)
    (hclock : ∀ reading ∈ operation.reading, clock ≤ reading) :
    Accounts (operation.reading.getD clock) (ledger.apply operation) (apply state operation) := by
  cases operation with
  | startFlow id metadata =>
    refine ⟨?_, h.totals, h.buckets, h.capped, h.recorded⟩
    intro other
    show other ∈ state.flows.insert id ⟨metadata, ⟨0, 0⟩⟩ ↔ Function.update ledger.active id true other = true
    rw [AList.mem_insert, h.active, Function.update_apply]
    by_cases hother : other = id <;> simp [hother]
  | recordBytes now id direction bytes => exact accounts_recordBytes h (hclock now rfl) direction bytes
  | finishFlow id =>
    refine ⟨?_, h.totals, h.buckets, h.capped, h.recorded⟩
    intro other
    show other ∈ state.flows.erase id ↔ Function.update ledger.active id false other = true
    rw [AList.mem_erase, h.active, Function.update_apply]
    by_cases hother : other = id <;> simp [hother]
  | snapshot now =>
    have hkept : (pruneBuckets now state.buckets).Sublist state.buckets := (List.dropWhile_suffix _).sublist
    exact ⟨h.active, h.totals, (h.buckets.sublist hkept).later (hclock now rfl),
      Nat.le_trans hkept.length_le h.capped, fun bucket hmem => h.recorded bucket (hkept.subset hmem)⟩

/-- Every run keeps the accounts, up to the last reading of its clock. -/
theorem accounts_run {operations : List Operation}
    (hclocked : (operations.filterMap Operation.reading).Pairwise (· ≤ ·)) :
    ∃ clock, (∀ reading ∈ operations.filterMap Operation.reading, reading ≤ clock) ∧
      (∀ next, (∀ reading ∈ operations.filterMap Operation.reading, reading ≤ next) → clock ≤ next) ∧
      Accounts clock (Ledger.ofRun operations) (run operations) := by
  induction operations using List.reverseRecOn with
  | nil => exact ⟨0, fun _ hmem => absurd hmem List.not_mem_nil, fun _ _ => Nat.zero_le _, accounts_new⟩
  | append_singleton operations operation ih =>
    rw [List.filterMap_append, List.pairwise_append] at hclocked
    obtain ⟨clock, hupper, hleast, haccounts⟩ := ih hclocked.1
    have hlast : ∀ reading ∈ operation.reading, clock ≤ reading := by
      intro reading hreading
      exact hleast reading fun earlier hearlier => hclocked.2.2 earlier hearlier reading
        (List.mem_filterMap.mpr ⟨operation, by simp, hreading⟩)
    refine ⟨operation.reading.getD clock, ?_, ?_, ?_⟩
    · intro reading hreading
      rw [List.filterMap_append, List.mem_append] at hreading
      cases hoperation : operation.reading with
      | none =>
        rcases hreading with hreading | hreading
        · exact hupper reading hreading
        · simp [List.filterMap, hoperation] at hreading
      | some time =>
        rcases hreading with hreading | hreading
        · exact Nat.le_trans (hupper reading hreading) (hlast time hoperation)
        · simp only [List.filterMap, hoperation, List.mem_singleton] at hreading
          exact Nat.le_of_eq hreading
    · intro next hnext
      cases hoperation : operation.reading with
      | none => exact hleast next fun reading hreading => hnext reading (by simp [List.filterMap_append, hreading])
      | some time => exact hnext time (by simp [List.filterMap_append, List.filterMap, hoperation])
    · rw [Ledger.ofRun, run, List.foldl_append, List.foldl_append]
      exact accounts_apply haccounts operation hlast

end Runs

section Soundness
variable {now clock : Nat} {ledger : Ledger} {state : TrafficState} {operation : Operation}

/-- What a use of the monitor reports is sound, and what it drops is out of the window. -/
structure Sound (ledger : Ledger) (state : TrafficState) (operation : Operation) : Prop where
  rate : ∀ now, operation = .snapshot now → ∀ direction, ∃ startMs, RATE_BUCKET_MS ∣ startMs ∧ startMs ≤ now ∧
    InWindow now startMs ∧
    (snapshot now state).1.bytesPerSecond.of direction ≤ ledger.inSecond direction startMs
  idle : ∀ now, operation = .snapshot now → ∀ direction,
    (∀ entry ∈ ledger.entries, entry.direction = direction → entry.time + RATE_WINDOW_MS + RATE_BUCKET_MS < now) →
    (snapshot now state).1.bytesPerSecond.of direction = 0
  kept : ∀ now, operation.reading = some now → ∀ bucket ∈ state.buckets, InWindow now bucket.startMs →
    ∃ kept ∈ (apply state operation).buckets, kept.startMs = bucket.startMs
  totals : ∀ now, operation = .snapshot now → ∀ direction,
    (snapshot now state).1.totalBytes.of direction = min (ledger.total direction) (2 ^ 64 - 1)

/-- The window has fewer than six buckets at a snapshot, and no seventh one is added six seconds after the first. -/
def Uncrowded (state : TrafficState) : Operation → Prop
  | .startFlow _ _ => True
  | .recordBytes now id _ _ => id ∈ state.flows → state.buckets.length = MAX_RATE_BUCKETS →
    needsBucket now state.buckets = true → ∀ first ∈ state.buckets.head?, now ≠ first.startMs + 6000
  | .finishFlow _ => True
  | .snapshot now => (pruneBuckets now state.buckets).length < MAX_RATE_BUCKETS

theorem of_recentBytes_le (now : Nat) {bound : Nat} {buckets : List RateBucket} {direction : TrafficDirection}
    (h : ∀ bucket ∈ buckets, bucket.bytes.of direction ≤ bound) :
    (recentBytes now buckets).of direction ≤ buckets.length * bound := by
  have hread : ∀ (kept : List RateBucket) (counts : Counts),
      (kept.foldl (fun counts bucket => Counts.mk (saturatingAdd counts.upload bucket.bytes.upload)
        (saturatingAdd counts.download bucket.bytes.download)) counts).of direction =
      kept.foldl (fun sum bucket => addUpTo (2 ^ 64 - 1) sum (bucket.bytes.of direction)) (counts.of direction) := by
    intro kept
    induction kept with
    | nil => exact fun _ => rfl
    | cons bucket kept ih =>
      intro counts
      rw [List.foldl_cons, ih, List.foldl_cons]
      cases direction <;> rfl
  have hkept : ∀ bucket ∈ buckets.filter (fun bucket => inWindow now bucket.startMs), bucket.bytes.of direction ≤ bound :=
    fun bucket hmem => h bucket (List.mem_of_mem_filter hmem)
  have hsum := foldl_addUpTo_le (fun bucket : RateBucket => bucket.bytes.of direction) (2 ^ 64 - 1) hkept 0
  have hzero : (Counts.mk 0 0).of direction = 0 := by cases direction <;> rfl
  rw [recentBytes, hread, hzero]
  rw [Nat.zero_add] at hsum
  exact Nat.le_trans hsum (Nat.mul_le_mul_right bound (List.length_filter_le ..))

theorem of_report (now : Nat) (state : TrafficState) (direction : TrafficDirection) :
    (report now state).bytesPerSecond.of direction =
      bytesPerSecond ((recentBytes now state.buckets).of direction) (rateElapsedMs now state.buckets) := by
  cases direction <;> rfl

theorem bytesPerSecond_le {bytes elapsedMs bound : Nat} (helapsed : 0 < elapsedMs) (h : bytes * 1000 ≤ bound * elapsedMs) :
    bytesPerSecond bytes elapsedMs ≤ bound := by
  rw [bytesPerSecond, Nat.max_eq_left helapsed]
  refine Nat.div_le_of_le_mul (Nat.le_trans (Nat.min_le_left ..) ?_)
  rw [Nat.mul_comm elapsedMs]
  exact h

theorem rateElapsedMs_pos (now : Nat) (buckets : List RateBucket) : 0 < rateElapsedMs now buckets := by
  unfold rateElapsedMs
  split
  · decide
  · exact Nat.lt_of_lt_of_le (by decide) (Nat.le_max_left ..)

/-- Fewer than six buckets cover at most the time that the rate is averaged over. -/
theorem length_mul_le_rateElapsedMs {buckets : List RateBucket} (h : Ordered now buckets)
    (hlength : buckets.length < MAX_RATE_BUCKETS) : buckets.length * 1000 ≤ rateElapsedMs now buckets := by
  cases buckets with
  | nil => exact Nat.zero_le _
  | cons first buckets =>
    have hspan := add_length_mul_le RateBucket.startMs h.ascending h.grid h.past
    have hlength : buckets.length + 1 < 6 := hlength
    show (buckets.length + 1) * 1000 ≤
      max 1000 (min (min (now - first.startMs + 1000) (2 ^ 64 - 1)) 5000)
    rw [show RATE_BUCKET_MS = 1000 from rfl] at hspan
    omega

theorem inWindow_of_mem_pruneBuckets {buckets : List RateBucket} (h : Ordered clock buckets) :
    ∀ bucket ∈ pruneBuckets now buckets, inWindow now bucket.startMs = true := by
  induction buckets with
  | nil => exact fun _ hmem => absurd hmem List.not_mem_nil
  | cons first buckets ih =>
    rw [pruneBuckets, List.dropWhile_cons]
    split
    · exact ih (h.sublist (List.sublist_cons_self ..))
    · next hfirst =>
      have hfirst : windowCutoff now ≤ saturatingAdd first.startMs RATE_BUCKET_MS := by simpa using hfirst
      intro bucket hmem
      refine decide_eq_true (Nat.le_trans hfirst ?_)
      rcases List.mem_cons.mp hmem with rfl | hmem
      · exact Nat.le_refl _
      · have hlt := List.rel_of_pairwise_cons h.ascending hmem
        unfold saturatingAdd addUpTo
        omega

theorem mem_pruneBuckets {buckets : List RateBucket} {bucket : RateBucket} (hmem : bucket ∈ buckets)
    (hwindow : inWindow now bucket.startMs = true) : bucket ∈ pruneBuckets now buckets := by
  induction buckets with
  | nil => cases hmem
  | cons first buckets ih =>
    rw [pruneBuckets, List.dropWhile_cons]
    split
    · next hfirst =>
      rcases List.mem_cons.mp hmem with rfl | hmem
      · have hwindow := of_decide_eq_true hwindow
        have hfirst := of_decide_eq_true hfirst
        exact absurd hfirst (Nat.not_lt.mpr hwindow)
      · exact ih hmem
    · exact hmem

/-- A rate is at most what some second of the window recorded, if the window has fewer than six buckets. -/
theorem rate_le (h : Accounts clock ledger state) (hclock : clock ≤ now) (hnow : now < 2 ^ 64)
    (hlength : (pruneBuckets now state.buckets).length < MAX_RATE_BUCKETS) (direction : TrafficDirection) :
    ∃ startMs, RATE_BUCKET_MS ∣ startMs ∧ startMs ≤ now ∧ InWindow now startMs ∧
      (snapshot now state).1.bytesPerSecond.of direction ≤ ledger.inSecond direction startMs := by
  have hkept : (pruneBuckets now state.buckets).Sublist state.buckets := (List.dropWhile_suffix _).sublist
  have hordered := (h.buckets.sublist hkept).later hclock
  have hrate : ∀ bound, (∀ bucket ∈ pruneBuckets now state.buckets, bucket.bytes.of direction ≤ bound) →
      (snapshot now state).1.bytesPerSecond.of direction ≤ bound := by
    intro bound hbound
    rw [snapshot, of_report]
    have hrecent := of_recentBytes_le now hbound
    have hspan := length_mul_le_rateElapsedMs hordered hlength
    refine bytesPerSecond_le (rateElapsedMs_pos now _) ?_
    calc (recentBytes now (pruneBuckets now state.buckets)).of direction * 1000
        ≤ (pruneBuckets now state.buckets).length * bound * 1000 := Nat.mul_le_mul_right 1000 hrecent
      _ = bound * ((pruneBuckets now state.buckets).length * 1000) := by
        rw [Nat.mul_comm _ bound, Nat.mul_assoc]
      _ ≤ bound * rateElapsedMs now (pruneBuckets now state.buckets) := Nat.mul_le_mul_left bound hspan
  by_cases hempty : pruneBuckets now state.buckets = []
  · refine ⟨bucketStart now, dvd_bucketStart now, bucketStart_le now, ?_, ?_⟩
    · have hsecond := lt_bucketStart_add now
      unfold InWindow
      omega
    · exact Nat.le_trans (hrate 0 (by simp [hempty])) (Nat.zero_le _)
  · obtain ⟨greatest, hmem, hgreatest⟩ := exists_greatest (fun bucket => bucket.bytes.of direction) hempty
    refine ⟨greatest.startMs, hordered.grid greatest hmem, hordered.past greatest hmem,
      (inWindow_iff hnow).mp (inWindow_of_mem_pruneBuckets h.buckets greatest hmem), ?_⟩
    exact Nat.le_trans (hrate _ hgreatest) (h.recorded greatest (hkept.subset hmem) direction)

/-- A rate is zero when all that was recorded in its direction is out of the window. -/
theorem rate_eq_zero (h : Accounts clock ledger state) (hnow : now < 2 ^ 64)
    {direction : TrafficDirection}
    (hidle : ∀ entry ∈ ledger.entries, entry.direction = direction → entry.time + RATE_WINDOW_MS + RATE_BUCKET_MS < now) :
    (snapshot now state).1.bytesPerSecond.of direction = 0 := by
  have hkept : (pruneBuckets now state.buckets).Sublist state.buckets := (List.dropWhile_suffix _).sublist
  have hzero : ∀ bucket ∈ pruneBuckets now state.buckets, bucket.bytes.of direction ≤ 0 := by
    intro bucket hmem
    have hwindow : InWindow now bucket.startMs :=
      (inWindow_iff hnow).mp (inWindow_of_mem_pruneBuckets h.buckets bucket hmem)
    have hsecond : ledger.inSecond direction bucket.startMs = 0 := by
      refine Ledger.sumOf_eq_zero fun entry hentry => decide_eq_false ?_
      intro hkind
      have hentry := hidle entry hentry hkind.1
      have hstart := bucketStart_le entry.time
      rw [hkind.2] at hstart
      unfold InWindow at hwindow
      omega
    rw [← hsecond]
    exact h.recorded bucket (hkept.subset hmem) direction
  have hrecent := of_recentBytes_le now hzero
  rw [Nat.mul_zero] at hrecent
  have hrate : bytesPerSecond ((recentBytes now (pruneBuckets now state.buckets)).of direction)
      (rateElapsedMs now (pruneBuckets now state.buckets)) ≤ 0 := by
    refine bytesPerSecond_le (rateElapsedMs_pos now _) ?_
    rw [Nat.le_zero.mp hrecent]
    exact Nat.zero_le _
  rw [snapshot, of_report]
  exact Nat.le_zero.mp hrate

theorem ensureBucket_keeps (h : Ordered clock state.buckets) (hclock : clock ≤ now)
    (hcapped : state.buckets.length ≤ MAX_RATE_BUCKETS)
    (huncrowded : state.buckets.length = MAX_RATE_BUCKETS → needsBucket now state.buckets = true →
      ∀ first ∈ state.buckets.head?, now ≠ first.startMs + 6000)
    {bucket : RateBucket} (hmem : bucket ∈ state.buckets) (hwindow : InWindow now bucket.startMs) :
    bucket ∈ ensureBucket now state.buckets := by
  unfold ensureBucket
  cases hneeds : needsBucket now state.buckets with
  | false =>
    rw [if_neg (by decide), popExcess_of_length_le hcapped]
    exact hmem
  | true =>
    rw [if_pos rfl]
    by_cases hfull : state.buckets.length = MAX_RATE_BUCKETS
    · have hordered := h.concat hclock hneeds
      have huncrowded := huncrowded hfull hneeds
      cases hbuckets : state.buckets with
      | nil =>
        rw [hbuckets] at hmem
        exact absurd hmem List.not_mem_nil
      | cons first buckets =>
        rw [hbuckets] at hordered hmem hfull huncrowded
        rw [List.length_cons] at hfull
        have hlength : (buckets ++ [RateBucket.mk (bucketStart now) ⟨0, 0⟩]).length = MAX_RATE_BUCKETS := by
          rw [List.length_append, List.length_singleton, hfull]
        rw [List.cons_append, popExcess, if_pos (by rw [List.length_cons, hlength]; decide),
          popExcess_of_length_le (Nat.le_of_eq hlength)]
        -- Seven starts on the grid up to now put the first one at least six seconds back.
        rcases List.mem_cons.mp hmem with rfl | hmem
        · rw [List.cons_append] at hordered
          have hspan := add_length_mul_le RateBucket.startMs hordered.ascending hordered.grid hordered.past
          rw [hlength] at hspan
          refine absurd (Nat.le_antisymm ?_ hspan) (huncrowded bucket rfl)
          exact hwindow
        · exact List.mem_append_left _ hmem
    · rw [popExcess_of_length_le (by rw [List.length_append, List.length_singleton]; omega)]
      exact List.mem_append_left _ hmem

/-- No bucket of the window is dropped, if the step does not overfill it. -/
theorem apply_keeps (h : Accounts clock ledger state) (hclock : clock ≤ now) (hnow : now < 2 ^ 64)
    (hreading : operation.reading = some now) (huncrowded : Uncrowded state operation) {bucket : RateBucket}
    (hmem : bucket ∈ state.buckets) (hwindow : InWindow now bucket.startMs) :
    ∃ kept ∈ (apply state operation).buckets, kept.startMs = bucket.startMs := by
  cases operation with
  | startFlow id metadata => cases hreading
  | finishFlow id => cases hreading
  | snapshot reading =>
    cases hreading
    exact ⟨bucket, mem_pruneBuckets hmem ((inWindow_iff hnow).mpr hwindow), rfl⟩
  | recordBytes reading id direction bytes =>
    cases hreading
    cases hflow : state.flows.lookup id with
    | none =>
      simp only [apply, recordBytes, hflow]
      exact ⟨bucket, hmem, rfl⟩
    | some flow =>
      have hactive : id ∈ state.flows := AList.lookup_isSome.mp (Option.isSome_of_eq_some hflow)
      have hkept := ensureBucket_keeps h.buckets hclock h.capped (huncrowded hactive) hmem hwindow
      obtain ⟨front, last, hensure, -, -, -, -⟩ := ensureBucket_spec h.buckets hclock
      simp only [apply, recordBytes, hflow, hensure, updateLast_concat]
      rw [hensure] at hkept
      rcases List.mem_append.mp hkept with hkept | hkept
      · exact ⟨bucket, List.mem_append_left _ hkept, rfl⟩
      · exact ⟨_, List.mem_append_right _ (List.mem_singleton.mpr rfl), by rw [List.mem_singleton.mp hkept]⟩

/-- A step of an account that does not overfill the window is sound. -/
theorem sound_apply (h : Accounts clock ledger state)
    (hclock : ∀ now, operation.reading = some now → clock ≤ now ∧ now < 2 ^ 64)
    (huncrowded : Uncrowded state operation) : Sound ledger state operation where
  rate now hsnapshot direction := by
    subst hsnapshot
    obtain ⟨hle, hlt⟩ := hclock now rfl
    exact rate_le h hle hlt huncrowded direction
  idle now hsnapshot direction hidle := by
    subst hsnapshot
    exact rate_eq_zero h (hclock now rfl).2 hidle
  kept now hreading bucket hmem hwindow :=
    apply_keeps h (hclock now hreading).1 (hclock now hreading).2 hreading huncrowded hmem hwindow
  totals now _ direction := h.totals direction

/-- In a run that never overfills the window, every step is sound. -/
theorem sound_of_uncrowded {operations : List Operation} (hclocked : Clocked operations)
    (huncrowded : ∀ front operation back, operations = front ++ operation :: back → Uncrowded (run front) operation) :
    ∀ front operation back, operations = front ++ operation :: back →
      Sound (Ledger.ofRun front) (run front) operation := by
  intro front operation back hsplit
  have hascending := hclocked.ascending
  have hbounded := hclocked.bounded
  rw [hsplit, List.filterMap_append, List.pairwise_append] at hascending
  rw [hsplit, List.filterMap_append] at hbounded
  obtain ⟨clock, -, hleast, haccounts⟩ := accounts_run hascending.1
  refine sound_apply haccounts ?_ (huncrowded front operation back hsplit)
  intro now hnow
  have hmem : now ∈ (operation :: back).filterMap Operation.reading :=
    List.mem_filterMap.mpr ⟨operation, List.mem_cons_self .., hnow⟩
  exact ⟨hleast now fun earlier hearlier => hascending.2.2 earlier hearlier now hmem,
    hbounded now (List.mem_append_right _ hmem)⟩

/-- A flow that uploads once, before a snapshot. -/
theorem sound_upload :
    Sound (Ledger.ofRun [.startFlow 7 ⟨['h'], none, none, none⟩, .recordBytes 1500 7 .clientToUpstream 10])
      (run [.startFlow 7 ⟨['h'], none, none, none⟩, .recordBytes 1500 7 .clientToUpstream 10]) (.snapshot 1600) := by
  refine sound_of_uncrowded ⟨by decide, by decide⟩ ?_ _ _ [] rfl
  intro front operation back hsplit
  rcases front with _ | ⟨first, _ | ⟨second, _ | ⟨third, front⟩⟩⟩
  · cases hsplit
    trivial
  · cases hsplit
    intro _ hfull
    cases hfull
  · cases hsplit
    show (pruneBuckets 1600 _).length < MAX_RATE_BUCKETS
    decide
  · simp at hsplit

/-- A thousand bytes in each of six seconds. -/
def steadyUpload : List Operation :=
  .startFlow 7 ⟨['h'], none, none, none⟩ ::
    [0, 1000, 2000, 3000, 4000, 5000].map (fun now => .recordBytes now 7 .clientToUpstream 1000)

/-- They are averaged over five. -/
theorem steadyUpload_unsound : ¬ Sound (Ledger.ofRun steadyUpload) (run steadyUpload) (.snapshot 5000) := by
  intro h
  obtain ⟨startMs, -, -, -, hrate⟩ := h.rate 5000 rfl .clientToUpstream
  have hreported : (snapshot 5000 (run steadyUpload)).1.bytesPerSecond.of .clientToUpstream = 1200 := by decide
  have hsecond : (Ledger.ofRun steadyUpload).inSecond .clientToUpstream startMs ≤ 1000 := by
    by_cases hstart : startMs ∈ [0, 1000, 2000, 3000, 4000, 5000]
    · simp only [List.mem_cons, List.not_mem_nil, or_false] at hstart
      rcases hstart with rfl | rfl | rfl | rfl | rfl | rfl <;> decide
    · have hseconds : (Ledger.ofRun steadyUpload).entries.map (fun entry => bucketStart entry.time) =
          [0, 1000, 2000, 3000, 4000, 5000] := by decide
      refine Nat.le_trans (Nat.le_of_eq (Ledger.sumOf_eq_zero fun entry hentry => decide_eq_false ?_)) (Nat.zero_le _)
      rintro ⟨-, rfl⟩
      rw [← hseconds] at hstart
      exact hstart (List.mem_map_of_mem hentry)
  rw [hreported] at hrate
  omega

end Soundness
end Abyss.Broker.Traffic
