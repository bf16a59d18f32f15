import Abyss.Delivery.Exclusion

/-! The failed-event spool along every schedule, every failure and every crash. -/
namespace Abyss.Delivery
open Abyss.Text Abyss.System
variable {Time : Type} {config : UploaderConfig Time} {worker worker' : Worker} {i : Nat}

section Files

/-- The lines of records, each with its end. -/
def written (records : List SpoolRecord) : List UInt8 := records.flatMap (fun r => endLine r.toVec)

/-- A spool of records. The last line may lack its end. -/
inductive Holds : List UInt8 → List SpoolRecord → Prop
  | ended (records : List SpoolRecord) : Holds (written records) records
  | unended (records : List SpoolRecord) (last : SpoolRecord) : Holds (written records ++ last.toVec) (records ++ [last])

/-- No line is open at the end of a file. -/
def EndsLine (body : List UInt8) : Prop := ∀ byte ∈ body.getLast?, byte = newline

theorem lines_records (records : List SpoolRecord) (rest : List UInt8) :
    lines (written records ++ rest) = records.map SpoolRecord.toVec ++ lines rest := by
  have hmap : written records = (records.map SpoolRecord.toVec).flatMap endLine := by
    rw [written, List.flatMap_map]
  rw [hmap, lines_written]
  intro line hline
  obtain ⟨r, -, rfl⟩ := List.mem_map.mp hline
  exact r.isLine_toVec

private theorem mapM_toVec (records : List SpoolRecord) :
    (records.map SpoolRecord.toVec).mapM SpoolRecord.fromSlice = some records := by
  induction records with
  | nil => rfl
  | cons r records ih =>
    rw [List.map_cons, List.mapM_cons, SpoolRecord.fromSlice_toVec, ih]
    rfl

/-- A replay reads the records back. -/
theorem Holds.reads {body : List UInt8} {records : List SpoolRecord} (h : Holds body records) :
    readSpool body = some records := by
  cases h with
  | ended =>
    rw [readSpool, ← List.append_nil (written records), lines_records, lines_nil, List.append_nil, mapM_toVec]
  | unended front last =>
    rw [readSpool, lines_records, lines_line last.isLine_toVec, ← List.map_singleton, ← List.map_append, mapM_toVec]

theorem written_append (front back : List SpoolRecord) : written (front ++ back) = written front ++ written back :=
  List.flatMap_append

private theorem not_endsLine_line {body line : List UInt8} (h : IsLine line) : ¬ EndsLine (body ++ line) := by
  intro hends
  have hlast : (body ++ line).getLast? = some (line.getLast h.nonempty) := by
    rw [List.getLast?_append_of_ne_nil _ h.nonempty, List.getLast?_eq_getLast_of_ne_nil h.nonempty]
  have heq := hends _ hlast
  exact h.single (heq ▸ List.getLast_mem h.nonempty)

/-- A record behind the end of a line is added to the spool, with or without the end of its own line. -/
theorem Holds.append {body : List UInt8} {records : List SpoolRecord} (h : Holds body records) (hends : EndsLine body)
    (record : SpoolRecord) {n : Nat} (hn : record.toVec.length ≤ n) :
    Holds (body ++ (endLine record.toVec).take n) (records ++ [record]) := by
  cases h with
  | unended front last => exact absurd hends (not_endsLine_line last.isLine_toVec)
  | ended =>
    rcases Nat.eq_or_lt_of_le hn with rfl | hlt
    · rw [endLine, List.take_left]
      exact .unended records record
    · have hwhole : (endLine record.toVec).take n = endLine record.toVec :=
        List.take_of_length_le (by rw [endLine, List.length_append, List.length_singleton]; exact hlt)
      rw [hwhole]
      have hsnoc := Holds.ended (records ++ [record])
      rw [written_append] at hsnoc
      simpa [written] using hsnoc

end Files

section Invariant

/-- The records that a replay still has, behind those that the destination has accepted. -/
def Remains (worker : Worker) (records remaining : List SpoolRecord) : Prop :=
  ∃ posted, records = posted ++ remaining ∧ ∀ r ∈ posted, r.request ∈ worker.accepted

/-- What the posted request stands for. -/
def Purpose.Kept (worker : Worker) (records : List SpoolRecord) (request : IngestEventsRequest) : Purpose → Prop
  | .deliver => True
  | .replay posted record rest => request = record.request ∧ records = posted ++ record :: rest ∧
      ∀ r ∈ posted, r.request ∈ worker.accepted

theorem Purpose.Kept.grow {purpose : Purpose} {request : IngestEventsRequest} {records : List SpoolRecord}
    (h : purpose.Kept worker records request) (haccepted : ∀ r ∈ worker.accepted, r ∈ worker'.accepted) :
    purpose.Kept worker' records request := by
  cases purpose with
  | deliver => trivial
  | replay posted record rest =>
    obtain ⟨hrequest, hrecords, hposted⟩ := h
    exact ⟨hrequest, hrecords, fun r hr => haccepted _ (hposted r hr)⟩

/-- What a task inside an operation knows of the spool, which nobody else changes. -/
def Phase.Kept (worker : Worker) (records : List SpoolRecord) : Phase → Prop
  | .authenticating request purpose | .sending request _ purpose | .awaiting request _ purpose
  | .unauthorized request _ purpose => purpose.Kept worker records request
  | .removing _ => Remains worker records []
  | .replaceDirectory _ remaining | .replaceOpen _ remaining => Remains worker records remaining
  | .replaceWrite _ remaining front todo => Remains worker records remaining ∧ remaining = front ++ todo ∧
      worker.temporary = some (written front)
  | .replaceRename _ remaining => Remains worker records remaining ∧ worker.temporary = some (written remaining)
  | _ => True

/-- From a spool of `records` to one of `records'`: a record leaves it only when it is accepted, and what is
acknowledged or appended is accepted or in it. -/
structure Advances (worker worker' : Worker) (records records' : List SpoolRecord) : Prop where
  holds : Holds (worker'.spool.getD []) records'
  accepted : ∀ request ∈ worker.accepted, request ∈ worker'.accepted
  keeps : ∀ r ∈ records, r ∈ records' ∨ r.request ∈ worker'.accepted
  acknowledged : ∀ request ∈ worker'.acknowledged, request ∈ worker.acknowledged ∨ request ∈ worker'.accepted ∨
    ∃ r ∈ records', r.request = request
  appended : ∀ r ∈ worker'.appended, r ∈ worker.appended ∨ r ∈ records'

/-- One task goes on, with a spool that it still knows. -/
def Continues (worker worker' : Worker) (i : Nat) (records : List SpoolRecord) : Prop :=
  ∃ records' next, Advances worker worker' records records' ∧ worker'.tasks = worker.tasks.set i next ∧
    next.Kept worker' records'

/-- An append that is whole: it starts a line, and unless it writes nothing it writes the text of its record. -/
def WholeAppend (worker : Worker) (record : SpoolRecord) : Outcome → Prop
  | .ok => EndsLine (worker.spool.getD [])
  | .wrote n _ => n = 0 ∨ record.toVec.length ≤ n ∧ EndsLine (worker.spool.getD [])
  | _ => True

variable {records : List SpoolRecord}

/-- A step that does not touch the spool. -/
theorem Continues.same {next : Phase} (hholds : Holds (worker.spool.getD []) records)
    (hspool : worker'.spool.getD [] = worker.spool.getD [])
    (haccepted : worker'.accepted = worker.accepted) (hacknowledged : worker'.acknowledged = worker.acknowledged)
    (happended : worker'.appended = worker.appended) (htasks : worker'.tasks = worker.tasks.set i next)
    (hkept : next.Kept worker' records) : Continues worker worker' i records := by
  refine ⟨records, next, ⟨hspool ▸ hholds, ?_, fun r hr => .inl hr, ?_, ?_⟩, htasks, hkept⟩
  · exact fun request hrequest => haccepted ▸ hrequest
  · exact fun request hrequest => .inl (hacknowledged ▸ hrequest)
  · exact fun r hr => .inl (happended ▸ hr)

theorem goto_continues (hholds : Holds (worker.spool.getD []) records) {next : Phase} (hkept : next.Kept worker records) :
    Continues worker (worker.goto i next) i records := by
  refine .same hholds rfl rfl rfl rfl rfl ?_
  cases next <;> exact hkept

theorem finish_continues (hholds : Holds (worker.spool.getD []) records) (result : Except DeliveryPluginError Reply) :
    Continues worker (worker.finish i result) i records := .same hholds rfl rfl rfl rfl rfl trivial

theorem replaceSpool_continues (hholds : Holds (worker.spool.getD []) records) {remaining : List SpoolRecord} {replayed : Nat}
    (hremains : Remains worker records remaining) : Continues worker (worker.replaceSpool i replayed remaining) i records := by
  unfold Worker.replaceSpool
  split
  · next hempty =>
    subst hempty
    exact goto_continues hholds hremains
  · exact goto_continues hholds hremains

theorem replayNext_continues (hholds : Holds (worker.spool.getD []) records) {posted rest : List SpoolRecord}
    (hrecords : records = posted ++ rest) (hposted : ∀ r ∈ posted, r.request ∈ worker.accepted) :
    Continues worker (worker.replayNext i posted rest) i records := by
  cases rest with
  | nil => exact replaceSpool_continues hholds ⟨posted, hrecords, hposted⟩
  | cons record rest => exact goto_continues hholds ⟨rfl, hrecords, hposted⟩

theorem posted_continues (hholds : Holds (worker.spool.getD []) records) {request : IngestEventsRequest} {purpose : Purpose}
    {result : Except DeliveryPluginError Unit} (hkept : purpose.Kept worker records request)
    (hresult : result = .ok () → request ∈ worker.accepted) :
    Continues worker (worker.posted config i request purpose result) i records := by
  unfold Worker.posted
  split
  · refine ⟨records, .done (.ok .delivered), ⟨hholds, fun _ h => h, fun r hr => .inl hr, ?_, fun r hr => .inl hr⟩, rfl, trivial⟩
    intro acknowledged hmem
    rcases List.mem_append.mp hmem with hold | hnew
    · exact .inl hold
    · obtain rfl := List.mem_singleton.mp hnew
      exact .inr (.inl (hresult rfl))
  · split
    · exact goto_continues hholds trivial
    · exact finish_continues hholds _
  · obtain ⟨rfl, hrecords, hposted⟩ := hkept
    refine replayNext_continues hholds (by rw [hrecords, List.append_assoc]; rfl) ?_
    intro r hr
    rcases List.mem_append.mp hr with hr | hr
    · exact hposted r hr
    · obtain rfl := List.mem_singleton.mp hr
      exact hresult rfl
  · obtain ⟨rfl, hrecords, hposted⟩ := hkept
    exact replaceSpool_continues hholds ⟨_, hrecords, hposted⟩

/-- A step of a worker that differs in what the spool does not depend on, or has accepted more. -/
theorem Continues.behind {before : Worker} (h : Continues worker worker' i records)
    (haccepted : ∀ request ∈ before.accepted, request ∈ worker.accepted)
    (hacknowledged : worker.acknowledged = before.acknowledged) (happended : worker.appended = before.appended)
    (htasks : worker.tasks = before.tasks) : Continues before worker' i records := by
  obtain ⟨records', next, hadvances, hset, hkept⟩ := h
  refine ⟨records', next, ⟨hadvances.holds, ?_, hadvances.keeps, ?_, ?_⟩, htasks ▸ hset, hkept⟩
  · exact fun request hrequest => hadvances.accepted request (haccepted request hrequest)
  · exact hacknowledged ▸ hadvances.acknowledged
  · exact happended ▸ hadvances.appended

theorem stepPost_continues (hholds : Holds (worker.spool.getD []) records) {phase : Phase} {outcome : Outcome}
    (hkept : phase.Kept worker records) (h : worker.stepPost config i phase outcome = some worker') :
    Continues worker worker' i records := by
  unfold Worker.stepPost at h
  split at h
  · split at h <;> cases h
    · exact posted_continues hholds hkept nofun
    · exact goto_continues hholds hkept
  · cases h
    exact posted_continues hholds hkept nofun
  · cases h
    exact .same hholds rfl rfl rfl rfl rfl hkept
  · cases h
    exact posted_continues hholds hkept nofun
  · split at h
    · cases h
      exact goto_continues hholds hkept
    · split at h <;> cases h
      · next request _ _ _ _ _ _ _ =>
        have hgrown : ∀ r ∈ worker.accepted, r ∈ worker.accepted ++ [request] := fun r hr => List.mem_append_left _ hr
        refine Continues.behind (posted_continues ?_ (hkept.grow hgrown) ?_) hgrown rfl rfl rfl
        · exact hholds
        · exact fun _ => List.mem_append_right _ (List.mem_singleton_self request)
      · exact posted_continues hholds hkept nofun
  · cases h
    have hsame : ∀ r ∈ worker.accepted, r ∈ worker.accepted := fun _ hr => hr
    refine Continues.behind (posted_continues ?_ (hkept.grow hsame) nofun) hsame rfl rfl rfl
    exact hholds
  · cases h

/-- An append, which is whole. -/
theorem append_advances (hholds : Holds (worker.spool.getD []) records) {record : SpoolRecord} {n : Nat}
    (hends : EndsLine (worker.spool.getD [])) (hn : record.toVec.length ≤ n)
    (hspool : worker'.spool = some (worker.spool.getD [] ++ (endLine record.toVec).take n))
    (haccepted : worker'.accepted = worker.accepted)
    (hacknowledged : ∀ request ∈ worker'.acknowledged, request ∈ worker.acknowledged ∨ request = record.request)
    (happended : ∀ r ∈ worker'.appended, r ∈ worker.appended ∨ r = record) :
    Advances worker worker' records (records ++ [record]) := by
  refine ⟨?_, ?_, fun r hr => .inl (List.mem_append_left _ hr), ?_, ?_⟩
  · rw [hspool]
    exact hholds.append hends record hn
  · exact fun request hrequest => haccepted ▸ hrequest
  · intro request hrequest
    rcases hacknowledged request hrequest with hold | rfl
    · exact .inl hold
    · exact .inr (.inr ⟨record, List.mem_append_right _ (List.mem_singleton_self record), rfl⟩)
  · intro r hr
    rcases happended r hr with hold | rfl
    · exact .inl hold
    · exact .inr (List.mem_append_right _ (List.mem_singleton_self r))

theorem stepSpool_continues (hholds : Holds (worker.spool.getD []) records) {phase : Phase} {outcome : Outcome}
    (hwhole : ∀ record, phase = .spoolWrite record → WholeAppend worker record outcome)
    (h : worker.stepSpool i phase outcome = some worker') : Continues worker worker' i records := by
  unfold Worker.stepSpool at h
  split at h <;> cases h
  · exact goto_continues hholds trivial
  · exact finish_continues hholds _
  · exact .same hholds rfl rfl rfl rfl rfl trivial
  · exact finish_continues hholds _
  · next record =>
    refine ⟨records ++ [record], .done (.ok .delivered), ?_, rfl, trivial⟩
    refine append_advances hholds (hwhole record rfl) (n := (endLine record.toVec).length) ?_ ?_ rfl ?_ ?_
    · rw [endLine, List.length_append]
      exact Nat.le_add_right _ _
    · rw [List.take_length]
    · exact fun request hrequest => by simpa using hrequest
    · exact fun r hr => by simpa using hr
  · next record n text =>
    rcases hwhole record rfl with rfl | ⟨hn, hends⟩
    · refine .same hholds ?_ rfl rfl rfl rfl trivial
      rw [List.take_zero, List.append_nil]
      rfl
    · refine ⟨records ++ [record], _, append_advances hholds hends hn rfl rfl ?_ ?_, rfl, trivial⟩
      · exact fun request hrequest => .inl hrequest
      · exact fun r hr => .inl hr

theorem stepReplay_continues (hholds : Holds (worker.spool.getD []) records) {phase : Phase} {outcome : Outcome}
    (hkept : phase.Kept worker records) (h : worker.stepReplay i phase outcome = some worker') :
    Continues worker worker' i records := by
  unfold Worker.stepReplay at h
  split at h
  case h_1 =>
    split at h <;> cases h
    exact finish_continues hholds _
  case h_3 =>
    obtain ⟨body, hbody, rfl⟩ := Option.map_eq_some_iff.mp h
    have hreads := hholds.reads
    rw [hbody, Option.getD_some] at hreads
    rw [hreads]
    exact replayNext_continues hholds (List.nil_append records).symm nofun
  all_goals cases h
  · exact finish_continues hholds _
  · next replayed =>
    -- the spool is gone, and all its records are accepted
    obtain ⟨posted, hrecords, hposted⟩ := hkept
    rw [List.append_nil] at hrecords
    subst hrecords
    refine ⟨[], .done (.ok (.replayed replayed 0)), ⟨.ended [], fun _ hr => hr, ?_, fun _ hr => .inl hr, fun _ hr => .inl hr⟩,
      rfl, trivial⟩
    exact fun r hr => .inr (hposted r hr)
  · exact finish_continues hholds _
  · exact goto_continues hholds hkept
  · exact finish_continues hholds _
  · exact .same hholds rfl rfl rfl rfl rfl ⟨hkept, rfl, rfl⟩
  · exact goto_continues hholds trivial
  · next remaining front record todo =>
    obtain ⟨hremains, hsplit, htemporary⟩ := hkept
    refine .same hholds rfl rfl rfl rfl rfl ⟨hremains, ?_, ?_⟩
    · rw [hsplit, List.append_assoc, List.singleton_append]
    · rw [htemporary, Option.getD_some, written_append]
      simp [written]
  · exact .same hholds rfl rfl rfl rfl rfl trivial
  · obtain ⟨hremains, hsplit, htemporary⟩ := hkept
    rw [List.append_nil] at hsplit
    exact goto_continues hholds ⟨hremains, hsplit ▸ htemporary⟩
  · exact goto_continues hholds trivial
  · next replayed remaining =>
    -- the spool is what the replay still has
    obtain ⟨⟨posted, hrecords, hposted⟩, htemporary⟩ := hkept
    refine ⟨remaining, .done (.ok (.replayed replayed remaining.length)),
      ⟨?_, fun _ hr => hr, ?_, fun _ hr => .inl hr, fun _ hr => .inl hr⟩, rfl, trivial⟩
    · rw [htemporary]
      exact .ended remaining
    · intro r hr
      rw [hrecords] at hr
      rcases List.mem_append.mp hr with hr | hr
      · exact .inr (hposted r hr)
      · exact .inl hr
  · exact goto_continues hholds trivial
  · exact .same hholds rfl rfl rfl rfl rfl trivial
  · exact finish_continues hholds _

theorem stepControl_continues (hholds : Holds (worker.spool.getD []) records) {phase : Phase} {outcome : Outcome}
    (h : worker.stepControl i phase outcome = some worker') : Continues worker worker' i records := by
  unfold Worker.stepControl at h
  split at h <;> cases h
  · exact .same hholds rfl rfl rfl rfl rfl trivial
  · exact .same hholds rfl rfl rfl rfl rfl trivial
  · exact .same hholds rfl rfl rfl rfl rfl trivial
  · exact finish_continues hholds _
  · exact goto_continues hholds trivial

theorem locked_continues (hholds : Holds (worker.spool.getD []) records) (job : Job) :
    Continues worker (worker.locked config i job) i records := by
  cases job with
  | deliver request => exact goto_continues hholds trivial
  | replaySpool => exact goto_continues hholds trivial
  | setManagedBearerAndReplay bearerToken audience =>
    simp only [Worker.locked]
    split
    · exact finish_continues hholds _
    · exact goto_continues hholds trivial
  | clearManagedBearer =>
    simp only [Worker.locked]
    split
    · exact goto_continues hholds trivial
    · exact finish_continues hholds _
  | status => exact goto_continues hholds trivial

theorem stepTask_continues (hholds : Holds (worker.spool.getD []) records) {phase : Phase} {outcome : Outcome}
    (hkept : phase.Kept worker records) (hwhole : ∀ record, phase = .spoolWrite record → WholeAppend worker record outcome)
    (h : worker.stepTask config i phase outcome = some worker') : Continues worker worker' i records := by
  unfold Worker.stepTask at h
  split at h
  · next job =>
    split at h <;> cases h
    refine Continues.behind (locked_continues ?_ job) (fun _ hr => hr) rfl rfl rfl
    exact hholds
  · simp only [Option.or_eq_some_iff] at h
    rcases h with hpost | ⟨-, hspool | ⟨-, hreplay | ⟨-, hcontrol⟩⟩⟩
    · exact stepPost_continues hholds hkept hpost
    · exact stepSpool_continues hholds hwhole hspool
    · exact stepReplay_continues hholds hkept hreplay
    · exact stepControl_continues hholds hcontrol

/-- What every step keeps: the spool holds `records`, the task inside an operation knows it, and what is acknowledged
or appended is accepted or in it. -/
structure Intact (worker : Worker) (records : List SpoolRecord) : Prop where
  exclusive : Exclusive worker
  holds : Holds (worker.spool.getD []) records
  kept : ∀ (j : Nat) (phase : Phase), worker.tasks[j]? = some phase → phase.locked = true → phase.Kept worker records
  acknowledged : ∀ request ∈ worker.acknowledged, request ∈ worker.accepted ∨ ∃ r ∈ records, r.request = request
  appended : ∀ r ∈ worker.appended, r.request ∈ worker.accepted ∨ r ∈ records

/-- A step whose append, if it is one, is whole. -/
def Whole (worker : Worker) : Action Time → Prop
  | .task i outcome => ∀ record, worker.tasks[i]? = some (.spoolWrite record) → WholeAppend worker record outcome
  | _ => True

/-- A record that was in the spool or accepted still is. -/
theorem Advances.found {records' : List SpoolRecord} (h : Advances worker worker' records records') {r : SpoolRecord}
    (hr : r.request ∈ worker.accepted ∨ r ∈ records) : r.request ∈ worker'.accepted ∨ r ∈ records' := by
  rcases hr with haccepted | hmem
  · exact .inl (h.accepted _ haccepted)
  · exact (h.keeps r hmem).symm

theorem Intact.advances {records' : List SpoolRecord} (h : Intact worker records) (hadvances : Advances worker worker' records records')
    (hexclusive : Exclusive worker')
    (hkept : ∀ (j : Nat) (phase : Phase), worker'.tasks[j]? = some phase → phase.locked = true → phase.Kept worker' records') :
    Intact worker' records' := by
  refine ⟨hexclusive, hadvances.holds, hkept, ?_, ?_⟩
  · intro request hrequest
    rcases hadvances.acknowledged request hrequest with hold | hnew
    · rcases h.acknowledged request hold with haccepted | ⟨r, hr, rfl⟩
      · exact .inl (hadvances.accepted request haccepted)
      · rcases hadvances.found (.inr hr) with haccepted | hmem
        · exact .inl haccepted
        · exact .inr ⟨r, hmem, rfl⟩
    · exact hnew
  · intro r hr
    rcases hadvances.appended r hr with hold | hnew
    · exact hadvances.found (h.appended r hold)
    · exact .inr hnew

theorem Intact.step {action : Action Time} (hwhole : Whole worker action) (h : Intact worker records)
    (hstep : worker.step config action = some worker') :
    ∃ records', Advances worker worker' records records' ∧ Intact worker' records' := by
  have hexclusive := h.exclusive.step hstep
  have hsame : ∀ worker' : Worker, worker'.spool = worker.spool → worker'.accepted = worker.accepted →
      worker'.acknowledged = worker.acknowledged → worker'.appended = worker.appended →
      Advances worker worker' records records := by
    intro worker' hspool haccepted hacknowledged happended
    refine ⟨hspool ▸ h.holds, ?_, fun r hr => .inl hr, ?_, ?_⟩
    · exact fun request hrequest => haccepted ▸ hrequest
    · exact fun request hrequest => .inl (hacknowledged ▸ hrequest)
    · exact fun r hr => .inl (happended ▸ hr)
  cases action with
  | start operation =>
    cases hstep
    have hadvances := hsame { worker with tasks := worker.tasks ++ [begin config operation] } rfl rfl rfl rfl
    refine ⟨records, hadvances, h.advances hadvances hexclusive ?_⟩
    intro j phase hphase hlocked
    have hkept := h.kept j phase (inside_start hphase hlocked) hlocked
    cases phase <;> exact hkept
  | task i outcome =>
    simp only [Worker.step, Option.bind_eq_bind, Option.bind_eq_some_iff] at hstep
    obtain ⟨phase, hphase, hstep⟩ := hstep
    -- nobody else is inside, so nobody else has to know the spool
    have hmoves : (∀ j other, worker.tasks[j]? = some other → other.locked = true → j = i) →
        ∃ records', Advances worker worker' records records' ∧ Intact worker' records' := by
      intro halone
      have hkept : phase.Kept worker records := by
        by_cases hlocked : phase.locked = true
        · exact h.kept i phase hphase hlocked
        · cases phase <;> trivial
      have hspool : ∀ record, phase = .spoolWrite record → WholeAppend worker record outcome := by
        rintro record rfl
        exact hwhole record hphase
      obtain ⟨records', next, hadvances, htasks, hnext⟩ := stepTask_continues h.holds hkept hspool hstep
      refine ⟨records', hadvances, h.advances hadvances hexclusive ?_⟩
      intro j other hother hlocked
      rw [htasks] at hother
      rcases getElem?_set_cases hother with ⟨-, rfl⟩ | ⟨hj, hold⟩
      · exact hnext
      · exact absurd (halone j other hold hlocked) hj
    rcases stepTask_credential hstep with ⟨hlocked, -⟩ | ⟨-, hfree, -⟩ | ⟨-, reply, rfl⟩
    · apply hmoves
      intro j other hother hother_locked
      have hholder := h.exclusive j other hother hother_locked
      rw [h.exclusive i phase hphase hlocked] at hholder
      exact (Option.some.inj hholder).symm
    · apply hmoves
      intro j other hother hother_locked
      have hholder := h.exclusive j other hother hother_locked
      rw [hfree] at hholder
      cases hholder
    · have hadvances := hsame (worker.goto i (.done (.ok reply))) rfl rfl rfl rfl
      refine ⟨records, hadvances, h.advances hadvances hexclusive ?_⟩
      intro j other hother hlocked
      have hkept := h.kept j other (inside_report hother hlocked) hlocked
      cases other <;> exact hkept
  | crash credential =>
    cases hstep
    have hadvances := hsame { worker with
      runtime := config.authentication.load credential
      lock := none
      tasks := []
      trace := worker.trace ++ [.restarted] } rfl rfl rfl rfl
    refine ⟨records, hadvances, h.advances hadvances hexclusive ?_⟩
    intro j phase hphase
    simp at hphase

theorem intact_initial (config : UploaderConfig Time) (credential : Str) : Intact (Worker.initial config credential) [] :=
  ⟨nofun, .ended [], nofun, nofun, nofun⟩

end Invariant

section Durability

/-- The records that a replay would read. -/
def spooled (worker : Worker) : Option (List SpoolRecord) := readSpool (worker.spool.getD [])

/-- The spool is readable; what a `deliver` that returned `Ok` stands for, and every record that was appended, is
accepted or in it; and a step takes no record out that is not accepted, and makes none unreadable. -/
structure Durable (config : UploaderConfig Time) (worker : Worker) (records : List SpoolRecord) : Prop where
  reads : spooled worker = some records
  acknowledged : ∀ request ∈ worker.acknowledged, request ∈ worker.accepted ∨ ∃ r ∈ records, r.request = request
  appended : ∀ r ∈ worker.appended, r.request ∈ worker.accepted ∨ r ∈ records
  leaves : ∀ (action : Action Time) (worker' : Worker), Whole worker action → worker.step config action = some worker' →
    ∃ records', spooled worker' = some records' ∧ ∀ r ∈ records, r.request ∈ worker'.accepted ∨ r ∈ records'

/-- Along every schedule, with any failures and crashes, whose appends are whole, the spool is durable. -/
theorem spool_durable (config : UploaderConfig Time) (credential : Str) {actions : List (Action Time)} {worker : Worker}
    (halong : Along (Worker.step config) Whole (.initial config credential) actions)
    (h : run (Worker.step config) (.initial config credential) actions = some worker) :
    ∃ records, Durable config worker records := by
  have hintact : ∃ records, Intact worker records := by
    refine @run_invariant_along _ _ (Worker.step config) (fun worker => ∃ records, Intact worker records) Whole ?_ _ _ _
      ⟨[], intact_initial config credential⟩ halong h
    rintro worker action worker' hwhole ⟨records, hintact⟩ hstep
    obtain ⟨records', -, hintact'⟩ := hintact.step hwhole hstep
    exact ⟨records', hintact'⟩
  obtain ⟨records, hintact⟩ := hintact
  refine ⟨records, hintact.holds.reads, hintact.acknowledged, hintact.appended, ?_⟩
  intro action worker' hwhole hstep
  obtain ⟨records', hadvances, hintact'⟩ := hintact.step hwhole hstep
  exact ⟨records', hintact'.holds.reads, fun r hr => hadvances.found (.inr hr)⟩

end Durability

section Samples

def spoolingConfig : UploaderConfig Unit where
  authentication := ⟨.none, "https://example.test".toList, fun _ => .ok ⟨"https".toList, "https://example.test".toList⟩⟩
  spoolEnabled := true
  rfc3339 _ := "2026-01-02T03:04:05+00:00".toList
  statusText _ := "503 Service Unavailable".toList
  debugText _ := "[]".toList

/-- A delivery that the destination does not take, up to its append. -/
private def refusedDelivery (i : Nat) : List (Action Unit) :=
  [.start (.deliver sampleEvent), .task i .ok, .task i .ok, .task i .ok, .task i (.answer 503 (.error [])), .task i .ok, .task i .ok]

/-- The second append ends after its first byte. -/
private def tornSchedule : List (Action Unit) :=
  refusedDelivery 0 ++ [.task 0 (.wrote 1 "No space left on device".toList)] ++ refusedDelivery 1 ++ [.task 1 .ok]

private theorem torn_run : ∃ (worker : Worker) (record : SpoolRecord),
    run (Worker.step spoolingConfig) (.initial spoolingConfig []) tornSchedule = some worker ∧
    worker.acknowledged = [record.request] ∧ worker.accepted = [] ∧
    worker.spool.getD [] = (endLine record.toVec).take 1 ++ endLine record.toVec :=
  ⟨_, ⟨"delivery destination returned HTTP 503 Service Unavailable".toList, _⟩, rfl, rfl, rfl, rfl⟩

/-- A line that starts with the first byte of another one is not a record. -/
private theorem fromSlice_glued (record : SpoolRecord) :
    SpoolRecord.fromSlice ((endLine record.toVec).take 1 ++ record.toVec) = none := by
  obtain ⟨rest, htext⟩ : ∃ rest, (SpoolRecord.codec.toJson record).text = '{' :: rest := ⟨_, Json.text.eq_7 _⟩
  have hglued : (endLine record.toVec).take 1 ++ record.toVec = toUtf8 ('{' :: '{' :: rest) := by
    rw [SpoolRecord.toVec, Json.toVec, htext]
    rfl
  have hparse : Json.parse ('{' :: '{' :: rest) = none := rfl
  rw [SpoolRecord.fromSlice, Json.fromSlice, hglued, fromUtf8_toUtf8, Option.bind_some, hparse]
  rfl

/-- A delivery that returned `Ok` is in a spool that no replay can read. -/
theorem torn_append_loses_spool : ∃ (worker : Worker) (request : IngestEventsRequest),
    run (Worker.step spoolingConfig) (.initial spoolingConfig []) tornSchedule = some worker ∧
    worker.acknowledged = [request] ∧ worker.accepted = [] ∧ spooled worker = none := by
  obtain ⟨worker, record, hrun, hacknowledged, haccepted, hspool⟩ := torn_run
  refine ⟨worker, record.request, hrun, hacknowledged, haccepted, ?_⟩
  have hline : IsLine ((endLine record.toVec).take 1 ++ record.toVec) := by
    obtain ⟨hnonempty, hsingle⟩ := record.isLine_toVec
    refine ⟨List.append_ne_nil_of_right_ne_nil _ hnonempty, fun hmem => ?_⟩
    rcases List.mem_append.mp hmem with hfront | hback
    · obtain ⟨first, rest, hcons⟩ := List.exists_cons_of_ne_nil hnonempty
      rw [hcons] at hfront hsingle
      obtain rfl : newline = first := by simpa [endLine] using hfront
      exact hsingle List.mem_cons_self
    · exact hsingle hback
  have hlines : lines ((endLine record.toVec).take 1 ++ endLine record.toVec) = [(endLine record.toVec).take 1 ++ record.toVec] := by
    have h := lines_endLine hline []
    rwa [List.append_nil, lines_nil, endLine, List.append_assoc, ← endLine] at h
  rw [spooled, hspool, readSpool, hlines, List.mapM_cons, fromSlice_glued]
  rfl

/-- A delivery that the destination does not take is acknowledged by its record. -/
theorem sample_spooled : ∃ worker records,
    run (Worker.step spoolingConfig) (.initial spoolingConfig []) (refusedDelivery 0 ++ [.task 0 .ok]) = some worker ∧
    worker.acknowledged.length = 1 ∧ worker.accepted = [] ∧ Durable spoolingConfig worker records := by
  have halong : Along (Worker.step spoolingConfig) Whole (.initial spoolingConfig []) (refusedDelivery 0 ++ [.task 0 .ok]) := by
    refine .cons trivial rfl ?_
    iterate 6 refine .cons (by rintro record ⟨⟩) rfl ?_
    exact .cons (fun _ _ => nofun) rfl trivial
  obtain ⟨records, hdurable⟩ := spool_durable spoolingConfig [] halong rfl
  exact ⟨_, records, rfl, rfl, rfl, hdurable⟩

end Samples
end Abyss.Delivery