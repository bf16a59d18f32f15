import Abyss.Broker.NetworkDiagnostics.Store

/-! What the store keeps of all observations that were inserted, and what it shows of them. -/
namespace Abyss.Broker.NetworkDiagnostics
open Abyss.Text Abyss.Mitm Abyss.Data Abyss.System
variable {Uuid : Type} {format : UuidFormat Uuid}

section RoundTrip

theorem sqliteInteger_ok {value : UInt64} {field : String} {integer : Int} (h : sqliteInteger value field = .ok integer) :
    integer = value.toNat ∧ ∀ field', nonNegativeInteger integer field' = .ok value := by
  unfold sqliteInteger at h
  split at h <;> cases h
  refine ⟨rfl, fun field' => ?_⟩
  rw [nonNegativeInteger, if_pos (Int.natCast_nonneg _), Int.toNat_natCast, UInt64.ofNat_toNat]

theorem u16TryFrom_toNat (status : UInt16) : u16TryFrom (status.toNat : Int) = some status := by
  have hbound : (status.toNat : Int) < 2 ^ 16 := by exact_mod_cast status.toNat_lt
  rw [u16TryFrom, if_pos ⟨Int.natCast_nonneg _, hbound⟩, Int.toNat_natCast, UInt16.ofNat_toNat]

theorem statusInteger_toNat (status : UInt16) (field : String) : statusInteger (status.toNat : Int) field = .ok status := by
  rw [statusInteger, u16TryFrom_toNat]

theorem mapM_map_ok {α β ε : Type} {f : β → Except ε α} {g : α → β} (h : ∀ a, f (g a) = .ok a) (o : Option α) :
    (o.map g).mapM f = .ok o := by
  cases o with
  | none => rfl
  | some a =>
    rw [Option.map_some, Option.mapM_some, h]
    rfl

private theorem ok_bind {α β ε : Type} (a : α) (f : α → Except ε β) : (Except.ok a >>= f) = f a := rfl

theorem mapM_pid {pid : Option UInt32} {integer : Option Int}
    (h : pid.mapM (fun value => sqliteInteger value.toUInt64 "source_pid") = .ok integer) :
    integer.mapM pidInteger = .ok pid := by
  cases pid with
  | none =>
    cases h
    rfl
  | some value =>
    obtain ⟨stored, hstored, h⟩ := bind_eq_ok.mp h
    cases h
    have hread := (sqliteInteger_ok hstored).2 "source_pid"
    have hbound : value.toUInt64.toNat < 2 ^ 32 := by
      rw [UInt32.toNat_toUInt64]
      exact value.toNat_lt
    have hpid : pidInteger stored = .ok value := by
      rw [pidInteger, hread, ok_bind, if_pos hbound, UInt32.toUInt32_toUInt64]
    rw [Option.mapM_some, hpid]
    rfl

theorem parseEnum_ok {α : Type} {asStr : α → String} {parser : String → Option α} (h : ∀ a, parser (asStr a) = some a) (a : α)
    (field : String) : parseEnum (asStr a) field parser = .ok a := by
  rw [parseEnum, h]

theorem parseUuid_text (id : Uuid) (field : String) : parseUuid format (format.text id) field = .ok id := by
  rw [parseUuid, format.parse_text]

/-- The code is derived from the fields that the columns stand for. -/
theorem derivedCode_labels {row : NetworkObservationRow} {observation : NetworkObservation Uuid}
    (hhop : row.hop = observation.hop.asStr) (hstage : row.stage = observation.stage.asStr)
    (houtcome : row.outcome = observation.outcome.asStr)
    (hfailureClass : row.failureClass = observation.failureClass.map NetworkFailureClass.asStr)
    (hhttpStatus : row.httpStatus = observation.httpStatus.map (fun status => (status.toNat : Int))) :
    row.derivedCode = NetworkErrorCode.fromObservation observation.hop observation.stage observation.outcome
      observation.failureClass observation.httpStatus := by
  have hclass : (observation.failureClass.map NetworkFailureClass.asStr).bind NetworkFailureClass.parse =
      observation.failureClass := by
    cases observation.failureClass with
    | none => rfl
    | some label => exact NetworkFailureClass.parse_asStr label
  have hstatus : (observation.httpStatus.map (fun status => (status.toNat : Int))).bind u16TryFrom = observation.httpStatus := by
    cases observation.httpStatus with
    | none => rfl
    | some status => rw [Option.map_some, Option.bind_some, u16TryFrom_toNat]
  simp only [NetworkObservationRow.derivedCode, hhop, hstage, houtcome, hfailureClass, hhttpStatus, NetworkHop.parse_asStr,
    NetworkStage.parse_asStr, NetworkOutcome.parse_asStr, hclass, hstatus, Option.bind_eq_bind, Option.bind_some]

/-- A row reads back as the observation that it was written from. -/
theorem tryFrom_tryFrom {observation : NetworkObservation Uuid} {row : NetworkObservationRow}
    (h : NetworkObservationRow.tryFrom format observation = .ok row) (hcoded : observation.Coded) :
    NetworkObservation.tryFrom format row = .ok observation := by
  unfold NetworkObservationRow.tryFrom at h
  obtain ⟨observedAt, hobservedAt, h⟩ := bind_eq_ok.mp h
  obtain ⟨pid, hpid, h⟩ := bind_eq_ok.mp h
  obtain ⟨startedAt, hstartedAt, h⟩ := bind_eq_ok.mp h
  obtain ⟨endedAt, hendedAt, h⟩ := bind_eq_ok.mp h
  obtain ⟨elapsed, helapsed, h⟩ := bind_eq_ok.mp h
  obtain ⟨up, hup, h⟩ := bind_eq_ok.mp h
  obtain ⟨down, hdown, h⟩ := bind_eq_ok.mp h
  cases h
  have hobserved := (sqliteInteger_ok hobservedAt).2
  have hstarted := (sqliteInteger_ok hstartedAt).2
  have hended := (sqliteInteger_ok hendedAt).2
  have hspan := (sqliteInteger_ok helapsed).2
  have hbytesUp := (sqliteInteger_ok hup).2
  have hbytesDown := (sqliteInteger_ok hdown).2
  have hflowId : (observation.flowId.map format.text).mapM (parseUuid format · "flow_id") = .ok observation.flowId :=
    mapM_map_ok (fun id => parseUuid_text id _) _
  have hstatus : ∀ (field : String) (status : Option UInt16),
      (status.map (fun status => (status.toNat : Int))).mapM (statusInteger · field) = .ok status := by
    intro field status
    cases status with
    | none => rfl
    | some status =>
      rw [Option.map_some, Option.mapM_some, statusInteger_toNat]
      rfl
  have hdirection : (observation.direction.map NetworkDirection.asStr).mapM (parseEnum · "direction" NetworkDirection.parse) =
      .ok observation.direction := mapM_map_ok (fun label => parseEnum_ok NetworkDirection.parse_asStr label _) _
  have hoperation : (observation.operation.map FlowOperation.asStr).mapM (parseEnum · "operation" FlowOperation.parse) =
      .ok observation.operation := mapM_map_ok (fun label => parseEnum_ok FlowOperation.parse_asStr label _) _
  have hfailureClass : (observation.failureClass.map NetworkFailureClass.asStr).mapM
      (parseEnum · "failure_class" NetworkFailureClass.parse) = .ok observation.failureClass :=
    mapM_map_ok (fun label => parseEnum_ok NetworkFailureClass.parse_asStr label _) _
  have hcode : (observation.technicalErrorCode.map NetworkErrorCode.asStr).mapM
      (parseEnum · "technical_error_code" NetworkErrorCode.parse) = .ok observation.technicalErrorCode :=
    mapM_map_ok (fun label => parseEnum_ok NetworkErrorCode.parse_asStr label _) _
  simp only [NetworkObservation.tryFrom, parseUuid_text, ok_bind, hflowId, hobserved, hstatus, mapM_pid hpid,
    parseEnum_ok NetworkHop.parse_asStr, hdirection, hoperation, parseEnum_ok NetworkStage.parse_asStr,
    parseEnum_ok NetworkOutcome.parse_asStr, hfailureClass, hcode, hstarted, hended, hspan, hbytesUp, hbytesDown]
  rw [Except.ok.injEq]
  cases hstored : observation.technicalErrorCode with
  | some code =>
    rw [Option.some_or, ← hstored]
  | none =>
    rw [Option.none_or, derivedCode_labels rfl rfl rfl rfl rfl, hcoded hstored, ← hstored]

end RoundTrip

section Rows

/-- What a row of an observation is ordered by. -/
def observationKey (format : UuidFormat Uuid) (observation : NetworkObservation Uuid) : Int ×ₗ Str :=
  toLex ((observation.observedAtUnixMs.toNat : Int), format.text observation.observationId)

theorem key_tryFrom {observation : NetworkObservation Uuid} {row : NetworkObservationRow}
    (h : NetworkObservationRow.tryFrom format observation = .ok row) : row.key = observationKey format observation := by
  unfold NetworkObservationRow.tryFrom at h
  obtain ⟨observedAt, hobservedAt, h⟩ := bind_eq_ok.mp h
  obtain ⟨pid, -, h⟩ := bind_eq_ok.mp h
  obtain ⟨startedAt, -, h⟩ := bind_eq_ok.mp h
  obtain ⟨endedAt, -, h⟩ := bind_eq_ok.mp h
  obtain ⟨elapsed, -, h⟩ := bind_eq_ok.mp h
  obtain ⟨up, -, h⟩ := bind_eq_ok.mp h
  obtain ⟨down, -, h⟩ := bind_eq_ok.mp h
  cases h
  rw [NetworkObservationRow.key, observationKey, (sqliteInteger_ok hobservedAt).1]

/-- The rows of observations, up to their order. -/
def Written (format : UuidFormat Uuid) (rows : List NetworkObservationRow) (observations : List (NetworkObservation Uuid)) : Prop :=
  (rows.map Except.ok).Perm (observations.map (NetworkObservationRow.tryFrom format))

theorem Written.observation {rows : List NetworkObservationRow} {observations : List (NetworkObservation Uuid)}
    (h : Written format rows observations) {row : NetworkObservationRow} (hrow : row ∈ rows) :
    ∃ observation ∈ observations, NetworkObservationRow.tryFrom format observation = .ok row :=
  List.mem_map.mp (h.mem_iff.mp (List.mem_map_of_mem hrow))

theorem Written.row {rows : List NetworkObservationRow} {observations : List (NetworkObservation Uuid)}
    (h : Written format rows observations) {observation : NetworkObservation Uuid} (hobservation : observation ∈ observations) :
    ∃ row ∈ rows, NetworkObservationRow.tryFrom format observation = .ok row := by
  obtain ⟨row, hrow, heq⟩ := List.mem_map.mp (h.mem_iff.mpr (List.mem_map_of_mem hobservation))
  exact ⟨row, hrow, heq.symm⟩

theorem map_key {observations : List (NetworkObservation Uuid)} {rows : List NetworkObservationRow}
    (h : observations.map (NetworkObservationRow.tryFrom format) = rows.map .ok) :
    observations.map (observationKey format) = rows.map NetworkObservationRow.key := by
  induction observations generalizing rows with
  | nil =>
    obtain rfl := List.map_eq_nil_iff.mp h.symm
    rfl
  | cons observation observations ih =>
    cases rows with
    | nil => cases h
    | cons row rows =>
      obtain ⟨hrow, hrest⟩ := List.cons.inj h
      rw [List.map_cons, List.map_cons, ih hrest, key_tryFrom hrow]

/-- In strict order the rows are those of the observations one by one. -/
theorem Written.arranged {rows : List NetworkObservationRow} {observations : List (NetworkObservation Uuid)}
    (h : Written format rows observations) (hnames : (rows.map (·.observationId)).Nodup) :
    (descending (observationKey format) observations).map (NetworkObservationRow.tryFrom format) =
      (descending NetworkObservationRow.key rows).map .ok := by
  have hkeys : (rows.map NetworkObservationRow.key).Nodup := by
    have hsecond : ((rows.map NetworkObservationRow.key).map (fun key => (ofLex key).2)).Nodup := by
      rw [List.map_map]
      exact hnames
    exact hsecond.of_map _
  have hobservations : (descending (observationKey format) observations).Perm observations := descending_perm observations
  obtain ⟨arranged, hperm, harranged⟩ := exists_map_of_perm ((hobservations.map _).trans h.symm)
  have hordered : (descending (observationKey format) observations).Pairwise
      (fun a b => observationKey format b ≤ observationKey format a) := descending_pairwise observations
  rw [← List.pairwise_map (R := fun a b => b ≤ a), map_key harranged, List.pairwise_map] at hordered
  have hstrict : arranged.Pairwise (fun a b => b.key < a.key) := by
    have hdifferent : arranged.Pairwise (fun a b => a.key ≠ b.key) :=
      List.pairwise_map.mp ((hperm.map _).nodup_iff.mpr hkeys)
    exact hordered.imp₂ (fun a b hle hne => lt_of_le_of_ne hle (Ne.symm hne)) hdifferent
  have hrows : (descending NetworkObservationRow.key rows).Perm rows := descending_perm rows
  rw [harranged, eq_of_strict (hperm.trans hrows.symm) hstrict (descending_strict hkeys)]

end Rows

section Invariant

/-- What every transaction keeps: the rows are those of the greatest observations. -/
structure Stored (format : UuidFormat Uuid) (store : NetworkObservationStore Uuid) (kept : List (NetworkObservation Uuid)) :
    Prop where
  retains : Retains (observationKey format) maxPersistedObservations store.inserted kept
  written : Written format store.rows kept
  names : (store.rows.map (·.observationId)).Nodup
  coded : ∀ observation ∈ kept, observation.Coded

theorem stored_initial : Stored format (.initial : NetworkObservationStore Uuid) [] := by
  refine ⟨retains_nil _, List.Perm.refl _, List.nodup_nil, ?_⟩
  intro observation hobservation
  cases hobservation

theorem observationId_tryFrom {observation : NetworkObservation Uuid} {row : NetworkObservationRow}
    (h : NetworkObservationRow.tryFrom format observation = .ok row) : row.observationId = format.text observation.observationId :=
  congrArg (fun key => (ofLex key).2) (key_tryFrom h)

/-- The table with a new row, pruned. -/
theorem Stored.prune {store : NetworkObservationStore Uuid} {kept : List (NetworkObservation Uuid)}
    (h : Stored format store kept) {observation : NetworkObservation Uuid} {row : NetworkObservationRow}
    (hrow : NetworkObservationRow.tryFrom format observation = .ok row) (hcoded : observation.Coded)
    (hnew : row.observationId ∉ store.rows.map (·.observationId)) :
    Stored format ⟨pruneObservations (store.rows ++ [row]) maxPersistedObservations, store.inserted ++ [observation]⟩
      ((descending (observationKey format) (kept ++ [observation])).take maxPersistedObservations) := by
  have hnames : ((store.rows ++ [row]).map (·.observationId)).Nodup := by
    rw [List.map_append, List.nodup_append]
    refine ⟨h.names, List.nodup_singleton _, ?_⟩
    rintro id hid other hother rfl
    obtain rfl := List.mem_singleton.mp hother
    exact hnew hid
  have hwritten : Written format (store.rows ++ [row]) (kept ++ [observation]) := by
    rw [Written, List.map_append, List.map_append, List.map_singleton, List.map_singleton, hrow]
    exact h.written.append_right _
  have hrows : (descending NetworkObservationRow.key (store.rows ++ [row])).Perm (store.rows ++ [row]) := descending_perm _
  refine ⟨h.retains.insert ?_, ?_, ?_, ?_⟩
  · intro other hother hkey
    obtain ⟨stored, hstored, heq⟩ := h.written.row hother
    apply hnew
    have hid : stored.observationId = row.observationId := by
      rw [observationId_tryFrom heq, observationId_tryFrom hrow]
      exact congrArg (fun key => (ofLex key).2) hkey
    exact hid ▸ List.mem_map_of_mem hstored
  · rw [Written, List.map_take, hwritten.arranged hnames, ← List.map_take]
    have hretained := filter_names_perm hrows hnames maxPersistedObservations
    refine List.Perm.map _ ?_
    refine List.Perm.trans (List.Perm.of_eq ?_) hretained
    apply List.filter_congr
    intro other _
    rw [decide_eq_decide]
  · exact hnames.sublist (List.filter_sublist.map _)
  · intro other hother
    rcases List.mem_append.mp ((descending_perm _).mem_iff.mp (List.mem_of_mem_take hother)) with hold | hself
    · exact h.coded other hold
    · obtain rfl := List.mem_singleton.mp hself
      exact hcoded

theorem Stored.insert {store : NetworkObservationStore Uuid} {kept : List (NetworkObservation Uuid)}
    (h : Stored format store kept) {observation : NetworkObservation Uuid} (hcoded : observation.Coded) (commits : Bool) :
    ∃ kept', Stored format (store.insert format observation commits).2 kept' := by
  unfold NetworkObservationStore.insert
  split
  · exact ⟨kept, h⟩
  · next row hrow =>
    split
    · next hguard => exact ⟨_, h.prune hrow hcoded hguard.2⟩
    · exact ⟨kept, h⟩

end Invariant
section Contract

theorem mapM_written {rows : List NetworkObservationRow} {observations : List (NetworkObservation Uuid)}
    (h : rows.map .ok = observations.map (NetworkObservationRow.tryFrom format)) (hcoded : ∀ o ∈ observations, o.Coded) :
    rows.mapM (NetworkObservation.tryFrom format) = .ok observations := by
  induction rows generalizing observations with
  | nil =>
    obtain rfl := List.map_eq_nil_iff.mp h.symm
    rfl
  | cons row rows ih =>
    cases observations with
    | nil => cases h
    | cons observation observations =>
      obtain ⟨hrow, hrest⟩ := List.cons.inj h
      rw [List.mapM_cons, tryFrom_tryFrom hrow.symm (hcoded _ List.mem_cons_self), ok_bind,
        ih hrest (fun o ho => hcoded o (List.mem_cons_of_mem _ ho)), ok_bind]
      rfl

/-- What is read is an arrangement of what was kept, in the order that the rows were selected in. -/
theorem Stored.latest {store : NetworkObservationStore Uuid} {kept : List (NetworkObservation Uuid)}
    (h : Stored format store kept) (select : SelectOrder) :
    ∃ all : List (NetworkObservation Uuid), all.Perm kept ∧
      all.map (observationKey format) = (select.order store.rows).map NetworkObservationRow.key ∧
      ∀ limit < 2 ^ 63, store.latest format select limit = .ok (all.take limit) := by
  obtain ⟨all, hperm, hall⟩ := exists_map_of_perm (((select.perm store.rows).map _).trans h.written)
  refine ⟨all, hperm, map_key hall.symm, ?_⟩
  intro limit hlimit
  rw [NetworkObservationStore.latest, if_pos hlimit]
  apply mapM_written
  · rw [List.map_take, List.map_take, hall]
  · exact fun o ho => h.coded o (hperm.mem_iff.mp (List.mem_of_mem_take ho))

/-- An engine that shows the rows of one time with the least identifier first. -/
def leastFirst : SelectOrder where
  order := descending (fun row => (toLex (row.observedAtUnixMs, OrderDual.toDual row.observationId) : Int ×ₗ Strᵒᵈ))
  perm := descending_perm
  sorted rows := by
    refine (descending_pairwise rows).imp ?_
    intro a b hle
    rcases Prod.Lex.toLex_le_toLex.mp hle with hlt | heq
    · exact le_of_lt hlt
    · exact le_of_eq heq.1

theorem leastFirst_ties {rows : List NetworkObservationRow} (hnames : (rows.map (·.observationId)).Nodup) :
    ((leastFirst.order rows).map NetworkObservationRow.key).Pairwise
      (fun a b => (ofLex a).1 = (ofLex b).1 → (ofLex a).2 < (ofLex b).2) := by
  rw [List.pairwise_map]
  have hkeys : (rows.map fun row =>
      (toLex (row.observedAtUnixMs, OrderDual.toDual row.observationId) : Int ×ₗ Strᵒᵈ)).Nodup := by
    apply List.Nodup.of_map (fun key => OrderDual.ofDual (ofLex key).2)
    rw [List.map_map]
    exact hnames
  refine (descending_strict hkeys).imp ?_
  intro a b hlt heq
  rcases Prod.Lex.toLex_lt_toLex.mp hlt with hless | hless
  · exact absurd heq.symm (ne_of_lt hless)
  · exact hless.2

/-- What the table holds, and what is read from it. -/
structure Retention (format : UuidFormat Uuid) (store : NetworkObservationStore Uuid) (kept : List (NetworkObservation Uuid)) :
    Prop where
  retains : Retains (observationKey format) maxPersistedObservations store.inserted kept
  written : Written format store.rows kept
  fails : ∀ observation commits e, (store.insert format observation commits).1 = .error e →
    (store.insert format observation commits).2 = store
  decodes : ∀ (select : SelectOrder), ∀ limit < 2 ^ 63, ∃ all : List (NetworkObservation Uuid), all.Perm kept ∧
    store.latest format select limit = .ok (all.take limit)
  latest : ∀ limit, (∀ select, store.latest format select limit = .ok (kept.take limit)) ↔
    limit < 2 ^ 63 ∧ ∀ r ∈ kept.take limit, ∀ s ∈ kept, s.observedAtUnixMs = r.observedAtUnixMs → s = r

theorem insert_fails (store : NetworkObservationStore Uuid) (observation : NetworkObservation Uuid) (commits : Bool)
    (e : NetworkObservationStoreError) (h : (store.insert format observation commits).1 = .error e) :
    (store.insert format observation commits).2 = store := by
  unfold NetworkObservationStore.insert at h ⊢
  split at h
  · rfl
  · split at h
    · cases h
    · next hguard => rw [if_neg hguard]

/-- Observations whose times are ordered as those of their rows. -/
theorem pairwise_observedAt {observations : List (NetworkObservation Uuid)} {rows : List NetworkObservationRow}
    (hkeys : observations.map (observationKey format) = rows.map NetworkObservationRow.key)
    (h : rows.Pairwise (fun a b => b.observedAtUnixMs ≤ a.observedAtUnixMs)) :
    observations.Pairwise (fun a b => b.observedAtUnixMs.toNat ≤ a.observedAtUnixMs.toNat) := by
  have hsorted : (rows.map NetworkObservationRow.key).Pairwise (fun a b => (ofLex b).1 ≤ (ofLex a).1) :=
    List.pairwise_map.mpr h
  rw [← hkeys, List.pairwise_map] at hsorted
  exact hsorted.imp fun hle => Int.ofNat_le.mp hle

theorem Stored.retention {store : NetworkObservationStore Uuid} {kept : List (NetworkObservation Uuid)}
    (h : Stored format store kept) : Retention format store kept := by
  refine ⟨h.retains, h.written, insert_fails store, ?_, ?_⟩
  · intro select limit hlimit
    obtain ⟨all, hperm, -, hall⟩ := h.latest select
    exact ⟨all, hperm, hall limit hlimit⟩
  · intro limit
    constructor
    · intro hshown
      have hlimit : limit < 2 ^ 63 := by
        by_contra hlimit
        have herror := hshown leastFirst
        rw [NetworkObservationStore.latest, if_neg hlimit] at herror
        cases herror
      refine ⟨hlimit, ?_⟩
      obtain ⟨all, hperm, hkeys, hall⟩ := h.latest leastFirst
      have htake : all.take limit = kept.take limit :=
        Except.ok.inj ((hall limit hlimit).symm.trans (hshown leastFirst))
      have hleast := leastFirst_ties h.names
      rw [← hkeys, List.pairwise_map] at hleast
      have hties : all.Pairwise (fun a b => a.observedAtUnixMs = b.observedAtUnixMs →
          format.text a.observationId < format.text b.observationId) :=
        hleast.imp fun hless heq => hless (congrArg (fun time : UInt64 => (time.toNat : Int)) heq)
      have hkept : kept.Pairwise (fun a b => a.observedAtUnixMs = b.observedAtUnixMs →
          format.text b.observationId < format.text a.observationId) := by
        refine h.retains.ordered.imp ?_
        intro a b hlt heq
        rcases Prod.Lex.toLex_lt_toLex.mp hlt with hless | hless
        · rw [heq] at hless
          exact absurd hless (lt_irrefl _)
        · exact hless.2
      exact distinct_of_take_eq hties hkept hperm htake
    · rintro ⟨hlimit, hdistinct⟩ select
      obtain ⟨all, hperm, hkeys, hall⟩ := h.latest select
      rw [hall limit hlimit, Except.ok.injEq]
      refine take_eq_of_distinct hperm (pairwise_observedAt hkeys (select.sorted store.rows)) ?_ ?_
      · refine h.retains.ordered.imp ?_
        intro a b hlt
        rcases Prod.Lex.toLex_lt_toLex.mp hlt with hless | hless
        · exact Int.ofNat_le.mp (le_of_lt hless)
        · exact Int.ofNat_le.mp (le_of_eq hless.1)
      · exact fun r hr s hs heq => hdistinct r hr s hs (UInt64.toNat_inj.mp heq)

/-- After any inserts the rows are those of the greatest observations, and they are shown in that order exactly where no
shown one shares its time. -/
theorem network_observation_retention (format : UuidFormat Uuid) {actions : List (NetworkObservationStore.Action Uuid)}
    {store : NetworkObservationStore Uuid} (hbuilt : ∀ action ∈ actions, action.observation.Built)
    (h : run (NetworkObservationStore.step format) .initial actions = some store) : ∃ kept, Retention format store kept := by
  have hstep : ∀ {s action s'}, action.observation.Built → (∃ kept, Stored format s kept) →
      NetworkObservationStore.step format s action = some s' → ∃ kept, Stored format s' kept := by
    rintro s action s' haction ⟨kept, hkept⟩ hs'
    obtain rfl := Option.some.inj hs'
    exact hkept.insert haction.coded action.commits
  obtain ⟨kept, hkept⟩ := run_invariant_of hstep hbuilt ⟨[], stored_initial⟩ h
  exact ⟨kept, hkept.retention⟩

/-- Identifiers that are their own text. -/
def plainFormat : UuidFormat Str := ⟨fun id => id, some, fun _ => rfl⟩

/-- A flow that was passed through, and that ended at `endedAt`. -/
def passedThrough (observationId : Str) (endedAt : UInt64) : NetworkObservation Str :=
  .fromOutcome observationId none .unattributed none none endedAt endedAt (.passthrough 0 0)

theorem passedThrough_built (observationId : Str) (endedAt : UInt64) : (passedThrough observationId endedAt).Built :=
  .outcome observationId none .unattributed none none endedAt endedAt (.passthrough 0 0) none

theorem sample_retention : ∃ store kept, run (NetworkObservationStore.step plainFormat) .initial
    [⟨passedThrough ['b'] 2, true⟩, ⟨passedThrough ['a'] 1, true⟩] = some store ∧ Retention plainFormat store kept := by
  have hbuilt : ∀ action ∈ [(⟨passedThrough ['b'] 2, true⟩ : NetworkObservationStore.Action Str), ⟨passedThrough ['a'] 1, true⟩],
      action.observation.Built := by
    intro action haction
    rcases List.mem_cons.mp haction with rfl | haction
    · exact passedThrough_built _ _
    · obtain rfl := List.mem_singleton.mp haction
      exact passedThrough_built _ _
  obtain ⟨kept, hkept⟩ := network_observation_retention plainFormat hbuilt rfl
  exact ⟨_, kept, rfl, hkept⟩

/-- An engine that scans the index on the time: the rows of one time in the order of their inserts. -/
def indexScan : SelectOrder where
  order := descending NetworkObservationRow.observedAtUnixMs
  perm := descending_perm
  sorted := descending_pairwise

/-- Below the limit nothing is pruned. -/
theorem pruneObservations_of_le {rows : List NetworkObservationRow} {retainedRows : Nat} (h : rows.length ≤ retainedRows) :
    pruneObservations rows retainedRows = rows := by
  have hall : (descending NetworkObservationRow.key rows).Perm rows := descending_perm rows
  apply List.filter_eq_self.mpr
  intro row hrow
  rw [List.take_of_length_le (hall.length_eq ▸ h)]
  exact decide_eq_true (List.mem_map_of_mem (hall.mem_iff.mpr hrow))

theorem insert_below {store : NetworkObservationStore Uuid} {observation : NetworkObservation Uuid} {row : NetworkObservationRow}
    (hrow : NetworkObservationRow.tryFrom format observation = .ok row)
    (hnew : row.observationId ∉ store.rows.map (·.observationId)) (h : store.rows.length < maxPersistedObservations) :
    (store.insert format observation true).2 = ⟨store.rows ++ [row], store.inserted ++ [observation]⟩ := by
  rw [NetworkObservationStore.insert]
  simp only [hrow]
  rw [if_pos ⟨trivial, hnew⟩, pruneObservations_of_le]
  rw [List.length_append]
  exact h

/-- Two observations of one time are shown in the order of their inserts. -/
theorem latest_ignores_observation_id : ¬ ∀ (actions : List (NetworkObservationStore.Action Str))
    (store : NetworkObservationStore Str), (∀ action ∈ actions, action.observation.Built) →
    run (NetworkObservationStore.step plainFormat) .initial actions = some store →
    ∃ kept, Retains (observationKey plainFormat) maxPersistedObservations store.inserted kept ∧
      ∀ select, ∀ limit < 2 ^ 63, store.latest plainFormat select limit = .ok (kept.take limit) := by
  intro hclaim
  obtain ⟨first, hfirst⟩ : ∃ row, NetworkObservationRow.tryFrom plainFormat (passedThrough ['a'] 1) = .ok row := ⟨_, rfl⟩
  obtain ⟨second, hsecond⟩ : ∃ row, NetworkObservationRow.tryFrom plainFormat (passedThrough ['b'] 1) = .ok row := ⟨_, rfl⟩
  have hfirstKey : first.key = _ := key_tryFrom hfirst
  have hsecondKey : second.key = _ := key_tryFrom hsecond
  have hrun : run (NetworkObservationStore.step plainFormat) .initial
      [⟨passedThrough ['a'] 1, true⟩, ⟨passedThrough ['b'] 1, true⟩] =
      some ⟨[first, second], [passedThrough ['a'] 1, passedThrough ['b'] 1]⟩ := by
    refine run_cons.mpr ⟨_, congrArg some (insert_below hfirst List.not_mem_nil (by decide)), ?_⟩
    refine run_cons.mpr ⟨_, congrArg some (insert_below hsecond ?_ (show 1 < maxPersistedObservations by decide)), rfl⟩
    show second.observationId ∉ [first.observationId]
    rw [observationId_tryFrom hfirst, observationId_tryFrom hsecond]
    decide
  have hbuilt : ∀ action ∈ [(⟨passedThrough ['a'] 1, true⟩ : NetworkObservationStore.Action Str), ⟨passedThrough ['b'] 1, true⟩],
      action.observation.Built := by
    intro action haction
    rcases List.mem_cons.mp haction with rfl | haction
    · exact passedThrough_built _ _
    · obtain rfl := List.mem_singleton.mp haction
      exact passedThrough_built _ _
  obtain ⟨kept, hkept, hlatest⟩ := hclaim _ _ hbuilt hrun
  have htimes : second.observedAtUnixMs ≤ first.observedAtUnixMs :=
    le_of_eq ((congrArg (fun key => (ofLex key).1) hsecondKey).trans (congrArg (fun key => (ofLex key).1) hfirstKey).symm)
  have hscan : indexScan.order [first, second] = [first, second] :=
    List.mergeSort_of_pairwise (List.pairwise_pair.mpr (decide_eq_true htimes))
  have hshown : NetworkObservationStore.latest plainFormat
      ⟨[first, second], [passedThrough ['a'] 1, passedThrough ['b'] 1]⟩ indexScan 2 =
      .ok [passedThrough ['a'] 1, passedThrough ['b'] 1] := by
    rw [NetworkObservationStore.latest, if_pos (by decide), hscan]
    apply mapM_written
    · show [Except.ok first, Except.ok second] = [NetworkObservationRow.tryFrom plainFormat (passedThrough ['a'] 1),
        NetworkObservationRow.tryFrom plainFormat (passedThrough ['b'] 1)]
      rw [hfirst, hsecond]
    · intro o ho
      rcases List.mem_cons.mp ho with rfl | ho
      · exact (passedThrough_built _ _).coded
      · obtain rfl := List.mem_singleton.mp ho
        exact (passedThrough_built _ _).coded
  have htake : kept.take 2 = kept := List.take_of_length_le (le_of_eq hkept.length)
  have horder : [passedThrough ['a'] 1, passedThrough ['b'] 1] = kept.take 2 :=
    Except.ok.inj (hshown.symm.trans (hlatest indexScan 2 (by decide)))
  have hordered := hkept.ordered
  rw [← htake, ← horder, List.pairwise_pair] at hordered
  exact absurd hordered (by decide)

end Contract
end Abyss.Broker.NetworkDiagnostics
