import Abyss.Delivery.Durability

/-! One replay of the spool, from its read to its summary, while the other tasks wait for the
delivery lock: it takes the accepted records off the front and leaves the rest as they were. -/
namespace Abyss.Delivery
open Abyss.Text Abyss.System
variable {Time : Type} {config : UploaderConfig Time} {worker worker' start : Worker} {i : Nat} {records : List SpoolRecord}

section Files

/-- A spool file that successful calls of `spool` and `replace_spool` have produced, with the records they were given. -/
inductive Produced : Option (List UInt8) → List SpoolRecord → Prop
  | absent : Produced none []
  | spool {file : Option (List UInt8)} {records : List SpoolRecord} (h : Produced file records) (record : SpoolRecord) :
      Produced (some (file.getD [] ++ endLine record.toVec)) (records ++ [record])
  | replaceSpool {file : Option (List UInt8)} {records remaining : List SpoolRecord} (h : Produced file records)
      (hremaining : remaining ≠ []) : Produced (some (written remaining)) remaining
  | removed {file : Option (List UInt8)} {records : List SpoolRecord} (h : Produced file records) : Produced none []

/-- A produced file is the lines of its records, and absent without one. -/
theorem Produced.file_eq {file : Option (List UInt8)} (h : Produced file records) :
    file = if records = [] then none else some (written records) := by
  induction h with
  | absent => rfl
  | @spool file records h record ih =>
    have hbody : file.getD [] = written records := by
      rw [ih]
      split
      · next hnil => rw [hnil]; rfl
      · rfl
    rw [if_neg (List.append_ne_nil_of_right_ne_nil records (List.cons_ne_nil record [])), hbody, written_append]
    simp [written]
  | replaceSpool h hremaining => rw [if_neg hremaining]
  | removed h => rfl

/-- `spooled_event_count`, as a status counts it. -/
def spooledEventCount (worker : Worker) : Nat := (lines (worker.spool.getD [])).length

theorem spooledEventCount_written {remaining : List SpoolRecord}
    (h : worker.spool = if remaining = [] then none else some (written remaining)) :
    spooledEventCount worker = remaining.length := by
  have hbody : worker.spool.getD [] = written remaining := by
    rw [h]
    split
    · next hnil => rw [hnil]; rfl
    · rfl
  have hlines := lines_records remaining []
  rw [List.append_nil, lines_nil, List.append_nil] at hlines
  rw [spooledEventCount, hbody, hlines, List.length_map]

/-- The append of the model is a call of `spool`. -/
theorem stepSpool_produced {file : Option (List UInt8)} {record : SpoolRecord} (h : Produced file records)
    (hopen : worker.spool = some (file.getD [])) (hstep : worker.stepSpool i (.spoolWrite record) .ok = some worker') :
    Produced worker'.spool (records ++ [record]) := by
  cases hstep
  have hspool := h.spool record
  simpa only [hopen, Option.getD_some] using hspool

end Files

section Progress

/-- The body that `post` sends for a request. -/
def IngestEventsRequest.body (request : IngestEventsRequest) : List UInt8 := (codec.toJson request).toVec

def bodies (records : List SpoolRecord) : List (List UInt8) := records.map (fun r => r.request.body)

def requests (records : List SpoolRecord) : List IngestEventsRequest := records.map SpoolRecord.request

/-- The call of `post` that a step starts. -/
def Phase.posting : Phase → List (List UInt8)
  | .authenticating request _ => [request.body]
  | _ => []

/-- A replay that has posted the records in front of `rest`, with the accepted ones in front of `tried`. -/
structure Progress (start worker : Worker) (records : List SpoolRecord) (posts : List (List UInt8))
    (posted rest tried : List SpoolRecord) : Prop where
  split : records = posted ++ rest
  posts : posts = bodies (posted ++ tried)
  accepted : worker.accepted = start.accepted ++ requests posted

/-- The replay has returned a summary. -/
def Replayed (start worker : Worker) (records : List SpoolRecord) (posts : List (List UInt8)) (replayed remaining : Nat) : Prop :=
  ∃ posted rest, Progress start worker records posts posted rest (rest.take 1) ∧ replayed = posted.length ∧
    remaining = rest.length ∧ worker.spool = if rest = [] then none else some (written rest)

/-- The loop has ended; the records that it leaves are `remaining`. -/
def Stopped (start worker : Worker) (records : List SpoolRecord) (posts : List (List UInt8)) (replayed : Nat)
    (remaining : List SpoolRecord) : Prop :=
  ∃ posted, Progress start worker records posts posted remaining (remaining.take 1) ∧ replayed = posted.length

/-- What the phases of a replay know of it. -/
def Phase.Replays (start : Worker) (records : List SpoolRecord) (posts : List (List UInt8)) (worker : Worker) : Phase → Prop
  | .spoolRead => worker.spool = start.spool ∧ Progress start worker records posts [] records []
  | .authenticating request (.replay posted record rest) => request = record.request ∧
      Progress start worker records posts posted (record :: rest) []
  | .sending request _ (.replay posted record rest) | .awaiting request _ (.replay posted record rest)
  | .unauthorized request _ (.replay posted record rest) => request = record.request ∧
      Progress start worker records posts posted (record :: rest) [record]
  | .removing replayed => Stopped start worker records posts replayed []
  | .replaceDirectory replayed remaining | .replaceOpen replayed remaining => remaining ≠ [] ∧
      Stopped start worker records posts replayed remaining
  | .replaceWrite replayed remaining front todo => remaining ≠ [] ∧ Stopped start worker records posts replayed remaining ∧
      remaining = front ++ todo ∧ worker.temporary = some (written front)
  | .replaceRename replayed remaining => remaining ≠ [] ∧ Stopped start worker records posts replayed remaining ∧
      worker.temporary = some (written remaining)
  | .replaceCleanup _ => True
  | .done (.error _) => True
  | .done (.ok (.replayed replayed remaining)) => Replayed start worker records posts replayed remaining
  | _ => False

/-- The phases inside a replay and its end. -/
def Phase.runs (phase : Phase) : Prop := phase.locked = true ∨ ∃ result, phase = .done result

variable {posts : List (List UInt8)}

/-- One task goes on with the replay. -/
def Goes (start worker worker' : Worker) (i : Nat) (records : List SpoolRecord) (posts : List (List UInt8)) : Prop :=
  ∃ next : Phase, worker'.tasks = worker.tasks.set i next ∧ next.runs ∧ next.Replays start records posts worker'

theorem Progress.same {posted rest tried : List SpoolRecord} (h : Progress start worker records posts posted rest tried)
    (haccepted : worker'.accepted = worker.accepted) : Progress start worker' records posts posted rest tried :=
  ⟨h.split, h.posts, haccepted.trans h.accepted⟩

theorem Stopped.same {replayed : Nat} {remaining : List SpoolRecord} (h : Stopped start worker records posts replayed remaining)
    (haccepted : worker'.accepted = worker.accepted) : Stopped start worker' records posts replayed remaining := by
  obtain ⟨posted, hprogress, hreplayed⟩ := h
  exact ⟨posted, hprogress.same haccepted, hreplayed⟩

theorem Phase.Replays.same {phase : Phase} (h : phase.Replays start records posts worker)
    (hspool : worker'.spool = worker.spool) (haccepted : worker'.accepted = worker.accepted)
    (htemporary : worker'.temporary = worker.temporary) : phase.Replays start records posts worker' := by
  unfold Phase.Replays at h ⊢
  split at h
  · exact ⟨hspool.trans h.1, h.2.same haccepted⟩
  · exact ⟨h.1, h.2.same haccepted⟩
  · exact ⟨h.1, h.2.same haccepted⟩
  · exact ⟨h.1, h.2.same haccepted⟩
  · exact ⟨h.1, h.2.same haccepted⟩
  · exact h.same haccepted
  · exact ⟨h.1, h.2.same haccepted⟩
  · exact ⟨h.1, h.2.same haccepted⟩
  · exact ⟨h.1, h.2.1.same haccepted, h.2.2.1, htemporary.trans h.2.2.2⟩
  · exact ⟨h.1, h.2.1.same haccepted, htemporary.trans h.2.2⟩
  · trivial
  · trivial
  · obtain ⟨posted, rest, hprogress, hreplayed, hremaining, hfile⟩ := h
    exact ⟨posted, rest, hprogress.same haccepted, hreplayed, hremaining, hspool.trans hfile⟩
  · exact h

theorem goto_goes {next : Phase} (hlocked : next.locked = true) (h : next.Replays start records posts worker) :
    Goes start worker (worker.goto i next) i records posts := ⟨next, rfl, .inl hlocked, h.same rfl rfl rfl⟩

theorem fail_goes (e : DeliveryPluginError) : Goes start worker (worker.finish i (.error e)) i records posts :=
  ⟨.done (.error e), rfl, .inr ⟨_, rfl⟩, trivial⟩

theorem replaceSpool_goes {replayed : Nat} {remaining : List SpoolRecord}
    (h : Stopped start worker records posts replayed remaining) :
    Goes start worker (worker.replaceSpool i replayed remaining) i records posts := by
  unfold Worker.replaceSpool
  split
  · next hempty =>
    subst hempty
    exact goto_goes rfl h
  · next hremaining => exact goto_goes rfl ⟨hremaining, h⟩

theorem replayNext_goes {posted rest : List SpoolRecord} (h : Progress start worker records posts posted rest []) :
    Goes start worker (worker.replayNext i posted rest) i records posts := by
  cases rest with
  | nil => exact replaceSpool_goes ⟨posted, h, rfl⟩
  | cons record rest => exact goto_goes rfl ⟨rfl, h⟩

/-- A post of a record ends, and was accepted if its result says so. -/
theorem posted_goes {request : IngestEventsRequest} {posted rest : List SpoolRecord} {record : SpoolRecord}
    {result : Except DeliveryPluginError Unit} {accepted : List IngestEventsRequest}
    (hsplit : records = posted ++ record :: rest) (hposts : posts = bodies (posted ++ [record]))
    (hbefore : accepted = start.accepted ++ requests posted)
    (hafter : worker.accepted = if result.isOk then accepted ++ [record.request] else accepted) :
    Goes start worker (worker.posted config i request (.replay posted record rest) result) i records posts := by
  cases result with
  | ok value =>
    refine replayNext_goes ⟨by rw [hsplit, List.append_assoc]; rfl, by rw [hposts, List.append_nil], ?_⟩
    have hgrown : worker.accepted = accepted ++ [record.request] := hafter
    rw [hgrown, hbefore, List.append_assoc, requests, requests, List.map_append]
    rfl
  | error e => exact replaceSpool_goes ⟨posted, ⟨hsplit, hposts, hafter.trans hbefore⟩, rfl⟩

theorem Goes.behind {before : Worker} (h : Goes start worker worker' i records posts) (htasks : worker.tasks = before.tasks) :
    Goes start before worker' i records posts := by
  obtain ⟨next, hset, hnext⟩ := h
  exact ⟨next, htasks ▸ hset, hnext⟩

end Progress

section Steps
variable {posts : List (List UInt8)} {phase : Phase} {outcome : Outcome}

theorem stepPost_goes (h : phase.Replays start records posts worker)
    (hstep : worker.stepPost config i phase outcome = some worker') :
    Goes start worker worker' i records (posts ++ phase.posting) := by
  unfold Worker.stepPost at hstep
  split at hstep
  · next request purpose =>
    cases purpose with
    | deliver => cases h
    | replay posted record rest =>
      obtain ⟨rfl, hsplit, hposts, haccepted⟩ := h
      have hposts' : posts ++ Phase.posting (.authenticating record.request (.replay posted record rest)) =
          bodies (posted ++ [record]) := by
        rw [hposts, List.append_nil, bodies, bodies, List.map_append]
        rfl
      split at hstep <;> cases hstep
      · exact posted_goes hsplit hposts' haccepted rfl
      · exact goto_goes rfl ⟨rfl, hsplit, hposts', haccepted⟩
  · next request _ purpose _ =>
    cases hstep
    cases purpose with
    | deliver => cases h
    | replay posted record rest =>
      obtain ⟨rfl, hsplit, hposts, haccepted⟩ := h
      exact posted_goes hsplit ((List.append_nil posts).trans hposts) haccepted rfl
  · next request _ purpose =>
    cases hstep
    cases purpose with
    | deliver => cases h
    | replay posted record rest =>
      change Goes start worker _ i records (posts ++ [])
      rw [List.append_nil]
      exact ⟨_, rfl, .inl rfl, h.1, h.2.same rfl⟩
  · next request _ purpose _ =>
    cases hstep
    cases purpose with
    | deliver => cases h
    | replay posted record rest =>
      obtain ⟨rfl, hsplit, hposts, haccepted⟩ := h
      exact posted_goes hsplit ((List.append_nil posts).trans hposts) haccepted rfl
  · next request authentication purpose status body =>
    cases purpose with
    | deliver => cases h
    | replay posted record rest =>
      split at hstep
      · cases hstep
        change Goes start worker _ i records (posts ++ [])
        rw [List.append_nil]
        exact goto_goes rfl h
      · obtain ⟨rfl, hsplit, hposts, haccepted⟩ := h
        have hposts' := (List.append_nil posts).trans hposts
        split at hstep <;> cases hstep
        · refine Goes.behind (posted_goes hsplit hposts' haccepted ?_) rfl
          rfl
        · exact posted_goes hsplit hposts' haccepted rfl
  · next request authentication purpose =>
    cases hstep
    cases purpose with
    | deliver => cases h
    | replay posted record rest =>
      obtain ⟨rfl, hsplit, hposts, haccepted⟩ := h
      refine Goes.behind (posted_goes hsplit ((List.append_nil posts).trans hposts) haccepted ?_) rfl
      rfl
  · cases hstep

/-- The read of the spool gives back the records that were written to it. -/
theorem stepReplay_goes (hfile : start.spool = if records = [] then none else some (written records))
    (h : phase.Replays start records posts worker) (hstep : worker.stepReplay i phase outcome = some worker') :
    Goes start worker worker' i records posts := by
  unfold Worker.stepReplay at hstep
  split at hstep
  case h_1 =>
    split at hstep <;> cases hstep
    next hnone =>
    obtain ⟨hspool, hprogress⟩ := h
    have hempty : records = [] := by
      by_contra hne
      rw [hspool, hfile, if_neg hne] at hnone
      cases hnone
    subst hempty
    refine ⟨_, rfl, .inr ⟨_, rfl⟩, [], [], hprogress.same rfl, rfl, rfl, ?_⟩
    exact hnone
  case h_3 =>
    obtain ⟨body, hbody, rfl⟩ := Option.map_eq_some_iff.mp hstep
    obtain ⟨hspool, hprogress⟩ := h
    have hwritten : body = written records := by
      rw [hspool, hfile] at hbody
      split at hbody
      · cases hbody
      · exact (Option.some.inj hbody).symm
    rw [hwritten, (Holds.ended records).reads]
    exact replayNext_goes hprogress
  all_goals cases hstep
  · exact fail_goes _
  · obtain ⟨posted, hprogress, hreplayed⟩ := h
    exact ⟨_, rfl, .inr ⟨_, rfl⟩, posted, [], hprogress.same rfl, hreplayed, rfl, rfl⟩
  · exact fail_goes _
  · exact goto_goes rfl h
  · exact fail_goes _
  · next replayed remaining =>
    exact ⟨.replaceWrite replayed remaining [] remaining, rfl, .inl rfl, h.1, h.2.same rfl, rfl, rfl⟩
  · exact goto_goes rfl trivial
  · next replayed remaining front record todo =>
    obtain ⟨hremaining, hstopped, hsplit, htemporary⟩ := h
    refine ⟨.replaceWrite replayed remaining (front ++ [record]) todo, rfl, .inl rfl, hremaining, hstopped.same rfl, ?_, ?_⟩
    · rw [hsplit, List.append_assoc, List.singleton_append]
    · simp only [htemporary, Option.getD_some, written_append]
      simp [written]
  · exact ⟨_, rfl, .inl rfl, trivial⟩
  · obtain ⟨hremaining, hstopped, hsplit, htemporary⟩ := h
    rw [List.append_nil] at hsplit
    exact goto_goes rfl ⟨hremaining, hstopped, hsplit ▸ htemporary⟩
  · exact goto_goes rfl trivial
  · next replayed remaining =>
    obtain ⟨hremaining, ⟨posted, hprogress, hreplayed⟩, htemporary⟩ := h
    refine ⟨_, rfl, .inr ⟨_, rfl⟩, posted, remaining, hprogress.same rfl, hreplayed, rfl, ?_⟩
    rw [if_neg hremaining]
    exact htemporary
  · exact goto_goes rfl trivial
  · exact ⟨_, rfl, .inr ⟨_, rfl⟩, trivial⟩
  · exact fail_goes _

theorem stepTask_goes (hfile : start.spool = if records = [] then none else some (written records))
    (hlocked : phase.locked = true) (h : phase.Replays start records posts worker)
    (hstep : worker.stepTask config i phase outcome = some worker') :
    Goes start worker worker' i records (posts ++ phase.posting) := by
  unfold Worker.stepTask at hstep
  split at hstep
  · cases hlocked
  · simp only [Option.or_eq_some_iff] at hstep
    rcases hstep with hpost | ⟨-, hspool | ⟨-, hreplay | ⟨-, hcontrol⟩⟩⟩
    · exact stepPost_goes h hpost
    · unfold Worker.stepSpool at hspool
      split at hspool <;> first | cases h | cases hspool
    · have hnothing : phase.posting = [] := by
        cases phase <;> first | rfl | cases hreplay
      rw [hnothing, List.append_nil]
      exact stepReplay_goes hfile h hreplay
    · unfold Worker.stepControl at hcontrol
      split at hcontrol <;> first | cases h | cases hcontrol

/-- A task that has ended stays as it is. -/
theorem stepTask_done (worker : Worker) (i : Nat) (result : Except DeliveryPluginError Reply) (outcome : Outcome) :
    worker.stepTask config i (.done result) outcome = none := rfl

/-- A step of another task while task `i` holds the lock. -/
theorem stepTask_other {j : Nat} (hexclusive : Exclusive worker) (hlock : worker.lock = some i) (hj : j ≠ i)
    (hphase : worker.tasks[j]? = some phase) (hstep : worker.stepTask config j phase outcome = some worker') :
    ∃ reply, worker' = worker.goto j (.done (.ok reply)) := by
  rcases stepTask_credential hstep with ⟨hlocked, -⟩ | ⟨-, hfree, -⟩ | ⟨-, hreport⟩
  · rw [hexclusive j phase hphase hlocked] at hlock
    exact absurd (Option.some.inj hlock) hj
  · rw [hlock] at hfree
    cases hfree
  · exact hreport

/-- A step of another task leaves the entry of this one. -/
theorem stepTask_entry {j : Nat} (hj : j ≠ i) (hstep : worker.stepTask config j phase outcome = some worker') :
    worker'.tasks[i]? = worker.tasks[i]? := by
  have hset : ∃ next, worker'.tasks = worker.tasks.set j next := by
    rcases stepTask_credential hstep with ⟨-, hcredential⟩ | ⟨-, -, hcredential⟩ | ⟨-, reply, rfl⟩
    · obtain ⟨next, hmoves⟩ := hcredential.moves
      exact ⟨next, hmoves.tasks⟩
    · obtain ⟨next, hmoves⟩ := hcredential.moves
      exact ⟨next, hmoves.tasks⟩
    · exact ⟨_, rfl⟩
  obtain ⟨next, hset⟩ := hset
  rw [hset, List.getElem?_set_ne hj]

end Steps

section Runs

/-- The calls of `post` that an action of task `i` starts. -/
def postsOf (i : Nat) (worker : Worker) : Action Time → List (List UInt8)
  | .task j _ => if j = i then ((worker.tasks[i]?).map Phase.posting).getD [] else []
  | _ => []

/-- A step of the worker, with the bodies that task `i` has posted. -/
def watch (config : UploaderConfig Time) (i : Nat) (s : Worker × List (List UInt8)) (action : Action Time) :
    Option (Worker × List (List UInt8)) :=
  (s.1.step config action).map (fun worker => (worker, s.2 ++ postsOf i s.1 action))

/-- From `start` on, along a schedule without a crash, task `i` posts `posts` and ends with a summary. -/
def Returns (config : UploaderConfig Time) (start : Worker) (i : Nat) (posts : List (List UInt8)) (worker : Worker)
    (replayed remaining : Nat) : Prop :=
  ∃ (actions : List (Action Time)) (before : Worker × List (List UInt8)) (outcome : Outcome),
    (∀ credential, Action.crash credential ∉ actions) ∧ run (watch config i) (start, []) actions = some before ∧
    (∀ result, before.1.tasks[i]? ≠ some (.done result)) ∧
    watch config i before (.task i outcome) = some (worker, posts) ∧
    worker.tasks[i]? = some (.done (.ok (.replayed replayed remaining)))

/-- Task `i` is inside its replay, or has ended. -/
def Inside (start : Worker) (i : Nat) (records : List SpoolRecord) (s : Worker × List (List UInt8)) : Prop :=
  Exclusive s.1 ∧ ∃ phase : Phase, s.1.tasks[i]? = some phase ∧
    ((∃ result, phase = .done result) ∨ phase.locked = true ∧ phase.Replays start records s.2 s.1)

theorem Inside.watch {s s' : Worker × List (List UInt8)} {action : Action Time}
    (hfile : start.spool = if records = [] then none else some (written records))
    (hcrash : ∀ credential, action ≠ .crash credential) (h : Inside start i records s)
    (hstep : watch config i s action = some s') : Inside start i records s' := by
  obtain ⟨worker, posts⟩ := s
  obtain ⟨hexclusive, phase, hphase, hcase⟩ := h
  obtain ⟨worker', hworker, rfl⟩ := Option.map_eq_some_iff.mp hstep
  refine ⟨hexclusive.step hworker, ?_⟩
  cases action with
  | start operation =>
    cases hworker
    refine ⟨phase, ?_, ?_⟩
    · rw [List.getElem?_append_left (List.getElem?_eq_some_iff.mp hphase).1]
      exact hphase
    · rcases hcase with hdone | ⟨hlocked, hreplays⟩
      · exact .inl hdone
      · refine .inr ⟨hlocked, ?_⟩
        change phase.Replays start records (posts ++ []) _
        rw [List.append_nil]
        exact hreplays.same rfl rfl rfl
  | task j outcome =>
    simp only [Worker.step, Option.bind_eq_bind, Option.bind_eq_some_iff] at hworker
    obtain ⟨phase', hphase', hworker⟩ := hworker
    by_cases hj : j = i
    · subst hj
      obtain rfl := Option.some.inj (hphase.symm.trans hphase')
      rcases hcase with ⟨result, rfl⟩ | ⟨hlocked, hreplays⟩
      · cases hworker
      · obtain ⟨next, htasks, hruns, hnext⟩ := stepTask_goes hfile hlocked hreplays hworker
        refine ⟨next, ?_, ?_⟩
        · rw [htasks, List.getElem?_set_self' , hphase]
          rfl
        · rcases hruns with hlocked' | hdone
          · refine .inr ⟨hlocked', ?_⟩
            simpa [postsOf, hphase] using hnext
          · exact .inl hdone
    · refine ⟨phase, (stepTask_entry hj hworker).trans hphase, ?_⟩
      rcases hcase with hdone | ⟨hlocked, hreplays⟩
      · exact .inl hdone
      · obtain ⟨reply, rfl⟩ := stepTask_other hexclusive (hexclusive i phase hphase hlocked) hj hphase' hworker
        refine .inr ⟨hlocked, ?_⟩
        simp only [postsOf, if_neg hj, List.append_nil]
        exact hreplays.same rfl rfl rfl
  | crash credential => exact absurd rfl (hcrash credential)

/-- A replay that returns a summary has replayed. -/
theorem Returns.replayed {posts : List (List UInt8)} {replayed remaining : Nat}
    (hfile : start.spool = if records = [] then none else some (written records)) (hexclusive : Exclusive start)
    (hphase : start.tasks[i]? = some .spoolRead) (h : Returns config start i posts worker replayed remaining) :
    Replayed start worker records posts replayed remaining := by
  obtain ⟨actions, before, outcome, hcrash, hrun, hrunning, hlast, hdone⟩ := h
  have hstart : Inside start i records (start, []) :=
    ⟨hexclusive, .spoolRead, hphase, .inr ⟨rfl, rfl, rfl, rfl, (List.append_nil start.accepted).symm⟩⟩
  have hbefore : Inside start i records before := by
    refine @run_invariant_of _ _ (watch config i) (Inside start i records) (fun action => ∀ credential, action ≠ .crash credential)
      ?_ _ _ _ ?_ hstart hrun
    · exact fun hallowed hinside hstep => hinside.watch hfile hallowed hstep
    · rintro action hmem credential rfl
      exact hcrash credential hmem
  obtain ⟨before, earlier⟩ := before
  obtain ⟨-, phase, hbeforePhase, ⟨result, rfl⟩ | ⟨hlocked, hreplays⟩⟩ := hbefore
  · exact absurd hbeforePhase (hrunning result)
  · obtain ⟨worker', hstep, hlast⟩ := Option.map_eq_some_iff.mp hlast
    obtain ⟨rfl, rfl⟩ := Prod.mk.inj hlast
    simp only [Worker.step, Option.bind_eq_bind, Option.bind_eq_some_iff] at hstep
    obtain ⟨phase', hphase', hstep⟩ := hstep
    obtain rfl := Option.some.inj (hbeforePhase.symm.trans hphase')
    obtain ⟨next, htasks, -, hnext⟩ := stepTask_goes hfile hlocked hreplays hstep
    rw [htasks, List.getElem?_set_self', hbeforePhase] at hdone
    obtain rfl : next = .done (.ok (.replayed replayed remaining)) := Option.some.inj hdone
    have hreplayed : Replayed start worker' records (earlier ++ phase.posting) replayed remaining := hnext
    simpa only [postsOf, if_true, hbeforePhase, Option.map_some, Option.getD_some] using hreplayed

end Runs

section Schedules

/-- How the destination answers one post: with a status and a decoded body, or not at all. -/
abbrev Answer := Except Str (Nat × Except Str IngestEventsResponse)

def Answer.accepts : Answer → Bool
  | .ok (status, body) => (classify status body).isOk
  | .error _ => false

/-- Steps of task `i` alone. -/
def Leads (config : UploaderConfig Time) (i : Nat) (worker worker' : Worker) : Prop :=
  ∃ outcomes : List Outcome, run (Worker.step config) worker (outcomes.map (.task i)) = some worker'

theorem Leads.refl (worker : Worker) : Leads config i worker worker := ⟨[], rfl⟩

theorem Leads.trans {middle : Worker} (h : Leads config i worker middle) (h' : Leads config i middle worker') :
    Leads config i worker worker' := by
  obtain ⟨front, hfront⟩ := h
  obtain ⟨back, hback⟩ := h'
  exact ⟨front ++ back, by rw [List.map_append, run_append]; exact ⟨middle, hfront, hback⟩⟩

/-- One step of the task, to the phase `next`. -/
theorem Leads.step {phase next : Phase} {outcome : Outcome} (hphase : worker.tasks[i]? = some phase)
    (hstep : worker.stepTask config i phase outcome = some worker') (htasks : worker'.tasks = worker.tasks.set i next) :
    Leads config i worker worker' ∧ worker'.tasks[i]? = some next := by
  constructor
  · refine ⟨[outcome], run_cons.mpr ⟨worker', ?_, rfl⟩⟩
    simp only [Worker.step, hphase, Option.bind_eq_bind, Option.bind_some, hstep]
  · rw [htasks, List.getElem?_set_self', hphase]
    rfl

/-- The loop of a replay has ended with `remaining` records. -/
def Ends (i : Nat) (worker : Worker) (replayed remaining : Nat) : Prop :=
  ∃ left : List SpoolRecord, left.length = remaining ∧
    worker.tasks[i]? = some (if left = [] then .removing replayed else .replaceDirectory replayed left)

theorem replaceSpool_ends {phase : Phase} (hphase : worker.tasks[i]? = some phase) (replayed : Nat) (remaining : List SpoolRecord) :
    (worker.replaceSpool i replayed remaining).tasks =
      worker.tasks.set i (if remaining = [] then .removing replayed else .replaceDirectory replayed remaining) ∧
    Ends i (worker.replaceSpool i replayed remaining) replayed remaining.length := by
  have htasks : (worker.replaceSpool i replayed remaining).tasks =
      worker.tasks.set i (if remaining = [] then .removing replayed else .replaceDirectory replayed remaining) := by
    unfold Worker.replaceSpool
    split <;> rfl
  refine ⟨htasks, remaining, rfl, ?_⟩
  rw [htasks, List.getElem?_set_self', hphase]
  rfl

/-- The task gets to its summary. -/
def Summarizes (config : UploaderConfig Time) (i : Nat) (worker : Worker) (replayed remaining : Nat) : Prop :=
  ∃ before outcome after, Leads config i worker before ∧ (∀ result, before.tasks[i]? ≠ some (.done result)) ∧
    before.step config (.task i outcome) = some after ∧ after.tasks[i]? = some (.done (.ok (.replayed replayed remaining)))

theorem Leads.summarizes {replayed remaining : Nat} (h : Leads config i worker worker')
    (hsummarizes : Summarizes config i worker' replayed remaining) : Summarizes config i worker replayed remaining := by
  obtain ⟨before, outcome, after, hleads, hrest⟩ := hsummarizes
  exact ⟨before, outcome, after, h.trans hleads, hrest⟩

/-- The last step. -/
theorem summarizes_now {phase : Phase} {outcome : Outcome} {replayed remaining : Nat} (hphase : worker.tasks[i]? = some phase)
    (hrunning : phase.locked = true) (hstep : worker.stepTask config i phase outcome = some worker')
    (htasks : worker'.tasks = worker.tasks.set i (.done (.ok (.replayed replayed remaining)))) :
    Summarizes config i worker replayed remaining := by
  refine ⟨worker, outcome, worker', .refl worker, ?_, ?_, ?_⟩
  · intro result hdone
    rw [hphase] at hdone
    obtain rfl := Option.some.inj hdone
    cases hrunning
  · simp only [Worker.step, hphase, Option.bind_eq_bind, Option.bind_some, hstep]
  · exact (Leads.step hphase hstep htasks).2

/-- Every record that is left gets written. -/
theorem replaceWrite_leads {replayed : Nat} {remaining front todo : List SpoolRecord}
    (hphase : worker.tasks[i]? = some (.replaceWrite replayed remaining front todo)) :
    ∃ (worker' : Worker) (front' : List SpoolRecord), Leads config i worker worker' ∧
      worker'.tasks[i]? = some (.replaceWrite replayed remaining front' []) := by
  induction todo generalizing worker front with
  | nil => exact ⟨worker, front, .refl worker, hphase⟩
  | cons record todo ih =>
    have hstep : ∃ next, worker.stepTask config i (.replaceWrite replayed remaining front (record :: todo)) .ok = some next ∧
        next.tasks = worker.tasks.set i (.replaceWrite replayed remaining (front ++ [record]) todo) := ⟨_, rfl, rfl⟩
    obtain ⟨next, hstep, htasks⟩ := hstep
    obtain ⟨hleads, hnext⟩ := Leads.step hphase hstep htasks
    obtain ⟨worker', front', hrest, hend⟩ := ih hnext
    exact ⟨worker', front', hleads.trans hrest, hend⟩

/-- Behind its loop a replay replaces the spool and returns. -/
theorem Ends.summarizes {replayed remaining : Nat} (h : Ends i worker replayed remaining) :
    Summarizes config i worker replayed remaining := by
  obtain ⟨left, rfl, hphase⟩ := h
  by_cases hleft : left = []
  · subst hleft
    exact @summarizes_now Time config _ _ i _ .ok _ _ hphase rfl rfl rfl
  · rw [if_neg hleft] at hphase
    obtain ⟨hopen, hphase⟩ := @Leads.step Time config worker _ i _ (.replaceOpen replayed left) .ok hphase rfl rfl
    refine hopen.summarizes ?_
    obtain ⟨hwrite, hphase⟩ := @Leads.step Time config _ _ i _ (.replaceWrite replayed left [] left) .ok hphase rfl rfl
    refine hwrite.summarizes ?_
    obtain ⟨worker', front, hwritten, hphase⟩ := @replaceWrite_leads Time config _ i replayed left [] left hphase
    refine hwritten.summarizes ?_
    obtain ⟨hrename, hphase⟩ := @Leads.step Time config _ _ i _ (.replaceRename replayed left) .ok hphase rfl rfl
    exact hrename.summarizes (@summarizes_now Time config _ _ i _ .ok _ _ hphase rfl rfl rfl)

/-- A refused post ends the loop. -/
theorem refused_leads {phase : Phase} {outcome : Outcome} {refused : Worker} {replayed : Nat} {remaining : List SpoolRecord}
    (hphase : worker.tasks[i]? = some phase) (htasks : refused.tasks = worker.tasks)
    (hstep : worker.stepTask config i phase outcome = some (refused.replaceSpool i replayed remaining)) :
    ∃ worker' : Worker, Leads config i worker worker' ∧ Ends i worker' replayed remaining.length := by
  obtain ⟨hset, hends⟩ := @replaceSpool_ends refused i phase (by rw [htasks]; exact hphase) replayed remaining
  rw [htasks] at hset
  exact ⟨_, (Leads.step hphase hstep hset).1, hends⟩

/-- The request of a record is sent. -/
theorem sent_leads {record : SpoolRecord} {posted rest : List SpoolRecord} {authentication : DeliveryAuthentication}
    (hphase : worker.tasks[i]? = some (.authenticating record.request (.replay posted record rest)))
    (hauthentication : config.authentication.forRequest worker.runtime = some authentication) :
    ∃ worker' : Worker, Leads config i worker worker' ∧ worker'.runtime = worker.runtime ∧
      worker'.tasks[i]? = some (.awaiting record.request authentication (.replay posted record rest)) := by
  have hsending : worker.stepTask config i (.authenticating record.request (.replay posted record rest)) .ok =
      some (worker.goto i (.sending record.request authentication (.replay posted record rest))) := by
    simp [Worker.stepTask, Worker.stepPost, hauthentication]
  obtain ⟨hfirst, hphase₁⟩ := Leads.step hphase hsending rfl
  obtain ⟨hsecond, hphase₂⟩ := @Leads.step Time config _ _ i _ (.awaiting record.request authentication (.replay posted record rest))
    .ok hphase₁ rfl rfl
  exact ⟨_, hfirst.trans hsecond, rfl, hphase₂⟩

/-- A post that the destination does not take. -/
theorem rejected_leads {record : SpoolRecord} {posted rest : List SpoolRecord} {authentication : DeliveryAuthentication}
    (hphase : worker.tasks[i]? = some (.awaiting record.request authentication (.replay posted record rest)))
    {answer : Answer} (hanswer : answer.accepts = false) :
    ∃ worker' : Worker, Leads config i worker worker' ∧ Ends i worker' posted.length (rest.length + 1) := by
  cases answer with
  | error text =>
    have hstep : worker.stepTask config i (.awaiting record.request authentication (.replay posted record rest))
        (.failed text) = some (worker.replaceSpool i posted.length (record :: rest)) := by
      simp [Worker.stepTask, Worker.stepPost, Worker.posted]
    exact refused_leads hphase rfl hstep
  | ok answer =>
    obtain ⟨status, body⟩ := answer
    by_cases hrefused : status = 401
    · subst hrefused
      obtain ⟨hleads, hphase'⟩ := @Leads.step Time config _ _ i _
        (.unauthorized record.request authentication (.replay posted record rest)) (.answer 401 body) hphase rfl rfl
      obtain ⟨worker', hrest, hends⟩ := @refused_leads Time config _ i _ .ok { worker.goto i
        (.unauthorized record.request authentication (.replay posted record rest)) with
          runtime := config.authentication.markUnauthorized worker.runtime
          trace := worker.trace ++ [.refused authentication] } posted.length (record :: rest) hphase' rfl rfl
      exact ⟨worker', hleads.trans hrest, hends⟩
    · cases hclassify : classify status body with
      | ok value => simp [Answer.accepts, hclassify, Except.isOk, Except.toBool] at hanswer
      | error e =>
        have hstep : worker.stepTask config i (.awaiting record.request authentication (.replay posted record rest))
            (.answer status body) = some (worker.replaceSpool i posted.length (record :: rest)) := by
          simp [Worker.stepTask, Worker.stepPost, hrefused, hclassify, Worker.posted]
        exact refused_leads hphase rfl hstep

/-- Behind one turn of the loop: the next record is posted, or the loop has ended. -/
def NextTurn (i : Nat) (worker : Worker) (posted : List SpoolRecord) : List SpoolRecord → Prop
  | [] => Ends i worker posted.length 0
  | next :: more => worker.tasks[i]? = some (.authenticating next.request (.replay posted next more))

theorem replayNext_turn {phase : Phase} (hphase : worker.tasks[i]? = some phase) (posted rest : List SpoolRecord) :
    ∃ next, (worker.replayNext i posted rest).tasks = worker.tasks.set i next ∧
      NextTurn i (worker.replayNext i posted rest) posted rest ∧ (worker.replayNext i posted rest).runtime = worker.runtime := by
  cases rest with
  | nil =>
    obtain ⟨hset, hends⟩ := replaceSpool_ends hphase posted.length []
    exact ⟨_, hset, hends, rfl⟩
  | cons record rest =>
    refine ⟨_, rfl, ?_, rfl⟩
    simp only [NextTurn, Worker.replayNext, Worker.goto, List.getElem?_set_self', hphase]
    rfl

/-- A post that the destination takes. -/
theorem accepted_leads {record : SpoolRecord} {posted rest : List SpoolRecord} {authentication : DeliveryAuthentication}
    (hphase : worker.tasks[i]? = some (.awaiting record.request authentication (.replay posted record rest)))
    {answer : Answer} (hanswer : answer.accepts = true) :
    ∃ worker' : Worker, Leads config i worker worker' ∧ worker'.runtime = worker.runtime ∧
      NextTurn i worker' (posted ++ [record]) rest := by
  obtain ⟨status, body, rfl⟩ : ∃ status body, answer = .ok (status, body) := by
    cases answer with
    | error text => cases hanswer
    | ok answer => exact ⟨answer.1, answer.2, rfl⟩
  have hclassify : classify status body = .ok () := by
    cases h : classify status body with
    | ok value => rfl
    | error e => simp [Answer.accepts, h, Except.isOk, Except.toBool] at hanswer
  have hrefused : status ≠ 401 := by
    rintro rfl
    cases hclassify
  have hstep : worker.stepTask config i (.awaiting record.request authentication (.replay posted record rest))
      (.answer status body) = some (Worker.replayNext { worker with accepted := worker.accepted ++ [record.request] } i
        (posted ++ [record]) rest) := by
    simp [Worker.stepTask, Worker.stepPost, hrefused, hclassify, Worker.posted]
  obtain ⟨next, hset, hturn, hruntime⟩ := @replayNext_turn { worker with accepted := worker.accepted ++ [record.request] } i _ hphase
    (posted ++ [record]) rest
  exact ⟨_, (Leads.step hphase hstep hset).1, hruntime, hturn⟩

/-- The loop takes the answers in order, up to the first one that is no acceptance. -/
theorem replay_ends {record : SpoolRecord} {posted rest : List SpoolRecord} {authentication : DeliveryAuthentication}
    {answers : List Answer} (hanswers : answers.length = rest.length + 1)
    (hphase : worker.tasks[i]? = some (.authenticating record.request (.replay posted record rest)))
    (hauthentication : config.authentication.forRequest worker.runtime = some authentication) :
    ∃ worker' : Worker, Leads config i worker worker' ∧ Ends i worker' (posted.length + (answers.takeWhile Answer.accepts).length)
      (rest.length + 1 - (answers.takeWhile Answer.accepts).length) := by
  induction answers generalizing worker record posted rest with
  | nil => cases hanswers
  | cons answer answers ih =>
    obtain ⟨sent, hsent, hruntime, hawaiting⟩ := sent_leads hphase hauthentication
    cases hanswer : answer.accepts with
    | false =>
      obtain ⟨worker', hrest, hends⟩ := @rejected_leads Time config _ i _ _ _ _ hawaiting _ hanswer
      rw [List.takeWhile_cons_of_neg (by rw [hanswer]; decide)]
      exact ⟨worker', hsent.trans hrest, hends⟩
    | true =>
      obtain ⟨next, hrest, hruntime', hnext⟩ := @accepted_leads Time config _ i _ _ _ _ hawaiting _ hanswer
      rw [List.takeWhile_cons_of_pos hanswer, List.length_cons]
      cases rest with
      | nil =>
        obtain rfl : answers = [] := List.length_eq_zero_iff.mp (by simpa using hanswers)
        refine ⟨next, hsent.trans hrest, ?_⟩
        rw [NextTurn, List.length_append, List.length_singleton] at hnext
        exact hnext
      | cons following more =>
        obtain ⟨worker', hmore, hends⟩ := ih (Nat.succ.inj hanswers) hnext (by rw [hruntime', hruntime]; exact hauthentication)
        refine ⟨worker', (hsent.trans hrest).trans hmore, ?_⟩
        rw [List.length_append, List.length_singleton, Nat.add_assoc, Nat.add_comm 1] at hends
        rw [List.length_cons, Nat.add_sub_add_right]
        exact hends

/-- How many records a replay gets accepted: the answers up to the first refusal, none without a credential. -/
def acceptedFront (config : UploaderConfig Time) (worker : Worker) (answers : List Answer) : Nat :=
  if (config.authentication.forRequest worker.runtime).isSome then (answers.takeWhile Answer.accepts).length else 0

/-- Whatever the destination answers, a replay whose file operations succeed gets to its summary. -/
theorem replay_summarizes (hfile : worker.spool = if records = [] then none else some (written records))
    (hphase : worker.tasks[i]? = some .spoolRead) {answers : List Answer} (hanswers : answers.length = records.length) :
    Summarizes config i worker (acceptedFront config worker answers) (records.length - acceptedFront config worker answers) := by
  cases records with
  | nil =>
    obtain rfl : answers = [] := List.length_eq_zero_iff.mp hanswers
    have hnone : acceptedFront config worker [] = 0 := by
      unfold acceptedFront
      split <;> rfl
    have hstep : worker.stepTask config i .spoolRead .notFound = some (worker.finish i (.ok (.replayed 0 0))) := by
      simp [Worker.stepTask, Worker.stepPost, Worker.stepSpool, Worker.stepReplay, hfile]
    rw [hnone]
    exact summarizes_now hphase rfl hstep rfl
  | cons record rest =>
    have hstep : worker.stepTask config i .spoolRead .ok = some (worker.replayNext i [] (record :: rest)) := by
      have hread := (Holds.ended (record :: rest)).reads
      simp [Worker.stepTask, Worker.stepPost, Worker.stepSpool, Worker.stepReplay, hfile, hread]
    obtain ⟨hread, hposting⟩ := Leads.step hphase hstep rfl
    refine hread.summarizes ?_
    unfold acceptedFront
    cases hauthentication : config.authentication.forRequest worker.runtime with
    | none =>
      have hrefused : (worker.replayNext i [] (record :: rest)).stepTask config i
          (.authenticating record.request (.replay [] record rest)) .ok =
            some ((worker.replayNext i [] (record :: rest)).replaceSpool i 0 (record :: rest)) := by
        have hruntime : (worker.replayNext i [] (record :: rest)).runtime = worker.runtime := rfl
        simp [Worker.stepTask, Worker.stepPost, hruntime, hauthentication, Worker.posted]
      obtain ⟨worker', hleads, hends⟩ := refused_leads hposting rfl hrefused
      exact hleads.summarizes hends.summarizes
    | some authentication =>
      obtain ⟨worker', hleads, hends⟩ := @replay_ends Time config _ i record [] rest authentication answers hanswers hposting
        hauthentication
      rw [List.length_nil, Nat.zero_add] at hends
      exact hleads.summarizes hends.summarizes

/-- A schedule may be watched. -/
theorem run_watch {actions : List (Action Time)} (h : run (Worker.step config) worker actions = some worker')
    (posts : List (List UInt8)) : ∃ posts', run (watch config i) (worker, posts) actions = some (worker', posts') := by
  induction actions generalizing worker posts with
  | nil =>
    obtain rfl := Option.some.inj h
    exact ⟨posts, rfl⟩
  | cons action actions ih =>
    obtain ⟨next, hstep, hrest⟩ := run_cons.mp h
    obtain ⟨posts', hposts⟩ := ih hrest (posts ++ postsOf i worker action)
    refine ⟨posts', run_cons.mpr ⟨(next, posts ++ postsOf i worker action), ?_, hposts⟩⟩
    rw [watch, hstep]
    rfl

theorem Summarizes.returns {replayed remaining : Nat} (h : Summarizes config i worker replayed remaining) :
    ∃ posts worker', Returns config worker i posts worker' replayed remaining := by
  obtain ⟨before, outcome, after, ⟨outcomes, hrun⟩, hrunning, hstep, hdone⟩ := h
  obtain ⟨posts, hposts⟩ := @run_watch Time config worker before i _ hrun []
  refine ⟨posts ++ postsOf i before (Action.task i outcome : Action Time), after, outcomes.map (.task i), (before, posts), outcome,
    ?_, hposts, hrunning, ?_, hdone⟩
  · intro credential hmem
    obtain ⟨_, -, hcrash⟩ := List.mem_map.mp hmem
    cases hcrash
  · rw [watch, hstep]
    rfl

end Schedules

section Exactness

/-- What a replay that returns a summary has done to a spool of `records`. -/
structure RemovesAccepted (start worker : Worker) (records : List SpoolRecord) (posts : List (List UInt8))
    (replayed remaining : Nat) : Prop where
  counts : replayed + remaining = spooledEventCount start
  posts : posts = bodies (records.take (replayed + 1))
  accepted : worker.accepted = start.accepted ++ requests (records.take replayed)
  left : worker.spool = if remaining = 0 then none else some (written (records.drop replayed))
  counted : spooledEventCount worker = remaining
  untouched : replayed = 0 → 0 < remaining → worker.spool = start.spool

theorem Replayed.removesAccepted {posts : List (List UInt8)} {replayed remaining : Nat}
    (hfile : start.spool = if records = [] then none else some (written records))
    (h : Replayed start worker records posts replayed remaining) : RemovesAccepted start worker records posts replayed remaining := by
  obtain ⟨posted, rest, ⟨hsplit, hposts, haccepted⟩, rfl, rfl, hleft⟩ := h
  have hdrop : records.drop posted.length = rest := by rw [hsplit, List.drop_left]
  have htake : records.take posted.length = posted := by rw [hsplit, List.take_left]
  refine ⟨?_, ?_, by rw [htake, haccepted], ?_, spooledEventCount_written hleft, ?_⟩
  · rw [spooledEventCount_written hfile, hsplit, List.length_append]
  · rw [hposts, hsplit, List.take_length_add_append]
  · rw [hleft, hdrop]
    simp only [List.length_eq_zero_iff]
  · intro hnone hsome
    obtain rfl := List.length_eq_zero_iff.mp hnone
    rw [hleft, hfile, hsplit, List.nil_append]

/-- A replay of a produced spool posts the bodies that were spooled, in their order, up to the first failure; it takes the
accepted records off the front and leaves the failed one and all later ones; and whatever the destination answers,
it gets there if its file operations succeed. -/
theorem replay_removes_accepted_front (config : UploaderConfig Time) (hproduced : Produced start.spool records)
    (hexclusive : Exclusive start) (hphase : start.tasks[i]? = some .spoolRead) :
    (∀ posts worker replayed remaining, Returns config start i posts worker replayed remaining →
      RemovesAccepted start worker records posts replayed remaining) ∧
    ∀ answers : List Answer, answers.length = records.length → ∃ posts worker, Returns config start i posts worker
      (acceptedFront config start answers) (records.length - acceptedFront config start answers) := by
  have hfile := hproduced.file_eq
  refine ⟨?_, ?_⟩
  · intro posts worker replayed remaining hreturns
    exact (hreturns.replayed hfile hexclusive hphase).removesAccepted hfile
  · intro answers hanswers
    exact (replay_summarizes hfile hphase hanswers).returns

/-- A request without events, with a line end in its reason for the spool. -/
def sampleRecord : SpoolRecord := ⟨"down\n".toList, ⟨[], []⟩⟩

/-- A worker whose first task is about to read a spool of one record. -/
def sampleReplay : Worker :=
  ⟨⟨⟨none, none⟩, .notRequired⟩, some 0, [.spoolRead], some (endLine sampleRecord.toVec), none, [], [], [], []⟩

theorem sample_refused : ∃ posts worker, Returns spoolingConfig sampleReplay 0 posts worker 0 1 ∧
    worker.spool = sampleReplay.spool := by
  have hexclusive : Exclusive sampleReplay := by
    intro j phase hphase _
    cases j with
    | zero => rfl
    | succ j => simp [sampleReplay] at hphase
  obtain ⟨hexact, hreturns⟩ := @replay_removes_accepted_front Unit sampleReplay 0 [sampleRecord] spoolingConfig
    (.spool .absent sampleRecord) hexclusive rfl
  obtain ⟨posts, worker, hreturn⟩ := hreturns [.ok (503, .error [])] rfl
  exact ⟨posts, worker, hreturn, (hexact posts worker 0 1 hreturn).untouched rfl Nat.one_pos⟩

end Exactness
end Abyss.Delivery
