import Abyss.Delivery.Uploader

/-! The delivery lock along every schedule: one task is inside an operation, and what its steps do to
the credential. -/
namespace Abyss.Delivery
open Abyss.Text Abyss.System
variable {Time : Type} {config : UploaderConfig Time} {worker worker' : Worker} {i : Nat}

section Steps

/-- Whether the task holds the delivery lock. -/
def Phase.locked : Phase → Bool
  | .locking _ | .reporting _ | .done _ => false
  | _ => true

/-- What the request of the task carries, from its snapshot to the answer. -/
def Phase.credential : Phase → Option DeliveryAuthentication
  | .sending _ authentication _ | .awaiting _ authentication _ | .unauthorized _ authentication _ => some authentication
  | _ => none

/-- The credential that the task is about to install. -/
def Phase.installs : Phase → Option (Str × Str)
  | .installing token audience => some (token, audience)
  | _ => none

/-- One task goes on to another phase, and gives the lock back unless the phase holds it. -/
structure Moves (worker worker' : Worker) (i : Nat) (phase : Phase) : Prop where
  tasks : worker'.tasks = worker.tasks.set i phase
  lock : worker'.lock = if phase.locked then worker.lock else none

/-- A step that leaves the credential alone and ends outside of a request. -/
def Idles (worker worker' : Worker) (i : Nat) : Prop :=
  ∃ phase, Moves worker worker' i phase ∧ worker'.runtime = worker.runtime ∧ worker'.trace = worker.trace ∧
    phase.credential = none ∧ phase.installs = none

theorem goto_idles (worker : Worker) (i : Nat) {phase : Phase} (hlocked : phase.locked = true)
    (hcredential : phase.credential = none) (hinstalls : phase.installs = none) : Idles worker (worker.goto i phase) i :=
  ⟨phase, ⟨rfl, by rw [hlocked]; rfl⟩, rfl, rfl, hcredential, hinstalls⟩

theorem finish_idles (worker : Worker) (i : Nat) (result : Except DeliveryPluginError Reply) :
    Idles worker (worker.finish i result) i := ⟨.done result, ⟨rfl, rfl⟩, rfl, rfl, rfl, rfl⟩

theorem replaceSpool_idles (worker : Worker) (i replayed : Nat) (remaining : List SpoolRecord) :
    Idles worker (worker.replaceSpool i replayed remaining) i := by
  unfold Worker.replaceSpool
  split <;> exact goto_idles worker i rfl rfl rfl

theorem replayNext_idles (worker : Worker) (i : Nat) (posted rest : List SpoolRecord) :
    Idles worker (worker.replayNext i posted rest) i := by
  cases rest with
  | nil => exact replaceSpool_idles worker i posted.length []
  | cons record rest => exact goto_idles worker i rfl rfl rfl

theorem posted_idles (config : UploaderConfig Time) (worker : Worker) (i : Nat) (request : IngestEventsRequest)
    (purpose : Purpose) (result : Except DeliveryPluginError Unit) : Idles worker (worker.posted config i request purpose result) i := by
  unfold Worker.posted
  split
  · exact ⟨.done (.ok .delivered), ⟨rfl, rfl⟩, rfl, rfl, rfl, rfl⟩
  · split
    · exact goto_idles worker i rfl rfl rfl
    · exact finish_idles worker i _
  · exact replayNext_idles worker i _ _
  · exact replaceSpool_idles worker i _ _

/-- What a step of a task does to the credential. -/
inductive CredentialStep (config : UploaderConfig Time) (worker : Worker) (i : Nat) (phase : Phase) (worker' : Worker) : Prop
  | idle (h : Idles worker worker' i)
  | snapshot {next : Phase} {authentication : DeliveryAuthentication} (hmoves : Moves worker worker' i next)
    (hruntime : worker'.runtime = worker.runtime) (htrace : worker'.trace = worker.trace)
    (hcredential : next.credential = some authentication) (hinstalls : next.installs = none)
    (h : phase.credential = some authentication ∨
      config.authentication.forRequest worker.runtime = some authentication)
  | send {next : Phase} {authentication : DeliveryAuthentication} (hmoves : Moves worker worker' i next)
    (hruntime : worker'.runtime = worker.runtime)
    (htrace : worker'.trace = worker.trace ++ [.sent authentication worker.runtime.state])
    (hcredential : next.credential = some authentication) (hinstalls : next.installs = none)
    (h : phase.credential = some authentication)
  | refuse {next : Phase} {authentication : DeliveryAuthentication} (hmoves : Moves worker worker' i next)
    (hruntime : worker'.runtime = config.authentication.markUnauthorized worker.runtime)
    (htrace : worker'.trace = worker.trace ++ [.refused authentication])
    (hcredential : next.credential = none) (hinstalls : next.installs = none) (h : phase.credential = some authentication)
  | check {token audience bearerToken : Str} {next : Phase} (hmoves : Moves worker worker' i next)
    (hruntime : worker'.runtime = worker.runtime) (htrace : worker'.trace = worker.trace)
    (hcredential : next.credential = none) (hinstalls : next.installs = some (token, audience))
    (h : config.authentication.checkManagedBearer bearerToken audience = .ok token)
  | install {token audience : Str} {next : Phase} (hmoves : Moves worker worker' i next)
    (hruntime : worker'.runtime = AuthenticationConfig.installBearer token)
    (htrace : worker'.trace = worker.trace ++ [.installed token audience])
    (hcredential : next.credential = none) (hinstalls : next.installs = none) (h : phase.installs = some (token, audience))
  | clear {next : Phase} (hmoves : Moves worker worker' i next) (hruntime : worker'.runtime = AuthenticationConfig.clearedBearer)
    (htrace : worker'.trace = worker.trace ++ [.cleared])
    (hcredential : next.credential = none) (hinstalls : next.installs = none)

theorem stepPost_credential {phase : Phase} {outcome : Outcome} (h : worker.stepPost config i phase outcome = some worker') :
    phase.locked = true ∧ CredentialStep config worker i phase worker' := by
  unfold Worker.stepPost at h
  split at h
  · refine ⟨rfl, ?_⟩
    split at h <;> cases h
    · exact .idle (posted_idles config worker i _ _ _)
    · next hsnapshot => exact .snapshot ⟨rfl, rfl⟩ rfl rfl rfl rfl (.inr hsnapshot)
  · cases h
    exact ⟨rfl, .idle (posted_idles config worker i _ _ _)⟩
  · cases h
    exact ⟨rfl, .send ⟨rfl, rfl⟩ rfl rfl rfl rfl rfl⟩
  · cases h
    exact ⟨rfl, .idle (posted_idles config worker i _ _ _)⟩
  · refine ⟨rfl, ?_⟩
    split at h
    · cases h
      exact .snapshot ⟨rfl, rfl⟩ rfl rfl rfl rfl (.inl rfl)
    · split at h <;> cases h
      · obtain ⟨next, ⟨htasks, hlock⟩, hruntime, htrace, hnone⟩ := posted_idles config _ i _ _ _
        exact .idle ⟨next, ⟨htasks, hlock⟩, hruntime, htrace, hnone⟩
      · exact .idle (posted_idles config worker i _ _ _)
  · cases h
    obtain ⟨next, ⟨htasks, hlock⟩, hruntime, htrace, hcredential, hinstalls⟩ := posted_idles config _ i _ _ _
    exact ⟨rfl, .refuse ⟨htasks, hlock⟩ hruntime htrace hcredential hinstalls rfl⟩
  · cases h

theorem stepSpool_credential {phase : Phase} {outcome : Outcome} (h : worker.stepSpool i phase outcome = some worker') :
    phase.locked = true ∧ CredentialStep config worker i phase worker' := by
  unfold Worker.stepSpool at h
  split at h <;> cases h <;> exact ⟨rfl, .idle ⟨_, ⟨rfl, rfl⟩, rfl, rfl, rfl, rfl⟩⟩

theorem stepReplay_credential {phase : Phase} {outcome : Outcome} (h : worker.stepReplay i phase outcome = some worker') :
    phase.locked = true ∧ CredentialStep config worker i phase worker' := by
  unfold Worker.stepReplay at h
  split at h
  case h_1 =>
    split at h <;> cases h
    exact ⟨rfl, .idle (finish_idles worker i _)⟩
  case h_3 =>
    obtain ⟨body, -, rfl⟩ := Option.map_eq_some_iff.mp h
    refine ⟨rfl, .idle ?_⟩
    split
    · exact finish_idles worker i _
    · exact replayNext_idles worker i _ _
  all_goals cases h
  all_goals exact ⟨rfl, .idle ⟨_, ⟨rfl, rfl⟩, rfl, rfl, rfl, rfl⟩⟩

theorem stepControl_credential {phase : Phase} {outcome : Outcome} (h : worker.stepControl i phase outcome = some worker') :
    phase.locked = true ∧ CredentialStep config worker i phase worker' ∨
      phase.locked = false ∧ ∃ reply, worker' = worker.goto i (.done (.ok reply)) := by
  unfold Worker.stepControl at h
  split at h <;> cases h
  · exact .inl ⟨rfl, .install ⟨rfl, rfl⟩ rfl rfl rfl rfl rfl⟩
  · exact .inl ⟨rfl, .clear ⟨rfl, rfl⟩ rfl rfl rfl rfl⟩
  · exact .inl ⟨rfl, .idle ⟨_, ⟨rfl, rfl⟩, rfl, rfl, rfl, rfl⟩⟩
  · exact .inl ⟨rfl, .idle (finish_idles worker i _)⟩
  · exact .inr ⟨rfl, _, rfl⟩

theorem locked_credential (worker : Worker) (i : Nat) (phase : Phase) (job : Job) :
    CredentialStep config worker i phase (worker.locked config i job) := by
  cases job with
  | deliver request => exact .idle (goto_idles worker i rfl rfl rfl)
  | replaySpool => exact .idle (goto_idles worker i rfl rfl rfl)
  | setManagedBearerAndReplay bearerToken audience =>
    simp only [Worker.locked]
    split
    · exact .idle (finish_idles worker i _)
    · next hcheck => exact .check ⟨rfl, rfl⟩ rfl rfl rfl rfl hcheck
  | clearManagedBearer =>
    simp only [Worker.locked]
    split
    · exact .idle (goto_idles worker i rfl rfl rfl)
    · exact .idle (finish_idles worker i _)
  | status => exact .idle (goto_idles worker i rfl rfl rfl)

/-- A task acts when it holds the lock, takes it when it is free, or reports without it. -/
theorem stepTask_credential {phase : Phase} {outcome : Outcome} (h : worker.stepTask config i phase outcome = some worker') :
    phase.locked = true ∧ CredentialStep config worker i phase worker' ∨
    phase.locked = false ∧ worker.lock = none ∧ CredentialStep config { worker with lock := some i } i phase worker' ∨
    phase.locked = false ∧ ∃ reply, worker' = worker.goto i (.done (.ok reply)) := by
  unfold Worker.stepTask at h
  split at h
  · next job =>
    split at h <;> cases h
    next hfree => exact .inr (.inl ⟨rfl, hfree, locked_credential _ i _ job⟩)
  · simp only [Option.or_eq_some_iff] at h
    rcases h with hpost | ⟨-, hspool | ⟨-, hreplay | ⟨-, hcontrol⟩⟩⟩
    · exact .inl (stepPost_credential hpost)
    · exact .inl (stepSpool_credential hspool)
    · exact .inl (stepReplay_credential hreplay)
    · rcases stepControl_credential hcontrol with hlocked | hreports
      · exact .inl hlocked
      · exact .inr (.inr hreports)

/-- A step of a task that is inside moves that task. -/
theorem CredentialStep.moves {phase : Phase} (h : CredentialStep config worker i phase worker') :
    ∃ next, Moves worker worker' i next := by
  cases h with
  | idle hidle =>
    obtain ⟨next, hmoves, -⟩ := hidle
    exact ⟨next, hmoves⟩
  | snapshot hmoves | send hmoves | refuse hmoves | check hmoves | install hmoves | clear hmoves => exact ⟨_, hmoves⟩

end Steps

section Exclusion

/-- Only the holder of the delivery lock is inside an operation. -/
def Exclusive (worker : Worker) : Prop :=
  ∀ (j : Nat) (phase : Phase), worker.tasks[j]? = some phase → phase.locked = true → worker.lock = some j

/-- The holder of the lock goes on, and no other task is inside. -/
theorem Exclusive.inside {next : Phase} (h : Exclusive worker) (hlock : worker.lock = some i) {j : Nat} {phase : Phase}
    (hphase : (worker.tasks.set i next)[j]? = some phase) (hlocked : phase.locked = true) : j = i ∧ phase = next := by
  rcases getElem?_set_cases hphase with hself | ⟨hj, hother⟩
  · exact hself
  · have hholder := h j phase hother hlocked
    rw [hlock] at hholder
    exact absurd (Option.some.inj hholder).symm hj

theorem Exclusive.moves {next : Phase} (h : Exclusive worker) (hlock : worker.lock = some i)
    (hmoves : Moves worker worker' i next) : Exclusive worker' := by
  intro j phase hphase hlocked
  rw [hmoves.tasks] at hphase
  obtain ⟨rfl, rfl⟩ := h.inside hlock hphase hlocked
  rw [hmoves.lock, hlocked, if_pos rfl, hlock]

/-- Taking the free lock. -/
theorem Exclusive.lock (h : Exclusive worker) (hfree : worker.lock = none) (i : Nat) :
    Exclusive { worker with lock := some i } := by
  intro j phase hphase hlocked
  have hholder := h j phase hphase hlocked
  rw [hfree] at hholder
  cases hholder

theorem begin_outside (operation : Operation Time) : (begin config operation).locked = false := by
  unfold begin
  split
  · split <;> rfl
  all_goals rfl

/-- A new task is outside, and one that has reported stays outside. -/
theorem inside_start {operation : Operation Time} {j : Nat} {phase : Phase}
    (hphase : (worker.tasks ++ [begin config operation])[j]? = some phase) (hlocked : phase.locked = true) :
    worker.tasks[j]? = some phase := by
  rw [List.getElem?_append] at hphase
  split at hphase
  · exact hphase
  · obtain rfl := List.mem_singleton.mp (List.mem_of_getElem? hphase)
    rw [begin_outside] at hlocked
    cases hlocked

theorem inside_report {result : Except DeliveryPluginError Reply} {j : Nat} {phase : Phase}
    (hphase : (worker.tasks.set i (.done result))[j]? = some phase) (hlocked : phase.locked = true) :
    worker.tasks[j]? = some phase := by
  rcases getElem?_set_cases hphase with ⟨-, rfl⟩ | ⟨-, hother⟩
  · cases hlocked
  · exact hother

theorem Exclusive.step {action : Action Time} (h : Exclusive worker) (hstep : worker.step config action = some worker') :
    Exclusive worker' := by
  cases action with
  | start operation =>
    cases hstep
    exact fun j phase hphase hlocked => h j phase (inside_start hphase hlocked) hlocked
  | task i outcome =>
    simp only [Worker.step, Option.bind_eq_bind, Option.bind_eq_some_iff] at hstep
    obtain ⟨phase, hphase, hstep⟩ := hstep
    rcases stepTask_credential hstep with ⟨hlocked, hcredential⟩ | ⟨-, hfree, hcredential⟩ | ⟨-, reply, rfl⟩
    · obtain ⟨next, hmoves⟩ := hcredential.moves
      exact h.moves (h i phase hphase hlocked) hmoves
    · obtain ⟨next, hmoves⟩ := hcredential.moves
      exact (h.lock hfree i).moves rfl hmoves
    · exact fun j phase hphase hlocked => h j phase (inside_report hphase hlocked) hlocked
  | crash credential =>
    cases hstep
    intro j phase hphase
    simp at hphase

/-- Along every schedule at most one task is inside an operation. -/
theorem exclusive_run (config : UploaderConfig Time) (credential : Str) {actions : List (Action Time)}
    (h : run (Worker.step config) (.initial config credential) actions = some worker) : Exclusive worker := by
  refine @run_invariant _ _ (Worker.step config) Exclusive (fun hinv hstep => hinv.step hstep) _ _ _ ?_ h
  intro j phase hphase
  simp [Worker.initial] at hphase

end Exclusion

end Abyss.Delivery
