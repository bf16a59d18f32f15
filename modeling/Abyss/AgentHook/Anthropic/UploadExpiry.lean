import Abyss.AgentHook.Anthropic.UploadCache
import Abyss.System.Machine

/-! Concurrent calls on the upload cache: clock readings, lock sections, and the age of what an
event takes. -/
namespace Abyss.AgentHook.Anthropic
open Abyss.Data Abyss.System

section Machine

/-- The shared context with the calls that have read the clock but not yet taken the lock. The
ghost list holds the capture time and the lookup time of everything attached so far. -/
structure ContextState where
  clock : Nat
  pending : List (ParsedUpload × Nat)
  cache : ClaudeWebUploadCache
  attached : List (Nat × Nat)

def ContextState.initial : ContextState := ⟨0, [], .empty, []⟩

inductive ContextStep where
  /-- Time passes. -/
  | tick (elapsed : Nat)
  /-- A `record_upload` reads the clock, before it takes the lock. -/
  | readClock (upload : ParsedUpload)
  /-- The lock section of a pending `record_upload`. -/
  | insert (call : Nat)
  /-- An `attach_referenced_images`, which reads the clock inside its lock section. -/
  | attach (parsed : ParsedClaudeWebExchange)

def ContextState.step (s : ContextState) : ContextStep → Option ContextState
  | .tick elapsed => some { s with clock := s.clock + elapsed }
  | .readClock upload => some { s with pending := s.pending ++ [(upload, s.clock)] }
  | .insert call => s.pending[call]?.map (fun (upload, now) =>
    { s with cache := recordUpload s.cache (some upload) now, pending := s.pending.eraseIdx call })
  | .attach parsed => some
    { s with
      cache := (attachReferencedImages s.cache parsed s.clock).1
      attached := s.attached ++
        (attachedUploads s.cache parsed s.clock).map (fun upload => (upload.2.capturedAt, s.clock)) }

/-- Whether an upload is as old as the TTL at a moment. -/
def Stale (capturedAt now : Nat) : Prop := capturedAt ≤ now ∧ uploadTtl ≤ now - capturedAt

/-- No upload was stale when it was attached. -/
def ContextState.Fresh (s : ContextState) : Prop := ∀ capture ∈ s.attached, ¬ Stale capture.1 capture.2

/-- A lock section inserts no upload older than another cached one. -/
def InCaptureOrder (s : ContextState) : ContextStep → Prop
  | .insert call => ∀ upload now, s.pending[call]? = some (upload, now) →
      ∀ key cached, key ≠ upload.key → s.cache.uploads.lookup key = some cached → cached.capturedAt ≤ now
  | _ => True

end Machine

section Order
open ClaudeWebUploadCache

/-- The queue is in the order of the capture times. -/
def Chronological (cache : ClaudeWebUploadCache) : Prop :=
  cache.insertionOrder.Pairwise (fun a b => ∀ first second, cache.uploads.lookup a = some first →
    cache.uploads.lookup b = some second → first.capturedAt ≤ second.capturedAt)

theorem Chronological.sub {cache cache' : ClaudeWebUploadCache} (h : Chronological cache) (hwithin : cache'.Within cache)
    (horder : cache'.insertionOrder.Sublist cache.insertionOrder) : Chronological cache' := by
  apply (h.sublist horder).imp
  intro a b hle first second hfirst hsecond
  exact hle first second (hwithin.lookup a first hfirst) (hwithin.lookup b second hsecond)

theorem Chronological.pruneExpired {cache : ClaudeWebUploadCache} (hcache : cache.Consistent) (h : Chronological cache)
    (now : Nat) : Chronological (cache.pruneExpired now) := by
  obtain ⟨_, hsuffix, hwithin, _⟩ := pruneExpired_spec hcache now
  exact h.sub hwithin hsuffix.sublist

theorem Chronological.insert {cache : ClaudeWebUploadCache} (hcache : cache.Bounded) (h : Chronological cache)
    {upload : ParsedUpload} {now : Nat} (hnewest : ∀ key cached, key ≠ upload.key →
      cache.uploads.lookup key = some cached → cached.capturedAt ≤ now) :
    Chronological (cache.insert upload now) := by
  obtain ⟨hforget, hkey, hwithin, horder⟩ := hcache.toConsistent.forget upload.key
  have hpush := hforget.pushBack hkey (Nat.le_trans hwithin.counter hcache.budget) now
  have hpushed : Chronological ((cache.forget upload.key).pushBack upload now) := by
    have hbefore : Chronological (cache.forget upload.key) := h.sub hwithin (by rw [horder]; exact List.filter_sublist)
    have hne : ∀ key ∈ (cache.forget upload.key).insertionOrder, key ≠ upload.key :=
      fun key hmem heq => hkey (heq ▸ (hforget.keys key).mp hmem)
    have hlookup : ∀ key, key ≠ upload.key → ((cache.forget upload.key).pushBack upload now).uploads.lookup key =
        (cache.forget upload.key).uploads.lookup key := fun key hkeyNe => AList.lookup_insert_ne hkeyNe
    change ((cache.forget upload.key).insertionOrder ++ [upload.key]).Pairwise _
    rw [List.pairwise_append]
    refine ⟨?_, List.pairwise_singleton _ _, ?_⟩
    · apply hbefore.imp_of_mem
      intro a b ha hb hle first second hfirst hsecond
      rw [hlookup a (hne a ha)] at hfirst
      rw [hlookup b (hne b hb)] at hsecond
      exact hle first second hfirst hsecond
    · intro a ha last hlast first second hfirst hsecond
      rw [List.mem_singleton] at hlast
      subst hlast
      rw [hlookup a (hne a ha)] at hfirst
      have hat : ((cache.forget upload.key).pushBack upload now).uploads.lookup upload.key = some ⟨upload.image, now⟩ :=
        AList.lookup_insert _
      obtain rfl := Option.some.inj (hat.symm.trans hsecond)
      exact hnewest a first (hne a ha) (hwithin.lookup a first hfirst)
  obtain ⟨_, hsuffix, hevicted, _⟩ := evictWhile_spec overCapacity _ hpush rfl
  exact hpushed.sub hevicted hsuffix.sublist

/-- With a chronological queue, pruning leaves nothing stale. -/
theorem Chronological.fresh {cache : ClaudeWebUploadCache} (hcache : cache.Consistent) (h : Chronological cache)
    {now : Nat} {key : UploadKey} {cached : CachedUpload}
    (hlookup : (cache.pruneExpired now).uploads.lookup key = some cached) : ¬ Stale cached.capturedAt now := by
  obtain ⟨hconsistent, _, _, hstop⟩ := pruneExpired_spec hcache now
  have hmem := (hconsistent.keys key).mpr (AList.lookup_isSome.mp (Option.isSome_of_eq_some hlookup))
  have hpruned := h.pruneExpired hcache now
  unfold Chronological at hpruned
  cases horder : (cache.pruneExpired now).insertionOrder with
  | nil =>
    rw [horder] at hmem
    cases hmem
  | cons front rest =>
    have hfrontMem := (hconsistent.keys front).mp (by rw [horder]; exact List.mem_cons_self)
    obtain ⟨oldest, holdest⟩ := Option.isSome_iff_exists.mp (AList.lookup_isSome.mpr hfrontMem)
    have hfresh : ¬ Stale oldest.capturedAt now := by
      have hexpired := hstop front rest horder
      simp only [expired, holdest, decide_eq_false_iff_not] at hexpired
      exact hexpired
    have hle : oldest.capturedAt ≤ cached.capturedAt := by
      rw [horder, List.pairwise_cons] at hpruned
      rw [horder, List.mem_cons] at hmem
      obtain rfl | hrest := hmem
      · rw [holdest] at hlookup
        exact Nat.le_of_eq (congrArg CachedUpload.capturedAt (Option.some.inj hlookup))
      · exact hpruned.1 key hrest oldest cached holdest hlookup
    unfold Stale at *
    omega

end Order

section Runs

/-- The cache is bounded and chronological, and nothing attached was stale. -/
structure ContextState.Orderly (s : ContextState) : Prop where
  bounded : s.cache.Bounded
  chronological : Chronological s.cache
  fresh : s.Fresh

theorem ContextState.Orderly.step {s s' : ContextState} {action : ContextStep} (hcondition : InCaptureOrder s action)
    (h : s.Orderly) (hstep : s.step action = some s') : s'.Orderly := by
  cases action with
  | tick elapsed =>
    cases hstep
    exact ⟨h.bounded, h.chronological, h.fresh⟩
  | readClock upload =>
    cases hstep
    exact ⟨h.bounded, h.chronological, h.fresh⟩
  | insert call =>
    obtain ⟨⟨upload, now⟩, hpending, rfl⟩ := Option.map_eq_some_iff.mp hstep
    have hpruned := h.bounded.pruneExpired now
    refine ⟨(hpruned.insert upload now).1, ?_, h.fresh⟩
    apply (h.chronological.pruneExpired h.bounded.toConsistent now).insert hpruned
    intro key cached hne hlookup
    obtain ⟨_, _, hwithin, _⟩ := ClaudeWebUploadCache.pruneExpired_spec h.bounded.toConsistent now
    exact hcondition upload now hpending key cached hne (hwithin.lookup key cached hlookup)
  | attach parsed =>
    cases hstep
    refine ⟨h.bounded.pruneExpired s.clock, h.chronological.pruneExpired h.bounded.toConsistent s.clock, ?_⟩
    intro capture hcapture
    obtain hbefore | hnow := List.mem_append.mp hcapture
    · exact h.fresh capture hbefore
    · obtain ⟨⟨fileUuid, cached⟩, hattached, rfl⟩ := List.mem_map.mp hnow
      have hreferenced := (selectUploads_sublist _ _ _ _).mem hattached
      exact h.chronological.fresh h.bounded.toConsistent (lookup_of_mem_referencedUploads hreferenced)

/-- In every run whose lock sections insert in capture order, nothing stale is attached. -/
theorem fresh_of_capture_order {actions : List ContextStep} {s : ContextState}
    (horder : Along ContextState.step InCaptureOrder .initial actions)
    (hrun : run ContextState.step .initial actions = some s) : s.Fresh := by
  have hinitial : ContextState.initial.Orderly := by
    refine ⟨(foldl_applyCall []).1, List.Pairwise.nil, fun capture hcapture => ?_⟩
    cases hcapture
  exact (run_invariant_along ContextState.Orderly.step hinitial horder hrun).fresh

end Runs

section Schedules

/-- A one-byte upload of the empty session. -/
def uploadNamed (fileUuid : Text.Str) : ParsedUpload := ⟨[], fileUuid, ⟨.png, [0], []⟩, by decide⟩

/-- One upload, recorded and taken while fresh. -/
def promptSchedule : List ContextStep :=
  [.readClock (uploadNamed ['a']), .insert 0, .tick 5, .attach ⟨[], [['a']], []⟩]

theorem fresh_of_capture_order_prompt :
    ∃ s, run ContextState.step .initial promptSchedule = some s ∧ s.attached = [(0, 5)] ∧ s.Fresh := by
  have hattached : (run ContextState.step .initial promptSchedule).map ContextState.attached = some [(0, 5)] := by
    decide
  obtain ⟨s, hrun, hs⟩ := Option.map_eq_some_iff.mp hattached
  refine ⟨s, hrun, hs, fresh_of_capture_order ?_ hrun⟩
  refine ⟨trivial, fun _ hread => ⟨?_, fun _ _ => ⟨trivial, fun _ _ => ⟨trivial, fun _ _ => trivial⟩⟩⟩⟩
  cases hread
  intro upload now _ key cached _ hlookup
  cases hlookup

/-- Two calls that read the clock in one order and take the lock in the other: the later insertion
is older and stays behind a front that is still fresh. -/
def crossedSchedule : List ContextStep :=
  [.readClock (uploadNamed ['a']), .tick 1, .readClock (uploadNamed ['b']), .insert 1, .insert 0,
    .tick (uploadTtl - 1), .attach ⟨[], [['a']], []⟩]

theorem stale_upload_attached :
    ∃ s, run ContextState.step .initial crossedSchedule = some s ∧ s.attached = [(0, uploadTtl)] ∧ ¬ s.Fresh := by
  have hattached : (run ContextState.step .initial crossedSchedule).map ContextState.attached =
      some [(0, uploadTtl)] := by
    decide
  obtain ⟨s, hrun, hs⟩ := Option.map_eq_some_iff.mp hattached
  refine ⟨s, hrun, hs, fun hfresh => hfresh (0, uploadTtl) (by rw [hs]; exact List.mem_singleton_self _) ?_⟩
  exact ⟨Nat.zero_le _, Nat.le_refl _⟩

end Schedules

end Abyss.AgentHook.Anthropic
