import Abyss.AgentHook.OpenAi.Responses.WebSocket
import Abyss.Data.SplitAfter

/-! The pending turns of a WebSocket accumulator as functions of the frames that each flow sent. -/
namespace Abyss.AgentHook.OpenAi
open Abyss.Text Abyss.PluginProtocol Abyss.Mitm.WebSocket Abyss.Data

section Run

/-- One call of `push`, with its clock reading and the iteration order of the hash map. -/
structure Arrival where
  rank : Str → Nat
  now : Nat
  flowId : Str
  frame : OpenAiWebSocketFrame

/-- The accumulator with everything it has returned. -/
structure Observed where
  pending : PendingTurns
  completed : List (Str × ParsedOpenAiExchange)

def Observed.push (observed : Observed) (a : Arrival) : Observed where
  pending := (OpenAi.push a.rank a.now a.flowId a.frame observed.pending).2
  completed := observed.completed ++
    ((OpenAi.push a.rank a.now a.flowId a.frame observed.pending).1.map (a.flowId, ·)).toList

def observe (arrivals : List Arrival) : Observed := arrivals.foldl Observed.push ⟨∅, []⟩

/-- The frames that arrived on one flow. -/
def framesOf (flowId : Str) (arrivals : List Arrival) : List OpenAiWebSocketFrame :=
  (arrivals.filter (fun a => a.flowId = flowId)).map (·.frame)

/-- The exchanges completed for one flow. -/
def completions (flowId : Str) (arrivals : List Arrival) : List ParsedOpenAiExchange :=
  ((observe arrivals).completed.filter (fun c => c.1 = flowId)).map (·.2)

theorem observe_append (arrivals : List Arrival) (a : Arrival) :
    observe (arrivals ++ [a]) = (observe arrivals).push a := by
  rw [observe, List.foldl_append]
  rfl

theorem framesOf_append (flowId : Str) (arrivals : List Arrival) (a : Arrival) : framesOf flowId (arrivals ++ [a]) =
    if a.flowId = flowId then framesOf flowId arrivals ++ [a.frame] else framesOf flowId arrivals := by
  rw [framesOf, List.filter_append, List.map_append]
  by_cases h : a.flowId = flowId
  · rw [if_pos h, List.filter_singleton, decide_eq_true h]
    rfl
  · rw [if_neg h, List.filter_singleton, decide_eq_false h]
    exact List.append_nil _

theorem completions_append (flowId : Str) (arrivals : List Arrival) (a : Arrival) :
    completions flowId (arrivals ++ [a]) = completions flowId arrivals ++
      if a.flowId = flowId then (OpenAi.push a.rank a.now a.flowId a.frame (observe arrivals).pending).1.toList else [] := by
  rw [completions, observe_append, Observed.push, List.filter_append, List.map_append, completions]
  congr 1
  cases (OpenAi.push a.rank a.now a.flowId a.frame (observe arrivals).pending).1 with
  | none => simp
  | some exchange => by_cases h : a.flowId = flowId <;> simp [h]

end Run

section Turn

/-- Whether a frame carries a terminal event type. -/
def endsTurn : OpenAiWebSocketFrame → Bool
  | .request exchange => isTerminalResponse exchange
  | .response response => isTerminalResponse response.exchange
  | .irrelevant | .undecodable _ => false

/-- The turn that a list of frames amounts to. -/
def turnOf (frames : List OpenAiWebSocketFrame) : PendingTurn := frames.foldl PendingTurn.record (.new 0)

/-- A turn without its clock reading. -/
def timeless (turn : PendingTurn) : PendingTurn := { turn with updatedAt := 0 }

theorem turnOf_append (frames : List OpenAiWebSocketFrame) (frame : OpenAiWebSocketFrame) :
    turnOf (frames ++ [frame]) = (turnOf frames).record frame := by
  rw [turnOf, List.foldl_append]
  rfl

theorem timeless_bufferResponseDocument (turn : PendingTurn) (document : Json) (byteLen : Nat) :
    timeless (turn.bufferResponseDocument document byteLen) = (timeless turn).bufferResponseDocument document byteLen := by
  change _ = if turn.responseOverflowed then _ else
    if maxResponseDocuments ≤ turn.responseDocuments.length ∨
      maxResponseDocumentBytes < turn.responseDocumentBytes + byteLen then _ else _
  unfold PendingTurn.bufferResponseDocument
  split
  · rfl
  · split <;> rfl

theorem timeless_record (turn : PendingTurn) (frame : OpenAiWebSocketFrame) :
    timeless (turn.record frame) = (timeless turn).record frame := by
  cases frame with
  | request exchange => rfl
  | response response =>
    rw [PendingTurn.record, PendingTurn.record, ← timeless_bufferResponseDocument]
    rfl
  | irrelevant => rfl
  | undecodable direction => cases direction <;> rfl

theorem complete_timeless (turn : PendingTurn) : (timeless turn).complete = turn.complete := rfl

theorem any_appendUnique (p : Str → Bool) (target source : List Str) :
    (appendUnique target source).any p = (target.any p || source.any p) := by
  induction source generalizing target with
  | nil => simp [appendUnique]
  | cons value source ih =>
    have hstep : appendUnique target (value :: source) =
        appendUnique (if value ∈ target then target else target ++ [value]) source := rfl
    rw [hstep, ih, List.any_cons]
    split
    · rename_i hmem
      cases hvalue : p value with
      | false => rfl
      | true =>
        have hany : target.any p = true := List.any_eq_true.mpr ⟨value, hmem, hvalue⟩
        rw [hany, Bool.true_or, Bool.true_or]
    · rw [List.any_append, List.any_cons, List.any_nil, Bool.or_false, Bool.or_assoc]

theorem mergeExchange_terminal (turn : PendingTurn) (next : ParsedOpenAiExchange) (identifiesTurn : Bool) :
    (turn.mergeExchange next identifiesTurn).exchange.any isTerminalResponse =
      (turn.exchange.any isTerminalResponse || isTerminalResponse next) := by
  unfold PendingTurn.mergeExchange
  cases turn.exchange with
  | none => rfl
  | some current => exact any_appendUnique isTerminalEvent current.eventTypes next.eventTypes

theorem exchange_bufferResponseDocument (turn : PendingTurn) (document : Json) (byteLen : Nat) :
    (turn.bufferResponseDocument document byteLen).exchange = turn.exchange := by
  unfold PendingTurn.bufferResponseDocument
  split
  · rfl
  · split <;> rfl

/-- A turn becomes terminal exactly with a frame that carries a terminal event type. -/
theorem record_terminal (turn : PendingTurn) (frame : OpenAiWebSocketFrame) :
    (turn.record frame).exchange.any isTerminalResponse =
      (turn.exchange.any isTerminalResponse || endsTurn frame) := by
  cases frame with
  | request exchange =>
    rw [PendingTurn.record, mergeExchange_terminal]
    rfl
  | response response =>
    rw [PendingTurn.record, mergeExchange_terminal, exchange_bufferResponseDocument]
    rfl
  | irrelevant => exact (Bool.or_false _).symm
  | undecodable direction => cases direction <;> exact (Bool.or_false _).symm

theorem turnOf_terminal (frames : List OpenAiWebSocketFrame) :
    (turnOf frames).exchange.any isTerminalResponse = frames.any endsTurn := by
  induction frames using List.reverseRecOn with
  | nil => rfl
  | append_singleton frames frame ih =>
    rw [turnOf_append, record_terminal, ih, List.any_append, List.any_cons, List.any_nil, Bool.or_false]

/-- A turn with a frame that ends it completes. -/
theorem complete_isSome {frames : List OpenAiWebSocketFrame} (h : frames.any endsTurn = true) :
    (turnOf frames).complete.isSome = true := by
  rw [← turnOf_terminal] at h
  cases hexchange : (turnOf frames).exchange with
  | none =>
    rw [hexchange] at h
    cases h
  | some exchange =>
    rw [PendingTurn.complete, hexchange]
    rfl

end Turn

section Push
variable {rank : Str → Nat} {now : Nat} {flowId : Str} {frame : OpenAiWebSocketFrame} {pending : PendingTurns}

/-- The turns that are young enough to be kept. -/
def retained (now : Nat) (pending : PendingTurns) : PendingTurns :=
  pending.retain (fun turn => now - turn.updatedAt ≤ pendingTurnTtl)

theorem push_relevant (hframe : frame ≠ .irrelevant) : push rank now flowId frame pending =
    let turn := (((retained now pending).lookup flowId).getD (.new now)).record frame
    if turn.exchange.any isTerminalResponse then (turn.complete, (retained now pending).erase flowId)
    else (none, (makeRoom rank ((retained now pending).erase flowId)).insert flowId { turn with updatedAt := now }) := by
  cases frame with
  | irrelevant => exact absurd rfl hframe
  | _ => rfl

theorem oldest_mem {victim : Str} (h : oldest rank pending = some victim) : victim ∈ pending := by
  obtain ⟨entry, hentry, rfl⟩ := Option.map_eq_some_iff.mp h
  exact List.mem_map_of_mem (List.argmin_mem hentry)

theorem size_makeRoom (h : pending.size ≤ maxPendingTurns) : (makeRoom rank pending).size < maxPendingTurns := by
  unfold makeRoom
  split
  · rename_i hfull
    split
    · rename_i victim hvictim
      have hsize := HashMap.size_erase (oldest_mem hvictim)
      change HashMap.size (pending.erase victim) < maxPendingTurns
      omega
    · rename_i hnone
      rw [oldest, Option.map_eq_none_iff, List.argmin_eq_none] at hnone
      rw [HashMap.size, hnone] at hfull
      cases hfull
  · omega

theorem lookup_makeRoom (pending : PendingTurns) (rank : Str → Nat) (other : Str) :
    (makeRoom rank pending).lookup other = none ∨ (makeRoom rank pending).lookup other = pending.lookup other := by
  unfold makeRoom
  split
  · split
    · rename_i victim _
      by_cases h : other = victim
      · rw [h, AList.lookup_erase]
        exact .inl rfl
      · rw [AList.lookup_erase_ne h]
        exact .inr rfl
    · exact .inr rfl
  · exact .inr rfl

theorem lookup_retained (now : Nat) (pending : PendingTurns) (other : Str) :
    (retained now pending).lookup other = none ∨ (retained now pending).lookup other = pending.lookup other := by
  rw [retained, HashMap.lookup_retain]
  cases pending.lookup other with
  | none => exact .inl rfl
  | some turn =>
    rw [Option.filter_some]
    split
    · exact .inr rfl
    · exact .inl rfl

/-- At most `maxPendingTurns` turns stay pending. -/
theorem size_push (h : pending.size ≤ maxPendingTurns) :
    (push rank now flowId frame pending).2.size ≤ maxPendingTurns := by
  by_cases hframe : frame = .irrelevant
  · rw [hframe]
    exact h
  · have herased : HashMap.size ((retained now pending).erase flowId) ≤ maxPendingTurns :=
      (HashMap.size_erase_le _ _).trans ((HashMap.size_retain_le _ _).trans h)
    rw [push_relevant hframe]
    dsimp only
    split
    · exact herased
    · exact HashMap.size_insert_le.trans (size_makeRoom herased)

/-- A push leaves the turn of another flow alone or drops it. -/
theorem lookup_push_other {other : Str} (hother : other ≠ flowId) :
    (push rank now flowId frame pending).2.lookup other = none ∨
      (push rank now flowId frame pending).2.lookup other = pending.lookup other := by
  by_cases hframe : frame = .irrelevant
  · rw [hframe]
    exact .inr rfl
  · rw [push_relevant hframe]
    dsimp only
    split
    · rw [AList.lookup_erase_ne hother]
      exact lookup_retained now pending other
    · rw [AList.lookup_insert_ne hother]
      obtain hroom | hroom := lookup_makeRoom ((retained now pending).erase flowId) rank other
      · exact .inl hroom
      · rw [hroom, AList.lookup_erase_ne hother]
        exact lookup_retained now pending other

/-- The pending turn of a flow is what the frames since it was opened amount to. -/
structure Tracks (pending : PendingTurns) (flowId : Str) (frames : List OpenAiWebSocketFrame) : Prop where
  turn : timeless ((pending.lookup flowId).getD (.new 0)) = turnOf frames
  unfinished : frames.any endsTurn = false

theorem tracks_of_lookup_none (h : pending.lookup flowId = none) : Tracks pending flowId [] := by
  refine ⟨?_, rfl⟩
  rw [h]
  rfl

/-- A frame that ends the turn takes it out, and any other one is recorded. -/
theorem push_tracks {frames : List OpenAiWebSocketFrame} (hframe : frame ≠ .irrelevant)
    (h : Tracks (retained now pending) flowId frames) :
    (endsTurn frame = true → (push rank now flowId frame pending).1 = (turnOf (frames ++ [frame])).complete ∧
      Tracks (push rank now flowId frame pending).2 flowId []) ∧
    (endsTurn frame = false → (push rank now flowId frame pending).1 = none ∧
      Tracks (push rank now flowId frame pending).2 flowId (frames ++ [frame])) := by
  have hopen : timeless (((retained now pending).lookup flowId).getD (.new now)) = turnOf frames := by
    rw [← h.turn]
    cases (retained now pending).lookup flowId <;> rfl
  have hturn : timeless ((((retained now pending).lookup flowId).getD (.new now)).record frame) =
      turnOf (frames ++ [frame]) := by
    rw [timeless_record, hopen, turnOf_append]
  have hterminal : ((((retained now pending).lookup flowId).getD (.new now)).record frame).exchange.any
      isTerminalResponse = endsTurn frame := by
    change (timeless _).exchange.any isTerminalResponse = _
    rw [hturn, turnOf_terminal, List.any_append, h.unfinished, List.any_cons, List.any_nil, Bool.or_false,
      Bool.false_or]
  rw [push_relevant hframe]
  dsimp only
  rw [hterminal]
  constructor
  · intro hends
    rw [if_pos hends]
    refine ⟨?_, tracks_of_lookup_none (AList.lookup_erase _ _)⟩
    rw [← hturn, complete_timeless]
  · intro hends
    rw [if_neg (Bool.eq_false_iff.mp hends)]
    refine ⟨rfl, ?_, ?_⟩
    · rw [AList.lookup_insert]
      exact hturn
    · rw [List.any_append, h.unfinished, List.any_cons, hends]
      rfl

/-- What the frames of a turn amount to after one more frame of its flow. -/
def afterFrame (frames : List OpenAiWebSocketFrame) (frame : OpenAiWebSocketFrame) : List OpenAiWebSocketFrame :=
  if endsTurn frame then [] else frames ++ [frame]

/-- What a flow gets back for a frame that comes after the frames of its open turn. -/
def returned (frames : List OpenAiWebSocketFrame) (frame : OpenAiWebSocketFrame) : Option ParsedOpenAiExchange :=
  if endsTurn frame then (turnOf (frames ++ [frame])).complete else none

theorem push_own {frames : List OpenAiWebSocketFrame} (hsame : frame = .irrelevant → Tracks pending flowId frames)
    (hretained : frame ≠ .irrelevant → Tracks (retained now pending) flowId frames) :
    (push rank now flowId frame pending).1 = returned frames frame ∧
      Tracks (push rank now flowId frame pending).2 flowId (afterFrame frames frame) := by
  by_cases hframe : frame = .irrelevant
  · have h := hsame hframe
    subst hframe
    refine ⟨rfl, ?_, ?_⟩
    · rw [afterFrame, if_neg (by simp [endsTurn]), turnOf_append]
      exact h.turn
    · rw [afterFrame, if_neg (by simp [endsTurn]), List.any_append, h.unfinished]
      rfl
  · obtain ⟨hends, hopen⟩ := push_tracks hframe (hretained hframe)
    cases hend : endsTurn frame with
    | true =>
      rw [returned, if_pos hend, afterFrame, if_pos hend]
      exact hends hend
    | false =>
      rw [returned, if_neg (Bool.eq_false_iff.mp hend), afterFrame, if_neg (Bool.eq_false_iff.mp hend)]
      exact hopen hend

end Push

section Runs

theorem tracks_of_lookup_eq {pending pending' : PendingTurns} {flowId : Str} {frames : List OpenAiWebSocketFrame}
    (h : Tracks pending flowId frames) (hlookup : pending'.lookup flowId = pending.lookup flowId) :
    Tracks pending' flowId frames := by
  refine ⟨?_, h.unfinished⟩
  rw [hlookup]
  exact h.turn

/-- A turn that may have been dropped is that of all its frames or of none. -/
theorem tracks_or_dropped {pending pending' : PendingTurns} {flowId : Str} {frames : List OpenAiWebSocketFrame}
    (h : Tracks pending flowId frames)
    (hlookup : pending'.lookup flowId = none ∨ pending'.lookup flowId = pending.lookup flowId) :
    ∃ kept, kept <:+ frames ∧ Tracks pending' flowId kept := by
  obtain hnone | hsame := hlookup
  · exact ⟨[], List.nil_suffix, tracks_of_lookup_none hnone⟩
  · exact ⟨frames, List.suffix_rfl, tracks_of_lookup_eq h hsame⟩

private theorem push_from {pending : PendingTurns} {a : Arrival} {frames : List OpenAiWebSocketFrame}
    (h : Tracks pending a.flowId frames) :
    ∃ kept, kept <:+ frames ∧ kept.any endsTurn = false ∧
      (push a.rank a.now a.flowId a.frame pending).1 = returned kept a.frame ∧
      Tracks (push a.rank a.now a.flowId a.frame pending).2 a.flowId (afterFrame kept a.frame) := by
  by_cases hframe : a.frame = .irrelevant
  · exact ⟨frames, List.suffix_rfl, h.unfinished, push_own (fun _ => h) (fun hne => absurd hframe hne)⟩
  · obtain ⟨kept, hkept, hretained⟩ := tracks_or_dropped h (lookup_retained a.now pending a.flowId)
    exact ⟨kept, hkept, hretained.unfinished, push_own (fun heq => absurd heq hframe) (fun _ => hretained)⟩

private theorem afterFrame_suffix {kept frames : List OpenAiWebSocketFrame} (h : kept <:+ frames)
    (frame : OpenAiWebSocketFrame) : afterFrame kept frame <:+ frames ++ [frame] := by
  obtain ⟨front, rfl⟩ := h
  unfold afterFrame
  split
  · exact List.nil_suffix
  · exact ⟨front, by rw [List.append_assoc]⟩

/-- In every run, the pending turn of a flow amounts to the last frames of the flow. -/
theorem tracks_suffix (arrivals : List Arrival) (flowId : Str) :
    ∃ frames, frames <:+ framesOf flowId arrivals ∧ Tracks (observe arrivals).pending flowId frames := by
  induction arrivals using List.reverseRecOn with
  | nil => exact ⟨[], List.nil_suffix, tracks_of_lookup_none rfl⟩
  | append_singleton arrivals a ih =>
    obtain ⟨frames, hframes, htracks⟩ := ih
    rw [framesOf_append, observe_append]
    by_cases hflow : a.flowId = flowId
    · subst hflow
      obtain ⟨kept, hkept, _, _, hnext⟩ := push_from htracks
      rw [if_pos rfl]
      exact ⟨_, afterFrame_suffix (hkept.trans hframes) a.frame, hnext⟩
    · rw [if_neg hflow]
      obtain ⟨kept, hkept, hnext⟩ := tracks_or_dropped htracks
        (@lookup_push_other a.rank a.now a.flowId a.frame _ flowId (Ne.symm hflow))
      exact ⟨kept, hkept.trans hframes, hnext⟩

/-- In every run, what a push returns is computed from the last frames of its flow, and is there
exactly for a frame that ends a turn. -/
theorem push_returns (arrivals : List Arrival) (a : Arrival) :
    ∃ frames, frames <:+ framesOf a.flowId arrivals ∧ frames.any endsTurn = false ∧
      (push a.rank a.now a.flowId a.frame (observe arrivals).pending).1 = returned frames a.frame := by
  obtain ⟨frames, hframes, htracks⟩ := tracks_suffix arrivals a.flowId
  obtain ⟨kept, hkept, hopen, hreturned, _⟩ := push_from htracks
  exact ⟨kept, hkept.trans hframes, hopen, hreturned⟩

theorem returned_isSome (frames : List OpenAiWebSocketFrame) (frame : OpenAiWebSocketFrame) :
    (returned frames frame).isSome = endsTurn frame := by
  unfold returned
  split
  · rename_i hends
    rw [hends]
    exact complete_isSome (by rw [List.any_append, List.any_cons, hends, Bool.true_or, Bool.or_true])
  · rename_i hopen
    exact (Bool.eq_false_iff.mpr hopen).symm

/-- Whether a push leaves a flow's pending turn in the map until the flow itself ends it. -/
def KeepsTurn (flowId : Str) (pending : PendingTurns) (a : Arrival) : Prop :=
  if a.flowId = flowId then
    a.frame ≠ .irrelevant → (retained a.now pending).lookup flowId = pending.lookup flowId
  else (push a.rank a.now a.flowId a.frame pending).2.lookup flowId = pending.lookup flowId

/-- No push of a run drops the pending turn of a flow. -/
def NeverEvicts (flowId : Str) (arrivals : List Arrival) : Prop :=
  ∀ front a back, arrivals = front ++ a :: back → KeepsTurn flowId (observe front).pending a

theorem NeverEvicts.front {flowId : Str} {arrivals : List Arrival} {a : Arrival}
    (h : NeverEvicts flowId (arrivals ++ [a])) : NeverEvicts flowId arrivals := by
  intro front b back heq
  apply h front b (back ++ [a])
  rw [heq, List.append_assoc, List.cons_append]

/-- Without eviction, the open turn and the completed exchanges of a flow are functions of its own
frames. -/
theorem isolated {flowId : Str} {arrivals : List Arrival} (h : NeverEvicts flowId arrivals) :
    Tracks (observe arrivals).pending flowId (openSegment endsTurn (framesOf flowId arrivals)) ∧
      (completions flowId arrivals).map some =
        (segments endsTurn (framesOf flowId arrivals)).map (fun frames => (turnOf frames).complete) := by
  induction arrivals using List.reverseRecOn with
  | nil => exact ⟨tracks_of_lookup_none rfl, rfl⟩
  | append_singleton arrivals a ih =>
    obtain ⟨htracks, hcompleted⟩ := ih h.front
    have hkeeps := h arrivals a [] rfl
    rw [completions_append, framesOf_append, observe_append]
    by_cases hflow : a.flowId = flowId
    · subst hflow
      rw [KeepsTurn, if_pos rfl] at hkeeps
      obtain ⟨hreturned, hnext⟩ := @push_own a.rank _ _ _ _ _ (fun _ => htracks)
        (fun hrelevant => tracks_of_lookup_eq htracks (hkeeps hrelevant))
      rw [if_pos rfl, if_pos rfl, hreturned, openSegment_append_singleton, segments_append_singleton]
      refine ⟨hnext, ?_⟩
      have hsome := returned_isSome (openSegment endsTurn (framesOf a.flowId arrivals)) a.frame
      rw [List.map_append, hcompleted]
      split
      · rename_i hends
        rw [hends, returned, if_pos hends] at hsome
        obtain ⟨exchange, hexchange⟩ := Option.isSome_iff_exists.mp hsome
        rw [returned, if_pos hends, List.map_append, List.map_singleton, hexchange]
        rfl
      · rename_i hopen
        rw [returned, if_neg hopen]
        exact List.append_nil _
    · rw [if_neg hflow, if_neg hflow, List.append_nil]
      rw [KeepsTurn, if_neg hflow] at hkeeps
      exact ⟨tracks_of_lookup_eq htracks hkeeps, hcompleted⟩

end Runs
end Abyss.AgentHook.OpenAi
