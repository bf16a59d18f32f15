import Abyss.AgentHook.OpenAi.Responses.WebSocketTurnContent

/-! Messages that the hook queue drops: the exchanges of a connection with and without them. -/
namespace Abyss.AgentHook.OpenAi
open Abyss.Text Abyss.PluginProtocol Abyss.Mitm.WebSocket Abyss.Data

section Open

/-- The frames of a connection's open turn and the time of the last one. -/
structure OpenTurn where
  frames : List OpenAiWebSocketFrame
  updatedAt : Nat

namespace OpenTurn

def empty : OpenTurn := ⟨[], 0⟩

/-- The frames that are not too old at the next push. -/
def kept (turn : OpenTurn) (now : Nat) : List OpenAiWebSocketFrame :=
  if now - turn.updatedAt ≤ pendingTurnTtl then turn.frames else []

/-- A frame that is not irrelevant continues the turn or ends it. -/
def push (turn : OpenTurn) (now : Nat) : OpenAiWebSocketFrame → OpenTurn
  | .irrelevant => turn
  | frame => ⟨afterFrame (turn.kept now) frame, now⟩

theorem push_relevant (turn : OpenTurn) (now : Nat) {frame : OpenAiWebSocketFrame} (h : frame ≠ .irrelevant) :
    turn.push now frame = ⟨afterFrame (turn.kept now) frame, now⟩ := by
  cases frame with
  | irrelevant => exact absurd rfl h
  | _ => rfl

/-- The open turn after all arrivals of a connection. -/
def after (arrivals : List Arrival) : OpenTurn := arrivals.foldl (fun turn a => turn.push a.now a.frame) .empty

/-- The accumulator holds exactly the open turn of a connection. -/
def Held (pending : PendingTurns) (flowId : Str) (turn : OpenTurn) : Prop :=
  match pending.lookup flowId with
  | none => turn.frames = []
  | some held => timeless held = turnOf turn.frames ∧ held.updatedAt = turn.updatedAt ∧ turn.frames.any endsTurn = false

theorem Held.tracks {pending : PendingTurns} {flowId : Str} {turn : OpenTurn} (h : Held pending flowId turn) :
    Tracks pending flowId turn.frames := by
  unfold Held at h
  cases hlookup : pending.lookup flowId with
  | none =>
    rw [hlookup] at h
    rw [h]
    exact tracks_of_lookup_none hlookup
  | some held =>
    rw [hlookup] at h
    refine ⟨?_, h.2.2⟩
    rw [hlookup]
    exact h.1

/-- What is left of the turn at the next push. -/
theorem Held.retained {pending : PendingTurns} {flowId : Str} {turn : OpenTurn} (h : Held pending flowId turn)
    (now : Nat) : Tracks (OpenAi.retained now pending) flowId (turn.kept now) := by
  have htracks := h.tracks
  have hlookup := HashMap.lookup_retain (fun held : PendingTurn => decide (now - held.updatedAt ≤ pendingTurnTtl))
    pending flowId
  change (OpenAi.retained now pending).lookup flowId = _ at hlookup
  unfold Held at h
  cases hpending : pending.lookup flowId with
  | none =>
    rw [hpending] at h hlookup
    have hkept : turn.kept now = [] := by
      rw [kept, h]
      split <;> rfl
    rw [hkept]
    exact tracks_of_lookup_none hlookup
  | some held =>
    rw [hpending] at h hlookup
    rw [Option.filter_some, h.2.1] at hlookup
    rw [kept]
    split
    · next hyoung =>
      rw [if_pos (decide_eq_true hyoung)] at hlookup
      exact tracks_of_lookup_eq htracks (hlookup.trans hpending.symm)
    · next hold =>
      rw [if_neg (by simpa using hold)] at hlookup
      exact tracks_of_lookup_none hlookup

/-- The turn that a push leaves behind was updated by it. -/
theorem updatedAt_push {rank : Str → Nat} {now : Nat} {flowId : Str} {frame : OpenAiWebSocketFrame}
    {pending : PendingTurns} (hframe : frame ≠ .irrelevant) {held : PendingTurn}
    (h : (OpenAi.push rank now flowId frame pending).2.lookup flowId = some held) : held.updatedAt = now := by
  rw [OpenAi.push_relevant hframe] at h
  dsimp only at h
  split at h
  · rw [AList.lookup_erase] at h
    cases h
  · rw [AList.lookup_insert] at h
    obtain rfl := Option.some.inj h
    rfl

/-- One push to a connection that nothing else evicts. -/
theorem Held.push {pending : PendingTurns} {turn : OpenTurn} {a : Arrival} (h : Held pending a.flowId turn) :
    (a.frame ≠ .irrelevant →
      (OpenAi.push a.rank a.now a.flowId a.frame pending).1 = returned (turn.kept a.now) a.frame) ∧
    Held (OpenAi.push a.rank a.now a.flowId a.frame pending).2 a.flowId (turn.push a.now a.frame) := by
  by_cases hframe : a.frame = .irrelevant
  · refine ⟨fun hne => absurd hframe hne, ?_⟩
    rw [hframe]
    exact h
  · obtain ⟨hreturned, hnext⟩ := @push_own a.rank a.now a.flowId a.frame pending (turn.kept a.now)
      (fun heq => absurd heq hframe) (fun _ => h.retained a.now)
    refine ⟨fun _ => hreturned, ?_⟩
    rw [push_relevant turn a.now hframe]
    unfold Held
    have hturn := hnext.turn
    cases hlookup : (OpenAi.push a.rank a.now a.flowId a.frame pending).2.lookup a.flowId with
    | none =>
      -- only a frame that ends the turn leaves nothing behind
      rw [OpenAi.push_relevant hframe] at hlookup
      dsimp only at hlookup
      split at hlookup
      · next hterminal =>
        change afterFrame (turn.kept a.now) a.frame = []
        have hsome := returned_isSome (turn.kept a.now) a.frame
        rw [← hreturned, OpenAi.push_relevant hframe] at hsome
        dsimp only at hsome
        rw [if_pos hterminal] at hsome
        cases hends : endsTurn a.frame with
        | true => rw [afterFrame, if_pos hends]
        | false =>
          rw [hends] at hsome
          unfold PendingTurn.complete at hsome
          rw [Option.isSome_map] at hsome
          obtain ⟨exchange, hexchange, -⟩ := (Option.any_eq_true ..).mp hterminal
          rw [hexchange] at hsome
          cases hsome
      · rw [AList.lookup_insert] at hlookup
        cases hlookup
    | some held =>
      rw [hlookup] at hturn
      exact ⟨hturn, updatedAt_push hframe hlookup, hnext.unfinished⟩

end OpenTurn
end Open

section Parsed
variable (env : FrameDecoding)

end Parsed

section Drops
variable (env : FrameDecoding)

/-- A message offered to the hook queue, which may drop it. -/
structure Offered extends Sent where
  dropped : Bool

/-- The messages that the queue takes. -/
def taken (offered : List Offered) : List Offered := offered.filter (!·.dropped)

def arrivals (offered : List Offered) : List Arrival := offered.map (·.toSent.arrival env)

/-- The client frames carry the same entries, unless there are none or one cannot be decoded. -/
def SameRequest (frames whole : List OpenAiWebSocketFrame) : Prop :=
  clientRequests frames = [] ∨ .undecodable .clientToServer ∈ frames ∨ clientEntries frames = clientEntries whole

variable {front : List Offered} {last : Offered}

end Drops

section Irrelevant
variable (env : FrameDecoding)

end Irrelevant

section Sample

private def offer (dropped : Bool) (message : FrameMessage) : Offered := ⟨⟨fun _ => 0, 0, message⟩, dropped⟩

private def prompt : FrameMessage := sampleMessage .clientToServer 0
  "\x7b\"type\":\"response.create\",\"input\":\"hi\"\x7d"

private def firstDelta : FrameMessage := sampleMessage .serverToClient 1
  "\x7b\"type\":\"response.output_text.delta\",\"item_id\":\"msg-1\",\"output_index\":0,\"content_index\":0,\"delta\":\"Hel\"\x7d"

private def keepalive : FrameMessage := sampleMessage .serverToClient 3 "\x7b\"type\":\"keepalive\"\x7d"

private def ended : FrameMessage := sampleMessage .serverToClient 4 "\x7b\"type\":\"response.completed\"\x7d"

private def quiet : List Offered := [offer false prompt, offer false firstDelta, offer true keepalive, offer false ended]

end Sample
end Abyss.AgentHook.OpenAi
