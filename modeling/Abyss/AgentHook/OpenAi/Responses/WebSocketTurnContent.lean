import Abyss.AgentHook.OpenAi.Responses.WebSocketPrewarm

/-! What a completed turn shows of its frames, and which frames make up the open turn of a
connection that is alone in the accumulator. -/
namespace Abyss.AgentHook.OpenAi
open Abyss.Text Abyss.PluginProtocol Abyss.Mitm.WebSocket Abyss.Data

section Client

/-- The decoded client frames of a turn, in arrival order. -/
def clientRequests (frames : List OpenAiWebSocketFrame) : List ParsedOpenAiExchange :=
  frames.filterMap fun
    | .request exchange => some exchange
    | _ => none

/-- The entries that the client frames carry. -/
def clientEntries (frames : List OpenAiWebSocketFrame) : List ConversationEntry :=
  (clientRequests frames).flatMap (·.requestConversation.entries)

end Client

section Server

/-- The first server frames that fit into what is left of the buffer budget. -/
def withinBudget (documents bytes : Nat) : List OpenAiWebSocketResponse → List OpenAiWebSocketResponse
  | [] => []
  | response :: rest =>
    if maxResponseDocuments ≤ documents ∨ maxResponseDocumentBytes < bytes + response.byteLen then []
    else response :: withinBudget (documents + 1) (bytes + response.byteLen) rest

theorem serverResponses_concat (frames : List OpenAiWebSocketFrame) (frame : OpenAiWebSocketFrame) :
    serverResponses (frames ++ [frame]) = serverResponses frames ++ serverResponses [frame] :=
  List.filterMap_append

/-- The buffer of a turn holds the first server documents of its frames that fit. -/
structure Buffers (frames : List OpenAiWebSocketFrame) (turn : PendingTurn) : Prop where
  documents : turn.responseDocuments = (withinBudget 0 0 (serverResponses frames)).map (·.document)
  bytes : turn.responseOverflowed = false →
    turn.responseDocumentBytes = ((serverResponses frames).map (·.byteLen)).sum
  overflowed : turn.responseOverflowed = false ↔
    (withinBudget 0 0 (serverResponses frames)).length = (serverResponses frames).length

theorem Buffers.keep {frames : List OpenAiWebSocketFrame} {turn turn' : PendingTurn} (h : Buffers frames turn)
    {frame : OpenAiWebSocketFrame} (hnone : serverResponses [frame] = [])
    (hdocuments : turn'.responseDocuments = turn.responseDocuments)
    (hbytes : turn'.responseDocumentBytes = turn.responseDocumentBytes)
    (hoverflowed : turn'.responseOverflowed = turn.responseOverflowed) : Buffers (frames ++ [frame]) turn' := by
  constructor
  · rw [serverResponses_concat, hnone, List.append_nil, hdocuments, h.documents]
  · rw [serverResponses_concat, hnone, List.append_nil, hbytes, hoverflowed]
    exact h.bytes
  · rw [serverResponses_concat, hnone, List.append_nil, hoverflowed]
    exact h.overflowed

end Server
end Abyss.AgentHook.OpenAi
