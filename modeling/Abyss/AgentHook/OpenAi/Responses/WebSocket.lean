import Mathlib.Data.List.MinMax
import Mathlib.Data.Prod.Lex
import Abyss.AgentHook.OpenAi.Responses.WebSocketFrame
import Abyss.Data.HashMap

/-! Bounded assembly of Responses WebSocket frames into interactions. -/
namespace Abyss.AgentHook.OpenAi
open Abyss.Text Abyss.PluginProtocol Abyss.Mitm.WebSocket Abyss.Data

/-- `PENDING_TURN_TTL`, in nanoseconds. -/
def pendingTurnTtl : Nat := 60 * 1000000000

def maxPendingTurns : Nat := 64

def maxResponseDocuments : Nat := 4096

def maxResponseDocumentBytes : Nat := 16 * 1024 * 1024

def appendUnique (target source : List Str) : List Str :=
  source.foldl (fun target value => if value ∈ target then target else target ++ [value]) target

structure PendingTurn where
  exchange : Option ParsedOpenAiExchange
  requestConversation : Option Conversation
  responseDocuments : List Json
  responseDocumentBytes : Nat
  responseOverflowed : Bool
  requestDecodeFailed : Bool
  responseDecodeFailed : Bool
  updatedAt : Nat

namespace PendingTurn

def new (now : Nat) : PendingTurn := ⟨none, none, [], 0, false, false, false, now⟩

/-- Whether a merged client frame carried a conversation entry or an image. -/
def carriesRequestContent (turn : PendingTurn) : Bool :=
  turn.requestConversation.any (fun conversation => !conversation.entries.isEmpty) ||
    turn.exchange.any (fun exchange => !exchange.requestImages.isEmpty)

/-- The first frame supplies the conversation and later ones append their entries. -/
def mergeRequestConversation (turn : PendingTurn) (next : Conversation) : PendingTurn :=
  { turn with requestConversation := some (match turn.requestConversation with
      | none => next
      | some current =>
        let merged := { current with entries := current.entries ++ next.entries }
        if next.completeness ≠ .complete then ConversationProjection.markPartial merged else merged) }

/-- Buffer one server document; once one does not fit, none is buffered for the rest of the turn. -/
def bufferResponseDocument (turn : PendingTurn) (document : Json) (byteLen : Nat) : PendingTurn :=
  if turn.responseOverflowed then turn
  else if maxResponseDocuments ≤ turn.responseDocuments.length ∨
      maxResponseDocumentBytes < turn.responseDocumentBytes + byteLen then { turn with responseOverflowed := true }
  else { turn with
    responseDocumentBytes := turn.responseDocumentBytes + byteLen
    responseDocuments := turn.responseDocuments ++ [document] }

/-- The values of a turn after one more frame. -/
def mergedExchange (current next : ParsedOpenAiExchange) (identifiesTurn : Bool) : ParsedOpenAiExchange where
  -- A turn is never taken for a prewarm if any of its client frames can generate output.
  generatesOutput := match next.generatesOutput with
    | some generatesOutput => some (current.generatesOutput.getD false || generatesOutput)
    | none => current.generatesOutput
  sessionId := if identifiesTurn then next.sessionId else current.sessionId
  requestHash := if identifiesTurn then next.requestHash else current.requestHash
  requestConversation := current.requestConversation
  responseConversation := current.responseConversation
  requestImages := if current.requestImages.isEmpty then next.requestImages else current.requestImages
  usage := if !next.usage.isEmpty && current.usage.totalTokens ≤ next.usage.totalTokens then next.usage
    else current.usage
  responseId := next.responseId <|> current.responseId
  previousResponseId := current.previousResponseId <|> next.previousResponseId
  clientMetadata := current.clientMetadata <|> next.clientMetadata
  model := current.model <|> next.model
  eventTypes := appendUnique current.eventTypes next.eventTypes

def mergeExchange (turn : PendingTurn) (next : ParsedOpenAiExchange) (identifiesTurn : Bool) : PendingTurn :=
  { turn with exchange := some (match turn.exchange with
      | none => next
      | some current => mergedExchange current next identifiesTurn) }

def record (turn : PendingTurn) : OpenAiWebSocketFrame → PendingTurn
  | .request exchange =>
    let conversation := exchange.requestConversation
    let identifiesTurn := !turn.carriesRequestContent &&
      (!conversation.entries.isEmpty || !exchange.requestImages.isEmpty)
    (turn.mergeRequestConversation conversation).mergeExchange
      { exchange with requestConversation := ConversationProjection.empty } identifiesTurn
  | .response response =>
    (turn.bufferResponseDocument response.document response.byteLen).mergeExchange response.exchange false
  | .undecodable .clientToServer => { turn with requestDecodeFailed := true }
  | .undecodable .serverToClient => { turn with responseDecodeFailed := true }
  | .irrelevant => turn

/-- Assemble the turn's conversations from the merged and buffered frames. -/
def complete (turn : PendingTurn) : Option ParsedOpenAiExchange :=
  turn.exchange.map fun exchange =>
    let response := ResponsesResponse.assemble turn.responseDocuments
      (turn.responseOverflowed || turn.responseDecodeFailed)
    let requestConversation := turn.requestConversation.getD
      { ConversationProjection.empty with completeness := .unsupported }
    { exchange with
      responseConversation := response.conversation
      requestConversation := if turn.requestDecodeFailed then ConversationProjection.markPartial requestConversation
        else requestConversation
      -- An undecodable client frame might have enabled generation.
      generatesOutput := if turn.requestDecodeFailed then none else exchange.generatesOutput }

end PendingTurn

def isTerminalResponse (parsed : ParsedOpenAiExchange) : Bool := parsed.eventTypes.any isTerminalEvent

/-- The unfinished turns of every flow. -/
abbrev PendingTurns := HashMap Str PendingTurn

/-- The least recently updated turn; `rank` is the order in which the hash map happens to iterate. -/
def oldest (rank : Str → Nat) (pending : PendingTurns) : Option Str :=
  (pending.entries.argmin (fun entry => toLex (entry.2.updatedAt, rank entry.1))).map (·.1)

/-- The pending turns with room for one more. -/
def makeRoom (rank : Str → Nat) (pending : PendingTurns) : PendingTurns :=
  if maxPendingTurns ≤ pending.size then
    match oldest rank pending with
    | some flowId => pending.erase flowId
    | none => pending
  else pending

/-- Add one decoded frame; a complete interaction leaves the map. -/
def push (rank : Str → Nat) (now : Nat) (flowId : Str) (frame : OpenAiWebSocketFrame) (pending : PendingTurns) :
    Option ParsedOpenAiExchange × PendingTurns :=
  match frame with
  | .irrelevant => (none, pending)
  | frame =>
    let retained := pending.retain (fun turn => now - turn.updatedAt ≤ pendingTurnTtl)
    let turn := ((retained.lookup flowId).getD (.new now)).record frame
    let pending := retained.erase flowId
    if turn.exchange.any isTerminalResponse then (turn.complete, pending)
    else (none, (makeRoom rank pending).insert flowId { turn with updatedAt := now })

end Abyss.AgentHook.OpenAi
