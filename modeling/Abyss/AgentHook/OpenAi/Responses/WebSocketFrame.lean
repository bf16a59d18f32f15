import Abyss.AgentHook.OpenAi.Exchange
import Abyss.AgentHook.OpenAi.Responses.Request
import Abyss.AgentHook.OpenAi.Responses.Response
import Abyss.Mitm.WebSocket.Loop

/-! Responses WebSocket frame decoding. -/
namespace Abyss.AgentHook.OpenAi
open Abyss.Text Abyss.PluginProtocol Abyss.Mitm.WebSocket

abbrev FrameMessage := WebSocketMessage ObservedFlow

/-- One decoded server frame. -/
structure OpenAiWebSocketResponse where
  exchange : ParsedOpenAiExchange
  document : Json
  byteLen : Nat

/-- Outcome of decoding one frame. -/
inductive OpenAiWebSocketFrame where
  | request (exchange : ParsedOpenAiExchange)
  | response (response : OpenAiWebSocketResponse)
  | irrelevant
  | undecodable (direction : WebSocketDirection)

/-- Whether a Responses event type ends a turn. -/
def isTerminalEvent (kind : Str) : Bool :=
  decide (kind ∈ [lit "response.completed", lit "response.failed", lit "response.incomplete", lit "error"])

/-- The library functions that decoding calls. -/
structure FrameDecoding where
  fromStr : Str → Option Json
  fromSlice : List UInt8 → Option Json
  digest : Digest
  uri : UriParts
  images : ImageDecoding

section Decode
variable (env : FrameDecoding)

def websocketJsonPayload (message : FrameMessage) : Option Json :=
  match message.text, message.binary with
  | some text, _ => env.fromStr text
  | none, some bytes => env.fromSlice bytes
  | none, none => none

/-- The host that a frame is attributed to. -/
def frameHost (message : FrameMessage) : Option Str :=
  requestHost env.uri message.upgradeRequest.headers message.upgradeRequest.uri <|> flowServerName message.flow

def requestPayload (payload : Json) : Json := (payload.get "response").getD payload

def websocketSessionId (message : FrameMessage) (payload : Json) : Str :=
  let headers := message.upgradeRequest.headers
  (header headers "session-id" <|> header headers "session_id" <|> header headers "thread-id" <|>
    header headers "x-hermes-session-id" <|> opencodeSessionId headers <|>
    collectStringField "session_id" payload <|> collectStringField "thread_id" payload <|>
    collectStringField "conversation_id" payload <|> collectStringField "response_id" payload <|>
    responseId [payload] <|> header headers "x-conversation-id").getD (lit "flow-" ++ message.flow.flowId)

/-- The `Debug` text of a direction. -/
def directionText : WebSocketDirection → Str
  | .clientToServer => lit "ClientToServer"
  | .serverToClient => lit "ServerToClient"

def requestHash (message : FrameMessage) (host : Str) (payload : Json) : Str :=
  env.digest.sha256Hex (join [Char.ofNat 0] [directionText message.direction, host,
    env.uri.path message.upgradeRequest.uri, Nat.toDigits 10 message.sequence, payload.text])

/-- Whether a client payload carries content, or a server payload anything that the turn needs. -/
def isRelevant (direction : WebSocketDirection) (payload : Json) : Bool :=
  match direction with
  | .clientToServer =>
    !(ResponsesRequest.parse (some (requestPayload payload)) false).isEmpty ||
      !(extractOpenAiRequestImages env.images (requestPayload payload)).isEmpty
  | .serverToClient =>
    !(ResponsesResponse.assemble [payload] false).empty || !((bestUsage [payload]).getD .zero).isEmpty ||
      (stringField payload "type").any isTerminalEvent

/-- Only `response.create` with the boolean `generate: false` declares that nothing is generated. -/
def generatesOutput (payload : Json) : Bool :=
  stringField payload "type" ≠ some (lit "response.create") ||
    ((requestPayload payload).get "generate").bind Json.asBool ≠ some false

/-- The values of one relevant frame. -/
def frameExchange (message : FrameMessage) (host : Str) (payload : Json) : ParsedOpenAiExchange :=
  let isClientMessage := message.direction = .clientToServer
  let body := requestPayload payload
  { generatesOutput := if isClientMessage then some (generatesOutput payload) else none
    sessionId := websocketSessionId message payload
    requestHash := requestHash env message host payload
    requestConversation := (ResponsesRequest.parse (if isClientMessage then some body else none) false).conversation
    responseConversation := ConversationProjection.empty
    requestImages := if isClientMessage then extractOpenAiRequestImages env.images body else []
    usage := if isClientMessage then .zero else (bestUsage [payload]).getD .zero
    responseId := if isClientMessage then none else responseId [payload]
    previousResponseId := stringField body "previous_response_id"
    clientMetadata := if isClientMessage then body.get "client_metadata" else none
    model := firstModel [payload]
    eventTypes := if isClientMessage then [] else eventTypes payload }

/-- The size of the frame's payload. -/
def byteLen (message : FrameMessage) : Nat :=
  (message.text.map fun text => (toUtf8 text).length).getD ((message.binary.map List.length).getD 0)

/-- Decode one frame; a value always has a text, so only the payload can fail to decode. -/
def parseOpenAiWebSocketMessage (message : FrameMessage) : OpenAiWebSocketFrame :=
  match websocketJsonPayload env message, frameHost env message with
  | none, _ => .undecodable message.direction
  | some _, none => .irrelevant
  | some payload, some host =>
    if !isRelevant env message.direction payload then .irrelevant
    else match message.direction with
      | .clientToServer => .request (frameExchange env message host payload)
      | .serverToClient => .response ⟨frameExchange env message host payload, payload, byteLen message⟩

end Decode
end Abyss.AgentHook.OpenAi
