import Abyss.Mitm.Http.Head
import Abyss.Mitm.Relay.Body

/-! Relay of the first HTTP/1 exchange of a flow: the request goes upstream, the
response goes to the client, and the captured pair is submitted to hooks. -/
namespace Abyss.Mitm.Relay
open Abyss.Stream Abyss.Mitm.Http

/-- `HTTP1_100_CONTINUE`. -/
def http1100Continue : Bytes := ascii "HTTP/1.1 100 Continue\r\n\r\n"

/-- Captured representation of one complete observed HTTP message. -/
structure MessageCapture where
  body : CapturedBody
  forwardedBytes : Nat
  agentWriteError : Option TransparentFlowError
  deriving DecidableEq, Repr

/-- Attach the head that was forwarded before a body. -/
def messageCapture (headLen : Nat) (body : BodyCapture) : Except TransparentFlowError MessageCapture := do
  let forwardedBytes ← addLen (← usizeToU64 headLen) body.forwardedBytes
  return ⟨body.body, forwardedBytes, body.agentWriteError⟩

def emptyMessageCapture (forwardedBytes : Nat) : MessageCapture := ⟨CapturedBody.fromBytes [], forwardedBytes, none⟩

def requestHeadForRelay (request : Request) (headBuffer : Http1HeadBuffer) (stripExpectContinue : Bool) :
    Except TransparentFlowError Bytes :=
  if stripExpectContinue then
    match httpRequestHeadWithoutRelayHeaders request stripExpectContinue with
    | .ok head => .ok head
    | .error source => .error (.http1 .writeProviderRequestHead source)
  else .ok headBuffer.headBytes

/-- `flush` with the error of an operation. -/
def flushFor (operation : FlowOperation) (writer : Writer) : Except TransparentFlowError Unit × Writer :=
  match writer.flush with
  | (none, writer) => (.ok (), writer)
  | (some source, writer) => (.error (.io operation source), writer)

def sendContinueResponseToClient (client : Writer) : Except TransparentFlowError Unit × Writer :=
  match writeAllFor .writeAgentContinueResponse client http1100Continue with
  | (.error e, client) => (.error e, client)
  | (.ok (), client) => flushFor .writeAgentContinueResponse client

/-- Whether the relay answers `Expect: 100-continue` itself. -/
def handleExpectContinue (request : Request) (framing : BodyFraming) : Bool :=
  hasExpectContinue request && framing != .empty

/-- Copy the first request to upstream and capture its decoded body. -/
def forwardRequest (parser : ChunkSizeParser) (client : Duplex) (upstream : Writer) (request : Request)
    (headBuffer : Http1HeadBuffer) (maxBodyBytes : Nat) :
    Except TransparentFlowError MessageCapture × Duplex × Writer :=
  match requestBodyFraming request with
  | .error source => (.error (.http1 .readAgentRequestBody source), client, upstream)
  | .ok bodyFraming =>
    match requestHeadForRelay request headBuffer (handleExpectContinue request bodyFraming) with
    | .error e => (.error e, client, upstream)
    | .ok requestHead =>
      match writeAllFor .writeProviderRequestHead upstream requestHead with
      | (.error e, upstream) => (.error e, client, upstream)
      | (.ok (), upstream) =>
        match if handleExpectContinue request bodyFraming then sendContinueResponseToClient client.writer
          else (.ok (), client.writer) with
        | (.error e, clientWriter) => (.error e, { client with writer := clientWriter }, upstream)
        | (.ok (), clientWriter) =>
          match forwardBody parser client.reader upstream bodyFraming headBuffer.bufferedBody maxBodyBytes .request with
          | (.error e, clientReader, upstream) => (.error e, ⟨clientReader, clientWriter⟩, upstream)
          | (.ok bodyCapture, clientReader, upstream) =>
            match flushFor .writeProviderRequestHead upstream with
            | (.error e, upstream) => (.error e, ⟨clientReader, clientWriter⟩, upstream)
            | (.ok (), upstream) =>
              (messageCapture requestHead.length bodyCapture, ⟨clientReader, clientWriter⟩, upstream)

/-- Copy the first response to the client and capture its decoded body. -/
def forwardResponse (parser : ChunkSizeParser) (upstream : Reader) (client : Writer) (request : Request)
    (response : Response) (headBuffer : Http1HeadBuffer) (maxBodyBytes : Nat) : Copied MessageCapture :=
  match writeAllFor .writeAgentResponseHead client headBuffer.headBytes with
  | (.error e, client) => (.error e, upstream, client)
  | (.ok (), client) =>
    match responseBodyFraming request.method response with
    | .error source => (.error (.http1 .readProviderResponseBody source), upstream, client)
    | .ok responseFraming =>
      match forwardBody parser upstream client responseFraming headBuffer.bufferedBody maxBodyBytes .response with
      | (.error e, upstream, client) => (.error e, upstream, client)
      | (.ok bodyCapture, upstream, client) =>
        (messageCapture headBuffer.headBytes.length bodyCapture, upstream, client)

/-- Best-effort close of an Agent stream behind its complete response. -/
def shutdownCompletedAgentStream (client : Writer) : Except TransparentFlowError Unit × Writer :=
  match client.shutdown with
  | (none, client) => (.ok (), client)
  | (some source, client) =>
    let error : TransparentFlowError := .io .shutdownAgent source
    (if error.isAgentConnectionClose then .ok () else .error error, client)

/-- A retained write error is the result of the close; otherwise the client stream is shut down. -/
def closeResult (responseCapture : MessageCapture) (client : Writer) : Except TransparentFlowError Unit × Writer :=
  match responseCapture.agentWriteError with
  | some error => (.error error, client)
  | none => shutdownCompletedAgentStream client

/-- One captured pair as hooks receive it. -/
structure HttpExchange (Flow : Type) where
  flow : Flow
  request : Request
  requestBody : CapturedBody
  response : Response
  responseBody : CapturedBody

structure RelayOutcome where
  firstRequest : Request
  firstRequestBody : CapturedBody
  firstResponse : Response
  firstResponseBody : CapturedBody
  clientToUpstreamBytes : Nat
  upstreamToClientBytes : Nat

/-- A submitted exchange, with the client stream as it was at the submission. -/
structure Submission (Flow : Type) where
  exchange : HttpExchange Flow
  client : Writer

/-- Where a relay ends: its result, both connections, and the exchanges it submitted. -/
structure Relayed (Flow : Type) where
  result : Except TransparentFlowError RelayOutcome
  client : Duplex
  upstream : Duplex
  submitted : List (Submission Flow)

structure DecodedClientFlow (Flow : Type) where
  stream : Duplex
  context : Flow
  firstRequest : Request
  requestHeadBuffer : Http1HeadBuffer

structure DecodedUpstreamResponse where
  stream : Duplex
  head : Response
  headBuffer : Http1HeadBuffer

/-- The message relay behind a successful upgrade; it returns the payload bytes of both directions. -/
structure WebSocketRelay (Flow : Type) where
  run : Duplex → Bytes → Duplex → Bytes → Flow → Request → Response →
    Except TransparentFlowError (Nat × Nat) × Duplex × Duplex

/-- A relay that is never asked to relay messages. -/
def noWebSocket {Flow : Type} : WebSocketRelay Flow := ⟨fun client _ upstream _ _ _ _ => (.ok (0, 0), client, upstream)⟩

section Flow
variable {Flow : Type}

def capturedExchange (flow : Flow) (request : Request) (response : Response)
    (requestCapture responseCapture : MessageCapture) : HttpExchange Flow :=
  ⟨flow, request, ContentDecoder.prepareBody request.headers requestCapture.body,
    response, ContentDecoder.prepareBody response.headers responseCapture.body⟩

def relayOutcome (exchange : HttpExchange Flow) (requestCapture responseCapture : MessageCapture) : RelayOutcome :=
  ⟨exchange.request, exchange.requestBody, exchange.response, exchange.responseBody,
    requestCapture.forwardedBytes, responseCapture.forwardedBytes⟩

/-- Forward a response and submit the exchange behind the final client attempt. -/
def forwardHttpResponseAndSubmit (parser : ChunkSizeParser) (flow : DecodedClientFlow Flow)
    (response : DecodedUpstreamResponse) (requestCapture : MessageCapture) (maxBodyBytes : Nat) : Relayed Flow :=
  match forwardResponse parser response.stream.reader flow.stream.writer flow.firstRequest response.head
      response.headBuffer maxBodyBytes with
  | (.error e, upstream, client) =>
    ⟨.error e, { flow.stream with writer := client }, { response.stream with reader := upstream }, []⟩
  | (.ok responseCapture, upstream, client) =>
    let (closeResult, client) := closeResult responseCapture client
    let exchange := capturedExchange flow.context flow.firstRequest response.head requestCapture responseCapture
    ⟨closeResult.map (fun _ => relayOutcome exchange requestCapture responseCapture),
      { flow.stream with writer := client }, { response.stream with reader := upstream }, [⟨exchange, client⟩]⟩

variable (httparse : Httparse) (types : HttpTypes)

def decodeResponseFromUpstream (upstream : Duplex) :
    Except TransparentFlowError DecodedUpstreamResponse × Duplex :=
  match readHttp1Head (parseResponseHead httparse types) .incompleteResponse [] upstream.reader with
  | (.error source, reader) => (.error (.http1 .readProviderResponseHead source), { upstream with reader })
  | (.ok (head, headBuffer), reader) => (.ok ⟨{ upstream with reader }, head, headBuffer⟩, { upstream with reader })

def relayPlainHttpTo (parser : ChunkSizeParser) (flow : DecodedClientFlow Flow) (upstream : Duplex)
    (maxBodyBytes : Nat) : Relayed Flow :=
  match forwardRequest parser flow.stream upstream.writer flow.firstRequest flow.requestHeadBuffer maxBodyBytes with
  | (.error e, client, upstreamWriter) => ⟨.error e, client, { upstream with writer := upstreamWriter }, []⟩
  | (.ok requestCapture, client, upstreamWriter) =>
    match decodeResponseFromUpstream httparse types { upstream with writer := upstreamWriter } with
    | (.error e, upstream) => ⟨.error e, client, upstream, []⟩
    | (.ok response, _) =>
      forwardHttpResponseAndSubmit parser { flow with stream := client } response requestCapture maxBodyBytes

def forwardWebsocketRequestHead (upstream : Writer) (requestHead : Bytes) :
    Except TransparentFlowError Nat × Writer :=
  match writeAllFor .writeProviderRequestHead upstream requestHead with
  | (.error e, upstream) => (.error e, upstream)
  | (.ok (), upstream) => (usizeToU64 requestHead.length, upstream)

/-- Forward a successful 101 head and submit the upgrade exchange. -/
def forwardWebsocketSuccess (flow : DecodedClientFlow Flow) (response : DecodedUpstreamResponse)
    (requestHeadBytes : Nat) : Relayed Flow :=
  match writeAllFor .writeAgentResponseHead flow.stream.writer response.headBuffer.headBytes with
  | (.error e, client) => ⟨.error e, { flow.stream with writer := client }, response.stream, []⟩
  | (.ok (), client) =>
    match usizeToU64 response.headBuffer.headBytes.length with
    | .error e => ⟨.error e, { flow.stream with writer := client }, response.stream, []⟩
    | .ok responseHeadBytes =>
      let requestCapture := emptyMessageCapture requestHeadBytes
      let responseCapture := emptyMessageCapture responseHeadBytes
      let exchange := capturedExchange flow.context flow.firstRequest response.head requestCapture responseCapture
      ⟨.ok (relayOutcome exchange requestCapture responseCapture), { flow.stream with writer := client },
        response.stream, [⟨exchange, client⟩]⟩

def combineWebsocketOutcomes (upgrade : RelayOutcome) (clientToUpstreamBytes upstreamToClientBytes : Nat) :
    Except TransparentFlowError RelayOutcome := do
  let clientToUpstream ← addLen upgrade.clientToUpstreamBytes clientToUpstreamBytes
  let upstreamToClient ← addLen upgrade.upstreamToClientBytes upstreamToClientBytes
  return { upgrade with clientToUpstreamBytes := clientToUpstream, upstreamToClientBytes := upstreamToClient }

def relayWebsocketTo (parser : ChunkSizeParser) (websocket : WebSocketRelay Flow) (flow : DecodedClientFlow Flow)
    (upstream : Duplex) (maxBodyBytes : Nat) : Relayed Flow :=
  match websocketRequestHeadBytes flow.firstRequest with
  | .error source => ⟨.error (.http1 .readAgentRequestHead source), flow.stream, upstream, []⟩
  | .ok requestHead =>
    match forwardWebsocketRequestHead upstream.writer requestHead with
    | (.error e, upstreamWriter) => ⟨.error e, flow.stream, { upstream with writer := upstreamWriter }, []⟩
    | (.ok requestHeadBytes, upstreamWriter) =>
      match decodeResponseFromUpstream httparse types { upstream with writer := upstreamWriter } with
      | (.error e, upstream) => ⟨.error e, flow.stream, upstream, []⟩
      | (.ok response, _) =>
        if response.head.status ≠ 101 then
          forwardHttpResponseAndSubmit parser flow response (emptyMessageCapture requestHeadBytes) maxBodyBytes
        else
          let upgrade := forwardWebsocketSuccess flow response requestHeadBytes
          match upgrade.result with
          | .error e => { upgrade with result := .error e }
          | .ok outcome =>
            match websocket.run upgrade.client flow.requestHeadBuffer.bufferedBody upgrade.upstream
                response.headBuffer.bufferedBody flow.context flow.firstRequest response.head with
            | (.error e, client, upstream) => ⟨.error e, client, upstream, upgrade.submitted⟩
            | (.ok (toUpstream, toClient), client, upstream) =>
              ⟨combineWebsocketOutcomes outcome toUpstream toClient, client, upstream, upgrade.submitted⟩

def relayTo (parser : ChunkSizeParser) (websocket : WebSocketRelay Flow) (flow : DecodedClientFlow Flow)
    (upstream : Duplex) (maxBodyBytes : Nat) : Relayed Flow :=
  if isWebsocketUpgradeRequest flow.firstRequest then
    relayWebsocketTo httparse types parser websocket flow upstream maxBodyBytes
  else relayPlainHttpTo httparse types parser flow upstream maxBodyBytes

end Flow
end Abyss.Mitm.Relay
