import Abyss.Mitm.Types

/-! Decoded HTTP/1 heads and the stateless helpers of the relay: classification
of a request, serialization of a rewritten head, and the body-framing headers. -/
namespace Abyss.Mitm.Http
open Abyss.Text

/-- Lower-case header name. -/
abbrev HeaderName := Bytes
abbrev HeaderValue := Bytes
abbrev Method := Bytes

def asciiLower (b : UInt8) : UInt8 := if 65 ≤ b ∧ b ≤ 90 then b + 32 else b

/-- Header fields in the order they were appended. -/
structure HeaderMap where
  entries : List (HeaderName × HeaderValue)
  deriving DecidableEq, Repr

namespace HeaderMap

def getAll (headers : HeaderMap) (name : HeaderName) : List HeaderValue :=
  (headers.entries.filter (fun entry => entry.1 == name)).map Prod.snd

def containsKey (headers : HeaderMap) (name : HeaderName) : Bool :=
  headers.entries.any (fun entry => entry.1 == name)

def append (headers : HeaderMap) (name : HeaderName) (value : HeaderValue) : HeaderMap :=
  ⟨headers.entries ++ [(name, value)]⟩

/-- Iteration yields each name once, with all its values, at its first position. -/
def iter (headers : HeaderMap) : List (HeaderName × HeaderValue) :=
  (headers.entries.map Prod.fst).eraseDups.flatMap (fun name => (headers.getAll name).map (name, ·))

end HeaderMap

/-- `HeaderValue::to_str`: a value of visible ASCII bytes, spaces and tabs. -/
def toStr (value : HeaderValue) : Option Str :=
  if value.all (fun b => (32 ≤ b && b < 127) || b == 9) then
    some (value.map byteChar)
  else none

inductive Version where
  | http09 | http10 | http11 | http2 | http3
  deriving DecidableEq, Repr

/-- The two renderings of a URI's path and query; `Display` adds a missing slash. -/
structure PathAndQuery where
  asStr : Bytes
  display : Bytes
  deriving DecidableEq, Repr

structure Uri where
  scheme : Option Bytes
  authority : Option Bytes
  pathAndQuery : Option PathAndQuery
  display : Bytes
  deriving DecidableEq, Repr

structure Request where
  method : Method
  uri : Uri
  version : Version
  headers : HeaderMap
  deriving DecidableEq, Repr

structure Response where
  status : Nat
  version : Version
  headers : HeaderMap
  deriving DecidableEq, Repr

def headerContainsToken (headers : HeaderMap) (name : HeaderName) (token : Str) : Bool :=
  ((headers.getAll name).filterMap toStr).flatMap (·.splitOn ',')
    |>.any (fun value => eqIgnoreAsciiCase (trim value) token)

def isWebsocketUpgradeRequest (request : Request) : Bool :=
  request.method == ascii "GET" && request.version == .http11 &&
    request.headers.containsKey (ascii "sec-websocket-key") &&
    headerContainsToken request.headers (ascii "connection") "upgrade".toList &&
    headerContainsToken request.headers (ascii "upgrade") "websocket".toList

def hasExpectContinue (request : Request) : Bool :=
  ((request.headers.getAll (ascii "expect")).filterMap toStr).any
    (fun value => eqIgnoreAsciiCase (trim value) "100-continue".toList)

def requestVersionToken : Version → Except Http1Error Bytes
  | .http10 => .ok (ascii "HTTP/1.0")
  | .http11 => .ok (ascii "HTTP/1.1")
  | _ => .error (.unsupportedBody "HTTP relay requires an HTTP/1.x request")

def requestTarget (request : Request) : Bytes :=
  match request.uri.pathAndQuery with
  | some target => target.display
  | none => request.uri.display

def requestHeadBytesExcluding (request : Request) (excluded : HeaderName → Bool) :
    Except Http1Error Bytes := do
  let version ← requestVersionToken request.version
  let fields := (request.headers.iter.filter (fun entry => !excluded entry.1)).flatMap
    (fun entry => entry.1 ++ ascii ": " ++ entry.2 ++ crlf)
  return request.method ++ ascii " " ++ requestTarget request ++ ascii " " ++ version ++ crlf ++
    fields ++ crlf

def httpRequestHeadWithoutRelayHeaders (request : Request) (stripExpect : Bool) :
    Except Http1Error Bytes :=
  requestHeadBytesExcluding request (fun name => stripExpect && name == ascii "expect")

def websocketRequestHeadBytes (request : Request) : Except Http1Error Bytes :=
  if request.version = .http11 then
    requestHeadBytesExcluding request (fun name => name == ascii "sec-websocket-extensions")
  else .error (.unsupportedBody "WebSocket upgrade requires HTTP/1.1")

def parseContentLengthValue (value : HeaderValue) : Except Http1Error Nat :=
  match (toStr value).bind (parseUnsigned u64Bound) with
  | some length => .ok length
  | none => .error (.invalidBody "invalid content-length")

/-- The values after the first one must all declare the first length. -/
def agreeingLengths (first : Nat) : List HeaderValue → Except Http1Error Unit
  | [] => .ok ()
  | value :: rest => do
    if (← parseContentLengthValue value) ≠ first then
      .error (.invalidBody "conflicting content-length headers")
    else agreeingLengths first rest

def contentLength (headers : HeaderMap) : Except Http1Error (Option Nat) :=
  match headers.getAll (ascii "content-length") with
  | [] => .ok none
  | firstValue :: values => do
    let first ← parseContentLengthValue firstValue
    agreeingLengths first values
    return some first

/-- Whether the last nonempty transfer coding is `chunked`. Values that are not
visible ASCII are skipped. -/
def isChunked (headers : HeaderMap) : Bool :=
  match (((headers.getAll (ascii "transfer-encoding")).filterMap toStr).flatMap (·.splitOn ',')).reverse.find?
      (fun item => trim item ≠ []) with
  | some item => eqIgnoreAsciiCase (trim item) "chunked".toList
  | none => false

def statusHasNoBody (status : Nat) : Bool :=
  (100 ≤ status && status < 200) || status == 204 || status == 304

/-- HTTP/1 body framing selected from a decoded message head. -/
inductive BodyFraming where
  | empty
  | contentLength (length : Nat)
  | chunked
  | untilEof
  deriving DecidableEq, Repr

def requestBodyFraming (request : Request) : Except Http1Error BodyFraming :=
  if isChunked request.headers then .ok .chunked else do
    match ← contentLength request.headers with
    | some length => return .contentLength length
    | none => return .empty

def responseBodyFraming (requestMethod : Method) (response : Response) : Except Http1Error BodyFraming :=
  if requestMethod == ascii "HEAD" || statusHasNoBody response.status then .ok .empty
  else if isChunked response.headers then .ok .chunked else do
    match ← contentLength response.headers with
    | some length => return .contentLength length
    | none => return .untilEof

end Abyss.Mitm.Http
