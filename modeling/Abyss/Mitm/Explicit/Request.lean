import Abyss.Mitm.Explicit.Target
import Abyss.Mitm.Http.CanonicalHead

/-! Decoding of the first explicit proxy request: `CONNECT` opens a tunnel, and an
absolute-form request is rewritten to origin form for the shared pipeline. -/
namespace Abyss.Mitm.Explicit
open Abyss.Stream Abyss.Text Abyss.Mitm.Http

/-- `MAX_EXPLICIT_PROXY_HEADERS`, the room of the head parser. -/
def maxExplicitProxyHeaders : Nat := 64

inductive ExplicitProxyProtocol where
  | httpConnect
  | httpAbsoluteForm
  deriving DecidableEq, Repr

/-- Declared target, and the bytes the shared pipeline must see as the start of the client stream. -/
structure DecodedExplicitRequest where
  target : TargetAuthority
  protocol : ExplicitProxyProtocol
  clientPrefix : Bytes
  deriving DecidableEq, Repr

/-- `eq_ignore_ascii_case` on a header name. -/
def isNamed (header : RawHeader) (expected : Bytes) : Bool :=
  header.name.map asciiLower == expected.map asciiLower

def hasHeader (headers : List RawHeader) (expected : Bytes) : Bool := headers.any (isNamed · expected)

def isProxyOnlyHeader (header : RawHeader) : Bool :=
  isNamed header (ascii "proxy-authorization") || isNamed header (ascii "proxy-connection") ||
    isNamed header (ascii "proxy-authenticate")

/-- `HTTP/1.1` requires one `Host` that names the target of the request line. -/
def validateMatchingHost (types : HttpTypes) (headers : List RawHeader) (target : TargetAuthority)
    (hostDefaultPort : UInt16) : Except ExplicitRequestError Unit :=
  match headers.filter (isNamed · (ascii "host")) with
  | [] => .error (.invalidHost "HTTP/1.1 requires exactly one Host header")
  | _ :: _ :: _ => .error (.invalidHost "multiple Host headers are not allowed")
  | [hostHeader] =>
    match fromUtf8 hostHeader.value with
    | none => .error (.invalidHost "Host must be valid ASCII")
    | some value =>
      let rawHost := trim value
      if rawHost = [] then .error (.invalidHost "Host must not be empty") else
      match parseTargetAuthority types rawHost (some hostDefaultPort) with
      | .error _ => .error (.invalidHost "Host must contain a valid authority")
      | .ok declared => if declared ≠ target then .error (.hostMismatch target.display rawHost) else .ok ()

/-- The loop of `parseContentLength`, behind the lengths read so far. -/
def contentLengthLoop (parsed : Option Nat) : List RawHeader → Except ExplicitRequestError (Option Nat)
  | [] => .ok parsed
  | header :: rest =>
    match fromUtf8 header.value with
    | none => .error (.invalidFraming "Content-Length must be valid ASCII")
    | some raw =>
      match parseUnsigned u64Bound (trim raw) with
      | none => .error (.invalidFraming "Content-Length must be a nonnegative decimal integer")
      | some length =>
        if parsed.any (· ≠ length) then .error (.invalidFraming "conflicting Content-Length headers are not allowed")
        else contentLengthLoop (some length) rest

def parseContentLength (headers : List RawHeader) : Except ExplicitRequestError (Option Nat) :=
  contentLengthLoop none (headers.filter (isNamed · (ascii "content-length")))

/-- The transfer codings of all values, none of them empty. -/
def transferCodings : List RawHeader → Except ExplicitRequestError (List Str)
  | [] => .ok []
  | header :: rest =>
    match fromUtf8 header.value with
    | none => .error (.invalidFraming "Transfer-Encoding must be valid ASCII")
    | some raw =>
      let codings := (raw.splitOn ',').map trim
      if [] ∈ codings then .error (.invalidFraming "Transfer-Encoding contains an empty coding")
      else (transferCodings rest).map (codings ++ ·)

/-- Only coding sequences with one `chunked`, at the end, are accepted. -/
def checkCodings (codings : List Str) : Except ExplicitRequestError Unit :=
  match codings.getLast? with
  | none => .error (.invalidFraming "Transfer-Encoding must declare a coding")
  | some last =>
    if ¬ eqIgnoreAsciiCase last "chunked".toList then
      .error (.invalidFraming "final Transfer-Encoding coding must be chunked")
    else if codings.dropLast.any (eqIgnoreAsciiCase · "chunked".toList) then
      .error (.invalidFraming "chunked must appear only as the final Transfer-Encoding coding")
    else .ok ()

def validateTransferEncoding (headers : List RawHeader) : Except ExplicitRequestError Unit := do
  checkCodings (← transferCodings (headers.filter (isNamed · (ascii "transfer-encoding"))))

/-- A tunnel request carries no body. -/
def validateConnectFraming (headers : List RawHeader) : Except ExplicitRequestError Unit :=
  if hasHeader headers (ascii "transfer-encoding") then
    .error (.invalidFraming "CONNECT must not use Transfer-Encoding")
  else do
    if (← parseContentLength headers).any (· ≠ 0) then
      .error (.invalidFraming "CONNECT must not carry an HTTP request body")
    else .ok ()

def validateHttpFraming (headers : List RawHeader) : Except ExplicitRequestError Unit := do
  let contentLength ← parseContentLength headers
  let hasTransferEncoding := hasHeader headers (ascii "transfer-encoding")
  if contentLength.isSome && hasTransferEncoding then
    .error (.invalidFraming "Content-Length and Transfer-Encoding must not be combined")
  else if hasTransferEncoding then validateTransferEncoding headers
  else .ok ()

/-- The origin-form target of an absolute URI. -/
def originTarget (uri : Uri) : Bytes :=
  match uri.pathAndQuery with
  | some value => value.asStr
  | none => ascii "/"

/-- The headers of the rewritten head: the declared target, then every field that is not for the proxy. -/
def sanitizedHeaders (headers : List RawHeader) (target : TargetAuthority) : List RawHeader :=
  ⟨ascii "Host", toUtf8 (target.hostHeaderValue 80)⟩ ::
    headers.filter (fun header => !(isNamed header (ascii "host") || isProxyOnlyHeader header))

def sanitizedAbsoluteRequestPrefix (method : Bytes) (uri : Uri) (headers : List RawHeader) (target : TargetAuthority)
    (bufferedBody : Bytes) : Bytes :=
  requestHeadText method (originTarget uri) (sanitizedHeaders headers target) ++ bufferedBody

section Parser
variable (httparse : Httparse) (types : HttpTypes)

def parseConnect (requestTarget : Bytes) (headers : List RawHeader) (bufferedBody : Bytes) :
    Except ExplicitRequestError DecodedExplicitRequest := do
  let target ← parseTargetAuthority types ((fromUtf8 requestTarget).getD []) none
  validateMatchingHost types headers target target.port
  validateConnectFraming headers
  return ⟨target, .httpConnect, bufferedBody⟩

def parseAbsoluteHttp (method requestTarget : Bytes) (headers : List RawHeader) (bufferedBody : Bytes) :
    Except ExplicitRequestError DecodedExplicitRequest :=
  let targetText := (fromUtf8 requestTarget).getD []
  match types.uriTryFrom requestTarget with
  | none => .error (.invalidTarget targetText "request target must be a valid absolute HTTP URI")
  | some uri =>
    if uri.scheme ≠ some (ascii "http") then
      .error (.invalidTarget targetText "plain proxy requests require an http URI")
    else match uri.authority with
      | none => .error (.invalidTarget targetText "absolute HTTP URI requires an authority")
      | some authority => do
        let target ← parseTargetAuthority types ((fromUtf8 authority).getD []) (some 80)
        validateMatchingHost types headers target 80
        validateHttpFraming headers
        return ⟨target, .httpAbsoluteForm,
          sanitizedAbsoluteRequestPrefix method uri headers target bufferedBody⟩

/-- `ExplicitRequestParser::parse` on a buffer whose head ends at `headLen`. -/
def parseExplicitRequest (buffer : Bytes) (headLen : Nat) : Except ExplicitRequestError DecodedExplicitRequest :=
  match httparse.request.run (buffer.take headLen) with
  | .incomplete => .error (.invalidRequest "request head remained partial after its terminator")
  | .invalid .tooManyHeaders => .error (.tooManyHeaders maxExplicitProxyHeaders)
  | .invalid source => .error (.parse source)
  | .complete request parsedLen =>
    if parsedLen ≠ headLen then .error (.invalidRequest "request parser did not consume the complete head")
    else if request.version ≠ some 1 then .error .unsupportedVersion
    else match request.method with
      | none => .error (.invalidRequest "missing method")
      | some method => match request.path with
        | none => .error (.invalidRequest "missing request target")
        | some requestTarget =>
          if method = ascii "CONNECT" then parseConnect types requestTarget request.headers (buffer.drop headLen)
          else parseAbsoluteHttp types method requestTarget request.headers (buffer.drop headLen)

end Parser

section Accepted
variable {httparse : Httparse} {types : HttpTypes} {headers : List RawHeader} {bufferedBody : Bytes}
  {decoded : DecodedExplicitRequest}

/-- An accepted tunnel request, check by check. -/
theorem parseConnect_ok {requestTarget : Bytes}
    (h : parseConnect types requestTarget headers bufferedBody = .ok decoded) :
    parseTargetAuthority types ((fromUtf8 requestTarget).getD []) none = .ok decoded.target ∧
      validateMatchingHost types headers decoded.target decoded.target.port = .ok () ∧
      validateConnectFraming headers = .ok () ∧ decoded.protocol = .httpConnect ∧
      decoded.clientPrefix = bufferedBody := by
  obtain ⟨target, htarget, h⟩ := bind_eq_ok.mp h
  obtain ⟨_, hhost, h⟩ := bind_eq_ok.mp h
  obtain ⟨_, hframing, h⟩ := bind_eq_ok.mp h
  obtain rfl := Except.ok.inj h
  exact ⟨htarget, hhost, hframing, rfl, rfl⟩

theorem parseAbsoluteHttp_ok {method requestTarget : Bytes}
    (h : parseAbsoluteHttp types method requestTarget headers bufferedBody = .ok decoded) :
    ∃ uri authority, types.uriTryFrom requestTarget = some uri ∧ uri.scheme = some (ascii "http") ∧
      uri.authority = some authority ∧
      parseTargetAuthority types ((fromUtf8 authority).getD []) (some 80) = .ok decoded.target ∧
      validateMatchingHost types headers decoded.target 80 = .ok () ∧ validateHttpFraming headers = .ok () ∧
      decoded.protocol = .httpAbsoluteForm ∧
      decoded.clientPrefix = sanitizedAbsoluteRequestPrefix method uri headers decoded.target bufferedBody := by
  unfold parseAbsoluteHttp at h
  simp only at h
  split at h
  · cases h
  · next uri huri =>
    split at h
    · cases h
    · next hscheme =>
      split at h
      · cases h
      · next authority hauthority =>
        obtain ⟨target, htarget, h⟩ := bind_eq_ok.mp h
        obtain ⟨_, hhost, h⟩ := bind_eq_ok.mp h
        obtain ⟨_, hframing, h⟩ := bind_eq_ok.mp h
        obtain rfl := Except.ok.inj h
        exact ⟨uri, authority, huri, not_not.mp hscheme, hauthority, htarget, hhost, hframing, rfl, rfl⟩

/-- An accepted request has a complete head, and is a tunnel request or an absolute-form one. -/
theorem parseExplicitRequest_ok {buffer : Bytes} {headLen : Nat}
    (h : parseExplicitRequest httparse types buffer headLen = .ok decoded) :
    ∃ raw method path, httparse.request.run (buffer.take headLen) = .complete raw headLen ∧
      raw.version = some 1 ∧ raw.method = some method ∧ raw.path = some path ∧
      ((method = ascii "CONNECT" ∧ parseConnect types path raw.headers (buffer.drop headLen) = .ok decoded) ∨
        parseAbsoluteHttp types method path raw.headers (buffer.drop headLen) = .ok decoded) := by
  unfold parseExplicitRequest at h
  split at h
  · cases h
  · cases h
  · cases h
  · next raw parsedLen hraw =>
    split at h
    · cases h
    · next hlen =>
      obtain rfl := not_not.mp hlen
      split at h
      · cases h
      · next hversion =>
        split at h
        · cases h
        · next method hmethod =>
          split at h
          · cases h
          · next path hpath =>
            refine ⟨raw, method, path, hraw, not_not.mp hversion, hmethod, hpath, ?_⟩
            split at h
            · next hconnect => exact .inl ⟨hconnect, h⟩
            · exact .inr h

end Accepted
end Abyss.Mitm.Explicit
