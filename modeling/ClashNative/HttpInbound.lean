import ClashNative.HttpText
import ClashNative.Runs
/-!
# HttpInbound — requests on one client connection, one after the other

`proxy_session_http.cpp` (with `run_read_some` of `proxy_stream.cpp` and the upload loop of
`run_streaming` in `http1_client.cpp`).  The HTTP library's parser is a parameter (`Parser`).  What
happens outside while one request is answered is a `World`; `serve` takes the session from one header
parse to the next or to its end.
-/
namespace ClashNative.Http.Inbound

structure Request where
  method : Bytes
  target : Bytes
  version : Nat
  fields : List Field
  keepAlive : Bool
  contentLength : Option Nat
  deriving DecidableEq, Repr

/-- A parsed header: the request, how many bytes it took, and whether the message ends with it. -/
structure Header where
  request : Request
  size : Nat
  done : Bool

/-- **The HTTP library's parser**: the header at the front of the bytes, and how many of the bytes behind
it are the request's body with its framing (`none`: malformed, or cut off). -/
structure Parser where
  header : Bytes → Option Header
  bodySize : Request → Bytes → Option Nat

structure Owner where
  httpUsername : Bytes
  httpPassword : Bytes
  base64Decode : Bytes → Option Bytes

inductive HttpAuthenticationResult
  | accepted | missing | rejected
  deriving DecidableEq, Repr

def authenticateHttpRequest (owner : Owner) (request : Request) : HttpAuthenticationResult :=
  if owner.httpUsername = [] ∧ owner.httpPassword = [] then .accepted
  else
    match request.fields.find? (fun f => isHttpHeader f.name (ascii "proxy-authorization")) with
    | none => .missing
    | some field =>
      let value := trimHttpWhitespace field.value
      if value = [] then .missing
      else if basicAuthorizationMatches owner.base64Decode value owner.httpUsername
        owner.httpPassword then .accepted
      else .rejected

/-- `http_request_keep_alive`: the last Proxy-Connection field that says so wins over the library's
answer. -/
def httpRequestKeepAlive (request : Request) : Bool :=
  request.fields.foldl (fun keepAlive f =>
    if !isHttpHeader f.name (ascii "proxy-connection") then keepAlive
    else
      let value := lowercaseAscii (trimHttpWhitespace f.value)
      if value = ascii "keep-alive" then true
      else if value = ascii "close" then false
      else keepAlive) request.keepAlive

structure ForwardRequest where
  method : Bytes
  authority : Bytes
  target : Bytes
  headers : List Field
  contentLength : Option Nat
  hasBody : Bool
  declaredTrailers : List Bytes
  host : Bytes
  port : Nat
  deriving DecidableEq, Repr

structure UpgradeRequest where
  authority : Bytes
  target : Bytes
  protocol : Bytes
  headers : List Field
  host : Bytes
  port : Nat
  deriving DecidableEq, Repr

/-- What is done about a request: an answer of the proxy's own, a refused authentication, a tunnel, an
upgrade or a forward. -/
inductive Answer
  | respond (status : Nat) (reason extraHeaders : Bytes) (keepAlive : Bool)
  | authenticate (missing keepAlive : Bool)
  | tunnel (host : Bytes) (port : Nat)
  | upgrade (request : UpgradeRequest)
  | forward (request : ForwardRequest) (expectsContinue : Bool)
  deriving DecidableEq, Repr

def badRequest : Answer := .respond 400 (ascii "Bad Request") [] false
def notImplemented : Answer := .respond 501 (ascii "Not Implemented") [] false

def upgradeDropped : List Bytes :=
  [ascii "host", ascii "connection", ascii "upgrade", ascii "proxy-connection", ascii "proxy-authorization",
    ascii "keep-alive", ascii "te", ascii "trailer", ascii "transfer-encoding", ascii "content-length"]

def joinNames : List Bytes → Bytes
  | [] => []
  | [name] => name
  | name :: names => name ++ ascii ", " ++ joinNames names

def forwardRequest (request : Request) (done : Bool) (target : ParsedHttpTarget)
    (connectionOptions trailers : List Bytes) :
    ForwardRequest :=
  let kept := request.fields.filter (fun f =>
    !(isHttpHeader f.name (ascii "host") || isHttpHeader f.name (ascii "content-length") ||
      isHttpHeader f.name (ascii "expect") || isHttpHeader f.name (ascii "trailer") ||
      isHopByHopOrProxyHeader f.name connectionOptions))
  { method := request.method
    authority := target.authority
    target :=
      if request.method = ascii "OPTIONS" ∧ target.emptyPathAndQuery then ascii "*" else target.originTarget
    headers := kept ++ [⟨ascii "Host", target.authority⟩] ++
      (if !done ∧ trailers ≠ [] then [⟨ascii "Trailer", joinNames trailers⟩] else [])
    contentLength := if done then some 0 else request.contentLength
    hasBody := !done
    declaredTrailers := trailers
    host := target.host
    port := target.port }

/-- The Expect fields: `none` when one of them is not `100-continue`. -/
def expectsContinue (fields : List Field) : Option Bool :=
  let expects := fields.filter (fun f => isHttpHeader f.name (ascii "expect"))
  if expects.all (fun f => lowercaseAscii (trimHttpWhitespace f.value) == ascii "100-continue") then
    some (expects ≠ [])
  else none

def beginUpgrade (request : Request) (done : Bool) (target : ParsedHttpTarget) (connectionOptions : List Bytes) :
    Answer :=
  match collectUpgradeProtocol request.fields with
  | none => badRequest
  | some protocol =>
    if !connectionOptions.contains (ascii "upgrade") then badRequest
    else if request.method ≠ ascii "GET" ∨ !done then notImplemented
    else .upgrade ⟨target.authority, target.originTarget, protocol,
      request.fields.filter (fun f => !upgradeDropped.any (isHttpHeader f.name)), target.host, target.port⟩

def beginHttpForward (request : Request) (done clientKeepAlive : Bool) : Answer :=
  if request.version ≠ 11 then .respond 505 (ascii "HTTP Version Not Supported") [] false
  else if request.target = ascii "*" ∧ request.method = ascii "OPTIONS" then
    .respond 200 (ascii "OK") (ascii "Allow: CONNECT, OPTIONS\r\n") clientKeepAlive
  else
    match parseHttpAbsoluteTarget request.target with
    | none =>
      match breakOn (ascii "://") request.target with
      | some (scheme, _) => if lowercaseAscii scheme ≠ ascii "http" then notImplemented else badRequest
      | none => badRequest
    | some target =>
      match collectConnectionOptions request.fields with
      | none => badRequest
      | some options =>
        if options.any (fun o => o == ascii "content-length" || o == ascii "host" || o == ascii
          "transfer-encoding") then
          badRequest
        else if hasUpgradeHeader request.fields || options.contains (ascii "upgrade") then
          beginUpgrade request done target options
        else
          match collectDeclaredTrailers request.fields options with
          | none => badRequest
          | some trailers =>
            match expectsContinue request.fields with
            | none => .respond 417 (ascii "Expectation Failed") [] false
            | some expects => .forward (forwardRequest request done target options trailers) expects

/-- `handle_http_headers`, of a parser that is `done` or has a body to come. -/
def handleHttpHeaders (owner : Owner) (request : Request) (done : Bool) : Answer :=
  let clientKeepAlive := httpRequestKeepAlive request
  match authenticateHttpRequest owner request with
  | .missing => .authenticate true (clientKeepAlive && done)
  | .rejected => .authenticate false (clientKeepAlive && done)
  | .accepted =>
    if request.method ≠ ascii "CONNECT" then beginHttpForward request done clientKeepAlive
    else if request.version ≠ 10 ∧ request.version ≠ 11 then badRequest
    else
      match parseHttpAuthority request.target with
      | none => badRequest
      | some (host, port) => .tunnel host port

/-! ### The upload of a forwarded body -/

/-- One read of the request body: the wire bytes that the parser takes, the body bytes it gives, and
whether the parse or the write of them upstream fails. -/
structure Pull where
  wire : Nat
  size : Nat
  fails : Bool
  deriving DecidableEq, Repr

/-- The upload loop of `run_streaming`, over the reads of `run_read_some`: the wire bytes taken, and
whether all of the body went upstream.  `total` is the size of the body on the wire, `written` the body
bytes so far. -/
def upload (contentLength : Option Nat) (total : Nat) (trailersFail : Bool) : List Pull → Nat → Nat → Nat × Bool
  -- the body is still to come, and nothing is answered before it
  | [], taken, _ => (taken, false)
  | pull :: pulls, taken, written =>
    let taken' := min total (taken + pull.wire)
    if pull.fails then (taken', false)
    else if pull.size ≠ 0 then
      -- a probe that brings bytes, or more than the length says
      if contentLength = some written ∨ contentLength.any (· < written + pull.size) then (taken', false)
      else upload contentLength total trailersFail pulls taken' (written + pull.size)
    else if taken' = total then
      -- the parser is done: the end of the body
      if contentLength.any (· ≠ written) then (taken', false) else (taken', !trailersFail)
    else upload contentLength total trailersFail pulls taken' written

/-! ### The session -/

inductive ExchangeOutcome
  | failed
  | response (status : Nat) (keepAlive : Bool)
  deriving DecidableEq, Repr

/-- What happens outside while one request is answered: whether writes to the client and the body's
download succeed, whether the target opens, the reads of the request body, what the exchange ends with,
and how many of the unread bytes can still be read once the receiving side is shut down. -/
structure World where
  written : Bool
  opened : Bool
  pulls : List Pull
  trailersFail : Bool
  outcome : ExchangeOutcome
  readable : Nat
  deriving DecidableEq, Repr

inductive Phase
  | reading
  | relaying
  | closed
  deriving DecidableEq, Repr

/-- `ProxySession`, on its client connection.  `unread` is `http_buffer_` and what the socket still
brings, `offset` where that starts on the connection; `starts` (kept for the statements) is where each
header parse started. -/
structure State where
  unread : Bytes
  offset : Nat := 0
  phase : Phase
  starts : List Nat
  deriving DecidableEq, Repr

namespace State

def take (s : State) (n : Nat) : State := { s with unread := s.unread.drop n, offset := s.offset + n }

def close (s : State) : State := { s with phase := .closed }

def readHttpHeaders (s : State) : State := { s with phase := .reading, starts := s.starts ++ [s.offset] }

/-- `finish_http_forward`: the next request, if both sides keep the connection. -/
def finishHttpForward (s : State) (clientKeepAlive exchangeKeepAlive : Bool) : State :=
  if clientKeepAlive && exchangeKeepAlive then s.readHttpHeaders else s.close

/-- A forwarded request.  Whatever fails on the way is answered with an error and the connection closed.
-/
def forward (parser : Parser) (s : State) (header : Header) (request : ForwardRequest) (w : World) : State :=
  if !w.written || !w.opened then s.close
  else
    let sent :=
      if !request.hasBody then (0, true)
      else
        match parser.bodySize header.request s.unread with
        | none => (0, false)
        | some total => upload request.contentLength total w.trailersFail w.pulls 0 0
    let s := s.take sent.1
    if !sent.2 then s.close
    else
      match w.outcome with
      | .failed => s.close
      | .response status keepAlive =>
        if status < 200 ∨ 599 < status then s.close
        else
          -- the reset cancels the body stream, and that shuts the receiving side of the client down
          let s := if request.hasBody then { s with unread := s.unread.take w.readable } else s
          s.finishHttpForward (httpRequestKeepAlive header.request)
          (httpRequestKeepAlive header.request && keepAlive)

def serve (owner : Owner) (parser : Parser) (s : State) (w : World) : State :=
  if s.phase ≠ .reading then s
  else
    match parser.header s.unread with
    | none => s.close
    | some header =>
      let s := s.take header.size
      let clientKeepAlive := httpRequestKeepAlive header.request
      match handleHttpHeaders owner header.request header.done with
      | .respond _ _ _ keepAlive =>
        if w.written && keepAlive then s.finishHttpForward clientKeepAlive clientKeepAlive else s.close
      | .authenticate _ keepAlive =>
        if w.written && keepAlive then s.finishHttpForward clientKeepAlive true else s.close
      -- whatever becomes of these two, no header is parsed on the connection again
      | .tunnel _ _ => { s with phase := .relaying }
      | .upgrade _ => { s with phase := .relaying }
      | .forward request _ => s.forward parser header request w

end State

/-- A connection whose client sends `bytes`; the first header parse starts at once. -/
def start (bytes : Bytes) : State := { unread := bytes, phase := .reading, starts := [0] }

end ClashNative.Http.Inbound
