import ClashNative.HttpFraming
import ClashNative.HttpWire
/-!
# HttpForwardResponse — what the client is sent for a forwarded request

`run_http_forward_response` down to `write_http_forward_trailers` of `proxy_session_http.cpp`.  The
upstream's fields come from the HTTP library's parser; the library's reason phrases are a parameter.
-/
namespace ClashNative.Http.Forward

structure ParsedField extends Field where
  ok : Wire.Http.FieldLine.Ok (name, value)

structure ReasonTexts where
  obsoleteReason : Nat → Bytes
  noBreak : ∀ status, 13 ∉ obsoleteReason status

/-- What the session knows of the request when its response arrives; a CONNECT opens a tunnel and has
none. -/
structure Exchange where
  method : Bytes
  clientKeepAlive : Bool
  notConnect : method ≠ ascii "CONNECT"

/-- One `async_read_some` of the upstream's body stream. -/
inductive Pull
  | data (bytes : Bytes)
  | failed
  deriving DecidableEq, Repr

structure BodyStream where
  pulls : List Pull
  trailers : List ParsedField

structure UpstreamResponse where
  status : Nat
  headers : List ParsedField
  keepAlive : Bool
  body : Option BodyStream

structure Sent where
  bytes : Bytes
  kept : Bool
  deriving DecidableEq, Repr

/-- A failed write.  What of it still went out no longer matters: the connection is closed. -/
def Sent.failed : Sent := ⟨[], false⟩

/-! ### The head -/

def formatNumber (base n : Nat) : Bytes := (Nat.toDigits base n).map (fun c => UInt8.ofNat c.toNat)

def headerLine (field : Field) : Bytes := field.name ++ ascii ": " ++ field.value ++ ascii "\r\n"

def connectionHeaders (keepAlive : Bool) : Bytes :=
  if keepAlive then
    ascii "Connection: keep-alive\r\nProxy-Connection: keep-alive\r\nKeep-Alive: timeout=4\r\n"
  else ascii "Connection: close\r\n"

def hasBody (x : Exchange) (response : UpstreamResponse) : Bool :=
  x.method ≠ ascii "HEAD" && response.status ≠ 204 && response.status ≠ 205 && response.status ≠ 304 &&
    response.body.isSome

def exchangeKeepAlive (x : Exchange) (response : UpstreamResponse) : Bool :=
  x.clientKeepAlive && response.keepAlive

/-- The connection options of a response: the elements that are no tokens are passed over. -/
def connectionOptions (headers : List Field) : List Bytes :=
  ((fieldElements headers (ascii "connection")).filter isHttpToken).map lowercaseAscii

def forwardedHeaders (x : Exchange) (response : UpstreamResponse) : List ParsedField :=
  let options := connectionOptions (response.headers.map (·.toField))
  let preserveContentLength := x.method = ascii "HEAD" ∨ response.status = 304
  response.headers.filter (fun h =>
    !(isHopByHopOrProxyHeader h.name options ||
      (isHttpHeader h.name (ascii "content-length") && !preserveContentLength)))

def buildHttpForwardResponseHeaders (texts : ReasonTexts) (x : Exchange) (response : UpstreamResponse)
    (hasBody : Bool) :
    Bytes :=
  ascii "HTTP/1.1 " ++ formatNumber 10 response.status ++ ascii " " ++ texts.obsoleteReason response.status ++
    ascii "\r\n" ++
    (forwardedHeaders x response).flatMap (headerLine ·.toField) ++
    (if hasBody then ascii "Transfer-Encoding: chunked\r\n" else []) ++
    connectionHeaders (exchangeKeepAlive x response) ++
    ascii "Proxy-Agent: clash-native\r\n\r\n"

/-! ### The body -/

def chunk (data : Bytes) : Bytes := formatNumber 16 data.length ++ ascii "\r\n" ++ data ++ ascii "\r\n"

def forwardedTrailers (trailers : List ParsedField) : List ParsedField :=
  trailers.filter (fun t =>
    !(!isHttpToken t.name || isHopByHopOrProxyHeader t.name [] || isHttpHeader t.name (ascii "content-length") ||
      isHttpHeader t.name (ascii "host")))

def finalChunk (trailers : List ParsedField) : Bytes :=
  ascii "0\r\n" ++ (forwardedTrailers trailers).flatMap (headerLine ·.toField) ++ ascii "\r\n"

/-- `run_http_forward_body`; `writes` counts the writes to the client that still succeed. -/
def runHttpForwardBody (keepAlive : Bool) (trailers : List ParsedField) : List Pull → Nat → Sent
  | [], 0 => .failed
  | [], _ + 1 => ⟨finalChunk trailers, keepAlive⟩
  | .failed :: _, _ => .failed
  | .data [] :: pulls, writes => runHttpForwardBody keepAlive trailers pulls writes
  | .data (_ :: _) :: _, 0 => .failed
  | .data (b :: bytes) :: pulls, writes + 1 =>
    let sent := runHttpForwardBody keepAlive trailers pulls writes
    ⟨chunk (b :: bytes) ++ sent.bytes, sent.kept⟩

/-! ### The answer -/

/-- `send_http_forward_response`: an answer of the proxy's own. -/
def sendHttpForwardResponse (status : Nat) (reason extraHeaders : Bytes) (keepAlive : Bool) : Nat → Sent
  | 0 => .failed
  | _ + 1 =>
    ⟨ascii "HTTP/1.1 " ++ formatNumber 10 status ++ ascii " " ++ reason ++ ascii "\r\n" ++ extraHeaders ++
      ascii "Content-Length: 0\r\n" ++ connectionHeaders keepAlive ++
      ascii "Proxy-Agent: clash-native\r\n\r\n", keepAlive⟩

inductive ExchangeError
  | rejected
  | other
  deriving DecidableEq, Repr

/-- `run_http_forward_response`, to the end of the answer. -/
def runHttpForwardResponse (texts : ReasonTexts) (x : Exchange) (result : Except ExchangeError UpstreamResponse)
    (writes : Nat) : Sent :=
  match result with
  | .error .rejected => sendHttpForwardResponse 403 (ascii "Forbidden") [] false writes
  | .error .other => sendHttpForwardResponse 502 (ascii "Bad Gateway") [] false writes
  | .ok response =>
    if response.status < 200 ∨ response.status = 101 ∨ 599 < response.status then
      sendHttpForwardResponse 502 (ascii "Bad Gateway") [] false writes
    else
      let head := buildHttpForwardResponseHeaders texts x response (hasBody x response)
      -- `finish_http_forward` asks both sides
      let keepAlive := x.clientKeepAlive && exchangeKeepAlive x response
      match writes with
      | 0 => .failed
      | writes + 1 =>
        match if hasBody x response then response.body else none with
        | none => ⟨head, keepAlive⟩
        | some body =>
          let sent := runHttpForwardBody keepAlive body.trailers body.pulls writes
          ⟨head ++ sent.bytes, sent.kept⟩

/-! ### What the client should make of it -/

/-- The fields meant for the recipient: neither of the connection nor the length of the body on it. -/
def endToEnd (fields : List Field) : List Field :=
  fields.filter (fun f =>
    !isHopByHopOrProxyHeader f.name (connectionOptions fields) && !isHttpHeader f.name (ascii "content-length"))

def WithoutContent (x : Exchange) (response : UpstreamResponse) : Prop :=
  x.method = ascii "HEAD" ∨ response.status = 204 ∨ response.status = 304

instance (x : Exchange) (response : UpstreamResponse) : Decidable (WithoutContent x response) :=
  inferInstanceAs (Decidable (_ ∨ _))

def Pull.bytes : Pull → Bytes
  | .data bytes => bytes
  | .failed => []

def upstreamBody (x : Exchange) (response : UpstreamResponse) : Bytes :=
  if WithoutContent x response then [] else (response.body.map (fun b => b.pulls.flatMap Pull.bytes)).getD []

def UpstreamResponse.trailers (response : UpstreamResponse) : List Field :=
  (response.body.map (fun b => b.trailers.map (·.toField))).getD []

def ofLine (line : Wire.Http.FieldLine) : Field := ⟨line.1, line.2⟩

/-- **What is owed**: one message that ends by its own rules, whatever comes behind it on the connection,
with the upstream's status, body and end-to-end headers (the proxy signs behind them) and none but the
upstream's trailers. -/
def Delivered (x : Exchange) (response : UpstreamResponse) (bytes : Bytes) : Prop :=
  ∃ message : Wire.Http.Response,
    (∀ rest, Wire.Http.decodeResponse x.method (bytes ++ rest) = some (message, rest)) ∧
    message.status = response.status ∧
    message.body = upstreamBody x response ∧
    endToEnd (message.fields.map ofLine) =
      endToEnd (response.headers.map (·.toField)) ++ [⟨ascii "Proxy-Agent", ascii "clash-native"⟩] ∧
    (message.trailers.map ofLine).Sublist response.trailers

/-- **The condition**: no content is possible, or a body is sent in chunks. -/
def SelfDelimiting (x : Exchange) (response : UpstreamResponse) : Prop :=
  WithoutContent x response ∨ response.status ≠ 205 ∧ response.body.isSome

instance (x : Exchange) (response : UpstreamResponse) : Decidable (SelfDelimiting x response) :=
  inferInstanceAs (Decidable (_ ∨ _))

end ClashNative.Http.Forward
