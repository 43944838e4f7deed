import ClashNative.CoreTypes
/-!
# Http2Session — many exchanges, one HTTP/2 connection

`Http2ClientSession` of `http2_client.cpp`: its exchanges, the maps that nghttp2's callbacks, the deadline
tasks and the failure loops edit, and the connection's flow-control credit.  What nghttp2 answers is an
argument (`Calls`), with the streams that it closes as it is asked to send; `opened` is its own table of
them.

An event is what the executor runs: a read, a write that has completed, a task, a call of the user.  A
request body's `cancel` calls nothing of the session, and identifiers do not wrap.  `accept_tunnel` goes
on with a reference into the entry that it has itself erased: it is read as the `Pending`, which
`stream_pending_` still holds.  A session that is deleted in a callback makes no more of them.
-/
namespace ClashNative.Http2

abbrev ExchangeId := Nat
abbrev StreamId := Nat

/-- What was submitted: `handler`, `streaming_handler` or `tunnel_handler`. -/
inductive Kind
  | buffered
  | streaming
  | tunnel
  deriving DecidableEq, Repr

inductive Terminal
  | response
  | failed (code : ErrorCode)
  deriving DecidableEq, Repr

inductive SendResult
  | nothing
  | bytes
  | error
  deriving DecidableEq, Repr

structure Sent where
  closes : List (StreamId × Bool) := []
  result : SendResult := .nothing
  deriving Repr

/-- What nghttp2 answers in one step, each in order: what is sent, whether a request is taken, whether
consumed bytes are. -/
structure Calls where
  sends : List Sent := []
  submits : List Bool := []
  consumes : List Bool := []
  deriving Repr

/-! ## Exchanges -/

/-- `Pending`.  `handler`: its sender was not used; `pending`: `pending_` has it; `upgrade`: a tunnel of
`StreamUpgradeMode::upgrade`; `bodyLimit`: `response_body_limit` or `rejection_body_limit`; `answers`:
what was posted. -/
structure Pending where
  kind : Kind := .buffered
  upgrade : Bool := false
  headDeadlineOnly : Bool := false
  bodyLimit : Nat := 0
  handler : Bool := false
  pending : Bool := false
  completed : Bool := false
  timerDone : Bool := false
  streamId : Option StreamId := none
  status : Nat := 0
  bodySize : Nat := 0
  responseTooLarge : Bool := false
  streamingResponseDelivered : Bool := false
  streamingResponseComplete : Bool := false
  streamingBodyOverflow : Bool := false
  tunnelEstablished : Bool := false
  remoteEndStream : Bool := false
  answers : List Terminal := []
  deriving DecidableEq, Repr

namespace Pending

/-- `post_result` and its siblings: a sender that was moved from sends nothing. -/
def post (x : Pending) (terminal : Terminal) : Pending :=
  { x with handler := false, answers := if x.handler then x.answers ++ [terminal] else x.answers }

/-- `completed` and `timer_done` are set and the entry of `pending_` is erased. -/
def leave (x : Pending) : Pending := { x with completed := true, timerDone := true, pending := false }

def fail (x : Pending) (code : ErrorCode) : Pending := x.leave.post (.failed code)

def finish (x : Pending) : Pending :=
  x.leave.post (if x.responseTooLarge then .failed .protocolFraming else .response)

def acceptTunnel (x : Pending) : Pending := { x.leave with tunnelEstablished := true }.post .response

def deliver (x : Pending) : Pending :=
  { x with streamingResponseDelivered := true, timerDone := x.timerDone || x.headDeadlineOnly }.post .response

def failAll (x : Pending) (code : ErrorCode) : Pending :=
  if x.pending = false then x else if x.completed then x.leave else x.fail code

end Pending

/-! ## The session -/

/-- The session, nghttp2's streams and what it was given: `dataReceived` counts the bytes of
`on_data_chunk`, `creditReturned` what `nghttp2_session_consume_connection` has taken.  `stream_` is only
reset once `stream_closed_` is set. -/
structure State where
  pendings : ExchangeId → Pending := fun _ => {}
  nextExchangeId : ExchangeId := 1
  streamIds : StreamId → Option ExchangeId := fun _ => none
  streamPending : StreamId → Option ExchangeId := fun _ => none
  streamBytesPending : StreamId → Nat := fun _ => 0
  opened : StreamId → Option ExchangeId := fun _ => none
  nextStream : StreamId := 1
  waitingForConnectProtocol : List ExchangeId := []
  connectionBytesPending : Nat := 0
  dataReceived : Nat := 0
  creditReturned : Nat := 0
  pingPending : Bool := false
  pingMisses : Nat := 0
  peerConnectProtocolReceived : Bool := false
  peerConnectProtocolEnabled : Bool := false
  http2 : Bool := true
  streamClosed : Bool := false
  writeInProgress : Bool := false
  readInProgress : Bool := false
  retired : Bool := false
  stopped : Bool := false
  calls : Calls := {}

namespace State

def modify (s : State) (id : ExchangeId) (f : Pending → Pending) : State :=
  { s with pendings := fun i => if i = id then f (s.pendings i) else s.pendings i }

def emplaceStream (s : State) (id : ExchangeId) : State :=
  { s with
    streamIds := fun i => if i = s.nextStream then some id else s.streamIds i,
    streamPending := fun i => if i = s.nextStream then some id else s.streamPending i,
    opened := fun i => if i = s.nextStream then some id else s.opened i,
    nextStream := s.nextStream + 2 }

def eraseStream (s : State) (stream : StreamId) : State :=
  { s with
    streamIds := fun i => if i = stream then none else s.streamIds i,
    streamPending := fun i => if i = stream then none else s.streamPending i }

def entries (s : State) : List (StreamId × ExchangeId) :=
  (List.range s.nextStream).filterMap fun stream => (s.streamIds stream).map (stream, ·)

def pendingEmpty (s : State) : Bool := (List.range s.nextExchangeId).all fun id => !(s.pendings id).pending

def tunnelActive (s : State) : Bool :=
  (List.range s.nextStream).any fun stream => (s.streamPending stream).any fun id =>
  (s.pendings id).tunnelEstablished

/-- Whether the next call of `nghttp2_session_consume_connection` or its sibling is taken. -/
def consume (s : State) : State × Bool :=
  ({ s with calls := { s.calls with consumes := s.calls.consumes.tail } }, s.calls.consumes.headD true)

/-! ### Closing -/

def closeStream (s : State) : State := { s with streamClosed := true }

def closeHttp2 (s : State) : State := { s with http2 := false, opened := fun _ => none, pingPending := false }

def closeIfDrained (s : State) : State :=
  if s.retired ∧ s.pendingEmpty ∧ s.tunnelActive = false ∧ s.writeInProgress = false then s.closeStream else s

def failAll (s : State) (code : ErrorCode) : State :=
  { s with
    pendings := fun id => (s.pendings id).failAll code,
    streamIds := fun _ => none,
    streamPending := fun _ => none }

def connectionFailed (s : State) (code : ErrorCode) : State :=
  if s.stopped ∨ s.streamClosed then s else (closeHttp2 { s with retired := true }.closeStream).failAll code

def stop (s : State) : State :=
  if s.stopped then s
  else (closeHttp2 { s with stopped := true, retired := true }.closeStream).failAll .cancelled

/-! ### Streams that close, and sending -/

def failClosedPending (s : State) (id : ExchangeId) (code : ErrorCode) : State :=
  if (s.pendings id).pending = false ∨ (s.pendings id).completed then s else s.modify id (·.fail code)

/-- `on_stream_closed`: what it tells a tunnel is left out, so whether there was an error does not matter.
-/
def onStreamClosed (s : State) (stream : StreamId) (error : Bool) : State :=
  let s := { s with opened := fun i => if i = stream then none else s.opened i }
  match s.streamIds stream with
  | none => s
  | some id =>
    let s :=
      if (s.pendings id).pending ∧ (s.pendings id).completed = false ∧ error then
        s.failClosedPending id .protocolFraming
      else if (s.pendings id).pending ∧ (s.pendings id).completed = false then
        s.failClosedPending id .protocolFraming
      else s
    (s.eraseStream stream).closeIfDrained

def sendPending (s : State) : State :=
  if s.stopped ∨ s.streamClosed ∨ s.writeInProgress ∨ s.http2 = false then s
  else
    let sent := s.calls.sends.headD {}
    let s := { s with calls := { s.calls with sends := s.calls.sends.tail } }
    let s := sent.closes.foldl (fun s c => s.onStreamClosed c.1 c.2) s
    match sent.result with
    | .error => s.connectionFailed .protocolFraming
    | .nothing => s
    | .bytes => { s with writeInProgress := true }

/-! ### Failing and finishing -/

/-- `fail_pending`: while nghttp2 is there the stream is only reset, and keeps its entries until it is
closed. -/
def failPending (s : State) (id : ExchangeId) (code : ErrorCode) : State :=
  if (s.pendings id).pending = false ∨ (s.pendings id).completed then s
  else
    let s := if s.http2 then s else (s.pendings id).streamId.elim s s.eraseStream
    ((s.modify id (·.fail code)).sendPending).closeIfDrained

def finishPending (s : State) (id : ExchangeId) : State :=
  if (s.pendings id).pending = false ∨ (s.pendings id).completed then s else
    (s.modify id Pending.finish).closeIfDrained

/-- `finish_streaming_response`, of the exchange that `stream_ids_` names and of the record of
`stream_pending_`. -/
def finishStreamingResponse (s : State) (id record : ExchangeId) : State :=
  if (s.pendings record).completed then s
  else if (s.pendings record).streamingResponseDelivered = false then s.failPending id .protocolFraming
  else
    let s := s.modify record fun x => { x
      with streamingResponseComplete := true, completed := true, timerDone := true }
    (s.modify id ({ · with pending := false })).closeIfDrained

def handleResponseHeaders (s : State) (id : ExchangeId) : State :=
  let x := s.pendings id
  if x.pending = false then s
  else if x.kind = .tunnel then
    if x.tunnelEstablished ∨ x.status < 200 then s
    else if x.status < 300 then s.modify id Pending.acceptTunnel
    else s
  else if x.kind ≠ .streaming ∨ x.streamingResponseDelivered then s
  else if x.status < 200 then s.modify id ({ · with status := 0 })
  else if x.status = 101 then s.failPending id .protocolFraming
  else s.modify id Pending.deliver

/-! ### Submissions -/

/-- `nghttp2_submit_request2`, in `submit_request` and `submit_tunnel`. -/
def submitRequest (s : State) (id : ExchangeId) : State :=
  let accepted := s.calls.submits.headD true
  let s := { s with calls := { s.calls with submits := s.calls.submits.tail } }
  if accepted then (s.modify id ({ · with streamId := some s.nextStream })).emplaceStream id
  else s.failPending id .protocolFraming

def submitTunnel (s : State) (id : ExchangeId) : State :=
  if (s.pendings id).streamId.isSome ∨ (s.pendings id).completed ∨ s.http2 = false then s else s.submitRequest id

/-- Why a submission is answered at once; `invalid`: its checks, its body's length or its deadline. -/
def refusal (s : State) (x : Pending) (invalid : Option ErrorCode) : Option ErrorCode :=
  if s.stopped ∨ s.retired then some .cancelled
  else if invalid.isSome then invalid
  else if x.kind = .tunnel ∧ x.upgrade ∧ s.peerConnectProtocolReceived ∧
    s.peerConnectProtocolEnabled = false then
    some .protocolFraming
  else none

/-- `exchange`, `exchange_streaming` and `open_tunnel`. -/
def submit (s : State) (x : Pending) (invalid : Option ErrorCode) : State :=
  let id := s.nextExchangeId
  let refused := s.refusal x invalid
  let s := { s with nextExchangeId := id + 1 }
  match refused with
  | some code => s.modify id fun _ => { x with handler := true }.post (.failed code)
  | none =>
    let s := s.modify id fun _ => { x with handler := true, pending := true }
    (if x.kind ≠ .tunnel then s.submitRequest id
      else if x.upgrade ∧ s.peerConnectProtocolEnabled = false then
        { s with waitingForConnectProtocol := s.waitingForConnectProtocol ++ [id] }
      else s.submitTunnel id).sendPending

/-! ### Callbacks -/

/-- What nghttp2 calls as it is given what was read.  `header` is a `:status`, and `received` says that
the body of a streaming response takes the chunk; `data` is the frame that a chunk came in. -/
inductive Callback
  | header (stream : StreamId) (status : Nat)
  | dataChunk (stream : StreamId) (length : Nat) (received : Bool)
  | headers (stream : StreamId) (endHeaders endStream : Bool)
  | data (stream : StreamId) (endStream : Bool)
  | streamClosed (stream : StreamId) (error : Bool)
  | settings (enabled : Bool)
  | goaway (lastStream : StreamId)
  | pingAck
  deriving DecidableEq, Repr

def onHeader (s : State) (stream : StreamId) (status : Nat) : State :=
  match s.streamPending stream with
  | none => s
  | some id =>
    if (s.pendings id).tunnelEstablished ∨ (s.pendings id).streamingResponseDelivered then s
    else s.modify id ({ · with status })

def onDataChunk (s : State) (stream : StreamId) (length : Nat) (received : Bool) : State :=
  let s := { s with
    connectionBytesPending := s.connectionBytesPending + length, dataReceived := s.dataReceived + length }
  match s.streamPending stream with
  | none => s
  | some id =>
    let x := s.pendings id
    let t := { s with streamBytesPending := fun i => s.streamBytesPending i + if i = stream then length else 0 }
    if x.kind = .tunnel ∧ x.tunnelEstablished then s
    else if x.kind = .streaming then
      if x.streamingResponseDelivered ∧ received then s else
        s.modify id ({ · with streamingBodyOverflow := true })
    else if x.bodyLimit - min x.bodySize x.bodyLimit < length then
      t.modify id ({ · with responseTooLarge := true })
    else t.modify id ({ · with bodySize := x.bodySize + length })

/-- The end of a stream whose exchange was `found`. -/
def onEndStream (s : State) (stream : StreamId) (found : Option ExchangeId) : State :=
  match found, s.streamPending stream with
  | none, _ => s
  | some id, none => s.finishPending id
  | some id, some record =>
    if (s.pendings record).tunnelEstablished then s.modify record ({ · with remoteEndStream := true })
    else if (s.pendings record).kind = .streaming then s.finishStreamingResponse id record
    else s.finishPending id

/-- `on_frame_received`, of a HEADERS or a DATA frame. -/
def onFrameReceived (s : State) (stream : StreamId) (endHeaders endStream : Bool) : State :=
  let found := s.streamIds stream
  let s := if endHeaders then found.elim s s.handleResponseHeaders else s
  if endStream then s.onEndStream stream found else s

def handlePeerSettings (s : State) (enabled : Bool) : State :=
  let waiting := s.waitingForConnectProtocol
  let s := { s with
    peerConnectProtocolReceived := true, peerConnectProtocolEnabled := enabled, waitingForConnectProtocol := [] }
  if enabled then
    (waiting.foldl (fun s id => if (s.pendings id).pending then s.submitTunnel id else s) s).sendPending
  else waiting.foldl (fun s id => s.failPending id .protocolFraming) s

def handleGoaway (s : State) (lastStream : StreamId) : State :=
  if s.retired then s
  else
    let rejected := s.entries.filter (lastStream < ·.1)
    let s := { s with retired := true }
    (rejected.foldl (fun s e => s.failPending e.2 .protocolFraming) s).closeIfDrained

def callback (s : State) (c : Callback) : State :=
  if s.http2 = false then s
  else
    match c with
    | .header stream status => s.onHeader stream status
    | .dataChunk stream length received => s.onDataChunk stream length received
    | .headers stream endHeaders endStream => s.onFrameReceived stream endHeaders endStream
    | .data stream endStream => s.onFrameReceived stream false endStream
    | .streamClosed stream error => s.onStreamClosed stream error
    | .settings enabled => s.handlePeerSettings enabled
    | .goaway lastStream => s.handleGoaway lastStream
    | .pingAck => { s with pingPending := false, pingMisses := 0 }

/-! ### Reading and writing -/

/-- The records of `stream_pending_` whose body has overflowed. -/
def overflowing (s : State) : List ExchangeId :=
  (List.range s.nextStream).filterMap fun stream =>
    (s.streamPending stream).filter fun id => (s.pendings id).streamingBodyOverflow && !(s.pendings id).completed

def failStreamingBodyOverflows (s : State) : State :=
  let records := s.overflowing
  let failed := records.filterMap fun id => (s.pendings id).streamId.bind s.streamIds
  let s := records.foldl (fun s id => s.modify id ({ · with streamingBodyOverflow := false })) s
  failed.foldl (fun s id => s.failPending id .protocolFraming) s

/-- The loop of `update_receive_credit` over what is `consumed`. -/
def consumeStreams (consumed : StreamId → Nat) : List StreamId → State → State
  | [], s => s
  | stream :: rest, s =>
    if consumed stream = 0 ∨ s.streamIds stream = none then consumeStreams consumed rest s
    else if (s.streamPending stream).all fun id =>
    (s.pendings id).tunnelEstablished then consumeStreams consumed rest s
    else if s.consume.2 = false then s.consume.1.connectionFailed .protocolFraming
    else consumeStreams consumed rest s.consume.1

def updateReceiveCredit (s : State) : State :=
  if s.http2 = false then s
  else if s.connectionBytesPending ≠ 0 ∧ s.consume.2 = false then s.consume.1.connectionFailed .protocolFraming
  else
    let consumed := s.streamBytesPending
    let s := if s.connectionBytesPending ≠ 0 then s.consume.1 else s
    consumeStreams consumed (List.range s.nextStream) { s with
      creditReturned := s.creditReturned + s.connectionBytesPending,
      connectionBytesPending := 0,
      streamBytesPending := fun _ => 0 }

def readResponse (s : State) : State :=
  if s.stopped ∨ s.streamClosed ∨ s.readInProgress then s else { s with readInProgress := true }

/-- The read completes: with an `error`, or with what nghttp2 calls and whether it takes all of it. -/
inductive Read
  | error
  | bytes (callbacks : List Callback) (valid : Bool)
  deriving Repr

def onRead (s : State) (r : Read) : State :=
  if s.readInProgress = false then s
  else
    let s := { s with readInProgress := false }
    if s.stopped ∨ s.streamClosed then s
    else
      match r with
      | .error => s.connectionFailed .transportIo
      | .bytes callbacks valid =>
        let s := callbacks.foldl callback s
        if valid = false then s.connectionFailed .protocolFraming
        else
          let s := s.failStreamingBodyOverflows
          if s.stopped ∨ s.streamClosed ∨
            s.http2 = false then s else s.updateReceiveCredit.sendPending.readResponse

def onWritten (s : State) (error : Bool) : State :=
  if s.writeInProgress = false then s
  else
    let s := { s with writeInProgress := false }
    if s.stopped ∨ s.streamClosed then s
    else if error then s.connectionFailed .transportIo
    else s.sendPending.closeIfDrained

/-! ### Request bodies, deadlines, and the user of a response -/

/-- `on_request_body_read`; `failed`: the read, one of the checks behind it, or nghttp2. -/
def onRequestBodyRead (s : State) (id : ExchangeId) (failed : Option ErrorCode) : State :=
  let x := s.pendings id
  if x.completed ∨ s.stopped ∨ s.streamClosed ∨ s.http2 = false then s
  else
    match x.streamId.bind s.streamIds with
    | none => s
    | some exchange =>
      if x.streamId.bind s.streamPending ≠ some id then s
      else failed.elim s.sendPending (s.failPending exchange)

/-- `consume_stream_data`, and the same of a tunnel that was read, which does not ask `stream_pending_`.
-/
def consumeStreamData (s : State) (stream : StreamId) (tunnel : Bool) : State :=
  if s.http2 = false ∨ s.streamIds stream = none ∨ (tunnel = false ∧ s.streamPending stream = none) then s
  else if s.consume.2 = false then s.consume.1.connectionFailed .protocolFraming
  else s.consume.1.sendPending

def deadline (s : State) (id : ExchangeId) : State :=
  if (s.pendings id).timerDone then s else s.failPending id .timeout

/-- `ping_tick`; `submitted`: nghttp2 takes the PING. -/
def pingTick (s : State) (submitted : Bool) : State :=
  if s.stopped ∨ s.retired ∨ s.http2 = false then s
  else
    let s := { s with pingMisses := if s.pingPending then s.pingMisses + 1 else 0 }
    if s.pingPending ∧ 2 ≤ s.pingMisses ∨ submitted = false then s.connectionFailed .protocolFraming
    else { s with pingPending := true }.sendPending

end State

/-! ## Steps -/

/-- What can happen.  `cancel` is also the `cancel` of a response body; `tunnelSends` is a tunnel that
writes, closes or is reset. -/
inductive Event
  | submitBuffered (bodyLimit : Nat) (invalid : Option ErrorCode)
  | submitStreaming (headDeadlineOnly : Bool) (invalid : Option ErrorCode)
  | submitTunnel (upgrade : Bool) (bodyLimit : Nat) (invalid : Option ErrorCode)
  | read (r : State.Read)
  | written (error : Bool)
  | requestBodyRead (id : ExchangeId) (failed : Option ErrorCode)
  | consumeStreamData (stream : StreamId) (tunnel : Bool)
  | tunnelSends
  | deadline (id : ExchangeId)
  | cancel (id : ExchangeId)
  | pingTick (submitted : Bool)
  | stop
  deriving Repr

def State.handle (s : State) : Event → State
  | .submitBuffered bodyLimit invalid => s.submit { bodyLimit } invalid
  | .submitStreaming headDeadlineOnly invalid => s.submit { kind := .streaming, headDeadlineOnly } invalid
  | .submitTunnel upgrade bodyLimit invalid => s.submit { kind := .tunnel, upgrade, bodyLimit } invalid
  | .read r => s.onRead r
  | .written error => s.onWritten error
  | .requestBodyRead id failed => s.onRequestBodyRead id failed
  | .consumeStreamData stream tunnel => s.consumeStreamData stream tunnel
  | .tunnelSends => s.sendPending
  | .deadline id => s.deadline id
  | .cancel id => s.failPending id .cancelled
  | .pingTick submitted => s.pingTick submitted
  | .stop => s.stop

/-- **One step**: an event, and what nghttp2 answers in it. -/
def step (s : State) (e : Event × Calls) : State := { s with calls := e.2 }.handle e.1

def started (sent : Sent) : State := ({ calls := { sends := [sent] } } : State).sendPending.readResponse

end ClashNative.Http2
