import ClashNative.KcptunMuxStream
/-!
# SmuxStreams — the other two senders

The sending half of `SmuxStreamState` (`kcptun.cpp`), which writes to its transport itself, and of
`WebSocketMuxStreamState` (`websocket_mux.cpp`).
-/
namespace ClashNative.Kcptun

open SendWindow (Entry Counters)
open Mux (Options PendingWrite StreamError initialPeerWindow)

/-! ## `SmuxStreamState` -/

namespace Smux

/-- A packet that is queued: `control` is a SYN, an UPD or a NOP. -/
inductive Packet
  | push (payload : Mux.Bytes)
  | fin
  | control
  deriving DecidableEq, Repr

def Packet.payload : Packet → Mux.Bytes
  | .push payload => payload
  | _ => []

/-- `packets`: what was queued; `outstanding`: the writes of the transport that have not completed. -/
structure StreamState where
  pending : Option PendingWrite := none
  window : Counters := ⟨0, 0, initialPeerWindow⟩
  queuedWrites : List Packet := []
  finRequested : Bool := false
  finEnqueued : Bool := false
  writeInProgress : Bool := false
  localClosed : Bool := false
  closed : Bool := false
  packets : List Packet := []
  outstanding : Nat := 0
  returns : Nat := 0
  results : List (Except StreamError Nat) := []
  history : List Entry := []

namespace StreamState

def rest (s : StreamState) : Mux.Bytes := (s.pending.map PendingWrite.rest).getD []

def report (s : StreamState) (result : Except StreamError Nat) : StreamState :=
  { s with results := s.results ++ [result] }

def finishWrite (s : StreamState) (error : Option StreamError) : StreamState :=
  match s.pending with
  | none => s
  | some p => ({ s with pending := none }).report (error.elim (.ok p.data.length) .error)

def close (s : StreamState) : StreamState :=
  if s.closed then s else ({ s with closed := true, queuedWrites := [] }).finishWrite (some .operationAborted)

def closeWithError (s : StreamState) (error : StreamError) : StreamState :=
  if s.closed then s else (s.finishWrite (some error)).close

def enqueuePacket (s : StreamState) (packet : Packet) : StreamState :=
  { s with queuedWrites := s.queuedWrites ++ [packet], packets := s.packets ++ [packet] }

def available (s : StreamState) (o : Options) (p : PendingWrite) : Nat :=
  if o.smuxVersion = 2 then min (p.data.length - p.offset) s.window.room else p.data.length - p.offset

def push (s : StreamState) (o : Options) (p : PendingWrite) (count : Nat) : StreamState :=
  ({ s with
    pending := some { p with offset := p.offset + count }
    window := if o.smuxVersion = 2 then s.window.send count else s.window
    history := .sent count :: s.history }).enqueuePacket (.push (p.rest.take count))

/-- The end of `pump_write`: the first packet is written. -/
def startWrite (s : StreamState) : StreamState :=
  match s.queuedWrites with
  | [] => s
  | _ :: rest => { s with queuedWrites := rest, writeInProgress := true, outstanding := s.outstanding + 1 }

def pumpRest (s : StreamState) : StreamState :=
  if s.queuedWrites = [] ∧ s.finRequested ∧ s.finEnqueued = false then
    (({ s with finEnqueued := true }).enqueuePacket .fin).startWrite
  else s.startWrite

def pumpWrite (s : StreamState) (o : Options) : StreamState :=
  if s.closed ∨ s.writeInProgress then s
  else if s.queuedWrites ≠ [] then s.startWrite
  else
    match s.pending with
    | none => s.pumpRest
    | some p =>
      if p.offset < p.data.length then
        if o.smuxVersion = 2 ∧ s.window.Shut then s else
          (s.push o p (min o.frameSize (s.available o p))).pumpRest
      else { s.finishWrite none with returns := s.returns + 1 }

def handlerReturned (s : StreamState) : StreamState :=
  if s.returns = 0 then s else ({ s with returns := s.returns - 1 }).pumpRest

def asyncWrite (s : StreamState) (o : Options) (data : Mux.Bytes) : StreamState :=
  if s.closed ∨ s.localClosed then s.report (.error .operationAborted)
  else if s.pending.isSome then s.report (.error .alreadyStarted)
  else if data.length = 0 then s.report (.ok 0)
  else { s with pending := some { data := data } }.pumpWrite o

def shutdownSend (s : StreamState) (o : Options) : StreamState :=
  if s.closed ∨ s.localClosed then s else { s with localClosed := true, finRequested := true }.pumpWrite o

/-- `handle_frame`, of an UPD frame of this stream. -/
def onUpdate (s : StreamState) (o : Options) (payload : Mux.Bytes) : StreamState :=
  if o.smuxVersion ≠ 2 ∨ payload.length ≠ 8 then s.closeWithError .session
  else
    { s with
      window := s.window.update (Mux.getU32 payload) (Mux.getU32 (payload.drop 4))
      history := .update (Mux.getU32 payload) (Mux.getU32 (payload.drop 4)) :: s.history }.pumpWrite o

def writeDone (s : StreamState) (o : Options) (failed : Bool) : StreamState :=
  if s.outstanding = 0 then s
  else
    let s := { s with outstanding := s.outstanding - 1, writeInProgress := false }
    if failed then s.closeWithError .session else s.pumpWrite o

end StreamState

/-- What happens to a stream; `control`: a packet that is no PUSH is queued. -/
inductive Event
  | write (data : Mux.Bytes)
  | control
  | update (payload : Mux.Bytes)
  | shutdown
  | cancel
  | close
  | writeDone (failed : Bool)
  | handlerReturned
  deriving DecidableEq, Repr

def StreamState.step (o : Options) (s : StreamState) : Event → StreamState
  | .write data => s.asyncWrite o data
  | .control => (s.enqueuePacket .control).pumpWrite o
  | .update payload => s.onUpdate o payload
  | .shutdown => s.shutdownSend o
  | .cancel => s.finishWrite (some .operationAborted)
  | .close => s.close
  | .writeDone failed => s.writeDone o failed
  | .handlerReturned => s.handlerReturned

def run (o : Options) (events : List Event) : StreamState := Runs.run (StreamState.step o) {} events

end Smux

/-! ## `WebSocketMuxStreamState` -/

namespace WebSocketMux

/-- `WebSocketMuxOptions`: what the handshake has checked of the fields that are read here. -/
structure WebSocketMuxOptions where
  smuxV2 : Bool
  maxFrameSize : Nat
  frame_pos : 0 < maxFrameSize
  frame_le : maxFrameSize ≤ 0xffff

inductive Frame
  | data (payload : Mux.Bytes)
  | close
  deriving DecidableEq, Repr

def Frame.payload : Frame → Mux.Bytes
  | .data payload => payload
  | .close => []

/-- `session`: `session_` is set; `sessionClosed`: it is closed; `registered`: it still has the stream. -/
structure StreamState where
  pending : Option PendingWrite := none
  window : Counters := ⟨0, 0, initialPeerWindow⟩
  localClosed : Bool := false
  endRequested : Bool := false
  endEnqueued : Bool := false
  closed : Bool := false
  session : Bool := true
  sessionClosed : Bool := false
  registered : Bool := true
  frames : List Frame := []
  outstanding : Nat := 0
  returns : Nat := 0
  results : List (Except StreamError Nat) := []
  history : List Entry := []

namespace StreamState

def rest (s : StreamState) : Mux.Bytes := (s.pending.map PendingWrite.rest).getD []

def report (s : StreamState) (result : Except StreamError Nat) : StreamState :=
  { s with results := s.results ++ [result] }

def finishWrite (s : StreamState) (error : Option StreamError) : StreamState :=
  match s.pending with
  | none => s
  | some p => ({ s with pending := none }).report (error.elim (.ok p.data.length) .error)

def onSessionError (s : StreamState) (error : StreamError) : StreamState :=
  if s.closed then s else { ({ s with closed := true }).finishWrite (some error) with session := false }

def failSession (s : StreamState) (error : StreamError) : StreamState :=
  if s.sessionClosed then s
  else
    let s := { s with sessionClosed := true }
    if s.registered then ({ s with registered := false }).onSessionError error else s

def enqueueFrame (s : StreamState) (frame : Frame) : StreamState :=
  if s.sessionClosed then s else { s with frames := s.frames ++ [frame] }

def requestEnd (s : StreamState) : StreamState :=
  if s.endRequested ∧ s.endEnqueued = false then ({ s with endEnqueued := true }).enqueueFrame .close else s

def available (s : StreamState) (o : WebSocketMuxOptions) (p : PendingWrite) : Nat :=
  if o.smuxV2 then min (p.data.length - p.offset) s.window.room else p.data.length - p.offset

/-- The next `count` bytes become a data frame; a session that is closed gives it back. -/
def push (s : StreamState) (o : WebSocketMuxOptions) (p : PendingWrite) (count : Nat) : StreamState :=
  let sent : StreamState :=
    { s with
      pending := some { p with offset := p.offset + count }
      window := if o.smuxV2 then s.window.send count else s.window
      history := .sent count :: s.history
      frames := s.frames ++ [Frame.data (p.rest.take count)] }
  if s.sessionClosed then (sent.finishWrite (some .operationAborted)).onSessionError .operationAborted
  else { sent with outstanding := s.outstanding + 1 }

def pumpWrite (s : StreamState) (o : WebSocketMuxOptions) : StreamState :=
  if s.closed ∨ s.session = false then s
  else
    match s.pending with
    | none => s.requestEnd
    | some p =>
      if p.offset = p.data.length then { s.finishWrite none with returns := s.returns + 1 }
      else if o.smuxV2 ∧ s.window.Shut then s
      else if s.available o p = 0 then s
      else s.push o p (min (s.available o p) o.maxFrameSize)

def handlerReturned (s : StreamState) : StreamState :=
  if s.returns = 0 then s else ({ s with returns := s.returns - 1 }).requestEnd

def writeSome (s : StreamState) (o : WebSocketMuxOptions) (data : Mux.Bytes) : StreamState :=
  if s.closed ∨ s.localClosed then s.report (.error .operationAborted)
  else if s.pending.isSome then s.report (.error .alreadyStarted)
  else { s with pending := some { data := data } }.pumpWrite o

def shutdownSend (s : StreamState) (o : WebSocketMuxOptions) : StreamState :=
  if s.closed ∨ s.localClosed then s else { s with localClosed := true, endRequested := true }.pumpWrite o

def streamClose (s : StreamState) : StreamState :=
  let s := { s with registered := false }
  if s.sessionClosed = false ∧ s.endEnqueued = false then
    ({ s with endEnqueued := true }).enqueueFrame .close else s

def close (s : StreamState) : StreamState :=
  if s.closed then s
  else
    let s := { s with closed := true, localClosed := true }.finishWrite (some .operationAborted)
    if s.session then s.streamClose else s

/-- `on_update`, of a stream that the session still has. -/
def onUpdate (s : StreamState) (o : WebSocketMuxOptions) (payload : Mux.Bytes) : StreamState :=
  if s.registered = false then s
  else if s.session = false ∨ o.smuxV2 = false ∨ payload.length ≠ 8 ∨ s.closed then
    if s.session then s.failSession .session else s
  else
    { s with
      window := s.window.update (Mux.getU32 payload) (Mux.getU32 (payload.drop 4))
      history := .update (Mux.getU32 payload) (Mux.getU32 (payload.drop 4)) :: s.history }.pumpWrite o

def dataDone (s : StreamState) (o : WebSocketMuxOptions) (failed : Bool) : StreamState :=
  if s.outstanding = 0 then s
  else
    let s := { s with outstanding := s.outstanding - 1 }
    if failed then
      (if s.pending.isSome then (s.finishWrite (some .session)).onSessionError
        .session else s).failSession .session
    else if s.pending.isSome then s.pumpWrite o
    else s

end StreamState

inductive Event
  | write (data : Mux.Bytes)
  | update (payload : Mux.Bytes)
  | shutdown
  | cancel
  | close
  | dataDone (failed : Bool)
  | handlerReturned
  | sessionFailed
  deriving DecidableEq, Repr

def StreamState.step (o : WebSocketMuxOptions) (s : StreamState) : Event → StreamState
  | .write data => s.writeSome o data
  | .update payload => s.onUpdate o payload
  | .shutdown => s.shutdownSend o
  | .cancel => s.finishWrite (some .operationAborted)
  | .close => s.close
  | .dataDone failed => s.dataDone o failed
  | .handlerReturned => s.handlerReturned
  | .sessionFailed => s.failSession .session

def run (o : WebSocketMuxOptions) (events : List Event) : StreamState := Runs.run (StreamState.step o) {} events

end WebSocketMux
end ClashNative.Kcptun
