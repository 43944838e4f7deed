import ClashNative.Runs
import ClashNative.SendWindow
/-!
# KcptunMuxStream — the sending half of a multiplexed stream

`KcptunMuxStreamState` of `kcptun_session.cpp`, with what it needs of its session.  A handler runs inside
`finish_write`, and may call the stream again before `pump_write` goes on.
-/
namespace ClashNative.Kcptun.Mux

open SendWindow (Entry Counters)

abbrev Bytes := List UInt8

/-- `KcptunClientOptions`: what `validate_options` has checked of the fields that are read here. -/
structure Options where
  smuxVersion : Nat
  frameSize : Nat
  version : smuxVersion = 1 ∨ smuxVersion = 2
  frame_pos : 0 < frameSize
  frame_le : frameSize ≤ 0xffff

def initialPeerWindow : UInt32 := 262144

def getU32 (input : Bytes) : UInt32 :=
  (input.getD 0 0).toUInt32 ||| (input.getD 1 0).toUInt32 <<< 8 ||| (input.getD 2 0).toUInt32 <<< 16 |||
    (input.getD 3 0).toUInt32 <<< 24

inductive StreamError
  | operationAborted | alreadyStarted | session
  deriving DecidableEq, Repr

structure PendingWrite where
  data : Bytes
  offset : Nat := 0
  deriving DecidableEq, Repr

def PendingWrite.rest (p : PendingWrite) : Bytes := p.data.drop p.offset

inductive Frame
  | push (payload : Bytes)
  | fin
  deriving DecidableEq, Repr

def Frame.payload : Frame → Bytes
  | .push payload => payload
  | .fin => []

/-- The stream, and the session as far as it shows.  `frames`: what was queued with the session;
`outstanding`: the PUSH frames that it has not reported yet; `results`: what the write handlers were
called with; `owed`: the bytes of the writes that were accepted, but for those that a cancelled write has
not put into a frame; `history`: that of the window. -/
structure StreamState where
  pending : Option PendingWrite := none
  window : Counters := ⟨0, 0, initialPeerWindow⟩
  finRequested : Bool := false
  finEnqueued : Bool := false
  localClosed : Bool := false
  closed : Bool := false
  sessionClosed : Bool := false
  registered : Bool := true
  frames : List Frame := []
  outstanding : Nat := 0
  returns : Nat := 0
  results : List (Except StreamError Nat) := []
  owed : Bytes := []
  history : List Entry := []

namespace StreamState

def rest (s : StreamState) : Bytes := (s.pending.map PendingWrite.rest).getD []

def report (s : StreamState) (result : Except StreamError Nat) : StreamState :=
  { s with results := s.results ++ [result] }

def finishWrite (s : StreamState) (error : Option StreamError) : StreamState :=
  match s.pending with
  | none => s
  | some p =>
    ({ s with pending := none, owed := s.owed.take (s.owed.length - p.rest.length) }).report
      (error.elim (.ok p.data.length) .error)

def onSessionError (s : StreamState) (error : StreamError) : StreamState :=
  if s.closed then s else ({ s with closed := true }).finishWrite (some error)

def failSession (s : StreamState) (error : StreamError) : StreamState :=
  if s.sessionClosed then s
  else
    let s := { s with sessionClosed := true }
    if s.registered then ({ s with registered := false }).onSessionError error else s

/-- A FIN is queued, with the handler of `pump_write`. -/
def enqueueFin (s : StreamState) : StreamState :=
  if s.sessionClosed then s.onSessionError .session else { s with frames := s.frames ++ [.fin] }

def requestFin (s : StreamState) : StreamState :=
  if s.finRequested ∧ s.finEnqueued = false then ({ s with finEnqueued := true }).enqueueFin else s

def available (s : StreamState) (o : Options) (p : PendingWrite) : Nat :=
  if o.smuxVersion = 2 then min (p.data.length - p.offset) s.window.room else p.data.length - p.offset

/-- A PUSH frame is queued with the next `count` bytes. -/
def push (s : StreamState) (o : Options) (p : PendingWrite) (count : Nat) : StreamState :=
  { s with
    pending := some { p with offset := p.offset + count }
    window := if o.smuxVersion = 2 then s.window.send count else s.window
    frames := s.frames ++ [.push (p.rest.take count)]
    outstanding := s.outstanding + 1
    history := .sent count :: s.history }

/-- `pump_write`.  The handler that it calls has not returned when it does: what follows is
`handlerReturned`. -/
def pumpWrite (s : StreamState) (o : Options) : StreamState :=
  if s.closed ∨ s.sessionClosed then s
  else
    match s.pending with
    | none => s.requestFin
    | some p =>
      if p.offset = p.data.length then { s.finishWrite none with returns := s.returns + 1 }
      else if o.smuxVersion = 2 ∧ s.window.Shut then s
      else if s.available o p = 0 then s
      else s.push o p (min o.frameSize (s.available o p))

def handlerReturned (s : StreamState) : StreamState :=
  if s.returns = 0 then s else ({ s with returns := s.returns - 1 }).requestFin

def asyncWrite (s : StreamState) (o : Options) (data : Bytes) : StreamState :=
  if s.closed ∨ s.localClosed then s.report (.error .operationAborted)
  else if s.pending.isSome then s.report (.error .alreadyStarted)
  else if data.length = 0 then s.report (.ok 0)
  else { s with pending := some { data := data }, owed := s.owed ++ data }.pumpWrite o

def shutdownSend (s : StreamState) (o : Options) : StreamState :=
  if s.closed ∨ s.localClosed then s else { s with localClosed := true, finRequested := true }.pumpWrite o

def cancelWrite (s : StreamState) : StreamState := s.finishWrite (some .operationAborted)

def close (s : StreamState) : StreamState :=
  if s.closed then s
  else
    let closing := { s with closed := true, localClosed := true }.finishWrite (some .operationAborted)
    let notified := if s.sessionClosed = false ∧
      s.localClosed = false then { closing with frames := closing.frames ++ [.fin] } else closing
    { notified with registered := false }

/-- `on_update`, of a stream that the session still has. -/
def onUpdate (s : StreamState) (o : Options) (payload : Bytes) : StreamState :=
  if s.registered = false then s
  else if o.smuxVersion ≠ 2 ∨ payload.length ≠ 8 ∨ s.closed then s.failSession .session
  else
    { s with
      window := s.window.update (getU32 payload) (getU32 (payload.drop 4))
      history := .update (getU32 payload) (getU32 (payload.drop 4)) :: s.history }.pumpWrite o

def pushDone (s : StreamState) (o : Options) (failed : Bool) : StreamState :=
  if s.outstanding = 0 then s
  else
    let s := { s with outstanding := s.outstanding - 1 }
    if failed then (if s.pending.isSome then s.onSessionError .session else s).failSession .session
    else if s.pending.isSome then s.pumpWrite o
    else s

end StreamState

inductive Event
  | write (data : Bytes)
  | update (payload : Bytes)
  | shutdown
  | cancel
  | close
  | pushDone (failed : Bool)
  | handlerReturned
  | sessionFailed
  deriving DecidableEq, Repr

def StreamState.step (o : Options) (s : StreamState) : Event → StreamState
  | .write data => s.asyncWrite o data
  | .update payload => s.onUpdate o payload
  | .shutdown => s.shutdownSend o
  | .cancel => s.cancelWrite
  | .close => s.close
  | .pushDone failed => s.pushDone o failed
  | .handlerReturned => s.handlerReturned
  | .sessionFailed => s.failSession .session

def run (o : Options) (events : List Event) : StreamState := Runs.run (StreamState.step o) {} events

end ClashNative.Kcptun.Mux
