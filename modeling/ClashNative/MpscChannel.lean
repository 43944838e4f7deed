import ClashNative.Runs
import ClashNative.WaitNodes
/-!
# MpscChannel — the multi-producer single-consumer channel

`async/mpsc_channel.hpp`.  A step is one critical section under the channel's mutex, or the firing of a
completion that a section left owed: completions fire after the mutex has been released, so any step may
come in between.  `accepted` and `delivered` record, in order, what the sections took from a sender and
what they moved out to a receiver.
-/
namespace ClashNative.Async.Mpsc

open WaitNodes

/-- The completions of a bounded send: `set_value(accepted)` and `set_stopped`. -/
inductive SendResult
  | value (accepted : Bool)
  | stopped
  deriving DecidableEq, Repr

/-- The completions of a receive; `violation` is the `std::logic_error` of a second parked receive. -/
inductive RecvResult (α : Type)
  | value (v : Option α)
  | violation
  | stopped
  deriving DecidableEq, Repr

structure SendOp (α : Type) where
  node : Node SendResult
  value : α

/-- Where an accepted value came from, and where a delivered one went: an operation, or a call that never
waits. -/
inductive Origin
  | send (i : Nat)
  | trySend (n : Nat)
  deriving DecidableEq, Repr

inductive Target
  | recv (j : Nat)
  | tryRecv (n : Nat)
  deriving DecidableEq, Repr

/-- **The channel state** with its operations.  `capacity` is `none` when the channel is unbounded. -/
structure State (α : Type) where
  capacity : Option Nat
  buffer : List α := []
  recvSlot : Option Nat := none
  waitList : List Nat := []
  senders : Nat := 1
  closed : Bool := false
  closesOwed : Nat := 0
  sends : List (SendOp α) := []
  recvs : List (Node (RecvResult α)) := []
  trySent : List α := []
  tryReceived : Nat := 0
  accepted : List (Origin × α) := []
  delivered : List (Target × α) := []

variable {α : Type}

namespace State

def updSend (s : State α) (i : Nat) (f : Node SendResult → Node SendResult) : State α :=
  { s with sends := s.sends.modify i (fun op => { op with node := f op.node }) }

def updRecv (s : State α) (j : Nat) (f : Node (RecvResult α) → Node (RecvResult α)) : State α :=
  { s with recvs := s.recvs.modify j f }

def oweSend (s : State α) (i : Nat) (r : SendResult) : State α := s.updSend i (Node.owe r)

def oweRecv (s : State α) (j : Nat) (r : RecvResult α) : State α := s.updRecv j (Node.owe r)

/-- `unlink_send`, and the stage of the node that was unlinked. -/
def unlinkSend (s : State α) (i : Nat) (stage : Stage) : State α :=
  { s.updSend i (Node.leave stage) with waitList := s.waitList.erase i }

def clearSlot (s : State α) (j : Nat) (stage : Stage) : State α :=
  { s.updRecv j (Node.leave stage) with recvSlot := none }

/-- `wait_head`, which only a bounded channel looks at. -/
def waitHead (s : State α) : Option Nat := if s.capacity.isSome then s.waitList.head? else none

/-- A value may be buffered: always in an unbounded channel, below capacity in a bounded one. -/
def hasRoom (s : State α) : Bool :=
  match s.capacity with
  | none => true
  | some c => s.buffer.length < c

/-- `store` and the completion it makes due: the value goes straight to the parked receive. -/
def handOver (s : State α) (j : Nat) (o : Origin) (v : α) : State α :=
  let s := s.clearSlot j .kClaimed
  let s := { s with accepted := s.accepted ++ [(o, v)], delivered := s.delivered ++ [(Target.recv j, v)] }
  s.oweRecv j (.value (some v))

def push (s : State α) (o : Origin) (v : α) : State α :=
  { s with buffer := s.buffer ++ [v], accepted := s.accepted ++ [(o, v)] }

def trySend (s : State α) (v : α) : Bool × State α :=
  let o := .trySend s.trySent.length
  let s := { s with trySent := s.trySent ++ [v] }
  if s.closed then (false, s)
  else match s.recvSlot with
    | some j => (true, s.handOver j o v)
    | none => if s.hasRoom then (true, s.push o v) else (false, s)

/-- The receiving half of `try_recv` and of `RecvOpState::start`: the front of the buffer, whose slot the
oldest parked value takes; with nothing buffered, the oldest parked value itself. -/
def takeFront (s : State α) (t : Target) : Option α × State α :=
  match s.buffer, s.waitHead with
  | x :: rest, none => (some x, { s with buffer := rest, delivered := s.delivered ++ [(t, x)] })
  | x :: rest, some i =>
    match s.sends[i]? with
    | none => (none, s)
    | some op =>
      let s := s.unlinkSend i .kClaimed
      let s := { s with
        buffer := rest ++ [op.value],
        accepted := s.accepted ++ [(Origin.send i, op.value)],
        delivered := s.delivered ++ [(t, x)] }
      (some x, s.oweSend i (.value true))
  | [], none => (none, s)
  | [], some i =>
    match s.sends[i]? with
    | none => (none, s)
    | some op =>
      let s := s.unlinkSend i .kClaimed
      let s := { s with
        accepted := s.accepted ++ [(Origin.send i, op.value)],
        delivered := s.delivered ++ [(t, op.value)] }
      (some op.value, s.oweSend i (.value true))

def tryRecv (s : State α) : Option α × State α :=
  takeFront { s with tryReceived := s.tryReceived + 1 } (.tryRecv s.tryReceived)

def closeSend (s : State α) (i : Nat) : State α := (s.unlinkSend i .kClosed).oweSend i (.value false)

def closeRecv (s : State α) : State α :=
  match s.recvSlot with
  | some j => (s.clearSlot j .kClosed).oweRecv j (.value none)
  | none => s

def close (s : State α) : State α :=
  if s.closed then s
  else
    let s := closeRecv { s with closed := true }
    s.waitList.foldl closeSend s

def runSend (s : State α) (i : Nat) (op : SendOp α) : State α :=
  if !op.node.attached then s.oweSend i (.value false)
  else if op.node.stopRequested then s.oweSend i .stopped
  else if s.closed then s.oweSend i (.value false)
  else match s.recvSlot with
    | some j => (s.handOver j (.send i) op.value).oweSend i (.value true)
    | none =>
      if s.hasRoom then (s.push (.send i) op.value).oweSend i (.value true)
      else { s.updSend i (Node.leave .kQueued) with waitList := s.waitList ++ [i] }

/-- `SendOpState::start`; starting an operation twice, or one that was destroyed, is no step. -/
def startSend (s : State α) (i : Nat) : State α :=
  match s.sends[i]? with
  | none => s
  | some op => if op.node.started || op.node.destroyed then s else runSend (s.updSend i Node.start) i op

def runRecv (s : State α) (j : Nat) (op : Node (RecvResult α)) : State α :=
  if !op.attached then s.oweRecv j (.value none)
  else if op.stopRequested then s.oweRecv j .stopped
  else
    let r := s.takeFront (.recv j)
    match r.1 with
    | some v => r.2.oweRecv j (.value (some v))
    | none =>
      if s.closed then s.oweRecv j (.value none)
      else match s.recvSlot with
        | some _ => s.oweRecv j .violation
        | none => { s.updRecv j (Node.leave .kQueued) with recvSlot := some j }

def startRecv (s : State α) (j : Nat) : State α :=
  match s.recvs[j]? with
  | none => s
  | some op => if op.started || op.destroyed then s else runRecv (s.updRecv j Node.start) j op

/-- `SendOpState::on_stop`: a parked send is stopped, one that has not parked yet remembers the request.
-/
def stopSend (s : State α) (i : Nat) : State α :=
  match s.sends[i]? with
  | none => s
  | some op =>
    match op.node.stage with
    | .kQueued => (s.unlinkSend i .kStopped).oweSend i .stopped
    | .kInit => s.updSend i Node.requestStop
    | _ => s

def stopRecv (s : State α) (j : Nat) : State α :=
  match s.recvs[j]? with
  | none => s
  | some op =>
    match op.stage with
    | .kQueued => (s.clearSlot j .kStopped).oweRecv j .stopped
    | .kInit => s.updRecv j Node.requestStop
    | _ => s

/-- `~SendOpState`.  An operation whose completion is owed must not be destroyed, so that is no step. -/
def destroySend (s : State α) (i : Nat) : State α :=
  match s.sends[i]? with
  | none => s
  | some op =>
    if op.node.owed.isSome then s
    else if op.node.stage = .kQueued then (s.unlinkSend i .kGone).updSend i Node.destroy
    else s.updSend i Node.destroy

def destroyRecv (s : State α) (j : Nat) : State α :=
  match s.recvs[j]? with
  | none => s
  | some op =>
    if op.owed.isSome then s
    else if op.stage = .kQueued then (s.clearSlot j .kGone).updRecv j Node.destroy
    else s.updRecv j Node.destroy

end State

/-- What can happen.  A sender handle that goes away counts down first and closes the channel after, when
it was the last; `close` is called by any handle, and by the receiver's destructor. -/
inductive Event (α : Type)
  | trySend (v : α)
  | tryRecv
  | newSend (v : α) (attached : Bool)
  | startSend (i : Nat)
  | stopSend (i : Nat)
  | destroySend (i : Nat)
  | completeSend (i : Nat)
  | newRecv (attached : Bool)
  | startRecv (j : Nat)
  | stopRecv (j : Nat)
  | destroyRecv (j : Nat)
  | completeRecv (j : Nat)
  | copySender
  | dropSender
  | closeOwed
  | close

def step (s : State α) : Event α → State α
  | .trySend v => (s.trySend v).2
  | .tryRecv => s.tryRecv.2
  | .newSend v attached => { s with sends := s.sends ++ [⟨{ attached }, v⟩] }
  | .startSend i => s.startSend i
  | .stopSend i => s.stopSend i
  | .destroySend i => s.destroySend i
  | .completeSend i => s.updSend i Node.complete
  | .newRecv attached => { s with recvs := s.recvs ++ [{ attached }] }
  | .startRecv j => s.startRecv j
  | .stopRecv j => s.stopRecv j
  | .destroyRecv j => s.destroyRecv j
  | .completeRecv j => s.updRecv j Node.complete
  | .copySender => if s.senders = 0 then s else { s with senders := s.senders + 1 }
  | .dropSender =>
    if s.senders = 0 then s
    else { s with senders := s.senders - 1, closesOwed := s.closesOwed + if s.senders = 1 then 1 else 0 }
  | .closeOwed => if s.closesOwed = 0 then s else { s.close with closesOwed := s.closesOwed - 1 }
  | .close => s.close

def unbounded : State α := { capacity := none }
def bounded (capacity : Nat) : State α := { capacity := some capacity }

end ClashNative.Async.Mpsc
