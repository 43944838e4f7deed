import ClashNative.MpscChannel
import ClashNative.Interleavings
/-!
# MergeConcurrent — sources that are read at once, for one consumer

`MergeConcurrentStream` of `async/async_stream.hpp`, over sources that never fail and pulls that nobody
cancels.  A driver for each source sends what it reads into one unbounded channel, then an end; a pull
receives from the channel, and goes on past every end but the last.  A step is what a thread does up to
the next thing that another thread may touch: the channel, `in_frame_`, `repeat_`.  A pull that is
answered keeps its operation state until the consumer destroys it; a thread that started the receive is
still to clear `in_frame_` and to read `repeat_` there.
-/
namespace ClashNative.Async.MergeConcurrent

abbrev Thread (n : Nat) := Option (Fin n)

/-- **Where a thread is** in the operation of the last pull. -/
inductive Pc (T : Type)
  | idle
  /-- At the head of the loop of `pull`. -/
  | loop
  /-- `start` of the receive has returned. -/
  | leave
  /-- About to read `repeat_`. -/
  | check
  /-- About to complete the parked receive `j`, which it has handed `slot`. -/
  | pulled (j : Nat) (slot : Option T)
  /-- About to set `repeat_`, having read `in_frame_`. -/
  | mark (inline : Bool)
  deriving DecidableEq, Repr

/-- **`MergeShared`**, the drivers, and the operation state of the last pull, which the consumer has
(`held`) until it destroys it.  `produced` records what each driver has read, `pulls` the pulls, and
`results` their answers. -/
structure State (n : Nat) (T : Type) where
  channel : Mpsc.State (Option T)
  consumed : Nat := 0
  ended : Fin n → Bool := fun _ => false
  produced : Fin n → List T := fun _ => []
  pulling : Bool := false
  held : Bool := false
  inFrame : Bool := false
  repeat_ : Bool := false
  pc : Thread n → Pc T := fun _ => .idle
  pulls : Nat := 0
  results : List (Mpsc.RecvResult T) := []

variable {n : Nat} {T : Type}

def init (n : Nat) (T : Type) : State n T :=
  { channel := if n = 0 then Mpsc.unbounded.close else Mpsc.unbounded }

/-! ## The receive of a pull -/

/-- `pull_op_.reset()`, and the receive that is emplaced and started. -/
def restart {α : Type} (c : Mpsc.State α) : Mpsc.State α :=
  Runs.run Mpsc.step c [.destroyRecv (c.recvs.length - 1), .newRecv true, .startRecv c.recvs.length]

def inlineResult {α : Type} (c : Mpsc.State α) : Option (Mpsc.RecvResult α) := c.recvs.getLast?.bind (·.owed)

namespace State

def goto (s : State n T) (t : Thread n) (p : Pc T) : State n T := { s with pc := Function.update s.pc t p }

/-- A thread that completes the pull from `start` of the receive goes back there. -/
def complete (s : State n T) (t : Thread n) (inline : Bool) (r : Mpsc.RecvResult T) : State n T :=
  { s with pulling := false, results := s.results ++ [r] }.goto t (if inline then .leave else .idle)

def onPulled (s : State n T) (t : Thread n) (inline : Bool) : Mpsc.RecvResult (Option T) → State n T
  | .value none => s.complete t inline (.value none)
  | .value (some (some v)) => s.complete t inline (.value (some v))
  | .value (some none) =>
    let s := { s with consumed := s.consumed + 1 }
    if n ≤ s.consumed then s.complete t inline (.value none)
    else if s.inFrame then s.goto t (.mark inline)
    else s.goto t .loop
  | .violation => s.complete t inline .violation
  | .stopped => s.complete t inline .stopped

/-- One round of the loop of `pull`: `pull_raw`, until the receive has its completion or is parked. -/
def round (s : State n T) (t : Thread n) : State n T :=
  let c := restart s.channel
  let s := { s with repeat_ := false, inFrame := true }
  match inlineResult c with
  | none => { s with channel := c }.goto t .leave
  | some r => { s with channel := Mpsc.step c (.completeRecv (c.recvs.length - 1)) }.onPulled t true r

def advance (s : State n T) (t : Thread n) : State n T :=
  match s.pc t with
  | .idle => s
  | .loop => s.round t
  | .leave => { s.goto t .check with inFrame := false }
  | .check => s.goto t (if s.repeat_ then .loop else .idle)
  | .pulled j slot => { s with channel := Mpsc.step s.channel (.completeRecv j) }.onPulled t false
    (.value (some slot))
  | .mark inline => { s.goto t (if inline then .leave else .idle) with repeat_ := true }

def send (s : State n T) (i : Fin n) (slot : Option T) : State n T :=
  let handed := { s with channel := Mpsc.step s.channel (.trySend slot) }
  match s.channel.recvSlot with
  | some j => handed.goto (some i) (.pulled j slot)
  | none => handed

def reading (s : State n T) (i : Fin n) : Bool :=
  match s.pc (some i) with
  | .idle => !s.ended i
  | _ => false

end State

/-- What can happen: an item or the end of a source, a pull of the consumer, which takes the place of its
last one, the end of the answered operation's state, a step of a thread. -/
inductive Event (n : Nat) (T : Type)
  | yield (i : Fin n) (v : T)
  | finish (i : Fin n)
  | pull
  | drop
  | run (t : Thread n)

def step (s : State n T) : Event n T → State n T
  | .yield i v =>
    if s.reading i then { s with produced := Function.update s.produced i (s.produced i ++ [v]) }.send i
    (some v) else s
  | .finish i => if s.reading i then { s with ended := Function.update s.ended i true }.send i none else s
  | .pull =>
    if s.pulling then s
    else { s with pulling := true, held := true, pulls := s.pulls + 1, inFrame := false, repeat_ :=
      false }.goto none .loop
  | .drop => if s.pulling then s else { s with held := false }
  | .run t => s.advance t

/-! ## What the consumer may expect -/

def item : Mpsc.RecvResult T → Option T
  | .value v => v
  | _ => none

def isEnd : Mpsc.RecvResult T → Bool
  | .value none => true
  | _ => false

def Pc.slot? : Pc T → Option (Option T)
  | .pulled _ slot => some slot
  | _ => none

def Pc.work (n : Nat) (repeat_ : Bool) : Pc T → Nat
  | .idle => 0
  | .loop => 3
  | .leave => 2 + 3 * repeat_.toNat
  | .check => 1 + 3 * repeat_.toNat
  | .pulled _ _ => 3 * n + 11
  | .mark _ => 3 * n + 10

namespace State

def received (s : State n T) : List T := s.results.filterMap item

def told (s : State n T) : Bool := s.results.any isEnd

/-- What is on its way to the consumer: in the hands of a driver, or in the channel. -/
def pending (s : State n T) : List (Option T) :=
  (List.finRange n).filterMap (fun i => (s.pc (some i)).slot?) ++ s.channel.buffer

/-- **How much the threads can still do** before they wait. -/
def work (s : State n T) : Nat := (3 * n + 10) * s.channel.buffer.length + ∑ t, (s.pc t).work n s.repeat_

end State

open Interleavings (Interleaving)

/-- **What the merge promises.**  What was received, with what is on its way, is an interleaving of what
the sources gave.  The end is told when every source has ended and nothing is on its way; and a pull that
waits while no thread is at work, as after `work` many steps none is, waits for a source.  A pull has one
answer, an item or the end, and no thread is in an operation that is gone. -/
structure Merged (s : State n T) : Prop where
  interleaved : Interleaving (s.received ++ s.pending.reduceOption) s.produced
  end_told : s.told = true → (∀ i, s.ended i = true) ∧ s.pending = []
  waits : s.pulling = true → (∀ t, s.pc t = .idle) → s.pending = [] ∧ ∃ i, s.ended i = false
  settles : ∀ t, s.pc t ≠ .idle → (step s (.run t)).work < s.work
  answers : s.results.length + s.pulling.toNat = s.pulls ∧ ∀ r ∈ s.results, ∃ v, r = .value v
  gone : s.held = false → s.pulling = false ∧ ∀ t, s.pc t = .idle

/-- **The threads do not run into each other**: the last thread to leave `pull` finds no driver between
its look at `in_frame_` and its mark in `repeat_`; nor do two threads find that mark.  The consumer lets
every thread out of the answered operation before it destroys it or pulls again, and with some sources it
does not pull past the end. -/
def Orderly (s : State n T) : Event n T → Prop
  | .pull => s.pulling = false → (∀ t, s.pc t = .idle) ∧ (s.told = true → n = 0)
  | .drop => s.pulling = false → ∀ t, s.pc t = .idle
  | .run t => s.pc t = .check →
    if s.repeat_ then ∀ u, s.pc u ≠ .loop
    else (∃ d, s.pc d = .mark false) → ∃ u, u ≠ t ∧ (s.pc u = .leave ∨ s.pc u = .check)
  | _ => True

instance [DecidableEq T] (s : State n T) : (e : Event n T) → Decidable (Orderly s e)
  | .pull => inferInstanceAs (Decidable (s.pulling = false → (∀ t, s.pc t = .idle) ∧ (s.told = true → n = 0)))
  | .drop => inferInstanceAs (Decidable (s.pulling = false → ∀ t, s.pc t = .idle))
  | .run t => inferInstanceAs (Decidable (s.pc t = .check →
    if s.repeat_ then ∀ u, s.pc u ≠ .loop
    else (∃ d, s.pc d = .mark false) → ∃ u, u ≠ t ∧ (s.pc u = .leave ∨ s.pc u = .check)))
  | .yield _ _ => inferInstanceAs (Decidable True)
  | .finish _ => inferInstanceAs (Decidable True)

end ClashNative.Async.MergeConcurrent
