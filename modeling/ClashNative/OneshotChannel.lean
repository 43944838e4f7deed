import ClashNative.Runs
/-!
# OneshotChannel — one value, one receive

`async/oneshot.hpp`.  A step is one critical section under the channel's mutex, or what happens outside of
it: the start of a receive registers its stop callback and looks at the channel later, and a completion
that is decided fires later still.
-/
namespace ClashNative.Async.Oneshot

open List

variable {T E : Type}

/-- `set_value` with a value or without one, `set_error`, `set_stopped`. -/
inductive Completion (T E : Type)
  | value (x : T)
  | closed
  | error (e : E)
  | stopped
  deriving DecidableEq, Repr

/-- What the channel is settled with: `Status::kValue` or `Status::kError`. -/
inductive Content (T E : Type)
  | value (x : Option T)
  | error (e : E)
  deriving DecidableEq, Repr

def Content.completion : Content T E → Completion T E
  | .value (some x) => .value x
  | .value none => .closed
  | .error e => .error e

/-- How far a receive is: it has looked at the channel in `kParked` and behind; `kStopped` and `kGone` are
a parked receive that was stopped, or destroyed. -/
inductive Stage
  | kInit | kStarting | kParked | kDone | kStopped | kGone
  deriving DecidableEq, Repr

def Stage.lost : Stage → Bool
  | .kStopped | .kGone => true
  | _ => false

/-- `OpState`.  `attached`: it has the channel; `owed` is the completion that has been decided and not
fired. -/
structure Op (T E : Type) where
  attached : Bool := false
  stage : Stage := .kInit
  stopRequested : Bool := false
  callbackRan : Bool := false
  destroyed : Bool := false
  owed : Option (Completion T E) := none
  completions : List (Completion T E) := []

def Op.outcome (op : Op T E) : List (Completion T E) := op.completions ++ op.owed.toList

def Op.finish (stage : Stage) (c : Completion T E) (op : Op T E) : Op T E :=
  { op with stage := stage, owed := some c }

/-- A call of `send`, and what the caller has left of the value. -/
structure Sending (T : Type) where
  value : T
  byReference : Bool
  ok : Bool
  left : Option T
  deriving DecidableEq, Repr

/-- **The channel with its two ends and its receives.**  `attached`: the sender has the channel;
`receiver`: so has the receiver.  `content` is `status` with what goes with it.  `sends` and `settles`,
the settlements of any kind, are for the statements. -/
structure State (T E : Type) where
  attached : Bool := true
  receiver : Bool := true
  content : Option (Content T E) := none
  waiter : Option Nat := none
  detached : Bool := false
  ops : Nat → Op T E := fun _ => {}
  count : Nat := 0
  sends : List (Sending T) := []
  settles : Nat := 0

namespace State

def modify (s : State T E) (i : Nat) (f : Op T E → Op T E) : State T E :=
  { s with ops := fun j => if j = i then f (s.ops j) else s.ops j }

/-- `settle`, with what it returns; the waiter is completed behind it. -/
def settle (s : State T E) (c : Content T E) : State T E × Bool :=
  if !s.attached then (s, false)
  else if s.content.isSome then (s, false)
  else if s.detached then (s, false)
  else
    let s' := { s with content := some c, attached := false, waiter := none, settles := s.settles + 1 }
    match s.waiter with
    | none => (s', true)
    | some i => (s'.modify i (Op.finish .kDone c.completion), true)

/-- `send`, of a value or of a reference to an optional. -/
def send (s : State T E) (value : T) (byReference : Bool) : State T E :=
  let r := s.settle (.value (some value))
  { r.1 with sends := r.1.sends ++ [⟨value, byReference, r.2,
    if byReference && !r.2 then some value else none⟩] }

/-- `connect`: the receive takes the channel from the receiver, which may have been connected before. -/
def connect (s : State T E) : State T E :=
  { s.modify s.count (fun _ => { attached := s.receiver }) with count := s.count + 1, receiver := false }

/-- `start`, up to the registration of the stop callback. -/
def start (s : State T E) (i : Nat) : State T E :=
  if i < s.count ∧ (s.ops i).stage = .kInit ∧ (s.ops i).destroyed = false then
    if (s.ops i).attached then s.modify i fun op => { op with stage := .kStarting }
    else s.modify i (Op.finish .kDone .closed)
  else s

def arbitrate (s : State T E) (i : Nat) : State T E :=
  if (s.ops i).stage ≠ .kStarting then s
  else if (s.ops i).stopRequested then s.modify i (Op.finish .kDone .stopped)
  else
    match s.content with
    | some c => s.modify i (Op.finish .kDone c.completion)
    | none => { s.modify i (fun op => { op with stage := .kParked }) with waiter := some i }

/-- `on_stop`.  The callback runs once, when it is registered and has not been taken back with the
operation. -/
def stop (s : State T E) (i : Nat) : State T E :=
  if (s.ops i).attached = false ∨ (s.ops i).stage = .kInit ∨ (s.ops i).callbackRan ∨ (s.ops i).destroyed then s
  else
    let s := s.modify i fun op => { op with callbackRan := true }
    if s.waiter = some i then
      { s.modify i (Op.finish .kStopped .stopped) with waiter := none, detached := true }
    else if s.content.isNone then s.modify i fun op => { op with stopRequested := true }
    else s

def complete (s : State T E) (i : Nat) : State T E :=
  s.modify i fun op => { op with owed := none, completions := op.completions ++ op.owed.toList }

/-- `~OpState`.  An operation is not destroyed while it starts or while a completion is on its way. -/
def destroy (s : State T E) (i : Nat) : State T E :=
  if s.count ≤ i ∨ (s.ops i).stage = .kStarting ∨ (s.ops i).owed.isSome then s
  else if s.waiter = some i then
    { s.modify i (fun op => { op with stage := .kGone, destroyed := true })
      with waiter := none, detached := true }
  else s.modify i fun op => { op with destroyed := true }

end State

inductive Event (T E : Type)
  | send (value : T) (byReference : Bool)
  | sendError (e : E)
  | close
  | dropReceiver
  | connect
  | start (i : Nat)
  | arbitrate (i : Nat)
  | stop (i : Nat)
  | complete (i : Nat)
  | destroy (i : Nat)
  deriving DecidableEq, Repr

def State.step (s : State T E) : Event T E → State T E
  | .send value byReference => s.send value byReference
  | .sendError e => (s.settle (.error e)).1
  | .close => (s.settle (.value none)).1
  | .dropReceiver => { s with receiver := false }
  | .connect => s.connect
  | .start i => s.start i
  | .arbitrate i => s.arbitrate i
  | .stop i => s.stop i
  | .complete i => s.complete i
  | .destroy i => s.destroy i

def run (events : List (Event T E)) : State T E := Runs.run State.step {} events

/-! ## What is promised -/

namespace State

def Lost (s : State T E) : Prop := ∃ i, (s.ops i).stage.lost = true

/-- **What is promised of the channel.**  It is settled once, if no parked receive was stopped or
destroyed by then; a refusal changes nothing.  A receive completes once, unless it waits for the channel
to be settled or was destroyed when it waited; a value that was sent is that of the receive that has the
channel, if that was not stopped before it looked, and of no other. -/
structure Contract (s : State T E) : Prop where
  accepts : ∀ c, (s.settle c).2 = true ↔ s.settles = 0 ∧ ¬ s.Lost
  refuses : ∀ c, (s.settle c).2 = false → (s.settle c).1 = s
  single : s.settles ≤ 1 ∧ (s.sends.filter Sending.ok).length ≤ s.settles
  kept : ∀ r, r ∈ s.sends → r.ok = false → r.byReference = true → r.left = some r.value
  once : ∀ i, (s.ops i).outcome.length ≤ 1
  answered : ∀ i, (s.ops i).stage = .kDone ∨ (s.ops i).stage = .kStopped → (s.ops i).outcome.length = 1
  waits : ∀ i, (s.ops i).stage = .kParked → s.settles = 0 ∧ ¬ s.Lost
  delivered : ∀ r, r ∈ s.sends → r.ok = true → ∀ i, (s.ops i).attached = true → (s.ops i).stage = .kDone →
    (s.ops i).stopRequested = false →
    (s.ops i).outcome = [.value r.value]
  given : ∀ i x, .value x ∈ (s.ops i).outcome → (s.ops i).attached = true ∧ ∃ r, r ∈ s.sends ∧
    r.ok = true ∧ r.value = x
  holder : ∀ i j, (s.ops i).attached = true → (s.ops j).attached = true → i = j

end State

/-! ## The invariant -/

/-- **A receive is in order**: what is said of it agrees with how far it is. -/
inductive OpOk (content : Option (Content T E)) (waiter : Option Nat) (i : Nat) (op : Op T E) : Prop
  | fresh (hstage : op.stage = .kInit) (hout : op.outcome = []) (hstop : op.stopRequested = false)
    (hwaiter : waiter ≠ some i)
  | starting (hstage : op.stage = .kStarting) (hattached : op.attached = true) (hout : op.outcome = [])
      (hstop : op.stopRequested = true → op.callbackRan = true) (hwaiter : waiter ≠ some i)
  | parked (hstage : op.stage = .kParked) (hattached : op.attached = true) (hout : op.outcome = [])
    (hwaiter : waiter = some i)
  | foreign (hstage : op.stage = .kDone) (hattached : op.attached = false) (hout : op.outcome = [.closed])
    (hwaiter : waiter ≠ some i)
  | cancelled (hstage : op.stage = .kDone) (hattached : op.attached = true) (hout : op.outcome = [.stopped])
      (hstop : op.stopRequested = true ∧ op.callbackRan = true) (hwaiter : waiter ≠ some i)
  | settled (hstage : op.stage = .kDone) (hattached : op.attached = true) (c : Content T E)
    (hcontent : content = some c)
      (hout : op.outcome = [c.completion]) (hwaiter : waiter ≠ some i)
  | stopped (hstage : op.stage = .kStopped) (hattached : op.attached = true) (hout : op.outcome = [.stopped])
      (hran : op.callbackRan = true) (hwaiter : waiter ≠ some i)
  | gone (hstage : op.stage = .kGone) (hattached : op.attached = true) (hout : op.outcome = [])
    (hdestroyed : op.destroyed = true)
      (hwaiter : waiter ≠ some i)

structure Core (s : State T E) : Prop where
  op : ∀ i, OpOk s.content s.waiter i (s.ops i)
  unborn : ∀ i, s.count ≤ i → (s.ops i).attached = false ∧ (s.ops i).stage = .kInit
  waiting : ∀ i, s.waiter = some i → (s.ops i).stage = .kParked
  holder : ∀ i j, (s.ops i).attached = true → (s.ops j).attached = true → i = j
  held : s.receiver = true → ∀ i, (s.ops i).attached = false
  lost : s.detached = true ↔ s.Lost
  apart : s.content.isSome = true → s.detached = false ∧ s.waiter = none
  settled : s.settles = (if s.content.isSome then 1 else 0) ∧ s.attached = !s.content.isSome

structure Ok (s : State T E) : Prop extends Core s where
  sent : ∀ r, r ∈ s.sends → r.ok = true → s.content = some (.value (some r.value))
  source : ∀ x, s.content = some (.value (some x)) → ∃ r, r ∈ s.sends ∧ r.ok = true ∧ r.value = x
  tally : (s.sends.filter Sending.ok).length ≤ s.settles
  kept : ∀ r, r ∈ s.sends → r.ok = false → r.byReference = true → r.left = some r.value

variable {s : State T E} {i : Nat}

theorem Core.attached_of_stage (h : Core s) (hinit : (s.ops i).stage ≠ .kInit)
    (hdone : (s.ops i).stage ≠ .kDone) :
    (s.ops i).attached = true := by
  cases h.op i with
  | fresh hs => exact absurd hs hinit
  | foreign hs => exact absurd hs hdone
  | starting _ ha | parked _ ha | cancelled _ ha | settled _ ha | stopped _ ha | gone _ ha => exact ha

theorem Core.not_detached (h : Core s) (hstage : (s.ops i).stage = .kParked ∨
    (s.ops i).stage = .kStarting) : s.detached = false := by
  cases hdetached : s.detached with
  | false => rfl
  | true =>
    obtain ⟨j, hj⟩ := h.lost.1 hdetached
    have hij : i = j := by
      refine h.holder i j (h.attached_of_stage ?_ ?_) (h.attached_of_stage (fun hs => ?_) fun hs => ?_)
      · rcases hstage with hs | hs <;> rw [hs] <;> decide
      · rcases hstage with hs | hs <;> rw [hs] <;> decide
      · rw [hs] at hj
        cases hj
      · rw [hs] at hj
        cases hj
    subst hij
    rcases hstage with hs | hs
    · rw [hs] at hj
      cases hj
    · rw [hs] at hj
      cases hj

theorem Core.of_parked (h : Core s) (hstage : (s.ops i).stage = .kParked) :
    s.waiter = some i ∧ s.content = none := by
  have hwaiter : s.waiter = some i := by
    cases h.op i with
    | parked _ _ _ hwaiter => exact hwaiter
    | fresh hs | starting hs | foreign hs | cancelled hs | settled hs | stopped hs | gone hs =>
      rw [hs] at hstage; cases hstage
  refine ⟨hwaiter, ?_⟩
  cases hcontent : s.content with
  | none => rfl
  | some c =>
    have hnone := (h.apart (by rw [hcontent]; rfl)).2
    rw [hwaiter] at hnone
    cases hnone

theorem Core.of_waiter (h : Core s) (hwaiter : s.waiter = some i) :
    i < s.count ∧ (s.ops i).attached = true ∧ (s.ops i).outcome = [] ∧ s.content = none := by
  have hparked := h.waiting i hwaiter
  refine ⟨?_, ?_⟩
  · by_contra hborn
    have hinit := (h.unborn i (Nat.not_lt.1 hborn)).2
    rw [hparked] at hinit
    cases hinit
  · cases h.op i with
    | parked _ hattached hout _ => exact ⟨hattached, hout, (h.of_parked hparked).2⟩
    | fresh hs | starting hs | foreign hs | cancelled hs | settled hs | stopped hs | gone hs =>
      rw [hs] at hparked; cases hparked

theorem Ok.contract (h : Ok s) : s.Contract where
  accepts c := by
    rw [← h.lost, h.settled.1]
    unfold State.settle
    rw [h.settled.2]
    cases s.content.isSome <;> cases s.detached <;> simp
    split <;> rfl
  refuses c := by
    unfold State.settle
    split
    · exact fun _ => rfl
    · split
      · exact fun _ => rfl
      · split
        · exact fun _ => rfl
        · split <;> exact fun hf => Bool.noConfusion hf
  single := ⟨by rw [h.settled.1]; split <;> decide, h.tally⟩
  kept := h.kept
  once i := by
    cases h.op i with
    | fresh _ hout | starting _ _ hout | parked _ _ hout | gone _ _ hout => rw [hout]; exact Nat.zero_le 1
    | foreign _ _ hout | cancelled _ _ hout | stopped _ _ hout => rw [hout]; exact Nat.le_refl 1
    | settled _ _ _ _ hout => rw [hout]; exact Nat.le_refl 1
  answered i hstage := by
    cases h.op i with
    | fresh hs | starting hs | parked hs | gone hs => rw [hs] at hstage; exact absurd hstage (by decide)
    | foreign _ _ hout | cancelled _ _ hout | stopped _ _ hout => rw [hout]; rfl
    | settled _ _ _ _ hout => rw [hout]; rfl
  waits i hstage := by
    rw [← h.lost, h.not_detached (.inl hstage), h.settled.1, (h.of_parked hstage).2]
    exact ⟨rfl, Bool.false_ne_true⟩
  delivered r hr hok i hattached hstage hstop := by
    have hsent := h.sent r hr hok
    cases h.op i with
    | settled _ _ c hcontent hout =>
      rw [hsent] at hcontent
      cases hcontent
      exact hout
    | cancelled _ _ _ hstopped => exact absurd (hstop.symm.trans hstopped.1) Bool.false_ne_true
    | foreign _ hforeign => exact absurd (hforeign.symm.trans hattached) Bool.false_ne_true
    | fresh hs | starting hs | parked hs | stopped hs | gone hs => rw [hs] at hstage; cases hstage
  given i x hx := by
    cases h.op i with
    | settled _ hattached c hcontent hout =>
      rw [hout, mem_singleton] at hx
      refine ⟨hattached, h.source x ?_⟩
      rw [hcontent]
      cases c with
      | error e => cases hx
      | value y =>
        cases y with
        | none => cases hx
        | some y =>
          cases hx
          rfl
    | fresh _ hout | starting _ _ hout | parked _ _ hout | gone _ _ hout =>
      rw [hout] at hx
      cases hx
    | foreign _ _ hout | cancelled _ _ hout | stopped _ _ hout =>
      rw [hout, mem_singleton] at hx
      cases hx
  holder := h.holder

/-! ## Steps -/

variable {op : Op T E}

theorem outcome_finish (hout : op.outcome = []) (stage : Stage) (c : Completion T E) :
    (op.finish stage c).outcome = [c] := by
  have hnone : op.completions = [] := (append_eq_nil_iff.1 hout).1
  unfold Op.outcome Op.finish
  rw [hnone]
  rfl

theorem modify_self (s : State T E) (i : Nat) (f : Op T E → Op T E) :
    (s.modify i f).ops i = f (s.ops i) := if_pos rfl

theorem modify_other (s : State T E) {j : Nat} (f : Op T E → Op T E) (hne : j ≠ i) : (s.modify i f).ops j =
    s.ops j := if_neg hne

variable {waiter : Option Nat} {content : Option (Content T E)}

theorem OpOk.rewait {waiter' : Option Nat} (h : OpOk content waiter i op)
    (hne : waiter ≠ some i) (hne' : waiter' ≠ some i) : OpOk content waiter' i op := by
  cases h with
  | fresh h1 h2 h3 => exact .fresh h1 h2 h3 hne'
  | starting h1 h2 h3 h4 => exact .starting h1 h2 h3 h4 hne'
  | parked _ _ _ hwaiter => exact absurd hwaiter hne
  | foreign h1 h2 h3 => exact .foreign h1 h2 h3 hne'
  | cancelled h1 h2 h3 h4 => exact .cancelled h1 h2 h3 h4 hne'
  | settled h1 h2 c h3 h4 => exact .settled h1 h2 c h3 h4 hne'
  | stopped h1 h2 h3 h4 => exact .stopped h1 h2 h3 h4 hne'
  | gone h1 h2 h3 h4 => exact .gone h1 h2 h3 h4 hne'

theorem OpOk.resettle (h : OpOk none waiter i op) (hne : waiter ≠ some i) (c : Content T E) :
    OpOk (some c) none i op := by
  have hnone : (none : Option Nat) ≠ some i := nofun
  cases h with
  | fresh h1 h2 h3 => exact .fresh h1 h2 h3 hnone
  | starting h1 h2 h3 h4 => exact .starting h1 h2 h3 h4 hnone
  | parked _ _ _ hwaiter => exact absurd hwaiter hne
  | foreign h1 h2 h3 => exact .foreign h1 h2 h3 hnone
  | cancelled h1 h2 h3 h4 => exact .cancelled h1 h2 h3 h4 hnone
  | settled _ _ _ hcontent => cases hcontent
  | stopped h1 h2 h3 h4 => exact .stopped h1 h2 h3 h4 hnone
  | gone h1 h2 h3 h4 => exact .gone h1 h2 h3 h4 hnone

theorem OpOk.neutral {op' : Op T E} (h : OpOk content waiter i op)
    (hstage : op'.stage = op.stage) (hattached : op'.attached = op.attached) (hout : op'.outcome = op.outcome)
    (hstop : op'.stopRequested = op.stopRequested) (hran : op.callbackRan = true → op'.callbackRan = true)
    (hdestroyed : op.destroyed = true → op'.destroyed = true) : OpOk content waiter i op' := by
  cases h with
  | fresh h1 h2 h3 h4 => exact .fresh (hstage.trans h1) (hout.trans h2) (hstop.trans h3) h4
  | starting h1 h2 h3 h4 h5 =>
    exact .starting (hstage.trans h1) (hattached.trans h2) (hout.trans h3)
      (fun hs => hran (h4 (hstop.symm.trans hs))) h5
  | parked h1 h2 h3 h4 => exact .parked (hstage.trans h1) (hattached.trans h2) (hout.trans h3) h4
  | foreign h1 h2 h3 h4 => exact .foreign (hstage.trans h1) (hattached.trans h2) (hout.trans h3) h4
  | cancelled h1 h2 h3 h4 h5 =>
    exact .cancelled (hstage.trans h1) (hattached.trans h2) (hout.trans h3) ⟨hstop.trans h4.1, hran h4.2⟩ h5
  | settled h1 h2 c h3 h4 h5 => exact .settled (hstage.trans h1) (hattached.trans h2) c h3 (hout.trans h4) h5
  | stopped h1 h2 h3 h4 h5 => exact .stopped (hstage.trans h1) (hattached.trans h2) (hout.trans h3) (hran h4) h5
  | gone h1 h2 h3 h4 h5 => exact .gone (hstage.trans h1) (hattached.trans h2) (hout.trans h3) (hdestroyed h4) h5

theorem Core.modify (h : Core s) (i : Nat) (f : Op T E → Op T E) (hop : OpOk s.content s.waiter i (f (s.ops i)))
    (hattached : (f (s.ops i)).attached = (s.ops i).attached) (hborn : i < s.count ∨
      (f (s.ops i)).stage = (s.ops i).stage)
    (hwaiting : s.waiter = some i → (f (s.ops i)).stage = .kParked)
    (hlost : (f (s.ops i)).stage.lost = (s.ops i).stage.lost) : Core (s.modify i f) := by
  have hsame : ∀ j, ((s.modify i f).ops j).attached = (s.ops j).attached := fun j => by
    by_cases hj : j = i
    · rw [hj, modify_self]
      exact hattached
    · rw [modify_other s f hj]
  refine ⟨fun j => ?_, fun j hj => ?_, fun j hj => ?_, fun j k hj hk => ?_,
    fun hheld j => ?_, ?_, h.apart, h.settled⟩
  · by_cases hj : j = i
    · rw [hj, modify_self]
      exact hop
    · rw [modify_other s f hj]
      exact h.op j
  · rw [hsame]
    refine ⟨(h.unborn j hj).1, ?_⟩
    by_cases hji : j = i
    · rw [hji, modify_self, hborn.resolve_left (Nat.not_lt.2 (hji ▸ hj))]
      exact (h.unborn i (hji ▸ hj)).2
    · rw [modify_other s f hji]
      exact (h.unborn j hj).2
  · by_cases hji : j = i
    · rw [hji, modify_self]
      exact hwaiting (hji ▸ hj)
    · rw [modify_other s f hji]
      exact h.waiting j hj
  · rw [hsame] at hj hk
    exact h.holder j k hj hk
  · rw [hsame]
    exact h.held hheld j
  · refine h.lost.trans (exists_congr fun j => ?_)
    by_cases hj : j = i
    · rw [hj, modify_self, hlost]
    · rw [modify_other s f hj]

theorem Core.withdraw (h : Core s) (hwaiter : s.waiter = some i) (f : Op T E → Op T E)
    (hop : OpOk s.content none i (f (s.ops i)))
    (hattached : (f (s.ops i)).attached = (s.ops i).attached) (hlost : (f (s.ops i)).stage.lost = true) :
    Core { s.modify i f with waiter := none, detached := true } := by
  obtain ⟨hborn, -, -, hnone⟩ := h.of_waiter hwaiter
  have hsame : ∀ j, ((s.modify i f).ops j).attached = (s.ops j).attached := fun j => by
    by_cases hj : j = i
    · rw [hj, modify_self]
      exact hattached
    · rw [modify_other s f hj]
  refine ⟨fun j => ?_, fun j hj => ?_, fun j hj => (by cases hj), fun j k hj hk => ?_,
    fun hheld j => (hsame j).trans (h.held hheld j),
    iff_of_true rfl ⟨i, ?_⟩, fun hsome => ?_, h.settled⟩
  · by_cases hj : j = i
    · rw [hj, modify_self]
      exact hop
    · rw [modify_other s f hj]
      exact (h.op j).rewait (fun heq => hj (Option.some.inj (heq.symm.trans hwaiter))) nofun
  · have hne : j ≠ i := fun heq => Nat.lt_irrefl i (Nat.lt_of_lt_of_le hborn (heq ▸ hj))
    rw [modify_other s f hne]
    exact h.unborn j hj
  · exact h.holder j k ((hsame j).symm.trans hj) ((hsame k).symm.trans hk)
  · rw [modify_self]
    exact hlost
  · have hsome : s.content.isSome = true := hsome
    rw [hnone] at hsome
    cases hsome

theorem settle_core (h : Core s) (c : Content T E) : Core (s.settle c).1 := by
  unfold State.settle
  split
  · exact h
  · split
    · exact h
    · split
      · exact h
      · rename_i hcontent hdetached
        have hcontent : s.content = none := by simpa using hcontent
        have hdetached : s.detached = false := by simpa using hdetached
        have hop : ∀ j, OpOk none s.waiter j (s.ops j) := fun j => hcontent ▸ h.op j
        have hsettles : s.settles + 1 = 1 := by rw [h.settled.1, hcontent]; rfl
        cases hwaiter : s.waiter with
        | none =>
          have hnone : ∀ j, s.waiter ≠ some j := fun j heq => (by rw [hwaiter] at heq; cases heq)
          exact ⟨fun j => (hop j).resettle (hnone j) c, h.unborn, fun j hj => (by cases hj), h.holder,
            h.held, h.lost,
            fun _ => ⟨hdetached, rfl⟩, hsettles, rfl⟩
        | some i =>
          obtain ⟨hborn, hattached, hout, -⟩ := h.of_waiter hwaiter
          -- The waiter is completed with what the channel is settled with.
          generalize hs' : ({ s with content := some c, attached := false, waiter := none, settles :=
            s.settles + 1 } : State T E) = s'
          have hself : (s'.modify i (Op.finish .kDone c.completion)).ops i =
            (s.ops i).finish .kDone c.completion := by
            rw [modify_self, ← hs']
          have hother : ∀ j, j ≠ i → (s'.modify i (Op.finish .kDone c.completion)).ops j = s.ops j :=
            fun j hj => by
            rw [modify_other _ _ hj, ← hs']
          have hsame : ∀ j, ((s'.modify i (Op.finish .kDone c.completion)).ops j).attached = (s.ops
            j).attached := fun j => by
            by_cases hj : j = i
            · rw [hj, hself]
              rfl
            · rw [hother j hj]
          have hcontent' : (s'.modify i (Op.finish .kDone c.completion)).content = some c := hs' ▸ rfl
          have hwaiter' : (s'.modify i (Op.finish .kDone c.completion)).waiter = none := hs' ▸ rfl
          have hdetached' : (s'.modify i (Op.finish .kDone c.completion)).detached = false := by
            rw [← hdetached, ← hs']
            rfl
          refine ⟨fun j => ?_, fun j hj => ?_,
            fun j hj => ?_, fun j k hj hk => ?_, fun hheld j => ?_, ?_, fun _ => ⟨hdetached', hwaiter'⟩, ?_⟩
          · rw [hcontent', hwaiter']
            by_cases hj : j = i
            · rw [hj, hself]
              exact .settled rfl hattached c rfl (outcome_finish hout _ _) nofun
            · rw [hother j hj]
              exact (hop j).resettle (fun heq => hj (Option.some.inj (heq.symm.trans hwaiter))) c
          · have hj : s.count ≤ j := by
              rw [← hs'] at hj
              exact hj
            rw [hother j fun heq => Nat.lt_irrefl i (Nat.lt_of_lt_of_le hborn (heq ▸ hj))]
            exact h.unborn j hj
          · rw [hwaiter'] at hj
            cases hj
          · rw [hsame] at hj hk
            exact h.holder j k hj hk
          · rw [hsame]
            rw [← hs'] at hheld
            exact h.held hheld j
          · refine iff_of_false (by simp [hdetached']) ?_
            rintro ⟨j, hj⟩
            by_cases hji : j = i
            · rw [hji, hself] at hj
              cases hj
            · rw [hother j hji] at hj
              exact absurd (h.lost.2 ⟨j, hj⟩) (by simp [hdetached])
          · rw [hcontent', ← hs']
            exact ⟨hsettles, rfl⟩

theorem connect_core (h : Core s) : Core s.connect := by
  have hself : s.connect.ops s.count = { attached := s.receiver } := modify_self s s.count fun _ =>
    { attached := s.receiver }
  have hother : ∀ j, j ≠ s.count → s.connect.ops j = s.ops j :=
    fun j hj => modify_other s (fun _ => { attached := s.receiver }) hj
  have hnone : ∀ j, (s.connect.ops j).attached = true → j = s.count ∨ (s.ops j).attached = true := fun j hj => by
    by_cases hnew : j = s.count
    · exact .inl hnew
    · exact .inr (hother j hnew ▸ hj)
  refine ⟨fun j => ?_, fun j hj => ?_, fun j hj => ?_, fun j k hj hk => ?_,
    fun hheld => Bool.noConfusion hheld, ?_, h.apart, h.settled⟩
  · by_cases hnew : j = s.count
    · rw [hnew, hself]
      exact .fresh rfl rfl rfl fun hwaiter => Nat.lt_irrefl _ (h.of_waiter hwaiter).1
    · rw [hother j hnew]
      exact h.op j
  · have hlt : s.count < j := hj
    rw [hother j (Nat.ne_of_gt hlt)]
    exact h.unborn j (Nat.le_of_lt hlt)
  · have hborn := (h.of_waiter hj).1
    rw [hother j (Nat.ne_of_lt hborn)]
    exact h.waiting j hj
  · -- The receiver had the channel, or an older receive has it.
    rcases hnone j hj with rfl | hj'
    · rcases hnone k hk with rfl | hk'
      · rfl
      · rw [hself] at hj
        exact absurd (h.held hj k) (by rw [hk']; decide)
    · rcases hnone k hk with rfl | hk'
      · rw [hself] at hk
        exact absurd (h.held hk j) (by rw [hj']; decide)
      · exact h.holder j k hj' hk'
  · refine h.lost.trans (exists_congr fun j => ?_)
    by_cases hnew : j = s.count
    · rw [hnew, hself, (h.unborn s.count (Nat.le_refl _)).2]
    · rw [hother j hnew]

theorem start_core (h : Core s) (i : Nat) : Core (s.start i) := by
  unfold State.start
  split
  · rename_i hready
    obtain ⟨hborn, hinit, _⟩ := hready
    obtain ⟨hout, hstop, hwaiter⟩ : (s.ops i).outcome = [] ∧
      (s.ops i).stopRequested = false ∧ s.waiter ≠ some i := by
      cases h.op i with
      | fresh _ hout hstop hwaiter => exact ⟨hout, hstop, hwaiter⟩
      | starting hs | parked hs | foreign hs | cancelled hs | settled hs | stopped hs | gone hs =>
        rw [hs] at hinit; cases hinit
    split
    · rename_i hattached
      exact h.modify i _ (.starting rfl hattached hout
        (fun hs => Bool.noConfusion (hstop.symm.trans hs)) hwaiter) rfl (.inl hborn)
        (fun hw => absurd hw hwaiter) (by rw [hinit]; rfl)
    · rename_i hattached
      have hattached : (s.ops i).attached = false := by simpa using hattached
      exact h.modify i _ (.foreign rfl hattached (outcome_finish hout _ _) hwaiter) rfl (.inl hborn)
        (fun hw => absurd hw hwaiter) (by rw [hinit]; rfl)
  · exact h

theorem park_core (h : Core s) (hborn : i < s.count) (hstage : (s.ops i).stage = .kStarting)
    (hattached : (s.ops i).attached = true)
    (hout : (s.ops i).outcome = []) (hcontent : s.content = none) :
    Core { s.modify i (fun op => { op with stage := .kParked }) with waiter := some i } := by
  have hself : (s.modify i fun op => { op with stage := .kParked }).ops i =
    { s.ops i with stage := .kParked } := modify_self s i _
  have hother : ∀ j, j ≠ i → (s.modify i fun op => { op with stage := .kParked }).ops j =
    s.ops j := fun j hj => modify_other s _ hj
  have hsame : ∀ j, ((s.modify i fun op => { op with stage := .kParked }).ops j).attached =
    (s.ops j).attached := fun j => by
    by_cases hj : j = i
    · rw [hj, hself]
    · rw [hother j hj]
  refine ⟨fun j => ?_, fun j hj => ?_, fun j hj => ?_, fun j k hj hk => ?_,
    fun hheld j => (hsame j).trans (h.held hheld j), ?_, fun hsome => ?_,
    h.settled⟩
  · by_cases hj : j = i
    · rw [hj, hself]
      exact .parked rfl hattached hout rfl
    · rw [hother j hj]
      refine (h.op j).rewait (fun hwaits => hj ?_) fun heq => hj (Option.some.inj heq).symm
      exact h.holder j i (h.of_waiter hwaits).2.1 hattached
  · have hj : s.count ≤ j := hj
    rw [hother j fun heq => Nat.lt_irrefl i (Nat.lt_of_lt_of_le hborn (heq ▸ hj))]
    exact h.unborn j hj
  · obtain rfl : i = j := Option.some.inj hj
    exact congrArg Op.stage hself
  · exact h.holder j k ((hsame j).symm.trans hj) ((hsame k).symm.trans hk)
  · refine h.lost.trans (exists_congr fun j => ?_)
    by_cases hj : j = i
    · rw [hj, hself, hstage]
      rfl
    · rw [hother j hj]
  · have hsome : s.content.isSome = true := hsome
    rw [hcontent] at hsome
    cases hsome

theorem arbitrate_core (h : Core s) (i : Nat) : Core (s.arbitrate i) := by
  unfold State.arbitrate
  split
  · exact h
  · rename_i hstage
    have hstage : (s.ops i).stage = .kStarting := not_not.1 hstage
    have hlost : (s.ops i).stage.lost = false := by rw [hstage]; rfl
    have hborn : i < s.count := by
      by_contra hborn
      have hinit := (h.unborn i (Nat.not_lt.1 hborn)).2
      rw [hstage] at hinit
      cases hinit
    obtain ⟨hattached, hout, hran, hwaiter⟩ : (s.ops i).attached = true ∧ (s.ops i).outcome = [] ∧
        ((s.ops i).stopRequested = true → (s.ops i).callbackRan = true) ∧ s.waiter ≠ some i := by
      cases h.op i with
      | starting _ hattached hout hran hwaiter => exact ⟨hattached, hout, hran, hwaiter⟩
      | fresh hs | parked hs | foreign hs | cancelled hs | settled hs | stopped hs | gone hs =>
        rw [hs] at hstage; cases hstage
    split
    · rename_i hstop
      exact h.modify i _ (.cancelled rfl hattached (outcome_finish hout _ _) ⟨hstop, hran hstop⟩ hwaiter)
        rfl (.inl hborn)
        (fun hw => absurd hw hwaiter) hlost.symm
    · split
      · rename_i c hcontent
        exact h.modify i _ (.settled rfl hattached c hcontent (outcome_finish hout _ _) hwaiter) rfl (.inl hborn)
          (fun hw => absurd hw hwaiter) hlost.symm
      · rename_i hcontent
        exact park_core h hborn hstage hattached hout hcontent

theorem stop_core (h : Core s) (i : Nat) : Core (s.stop i) := by
  unfold State.stop
  split
  · exact h
  · rename_i hguard
    rw [not_or, not_or, not_or] at hguard
    obtain ⟨hattached, hinit, -, -⟩ := hguard
    have hattached : (s.ops i).attached = true := by simpa using hattached
    have hran : Core (s.modify i fun op => { op with callbackRan := true }) :=
      h.modify i _ ((h.op i).neutral rfl rfl rfl rfl (fun _ => rfl) id) rfl
      (.inr rfl) (fun hw => h.waiting i hw) rfl
    generalize hs' : s.modify i (fun op => { op with callbackRan := true }) = s' at hran
    have hop : s'.ops i = { s.ops i with callbackRan := true } := hs' ▸ modify_self s i _
    have hattached' : (s'.ops i).attached = true := by rw [hop]; exact hattached
    dsimp only
    split
    · rename_i hwaiter
      have hran' : (s'.ops i).callbackRan = true := by rw [hop]
      have hout := outcome_finish (hran.of_waiter hwaiter).2.2.1 .kStopped .stopped
      exact hran.withdraw hwaiter _ (.stopped rfl hattached' hout hran' nofun) rfl rfl
    · rename_i hwaiter
      split
      · rename_i hcontent
        have hcontent : s'.content = none := by simpa using hcontent
        refine hran.modify i _ ?_ rfl (.inr rfl) (fun hw => absurd hw hwaiter) rfl
        have hran' : (s'.ops i).callbackRan = true := by rw [hop]
        cases hran.op i with
        | fresh hs =>
          rw [hop] at hs
          exact absurd hs hinit
        | starting h1 h2 h3 => exact .starting h1 h2 h3 (fun _ => hran') hwaiter
        | parked _ _ _ hw => exact absurd hw hwaiter
        | foreign _ hforeign => exact absurd (hforeign.symm.trans hattached') Bool.false_ne_true
        | cancelled h1 h2 h3 _ => exact .cancelled h1 h2 h3 ⟨rfl, hran'⟩ hwaiter
        | settled _ _ _ hsettled =>
          rw [hcontent] at hsettled
          cases hsettled
        | stopped h1 h2 h3 h4 => exact .stopped h1 h2 h3 h4 hwaiter
        | gone h1 h2 h3 h4 => exact .gone h1 h2 h3 h4 hwaiter
      · exact hran

theorem complete_core (h : Core s) (i : Nat) : Core (s.complete i) := by
  have hout : Op.outcome { s.ops i with
      owed := none,
      completions := (s.ops i).completions ++ (s.ops i).owed.toList } = (s.ops i).outcome :=
    append_nil _
  exact h.modify i _ ((h.op i).neutral rfl rfl hout rfl id id) rfl (.inr rfl) (fun hw => h.waiting i hw) rfl

theorem destroy_core (h : Core s) (i : Nat) : Core (s.destroy i) := by
  unfold State.destroy
  split
  · exact h
  · split
    · rename_i hwaiter
      obtain ⟨-, hattached, hout, -⟩ := h.of_waiter hwaiter
      exact h.withdraw hwaiter _ (.gone rfl hattached hout rfl nofun) rfl rfl
    · exact h.modify i _ ((h.op i).neutral rfl rfl rfl rfl id fun _ => rfl) rfl (.inr rfl)
        (fun hw => h.waiting i hw) rfl

/-! ## The ledger of the sends -/

theorem Ok.same {s' : State T E} (h : Ok s) (hcore : Core s') (hcontent : s'.content = s.content)
    (hsends : s'.sends = s.sends) : Ok s' := by
  have hsettles : s'.settles = s.settles := by rw [hcore.settled.1, h.settled.1, hcontent]
  refine ⟨hcore, ?_, ?_, ?_, ?_⟩
  · rw [hcontent, hsends]
    exact h.sent
  · rw [hcontent, hsends]
    exact h.source
  · rw [hsends, hsettles]
    exact h.tally
  · rw [hsends]
    exact h.kept

theorem settle_cases (s : State T E) (c : Content T E) : (s.settle c).1.sends = s.sends ∧
    ((s.settle c).2 = true ∧ s.content = none ∧ (s.settle c).1.content = some c ∨ (s.settle c).2 = false ∧
      (s.settle c).1 = s) := by
  unfold State.settle
  split
  · exact ⟨rfl, .inr ⟨rfl, rfl⟩⟩
  · split
    · exact ⟨rfl, .inr ⟨rfl, rfl⟩⟩
    · rename_i hcontent
      have hcontent : s.content = none := by simpa using hcontent
      split
      · exact ⟨rfl, .inr ⟨rfl, rfl⟩⟩
      · split
        · exact ⟨rfl, .inl ⟨rfl, hcontent, rfl⟩⟩
        · exact ⟨rfl, .inl ⟨rfl, hcontent, rfl⟩⟩

theorem Ok.unsent (h : Ok s) (hcontent : s.content = none) : s.sends.filter Sending.ok = [] := by
  refine eq_nil_of_length_eq_zero (Nat.le_zero.1 (Nat.le_trans h.tally (Nat.le_of_eq ?_)))
  rw [h.settled.1, hcontent]
  rfl

theorem settle_ok (h : Ok s) {c : Content T E} (hc : ∀ x, c ≠ .value (some x)) : Ok (s.settle c).1 := by
  obtain ⟨hsends, ⟨_, hcontent, hsettled⟩ | ⟨_, hsame⟩⟩ := settle_cases s c
  · have hno : ∀ r, r ∈ s.sends → r.ok = true → False := fun r hr hok => by
      have hmem := mem_filter.2 ⟨hr, hok⟩
      rw [h.unsent hcontent] at hmem
      cases hmem
    refine ⟨settle_core h.toCore c, fun r hr hok => ?_, fun x hx => ?_, ?_, ?_⟩
    · rw [hsends] at hr
      exact (hno r hr hok).elim
    · rw [hsettled] at hx
      exact absurd (Option.some.inj hx) (hc x)
    · rw [hsends, h.unsent hcontent]
      exact Nat.zero_le _
    · rw [hsends]
      exact h.kept
  · rw [hsame]
    exact h

theorem send_ok (h : Ok s) (value : T) (byReference : Bool) : Ok (s.send value byReference) := by
  have hcore : Core (s.send value byReference) := by
    have hsettled := settle_core h.toCore (.value (some value))
    exact { hsettled with }
  obtain ⟨hsends, hcases⟩ := settle_cases s (.value (some value))
  have hlog : (s.send value byReference).sends =
    s.sends ++ [⟨value, byReference, (s.settle (.value (some value))).2,
      if byReference && !(s.settle (.value (some value))).2 then some value else none⟩] :=
        congrArg (· ++ _) hsends
  have hkept : ∀ r, r ∈ (s.send value byReference).sends → r.ok = false → r.byReference = true →
    r.left = some r.value := fun r hr hok href => by
    rw [hlog] at hr
    rcases mem_append.1 hr with hr | hr
    · exact h.kept r hr hok href
    · rw [mem_singleton] at hr
      subst hr
      dsimp only at hok href ⊢
      rw [hok, href]
      rfl
  rcases hcases with ⟨hok, hcontent, hsettled⟩ | ⟨hok, hsame⟩
  · have hcontent' : (s.send value byReference).content = some (.value (some value)) := hsettled
    rw [hok] at hlog
    refine ⟨hcore, fun r hr hrok => ?_, fun x hx => ?_, ?_, hkept⟩
    · rw [hlog] at hr
      rcases mem_append.1 hr with hr | hr
      · have hmem := mem_filter.2 ⟨hr, hrok⟩
        rw [h.unsent hcontent] at hmem
        cases hmem
      · rw [mem_singleton.1 hr]
        exact hcontent'
    · rw [hcontent'] at hx
      cases hx
      exact ⟨_, hlog ▸ mem_append_right _ (mem_singleton.2 rfl), rfl, rfl⟩
    · rw [hlog, filter_append, h.unsent hcontent, hcore.settled.1, hcontent']
      exact Nat.le_refl 1
  · have hcontent' : (s.send value byReference).content = s.content :=
      (congrArg State.content hsame : (s.settle (.value (some value))).1.content = s.content)
    have hsettles : (s.send value byReference).settles = s.settles :=
      (congrArg State.settles hsame : (s.settle (.value (some value))).1.settles = s.settles)
    rw [hok] at hlog
    refine ⟨hcore, fun r hr hrok => ?_, fun x hx => ?_, ?_, hkept⟩
    · rw [hlog] at hr
      rw [hcontent']
      rcases mem_append.1 hr with hr | hr
      · exact h.sent r hr hrok
      · rw [mem_singleton.1 hr] at hrok
        cases hrok
    · rw [hcontent'] at hx
      obtain ⟨r, hr, hrok⟩ := h.source x hx
      exact ⟨r, hlog ▸ mem_append_left _ hr, hrok⟩
    · rw [hlog, filter_append, hsettles]
      exact Nat.le_trans (Nat.le_of_eq (congrArg List.length (append_nil _))) h.tally

theorem step_ok (h : Ok s) (e : Event T E) : Ok (s.step e) := by
  cases e with
  | send value byReference => exact send_ok h value byReference
  | sendError e => exact settle_ok h nofun
  | close => exact settle_ok h nofun
  | dropReceiver => exact h.same { h with held := fun hheld => Bool.noConfusion hheld } rfl rfl
  | connect => exact h.same (connect_core h.toCore) rfl rfl
  | start i =>
    have hsame : (s.start i).content = s.content ∧ (s.start i).sends = s.sends := by
      unfold State.start
      split
      · split <;> exact ⟨rfl, rfl⟩
      · exact ⟨rfl, rfl⟩
    exact h.same (start_core h.toCore i) hsame.1 hsame.2
  | arbitrate i =>
    have hsame : (s.arbitrate i).content = s.content ∧ (s.arbitrate i).sends = s.sends := by
      unfold State.arbitrate
      split
      · exact ⟨rfl, rfl⟩
      · split
        · exact ⟨rfl, rfl⟩
        · split <;> exact ⟨rfl, rfl⟩
    exact h.same (arbitrate_core h.toCore i) hsame.1 hsame.2
  | stop i =>
    have hsame : (s.stop i).content = s.content ∧ (s.stop i).sends = s.sends := by
      unfold State.stop
      split
      · exact ⟨rfl, rfl⟩
      · dsimp only
        split
        · exact ⟨rfl, rfl⟩
        · split <;> exact ⟨rfl, rfl⟩
    exact h.same (stop_core h.toCore i) hsame.1 hsame.2
  | complete i => exact h.same (complete_core h.toCore i) rfl rfl
  | destroy i =>
    have hsame : (s.destroy i).content = s.content ∧ (s.destroy i).sends = s.sends := by
      unfold State.destroy
      split
      · exact ⟨rfl, rfl⟩
      · split <;> exact ⟨rfl, rfl⟩
    exact h.same (destroy_core h.toCore i) hsame.1 hsame.2

theorem ok_start : Ok ({} : State T E) where
  op i := .fresh rfl rfl rfl nofun
  unborn _ _ := ⟨rfl, rfl⟩
  waiting i hi := (by cases hi)
  holder i j hi := Bool.noConfusion hi
  held _ _ := rfl
  lost := iff_of_false Bool.false_ne_true fun ⟨_, hi⟩ => Bool.noConfusion hi
  apart hsome := Bool.noConfusion hsome
  settled := ⟨rfl, rfl⟩
  sent r hr := absurd hr not_mem_nil
  source x hx := (by cases hx)
  tally := Nat.le_refl 0
  kept r hr := absurd hr not_mem_nil

/-- **Every state of every run** keeps the contract. -/
theorem channel_contract (events : List (Event T E)) : (run events).Contract :=
  Ok.contract (Runs.run_induction (P := Ok) (fun _ e h => step_ok h e) events ({} : State T E) ok_start)

namespace State

def Finished (s : State T E) : Prop := s.receiver = false ∧ ∀ i, i < s.count → (s.ops i).destroyed = true

/-- The contract without its exceptions: whatever was sent is delivered in the end, and a refusal says
that the receiver is gone and leaves the caller the value. -/
structure Strict (s : State T E) : Prop where
  delivered : s.Finished → ∀ r, r ∈ s.sends → r.ok = true → ∃ i, (s.ops i).completions = [.value r.value]
  refused : ∀ r, r ∈ s.sends → r.ok = false → s.receiver = false ∧ r.left = some r.value

end State

/-- A value for a receiver that was dropped, or whose receive was stopped before it looked, is taken; a
second value is refused with the receiver still there. -/
theorem not_strict :
    ¬ (run [.dropReceiver, .send 7 true] : State Nat Nat).Strict ∧
    ¬ (run [.connect, .start 0, .stop 0, .arbitrate 0, .complete 0, .send 7 true, .destroy 0] :
      State Nat Nat).Strict ∧
    ¬ (run [.send 1 true, .send 2 true] : State Nat Nat).Strict := by
  refine ⟨fun h => ?_, fun h => ?_, fun h => ?_⟩
  · obtain ⟨i, hi⟩ := h.delivered ⟨rfl, fun i hi => absurd hi (Nat.not_lt_zero i)⟩ ⟨7, true,
      true, none⟩ (by decide) rfl
    cases hi
  · obtain ⟨i, hi⟩ := h.delivered ⟨rfl, fun i hi => by rw [Nat.lt_one_iff.1 hi]; rfl⟩ ⟨7, true, true, none⟩
      (by decide) rfl
    cases i with
    | zero => cases hi
    | succ i => cases hi
  · have hgone := (h.refused ⟨2, true, false, some 2⟩ (by decide) rfl).1
    cases hgone

end ClashNative.Async.Oneshot
