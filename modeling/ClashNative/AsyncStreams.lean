import Mathlib.Data.List.Basic
import Mathlib.Tactic.Common
/-!
# AsyncStreams — the operators of `async_stream.hpp`

A stream is its fields and what a pull of it does.  A pull looks at its stop token where an operator's
operation starts and where a source is pulled; `k` is how many of these points it passes before the
request is there, so that every position of a stop is some `k` and every long enough pull completes.
`TransformSender` and `RepeatSender` are one definition each, over the fields and the step of their
stream.
-/
namespace ClashNative.Async

/-- **What a pull completes with**, and the stream behind it: an item or the end, with `left` of its `k`
points not used; or stopped.  `spent` is no field of the code: the stop found a `take` that had counted
the pull, or a `zip` that held an item. -/
inductive Pull (σ α : Type) (k : Nat)
  | value (v : Option α) (s : σ) (left : Fin k)
  | stopped (s : σ) (spent : Bool)
  deriving DecidableEq

/-- **A stream.**  `next` is what a `next()` leaves whose sender is never started, or is stopped as it
starts. -/
structure AsyncStream (α : Type) where
  State : Type
  init : State
  next : State → State × Bool
  pull : State → (k : Nat) → Pull State α k

namespace Pull

variable {σ α : Type} {j k : Nat}

def weaken (h : j ≤ k) : Pull σ α j → Pull σ α k
  | value v s left => value v s (left.castLE h)
  | stopped s spent => stopped s spent

def spent : Pull σ α k → Bool
  | value _ _ _ => false
  | stopped _ spent => spent

variable {s : σ} {r : Pull σ α j} {h : j ≤ k}

theorem weaken_eq_value {v : Option α} {left : Fin k}
    (hr : r.weaken h = value v s left) : ∃ left', r = value v s left' := by
  cases r with
  | value v' s' left' =>
    cases hr
    exact ⟨left', rfl⟩
  | stopped s' spent => cases hr

theorem weaken_eq_stopped {b : Bool} (hr : r.weaken h = stopped s b) :
    r = stopped s b := by
  cases r with
  | value v' s' left' => cases hr
  | stopped s' spent =>
    cases hr
    rfl

end Pull

/-! ### The senders -/

/-- A source: the values that it has, and then its end.  A pull of it that is stopped leaves them where
they are. -/
def sourceStream {α : Type} (values : List α) : AsyncStream α where
  State := List α
  init := values
  next s := (s, false)
  pull s
    | 0 => .stopped s false
    | k + 1 => .value s.head? s.tail (Fin.last k)

section Senders

variable {α β τ : Type}

/-- **`TransformSender`**: one pull of the upstream, and a transform of its item.  `enter` is what
`next()` does with the fields, nothing when it leaves the upstream disengaged; `charged` says that it
counted the pull. -/
def transformSender (up : AsyncStream α) (fields : τ) (enter : τ → Option τ) (charged : τ → Bool)
    (func : τ → α → τ × Option β) : AsyncStream β where
  State := τ × up.State
  init := (fields, up.init)
  next st :=
    match enter st.1 with
    | none => (st, false)
    | some t => ((t, (up.next st.2).1), charged st.1 || (up.next st.2).2)
  pull st
    | 0 =>
      match enter st.1 with
      | none => .stopped st false
      | some t => .stopped (t, (up.next st.2).1) (charged st.1 || (up.next st.2).2)
    | k + 1 =>
      match enter st.1 with
      | none => .value none st (Fin.last k)
      | some t =>
        match up.pull st.2 k with
        | .value none s left => .value none (t, s) left.castSucc
        | .value (some a) s left => .value (func t a).2 ((func t a).1, s) left.castSucc
        | .stopped s spent => .stopped (t, s) (charged st.1 || spent)

/-- `RepeatSender`, behind the check at its start: the upstream is pulled until the step delivers. -/
def repeatPull (up : AsyncStream α) (step : τ → α → τ × Option (Option β)) (k : Nat) (t : τ) (s : up.State) :
    Pull (τ × up.State) β k :=
  match up.pull s k with
  | .stopped s spent => .stopped (t, s) spent
  | .value none s left => .value none (t, s) left
  | .value (some a) s left =>
    match (step t a).2 with
    | none => (repeatPull up step left (step t a).1 s).weaken left.is_le'
    | some v => .value v ((step t a).1, s) left
termination_by k
decreasing_by exact left.isLt

/-- **`RepeatSender`**; its `next()` touches nothing. -/
def repeatSender (up : AsyncStream α) (fields : τ) (step : τ → α → τ × Option (Option β)) : AsyncStream β where
  State := τ × up.State
  init := (fields, up.init)
  next st := (st, false)
  pull st
    | 0 => .stopped st false
    | k + 1 => (repeatPull up step k st.1 st.2).weaken k.le_succ

/-! ### The operators -/

def mapStream (up : AsyncStream α) (func : α → β) : AsyncStream β :=
  transformSender up () some (fun _ => false) fun t a => (t, some (func a))

def filterStream (up : AsyncStream α) (func : α → Bool) : AsyncStream α :=
  repeatSender up () fun t a => if func a then (t, some (some a)) else (t, none)

/-- `TakeStream`, its `remaining_` counted down by `next()`. -/
def takeStream (up : AsyncStream α) (count : Nat) : AsyncStream α :=
  transformSender up count (fun remaining => if 0 < remaining then some (remaining - 1) else none)
    (fun remaining => decide (0 < remaining)) fun remaining a => (remaining, some a)

def takeWhileStream (up : AsyncStream α) (func : α → Bool) : AsyncStream α :=
  transformSender up false (fun done => if done then none else some done) (fun _ => false) fun done a =>
    if done then (done, none) else if func a then (done, some a) else (true, none)

/-- `SkipStream`, its `remaining_` counted down by an item. -/
def skipStream (up : AsyncStream α) (count : Nat) : AsyncStream α :=
  repeatSender up count fun remaining a =>
    if 0 < remaining then (remaining - 1, none) else (remaining, some (some a))

def skipWhileStream (up : AsyncStream α) (func : α → Bool) : AsyncStream α :=
  repeatSender up true fun skipping a =>
    if skipping && func a then (skipping, none) else (false, some (some a))

def scanStream (up : AsyncStream α) (acc : β) (func : β → α → β) : AsyncStream β :=
  transformSender up acc some (fun _ => false) fun acc a => (func acc a, some (func acc a))

/-- `FlatSender`, behind the check at its start: `current` is the inner stream that is being read. -/
def flatPull (up : AsyncStream α) (func : α → AsyncStream β) (k : Nat) (s : up.State)
    (current : Option (Σ a, (func a).State)) : Pull (up.State × Option (Σ a, (func a).State)) β k :=
  match current with
  | none =>
    match up.pull s k with
    | .stopped s spent => .stopped (s, none) spent
    | .value none s left => .value none (s, none) left
    | .value (some a) s left => (flatPull up func left s (some ⟨a, (func a).init⟩)).weaken left.is_le'
  | some ⟨a, c⟩ =>
    match (func a).pull c k with
    | .stopped c spent => .stopped (s, some ⟨a, c⟩) spent
    | .value none _ left => (flatPull up func left s none).weaken left.is_le'
    | .value (some b) c left => .value (some b) (s, some ⟨a, c⟩) left
termination_by k
decreasing_by all_goals exact left.isLt

def flatMapStream (up : AsyncStream α) (func : α → AsyncStream β) : AsyncStream β where
  State := up.State × Option (Σ a, (func a).State)
  init := (up.init, none)
  next st := (st, false)
  pull st
    | 0 => .stopped st false
    | k + 1 => (flatPull up func k st.1 st.2).weaken k.le_succ

/-- `ZipStream`.  The first item is held by the operation and not by the stream. -/
def zipStream (first : AsyncStream α) (second : AsyncStream β) : AsyncStream (α × β) where
  State := first.State × second.State
  init := (first.init, second.init)
  next st := (st, false)
  pull st
    | 0 => .stopped st false
    | k + 1 =>
      match first.pull st.1 k with
      | .stopped a spent => .stopped (a, st.2) spent
      | .value none a left => .value none (a, st.2) left.castSucc
      | .value (some held) a left =>
        match second.pull st.2 left with
        | .stopped b _ => .stopped (a, b) true
        | .value none b left' => .value none (a, b) (left'.castLE (Nat.le_succ_of_le left.is_le'))
        | .value (some y) b left' => .value (some (held, y)) (a, b)
          (left'.castLE (Nat.le_succ_of_le left.is_le'))

end Senders

end ClashNative.Async
