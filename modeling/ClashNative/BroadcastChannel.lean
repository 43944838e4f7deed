import ClashNative.ParkedList
import ClashNative.Runs
/-!
# BroadcastChannel — every receiver reads every value, at its own cursor

`async/broadcast.hpp`.  A step is one critical section under the channel's mutex; the completion that a
section decides is recorded there, since its firing after the mutex was released reads and changes nothing
of the channel.  Sequence numbers count up from zero and are natural numbers.
-/
namespace ClashNative.Async.Broadcast

open ParkedList List

inductive Stage
  | kInit | kQueued | kDone | kStopped | kGone
  deriving DecidableEq, Repr

/-- What a receiver is given: the value at its cursor, or `broadcast_lagged` with the number of values
skipped. -/
inductive Entry (α : Type)
  | value (x : α)
  | lagged (skipped : Nat)
  deriving DecidableEq, Repr

inductive Completion (α : Type)
  | entry (e : Entry α)
  | closed
  | violation
  | stopped
  deriving DecidableEq, Repr

/-- `Receiver`: its cursor `pos_`.  `base` is the number of sends accepted before it subscribed, and
`history` what it was given since. -/
structure Receiver (α : Type) where
  pos : Nat
  base : Nat
  alive : Bool := true
  history : List (Entry α) := []

/-- `RecvOpState`, which writes back to the cursor of its receiver. -/
structure RecvOp (α : Type) where
  receiver : Nat
  pos : Nat := 0
  stage : Stage := .kInit
  stopRequested : Bool := false
  started : Bool := false
  destroyed : Bool := false
  completions : List (Completion α) := []

/-- **The channel state** with its receivers and its pulls.  `accepted` is every value that a send was
accepted with. -/
structure State (α : Type) where
  capacity : Nat
  capacity_pos : 0 < capacity
  buffer : List α := []
  baseSeq : Nat := 0
  parked : List Nat := []
  senders : Nat := 1
  closed : Bool := false
  closesOwed : Nat := 0
  receivers : List (Receiver α) := []
  recvs : List (RecvOp α) := []
  accepted : List α := []

variable {α : Type}

/-- What a pull of position `pos` finds: that the buffer has moved past it, the value there, or nothing
yet; with it the position after. -/
def State.read (s : State α) (pos : Nat) : Option (Entry α × Nat) :=
  if pos < s.baseSeq then some (.lagged (s.baseSeq - pos), s.baseSeq)
  else (s.buffer[pos - s.baseSeq]?).map fun x => (.value x, pos + 1)

namespace State

def nextSeq (s : State α) : Nat := s.baseSeq + s.buffer.length

def receiverCount (s : State α) : Nat := s.receivers.countP (·.alive)

def setRecv (s : State α) (i : Nat) (op : RecvOp α) : State α := { s with recvs := s.recvs.set i op }

def finish (s : State α) (i : Nat) (op : RecvOp α) (c : Completion α) : State α :=
  s.setRecv i { op with completions := op.completions ++ [c] }

def give (s : State α) (r : Nat) (e : Entry α) (pos : Nat) : State α :=
  { s with receivers := s.receivers.modify r fun q => { q with pos, history := q.history ++ [e] } }

def resolve (s : State α) (i : Nat) : State α :=
  match s.recvs[i]? with
  | none => s
  | some op =>
    let s := { s with parked := s.parked.erase i }
    if s.closed then s.finish i { op with stage := .kDone } .closed
    else match s.read op.pos with
      | some (e, pos) => (s.give op.receiver e pos).finish i { op with stage := .kDone, pos } (.entry e)
      | none => s

/-- `push_back`, and the loop that evicts from the front of a buffer over its capacity. -/
def push (s : State α) (x : α) : State α :=
  let buffer := s.buffer ++ [x]
  let excess := buffer.length - s.capacity
  { s with buffer := buffer.drop excess, baseSeq := s.baseSeq + excess, accepted := s.accepted ++ [x] }

def trySend (s : State α) (x : α) : Bool × State α :=
  if s.closed then (false, s)
  else if s.receiverCount = 0 then (false, s)
  else (true, s.parked.foldl resolve (s.push x))

/-- A node that the walk over the parked list in `close` unlinked. -/
def closeRecv (op : RecvOp α) : RecvOp α :=
  { op with stage := .kDone, completions := op.completions ++ [.closed] }

def close (s : State α) : State α :=
  if s.closed then s
  else { s with closed := true, recvs := modifyAll closeRecv s.parked s.recvs, parked := [] }

def subscribe (s : State α) : State α :=
  { s with receivers := s.receivers ++ [{ pos := s.nextSeq, base := s.accepted.length }] }

/-- `Receiver::release`.  A receiver outlives its pulls by contract, so with one of them parked this is no
step. -/
def releaseReceiver (s : State α) (r : Nat) : State α :=
  if s.parked.any fun i => (s.recvs[i]?).any fun op => op.receiver == r then s
  else { s with receivers := s.receivers.modify r fun q => { q with alive := false } }

def newRecv (s : State α) (r : Nat) : State α :=
  if r < s.receivers.length then { s with recvs := s.recvs ++ [{ receiver := r }] } else s

def duplicate (s : State α) (op : RecvOp α) : Bool :=
  s.parked.any fun j => (s.recvs[j]?).any fun other => other.receiver == op.receiver

/-- `RecvOpState::start` past its start check, from the receiver's cursor. -/
def runRecv (s : State α) (i : Nat) (op : RecvOp α) : State α :=
  if op.stopRequested then s.finish i op .stopped
  else match s.read op.pos with
    | some (e, pos) => (s.give op.receiver e pos).finish i { op with pos } (.entry e)
    | none =>
      if s.closed then s.finish i op .closed
      else if s.duplicate op then s.finish i op .violation
      else { s.setRecv i { op with stage := .kQueued } with parked := s.parked ++ [i] }

/-- `RecvOpState::start`; starting an operation twice, one that was destroyed, or one whose receiver is
gone, is no step. -/
def start (s : State α) (i : Nat) : State α :=
  match s.recvs[i]? with
  | none => s
  | some op =>
    match s.receivers[op.receiver]? with
    | none => s
    | some r =>
      if op.started || op.destroyed || !r.alive then s else s.runRecv i { op with started := true, pos := r.pos }

def stop (s : State α) (i : Nat) : State α :=
  match s.recvs[i]? with
  | none => s
  | some op =>
    match op.stage with
    | .kQueued => { s.finish i { op with stage := .kStopped } .stopped with parked := s.parked.erase i }
    | .kInit => s.setRecv i { op with stopRequested := true }
    | _ => s

def destroy (s : State α) (i : Nat) : State α :=
  match s.recvs[i]? with
  | none => s
  | some op =>
    if op.stage = .kQueued then
      { s.setRecv i { op with stage := .kGone, destroyed := true } with parked := s.parked.erase i }
    else s.setRecv i { op with destroyed := true }

/-- `Receiver::try_recv`, from the receiver's cursor; a lag is thrown. -/
def tryRecv (s : State α) (k : Nat) : Option (Entry α) × State α :=
  match s.receivers[k]? with
  | none => (none, s)
  | some r =>
    if r.alive then
      match s.read r.pos with
      | some (e, pos) => (some e, s.give k e pos)
      | none => (none, s)
    else (none, s)

end State

/-- What can happen.  A sender handle that goes away counts down first and closes the channel after, when
it was the last. -/
inductive Event (α : Type)
  | trySend (x : α)
  | close
  | copySender
  | dropSender
  | closeOwed
  | subscribe
  | releaseReceiver (r : Nat)
  | newRecv (r : Nat)
  | start (i : Nat)
  | stop (i : Nat)
  | destroy (i : Nat)
  | tryRecv (r : Nat)

def step (s : State α) : Event α → State α
  | .trySend x => (s.trySend x).2
  | .close => s.close
  | .copySender => if s.senders = 0 then s else { s with senders := s.senders + 1 }
  | .dropSender =>
    if s.senders = 0 then s
    else { s with senders := s.senders - 1, closesOwed := s.closesOwed + if s.senders = 1 then 1 else 0 }
  | .closeOwed => if s.closesOwed = 0 then s else { s.close with closesOwed := s.closesOwed - 1 }
  | .subscribe => s.subscribe
  | .releaseReceiver r => s.releaseReceiver r
  | .newRecv r => s.newRecv r
  | .start i => s.start i
  | .stop i => s.stop i
  | .destroy i => s.destroy i
  | .tryRecv r => (s.tryRecv r).2

/-- `channel(capacity)`, with its first receiver at position zero. -/
def channel (capacity : Nat) : Except String (State α) :=
  if h : 0 < capacity then .ok { capacity, capacity_pos := h, receivers := [{ pos := 0, base := 0 }] }
  else .error "clash_native::async::broadcast::channel: capacity must be at least 1"

/-! ### What a history accounts for -/

def Entry.size : Entry α → Nat
  | value _ => 1
  | lagged skipped => skipped

def values (h : List (Entry α)) : List α :=
  h.filterMap fun
    | .value x => some x
    | .lagged _ => none

/-- **A history accounts for the accepted sends from `p` up to `q`**: each value is the send at the
position reached, each lag count skips at least one, and only sends that were overwritten, with `capacity`
newer ones accepted. -/
def Accounts (capacity : Nat) (accepted : List α) : Nat → List (Entry α) → Nat → Prop
  | p, [], q => p = q
  | p, .value x :: h, q => accepted[p]? = some x ∧ Accounts capacity accepted (p + 1) h q
  | p, .lagged skipped :: h, q =>
    (0 < skipped ∧ p + skipped + capacity ≤ accepted.length) ∧ Accounts capacity accepted (p + skipped) h q

section
variable {capacity : Nat} {accepted : List α}

theorem Accounts.append {h' : List (Entry α)} {q r : Nat} (h₂ : Accounts capacity accepted q h' r) :
    ∀ {h : List (Entry α)} {p : Nat}, Accounts capacity accepted p h q → Accounts capacity accepted p (h ++ h') r
  | [], p, h₁ => by
    have hp : p = q := h₁
    exact hp ▸ h₂
  | .value x :: h, p, h₁ => ⟨h₁.1, h₂.append h₁.2⟩
  | .lagged skipped :: h, p, h₁ => ⟨h₁.1, h₂.append h₁.2⟩

theorem Accounts.mono (more : List α) : ∀ {h : List (Entry α)} {p q : Nat}, Accounts capacity accepted p h q →
    Accounts capacity (accepted ++ more) p h q
  | [], _, _, ha => ha
  | .value x :: h, p, q, ha =>
    ⟨by rw [getElem?_append_left (List.getElem?_eq_some_iff.1 ha.1).1, ha.1], ha.2.mono more⟩
  | .lagged skipped :: h, p, q, ha =>
    ⟨⟨ha.1.1, by rw [length_append]; exact Nat.le_trans ha.1.2 (Nat.le_add_right _ _)⟩, ha.2.mono more⟩

theorem Accounts.counted : ∀ {h : List (Entry α)} {p q : Nat}, Accounts capacity accepted p h q →
    p + (h.map Entry.size).sum = q
  | [], p, q, ha => ha
  | .value x :: h, p, q, ha => by
    have ih := ha.2.counted
    rw [map_cons, sum_cons, ← Nat.add_assoc]
    exact ih
  | .lagged skipped :: h, p, q, ha => by
    have ih := ha.2.counted
    rw [map_cons, sum_cons, ← Nat.add_assoc]
    exact ih

theorem Accounts.ordered : ∀ {h : List (Entry α)} {p q : Nat}, Accounts capacity accepted p h q →
    (values h).Sublist (accepted.drop p)
  | [], p, q, ha => nil_sublist _
  | .value x :: h, p, q, ha => by
    obtain ⟨hp, hx⟩ := List.getElem?_eq_some_iff.1 ha.1
    rw [drop_eq_getElem_cons hp, hx]
    exact ha.2.ordered.cons_cons x
  | .lagged skipped :: h, p, q, ha => by
    have ih := ha.2.ordered
    rw [← drop_drop] at ih
    exact ih.trans (drop_sublist _ _)

theorem Accounts.le : ∀ {h : List (Entry α)} {p q : Nat}, Accounts capacity accepted p h q → p ≤ q := fun ha =>
  ha.counted ▸ Nat.le_add_right _ _

/-- From a position whose send is still buffered on, every send is given as a value. -/
theorem Accounts.values_eq : ∀ {h : List (Entry α)} {p : Nat}, Accounts capacity accepted p h accepted.length →
    accepted.length - capacity ≤ p → values h = accepted.drop p
  | [], p, ha, _ => by
    have hp : p = accepted.length := ha
    rw [hp, drop_length]
    rfl
  | .value x :: h, p, ha, hle => by
    obtain ⟨hp, hx⟩ := List.getElem?_eq_some_iff.1 ha.1
    rw [drop_eq_getElem_cons hp, hx, ← ha.2.values_eq (Nat.le_succ_of_le hle)]
    rfl
  | .lagged skipped :: h, p, ha, hle => by
    have := ha.1
    omega

/-- **A history that reaches the end has ended with every send that is still buffered**, from where it
began on. -/
theorem Accounts.newest : ∀ {h : List (Entry α)} {p : Nat}, Accounts capacity accepted p h accepted.length →
    accepted.drop (max p (accepted.length - capacity)) <:+ values h
  | h, p, ha => by
    by_cases hle : accepted.length - capacity ≤ p
    · rw [Nat.max_eq_left hle]
      exact ha.values_eq hle ▸ suffix_refl _
    · rw [Nat.max_eq_right (Nat.le_of_not_le hle)]
      cases h with
      | nil =>
        have hp : p = accepted.length := ha
        omega
      | cons e h =>
        cases e with
        | value x =>
          have ih := Accounts.newest ha.2
          rw [Nat.max_eq_right (by omega)] at ih
          exact ih.trans (suffix_cons _ _)
        | lagged skipped =>
          have ih := Accounts.newest ha.2
          rw [Nat.max_eq_right (by have := ha.1; omega)] at ih
          exact ih

end

/-! ### The invariant -/

/-- **A receiver is in order**: its history accounts for the sends from where it subscribed up to its
cursor. -/
structure ReceiverOk (capacity : Nat) (accepted : List α) (r : Receiver α) : Prop where
  accounts : Accounts capacity accepted r.base r.history r.pos
  pos_le : r.pos ≤ accepted.length

/-- Why a pull has the completion it has, where `pos` and `history` are its receiver's: what it is given
its receiver is given, it ends when the channel is closed and nothing is left, and it stops on request. -/
def Reason (total : Nat) (closed : Bool) (pos : Nat) (history : List (Entry α)) (op : RecvOp α) :
    Completion α → Prop
  | .entry e => e ∈ history
  | .closed => closed = true ∧ pos = total
  | .violation => True
  | .stopped => op.stopRequested = true ∨ op.stage = .kStopped

/-- **A pull is in order**, where `pos` and `history` are its receiver's and `total` the number of
accepted sends.  A parked pull waits for the send after those; `pending` is one while the walk of a send
is on its way to it. -/
inductive RecvOk (pending total : Nat) (closed : Bool) (pos : Nat) (history : List (Entry α))
    (op : RecvOp α) : Prop
  | fresh (hs : op.started = false) (hst : op.stage = .kInit) (hc : op.completions = [])
  | parked (hs : op.started = true) (hst : op.stage = .kQueued) (hc : op.completions = []) (hpos : op.pos = pos)
      (htail : pos + pending = total) (ho : closed = false)
  | withdrawn (hst : op.stage = .kGone) (hd : op.destroyed = true) (hc : op.completions = [])
  | done (hs : op.started = true) (hst : op.stage ≠ .kQueued) (c : Completion α) (hc : op.completions = [c])
      (hend : Reason total closed pos history op c)

structure Inv (pending : Nat) (s : State α) : Prop where
  base_eq : s.baseSeq = s.accepted.length - s.capacity
  buffer_eq : s.buffer = s.accepted.drop s.baseSeq
  receiver : ∀ (k : Nat) (r : Receiver α), s.receivers[k]? = some r → ReceiverOk s.capacity s.accepted r
  recv : ∀ (i : Nat) (op : RecvOp α), s.recvs[i]? = some op →
    ∃ r, s.receivers[op.receiver]? = some r ∧ RecvOk pending s.accepted.length s.closed r.pos r.history op
  parks : Parks (fun op : RecvOp α => op.stage = .kQueued) s.parked s.recvs
  single : ∀ (i j : Nat) (op op' : RecvOp α), s.recvs[i]? = some op → s.recvs[j]? = some op' →
    op.stage = .kQueued →
    op'.stage = .kQueued → op.receiver = op'.receiver → i = j

variable {s : State α} {pending : Nat}

theorem Inv.nextSeq_eq (h : Inv pending s) : s.nextSeq = s.accepted.length := by
  rw [State.nextSeq, h.buffer_eq, length_drop, h.base_eq]
  omega

variable {e : Entry α} {pos : Nat}

theorem Inv.read_accounts (h : Inv pending s) {pos' : Nat} (hr : s.read pos = some (e, pos')) :
    Accounts s.capacity s.accepted pos [e] pos' ∧ pos' ≤ s.accepted.length := by
  unfold State.read at hr
  split at hr
  · rename_i hlt
    cases hr
    have hb := h.base_eq
    refine ⟨⟨⟨Nat.sub_pos_of_lt hlt, by omega⟩, ?_⟩, ?_⟩
    · exact Nat.add_sub_cancel' (Nat.le_of_lt hlt)
    · rw [h.base_eq]
      exact Nat.sub_le _ _
  · rename_i hge
    obtain ⟨x, hx, he⟩ := Option.map_eq_some_iff.1 hr
    cases he
    have hat : s.accepted[pos]? = some x := by
      rw [h.buffer_eq, getElem?_drop, Nat.add_sub_cancel' (Nat.le_of_not_lt hge)] at hx
      exact hx
    exact ⟨⟨hat, rfl⟩, (List.getElem?_eq_some_iff.1 hat).1⟩

theorem Inv.read_none (h : Inv pending s) (hle : pos ≤ s.accepted.length) (hr : s.read pos = none) :
    pos = s.accepted.length := by
  unfold State.read at hr
  split at hr
  · cases hr
  · rename_i hge
    have hx := Option.map_eq_none_iff.1 hr
    rw [h.buffer_eq, getElem?_drop, Nat.add_sub_cancel' (Nat.le_of_not_lt hge), List.getElem?_eq_none_iff] at hx
    exact Nat.le_antisymm hle hx

theorem Inv.read_tail (h : Inv pending s) : s.read s.accepted.length = none := by
  have hb := h.base_eq
  unfold State.read
  rw [if_neg (by omega), h.buffer_eq, getElem?_drop, Option.map_eq_none_iff, List.getElem?_eq_none_iff]
  omega

theorem Inv.read_newest (h : Inv pending s) (hp : pos + 1 = s.accepted.length) :
    ∃ x, s.read pos = some (.value x, pos + 1) := by
  have hb := h.base_eq
  have hc := s.capacity_pos
  obtain ⟨x, hx⟩ : ∃ x, s.accepted[pos]? = some x := ⟨_, getElem?_eq_getElem (by omega)⟩
  refine ⟨x, ?_⟩
  unfold State.read
  rw [if_neg (by omega), h.buffer_eq, getElem?_drop, Nat.add_sub_cancel' (by omega), hx]
  rfl

variable {r : Receiver α} {k : Nat}

theorem Inv.not_parked_of_read (h : Inv 0 s) {found : Entry α × Nat}
    (hr : s.receivers[k]? = some r) (hf : s.read r.pos = some found) (i : Nat) (op : RecvOp α)
    (hop : s.recvs[i]? = some op) (hq : op.stage = .kQueued) : op.receiver ≠ k := by
  rintro rfl
  obtain ⟨r', hr', hok⟩ := h.recv i op hop
  obtain rfl := Option.some.inj (hr'.symm.trans hr)
  cases hok with
  | parked _ _ _ _ htail =>
    rw [Nat.add_zero] at htail
    rw [htail, h.read_tail] at hf
    cases hf
  | _ => simp_all

/-! ### What one step keeps -/

theorem Inv.give (h : Inv pending s) (hr : s.receivers[k]? = some r)
    (hf : s.read r.pos = some (e, pos))
    (hq : ∀ (i : Nat) (op : RecvOp α), s.recvs[i]? = some op → op.stage = .kQueued → op.receiver ≠ k) :
    Inv pending (s.give k e pos) := by
  have hlook : ∀ j, (s.give k e pos).receivers[j]? = (s.receivers[j]?).map fun q =>
      if k = j then { q with pos, history := q.history ++ [e] } else q := fun j => by
    simp only [State.give, getElem?_modify]
    cases s.receivers[j]? with
    | none => rfl
    | some q => split <;> rfl
  obtain ⟨hacc, hle⟩ := h.read_accounts hf
  refine {
    base_eq := h.base_eq
    buffer_eq := h.buffer_eq
    parks := h.parks
    single := h.single
    receiver := fun j q hj => ?_
    recv := fun i op hi => ?_ }
  · rw [hlook] at hj
    obtain ⟨q₀, hq₀, rfl⟩ := Option.map_eq_some_iff.1 hj
    split
    · rename_i hkj
      subst hkj
      obtain rfl := Option.some.inj (hq₀.symm.trans hr)
      exact ⟨hacc.append (h.receiver _ q₀ hq₀).accounts, hle⟩
    · exact h.receiver j q₀ hq₀
  · obtain ⟨q, hqr, hok⟩ := h.recv i op hi
    refine ⟨_, by rw [hlook, hqr]; rfl, ?_⟩
    split
    · rename_i hk
      subst hk
      obtain rfl := Option.some.inj (hqr.symm.trans hr)
      cases hok with
      | fresh hs hst hc => exact .fresh hs hst hc
      | parked _ hst => exact absurd rfl (hq i op hi hst)
      | withdrawn hst hd hc => exact .withdrawn hst hd hc
      | done hs hst c hc hend =>
        refine .done hs hst c hc ?_
        cases c with
        | entry e => exact mem_append_left _ hend
        | closed =>
          -- a receiver that was told the end has nothing to read
          have hnone : s.read q.pos = none := hend.2 ▸ h.read_tail
          rw [hnone] at hf
          cases hf
        | violation => trivial
        | stopped => exact hend
    · exact hok

theorem history_give {q : Receiver α} (hr : s.receivers[k]? = some r)
    (hq : (s.give k e pos).receivers[k]? = some q) : e ∈ q.history := by
  simp only [State.give, getElem?_modify_eq, hr] at hq
  obtain rfl := Option.some.inj hq
  exact mem_append_right _ (mem_singleton_self e)

variable {op op' : RecvOp α} {i : Nat}

theorem Inv.setRecv (h : Inv pending s) (parked : List Nat) (hop : s.recvs[i]? = some op)
    (hrec : op'.receiver = op.receiver)
    (hok : ∀ r, s.receivers[op.receiver]? = some r →
      RecvOk pending s.accepted.length s.closed r.pos r.history op')
    (hp : Parks (fun op : RecvOp α => op.stage = .kQueued) parked (s.recvs.set i op'))
    (hq : op'.stage = .kQueued → op.stage = .kQueued ∨ ∀ (j : Nat) (other : RecvOp α), s.recvs[j]? = some other →
      other.stage = .kQueued → other.receiver ≠ op.receiver) :
    Inv pending { s.setRecv i op' with parked := parked } where
  base_eq := h.base_eq
  buffer_eq := h.buffer_eq
  receiver := h.receiver
  parks := hp
  recv j v hj := by
    rcases Tally.getElem?_set_cases hj with ⟨rfl, rfl⟩ | ⟨-, hj⟩
    · obtain ⟨r, hr, -⟩ := h.recv i op hop
      exact ⟨r, hrec ▸ hr, hok r hr⟩
    · exact h.recv j v hj
  single j k v v' hj hk hv hv' hr := by
    -- the rewritten pull against another one
    have hone : ∀ (j : Nat) (v : RecvOp α), s.recvs[j]? = some v → v.stage = .kQueued → op'.stage = .kQueued →
        v.receiver = op.receiver → j = i := fun j v hj hv hv' hr => by
      rcases hq hv' with hwq | hall
      · exact h.single j i v op hj hop hv hwq hr
      · exact absurd hr (hall j v hj hv)
    rcases Tally.getElem?_set_cases hj with ⟨rfl, rfl⟩ | ⟨-, hold⟩
    · rcases Tally.getElem?_set_cases hk with ⟨rfl, rfl⟩ | ⟨-, hk⟩
      · rfl
      · exact (hone k v' hk hv' hv (hr.symm.trans hrec)).symm
    · rcases Tally.getElem?_set_cases hk with ⟨rfl, rfl⟩ | ⟨-, hk⟩
      · exact hone j v hold hv hv' (hr.trans hrec)
      · exact h.single j k v v' hold hk hv hv' hr

theorem Inv.unpark (h : Inv pending s) (c : Completion α) (hop : s.recvs[i]? = some op)
    (hrec : op'.receiver = op.receiver) (hs : op'.started = true) (hst : op'.stage ≠ .kQueued)
    (hc : op'.completions = [c])
    (hend : ∀ r, s.receivers[op.receiver]? = some r → Reason s.accepted.length s.closed r.pos r.history op' c) :
    Inv pending { s.setRecv i op' with parked := s.parked.erase i } :=
  h.setRecv _ hop hrec (fun r hr => .done hs hst c hc (hend r hr))
    (h.parks.unpark hop hst) fun hq => absurd hq hst

theorem Inv.rewrite (h : Inv pending s) (hop : s.recvs[i]? = some op)
    (hrec : op'.receiver = op.receiver) (hst : op'.stage ≠ .kQueued) (hst₀ : op.stage ≠ .kQueued)
    (hok : ∀ r, s.receivers[op.receiver]? = some r →
      RecvOk pending s.accepted.length s.closed r.pos r.history op') :
    Inv pending (s.setRecv i op') :=
  h.setRecv s.parked hop hrec hok (h.parks.rewrite hop (by simp [hst, hst₀])) fun hq => absurd hq hst

theorem RecvOk.of_parked {total : Nat} {closed : Bool} {history : List (Entry α)}
    (h : RecvOk pending total closed pos history op) (hst : op.stage = .kQueued) :
    op.started = true ∧ op.completions = [] ∧ op.pos = pos ∧ pos + pending = total ∧ closed = false := by
  cases h with
  | parked hs _ hc hpos htail ho => exact ⟨hs, hc, hpos, htail, ho⟩
  | _ => simp_all

theorem Inv.resolve (h : Inv 1 s) (hi : i ∈ s.parked) :
    Inv 1 (s.resolve i) ∧ (s.resolve i).parked = s.parked.erase i := by
  obtain ⟨op, hop, hst⟩ := (h.parks.mem_iff i).1 hi
  obtain ⟨r, hr, hok⟩ := h.recv i op hop
  obtain ⟨hs, hc, hpos, htail, ho⟩ := hok.of_parked hst
  obtain ⟨x, hx⟩ := h.read_newest htail
  have hread : State.read { s with parked := s.parked.erase i } op.pos = some (.value x, r.pos + 1) := hpos ▸ hx
  -- out of the queue first, then the cursor, and the completion last
  have hout : Inv 1 { s.setRecv i { op with stage := .kGone, destroyed := true }
    with parked := s.parked.erase i } :=
    h.setRecv _ hop rfl (fun _ _ => .withdrawn rfl rfl hc) (h.parks.unpark hop (by simp)) nofun
  have hgiven := hout.give hr hx fun j v hj hv => by
    rcases Tally.getElem?_set_cases hj with ⟨rfl, rfl⟩ | ⟨hne, hj⟩
    · cases hv
    · exact fun hrec => hne (h.single j i v op hj hop hv hst hrec).symm
  have htold : Inv 1 (State.setRecv _ i { op with
      stage := .kDone, pos := r.pos + 1, completions := op.completions ++
        [.entry (.value x)] }) := hgiven.rewrite
    (getElem?_set_self (List.getElem?_eq_some_iff.1 hop).1) rfl (by simp) (by simp)
    fun q hq => .done hs (by simp) (.entry (.value x)) (by simp [hc]) (history_give hr hq)
  have heq : s.resolve i = State.setRecv (State.give
    { s.setRecv i { op with stage := .kGone, destroyed := true } with
      parked := s.parked.erase i } op.receiver (.value x) (r.pos + 1)) i
      { op with stage := .kDone, pos := r.pos + 1, completions := op.completions ++ [.entry (.value x)] } := by
    unfold State.resolve
    rw [hop]
    dsimp only
    rw [if_neg (by simp [ho]), hread]
    simp [State.finish, State.setRecv, State.give]
  rw [heq]
  exact ⟨htold, rfl⟩

theorem Inv.resolveAll : ∀ (queue : List Nat) {s : State α}, Inv 1 s → s.parked = queue →
    Inv 1 (queue.foldl State.resolve s) ∧ (queue.foldl State.resolve s).parked = []
  | [], s, h, hq => ⟨h, hq⟩
  | i :: queue, s, h, hq => by
    obtain ⟨h', hp⟩ := h.resolve (hq ▸ mem_cons_self .. : i ∈ s.parked)
    exact Inv.resolveAll queue h' (by rw [hp, hq, erase_cons_head])

theorem Inv.settle (h : Inv pending s) (hp : s.parked = []) : Inv 0 s where
  base_eq := h.base_eq
  buffer_eq := h.buffer_eq
  receiver := h.receiver
  parks := h.parks
  single := h.single
  recv i op hi := by
    obtain ⟨r, hr, hok⟩ := h.recv i op hi
    refine ⟨r, hr, ?_⟩
    cases hok with
    | fresh hs hst hc => exact .fresh hs hst hc
    | parked _ hst =>
      have hm := h.parks.mem_of_queued hi hst
      rw [hp] at hm
      cases hm
    | withdrawn hst hd hc => exact .withdrawn hst hd hc
    | done hs hst c hc hend => exact .done hs hst c hc hend

theorem Inv.push (h : Inv 0 s) (ho : s.closed = false) (x : α) : Inv 1 (s.push x) where
  base_eq := by
    have hb := h.base_eq
    simp only [State.push, h.buffer_eq, length_append, length_drop, length_singleton]
    omega
  buffer_eq := by
    have hb := h.base_eq
    simp only [State.push]
    rw [← drop_drop, @drop_append_of_le_length _ s.accepted _ _ (by omega), ← h.buffer_eq]
  receiver k r hk := by
    obtain ⟨hacc, hle⟩ := h.receiver k r hk
    exact ⟨hacc.mono [x], Nat.le_trans hle (by simp [State.push])⟩
  parks := h.parks
  single := h.single
  recv i op hi := by
    obtain ⟨r, hr, hok⟩ := h.recv i op hi
    refine ⟨r, hr, ?_⟩
    cases hok with
    | fresh hs hst hc => exact .fresh hs hst hc
    | parked hs hst hc hpos htail ho => exact .parked hs hst hc hpos (by simp [State.push, ← htail]) ho
    | withdrawn hst hd hc => exact .withdrawn hst hd hc
    | done hs hst c hc hend =>
      refine .done hs hst c hc ?_
      cases c with
      | closed => rw [Reason, ho] at hend; cases hend.1
      | _ => exact hend

theorem accepted_resolve (s : State α) (i : Nat) : (s.resolve i).accepted = s.accepted := by
  unfold State.resolve
  split
  · rfl
  · dsimp only
    split
    · rfl
    · split <;> rfl

theorem accepted_resolveAll : ∀ (queue : List Nat) (s : State α),
    (queue.foldl State.resolve s).accepted = s.accepted
  | [], _ => rfl
  | i :: queue, s => (accepted_resolveAll queue _).trans (accepted_resolve s i)

/-- **What `try_send` answers**: whether the value was accepted, and only a channel that is closed or that
nobody receives from refuses it. -/
def TrySends (s : State α) (x : α) (r : Bool × State α) : Prop :=
  r.2.accepted = s.accepted ++ (if r.1 then [x] else []) ∧ (r.1 = false → s.closed = true ∨ s.receiverCount = 0)

theorem Inv.trySend (h : Inv 0 s) (x : α) : Inv 0 (s.trySend x).2 ∧ TrySends s x (s.trySend x) := by
  unfold State.trySend
  split
  · rename_i hc
    exact ⟨h, (append_nil _).symm, fun _ => .inl hc⟩
  · rename_i ho
    split
    · rename_i hnone
      exact ⟨h, (append_nil _).symm, fun _ => .inr hnone⟩
    · obtain ⟨h', hp⟩ := Inv.resolveAll s.parked (h.push (eq_false_of_ne_true ho) x) rfl
      exact ⟨h'.settle hp, accepted_resolveAll _ _, nofun⟩

theorem Inv.close (h : Inv 0 s) : Inv 0 s.close := by
  unfold State.close
  split
  · exact h
  · rename_i ho
    refine {
      base_eq := h.base_eq
      buffer_eq := h.buffer_eq
      receiver := h.receiver
      parks := h.parks.clear fun op => by simp [State.closeRecv]
      recv := fun i op hi => ?_
      single := fun i j op op' hi _ hq => ?_ }
    · rw [getElem?_modifyAll _ h.parks.nodup] at hi
      obtain ⟨v, hv, rfl⟩ := Option.map_eq_some_iff.1 hi
      obtain ⟨r, hr, hok⟩ := h.recv i v hv
      split
      · rename_i hm
        obtain ⟨hs, hc, -, htail, -⟩ := hok.of_parked (h.parks.queued_of_mem hv hm)
        exact ⟨r, hr, .done hs (by simp [State.closeRecv]) .closed (by simp [State.closeRecv, hc]) ⟨rfl, htail⟩⟩
      · rename_i hm
        refine ⟨r, hr, ?_⟩
        cases hok with
        | fresh hs hst hc => exact .fresh hs hst hc
        | parked _ hst => exact absurd (h.parks.mem_of_queued hv hst) hm
        | withdrawn hst hd hc => exact .withdrawn hst hd hc
        | done hs hst c hc hend =>
          refine .done hs hst c hc ?_
          cases c with
          | closed => exact ⟨rfl, hend.2⟩
          | _ => exact hend
    · have hp : Parks (fun op : RecvOp α => op.stage = .kQueued) []
        (modifyAll State.closeRecv s.parked s.recvs) :=
        h.parks.clear fun op => by simp [State.closeRecv]
      exact absurd (hp.mem_of_queued hi hq) not_mem_nil

theorem Inv.subscribe (h : Inv 0 s) : Inv 0 s.subscribe where
  base_eq := h.base_eq
  buffer_eq := h.buffer_eq
  parks := h.parks
  single := h.single
  receiver k r hk := by
    rcases Tally.getElem?_concat_cases hk with hk | ⟨-, rfl⟩
    · exact h.receiver k r hk
    · exact ⟨h.nextSeq_eq.symm, Nat.le_of_eq h.nextSeq_eq⟩
  recv i op hi := by
    obtain ⟨r, hr, hok⟩ := h.recv i op hi
    exact ⟨r, by rw [State.subscribe, getElem?_append_left (List.getElem?_eq_some_iff.1 hr).1, hr], hok⟩

theorem Inv.releaseReceiver (h : Inv 0 s) (k : Nat) : Inv 0 (s.releaseReceiver k) := by
  unfold State.releaseReceiver
  split
  · exact h
  · refine {
      base_eq := h.base_eq
      buffer_eq := h.buffer_eq
      parks := h.parks
      single := h.single
      receiver := fun j r hj => ?_
      recv := fun i op hi => ?_ }
    · rw [getElem?_modify] at hj
      obtain ⟨q, hq, rfl⟩ := Option.map_eq_some_iff.1 hj
      obtain ⟨hacc, hle⟩ := h.receiver j q hq
      split <;> exact ⟨hacc, hle⟩
    · obtain ⟨r, hr, hok⟩ := h.recv i op hi
      refine ⟨_, by rw [getElem?_modify, hr]; rfl, ?_⟩
      split <;> exact hok

theorem Inv.newRecv (h : Inv 0 s) (k : Nat) : Inv 0 (s.newRecv k) := by
  unfold State.newRecv
  split
  · rename_i hk
    obtain ⟨r, hr⟩ : ∃ r, s.receivers[k]? = some r := ⟨_, getElem?_eq_getElem hk⟩
    exact {
      base_eq := h.base_eq
      buffer_eq := h.buffer_eq
      receiver := h.receiver
      parks := h.parks.add (by simp)
      recv := fun i op hi => by
        rcases Tally.getElem?_concat_cases hi with hi | ⟨-, rfl⟩
        · exact h.recv i op hi
        · exact ⟨r, hr, .fresh rfl rfl rfl⟩
      single := fun i j op op' hi hj hq hq' hrec => by
        rcases Tally.getElem?_concat_cases hi with hi | ⟨-, rfl⟩
        · rcases Tally.getElem?_concat_cases hj with hj | ⟨-, rfl⟩
          · exact h.single i j op op' hi hj hq hq' hrec
          · cases hq'
        · cases hq }
  · exact h

theorem Inv.start (h : Inv 0 s) (i : Nat) : Inv 0 (s.start i) := by
  unfold State.start
  cases hop : s.recvs[i]? with
  | none => exact h
  | some op =>
    obtain ⟨r, hr, hok⟩ := h.recv i op hop
    dsimp only
    rw [hr]
    dsimp only
    split
    · exact h
    · rename_i hsd
      obtain ⟨hst, hc⟩ : op.stage = .kInit ∧ op.completions = [] := by
        cases hok with
        | fresh _ hst hc => exact ⟨hst, hc⟩
        | _ => simp_all
      have hq : op.stage ≠ .kQueued := by simp [hst]
      have hle := (h.receiver _ r hr).pos_le
      unfold State.runRecv
      split
      · rename_i hstop
        exact h.rewrite hop rfl hq hq fun _ _ => .done rfl hq .stopped (by simp [hc]) (.inl hstop)
      · split
        · rename_i e pos hf
          exact (h.give hr hf (h.not_parked_of_read hr hf)).rewrite hop rfl hq hq fun q hq' =>
            .done rfl hq (.entry e) (by simp [hc]) (history_give hr hq')
        · rename_i hf
          have htail := h.read_none hle hf
          split
          · rename_i hcl
            refine h.rewrite hop rfl hq hq fun q hq' => .done rfl hq .closed (by simp [hc]) ⟨hcl, ?_⟩
            obtain rfl := Option.some.inj (hq'.symm.trans hr)
            exact htail
          · rename_i hcl
            split
            · exact h.rewrite hop rfl hq hq fun _ _ => .done rfl hq .violation (by simp [hc]) trivial
            · rename_i hdup
              refine h.setRecv _ hop rfl (fun q hq' => ?_) (h.parks.park hop hq rfl) fun _ =>
                .inr fun j v hj hv hrec => ?_
              · obtain rfl := Option.some.inj (hq'.symm.trans hr)
                exact .parked rfl rfl hc rfl htail (eq_false_of_ne_true hcl)
              · refine hdup (any_eq_true.2 ⟨j, h.parks.mem_of_queued hj hv, ?_⟩)
                rw [hj, Option.any_some]
                exact beq_iff_eq.2 hrec

theorem Inv.stop (h : Inv 0 s) (i : Nat) : Inv 0 (s.stop i) := by
  unfold State.stop
  cases hop : s.recvs[i]? with
  | none => exact h
  | some op =>
    obtain ⟨r, hr, hok⟩ := h.recv i op hop
    dsimp only
    split
    · rename_i hst
      obtain ⟨hs, hc, -⟩ := hok.of_parked hst
      exact h.unpark .stopped hop rfl hs (by simp) (by simp [hc]) fun _ _ => .inr rfl
    · rename_i hst
      refine h.rewrite hop rfl (by simp [hst]) (by simp [hst]) fun q hq => ?_
      obtain rfl := Option.some.inj (hq.symm.trans hr)
      cases hok with
      | fresh hs hst hc => exact .fresh hs hst hc
      | parked _ hst' => rw [hst] at hst'; cases hst'
      | withdrawn hst' => rw [hst] at hst'; cases hst'
      | done hs hst c hc hend =>
        refine .done hs hst c hc ?_
        cases c with
        | stopped => exact .inl rfl
        | _ => exact hend
    · exact h

theorem Inv.stopped (h : Inv 0 s) (hi : i ∈ s.parked) :
    (∃ op, (s.stop i).recvs[i]? = some op ∧ op.completions = [.stopped]) ∧
    (s.stop i).receivers = s.receivers := by
  obtain ⟨op, hop, hst⟩ := (h.parks.mem_iff i).1 hi
  obtain ⟨r, -, hok⟩ := h.recv i op hop
  have hc := (hok.of_parked hst).2.1
  refine ⟨⟨{ op with stage := .kStopped, completions := op.completions ++ [.stopped] }, ?_, by simp [hc]⟩, ?_⟩
  · simp only [State.stop, hop, hst]
    exact getElem?_set_self (List.getElem?_eq_some_iff.1 hop).1
  · simp only [State.stop, hop, hst]
    rfl

theorem Inv.violation (h : Inv 0 s) (i : Nat) (op : RecvOp α) (hop : (s.start i).recvs[i]? = some op)
    (hv : .violation ∈ op.completions) :
    s.start i = s ∨ ∃ j ∈ s.parked, ∃ other, s.recvs[j]? = some other ∧ other.receiver = op.receiver := by
  unfold State.start at hop ⊢
  cases hold : s.recvs[i]? with
  | none => exact .inl rfl
  | some old =>
    obtain ⟨r, hr, hok⟩ := h.recv i old hold
    have hlt := (List.getElem?_eq_some_iff.1 hold).1
    rw [hold] at hop
    dsimp only at hop ⊢
    rw [hr] at hop ⊢
    dsimp only at hop ⊢
    split
    · exact .inl rfl
    · rename_i hsd
      rw [if_neg hsd] at hop
      have hc : old.completions = [] := by
        cases hok with
        | fresh _ _ hc => exact hc
        | _ => simp_all
      -- whatever else the start of a pull comes to, its completion is that one thing
      have htold : ∀ (s' : State α) (new : RecvOp α) (c : Completion α),
          (s'.finish i new c).recvs[i]? = some op →
          s'.recvs = s.recvs → new.completions = [] → c = .violation ∧ op.receiver = new.receiver := by
        intro s' new c ho hs' hnew
        rw [State.finish, State.setRecv, hs', getElem?_set_self hlt] at ho
        obtain rfl := Option.some.inj ho
        simpa [hnew, eq_comm] using hv
      unfold State.runRecv at hop
      split at hop
      · cases (htold _ _ _ hop rfl hc).1
      · split at hop
        · cases (htold _ _ _ hop rfl hc).1
        · split at hop
          · cases (htold _ _ _ hop rfl hc).1
          · split at hop
            · rename_i hdup
              obtain ⟨j, hj, hother⟩ := any_eq_true.1 hdup
              obtain ⟨other, ho, hrec⟩ := (Option.any_eq_true _ _).1 hother
              exact .inr ⟨j, hj, other, ho, (beq_iff_eq.1 hrec).trans (htold _ _ _ hop rfl hc).2.symm⟩
            · rw [State.setRecv, getElem?_set_self hlt] at hop
              obtain rfl := Option.some.inj hop
              rw [show old.completions = [] from hc] at hv
              cases hv

theorem Inv.destroy (h : Inv 0 s) (i : Nat) : Inv 0 (s.destroy i) := by
  unfold State.destroy
  cases hop : s.recvs[i]? with
  | none => exact h
  | some op =>
    obtain ⟨r, hr, hok⟩ := h.recv i op hop
    dsimp only
    split
    · rename_i hst
      obtain ⟨-, hc, -⟩ := hok.of_parked hst
      exact h.setRecv _ hop rfl (fun _ _ => .withdrawn rfl rfl hc) (h.parks.unpark hop (by simp)) nofun
    · rename_i hst
      refine h.rewrite hop rfl hst hst fun q hq => ?_
      obtain rfl := Option.some.inj (hq.symm.trans hr)
      cases hok with
      | fresh hs hst hc => exact .fresh hs hst hc
      | parked _ hst' => exact absurd hst' hst
      | withdrawn hst hd hc => exact .withdrawn hst rfl hc
      | done hs hst c hc hend => exact .done hs hst c hc hend

/-- **What `try_recv` answers**: what the receiver is given, and nothing only when it has nothing to read.
-/
def TryReceives (s : State α) (k : Nat) (a : Option (Entry α) × State α) : Prop :=
  ∀ r, s.receivers[k]? = some r → r.alive = true →
    (∃ q, a.2.receivers[k]? = some q ∧ q.history = r.history ++ a.1.toList) ∧
    (a.1 = none → r.pos = s.accepted.length)

theorem Inv.tryRecv (h : Inv 0 s) (k : Nat) : Inv 0 (s.tryRecv k).2 ∧ TryReceives s k (s.tryRecv k) := by
  unfold State.tryRecv
  cases hr : s.receivers[k]? with
  | none => exact ⟨h, fun r hr' => by rw [hr] at hr'; cases hr'⟩
  | some r =>
    dsimp only
    split
    · split
      · rename_i e pos hf
        refine ⟨h.give hr hf (h.not_parked_of_read hr hf), fun r' hr' _ => ⟨?_, nofun⟩⟩
        obtain rfl := Option.some.inj (hr.symm.trans hr')
        exact ⟨_, by simp only [State.give, getElem?_modify_eq, hr]; rfl, rfl⟩
      · rename_i hf
        refine ⟨h, fun r' hr' _ => ?_⟩
        obtain rfl := Option.some.inj (hr.symm.trans hr')
        exact ⟨⟨r, hr, (append_nil _).symm⟩, fun _ => h.read_none (h.receiver k r hr).pos_le hf⟩
    · rename_i hdead
      refine ⟨h, fun r' hr' halive => ?_⟩
      obtain rfl := Option.some.inj (hr.symm.trans hr')
      exact absurd halive hdead

theorem step_inv (s : State α) (e : Event α) (h : Inv 0 s) : Inv 0 (step s e) := by
  cases e with
  | trySend x => exact (h.trySend x).1
  | close => exact h.close
  | copySender =>
    show Inv 0 (if s.senders = 0 then s else _)
    split
    · exact h
    · exact { h with }
  | dropSender =>
    show Inv 0 (if s.senders = 0 then s else _)
    split
    · exact h
    · exact { h with }
  | closeOwed =>
    show Inv 0 (if s.closesOwed = 0 then s else _)
    split
    · exact h
    · have hc := h.close
      exact { hc with }
  | subscribe => exact h.subscribe
  | releaseReceiver r => exact h.releaseReceiver r
  | newRecv r => exact h.newRecv r
  | start i => exact h.start i
  | stop i => exact h.stop i
  | destroy i => exact h.destroy i
  | tryRecv r => exact (h.tryRecv r).1

theorem channel_inv {capacity : Nat} (h : channel capacity = .ok s) : Inv 0 s := by
  unfold channel at h
  split at h
  · cases h
    refine {
      base_eq := by simp
      buffer_eq := rfl
      parks := .empty _
      receiver := fun k r hk => ?_
      recv := fun i op hi => by cases hi
      single := fun i j op op' hi => by cases hi }
    cases k with
    | zero =>
      cases hk
      exact ⟨rfl, Nat.le_refl _⟩
    | succ k => cases hk
  · cases h

/-! ### Every run -/

theorem Inv.reason (h : Inv 0 s) (hop : op ∈ s.recvs) (c : Completion α) (hc : c ∈ op.completions) :
    ∃ r, s.receivers[op.receiver]? = some r ∧ Reason s.accepted.length s.closed r.pos r.history op c := by
  obtain ⟨i, hi⟩ := getElem?_of_mem hop
  obtain ⟨r, hr, hok⟩ := h.recv i op hi
  cases hok with
  | done _ _ c' hc' hend =>
    rw [hc', mem_singleton] at hc
    exact ⟨r, hr, hc ▸ hend⟩
  | _ => simp_all

/-- **What the channel promises.**  A receiver's history accounts for exactly the sends accepted from
where it subscribed up to its cursor: read in order, its values are those sends in their order and each at
most once, its lag counts skip sends that were overwritten, and values and skips together are as many.  A
pull completes at most once, for a `Reason`: with what its receiver is given, stopped when it was asked
to, as a violation when another pull of its receiver is parked; one that ends leaves its receiver with
every accepted send accounted for, every send still buffered given as a value, and the channel closed; one
that waits has nothing to read.  What is buffered is the newest `capacity` sends. -/
structure Sound (s : State α) : Prop where
  accounts : ∀ r ∈ s.receivers, Accounts s.capacity s.accepted r.base r.history r.pos
  ordered : ∀ r ∈ s.receivers, (values r.history).Sublist (s.accepted.drop r.base)
  counted : ∀ r ∈ s.receivers, r.base + (r.history.map Entry.size).sum = r.pos ∧ r.pos ≤ s.accepted.length
  once : ∀ op ∈ s.recvs, op.completions.length ≤ 1
  reason : ∀ op ∈ s.recvs, ∀ c ∈ op.completions, ∃ r, s.receivers[op.receiver]? = some r ∧
    Reason s.accepted.length s.closed r.pos r.history op c
  ended : ∀ op ∈ s.recvs, .closed ∈ op.completions → s.closed = true ∧
    ∃ r, s.receivers[op.receiver]? = some r ∧ r.pos = s.accepted.length ∧
      s.accepted.drop (max r.base (s.accepted.length - s.capacity)) <:+ values r.history
  violation : ∀ (i : Nat) (op : RecvOp α), (s.start i).recvs[i]? = some op → .violation ∈ op.completions →
    s.start i = s ∨ ∃ j ∈ s.parked, ∃ other, s.recvs[j]? = some other ∧ other.receiver = op.receiver
  stopped : ∀ i ∈ s.parked,
    (∃ op, (s.stop i).recvs[i]? = some op ∧ op.completions = [.stopped]) ∧ (s.stop i).receivers = s.receivers
  waiting : ∀ (i : Nat) (op : RecvOp α), s.recvs[i]? = some op → op.started = true → op.completions = [] →
    op.destroyed = true ∨ i ∈ s.parked ∧ s.closed = false ∧
      ∃ r, s.receivers[op.receiver]? = some r ∧ r.pos = s.accepted.length
  buffered : s.buffer = s.accepted.drop (s.accepted.length - s.capacity)
  try_send : ∀ x, TrySends s x (s.trySend x)
  try_recv : ∀ k, TryReceives s k (s.tryRecv k)

theorem Inv.sound (h : Inv 0 s) : Sound s where
  accounts r hr := by
    obtain ⟨k, hk⟩ := getElem?_of_mem hr
    exact (h.receiver k r hk).accounts
  ordered r hr := by
    obtain ⟨k, hk⟩ := getElem?_of_mem hr
    exact (h.receiver k r hk).accounts.ordered
  counted r hr := by
    obtain ⟨k, hk⟩ := getElem?_of_mem hr
    exact ⟨(h.receiver k r hk).accounts.counted, (h.receiver k r hk).pos_le⟩
  once op hop := by
    obtain ⟨i, hi⟩ := getElem?_of_mem hop
    obtain ⟨r, -, hok⟩ := h.recv i op hi
    cases hok with
    | done _ _ c hc => simp [hc]
    | _ => simp_all
  reason op hop := h.reason hop
  ended op hop hcl := by
    obtain ⟨r, hr, hclosed, htail⟩ := h.reason hop _ hcl
    exact ⟨hclosed, r, hr, htail, Accounts.newest (htail ▸ (h.receiver _ r hr).accounts)⟩
  violation := h.violation
  stopped i hi := h.stopped hi
  waiting i op hi hs hc := by
    obtain ⟨r, hr, hok⟩ := h.recv i op hi
    cases hok with
    | fresh hs' => rw [hs] at hs'; cases hs'
    | parked _ hst _ _ htail ho => exact .inr ⟨h.parks.mem_of_queued hi hst, ho, r, hr, htail⟩
    | withdrawn _ hd => exact .inl hd
    | done _ _ c hc' => rw [hc] at hc'; cases hc'
  buffered := by
    rw [h.buffer_eq, h.base_eq]
  try_send x := (h.trySend x).2
  try_recv k := (h.tryRecv k).2

/-- A lag of one at a capacity of two, the buffered values after the close, and the end. -/
def lagThenEnd : List (Event Nat) :=
  [.trySend 10, .trySend 11, .trySend 12, .dropSender, .closeOwed, .newRecv 0, .start 0, .tryRecv 0,
    .tryRecv 0, .newRecv 0,
    .start 1]

/-- That run: a lag of one, the two values that were buffered, and the end. -/
example : (Runs.run step { capacity := 2, capacity_pos := by decide, receivers := [{ pos := 0, base := 0 }] }
    lagThenEnd).receivers.map Receiver.history = [[.lagged 1, .value 11, .value 12]] := by decide

end ClashNative.Async.Broadcast
