import ClashNative.Calls
import ClashNative.Runs
/-!
# KcpReads — the reads of a KCP stream

`KcpStreamState` of `kcp_client.cpp` where its reads are operations of `callback_sender.hpp`.  One read is
outstanding at a time; the next one is started when it completes, often from inside of its completion:
`replies` tells what the completions of an event do, one after another.

KCP is the messages that it has in order.  A read is stopped on the executor, where its aborter runs at
once, or elsewhere, where the aborter posts what it does.
-/
namespace ClashNative.Kcp

open List

abbrev Bytes := List UInt8

def intMax : Nat := 2147483647

inductive ReadError
  | aborted | alreadyStarted | messageSize | transport
  deriving DecidableEq, Repr

inductive Outcome
  | value (data : Bytes)
  | error (e : ReadError)
  | stopped
  deriving DecidableEq, Repr

/-- What is posted: the handler of an operation, or the rest of `cancel_read`. -/
inductive Task
  | handler (id : Nat) (result : Except ReadError Bytes)
  | cancel
  deriving DecidableEq, Repr

/-- `translate_read`, without an end of the stream. -/
def outcomeOf : Except ReadError Bytes → Outcome
  | .ok data => .value data
  | .error e => .error e

def dataOf : Outcome → Bytes
  | .value data => data
  | _ => []

/-- **The stream and its reads.**  `pendingRead` is what is left from its offset on, `handler` the
operation whose handler is parked, and `outstanding` the one that is not settled; an operation is known by
its place among the reads.  `arrived` is what KCP has delivered. -/
structure KcpReads where
  messages : List Bytes := []
  pendingRead : Bytes := []
  closed : Bool := false
  handler : Option Nat := none
  readBuffer : Nat := 0
  outstanding : Option Nat := none
  ops : Nat := 0
  posted : List Task := []
  results : List (Nat × Outcome) := []
  stops : List Nat := []
  replies : List (Option Nat) := []
  arrived : Bytes := []

/-- What there is for a read: of the message that was begun, or else of the next one, unless it is empty.
-/
def available (size : Nat) (pendingRead : Bytes) (messages : List Bytes) : Option (Bytes × Bytes × List Bytes) :=
  if pendingRead ≠ [] then some (pendingRead.take size, pendingRead.drop size, messages)
  else
    match messages with
    | [] => none
    | message :: messages => if message = [] then none else some (message.take size, message.drop size, messages)

namespace KcpReads

def postRead (s : KcpReads) (id : Nat) (result : Except ReadError Bytes) : KcpReads :=
  { s with posted := s.posted ++ [.handler id result] }

def cancelRead (s : KcpReads) : KcpReads :=
  match s.handler with
  | none => s
  | some id => { s with handler := none, readBuffer := 0 }.postRead id (.error .aborted)

section Next

-- what the receiver of a read does when it is completed
variable (next : KcpReads → KcpReads)

/-- The terminal of an operation; it is dropped where the operation is settled. -/
def terminal (s : KcpReads) (id : Nat) (result : Except ReadError Bytes) : KcpReads :=
  if s.outstanding = some id then
    next { s with outstanding := none, results := s.results ++ [(id, outcomeOf result)] }
  else s

def finishRead (s : KcpReads) (result : Except ReadError Bytes) : KcpReads :=
  match s.handler with
  | none => s
  | some id => { s with handler := none, readBuffer := 0 }.terminal next id result

def deliverRead (s : KcpReads) : KcpReads :=
  if s.closed ∨ s.handler = none then s
  else
    match available s.readBuffer s.pendingRead s.messages with
    | none => s
    | some (data, pendingRead, messages) => { s with pendingRead, messages }.finishRead next (.ok data)

def asyncReadSome (s : KcpReads) (id size : Nat) : KcpReads :=
  if s.closed then s.postRead id (.error .aborted)
  else if s.handler.isSome then s.postRead id (.error .alreadyStarted)
  else if size = 0 then s.postRead id (.ok [])
  else if intMax < size then s.postRead id (.error .messageSize)
  else { s with readBuffer := size, handler := some id }.deliverRead next

/-- `start` of the operation: where it is settled when the initiation returns, its aborter is run. -/
def startRead (s : KcpReads) (size : Nat) : KcpReads :=
  let id := s.ops
  let s := { s with outstanding := some id, ops := id + 1 }.asyncReadSome next id size
  if s.outstanding = some id then s else s.cancelRead

end Next

/-- The receiver starts the next read, where at most `n` are started inside of each other. -/
def nextWith : Nat → KcpReads → KcpReads
  | 0, s => s
  | n + 1, s =>
    match s.replies with
    | [] => s
    | none :: replies => { s with replies }
    | some size :: replies => { s with replies }.startRead (nextWith n) size

def next (s : KcpReads) : KcpReads := s.nextWith s.replies.length

def settleStopped (s : KcpReads) (id : Nat) : KcpReads :=
  { s with outstanding := none, stops := s.stops ++ [id], results := s.results ++ [(id, .stopped)] }

inductive Act
  | read (size : Nat)
  | stop (onExecutor : Bool)
  | arrive (messages : List Bytes)
  | update
  | task (i : Nat)
  | close
  | fail (e : ReadError)
  deriving DecidableEq, Repr

structure Event where
  act : Act
  replies : List (Option Nat) := []
  deriving DecidableEq, Repr

def perform (s : KcpReads) : Act → KcpReads
  | .read size => if s.outstanding.isSome then s else s.startRead next size
  | .stop onExecutor =>
    match s.outstanding with
    | none => s
    | some id => if onExecutor then (s.settleStopped id).cancelRead.next else
        { s.settleStopped id with posted := s.posted ++ [.cancel] }
  | .arrive messages =>
    if s.closed then s
    else
      -- `run_receive_loop`, with the update behind it
      ({ s with messages := s.messages ++ messages, arrived := s.arrived ++
        messages.flatten }.deliverRead next).deliverRead next
  | .update => s.deliverRead next
  | .task i =>
    match s.posted[i]? with
    | none => s
    | some (.handler id result) => { s with posted := s.posted.eraseIdx i }.terminal next id result
    | some .cancel => { s with posted := s.posted.eraseIdx i }.cancelRead
  | .close => if s.closed then s else { s with closed := true }.finishRead next (.error .aborted)
  | .fail e => if s.closed then s else { s with closed := true }.finishRead next (.error e)

def step (s : KcpReads) (event : Event) : KcpReads := { s with replies := event.replies }.perform event.act

/-! ## What is owed -/

def delivered (s : KcpReads) : Bytes := s.results.flatMap fun entry => dataOf entry.2

/-- **The reads are sound**: one is aborted only if it was stopped or the stream was closed; what they
return are the bytes of KCP in order, and the rest of them is kept; and each completes once. -/
structure Sound (s : KcpReads) : Prop where
  aborted : ∀ id, (id, .error .aborted) ∈ s.results → id ∈ s.stops ∨ s.closed = true
  bytes : s.delivered ++ s.pendingRead ++ s.messages.flatten = s.arrived
  once : Calls.Once (s.results.map Prod.fst) s.outstanding s.ops

/-- The reads that start inside of one another, on so many bytes, end with one that waits inside of one
that has completed (`inside`: one has). -/
def waits (inside : Bool) : List (Option Nat) → Bytes → List Bytes → Bool
  | some size :: replies, pendingRead, messages =>
    if size = 0 ∨ intMax < size then false
    else
      match available size pendingRead messages with
      | none => inside
      | some (_, pendingRead, messages) => waits true replies pendingRead messages
  | _, _, _ => false

/-- What is there for the parked read: it is not settled, and what its receiver starts does not end with a
wait inside of a completed read. -/
def Serves (s : KcpReads) (replies : List (Option Nat)) (messages : List Bytes) : Prop :=
  match s.handler, available s.readBuffer s.pendingRead messages with
  | some id, some (_, pendingRead, messages) => s.outstanding = some id ∧
    waits false replies pendingRead messages = false
  | _, _ => True

/-- What is posted may run: no wait inside of a completed read comes of it, and what a stop has posted
finds no read that goes on. -/
def Permits (s : KcpReads) (replies : List (Option Nat)) (i : Nat) : Prop :=
  match s.posted[i]? with
  | some (.handler id _) => s.outstanding = some id → s.handler = none →
    waits false replies s.pendingRead s.messages = false
  | some .cancel => s.handler = none ∨ s.handler ≠ s.outstanding
  | none => True

/-- **The condition.**  Reads that start inside of one another do not end with one that waits inside of a
completed one; nothing is delivered to a read that was stopped; and what a stop has posted finds no read
that goes on. -/
def Calm (s : KcpReads) (event : Event) : Prop :=
  s.closed = true ∨
    match event.act with
    | .read size => s.outstanding = none → s.handler = none →
      waits false (some size :: event.replies) s.pendingRead s.messages = false
    | .stop true => s.outstanding.isSome = true → waits false event.replies s.pendingRead s.messages = false
    | .arrive messages => s.Serves event.replies (s.messages ++ messages)
    | .update => s.Serves event.replies s.messages
    | .task i => s.Permits event.replies i
    | _ => True

instance (s : KcpReads) (replies : List (Option Nat)) (messages : List Bytes) :
    Decidable (s.Serves replies messages) :=
  match hhandler : s.handler, havailable : available s.readBuffer s.pendingRead messages with
  | some id, some (_, pendingRead, rest) =>
    decidable_of_iff (s.outstanding = some id ∧ waits false replies pendingRead rest = false) (by
      unfold Serves
      rw [hhandler, havailable])
  | none, _ => isTrue (by
      unfold Serves
      rw [hhandler]
      trivial)
  | some _, none => isTrue (by
      unfold Serves
      rw [hhandler, havailable]
      trivial)

instance (s : KcpReads) (replies : List (Option Nat)) (i : Nat) : Decidable (s.Permits replies i) :=
  match htask : s.posted[i]? with
  | some (.handler id _) =>
    decidable_of_iff (s.outstanding = some id → s.handler = none →
      waits false replies s.pendingRead s.messages = false) (by
      unfold Permits
      rw [htask])
  | some .cancel => decidable_of_iff (s.handler = none ∨ s.handler ≠ s.outstanding) (by
      unfold Permits
      rw [htask])
  | none => isTrue (by
      unfold Permits
      rw [htask]
      trivial)

instance Calm.decidable (s : KcpReads) (event : Event) : Decidable (Calm s event) :=
  @instDecidableOr _ _ _ (match event.act with
    | .read size => inferInstanceAs (Decidable (_ → _ →
      waits false (some size :: event.replies) s.pendingRead s.messages = false))
    | .stop true => inferInstanceAs (Decidable (_ → waits false event.replies s.pendingRead s.messages = false))
    | .stop false => isTrue trivial
    | .arrive messages => inferInstanceAs (Decidable (s.Serves event.replies (s.messages ++ messages)))
    | .update => inferInstanceAs (Decidable (s.Serves event.replies s.messages))
    | .task i => inferInstanceAs (Decidable (s.Permits event.replies i))
    | .close => isTrue trivial
    | .fail _ => isTrue trivial)

/-! ## What a run keeps -/

def Owed (s : KcpReads) (id : Nat) (result : Except ReadError Bytes) : Prop :=
  id < s.ops ∧ (∀ data, result = .ok data → data = []) ∧
  (result = .error .aborted → s.closed = true ∨ s.outstanding ≠ some id)

structure Inv (s : KcpReads) : Prop where
  bytes : s.delivered ++ s.pendingRead ++ s.messages.flatten = s.arrived
  once : Calls.Once (s.results.map Prod.fst) s.outstanding s.ops
  aborted : ∀ id, (id, .error .aborted) ∈ s.results → s.closed = true
  parked : ∀ id, s.handler = some id → id < s.ops
  posted : ∀ id result, .handler id result ∈ s.posted → s.Owed id result

def Idle (s : KcpReads) : Prop := s.handler = none ∨ available s.readBuffer s.pendingRead s.messages = none

variable {s : KcpReads}

theorem Inv.sound (h : Inv s) : Sound s := { h with aborted := fun id hmem => Or.inr (h.aborted id hmem) }

variable {messages : List Bytes} {pendingRead : Bytes} {data : Bytes}

theorem available_bytes {size : Nat} {rest : Bytes} {more : List Bytes}
    (h : available size pendingRead messages = some (data, rest, more)) :
    data ++ rest ++ more.flatten = pendingRead ++ messages.flatten := by
  unfold available at h
  split at h
  · cases h
    rw [take_append_drop]
  · rename_i hpending
    rw [not_not.1 hpending]
    split at h
    · cases h
    · split at h
      · cases h
      · cases h
        rw [take_append_drop, flatten_cons, nil_append]

theorem Inv.replies (h : Inv s) (replies : List (Option Nat)) : Inv { s with replies } := { h with }

theorem Inv.begin (h : Inv s) (hnone : s.outstanding = none) : Inv
    { s with outstanding := some s.ops, ops := s.ops + 1 } := by
  have honce := h.once
  rw [hnone] at honce
  refine ⟨h.bytes, honce.park, h.aborted, fun id hid => Nat.lt_succ_of_lt (h.parked id hid),
    fun id result hmem => ?_⟩
  obtain ⟨hid, hdata, haborted⟩ := h.posted id result hmem
  exact ⟨Nat.lt_succ_of_lt hid, hdata, fun _ => .inr fun heq => Nat.ne_of_gt hid (Option.some.inj heq)⟩

variable {id : Nat}

theorem Inv.post (h : Inv s) {result : Except ReadError Bytes} (howed : s.Owed id result) : Inv
    (s.postRead id result) := by
  refine { h with posted := fun other result' hmem => ?_ }
  rcases mem_append.1 hmem with hold | hnew
  · exact h.posted other result' hold
  · cases mem_singleton.1 hnew
    exact howed

theorem Inv.cancel (h : Inv s) (hsettled : s.closed = true ∨ s.handler = none ∨ s.handler ≠ s.outstanding) :
    Inv s.cancelRead ∧ s.cancelRead.handler = none := by
  unfold cancelRead
  cases hhandler : s.handler with
  | none => exact ⟨h, hhandler⟩
  | some id =>
    have hfree : Inv { s with handler := none, readBuffer := 0 } := { h with parked := nofun }
    refine ⟨hfree.post ⟨h.parked id hhandler, nofun, fun _ => ?_⟩, rfl⟩
    rcases hsettled with hclosed | hnone | hne
    · exact .inl hclosed
    · exact absurd (hhandler.symm.trans hnone) nofun
    · exact .inr fun heq => hne (hhandler.trans heq.symm)

theorem Inv.settle (h : Inv s) (hid : s.outstanding = some id) (outcome : Outcome)
    (haborted : outcome = .error .aborted → s.closed = true) (pendingRead : Bytes) (messages : List Bytes)
    (hbytes : dataOf outcome ++ pendingRead ++ messages.flatten = s.pendingRead ++ s.messages.flatten)
    (handler : Option Nat)
    (hparked : ∀ id, handler = some id → id < s.ops) (readBuffer : Nat) (stops : List Nat) : Inv { s with
      outstanding := none, results := s.results ++ [(id, outcome)], pendingRead, messages, handler,
      readBuffer, stops } := by
  have honce := h.once
  rw [hid] at honce
  refine ⟨?_, ?_, fun other hmem => ?_, hparked, fun other result hmem => ?_⟩
  · have hold := h.bytes
    unfold delivered at hold ⊢
    rw [flatMap_append, flatMap_cons, flatMap_nil, append_nil, ← hold, append_assoc, append_assoc, append_assoc,
      ← hbytes, append_assoc]
  · rw [map_append]
    exact honce.finish
  · rcases mem_append.1 hmem with hold | hnew
    · exact h.aborted other hold
    · exact haborted (Prod.ext_iff.1 (mem_singleton.1 hnew)).2.symm
  · obtain ⟨hlt, hdata, haborted'⟩ := h.posted other result hmem
    exact ⟨hlt, hdata, fun _ => .inr nofun⟩

theorem Inv.complete (h : Inv s) (hid : s.outstanding = some id) (outcome : Outcome)
    (haborted : outcome = .error .aborted → s.closed = true)
    (hbytes : dataOf outcome ++ pendingRead ++ messages.flatten = s.pendingRead ++ s.messages.flatten) :
    Inv { s with
      outstanding := none, results := s.results ++ [(id, outcome)], pendingRead, messages, handler :=
      none, readBuffer := 0 } :=
  h.settle hid outcome haborted pendingRead messages hbytes none nofun 0 s.stops

theorem deliverRead_of_none (next : KcpReads → KcpReads)
    (h : available s.readBuffer s.pendingRead s.messages = none) : s.deliverRead next = s := by
  unfold deliverRead
  split
  · rfl
  · rw [h]

theorem deliverRead_of_some (next : KcpReads → KcpReads) (hopen : ¬ s.closed = true)
    (hhandler : s.handler = some id)
    (houtstanding : s.outstanding = some id)
    (h : available s.readBuffer s.pendingRead s.messages = some (data, pendingRead, messages)) :
    s.deliverRead next = next { s with
      outstanding := none, results := s.results ++ [(id, .value data)], pendingRead,
      messages, handler := none, readBuffer := 0 } := by
  unfold deliverRead
  rw [if_neg (not_or.2 ⟨hopen, by rw [hhandler]; exact nofun⟩), h]
  rw [hhandler]
  exact if_pos houtstanding

theorem startRead_spec {next : KcpReads → KcpReads} (hnext : ∀ {t : KcpReads}, Inv t →
    t.outstanding = none → t.handler = none →
      (t.closed = false → waits true t.replies t.pendingRead t.messages = false) → Inv (next t) ∧
      (next t).handler = none)
    (inside : Bool) (size : Nat) (h : Inv s) (hnone : s.outstanding = none)
    (hwaits : s.closed = false → s.handler = none →
      waits inside (some size :: s.replies) s.pendingRead s.messages = false) :
    Inv (s.startRead next size) ∧ (s.handler = none → Idle (s.startRead next size)) ∧
      (inside = true → s.handler = none → (s.startRead next size).handler = none) := by
  have hbegun := h.begin hnone
  -- a handler that is posted leaves the operation outstanding
  have hposts {result : Except ReadError Bytes} (hdata : ∀ data, result = .ok data → data = [])
      (haborted : result = .error .aborted → s.closed = true) :
      let t : KcpReads := { s with outstanding := some s.ops, ops := s.ops + 1 }.postRead s.ops result
      let u := if t.outstanding = some s.ops then t else t.cancelRead
      Inv u ∧ (s.handler = none → Idle u) ∧ (inside = true → s.handler = none → u.handler = none) := by
    intro t u
    have hstays : u = t := if_pos rfl
    rw [hstays]
    exact ⟨hbegun.post ⟨Nat.lt_succ_self _, hdata, fun heq => .inl (haborted heq)⟩,
      fun hfree => .inl hfree, fun _ hfree => hfree⟩
  unfold startRead asyncReadSome
  dsimp only
  by_cases hclosed : s.closed = true
  · rw [if_pos hclosed]
    exact hposts (nofun) fun _ => hclosed
  · rw [if_neg hclosed]
    have hopen : s.closed = false := eq_false_of_ne_true hclosed
    by_cases hhandler : s.handler.isSome = true
    · rw [if_pos hhandler]
      exact hposts (nofun) nofun
    · rw [if_neg hhandler]
      have hfree := Option.not_isSome_iff_eq_none.1 hhandler
      have hwaits := hwaits hopen hfree
      unfold waits at hwaits
      by_cases hzero : size = 0
      · rw [if_pos hzero]
        exact hposts (fun data heq => (Except.ok.inj heq).symm) nofun
      · rw [if_neg hzero]
        by_cases hlarge : intMax < size
        · rw [if_pos hlarge]
          exact hposts (nofun) nofun
        · rw [if_neg hlarge]
          rw [if_neg (not_or.2 ⟨hzero, hlarge⟩)] at hwaits
          have hparked : Inv { s with
              outstanding := some s.ops, ops := s.ops + 1, readBuffer := size, handler := some s.ops } :=
            ⟨h.bytes, hbegun.once, h.aborted,
              fun id hid => by cases hid; exact Nat.lt_succ_self _, hbegun.posted⟩
          cases havailable : available size s.pendingRead s.messages with
          | none =>
            rw [havailable] at hwaits
            rw [deliverRead_of_none next havailable, if_pos rfl]
            exact ⟨hparked, fun _ => .inr havailable, fun hinside => absurd (hinside.symm.trans hwaits) nofun⟩
          | some found =>
            obtain ⟨data, pendingRead, messages⟩ := found
            rw [havailable] at hwaits
            have hdone := hparked.complete rfl (.value data) nofun (available_bytes havailable)
            obtain ⟨hinv, hnone'⟩ := hnext hdone rfl rfl fun _ => hwaits
            have hserved := deliverRead_of_some (s := { s with
              outstanding := some s.ops, ops := s.ops + 1, readBuffer := size,
                handler := some s.ops }) next hclosed rfl rfl havailable
            rw [hserved]
            split
            · exact ⟨hinv, fun _ => .inl hnone', fun _ _ => hnone'⟩
            · obtain ⟨hcancelled, hnone''⟩ := hinv.cancel (.inr (.inl hnone'))
              exact ⟨hcancelled, fun _ => .inl hnone'', fun _ _ => hnone''⟩

theorem nextWith_spec (n : Nat) : ∀ (inside : Bool) {s : KcpReads}, Inv s → s.outstanding = none →
    (s.closed = false → s.handler = none → waits inside s.replies s.pendingRead s.messages = false) →
    Inv (s.nextWith n) ∧ (s.handler = none → Idle (s.nextWith n)) ∧
    (inside = true → s.handler = none → (s.nextWith n).handler = none) := by
  induction n with
  | zero => exact fun _ _ h _ _ => ⟨h, .inl, fun _ hfree => hfree⟩
  | succ n ih =>
    intro inside s h hnone hwaits
    unfold nextWith
    cases hreplies : s.replies with
    | nil => exact ⟨h, .inl, fun _ hfree => hfree⟩
    | cons reply replies =>
      cases reply with
      | none => exact ⟨h.replies replies, fun hfree => .inl hfree, fun _ hfree => hfree⟩
      | some size =>
        rw [hreplies] at hwaits
        refine startRead_spec (fun {t} ht htnone htfree htwaits => ?_) inside size
          (h.replies replies) hnone hwaits
        obtain ⟨hinv, -, hfree⟩ := ih true ht htnone fun hopen _ => htwaits hopen
        exact ⟨hinv, hfree rfl htfree⟩

theorem next_inv (h : Inv s) (hnone : s.outstanding = none)
    (hwaits : s.closed = false → s.handler = none → waits false s.replies s.pendingRead s.messages = false) :
    Inv s.next ∧ (s.handler = none → Idle s.next) :=
  ⟨(nextWith_spec _ false h hnone hwaits).1, (nextWith_spec _ false h hnone hwaits).2.1⟩

/-! ## Events -/

theorem deliverRead_inv (h : Inv s) (hserves : s.closed = false → s.Serves s.replies s.messages) :
    Inv (s.deliverRead next) ∧ ((s.deliverRead next).closed = true ∨ Idle (s.deliverRead next)) := by
  by_cases hclosed : s.closed = true
  · have hstays : s.deliverRead next = s := if_pos (.inl hclosed)
    rw [hstays]
    exact ⟨h, .inl hclosed⟩
  · have hserves := hserves (eq_false_of_ne_true hclosed)
    unfold Serves at hserves
    cases hhandler : s.handler with
    | none =>
      have hstays : s.deliverRead next = s := if_pos (.inr hhandler)
      rw [hstays]
      exact ⟨h, .inr (.inl hhandler)⟩
    | some id =>
      cases havailable : available s.readBuffer s.pendingRead s.messages with
      | none =>
        rw [deliverRead_of_none next havailable]
        exact ⟨h, .inr (.inr havailable)⟩
      | some found =>
        obtain ⟨data, pendingRead, messages⟩ := found
        rw [hhandler, havailable] at hserves
        obtain ⟨hid, hwaits⟩ := hserves
        rw [deliverRead_of_some next hclosed hhandler hid havailable]
        obtain ⟨hinv, hidle⟩ := next_inv (h.complete hid (.value data) nofun (available_bytes havailable))
          rfl fun _ _ => hwaits
        exact ⟨hinv, .inr (hidle rfl)⟩

theorem deliverRead_idle (next : KcpReads → KcpReads) (h : s.closed = true ∨
    Idle s) : s.deliverRead next = s := by
  rcases h with hclosed | hfree | hnothing
  · exact if_pos (.inl hclosed)
  · exact if_pos (.inr hfree)
  · exact deliverRead_of_none next hnothing

theorem finishRead_closed (h : Inv s) (hclosed : s.closed = true) (e : ReadError) :
    Inv (s.finishRead next (.error e)) := by
  unfold finishRead
  cases hhandler : s.handler with
  | none => exact h
  | some id =>
    dsimp only
    unfold terminal
    split
    · rename_i hid
      exact (next_inv (h.complete hid (.error e) (fun _ => hclosed) rfl) rfl fun hopen =>
        absurd (hopen.symm.trans hclosed) nofun).1
    · exact { h with parked := nofun }

theorem Inv.closed (h : Inv s) : Inv { s with closed := true } :=
  { h with aborted := fun _ _ => rfl, posted := fun id result hmem =>
    ⟨(h.posted id result hmem).1, (h.posted id result hmem).2.1, fun _ => .inl rfl⟩ }

theorem cancelRead_eq (s : KcpReads) : ∃ handler readBuffer posted, s.cancelRead =
    { s with handler, readBuffer, posted } := by
  unfold cancelRead
  split
  · exact ⟨_, _, _, rfl⟩
  · exact ⟨_, _, _, rfl⟩

theorem stop_inv (h : Inv s) (onExecutor : Bool)
    (hcalm : onExecutor = true → s.closed = false → s.outstanding.isSome = true →
      waits false s.replies s.pendingRead s.messages = false) :
    Inv (s.perform (.stop onExecutor)) := by
  unfold perform
  cases hid : s.outstanding with
  | none => exact h
  | some id =>
    have hsettled : Inv (s.settleStopped id) :=
      h.settle hid .stopped nofun s.pendingRead s.messages rfl s.handler h.parked s.readBuffer (s.stops ++ [id])
    cases onExecutor with
    | false =>
      refine { hsettled with posted := fun other result hmem => ?_ }
      rcases mem_append.1 hmem with hold | hnew
      · exact hsettled.posted other result hold
      · cases mem_singleton.1 hnew
    | true =>
      have hother : (s.settleStopped id).handler = none ∨
          (s.settleStopped id).handler ≠ (s.settleStopped id).outstanding := by
        by_cases hfree : (s.settleStopped id).handler = none
        · exact .inl hfree
        · exact .inr hfree
      obtain ⟨hcancelled, -⟩ := hsettled.cancel (.inr hother)
      obtain ⟨handler, readBuffer, posted, hfields⟩ := cancelRead_eq (s.settleStopped id)
      have hwaits (hopen : s.closed = false) := hcalm rfl hopen (by rw [hid]; rfl)
      rw [hfields] at hcancelled
      dsimp only
      rw [if_pos rfl, hfields]
      exact (next_inv hcancelled rfl fun hopen _ => hwaits hopen).1

theorem task_inv (h : Inv s) (i : Nat) (hpermits : s.closed = false →
    s.Permits s.replies i) : Inv (s.perform (.task i)) := by
  unfold perform
  dsimp only
  unfold Permits at hpermits
  have herased : Inv { s with posted := s.posted.eraseIdx i } :=
    { h with posted := fun id result hmem => h.posted id result (mem_of_mem_eraseIdx hmem) }
  cases htask : s.posted[i]? with
  | none => exact h
  | some task =>
    rw [htask] at hpermits
    cases task with
    | handler id result =>
      obtain ⟨-, hdata, haborted⟩ := h.posted id result (mem_of_getElem? htask)
      dsimp only
      unfold terminal
      by_cases hid : s.outstanding = some id
      · rw [if_pos hid]
        have hnothing : dataOf (outcomeOf result) = [] := by
          cases result with
          | ok data => exact hdata data rfl
          | error e => rfl
        have hclosed (heq : outcomeOf result = .error .aborted) : s.closed = true := by
          cases result with
          | ok data => cases heq
          | error e =>
            cases heq
            exact (haborted rfl).resolve_right fun hne => hne hid
        have hdone := herased.settle hid
          (outcomeOf result) hclosed s.pendingRead s.messages (by rw [hnothing, nil_append]) s.handler h.parked
          s.readBuffer s.stops
        exact (next_inv hdone rfl fun hopen hfree => hpermits hopen hid hfree).1
      · rw [if_neg hid]
        exact herased
    | cancel =>
      refine (herased.cancel ?_).1
      by_cases hclosed : s.closed = true
      · exact .inl hclosed
      · exact .inr (hpermits (eq_false_of_ne_true hclosed))

theorem step_inv (s : KcpReads) (event : Event) (h : Inv s) (hcalm : Calm s event) : Inv (step s event) := by
  obtain ⟨act, replies⟩ := event
  have hs := h.replies replies
  have hcalm (hopen : s.closed = false) := hcalm.resolve_left fun hclosed => Bool.false_ne_true
    (hopen.symm.trans hclosed)
  cases act with
  | read size =>
    unfold step perform
    dsimp only
    split
    · exact hs
    · rename_i hfree
      have hnone := Option.not_isSome_iff_eq_none.1 hfree
      refine (startRead_spec (fun {t} ht htnone htfree htwaits => ?_) false size hs hnone
        fun hopen => hcalm hopen hnone).1
      obtain ⟨hinv, -, hnext⟩ := nextWith_spec t.replies.length true ht htnone fun hopen _ => htwaits hopen
      exact ⟨hinv, hnext rfl htfree⟩
  | stop onExecutor =>
    refine stop_inv hs onExecutor fun hexecutor hopen => ?_
    subst hexecutor
    exact hcalm hopen
  | arrive messages =>
    unfold step perform
    dsimp only
    split
    · exact hs
    · rename_i hopen
      have harrived : Inv { s with
          replies, messages := s.messages ++ messages, arrived := s.arrived ++ messages.flatten } := by
        refine { h with bytes := ?_ }
        have hbytes := h.bytes
        unfold delivered at hbytes ⊢
        rw [flatten_append, ← append_assoc, hbytes]
      obtain ⟨hinv, hidle⟩ := deliverRead_inv harrived hcalm
      rw [deliverRead_idle next hidle]
      exact hinv
  | update => exact (deliverRead_inv hs hcalm).1
  | task i => exact task_inv hs i hcalm
  | close =>
    unfold step perform
    dsimp only
    split
    · exact hs
    · exact finishRead_closed hs.closed rfl _
  | fail e =>
    unfold step perform
    dsimp only
    split
    · exact hs
    · exact finishRead_closed hs.closed rfl _

/-- **The reads of the stream are sound** in every run that meets the condition, whatever arrives and
whatever the sizes. -/
theorem reads_sound (events : List Event) (hcalm : Runs.Along step Calm {} events) :
    (Runs.run step {} events).Sound := by
  have hnew : Inv {} := ⟨rfl, fun _ => rfl, fun _ hmem => absurd hmem not_mem_nil,
    nofun, fun _ _ hmem => absurd hmem not_mem_nil⟩
  exact (Runs.along_induction step_inv events {} hnew hcalm).sound

/-- A message in two reads, one inside of the other, a read that waits for the next one, and one that is
stopped and loses nothing. -/
theorem reads_sound_inside :
    (Runs.run step {} [⟨.arrive [[1, 2, 3]], []⟩, ⟨.read 2, [some 4, none]⟩, ⟨.read 4, []⟩,
      ⟨.arrive [[4]], [some 1]⟩,
      ⟨.stop true, []⟩, ⟨.task 0, []⟩, ⟨.arrive [[5]], []⟩, ⟨.read 0, []⟩, ⟨.task 0, []⟩, ⟨.close, []⟩]).Sound :=
  reads_sound _ (by decide +kernel)

/-- A read inside of one that completed in its own start is aborted by its aborter; a read that was
stopped elsewhere takes bytes that nobody gets; and what its stop has posted aborts another one. -/
theorem other_reads_are_aborted :
    let inside := Runs.run step {} [⟨.arrive [[1, 2]], []⟩, ⟨.read 4, [some 4]⟩, ⟨.task 0, []⟩]
    let lost := Runs.run step {} [⟨.read 4, []⟩, ⟨.stop false, []⟩, ⟨.arrive [[1]], []⟩]
    let late := Runs.run step {} [⟨.read 0, []⟩, ⟨.stop false, []⟩, ⟨.read 4, []⟩, ⟨.task 1, []⟩, ⟨.task 1, []⟩]
    (inside.results = [(0, .value [1, 2]), (1, .error .aborted)] ∧ inside.stops = [] ∧ inside.closed = false) ∧
      (lost.arrived = [1] ∧ lost.delivered ++ lost.pendingRead ++ lost.messages.flatten = [] ∧
        lost.closed = false) ∧
      late.results = [(0, .stopped), (1, .error .aborted)] ∧ late.stops = [0] ∧ late.closed = false := by
  decide +kernel

end KcpReads
end ClashNative.Kcp
