import ClashNative.ParkedList
import ClashNative.Runs
/-!
# WatchChannel — the latest-value channel

`async/watch.hpp`.  A step is one critical section under the channel's mutex.  A section that decides an
operation's completion leaves it to be fired after the mutex was released; the firing reads and changes
nothing here, so the model records the completion where it is decided.  Versions count up from one and are
natural numbers.
-/
namespace ClashNative.Async.Watch

open ParkedList List

inductive Stage
  | kInit | kQueued | kDone | kStopped | kGone
  deriving DecidableEq, Repr

/-- The completions of a pull: a value and the version it had, the end of the channel, the
`std::logic_error` of a second parked pull, and `set_stopped`. -/
inductive Completion (α : Type)
  | value (version : Nat) (x : α)
  | closed
  | violation
  | stopped
  deriving DecidableEq, Repr

/-- `Receiver`: the version it has seen.  `base` is the version it began with and `observed` what it was
given since. -/
structure Receiver (α : Type) where
  seen : Nat
  base : Nat
  observed : List (Nat × α) := []

structure Wait (α : Type) where
  receiver : Nat
  seen : Nat := 0
  stage : Stage := .kInit
  stopRequested : Bool := false
  started : Bool := false
  destroyed : Bool := false
  completions : List (Completion α) := []

/-- **The channel state** with its receivers and its pulls.  `sent` is every value the slot ever held, in
order. -/
structure State (α : Type) where
  current : α
  version : Nat := 1
  closed : Bool := false
  parked : List Nat := []
  receivers : List (Receiver α) := []
  waits : List (Wait α) := []
  sent : List α

variable {α : Type}

def Wait.outstanding (w : Wait α) : Bool := w.started && w.completions.isEmpty && w.stage != .kGone

/-- A node that the walk over the parked list in `store` or `close` unlinked. -/
def Wait.wake (w : Wait α) : Wait α := { w with stage := .kDone }

namespace State

def setWait (s : State α) (i : Nat) (w : Wait α) : State α := { s with waits := s.waits.set i w }

def finish (s : State α) (i : Nat) (w : Wait α) (c : Completion α) : State α :=
  s.setWait i { w with completions := w.completions ++ [c] }

def take (s : State α) (i : Nat) (w : Wait α) : State α :=
  { s with receivers := s.receivers.modify w.receiver fun r =>
      { r with seen := s.version, observed := r.observed ++ [(s.version, s.current)] } }.finish i w
    (.value s.version s.current)

def store (s : State α) (x : α) : State α :=
  if s.closed then s
  else { s with
    current := x
    version := s.version + 1
    waits := modifyAll Wait.wake s.parked s.waits
    parked := []
    sent := s.sent ++ [x] }

def close (s : State α) : State α :=
  if s.closed then s else { s with closed := true, waits := modifyAll Wait.wake s.parked s.waits, parked := [] }

/-- `Sender::subscribe`; the sender is gone once the channel is closed. -/
def subscribe (s : State α) : State α :=
  if s.closed then s else { s with receivers := s.receivers ++ [{ seen := s.version, base := s.version }] }

def copy (s : State α) (r : Nat) : State α :=
  match s.receivers[r]? with
  | none => s
  | some receiver => { s with receivers := s.receivers ++ [{ seen := receiver.seen, base := receiver.seen }] }

def newWait (s : State α) (r : Nat) : State α :=
  if r < s.receivers.length then { s with waits := s.waits ++ [{ receiver := r }] } else s

def duplicate (s : State α) (w : Wait α) : Bool :=
  s.parked.any fun j => (s.waits[j]?).any fun other => other.receiver == w.receiver

/-- `WaitOpState::start` past its start check, with the version that the receiver has seen. -/
def runWait (s : State α) (i : Nat) (w : Wait α) : State α :=
  if w.stopRequested then s.finish i w .stopped
  else if w.seen < s.version then s.take i w
  else if s.closed then s.finish i w .closed
  else if s.duplicate w then s.finish i w .violation
  else { s.setWait i { w with stage := .kQueued } with parked := s.parked ++ [i] }

/-- `WaitOpState::start`; starting an operation twice, or one that was destroyed, is no step. -/
def start (s : State α) (i : Nat) : State α :=
  match s.waits[i]? with
  | none => s
  | some w =>
    match s.receivers[w.receiver]? with
    | none => s
    | some r =>
      if w.started || w.destroyed then s else s.runWait i { w with started := true, seen := r.seen }

/-- `WaitOpState::complete` of a pull that was woken. -/
def complete (s : State α) (i : Nat) : State α :=
  match s.waits[i]? with
  | none => s
  | some w =>
    match s.receivers[w.receiver]? with
    | none => s
    | some r =>
      if w.stage = .kDone ∧ w.completions = [] then
        if r.seen < s.version then s.take i w else s.finish i w .closed
      else s

def stop (s : State α) (i : Nat) : State α :=
  match s.waits[i]? with
  | none => s
  | some w =>
    match w.stage with
    | .kQueued => { s.finish i { w with stage := .kStopped } .stopped with parked := s.parked.erase i }
    | .kInit => s.setWait i { w with stopRequested := true }
    | _ => s

/-- `~WaitOpState`.  A woken operation must not be destroyed before it has completed, so that is no step.
-/
def destroy (s : State α) (i : Nat) : State α :=
  match s.waits[i]? with
  | none => s
  | some w =>
    if w.stage = .kQueued then
      { s.setWait i { w with stage := .kGone, destroyed := true } with parked := s.parked.erase i }
    else if w.outstanding then s
    else s.setWait i { w with destroyed := true }

end State

inductive Event (α : Type)
  | store (x : α)
  | close
  | subscribe
  | copy (r : Nat)
  | newWait (r : Nat)
  | start (i : Nat)
  | complete (i : Nat)
  | stop (i : Nat)
  | destroy (i : Nat)

def step (s : State α) : Event α → State α
  | .store x => s.store x
  | .close => s.close
  | .subscribe => s.subscribe
  | .copy r => s.copy r
  | .newWait r => s.newWait r
  | .start i => s.start i
  | .complete i => s.complete i
  | .stop i => s.stop i
  | .destroy i => s.destroy i

/-- `channel(initial)`: the value has version one, and the first receiver has seen it. -/
def channel (initial : α) : State α :=
  { current := initial, receivers := [{ seen := 1, base := 1 }], sent := [initial] }

/-- "At most one `next()` operation may be outstanding per receiver at a time": no pull is started while
another of its receiver is outstanding. -/
def OnePull (s : State α) : Event α → Prop
  | .start i => ∀ w ∈ s.waits[i]?, ∀ other ∈ s.waits, other.outstanding = true → other.receiver ≠ w.receiver
  | _ => True

instance (s : State α) : (e : Event α) → Decidable (OnePull s e)
  | .start i => inferInstanceAs
    (Decidable (∀ w ∈ s.waits[i]?, ∀ other ∈ s.waits, other.outstanding = true → other.receiver ≠ w.receiver))
  | .store _ | .close | .subscribe | .copy _ | .newWait _ | .complete _ | .stop _ | .destroy _ => .isTrue trivial

/-! ### What holds of a receiver and of a pull -/

/-- **A receiver is in order**: it observed ever newer versions, the last of them the one it has seen, and
each with the value that was sent as it. -/
structure ReceiverOk (version : Nat) (sent : List α) (r : Receiver α) : Prop where
  increasing : (r.base :: r.observed.map Prod.fst).Pairwise (· < ·)
  le_seen : ∀ v ∈ r.base :: r.observed.map Prod.fst, v ≤ r.seen
  seen_mem : r.seen ∈ r.base :: r.observed.map Prod.fst
  seen_le : r.seen ≤ version
  genuine : ∀ p ∈ r.observed, 0 < p.1 ∧ sent[p.1 - 1]? = some p.2

/-- **A pull is in order**, where `seen` is what its receiver has seen by now and `observed` what it was
given. -/
inductive WaitOk (version : Nat) (closed : Bool) (seen : Nat) (observed : List (Nat × α)) (w : Wait α) : Prop
  | fresh (hs : w.started = false) (hst : w.stage = .kInit) (hc : w.completions = [])
  | parked (hs : w.started = true) (hst : w.stage = .kQueued) (hc : w.completions = []) (hseen : w.seen = seen)
      (hv : w.seen = version) (ho : closed = false)
  | woken (hs : w.started = true) (hst : w.stage = .kDone) (hc : w.completions = []) (hseen : w.seen = seen)
      (hw : w.seen < version ∨ closed = true)
  | withdrawn (hst : w.stage = .kGone) (hd : w.destroyed = true) (hc : w.completions = [])
  | value (hs : w.started = true) (hst : w.stage ≠ .kQueued) (v : Nat) (x : α)
    (hc : w.completions = [.value v x])
      (hlt : w.seen < v) (hx : (v, x) ∈ observed)
  | closed (hs : w.started = true) (hst : w.stage ≠ .kQueued) (hc : w.completions = [.closed])
    (ho : closed = true)
      (hseen : seen = version)
  | stopped (hs : w.started = true) (hst : w.stage ≠ .kQueued) (hc : w.completions = [.stopped])
      (hwhy : w.stopRequested = true ∨ w.stage = .kStopped)

structure Inv (s : State α) : Prop where
  sent_length : s.sent.length = s.version
  current : s.sent[s.version - 1]? = some s.current
  positive : 0 < s.version
  receiver : ∀ (k : Nat) (r : Receiver α), s.receivers[k]? = some r → ReceiverOk s.version s.sent r
  wait : ∀ (i : Nat) (w : Wait α), s.waits[i]? = some w →
    ∃ r, s.receivers[w.receiver]? = some r ∧ WaitOk s.version s.closed r.seen r.observed w
  parks : Parks (fun w : Wait α => w.stage = .kQueued) s.parked s.waits
  single : ∀ (i j : Nat) (w w' : Wait α), s.waits[i]? = some w → s.waits[j]? = some w' → w.outstanding = true →
    w'.outstanding = true → w.receiver = w'.receiver → i = j

variable {sent : List α} {version : Nat} {v : Nat}

theorem ReceiverOk.fresh (h : v ≤ version) :
    ReceiverOk version sent { seen := v, base := v } :=
  ⟨pairwise_singleton _ _, by simp, by simp, h, by simp⟩

variable {r : Receiver α}

theorem ReceiverOk.store (h : ReceiverOk version sent r) (x : α) :
    ReceiverOk (version + 1) (sent ++ [x]) r where
  increasing := h.increasing
  le_seen := h.le_seen
  seen_mem := h.seen_mem
  seen_le := Nat.le_succ_of_le h.seen_le
  genuine p hp := by
    obtain ⟨h0, hx⟩ := h.genuine p hp
    exact ⟨h0, by rw [getElem?_append_left (List.getElem?_eq_some_iff.1 hx).1, hx]⟩

variable {x : α}

theorem ReceiverOk.take (h : ReceiverOk version sent r)
    (hlt : r.seen < version) (hx : sent[version - 1]? = some x) :
    ReceiverOk version sent { r with seen := version, observed := r.observed ++ [(version, x)] } where
  increasing := by
    rw [map_append, ← cons_append, pairwise_append]
    refine ⟨h.increasing, pairwise_singleton _ _, fun a ha b hb => ?_⟩
    rw [map_cons, map_nil, mem_singleton] at hb
    exact hb ▸ Nat.lt_of_le_of_lt (h.le_seen a ha) hlt
  le_seen v hv := by
    rw [map_append, ← cons_append, mem_append] at hv
    rcases hv with hv | hv
    · exact Nat.le_of_lt (Nat.lt_of_le_of_lt (h.le_seen v hv) hlt)
    · rw [map_cons, map_nil, mem_singleton] at hv
      exact Nat.le_of_eq hv
  seen_mem := by simp
  seen_le := Nat.le_refl _
  genuine p hp := by
    rcases mem_append.1 hp with hp | hp
    · exact h.genuine p hp
    · rw [mem_singleton] at hp
      subst hp
      exact ⟨Nat.lt_of_le_of_lt (Nat.zero_le _) hlt, hx⟩

variable {w : Wait α} {observed : List (Nat × α)} {closed : Bool} {seen : Nat}

theorem WaitOk.queued_outstanding
    (h : WaitOk version closed seen observed w) (hst : w.stage = .kQueued) : w.outstanding = true := by
  cases h with
  | parked hs _ hc => simp [Wait.outstanding, hs, hst, hc]
  | _ => simp_all

theorem WaitOk.reseen
    (h : WaitOk version closed seen observed w) (ho : w.outstanding ≠ true) (hlt : seen < version) (seen' : Nat)
    (more : List (Nat × α)) : WaitOk version closed seen' (observed ++ more) w := by
  cases h with
  | fresh hs hst hc => exact .fresh hs hst hc
  | parked hs hst hc => exact absurd (by simp [Wait.outstanding, hs, hst, hc]) ho
  | woken hs hst hc => exact absurd (by simp [Wait.outstanding, hs, hst, hc]) ho
  | withdrawn hst hd hc => exact .withdrawn hst hd hc
  | value hs hst v x hc hv hx => exact .value hs hst v x hc hv (mem_append_left _ hx)
  | closed hs hst hc hcl hseen => exact absurd hseen (Nat.ne_of_lt hlt)
  | stopped hs hst hc hwhy => exact .stopped hs hst hc hwhy

theorem WaitOk.wake {version' : Nat} {closed' : Bool}
    {parked : Bool} (h : WaitOk version closed seen observed w) (hp : parked = true ↔ w.stage = .kQueued)
    (ho : closed = false) (hv : version ≤ version') (hw : version < version' ∨ closed' = true) :
    WaitOk version' closed' seen observed (if parked then w.wake else w) := by
  have hstay : w.stage ≠ .kQueued → (if parked then w.wake else w) = w := fun hne =>
    if_neg fun hpk => hne (hp.1 hpk)
  cases h with
  | fresh hs hst hc =>
    rw [hstay (by simp [hst])]
    exact .fresh hs hst hc
  | parked hs hst hc hseen hver _ =>
    rw [if_pos (hp.2 hst)]
    exact .woken hs rfl hc hseen (hw.imp_left fun hlt => Nat.lt_of_le_of_lt (Nat.le_of_eq hver) hlt)
  | woken hs hst hc hseen hw' =>
    rw [hstay (by simp [hst])]
    refine .woken hs hst hc hseen (.inl ?_)
    rcases hw' with hlt | hcl
    · exact Nat.lt_of_lt_of_le hlt hv
    · rw [ho] at hcl; cases hcl
  | withdrawn hst hd hc =>
    rw [hstay (by simp [hst])]
    exact .withdrawn hst hd hc
  | value hs hst v x hc hlt hx =>
    rw [hstay hst]
    exact .value hs hst v x hc hlt hx
  | closed hs hst hc hcl => rw [ho] at hcl; cases hcl
  | stopped hs hst hc hwhy =>
    rw [hstay hst]
    exact .stopped hs hst hc hwhy

/-! ### What one step keeps -/

variable {s : State α}

theorem outstanding_wake {p : Prop} [Decidable p] (hq : p → w.stage = .kQueued)
    (h : (if p then w.wake else w).outstanding = true) : w.outstanding = true := by
  split at h
  · rename_i hp
    simp only [Wait.wake, Wait.outstanding, Bool.and_eq_true] at h
    simp [Wait.outstanding, h.1.1, h.1.2, hq hp]
  · exact h

theorem Inv.wake (h : Inv s) (closed : Bool) (ho : s.closed = false)
    (hv : s.version ≤ version) (hw : s.version < version ∨ closed = true)
    (hlen : sent.length = version)
    (hcur : sent[version - 1]? = some x) (hr : ∀ r, ReceiverOk s.version s.sent r → ReceiverOk version sent r) :
    Inv { s with
      current := x, version := version, closed := closed, sent := sent, waits :=
      modifyAll Wait.wake s.parked s.waits, parked := [] } where
  sent_length := hlen
  current := hcur
  positive := Nat.lt_of_lt_of_le h.positive hv
  receiver k r hk := hr r (h.receiver k r hk)
  wait i w hi := by
    rw [getElem?_modifyAll _ h.parks.nodup] at hi
    obtain ⟨w₀, hw₀, rfl⟩ := Option.map_eq_some_iff.1 hi
    obtain ⟨r, hr, hok⟩ := h.wait i w₀ hw₀
    have hp : decide (i ∈ s.parked) = true ↔ w₀.stage = .kQueued := by
      rw [decide_eq_true_iff]
      exact ⟨h.parks.queued_of_mem hw₀, h.parks.mem_of_queued hw₀⟩
    have hok' := hok.wake hp ho hv hw
    simp only [decide_eq_true_eq] at hok'
    refine ⟨r, ?_, hok'⟩
    split <;> exact hr
  parks := h.parks.clear fun w => by simp [Wait.wake]
  single i j w w' hi hj hout hout' hrec := by
    rw [getElem?_modifyAll _ h.parks.nodup] at hi hj
    obtain ⟨w₀, hw₀, rfl⟩ := Option.map_eq_some_iff.1 hi
    obtain ⟨w₁, hw₁, rfl⟩ := Option.map_eq_some_iff.1 hj
    have he : ∀ (p : Prop) [Decidable p] (v : Wait α), (if p then v.wake else v).receiver = v.receiver :=
      fun p _ v => by split <;> rfl
    rw [he, he] at hrec
    exact h.single i j w₀ w₁ hw₀ hw₁ (outstanding_wake (h.parks.queued_of_mem hw₀) hout)
      (outstanding_wake (h.parks.queued_of_mem hw₁) hout') hrec

theorem Inv.store (h : Inv s) (x : α) : Inv (s.store x) := by
  unfold State.store
  split
  · exact h
  · rename_i ho
    have hl := h.sent_length
    refine h.wake s.closed (eq_false_of_ne_true ho) (Nat.le_succ _) (.inl (Nat.lt_succ_self _)) (by simp [hl]) ?_
      fun r hr => hr.store x
    simp [← hl]

theorem Inv.close (h : Inv s) : Inv s.close := by
  unfold State.close
  split
  · exact h
  · rename_i ho
    exact h.wake true (eq_false_of_ne_true ho) (Nat.le_refl _) (.inr rfl) h.sent_length h.current
      fun r hr => hr

theorem Inv.addReceiver (h : Inv s) (hv : v ≤ s.version) :
    Inv { s with receivers := s.receivers ++ [{ seen := v, base := v }] } where
  sent_length := h.sent_length
  current := h.current
  positive := h.positive
  receiver k r hk := by
    rcases Tally.getElem?_concat_cases hk with hk | ⟨-, rfl⟩
    · exact h.receiver k r hk
    · exact .fresh hv
  wait i w hi := by
    obtain ⟨r, hr, hok⟩ := h.wait i w hi
    exact ⟨r, by rw [getElem?_append_left (List.getElem?_eq_some_iff.1 hr).1, hr], hok⟩
  parks := h.parks
  single := h.single

theorem Inv.subscribe (h : Inv s) : Inv s.subscribe := by
  unfold State.subscribe
  split
  · exact h
  · exact h.addReceiver (Nat.le_refl _)

theorem Inv.copy (h : Inv s) (k : Nat) : Inv (s.copy k) := by
  unfold State.copy
  split
  · exact h
  · rename_i r hr
    exact h.addReceiver (h.receiver k r hr).seen_le

theorem Inv.newWait (h : Inv s) (k : Nat) : Inv (s.newWait k) := by
  unfold State.newWait
  split
  · rename_i hk
    obtain ⟨r, hr⟩ : ∃ r, s.receivers[k]? = some r := ⟨_, getElem?_eq_getElem hk⟩
    exact {
      sent_length := h.sent_length
      current := h.current
      positive := h.positive
      receiver := h.receiver
      wait := fun i w hi => by
        rcases Tally.getElem?_concat_cases hi with hi | ⟨-, rfl⟩
        · exact h.wait i w hi
        · exact ⟨r, hr, .fresh rfl rfl rfl⟩
      parks := h.parks.add (by simp)
      single := fun i j w w' hi hj ho ho' hrec => by
        rcases Tally.getElem?_concat_cases hi with hi | ⟨-, rfl⟩
        · rcases Tally.getElem?_concat_cases hj with hj | ⟨-, rfl⟩
          · exact h.single i j w w' hi hj ho ho' hrec
          · cases ho'
        · cases ho }
  · exact h

variable {i : Nat} {w' : Wait α}

/-- **One pull is rewritten**, and what it means for the rest: the parked list knows of it, and it is
outstanding only where it was, or where no other pull of its receiver is. -/
theorem Inv.setWait (h : Inv s) (parked : List Nat) (hw : s.waits[i]? = some w)
    (hrec : w'.receiver = w.receiver)
    (hok : ∀ r, s.receivers[w.receiver]? = some r → WaitOk s.version s.closed r.seen r.observed w')
    (hq : Parks (fun w : Wait α => w.stage = .kQueued) parked (s.waits.set i w'))
    (hout : w'.outstanding = true → w.outstanding = true ∨
      ∀ other ∈ s.waits, other.outstanding = true → other.receiver ≠ w.receiver) :
    Inv { s.setWait i w' with parked := parked } where
  sent_length := h.sent_length
  current := h.current
  positive := h.positive
  receiver := h.receiver
  parks := hq
  wait j v hj := by
    rcases Tally.getElem?_set_cases hj with ⟨rfl, rfl⟩ | ⟨-, hj⟩
    · obtain ⟨r, hr, -⟩ := h.wait i w hw
      exact ⟨r, hrec ▸ hr, hok r hr⟩
    · exact h.wait j v hj
  single j k v v' hj hk ho ho' hr := by
    -- the rewritten pull against another one
    have hone : ∀ (j : Nat) (v : Wait α), s.waits[j]? = some v → v.outstanding = true → w'.outstanding = true →
        v.receiver = w.receiver → j = i := fun j v hj ho ho' hr => by
      rcases hout ho' with hwo | hall
      · exact h.single j i v w hj hw ho hwo hr
      · exact absurd hr (hall v (mem_of_getElem? hj) ho)
    rcases Tally.getElem?_set_cases hj with ⟨rfl, rfl⟩ | ⟨-, hold⟩
    · rcases Tally.getElem?_set_cases hk with ⟨rfl, rfl⟩ | ⟨-, hk⟩
      · rfl
      · exact (hone k v' hk ho' ho (hr.symm.trans hrec)).symm
    · rcases Tally.getElem?_set_cases hk with ⟨rfl, rfl⟩ | ⟨-, hk⟩
      · exact hone j v hold ho ho' (hr.trans hrec)
      · exact h.single j k v v' hold hk ho ho' hr

variable {w₀ : Wait α}

theorem Inv.finish (h : Inv s) {c : Completion α} (hw : s.waits[i]? = some w₀)
    (hrec : w.receiver = w₀.receiver) (hst : w.stage ≠ .kQueued) (hst₀ : w₀.stage ≠ .kQueued)
    (hok : ∀ r, s.receivers[w₀.receiver]? = some r →
      WaitOk s.version s.closed r.seen r.observed { w with completions := w.completions ++ [c] }) :
    Inv (s.finish i w c) := by
  exact h.setWait s.parked hw hrec hok (h.parks.rewrite hw (by simp [hst, hst₀])) fun ho =>
    absurd ho (by simp [Wait.outstanding])

theorem Inv.unpark (h : Inv s) (hw : s.waits[i]? = some w) (hrec : w'.receiver = w.receiver)
    (hst : w'.stage ≠ .kQueued) (hno : w'.outstanding ≠ true)
    (hok : ∀ r, s.receivers[w.receiver]? = some r → WaitOk s.version s.closed r.seen r.observed w') :
    Inv { s.setWait i w' with parked := s.parked.erase i } := by
  exact h.setWait _ hw hrec hok (h.parks.unpark hw hst) fun ho => absurd ho hno

theorem Inv.take (h : Inv s) (hw : s.waits[i]? = some w₀)
    (hrec : w.receiver = w₀.receiver) (hr : s.receivers[w₀.receiver]? = some r) (hlt : r.seen < s.version)
    (hseen : w.seen = r.seen) (hs : w.started = true) (hst : w.stage ≠ .kQueued) (hst₀ : w₀.stage ≠ .kQueued)
    (hc : w.completions = [])
    (hone : ∀ (j : Nat) (v : Wait α), s.waits[j]? = some v → v.outstanding = true →
      v.receiver = w₀.receiver → j = i) :
    Inv (s.take i w) := by
  have hlook : ∀ k, (s.take i w).receivers[k]? = (s.receivers[k]?).map fun q => if w₀.receiver = k then
      { q with seen := s.version, observed := q.observed ++ [(s.version, s.current)] } else q := fun k => by
    simp only [State.take, State.finish, State.setWait, hrec, getElem?_modify]
    cases s.receivers[k]? with
    | none => rfl
    | some q => split <;> rfl
  refine {
    sent_length := h.sent_length
    current := h.current
    positive := h.positive
    receiver := fun k q hk => ?_
    wait := fun j v hj => ?_
    parks := h.parks.rewrite hw (by simp [hst, hst₀])
    single := fun j k v v' hj hk ho ho' hvr => ?_ }
  · rw [hlook] at hk
    obtain ⟨q₀, hq₀, rfl⟩ := Option.map_eq_some_iff.1 hk
    split
    · rename_i hkr
      subst hkr
      obtain rfl := Option.some.inj (hq₀.symm.trans hr)
      exact (h.receiver _ q₀ hq₀).take hlt h.current
    · exact h.receiver k q₀ hq₀
  · rcases Tally.getElem?_set_cases hj with ⟨rfl, rfl⟩ | ⟨hne, hj⟩
    · refine ⟨_, by rw [hlook, hrec, hr]; rfl, ?_⟩
      exact .value hs hst s.version s.current (by rw [hc]; rfl) (hseen ▸ hlt) (by simp)
    · obtain ⟨q, hq, hok⟩ := h.wait j v hj
      refine ⟨_, by rw [hlook, hq]; rfl, ?_⟩
      split
      · rename_i hvr
        have hno : v.outstanding ≠ true := fun ho => hne (hone j v hj ho hvr.symm).symm
        obtain rfl := Option.some.inj (hr.symm.trans (hvr ▸ hq))
        exact hok.reseen hno hlt _ _
      · exact hok
  · rcases Tally.getElem?_set_cases hj with ⟨rfl, rfl⟩ | ⟨-, hj⟩
    · simp [Wait.outstanding] at ho
    · rcases Tally.getElem?_set_cases hk with ⟨rfl, rfl⟩ | ⟨-, hk⟩
      · simp [Wait.outstanding] at ho'
      · exact h.single j k v v' hj hk ho ho' hvr

theorem WaitOk.of_not_started
    (h : WaitOk version closed seen observed w) (hs : w.started = false) (hd : w.destroyed = false) :
    w.stage = .kInit ∧ w.completions = [] := by
  cases h with
  | fresh _ hst hc => exact ⟨hst, hc⟩
  | _ => simp_all

theorem Inv.start (h : Inv s) (hone : OnePull s (.start i)) : Inv (s.start i) := by
  unfold State.start
  cases hw : s.waits[i]? with
  | none => exact h
  | some w =>
    obtain ⟨r, hr, hok⟩ := h.wait i w hw
    dsimp only
    rw [hr]
    dsimp only
    split
    · exact h
    · rename_i hsd
      simp only [Bool.or_eq_true, not_or, Bool.not_eq_true] at hsd
      obtain ⟨hst, hc⟩ := hok.of_not_started hsd.1 hsd.2
      have hq : w.stage ≠ .kQueued := by simp [hst]
      have hother : ∀ (j : Nat) (v : Wait α), s.waits[j]? = some v → v.outstanding = true →
        v.receiver = w.receiver →
          j = i := fun j v hj ho hvr => absurd hvr (hone w hw v (mem_of_getElem? hj) ho)
      unfold State.runWait
      split
      · rename_i hstop
        exact h.finish hw rfl hq hq fun q _ => .stopped rfl hq (by simp [hc]) (.inl hstop)
      · split
        · rename_i hlt
          exact h.take hw rfl hr hlt rfl rfl hq hq hc hother
        · rename_i hge
          have hseen : r.seen = s.version := Nat.le_antisymm ((h.receiver _ r hr).seen_le) (Nat.le_of_not_lt hge)
          split
          · rename_i hcl
            refine h.finish hw rfl hq hq fun q hq' => ?_
            obtain rfl := Option.some.inj (hq'.symm.trans hr)
            exact .closed rfl hq (by simp [hc]) hcl hseen
          · rename_i hcl
            rw [if_neg]
            · refine h.setWait _ hw rfl (fun q hq' => ?_) (h.parks.park hw hq rfl) fun _ => .inr ?_
              · obtain rfl := Option.some.inj (hq'.symm.trans hr)
                exact .parked rfl rfl hc rfl hseen (eq_false_of_ne_true hcl)
              · exact fun other hmem ho => hone w hw other hmem ho
            · -- a parked pull of the same receiver would be outstanding
              intro hdup
              obtain ⟨j, hj, hany⟩ := any_eq_true.1 hdup
              obtain ⟨v, hv, hvq⟩ := (h.parks.mem_iff j).1 hj
              rw [hv] at hany
              simp only [Option.any_some, beq_iff_eq] at hany
              obtain ⟨q, -, hvok⟩ := h.wait j v hv
              exact hone w hw v (mem_of_getElem? hv) (hvok.queued_outstanding hvq) hany

theorem Inv.complete (h : Inv s) (i : Nat) : Inv (s.complete i) := by
  unfold State.complete
  cases hw : s.waits[i]? with
  | none => exact h
  | some w =>
    obtain ⟨r, hr, hok⟩ := h.wait i w hw
    dsimp only
    rw [hr]
    dsimp only
    split
    · rename_i hd
      have hq : w.stage ≠ .kQueued := by simp [hd.1]
      cases hok with
      | woken hs hst hc hseen hwake =>
        have hout : w.outstanding = true := by simp [Wait.outstanding, hs, hst, hc]
        split
        · rename_i hlt
          exact h.take hw rfl hr hlt hseen hs hq hq hc fun j v hj ho hvr => h.single j i v w hj hw ho hout hvr
        · rename_i hge
          refine h.finish hw rfl hq hq fun q hq' => ?_
          obtain rfl := Option.some.inj (hq'.symm.trans hr)
          have hle := (h.receiver _ q hr).seen_le
          exact .closed hs hq (by simp [hc]) (hwake.resolve_left (by omega)) (by omega)
      | _ => simp_all
    · exact h

theorem Inv.stop (h : Inv s) (i : Nat) : Inv (s.stop i) := by
  unfold State.stop
  cases hw : s.waits[i]? with
  | none => exact h
  | some w =>
    obtain ⟨r, hr, hok⟩ := h.wait i w hw
    dsimp only
    split
    · rename_i hst
      cases hok with
      | parked hs _ hc =>
        exact h.unpark hw rfl (by simp) (by simp [Wait.outstanding]) fun q _ =>
          .stopped hs (by simp) (by simp [hc]) (.inr rfl)
      | _ => simp_all
    · rename_i hst
      refine h.setWait s.parked hw rfl (fun q hq => ?_) (h.parks.rewrite hw Iff.rfl) fun ho => .inl ho
      obtain rfl := Option.some.inj (hq.symm.trans hr)
      cases hok with
      | fresh hs hst hc => exact .fresh hs hst hc
      | parked hs hst' => rw [hst] at hst'; cases hst'
      | woken hs hst' => rw [hst] at hst'; cases hst'
      | withdrawn hst' => rw [hst] at hst'; cases hst'
      | value hs hst v x hc hlt hx => exact .value hs hst v x hc hlt hx
      | closed hs hst hc ho hseen => exact .closed hs hst hc ho hseen
      | stopped hs hst hc => exact .stopped hs hst hc (.inl rfl)
    · exact h

theorem Inv.destroy (h : Inv s) (i : Nat) : Inv (s.destroy i) := by
  unfold State.destroy
  cases hw : s.waits[i]? with
  | none => exact h
  | some w =>
    obtain ⟨r, hr, hok⟩ := h.wait i w hw
    dsimp only
    split
    · rename_i hst
      cases hok with
      | parked hs _ hc =>
        exact h.unpark hw rfl (by simp) (by simp [Wait.outstanding]) fun q _ => .withdrawn rfl rfl hc
      | _ => simp_all
    · rename_i hst
      split
      · exact h
      · rename_i hno
        refine h.setWait s.parked hw rfl (fun q hq => ?_) (h.parks.rewrite hw Iff.rfl) fun ho => absurd ho hno
        obtain rfl := Option.some.inj (hq.symm.trans hr)
        cases hok with
        | fresh hs hst hc => exact .fresh hs hst hc
        | parked _ hst' => exact absurd hst' hst
        | woken hs hst' hc => exact absurd (by simp [Wait.outstanding, hs, hst', hc]) hno
        | withdrawn hst hd hc => exact .withdrawn hst rfl hc
        | value hs hst v x hc hlt hx => exact .value hs hst v x hc hlt hx
        | closed hs hst hc ho hseen => exact .closed hs hst hc ho hseen
        | stopped hs hst hc hwhy => exact .stopped hs hst hc hwhy

theorem step_inv (s : State α) (e : Event α) (h : Inv s) (hone : OnePull s e) : Inv (step s e) := by
  cases e with
  | store x => exact h.store x
  | close => exact h.close
  | subscribe => exact h.subscribe
  | copy k => exact h.copy k
  | newWait k => exact h.newWait k
  | start i => exact h.start hone
  | complete i => exact h.complete i
  | stop i => exact h.stop i
  | destroy i => exact h.destroy i

theorem channel_inv (initial : α) : Inv (channel initial) where
  sent_length := rfl
  current := rfl
  positive := Nat.one_pos
  receiver k r hk := by
    cases k with
    | zero =>
      cases hk
      exact .fresh (Nat.le_refl _)
    | succ k => cases hk
  wait i w hi := by cases hi
  parks := .empty _
  single i j w w' hi := by cases hi

/-! ### Every run -/

def Event.isClose : Event α → Bool
  | .close => true
  | _ => false

/-- The values of the sends that come before the close. -/
def stores : List (Event α) → List α
  | [] => []
  | .store x :: l => x :: stores l
  | .close :: _ => []
  | _ :: l => stores l

theorem stores_cons (e : Event α) (l : List (Event α)) :
    stores (e :: l) = stores [e] ++ if e.isClose then [] else stores l := by
  cases e <;> rfl

theorem step_books (s : State α) (e : Event α) :
    (step s e).sent = s.sent ++ (if s.closed then [] else stores [e]) ∧
    (step s e).closed = (s.closed || e.isClose) := by
  have hkeep : ∀ s' : State α, s'.sent = s.sent ∧ s'.closed = s.closed → stores [e] = [] → e.isClose = false →
      s'.sent = s.sent ++ (if s.closed then [] else stores [e]) ∧ s'.closed = (s.closed || e.isClose) := by
    intro s' h he hc
    rw [h.1, h.2, he, hc, ite_self, append_nil, Bool.or_false]
    exact ⟨rfl, rfl⟩
  cases e with
  | store x =>
    simp only [step, State.store]
    split <;> simp_all [stores, Event.isClose]
  | close =>
    simp only [step, State.close]
    split <;> simp_all [stores, Event.isClose]
  | subscribe => exact hkeep _ (by simp only [step, State.subscribe]; split <;> exact ⟨rfl, rfl⟩) rfl rfl
  | copy r => exact hkeep _ (by simp only [step, State.copy]; split <;> exact ⟨rfl, rfl⟩) rfl rfl
  | newWait r => exact hkeep _ (by simp only [step, State.newWait]; split <;> exact ⟨rfl, rfl⟩) rfl rfl
  | start i =>
    refine hkeep _ ?_ rfl rfl
    simp only [step, State.start, State.runWait]
    repeat' split
    all_goals exact ⟨rfl, rfl⟩
  | complete i =>
    refine hkeep _ ?_ rfl rfl
    simp only [step, State.complete]
    repeat' split
    all_goals exact ⟨rfl, rfl⟩
  | stop i =>
    refine hkeep _ ?_ rfl rfl
    simp only [step, State.stop]
    repeat' split
    all_goals exact ⟨rfl, rfl⟩
  | destroy i =>
    refine hkeep _ ?_ rfl rfl
    simp only [step, State.destroy]
    repeat' split
    all_goals exact ⟨rfl, rfl⟩

theorem run_books : ∀ (l : List (Event α)) (s : State α),
    (Runs.run step s l).sent = s.sent ++ (if s.closed then [] else stores l) ∧
      (Runs.run step s l).closed = (s.closed || l.any Event.isClose)
  | [], s => by simp [stores]
  | e :: l, s => by
    obtain ⟨hsent, hclosed⟩ := step_books s e
    obtain ⟨ihs, ihc⟩ := run_books l (step s e)
    rw [Runs.run_cons, ihs, ihc, hsent, hclosed, stores_cons e l, any_cons, Bool.or_assoc]
    refine ⟨?_, rfl⟩
    cases s.closed <;> simp

/-- **What the channel promises** of a run of `l`.  The slot holds the last value sent, and the version
counts them.  A receiver observes ever newer versions, each with the value that was sent as it.  A pull
completes at most once: with a value its receiver observes, newer than what that had seen when it started,
or stopped on request, or with the end, and then the channel is closed and its receiver has observed the
last value, if it did not begin with it.  A pull that is outstanding is parked with nothing newer to see
and the channel open, or woken to what it waits for. -/
structure Sound (initial : α) (l : List (Event α)) (s : State α) : Prop where
  sent : s.sent = initial :: stores l
  latest : s.version = s.sent.length ∧ s.sent.getLast? = some s.current
  closed : s.closed = l.any Event.isClose
  increasing : ∀ r ∈ s.receivers, (r.base :: r.observed.map Prod.fst).Pairwise (· < ·)
  genuine : ∀ r ∈ s.receivers, ∀ p ∈ r.observed, 0 < p.1 ∧ s.sent[p.1 - 1]? = some p.2
  completions : ∀ w ∈ s.waits, w.completions = [] ∨
    (w.completions = [.stopped] ∧ (w.stopRequested = true ∨ w.stage = .kStopped)) ∨
    (∃ v x, w.completions = [.value v x] ∧ w.seen < v ∧ s.sent[v - 1]? = some x ∧
      ∃ r, s.receivers[w.receiver]? = some r ∧ (v, x) ∈ r.observed) ∨
    (w.completions = [.closed] ∧ s.closed = true ∧ ∃ r, s.receivers[w.receiver]? = some r ∧
      (r.base = s.version ∨ (s.version, s.current) ∈ r.observed))
  waiting : ∀ (i : Nat) (w : Wait α), s.waits[i]? = some w → w.outstanding = true →
    ∃ r, s.receivers[w.receiver]? = some r ∧ w.seen = r.seen ∧
      ((i ∈ s.parked ∧ r.seen = s.version ∧ s.closed = false) ∨
        (w.stage = .kDone ∧ (r.seen < s.version ∨ s.closed = true)))

theorem Inv.seen_current (h : Inv s) {k : Nat} (hr : s.receivers[k]? = some r) (hseen : r.seen = s.version) :
    r.base = s.version ∨ (s.version, s.current) ∈ r.observed := by
  have hrok := h.receiver k r hr
  rcases mem_cons.1 hrok.seen_mem with hb | ho
  · exact .inl (hb.symm.trans hseen)
  · obtain ⟨⟨v, x⟩, hp, hv⟩ := mem_map.1 ho
    have hx := (hrok.genuine _ hp).2
    rw [hv, hseen, h.current] at hx
    obtain rfl := Option.some.inj hx
    exact .inr (hseen ▸ hv ▸ hp)

theorem Inv.sound {initial : α} {l : List (Event α)} (h : Inv s) (hsent : s.sent = initial :: stores l)
    (hclosed : s.closed = l.any Event.isClose) : Sound initial l s where
  sent := hsent
  latest := by
    refine ⟨h.sent_length.symm, ?_⟩
    rw [getLast?_eq_getElem?, h.sent_length, h.current]
  closed := hclosed
  increasing r hr := by
    obtain ⟨k, hk⟩ := getElem?_of_mem hr
    exact (h.receiver k r hk).increasing
  genuine r hr := by
    obtain ⟨k, hk⟩ := getElem?_of_mem hr
    exact (h.receiver k r hk).genuine
  completions w hw := by
    obtain ⟨i, hi⟩ := getElem?_of_mem hw
    obtain ⟨r, hr, hok⟩ := h.wait i w hi
    cases hok with
    | fresh _ _ hc => exact .inl hc
    | parked _ _ hc => exact .inl hc
    | woken _ _ hc => exact .inl hc
    | withdrawn _ _ hc => exact .inl hc
    | value _ _ v x hc hlt hx =>
      exact .inr (.inr (.inl ⟨v, x, hc, hlt, ((h.receiver _ r hr).genuine _ hx).2, r, hr, hx⟩))
    | closed _ _ hc ho hseen => exact .inr (.inr (.inr ⟨hc, ho, r, hr, h.seen_current hr hseen⟩))
    | stopped _ _ hc hwhy => exact .inr (.inl ⟨hc, hwhy⟩)
  waiting i w hi hout := by
    obtain ⟨r, hr, hok⟩ := h.wait i w hi
    refine ⟨r, hr, ?_⟩
    cases hok with
    | fresh hs => simp [Wait.outstanding, hs] at hout
    | parked hs hst hc hseen hv ho =>
      exact ⟨hseen, .inl ⟨h.parks.mem_of_queued hi hst, hseen.symm.trans hv, ho⟩⟩
    | woken hs hst hc hseen hw => exact ⟨hseen, .inr ⟨hst, hseen ▸ hw⟩⟩
    | withdrawn hst => simp [Wait.outstanding, hst] at hout
    | value _ _ v x hc => simp [Wait.outstanding, hc] at hout
    | closed _ _ hc => simp [Wait.outstanding, hc] at hout
    | stopped _ _ hc => simp [Wait.outstanding, hc] at hout

/-- **Every run of the channel is sound**, as long as no receiver has two pulls outstanding. -/
theorem watch_sound (initial : α) (l : List (Event α)) (h : Runs.Along step OnePull (channel initial) l) :
    Sound initial l (Runs.run step (channel initial) l) := by
  obtain ⟨hsent, hclosed⟩ := run_books l (channel initial)
  exact (Runs.along_induction step_inv l _ (channel_inv initial) h).sound hsent hclosed

/-- A pull parks, the last value and the close come before it is completed, and the next pull sees the
end. -/
theorem watch_sound_last_value :
    Sound 10 [.newWait 0, .start 0, .store 11, .store 12, .close, .complete 0, .newWait 0, .start 1]
      (Runs.run step (channel 10)
        [.newWait 0, .start 0, .store 11, .store 12, .close, .complete 0, .newWait 0, .start 1]) :=
  watch_sound 10 _ (by decide)

/-- That run: the pull that the last value woke is given it, the next one sees the end. -/
example : (Runs.run step (channel 10)
    [.newWait 0, .start 0, .store 11, .store 12, .close, .complete 0, .newWait 0,
      .start 1]).waits.map Wait.completions =
    [[.value 3 12], [.closed]] := by decide

end ClashNative.Async.Watch
