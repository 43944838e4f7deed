import ClashNative.Runs
import ClashNative.Tally
/-!
# HttpTunnelSends — the sending half of an HTTP/2 or HTTP/3 tunnel stream

`HttpTunnelStreamState` of `io/exchange_tunnel_stream.hpp`.  A step is one task of the stream's executor
or one call of its owner; a posted handler runs once and changes nothing of the stream, so an invocation
is recorded where it is posted.
-/
namespace ClashNative.HttpTunnel

open List

/-- The `boost::system::error_code`s a write handler sees. -/
inductive IoError
  | operationAborted
  | other (code : Nat)
  deriving DecidableEq, Repr

structure Outcome where
  error : Option IoError
  size : Nat
  deriving DecidableEq, Repr

def Outcome.aborted : Outcome := ⟨some .operationAborted, 0⟩

/-- Why a handler is invoked: its write was not started, the lower write `w` completed, the stream was
told to cancel the write `w`, or the stream closed. -/
inductive Source
  | refused
  | empty
  | lower (w : Nat)
  | cancel (w : Nat)
  | closed
  deriving DecidableEq, Repr

def Source.write : Source → Option Nat
  | lower w => some w
  | cancel w => some w
  | _ => none

structure Invocation where
  write : Nat
  outcome : Outcome
  source : Source
  deriving DecidableEq, Repr

/-- **The sending half of the stream.**  Writes are numbered in the order in which they reach it.
`handler` is the write whose `write_handler_` is parked; `inflight` are the lower writes that have not
completed, `cancels` the posted tasks of `cancel_write` with the write that each was called for,
`invocations` what write handlers were posted with, and `shutdowns` how many lower writes were outstanding
at each lower shutdown. -/
structure State where
  handler : Option Nat := none
  writeSize : Nat := 0
  localClosed : Bool := false
  shutdownRequested : Bool := false
  closed : Bool := false
  inflight : List Nat := []
  cancels : List Nat := []
  started : Nat := 0
  invocations : List Invocation := []
  shutdownAccepted : Bool := false
  shutdowns : List Nat := []

namespace State

def postWrite (s : State) (w : Nat) (outcome : Outcome) (source : Source) : State :=
  { s with invocations := s.invocations ++ [⟨w, outcome, source⟩] }

def retire (s : State) (w : Nat) (outcome : Outcome) (source : Source) : State :=
  { s with handler := none, writeSize := 0 }.postWrite w outcome source

/-- The task of `write_some`, for a buffer of `size` bytes. -/
def writeSome (s : State) (size : Nat) : State :=
  let w := s.started
  let s := { s with started := w + 1 }
  if s.handler.isSome || s.localClosed || s.closed then s.postWrite w .aborted .refused
  else if size = 0 then s.postWrite w ⟨none, 0⟩ .empty
  else { s with writeSize := size, handler := some w, inflight := s.inflight ++ [w] }

/-- The posted task of `cancel_write`, which was called for the write `w`. -/
def cancelWrite (s : State) (w : Nat) : State :=
  match s.handler with
  | none => s
  | some h => s.retire h .aborted (.cancel w)

def runCancel (s : State) (k : Nat) : State :=
  match s.cancels[k]? with
  | none => s
  | some w => { s with cancels := s.cancels.eraseIdx k }.cancelWrite w

def issueShutdown (s : State) : State :=
  { s with shutdownRequested := false, localClosed := true, shutdowns := s.shutdowns ++ [s.inflight.length] }

def shutdownSend (s : State) : State :=
  if s.closed || s.localClosed then s
  else
    let s := { s with shutdownRequested := true, shutdownAccepted := true }
    if s.handler.isSome then s else s.issueShutdown

/-- `finish_write`, for the completion of the lower write `w`. -/
def finishWrite (s : State) (w : Nat) (error : Option IoError) (size : Nat) : State :=
  match s.handler with
  | none => s
  | some h =>
    let outcome : Outcome := if error = none ∧ size < s.writeSize then
      ⟨some .operationAborted, size⟩ else ⟨error, size⟩
    let s := s.retire h outcome (.lower w)
    if s.shutdownRequested && !s.closed then s.issueShutdown else s

def lowerDone (s : State) (k : Nat) (error : Option IoError) (size : Nat) : State :=
  match s.inflight[k]? with
  | none => s
  | some w => { s with inflight := s.inflight.eraseIdx k }.finishWrite w error size

def abort (s : State) (error : IoError) : State :=
  match s.handler with
  | none => s
  | some h => s.retire h ⟨some error, 0⟩ .closed

/-- `close` and `fail`, which differ in the error that a parked handler gets. -/
def closeWith (s : State) (error : IoError) : State :=
  if s.closed then s
  else
    { s with closed := true, localClosed := true }.abort error

end State

inductive Event
  | write (size : Nat)
  | requestCancel (w : Nat)
  | runCancel (k : Nat)
  | lowerDone (k : Nat) (error : Option IoError) (size : Nat)
  | shutdownSend
  | close
  | fail (error : Option IoError)

def step (s : State) : Event → State
  | .write size => s.writeSome size
  | .requestCancel w => { s with cancels := s.cancels ++ [w] }
  | .runCancel k => s.runCancel k
  | .lowerDone k error size => s.lowerDone k error size
  | .shutdownSend => s.shutdownSend
  | .close => s.closeWith .operationAborted
  | .fail error => s.closeWith (error.getD .operationAborted)

/-! ### What the stream owes -/

/-- **What the sending half owes.**  At most one lower write is outstanding; each handler is parked or was
invoked once, with an outcome of its own write; at most one lower shutdown was issued, with no lower write
outstanding; and while the stream is open a shutdown that was accepted has been issued, or waits for a
lower write. -/
structure Sound (s : State) : Prop where
  one : s.inflight.length ≤ 1
  once : ∀ w < s.started, (s.invocations.countP fun i => i.write == w) +
    (if s.handler = some w then 1 else 0) = 1
  own : ∀ i ∈ s.invocations, ∀ w ∈ i.source.write, w = i.write
  shutdowns : s.shutdowns = [] ∨ s.shutdowns = [0]
  issued : s.shutdownAccepted = true → s.closed = false → s.shutdowns = [0] ∨ s.inflight ≠ []

/-- **The condition of a step**: no write is accepted and no shutdown is issued over a lower write that
lost its handler, no cancellation retires the handler of another write, and no lower write whose handler
was cancelled completes under a shutdown that waits for it. -/
def Kept (s : State) : Event → Prop
  | .write size => size ≠ 0 → s.handler = none → s.localClosed = false → s.closed = false → s.inflight = []
  | .shutdownSend => s.handler = none → s.localClosed = false → s.closed = false → s.inflight = []
  | .runCancel k => ∀ w ∈ s.cancels[k]?, ∀ h ∈ s.handler, w = h
  | .lowerDone k _ _ => k < s.inflight.length → s.handler = none → s.shutdownRequested = true → s.closed = true
  | _ => True

/-- **The invariant of runs that keep the condition.** -/
structure Inv (s : State) : Prop where
  sound : Sound s
  parked : ∀ w, s.handler = some w → s.inflight = [w]
  numbered : ∀ w, s.handler = some w → w < s.started
  fresh : ∀ i ∈ s.invocations, i.write < s.started
  opened : s.localClosed = false → s.shutdowns = [] ∧ (s.shutdownAccepted = true → s.shutdownRequested = true)
  requested : s.shutdownRequested = true → s.closed = false →
    s.inflight ≠ [] ∧ s.shutdownAccepted = true ∧ s.localClosed = false
  shut : s.localClosed = true → s.closed = false → s.shutdowns = [0] ∧ s.inflight = []
  silent : s.closed = true → s.handler = none ∧ s.localClosed = true

variable {s : State}

theorem init_inv : Inv {} where
  sound := ⟨Nat.zero_le _, fun w hw => absurd hw (Nat.not_lt_zero w), fun _ hi => absurd hi not_mem_nil,
    .inl rfl, nofun⟩
  parked := nofun
  numbered := nofun
  fresh _ hi := absurd hi not_mem_nil
  opened _ := ⟨rfl, nofun⟩
  requested := nofun
  shut := nofun
  silent := nofun

variable {w : Nat}

theorem cancelWrite_none (hh : s.handler = none) : s.cancelWrite w = s := by
  unfold State.cancelWrite
  rw [hh]

theorem cancelWrite_some {v : Nat} (hh : s.handler = some v) :
    s.cancelWrite w = s.retire v .aborted (.cancel w) := by
  unfold State.cancelWrite
  rw [hh]

theorem abort_none {error : IoError} (hh : s.handler = none) : s.abort error = s := by
  unfold State.abort
  rw [hh]

theorem abort_some {v : Nat} {error : IoError} (hh : s.handler = some v) :
    s.abort error = s.retire v ⟨some error, 0⟩ .closed := by
  unfold State.abort
  rw [hh]

variable {size : Nat} {error : Option IoError}

theorem finishWrite_none (hh : s.handler = none) :
    s.finishWrite w error size = s := by
  unfold State.finishWrite
  rw [hh]

theorem finishWrite_some {v : Nat} (error : Option IoError) (size : Nat) (hh : s.handler = some v) :
    ∃ o, s.finishWrite w error size = if s.shutdownRequested && !s.closed then
    (s.retire v o (.lower w)).issueShutdown
      else s.retire v o (.lower w) := by
  unfold State.finishWrite
  rw [hh]
  exact ⟨_, rfl⟩

/-! ### Handlers -/

theorem Sound.once_retire (h : ∀ w < s.started, (s.invocations.countP fun i => i.write == w) +
    (if s.handler = some w then 1 else 0) = 1) {v : Nat} (hv : s.handler = some v) (o : Outcome) (src : Source) :
    ∀ w < s.started, ((s.retire v o src).invocations.countP fun i => i.write == w) +
      (if (s.retire v o src).handler = some w then 1 else 0) = 1 := by
  intro w hw
  have hc := h w hw
  simp only [State.retire, State.postWrite, countP_append, countP_singleton, beq_iff_eq, reduceCtorEq, if_false]
  rw [hv] at hc
  simp only [Option.some.injEq] at hc
  exact hc

theorem own_post (h : ∀ i ∈ s.invocations, ∀ w ∈ i.source.write, w = i.write) {v : Nat} {o : Outcome}
    {src : Source} (hsrc : ∀ w ∈ src.write, w = v) :
    ∀ i ∈ (s.postWrite v o src).invocations, ∀ w ∈ i.source.write, w = i.write := by
  intro i hi
  rcases mem_append.1 hi with hi | hi
  · exact h i hi
  · rw [mem_singleton] at hi
    subst hi
    exact hsrc

theorem fresh_post {n : Nat} (h : ∀ i ∈ s.invocations, i.write < n) {v : Nat} {o : Outcome} {src : Source}
    (hv : v < n) :
    ∀ i ∈ (s.postWrite v o src).invocations, i.write < n := by
  intro i hi
  rcases mem_append.1 hi with hi | hi
  · exact h i hi
  · rw [mem_singleton] at hi
    subst hi
    exact hv

theorem Inv.countP_started (h : Inv s) : (s.invocations.countP fun i => i.write == s.started) = 0 :=
  countP_eq_zero.2 fun i hi => by
    have hlt := h.fresh i hi
    simp only [beq_iff_eq]
    omega

theorem Inv.once_arrive (h : Inv s) {invocations : List Invocation} {handler : Option Nat}
    (ho : ∀ w, w ≠ s.started → (invocations.countP fun i => i.write == w) =
      (s.invocations.countP fun i => i.write == w) ∧
      (handler = some w ↔ s.handler = some w))
    (hn : (invocations.countP fun i => i.write == s.started) + (if handler = some s.started then 1 else 0) = 1) :
    ∀ w < s.started + 1, (invocations.countP fun i => i.write == w) +
    (if handler = some w then 1 else 0) = 1 := by
  intro w hw
  by_cases hws : w = s.started
  · rw [hws]
    exact hn
  · obtain ⟨hc, hh⟩ := ho w hws
    rw [hc]
    simp only [hh]
    exact h.sound.once w (Nat.lt_of_le_of_ne (Nat.lt_succ_iff.1 hw) hws)

theorem countP_post (w v : Nat) (o : Outcome) (src : Source) :
    ((s.postWrite v o src).invocations.countP fun i => i.write == w) =
      (s.invocations.countP fun i => i.write == w) + if v = w then 1 else 0 := by
  simp only [State.postWrite, countP_append, countP_singleton, beq_iff_eq]

/-! ### What one step keeps -/

theorem Inv.post (h : Inv s) (o : Outcome) {src : Source} (hsrc : src.write = none) :
    Inv ({ s with started := s.started + 1 }.postWrite s.started o src) where
  sound := {
    one := h.sound.one
    once := by
      refine h.once_arrive (fun w hw => ⟨?_, Iff.rfl⟩) ?_
      · rw [countP_post]
        simp only [Ne.symm hw, if_false, Nat.add_zero]
      · rw [countP_post]
        have hno : s.handler ≠ some s.started := fun hh => absurd (h.numbered _ hh) (Nat.lt_irrefl _)
        simp only [h.countP_started, if_true]
        exact if_neg hno ▸ rfl
    own := own_post (s := { s with started := s.started + 1 }) h.sound.own (by simp [hsrc])
    shutdowns := h.sound.shutdowns
    issued := h.sound.issued }
  parked := h.parked
  numbered w hw := Nat.lt_succ_of_lt (h.numbered w hw)
  fresh := fresh_post (s := { s with started := s.started + 1 }) (fun i hi => Nat.lt_succ_of_lt (h.fresh i hi))
    (Nat.lt_succ_self _)
  opened := h.opened
  requested := h.requested
  shut := h.shut
  silent := h.silent

theorem Inv.writeSome (h : Inv s) (hk : Kept s (.write size)) : Inv (s.writeSome size) := by
  unfold State.writeSome
  dsimp only
  split
  · exact h.post .aborted rfl
  · rename_i hopen
    simp only [Bool.or_eq_true, not_or, Bool.not_eq_true, Option.isSome_eq_false_iff,
      Option.isNone_iff_eq_none] at hopen
    obtain ⟨⟨hh, hl⟩, hc⟩ := hopen
    split
    · exact h.post ⟨none, 0⟩ rfl
    · rename_i hsize
      have hin : s.inflight = [] := hk hsize hh hl hc
      obtain ⟨hsh, hacc⟩ := h.opened hl
      have hreq : s.shutdownRequested ≠ true := fun hr => absurd hin (h.requested hr hc).1
      exact {
        sound := {
          one := by simp [hin]
          once := by
            refine h.once_arrive (fun w hw => ⟨rfl, ?_⟩) ?_
            · simp [hh, Ne.symm hw]
            · rw [h.countP_started, if_pos rfl]
          own := h.sound.own
          shutdowns := h.sound.shutdowns
          issued := fun ha _ => absurd (hacc ha) hreq }
        parked := fun w hw => by
          obtain rfl := Option.some.inj hw
          simp [hin]
        numbered := fun w hw => by
          obtain rfl := Option.some.inj hw
          exact Nat.lt_succ_self _
        fresh := fun i hi => Nat.lt_succ_of_lt (h.fresh i hi)
        opened := h.opened
        requested := fun hr => absurd hr hreq
        shut := fun hl' => by rw [hl] at hl'; cases hl'
        silent := fun hc' => by rw [hc] at hc'; cases hc' }

theorem Inv.retire (h : Inv s) {v : Nat} (hv : s.handler = some v) (o : Outcome) {src : Source}
    (hsrc : ∀ w ∈ src.write, w = v) : Inv (s.retire v o src) where
  sound := {
    one := h.sound.one
    once := Sound.once_retire h.sound.once hv o src
    own := own_post (s := { s with handler := none, writeSize := 0 }) h.sound.own hsrc
    shutdowns := h.sound.shutdowns
    issued := h.sound.issued }
  parked := nofun
  numbered := nofun
  fresh := fresh_post (s := { s with handler := none, writeSize := 0 }) h.fresh (h.numbered v hv)
  opened := h.opened
  requested := h.requested
  shut := h.shut
  silent hc := ⟨rfl, (h.silent hc).2⟩

variable {k : Nat}

theorem Inv.runCancel (h : Inv s) (hk : Kept s (.runCancel k)) : Inv (s.runCancel k) := by
  unfold State.runCancel
  cases hc : s.cancels[k]? with
  | none => exact h
  | some w =>
    have h' : Inv { s with cancels := s.cancels.eraseIdx k } :=
      { h with sound := ⟨h.sound.one, h.sound.once, h.sound.own, h.sound.shutdowns, h.sound.issued⟩ }
    show Inv (State.cancelWrite _ w)
    obtain hh | ⟨v, hh⟩ := Option.eq_none_or_eq_some s.handler
    · rw [@cancelWrite_none { s with cancels := s.cancels.eraseIdx k } w hh]
      exact h'
    · rw [@cancelWrite_some { s with cancels := s.cancels.eraseIdx k } w v hh]
      refine h'.retire hh .aborted fun u hu => ?_
      obtain rfl := Option.some.inj hu
      exact hk w hc v hh

theorem issueShutdown_inv (hs : ∀ w < s.started, (s.invocations.countP fun i => i.write == w) +
      (if s.handler = some w then 1 else 0) = 1) (ho : ∀ i ∈ s.invocations, ∀ w ∈ i.source.write, w = i.write)
    (hf : ∀ i ∈ s.invocations, i.write < s.started) (hh : s.handler = none) (hin : s.inflight = [])
    (hsh : s.shutdowns = []) (hc : s.closed = false) : Inv s.issueShutdown where
  sound := ⟨by simp [State.issueShutdown, hin], hs, ho, .inr (by simp [State.issueShutdown, hin, hsh]),
    fun _ _ => .inl (by simp [State.issueShutdown, hin, hsh])⟩
  parked w hw := by
    rw [State.issueShutdown, hh] at hw; cases hw
  numbered w hw := by
    rw [State.issueShutdown, hh] at hw; cases hw
  fresh := hf
  opened := nofun
  requested := nofun
  shut _ _ := ⟨by simp [State.issueShutdown, hin, hsh], hin⟩
  silent hc' := by
    rw [State.issueShutdown, hc] at hc'; cases hc'

theorem Inv.shutdownSend (h : Inv s) (hk : Kept s .shutdownSend) : Inv s.shutdownSend := by
  unfold State.shutdownSend
  split
  · exact h
  · rename_i hopen
    simp only [Bool.or_eq_true, not_or, Bool.not_eq_true] at hopen
    obtain ⟨hc, hl⟩ := hopen
    obtain ⟨hsh, -⟩ := h.opened hl
    dsimp only
    split
    · -- the shutdown waits for the lower write whose handler is parked
      rename_i hh
      obtain ⟨v, hv⟩ := Option.isSome_iff_exists.1 hh
      have hin : s.inflight ≠ [] := by simp [h.parked v hv]
      exact {
        sound := ⟨h.sound.one, h.sound.once, h.sound.own, h.sound.shutdowns, fun _ _ => .inr hin⟩
        parked := h.parked
        numbered := h.numbered
        fresh := h.fresh
        opened := fun _ => ⟨hsh, fun _ => rfl⟩
        requested := fun _ _ => ⟨hin, rfl, hl⟩
        shut := h.shut
        silent := h.silent }
    · rename_i hh
      have hn : s.handler = none := by simpa using hh
      exact issueShutdown_inv h.sound.once h.sound.own h.fresh hn (hk hn hl hc) hsh hc

theorem eraseIdx_of_length_le_one {l : List Nat} (hl : l.length ≤ 1) (hk : l[k]? = some w) :
    l = [w] ∧ l.eraseIdx k = [] := by
  match l, hl with
  | [], _ => cases hk
  | [a], _ =>
    cases k with
    | zero =>
      cases hk
      exact ⟨rfl, rfl⟩
    | succ k => cases hk

theorem Inv.lowerDone (h : Inv s) (hk : Kept s (.lowerDone k error size)) :
    Inv (s.lowerDone k error size) := by
  unfold State.lowerDone
  cases hw : s.inflight[k]? with
  | none => exact h
  | some w =>
    obtain ⟨hin, he⟩ := eraseIdx_of_length_le_one h.sound.one hw
    show Inv (State.finishWrite _ w error size)
    rw [he]
    obtain hh | ⟨v, hh⟩ := Option.eq_none_or_eq_some s.handler
    · rw [@finishWrite_none { s with inflight := [] } w size error hh]
      -- a lower write that lost its handler: no open stream waits for it
      have hclosed : s.shutdownRequested = true → s.closed = true := hk (List.getElem?_eq_some_iff.1 hw).1 hh
      exact {
        sound := ⟨Nat.zero_le _, h.sound.once, h.sound.own, h.sound.shutdowns, fun ha hc => by
          by_cases hl : s.localClosed = true
          · exact .inl (h.shut hl hc).1
          · have hr := (h.opened (eq_false_of_ne_true hl)).2 ha
            exact absurd (hclosed hr) (ne_true_of_eq_false hc)⟩
        parked := fun v hv => by rw [hh] at hv; cases hv
        numbered := h.numbered
        fresh := h.fresh
        opened := h.opened
        requested := fun hr hc => absurd (hclosed hr) (ne_true_of_eq_false hc)
        shut := fun hl hc => ⟨(h.shut hl hc).1, rfl⟩
        silent := h.silent }
    · have hvw : w = v := by
        have hp := (h.parked v hh).symm.trans hin
        exact (List.cons.inj hp).1.symm
      have hc : s.closed = false := eq_false_of_ne_true fun hc => by
        rw [(h.silent hc).1] at hh; cases hh
      have hl : s.localClosed = false := eq_false_of_ne_true fun hl => by
        rw [(h.shut hl hc).2] at hin; cases hin
      obtain ⟨hsh, hacc⟩ := h.opened hl
      have hsrc : ∀ u ∈ (Source.lower w).write, u = v := fun u hu => by
        obtain rfl := Option.some.inj hu
        exact hvw
      obtain ⟨o, ho⟩ := @finishWrite_some { s with inflight := [] } w v error size hh
      rw [ho]
      have honce := Sound.once_retire (s := { s with inflight := [] }) h.sound.once hh o (.lower w)
      have hown := own_post (s := { s with inflight := [], handler := none, writeSize := 0 })
        (o := o) h.sound.own hsrc
      have hfresh := @fresh_post { s with inflight := [], handler := none, writeSize := 0 }
        s.started h.fresh v o (.lower w)
        (h.numbered v hh)
      split
      · exact issueShutdown_inv honce hown hfresh rfl rfl hsh hc
      · rename_i hr
        have hr' : s.shutdownRequested = false := by
          simp only [hc, Bool.not_false, Bool.and_true, Bool.not_eq_true] at hr
          exact hr
        exact {
          sound := ⟨Nat.zero_le _, honce, hown, .inl hsh, fun ha _ => by
            have hreq := hacc ha
            rw [hr'] at hreq
            cases hreq⟩
          parked := nofun
          numbered := nofun
          fresh := hfresh
          opened := h.opened
          requested := fun hreq => by
            simp only [State.retire, State.postWrite, hr'] at hreq
            cases hreq
          shut := fun hl' => by
            simp only [State.retire, State.postWrite, hl] at hl'
            cases hl'
          silent := fun hc' => by
            simp only [State.retire, State.postWrite, hc] at hc'
            cases hc' }

theorem Inv.closeWith (h : Inv s) (error : IoError) : Inv (s.closeWith error) := by
  unfold State.closeWith
  split
  · exact h
  · obtain hh | ⟨v, hh⟩ := Option.eq_none_or_eq_some s.handler
    · rw [@abort_none { s with closed := true, localClosed := true } error hh]
      exact {
        sound := ⟨h.sound.one, h.sound.once, h.sound.own, h.sound.shutdowns, nofun⟩
        parked := h.parked
        numbered := h.numbered
        fresh := h.fresh
        opened := nofun
        requested := nofun
        shut := nofun
        silent := fun _ => ⟨hh, rfl⟩ }
    · rw [@abort_some { s with closed := true, localClosed := true } v error hh]
      exact {
        sound := ⟨h.sound.one,
          Sound.once_retire (s := { s with closed := true, localClosed := true }) h.sound.once hh _ _,
          own_post (s := { s with
              closed := true, localClosed := true, handler := none, writeSize := 0 }) h.sound.own nofun,
          h.sound.shutdowns, nofun⟩
        parked := nofun
        numbered := nofun
        fresh := fresh_post (s := { s with
            closed := true, localClosed := true, handler := none, writeSize := 0 }) h.fresh
          (h.numbered v hh)
        opened := nofun
        requested := nofun
        shut := nofun
        silent := fun _ => ⟨rfl, rfl⟩ }

theorem step_inv (s : State) (e : Event) (h : Inv s) (hk : Kept s e) : Inv (step s e) := by
  cases e with
  | write size => exact h.writeSome hk
  | requestCancel w =>
    exact { h with sound := ⟨h.sound.one, h.sound.once, h.sound.own, h.sound.shutdowns, h.sound.issued⟩ }
  | runCancel k => exact h.runCancel hk
  | lowerDone k error size => exact h.lowerDone hk
  | shutdownSend => exact h.shutdownSend hk
  | close => exact h.closeWith _
  | fail error => exact h.closeWith _

/-! ### What one step breaks -/

theorem writeSome_breaks (hsize : size ≠ 0) (hh : s.handler = none) (hl : s.localClosed = false)
    (hc : s.closed = false) (hin : s.inflight ≠ []) : ¬Sound (s.writeSome size) := by
  intro h
  have hone := h.one
  have hpos := length_pos_iff.2 hin
  simp only [State.writeSome, hh, hl, hc, Option.isSome_none, Bool.or_self, if_neg hsize,
    Bool.false_eq_true, if_false,
    length_append, length_singleton] at hone
  omega

theorem shutdownSend_breaks (hh : s.handler = none) (hl : s.localClosed = false) (hc : s.closed = false)
    (hin : s.inflight ≠ []) (hsh : s.shutdowns = []) : ¬Sound s.shutdownSend := by
  intro h
  have hs : s.shutdownSend.shutdowns = [s.inflight.length] := by
    simp [State.shutdownSend, State.issueShutdown, hh, hl, hc, hsh]
  have hpos := length_pos_iff.2 hin
  rcases h.shutdowns with h0 | h0
  · rw [hs] at h0; cases h0
  · rw [hs] at h0
    have := (List.cons.inj h0).1
    omega

theorem runCancel_breaks {v : Nat} (hk : s.cancels[k]? = some w) (hv : s.handler = some v) (hne : w ≠ v) :
    ¬Sound (s.runCancel k) := by
  intro h
  have hs : s.runCancel k = State.retire { s with cancels := s.cancels.eraseIdx k } v .aborted (.cancel w) := by
    unfold State.runCancel
    rw [hk]
    exact @cancelWrite_some { s with cancels := s.cancels.eraseIdx k } w v hv
  rw [hs] at h
  exact hne (h.own ⟨v, .aborted, .cancel w⟩ (mem_append_right _ (mem_singleton.2 rfl)) w rfl)

theorem Inv.lowerDone_breaks (h : Inv s) (hk : k < s.inflight.length)
    (hh : s.handler = none) (hr : s.shutdownRequested = true) (hc : s.closed = false) :
    ¬Sound (s.lowerDone k error size) := by
  intro hs
  obtain ⟨w, hw⟩ : ∃ w, s.inflight[k]? = some w := ⟨_, getElem?_eq_getElem hk⟩
  obtain ⟨-, he⟩ := eraseIdx_of_length_le_one h.sound.one hw
  obtain ⟨-, hacc, hl⟩ := h.requested hr hc
  have hstep : s.lowerDone k error size = { s with inflight := [] } := by
    unfold State.lowerDone
    rw [hw]
    rw [he]
    exact @finishWrite_none { s with inflight := [] } w size error hh
  rw [hstep] at hs
  rcases hs.issued hacc hc with h0 | h0
  · rw [(h.opened hl).1] at h0; cases h0
  · exact h0 rfl

theorem step_breaks (s : State) (e : Event) (h : Inv s) (hk : ¬Kept s e) : ¬Sound (step s e) := by
  cases e with
  | write size =>
    simp only [Kept, Classical.not_imp] at hk
    obtain ⟨hsize, hh, hl, hc, hin⟩ := hk
    exact writeSome_breaks hsize hh hl hc hin
  | requestCancel w => exact absurd trivial hk
  | runCancel k =>
    simp only [Kept, not_forall] at hk
    obtain ⟨w, hw, v, hv, hne⟩ := hk
    exact runCancel_breaks hw hv hne
  | lowerDone k error size =>
    simp only [Kept, Classical.not_imp, Bool.not_eq_true] at hk
    obtain ⟨hlt, hh, hr, hc⟩ := hk
    exact h.lowerDone_breaks hlt hh hr hc
  | shutdownSend =>
    simp only [Kept, Classical.not_imp] at hk
    obtain ⟨hh, hl, hc, hin⟩ := hk
    exact shutdownSend_breaks hh hl hc hin (h.opened hl).1
  | close => exact absurd trivial hk
  | fail error => exact absurd trivial hk

/-- **A stream's sends are sound at every point of a run exactly when every step keeps the condition.** -/
theorem sends_sound_iff (l : List Event) :
    (∀ pre, pre <+: l → Sound (Runs.run step {} pre)) ↔ Runs.Along step Kept {} l :=
  Runs.forall_prefix_iff_along (fun _ h => h.sound) step_inv step_breaks init_inv l

/-- A write of a hundred bytes is cancelled while its lower write is outstanding, another one arrives, and
the first lower write completes. -/
def cancelledWrite : List Event :=
  [.write 100, .requestCancel 0, .runCancel 0, .write 10, .lowerDone 0 none 100]

/-- After the cancelled write the second one has a lower write beside the first, whose completion it is
told. -/
theorem cancelled_write_is_mixed_up :
    ¬Sound (Runs.run step {} [.write 100, .requestCancel 0, .runCancel 0, .write 10]) ∧
    ⟨1, ⟨none, 100⟩, .lower 0⟩ ∈ (Runs.run step {} cancelledWrite).invocations :=
  ⟨fun h => absurd h.one (by decide), by decide⟩

end ClashNative.HttpTunnel
