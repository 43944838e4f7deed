import ClashNative.Runs
import Mathlib.Tactic.Common
/-!
# CallbackSender — one terminal, one stop, one destructor

An operation of `callback_sender.hpp`, step by step: `start()` with its tail and its `catch`, the terminal
that the internal work calls, the stop callback, and the destructor.  A step is what one of them does
between two points where another may come in; the sections under the spinlock are one step each.
`opFault` and `blockFault` say that a member of the operation state was touched behind its destructor, or
the shared block behind its last release.
-/
namespace ClashNative.CallbackSender

inductive Winner
  | terminal
  | stop
  | destroy
  | exception
  deriving DecidableEq, Repr

/-- Where `start()` is.  `returned`, `tailed` and `released` have the aborter that the initiation
returned, or the one that was not parked because the operation was settled (`orphan`). -/
inductive Start
  | idle
  | checked
  | registered
  | initiating
  | returned (aborter : Bool)
  | tailed (orphan : Bool)
  | released (orphan : Bool)
  | ended
  | thrown
  | caught
  | dropped
  | failed
  | stoppedEarly
  deriving DecidableEq, Repr

inductive Terminal
  | idle
  | won
  | lost
  | delivered
  | ended
  deriving DecidableEq, Repr

/-- Where `on_stop` is, and whether it took an aborter. -/
inductive Stopping
  | idle
  | entered
  | claimed (aborter : Bool)
  | lost
  | ended
  deriving DecidableEq, Repr

inductive Phase
  | alive
  | claimed
  | released
  | gone
  deriving DecidableEq, Repr

/-- **An operation.**  `settled` is `done` of the shared block, with who set it, and `early` says that the
initiation had not reached the tail of `start()` then; `aborter` says that one is parked in the block.
`launched`: the internal work has the handler. -/
structure State where
  start : Start := .idle
  terminal : Terminal := .idle
  stopping : Stopping := .idle
  phase : Phase := .alive
  stopRequested : Bool := false
  registered : Bool := false
  launched : Bool := false
  settled : Option Winner := none
  early : Bool := false
  aborter : Bool := false
  refs : Nat := 1
  completions : Nat := 0
  aborts : Nat := 0
  opFault : Bool := false
  blockFault : Bool := false
  deriving DecidableEq, Repr

@[grind] def Start.beforeTail : Start → Bool
  | idle | checked | registered | initiating | returned _ | thrown => true
  | _ => false

namespace State

def touchOp (s : State) : State := { s with opFault := s.opFault || s.phase == .gone }

def touchBlock (s : State) : State := { s with blockFault := s.blockFault || s.refs == 0 }

def release (s : State) : State := { s.touchBlock with refs := s.refs - 1 }

def settle (s : State) (w : Winner) : State :=
  { s with settled := some w, early := s.start.beforeTail, aborter := false }

def complete (s : State) : State := { s with completions := s.completions + 1 }

/-! ### `start()` -/

def begin (s : State) : State :=
  if s.start = .idle ∧ s.phase = .alive then
    if s.stopRequested then { s with start := .stoppedEarly }.complete else { s with start := .checked }
  else s

/-- The stop callback is constructed; a stop that is already requested is served inside. -/
def register (s : State) : State :=
  if s.start = .checked then
    let s := { s with start := .registered }.touchOp
    if s.stopRequested then
      if s.settled.isSome then { s with stopping := .lost } else
        { s.settle .stop with stopping := .ended }.complete
    else { s with registered := true }
  else s

/-- The references of the terminal and the frame are taken, and the initiation is moved off the operation
state. -/
def hoist (s : State) : State :=
  if s.start = .registered then { s.touchOp.touchBlock with start := .initiating, refs := s.refs + 2 } else s

def launch (s : State) : State := if s.start = .initiating then { s with launched := true } else s

def initiated (s : State) (aborter : Bool) : State :=
  if s.start = .initiating then { s with start := .returned aborter } else s

def tail (s : State) : State :=
  match s.start with
  | .returned aborter =>
    if s.settled.isSome then { s.touchBlock with start := .tailed aborter }
    else { s.touchBlock with start := .tailed false, aborter }
  | _ => s

def tailRelease (s : State) : State :=
  match s.start with
  | .tailed orphan => { s.release with start := .released orphan }
  | _ => s

def tailAbort (s : State) : State :=
  match s.start with
  | .released orphan => { s with start := .ended, aborts := s.aborts + orphan.toNat }
  | _ => s

def throw (s : State) : State := if s.start = .initiating then { s with start := .thrown } else s

/-- The `catch`: the stop callback is taken down, which waits for a running `on_stop`, and `done` is set.
-/
def catchClaim (s : State) : State :=
  if s.start = .thrown ∧ s.stopping ≠ .entered ∧ s.stopping ≠ .claimed true ∧ s.stopping ≠ .claimed false then
    { s.touchOp.touchBlock with
      start := .caught, registered := false, settled := some (s.settled.getD .exception), aborter := false }
  else s

def catchRelease (s : State) : State :=
  if s.start = .caught then { s.release.release with start := .dropped } else s

def catchDeliver (s : State) : State :=
  if s.start = .dropped then { s.touchOp with start := .failed }.complete else s

/-! ### The terminal -/

def fire (s : State) : State :=
  if s.launched ∧ s.terminal = .idle then
    if s.settled.isSome then { s.touchBlock with terminal := .lost }
    else { s.touchBlock.settle .terminal with terminal := .won }
  else s

/-- The stop callback is taken down, which waits for a running `on_stop`, and the translation completes
the receiver. -/
def deliver (s : State) : State :=
  if s.terminal = .won ∧ s.stopping ≠ .entered then
    { s.touchOp with terminal := .delivered, registered := false }.complete
  else s

def fireRelease (s : State) : State :=
  if s.terminal = .lost ∨ s.terminal = .delivered then { s.release with terminal := .ended } else s

/-! ### A stop -/

def requestStop (s : State) : State :=
  if s.stopRequested then s
  else { s with stopRequested := true, stopping := if s.registered then .entered else s.stopping }

def onStop (s : State) : State :=
  if s.stopping = .entered then
    if s.settled.isSome then { s.touchOp.touchBlock with stopping := .lost }
    else { s.touchOp.touchBlock.settle .stop with stopping := .claimed s.aborter }
  else s

def stopAbort (s : State) : State :=
  if s.stopping = .claimed true then { s with stopping := .claimed false, aborts := s.aborts + 1 } else s

def stopDeliver (s : State) : State :=
  if s.stopping = .claimed false then { s.touchOp with stopping := .ended, registered := false }.complete else s

/-! ### The destructor -/

def destroy (s : State) : State :=
  if s.phase = .alive then
    if s.settled.isSome then { s.touchBlock with phase := .claimed }
    else { s.touchBlock.settle .destroy with phase := .claimed, aborts := s.aborts + s.aborter.toNat }
  else s

def destroyRelease (s : State) : State := if s.phase = .claimed then { s.release with phase := .released } else s

/-- The members go; the stop callback's waits for a running `on_stop`. -/
def destroyEnd (s : State) : State :=
  if s.phase = .released ∧ s.stopping ≠ .entered ∧ s.stopping ≠ .claimed true ∧ s.stopping ≠ .claimed false then
    { s with phase := .gone, registered := false }
  else s

end State

inductive Event
  | begin
  | register
  | hoist
  | launch
  | initiated (aborter : Bool)
  | tail
  | tailRelease
  | tailAbort
  | throw
  | catchClaim
  | catchRelease
  | catchDeliver
  | fire
  | deliver
  | fireRelease
  | requestStop
  | onStop
  | stopAbort
  | stopDeliver
  | destroy
  | destroyRelease
  | destroyEnd
  deriving DecidableEq, Repr

def step (s : State) : Event → State
  | .begin => s.begin
  | .register => s.register
  | .hoist => s.hoist
  | .launch => s.launch
  | .initiated aborter => s.initiated aborter
  | .tail => s.tail
  | .tailRelease => s.tailRelease
  | .tailAbort => s.tailAbort
  | .throw => s.throw
  | .catchClaim => s.catchClaim
  | .catchRelease => s.catchRelease
  | .catchDeliver => s.catchDeliver
  | .fire => s.fire
  | .deliver => s.deliver
  | .fireRelease => s.fireRelease
  | .requestStop => s.requestStop
  | .onStop => s.onStop
  | .stopAbort => s.stopAbort
  | .stopDeliver => s.stopDeliver
  | .destroy => s.destroy
  | .destroyRelease => s.destroyRelease
  | .destroyEnd => s.destroyEnd

/-! ### The invariant -/

@[grind] def Start.frameRefs : Start → Nat
  | initiating | returned _ | tailed _ | thrown | caught => 1
  | _ => 0

/-- The reference of the terminal has been taken, and the `catch` has not released it. -/
@[grind] def Start.hoisted : Start → Bool
  | initiating | returned _ | tailed _ | released _ | ended | thrown | caught => true
  | _ => false

/-- The aborter that `start()` has in its hands, or may still get. -/
@[grind] def Start.aborters : Start → Nat
  | idle | checked | registered | initiating => 1
  | returned aborter | tailed aborter | released aborter => aborter.toNat
  | _ => 0

@[grind] def Stopping.aborters : Stopping → Nat
  | claimed aborter => aborter.toNat
  | _ => 0

/-- `on_stop` has won and is on its way to the receiver. -/
@[grind] def Stopping.serving : Stopping → Bool
  | claimed _ => true
  | _ => false

namespace State

@[grind] def stateRefs (s : State) : Nat := if s.phase = .alive ∨ s.phase = .claimed then 1 else 0

@[grind] def terminalRefs (s : State) : Nat := if s.start.hoisted = true ∧ s.terminal ≠ .ended then 1 else 0

@[grind] def deliveries (s : State) : Nat :=
  (if s.start = .stoppedEarly ∨ s.start = .failed then 1 else 0) +
    (if s.settled = some .terminal ∧ s.terminal ≠ .won then 1 else 0) + (if s.stopping = .ended then 1 else 0)

end State

/-- **What the environment keeps to.**  The operation state is not destroyed while a winner is on its way
to the receiver, nor while `start()` has not hoisted the initiation or is in its `catch`, and no stop is
requested while it is destroyed. The initiation throws only when it has not handed the handler out and
nobody has settled the operation. -/
def Calm (s : State) : Event → Prop
  | .destroy =>
    s.terminal ≠ .won ∧ s.stopping ≠ .entered ∧ s.stopping.serving = false ∧ s.start ≠ .checked ∧
    s.start ≠ .registered ∧
      s.start ≠ .caught ∧ s.start ≠ .dropped
  | .requestStop => s.phase = .alive ∨ s.registered = false
  | .catchClaim => s.settled = none ∧ s.launched = false
  | _ => True

instance (s : State) : (e : Event) → Decidable (Calm s e)
  | .destroy => inferInstanceAs (Decidable (_ ∧ _))
  | .requestStop => inferInstanceAs (Decidable (_ ∨ _))
  | .catchClaim => inferInstanceAs (Decidable (_ ∧ _))
  | .begin | .register | .hoist | .launch | .initiated
      _ | .tail | .tailRelease | .tailAbort | .throw | .catchRelease
  | .catchDeliver | .fire | .deliver | .fireRelease | .onStop | .stopAbort | .stopDeliver | .destroyRelease
      | .destroyEnd =>
    .isTrue trivial

@[grind cases] structure Inv (s : State) : Prop where
  refs : s.refs = s.stateRefs + s.start.frameRefs + s.terminalRefs
  completions : s.completions = s.deliveries
  aborts : s.aborts + s.start.aborters + s.stopping.aborters + s.aborter.toNat ≤ 1
  opFault : s.opFault = false
  blockFault : s.blockFault = false
  launched : s.launched = true → s.start.hoisted = true ∧ s.start ≠ .caught
  fired : s.terminal ≠ .idle → s.launched = true ∧ s.settled ≠ none
  won : s.terminal = .won ∨ s.terminal = .delivered → s.settled = some .terminal
  byTerminal : s.settled = some .terminal → s.terminal ≠ .idle ∧ s.terminal ≠ .lost
  stopWon : s.stopping.serving = true ∨ s.stopping = .ended → s.settled = some .stop
  byStop : s.settled = some .stop → s.stopping.serving = true ∨ s.stopping = .ended
  quiet : s.stopRequested = false → s.stopping = .idle
  entered : s.stopping = .entered → s.registered = true
  registered : s.registered = true → s.phase ≠ .gone ∧ (s.start = .registered ∨ s.start.hoisted = true) ∧
    s.start ≠ .caught
  byException : s.settled = some .exception ↔ s.start = .caught ∨ s.start = .dropped ∨ s.start = .failed
  unsettled : s.start = .idle ∨ s.start = .checked ∨ s.start = .stoppedEarly →
    s.settled = none ∨ s.settled = some .destroy
  byDestroy : s.settled = some .destroy → s.phase ≠ .alive
  dying : s.phase ≠ .alive → s.settled ≠ none ∧ s.terminal ≠ .won ∧ s.stopping ≠ .entered ∧
    s.stopping.serving = false ∧
    s.start ≠ .checked ∧ s.start ≠ .registered ∧ s.start ≠ .caught ∧ s.start ≠ .dropped
  parked : s.aborter = true → s.settled = none
  early : s.start.beforeTail = true → s.settled ≠ none → s.early = true
  orphan : s.start = .tailed true ∨ s.start = .released true → s.early = true ∧ s.settled ≠ none
  reason : 0 < s.aborts → s.settled = some .stop ∨ s.settled = some .destroy ∨
    (s.settled = some .terminal ∧ s.early = true)

theorem init_inv : Inv {} := by
  constructor <;> decide

variable {s : State}

/-! ### Nothing is touched too late -/

theorem touchOp_eq (h : s.phase ≠ .gone) : s.touchOp = s := by
  have hfault : (s.opFault || s.phase == .gone) = s.opFault := by
    rw [beq_eq_false_iff_ne.2 h, Bool.or_false]
  unfold State.touchOp
  rw [hfault]

theorem touchBlock_eq (h : 0 < s.refs) : s.touchBlock = s := by
  have hfault : (s.blockFault || s.refs == 0) = s.blockFault := by
    rw [beq_eq_false_iff_ne.2 (Nat.ne_of_gt h), Bool.or_false]
  unfold State.touchBlock
  rw [hfault]

theorem release_eq (h : 0 < s.refs) : s.release = { s with refs := s.refs - 1 } := by
  unfold State.release
  rw [touchBlock_eq h]

theorem Inv.refs_pos_of_alive (h : Inv s) (hp : s.phase = .alive ∨ s.phase = .claimed) : 0 < s.refs := by
  rw [h.refs, State.stateRefs, if_pos hp]
  omega

theorem Inv.refs_pos_of_frame (h : Inv s) (hf : s.start.frameRefs = 1) : 0 < s.refs := by
  rw [h.refs, hf]
  omega

theorem Inv.refs_pos_of_terminal (h : Inv s) (hl : s.launched = true) (ht : s.terminal ≠ .ended) :
    0 < s.refs := by
  rw [h.refs, State.terminalRefs, if_pos ⟨(h.launched hl).1, ht⟩]
  omega

theorem Inv.phase_of_checked (h : Inv s) (hs : s.start = .checked) : s.phase = .alive := by
  by_contra hp
  exact (h.dying hp).2.2.2.2.1 hs

theorem Inv.phase_of_registered (h : Inv s) (hs : s.start = .registered) : s.phase = .alive := by
  by_contra hp
  exact (h.dying hp).2.2.2.2.2.1 hs

theorem Inv.not_fired (h : Inv s) (hs : s.start.hoisted = false) : s.launched = false ∧ s.terminal = .idle := by
  have hl : s.launched = false := by
    by_contra hl
    rw [Bool.not_eq_false] at hl
    rw [(h.launched hl).1] at hs
    cases hs
  refine ⟨hl, ?_⟩
  by_contra hf
  rw [(h.fired hf).1] at hl
  cases hl

/-! ### `start()` -/

theorem Inv.begin (h : Inv s) : Inv s.begin := by
  unfold State.begin
  split
  · rename_i hs
    obtain ⟨hl, ht⟩ := h.not_fired (by rw [hs.1]; rfl)
    split
    · exact { h with
        refs := by grind [State.complete]
        completions := by grind [State.complete]
        aborts := by grind [State.complete]
        launched := by grind [State.complete]
        registered := by grind [State.complete]
        byException := by grind [State.complete]
        unsettled := by grind [State.complete]
        dying := by grind [State.complete]
        early := by grind [State.complete]
        orphan := by grind [State.complete] }
    · exact { h with
        refs := by grind
        completions := by grind
        aborts := by grind
        launched := by grind
        registered := by grind
        byException := by grind
        unsettled := by grind
        dying := by grind
        early := by grind
        orphan := by grind }
  · exact h

theorem Inv.register (h : Inv s) : Inv s.register := by
  unfold State.register
  split
  · rename_i hs
    have hp := h.phase_of_checked hs
    obtain ⟨hl, ht⟩ := h.not_fired (by rw [hs]; rfl)
    have hn : s.settled = none := (h.unsettled (.inr (.inl hs))).resolve_right fun hd => h.byDestroy hd hp
    have htouch : { s with start := Start.registered }.touchOp = { s with start := Start.registered } :=
      touchOp_eq (s := { s with start := Start.registered }) (by rw [hp]; decide)
    dsimp only
    rw [htouch]
    split
    · rw [if_neg (by rw [hn]; decide)]
      constructor <;> grind [State.complete, State.settle]
    · exact { h with
        refs := by grind
        completions := by grind
        aborts := by grind
        launched := by grind
        entered := by grind
        registered := by grind
        byException := by grind
        unsettled := by grind
        dying := by grind
        early := by grind
        orphan := by grind }
  · exact h

theorem Inv.hoist (h : Inv s) : Inv s.hoist := by
  unfold State.hoist
  split
  · rename_i hs
    have hp := h.phase_of_registered hs
    obtain ⟨hl, ht⟩ := h.not_fired (by rw [hs]; rfl)
    rw [touchOp_eq (by rw [hp]; decide), touchBlock_eq (h.refs_pos_of_alive (.inl hp))]
    exact { h with
      refs := by grind
      completions := by grind
      aborts := by grind
      launched := by grind
      registered := by grind
      byException := by grind
      unsettled := by grind
      dying := by grind
      early := by grind
      orphan := by grind }
  · exact h

theorem Inv.advance (h : Inv s) {t : Start} {refs aborts : Nat} {aborter : Bool} (hs : s.start.hoisted = true)
    (hs' : s.start ≠ .caught) (ht : t.hoisted = true) (ht' : t ≠ .caught)
    (hbefore : t.beforeTail = true → s.start.beforeTail = true)
    (hrefs : refs + s.start.frameRefs = s.refs + t.frameRefs)
    (haborts : aborts + t.aborters + aborter.toNat ≤ s.aborts + s.start.aborters + s.aborter.toNat)
    (hparked : aborter = true → s.settled = none)
    (horphan : t = .tailed true ∨ t = .released true → s.early = true ∧ s.settled ≠ none)
    (hreason : 0 < aborts →
      s.settled = some .stop ∨ s.settled = some .destroy ∨ (s.settled = some .terminal ∧ s.early = true)) :
    Inv { s with start := t, refs, aborts, aborter } := { h with
  refs := by
    have h0 := h.refs
    simp only [State.terminalRefs, State.stateRefs, hs, ht] at h0 ⊢
    omega
  completions := by grind
  aborts := by
    have h0 := h.aborts
    show aborts + t.aborters + s.stopping.aborters + aborter.toNat ≤ 1
    omega
  launched := fun _ => ⟨ht, ht'⟩
  registered := fun hr => ⟨(h.registered hr).1, .inr ht, ht'⟩
  byException := by grind
  unsettled := by grind
  dying := by grind
  parked := hparked
  early := fun hb => h.early (hbefore hb)
  orphan := horphan
  reason := hreason }

theorem Inv.launch (h : Inv s) : Inv s.launch := by
  unfold State.launch
  split
  · rename_i hs
    exact { h with
      launched := fun _ => by rw [hs]; exact ⟨rfl, nofun⟩
      fired := fun hf => ⟨rfl, (h.fired hf).2⟩ }
  · exact h

theorem Inv.initiated (h : Inv s) (aborter : Bool) : Inv (s.initiated aborter) := by
  unfold State.initiated
  split
  · rename_i hs
    refine h.advance (by rw [hs]; rfl) (by rw [hs]; nofun) rfl nofun (fun _ => by rw [hs]; rfl)
      (by rw [hs]; rfl) ?_
      h.parked nofun h.reason
    rw [hs]
    have := aborter.toNat_le
    simp only [Start.aborters]
    omega
  · exact h

theorem Inv.tail (h : Inv s) : Inv s.tail := by
  unfold State.tail
  split
  · rename_i aborter hs
    have hbefore : s.start.beforeTail = true := by rw [hs]; rfl
    rw [touchBlock_eq (h.refs_pos_of_frame (by rw [hs]; rfl))]
    split
    · rename_i hn
      have hn : s.settled ≠ none := Option.isSome_iff_ne_none.1 hn
      exact h.advance (by rw [hs]; rfl) (by rw [hs]; nofun) rfl nofun (fun _ => hbefore) (by rw [hs]; rfl)
        (by rw [hs]; exact Nat.le_refl _) h.parked (fun _ => ⟨h.early hbefore hn, hn⟩) h.reason
    · rename_i hn
      have hn : s.settled = none := Option.not_isSome_iff_eq_none.1 hn
      refine h.advance (by rw [hs]; rfl) (by rw [hs]; nofun) rfl nofun (fun _ => hbefore) (by rw [hs]; rfl) ?_
        (fun _ => hn) nofun h.reason
      rw [hs]
      simp only [Start.aborters, Bool.toNat_false]
      omega
  · exact h

theorem Inv.tailRelease (h : Inv s) : Inv s.tailRelease := by
  unfold State.tailRelease
  split
  · rename_i orphan hs
    have hpos := h.refs_pos_of_frame (by rw [hs]; rfl)
    rw [release_eq hpos]
    refine h.advance (by rw [hs]; rfl) (by rw [hs]; nofun) rfl nofun nofun ?_
      (by rw [hs]; exact Nat.le_refl _) h.parked
      (fun ho => h.orphan (.inl (hs.trans ?_))) h.reason
    · rw [hs]
      simp only [Start.frameRefs]
      omega
    · rcases ho with ho | ho
      · cases ho
      · rw [Start.released.inj ho]
  · exact h

theorem Inv.tailAbort (h : Inv s) : Inv s.tailAbort := by
  unfold State.tailAbort
  split
  · rename_i orphan hs
    refine h.advance (by rw [hs]; rfl) (by rw [hs]; nofun) rfl nofun nofun (by rw [hs]; rfl)
      (by rw [hs]; exact Nat.le_refl _) h.parked nofun fun ha => ?_
    cases orphan with
    | false => exact h.reason ha
    | true =>
      obtain ⟨he, hn⟩ := h.orphan (.inr hs)
      have hx : s.settled ≠ some .exception := fun hx => by
        rcases h.byException.1 hx with hc | hc | hc <;> rw [hs] at hc <;> cases hc
      obtain ⟨w, hw⟩ := Option.ne_none_iff_exists'.1 hn
      cases w with
      | terminal => exact .inr (.inr ⟨hw, he⟩)
      | stop => exact .inl hw
      | destroy => exact .inr (.inl hw)
      | exception => exact absurd hw hx
  · exact h

theorem Inv.throw (h : Inv s) : Inv s.throw := by
  unfold State.throw
  split
  · rename_i hs
    refine h.advance (by rw [hs]; rfl) (by rw [hs]; nofun) rfl nofun (fun _ => by rw [hs]; rfl)
      (by rw [hs]; rfl) ?_
      h.parked nofun h.reason
    simp only [Start.aborters]
    omega
  · exact h

theorem Inv.catchClaim (h : Inv s) (hc : Calm s .catchClaim) : Inv s.catchClaim := by
  unfold State.catchClaim
  split
  · rename_i hs
    obtain ⟨hn, hl⟩ := hc
    have hp : s.phase = .alive := by
      by_contra hp
      exact (h.dying hp).1 hn
    rw [touchOp_eq (by rw [hp]; decide), touchBlock_eq (h.refs_pos_of_alive (.inl hp)), hn, Option.getD_none]
    constructor <;> grind
  · exact h

theorem Inv.catchRelease (h : Inv s) : Inv s.catchRelease := by
  unfold State.catchRelease
  split
  · rename_i hs
    have hp : s.phase = .alive := by
      by_contra hp
      exact (h.dying hp).2.2.2.2.2.2.1 hs
    have hl : s.launched = false := by
      by_contra hl
      exact (h.launched (Bool.not_eq_false _ ▸ hl)).2 hs
    have ht : s.terminal = .idle := by
      by_contra hf
      rw [(h.fired hf).1] at hl
      cases hl
    have hrefs : s.refs = 3 := by
      rw [h.refs, State.stateRefs, State.terminalRefs, hs, hp, ht]
      rfl
    have hfirst : s.release = { s with refs := 2 } := by
      rw [release_eq (by omega), hrefs]
    have hsecond : s.release.release = { s with refs := 1 } := by
      rw [hfirst]
      exact release_eq (s := { s with refs := 2 }) (Nat.succ_pos 1)
    rw [hsecond]
    exact { h with
      refs := by grind
      completions := by grind
      aborts := by grind
      launched := by grind
      registered := by grind
      byException := by grind
      unsettled := by grind
      dying := by grind
      early := by grind
      orphan := by grind }
  · exact h

theorem Inv.catchDeliver (h : Inv s) : Inv s.catchDeliver := by
  unfold State.catchDeliver
  split
  · rename_i hs
    have hp : s.phase = .alive := by
      by_contra hp
      exact (h.dying hp).2.2.2.2.2.2.2 hs
    rw [touchOp_eq (by rw [hp]; decide)]
    exact { h with
      refs := by grind [State.complete]
      completions := by grind [State.complete]
      aborts := by grind [State.complete]
      launched := by grind [State.complete]
      registered := by grind [State.complete]
      byException := by grind [State.complete]
      unsettled := by grind [State.complete]
      dying := by grind [State.complete]
      early := by grind [State.complete]
      orphan := by grind [State.complete] }
  · exact h

/-! ### The terminal -/

theorem Inv.fire (h : Inv s) : Inv s.fire := by
  unfold State.fire
  split
  · rename_i hs
    rw [touchBlock_eq (h.refs_pos_of_terminal hs.1 (by rw [hs.2]; nofun))]
    split
    · rename_i hn
      exact { h with
        refs := by grind
        completions := by grind
        fired := by grind
        won := by grind
        byTerminal := by grind
        dying := by grind }
    · rename_i hn
      have hn : s.settled = none := Option.not_isSome_iff_eq_none.1 hn
      constructor <;> grind [State.settle]
  · exact h

theorem Inv.deliver (h : Inv s) : Inv s.deliver := by
  unfold State.deliver
  split
  · rename_i hs
    have hp : s.phase = .alive := by
      by_contra hp
      exact (h.dying hp).2.1 hs.1
    rw [touchOp_eq (by rw [hp]; decide)]
    exact { h with
      refs := by grind [State.complete]
      completions := by grind [State.complete]
      fired := by grind [State.complete]
      won := by grind [State.complete]
      byTerminal := by grind [State.complete]
      entered := by grind [State.complete]
      registered := by grind [State.complete]
      dying := by grind [State.complete] }
  · exact h

theorem Inv.fireRelease (h : Inv s) : Inv s.fireRelease := by
  unfold State.fireRelease
  split
  · rename_i hs
    have hne : s.terminal ≠ .idle ∧ s.terminal ≠ .ended := by
      rcases hs with hs | hs <;> rw [hs] <;> exact ⟨nofun, nofun⟩
    have hl := (h.fired hne.1).1
    have hpos := h.refs_pos_of_terminal hl hne.2
    rw [release_eq hpos]
    exact { h with
      refs := by grind
      completions := by grind
      fired := by grind
      won := by grind
      byTerminal := by grind
      dying := by grind }
  · exact h

/-! ### A stop -/

theorem Inv.requestStop (h : Inv s) (hc : Calm s .requestStop) : Inv s.requestStop := by
  unfold State.requestStop
  split
  · exact h
  · rename_i hreq
    by_cases hr : s.registered = true
    · rw [if_pos hr]
      have hp : s.phase = .alive := hc.resolve_right fun hf => by rw [hr] at hf; cases hf
      exact { h with
        completions := by grind
        aborts := by grind
        stopWon := by grind
        byStop := by grind
        quiet := by grind
        entered := by grind
        dying := by grind }
    · rw [if_neg hr]
      exact { h with quiet := nofun }

theorem Inv.onStop (h : Inv s) : Inv s.onStop := by
  unfold State.onStop
  split
  · rename_i hs
    have hp : s.phase = .alive := by
      by_contra hp
      exact (h.dying hp).2.2.1 hs
    rw [touchOp_eq (by rw [hp]; decide), touchBlock_eq (h.refs_pos_of_alive (.inl hp))]
    split
    · rename_i hn
      exact { h with
        completions := by grind
        aborts := by grind
        stopWon := by grind
        byStop := by grind
        quiet := by grind
        entered := by grind
        dying := by grind }
    · rename_i hn
      have hn : s.settled = none := Option.not_isSome_iff_eq_none.1 hn
      constructor <;> grind [State.settle]
  · exact h

theorem Inv.stopAbort (h : Inv s) : Inv s.stopAbort := by
  unfold State.stopAbort
  split
  · rename_i hs
    exact { h with
      completions := by grind
      aborts := by grind
      stopWon := by grind
      byStop := by grind
      quiet := by grind
      entered := by grind
      dying := by grind
      reason := by grind }
  · exact h

theorem Inv.stopDeliver (h : Inv s) : Inv s.stopDeliver := by
  unfold State.stopDeliver
  split
  · rename_i hs
    have hp : s.phase = .alive := by
      by_contra hp
      have hserving := (h.dying hp).2.2.2.1
      rw [hs] at hserving
      cases hserving
    rw [touchOp_eq (by rw [hp]; decide)]
    exact { h with
      completions := by grind [State.complete]
      aborts := by grind [State.complete]
      stopWon := by grind [State.complete]
      byStop := by grind [State.complete]
      quiet := by grind [State.complete]
      entered := by grind [State.complete]
      registered := by grind [State.complete]
      dying := by grind [State.complete] }
  · exact h

/-! ### The destructor -/

theorem Inv.destroy (h : Inv s) (hc : Calm s .destroy) : Inv s.destroy := by
  unfold State.destroy
  split
  · rename_i hs
    rw [touchBlock_eq (h.refs_pos_of_alive (.inl hs))]
    obtain ⟨h1, h2, h3, h4, h5, h6, h7⟩ := hc
    split
    · rename_i hn
      exact { h with
        refs := by grind
        registered := by grind
        byDestroy := by grind
        dying := by grind }
    · rename_i hn
      have hn : s.settled = none := Option.not_isSome_iff_eq_none.1 hn
      constructor <;> grind [State.settle]
  · exact h

theorem Inv.destroyRelease (h : Inv s) : Inv s.destroyRelease := by
  unfold State.destroyRelease
  split
  · rename_i hs
    rw [release_eq (h.refs_pos_of_alive (.inr hs))]
    exact { h with
      refs := by grind
      registered := by grind
      byDestroy := by grind
      dying := by grind }
  · exact h

theorem Inv.destroyEnd (h : Inv s) : Inv s.destroyEnd := by
  unfold State.destroyEnd
  split
  · rename_i hs
    exact { h with
      refs := by grind
      entered := by grind
      registered := by grind
      byDestroy := by grind
      dying := by grind }
  · exact h

/-! ### Runs -/

theorem step_inv {e : Event} (h : Inv s) (hc : Calm s e) : Inv (step s e) := by
  cases e with
  | begin => exact h.begin
  | register => exact h.register
  | hoist => exact h.hoist
  | launch => exact h.launch
  | initiated aborter => exact h.initiated aborter
  | tail => exact h.tail
  | tailRelease => exact h.tailRelease
  | tailAbort => exact h.tailAbort
  | throw => exact h.throw
  | catchClaim => exact h.catchClaim hc
  | catchRelease => exact h.catchRelease
  | catchDeliver => exact h.catchDeliver
  | fire => exact h.fire
  | deliver => exact h.deliver
  | fireRelease => exact h.fireRelease
  | requestStop => exact h.requestStop hc
  | onStop => exact h.onStop
  | stopAbort => exact h.stopAbort
  | stopDeliver => exact h.stopDeliver
  | destroy => exact h.destroy hc
  | destroyRelease => exact h.destroyRelease
  | destroyEnd => exact h.destroyEnd

def Quiet (s : State) : Prop :=
  s.terminal ≠ .won ∧ s.stopping.serving = false ∧ s.start ≠ .caught ∧ s.start ≠ .dropped

/-- **What holds of an operation.**  `once`, `completed`: the receiver is completed at most once, and has
been, once it is settled and the winner is through, unless by its destruction; a terminal that was called
finds it settled.  `abortOnce`, `aborted`: the aborter is called at most once, for a stop, a destruction,
or a terminal that came before the initiation returned.  `refs`, `intact`: the block is there as long as
one of its three holders is, and nothing is touched too late. -/
structure Sound (s : State) : Prop where
  once : s.completions ≤ 1
  pending : s.settled = none → s.start ≠ .stoppedEarly → s.completions = 0
  completed : s.settled ≠ none → s.settled ≠ some .destroy → Quiet s → s.completions = 1
  fired : s.terminal ≠ .idle → s.settled ≠ none
  abortOnce : s.aborts ≤ 1
  aborted : 0 < s.aborts →
    s.settled = some .stop ∨ s.settled = some .destroy ∨ (s.settled = some .terminal ∧ s.early = true)
  refs : s.refs = s.stateRefs + s.start.frameRefs + s.terminalRefs
  intact : s.opFault = false ∧ s.blockFault = false

theorem Inv.deliveries_eq (h : Inv s) : s.deliveries =
    match s.settled with
    | none | some .destroy => if s.start = .stoppedEarly then 1 else 0
    | some .terminal => if s.terminal = .won then 0 else 1
    | some .stop => if s.stopping.serving = true then 0 else 1
    | some .exception => if s.start = .failed then 1 else 0 := by
  obtain hn | ⟨w, hw⟩ := Option.eq_none_or_eq_some s.settled
  · grind
  · cases w <;> grind

theorem Inv.sound (h : Inv s) : Sound s where
  once := by
    rw [h.completions, h.deliveries_eq]
    split <;> split <;> decide
  pending hn hs := by
    rw [h.completions, h.deliveries_eq, hn]
    exact if_neg hs
  completed hn hd hq := by
    rw [h.completions, h.deliveries_eq]
    obtain ⟨hwon, hserving, hcaught, hdropped⟩ := hq
    obtain ⟨w, hw⟩ := Option.ne_none_iff_exists'.1 hn
    rw [hw]
    cases w with
    | terminal => exact if_neg hwon
    | stop => exact if_neg (by rw [hserving]; decide)
    | destroy => exact absurd hw hd
    | exception => exact if_pos (((h.byException.1 hw).resolve_left hcaught).resolve_left hdropped)
  fired hf := (h.fired hf).2
  abortOnce := by
    have := h.aborts
    omega
  aborted := h.reason
  refs := h.refs
  intact := ⟨h.opFault, h.blockFault⟩

/-- **An operation is completed once and torn down in order**, whatever the interleaving. -/
theorem operation_sound (l : List Event) (h : Runs.Along step Calm {} l) : Sound (Runs.run step {} l) :=
  (Runs.along_induction (fun _ _ => step_inv) l _ init_inv h).sound

/-- A stop while the initiation runs: its aborter is called as it returns, and the late terminal drops. -/
def stopWhileInitiating : List Event :=
  [.begin, .register, .hoist, .launch, .requestStop, .onStop, .stopDeliver, .initiated true, .tail,
    .tailRelease, .tailAbort,
    .fire, .fireRelease, .destroy, .destroyRelease, .destroyEnd]

theorem operation_sound_stop :
    Sound (Runs.run step {} stopWhileInitiating) ∧ (Runs.run step {} stopWhileInitiating).completions = 1 ∧
      (Runs.run step {} stopWhileInitiating).aborts = 1 ∧ (Runs.run step {} stopWhileInitiating).refs = 0 :=
  ⟨operation_sound stopWhileInitiating (by decide), by decide, by decide, by decide⟩

/-- **A destruction completes nothing**, and an inline terminal leaves the aborter to be called behind it.
-/
theorem destroyed_or_inline :
    ¬ (∀ l : List Event, (Runs.run step {} l).phase = .gone → (Runs.run step {} l).start = .ended →
        (Runs.run step {} l).completions = 1) ∧
      ¬ (∀ l : List Event, 0 < (Runs.run step {} l).aborts → (Runs.run step {} l).terminal = .idle) := by
  refine ⟨fun h => ?_, fun h => ?_⟩
  · exact absurd (h [.begin, .register, .hoist, .launch, .initiated true, .tail, .tailRelease,
      .tailAbort, .destroy,
      .destroyRelease, .destroyEnd] (by decide) (by decide)) (by decide)
  · exact absurd (h [.begin, .register, .hoist, .launch, .fire, .deliver, .fireRelease, .initiated true,
      .tail, .tailRelease,
      .tailAbort] (by decide)) (by decide)

end ClashNative.CallbackSender
