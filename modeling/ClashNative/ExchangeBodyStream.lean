import ClashNative.Runs
import ClashNative.Segments
import ClashNative.Tally
/-!
# ExchangeBodyStream — a body's bytes from the session to its readers

`QueuedExchangeBodyStream` of `io/exchange_body_stream.hpp` with its reads, which are `CallbackSender`
operations.  A step is one task of the stream's executor, one call of its session, or one request of a
reader.  What a task posts is queued: the handlers of reads in `posted`, the tasks of `cancel_read` in
`cancelReads`, those of `cancel` in `cancels`.
-/
namespace ClashNative.ExchangeBody

open Wire List

abbrev Bytes := List UInt8

inductive BodyEnd
  | eof
  | aborted
  | failed
  deriving DecidableEq, Repr

inductive ReadResult
  | bytes (data : Bytes)
  | ended (e : BodyEnd)
  | alreadyStarted
  deriving DecidableEq, Repr

inductive Settled
  | result (r : ReadResult)
  | stopped
  deriving DecidableEq, Repr

/-- One `async_read_some`, for a buffer of `room` bytes. -/
structure ReadOp where
  room : Nat
  dispatched : Bool := false
  settled : Option Settled := none
  deriving DecidableEq, Repr

/-- **The stream with its reads.**  `chunks` is what is left of the queued ones, `reading` the read whose
handler is parked.  `received`, `returned` and `discarded` are the bytes that the session was told were
taken, that completed reads returned, and that were cleared; `credited` is what `on_consume` was called
with in total. -/
structure State where
  capacity : Nat
  chunks : Segments UInt8 := ⟨[], nofun⟩
  ending : Option BodyEnd := none
  reading : Option Nat := none
  drainedSignalled : Bool := false
  cancelled : Bool := false
  reads : List ReadOp := []
  posted : List (Nat × ReadResult) := []
  cancelReads : List Nat := []
  cancels : Nat := 0
  received : Bytes := []
  returned : Bytes := []
  discarded : Bytes := []
  credited : Nat := 0
  drainedPosts : Nat := 0

namespace State

def postRead (s : State) (i : Nat) (r : ReadResult) : State := { s with posted := s.posted ++ [(i, r)] }

def signalDrained (s : State) : State :=
  if s.drainedSignalled then s else { s with drainedSignalled := true, drainedPosts := s.drainedPosts + 1 }

def finishRead (s : State) (i : Nat) : State :=
  let error := s.ending.getD .eof
  let s := s.postRead i (.ended error)
  if error = .eof then s.signalDrained else s

/-- `deliver`, to the read `i` with room for `room` bytes. -/
def deliver (s : State) (i room : Nat) : State :=
  match s.chunks.readSome room with
  | none => s.finishRead i
  | some (data, chunks) =>
    let s := { s with chunks, credited := s.credited + data.length }.postRead i (.bytes data)
    if s.chunks.pieces = [] ∧ s.ending.isSome then s.signalDrained else s

def roomOf (s : State) (i : Nat) : Nat := ((s.reads[i]?).map ReadOp.room).getD 0

def readSome (s : State) (i room : Nat) : State :=
  if room = 0 then s.postRead i (.bytes [])
  else if s.reading.isSome then s.postRead i .alreadyStarted
  else if s.chunks.pieces ≠ [] then s.deliver i room
  else if s.ending.isSome then s.finishRead i
  else { s with reading := some i }

/-- `receive`, which tells the session whether the bytes were taken. -/
def receive (s : State) (data : Bytes) : Bool × State :=
  if s.ending.isSome ∨ s.capacity - min s.chunks.bytes.length s.capacity < data.length then (false, s)
  else if data = [] then (true, s)
  else
    let s := { s with chunks := s.chunks.snoc data, received := s.received ++ data }
    match s.reading with
    | none => (true, s)
    | some i => (true, { s with reading := none }.deliver i (s.roomOf i))

def finish (s : State) : State :=
  if s.ending.isSome then s
  else
    let s := { s with ending := some .eof }
    match s.reading with
    | none => s
    | some i => if s.chunks.pieces = [] then { s with reading := none }.finishRead i else s

def clear (s : State) (e : BodyEnd) : State :=
  { s with ending := some e, chunks := .empty, discarded := s.discarded ++ s.chunks.bytes }

def retire (s : State) (e : BodyEnd) : State :=
  match s.reading with
  | none => s
  | some i => { s with reading := none }.postRead i (.ended e)

def fail (s : State) : State := if s.ending.isSome then s else (s.clear .failed).retire .failed

/-- The posted task of `cancel`; `on_cancel` is the session's. -/
def runCancel (s : State) : State :=
  if s.cancels = 0 then s
  else
    let s := { s with cancels := s.cancels - 1 }
    if s.drainedSignalled || s.cancelled then s else
      ({ s with cancelled := true }.clear .aborted).retire .aborted

def runCancelRead (s : State) : State :=
  match s.cancelReads with
  | [] => s
  | _ :: rest => { s with cancelReads := rest }.retire .aborted

def dispatch (s : State) (i : Nat) : State :=
  match s.reads[i]? with
  | none => s
  | some op => if op.dispatched then s else
    { s with reads := s.reads.set i { op with dispatched := true } }.readSome i op.room

/-- A stop request of a read that has not completed: it is stopped at once, and its aborter posts
`cancel_read`. -/
def stop (s : State) (i : Nat) : State :=
  match s.reads[i]? with
  | none => s
  | some op =>
    if op.settled.isSome then s
    else { s with reads := s.reads.set i {
      op with settled := some .stopped }, cancelReads := s.cancelReads ++ [i] }

end State

def ReadResult.data : ReadResult → Bytes
  | bytes data => data
  | _ => []

def postedBytes (posted : List (Nat × ReadResult)) : Bytes := posted.flatMap fun p => p.2.data

/-- A posted handler runs: it completes its read, unless that was stopped; what it carries is dropped
then. -/
def State.runPosted (s : State) : State :=
  match s.posted with
  | [] => s
  | (i, r) :: rest =>
    let s := { s with posted := rest }
    match s.reads[i]? with
    | none => s
    | some op =>
      if op.settled.isSome then s
      else { s with reads := s.reads.set i {
        op with settled := some (.result r) }, returned := s.returned ++ r.data }

inductive Event
  | receive (data : Bytes)
  | finish
  | fail
  | newRead (room : Nat)
  | dispatch (i : Nat)
  | stop (i : Nat)
  | cancel
  | runPosted
  | runCancelRead
  | runCancel
  deriving DecidableEq, Repr

def step (s : State) : Event → State
  | .receive data => (s.receive data).2
  | .finish => s.finish
  | .fail => s.fail
  | .newRead room => { s with reads := s.reads ++ [{ room }] }
  | .dispatch i => s.dispatch i
  | .stop i => s.stop i
  | .cancel => { s with cancels := s.cancels + 1 }
  | .runPosted => s.runPosted
  | .runCancelRead => s.runCancelRead
  | .runCancel => s.runCancel

/-- **A stop that is not overtaken**: it finds its read parked, and until its `cancel_read` has run the
session delivers nothing and no other read is started. -/
def Calm (s : State) : Event → Prop
  | .stop i => ∀ op ∈ s.reads[i]?, op.settled = none → s.reading = some i
  | .receive _ | .dispatch _ => s.cancelReads = []
  | _ => True

instance (s : State) : (e : Event) → Decidable (Calm s e)
  | .stop i => inferInstanceAs (Decidable (∀ op ∈ s.reads[i]?, op.settled = none → s.reading = some i))
  | .receive _ | .dispatch _ => inferInstanceAs (Decidable (s.cancelReads = []))
  | .finish | .fail | .newRead _ | .cancel | .runPosted | .runCancelRead | .runCancel => .isTrue trivial

/-! ### The invariant -/

def Stopped (s : State) (i : Nat) : Prop := ∃ op, s.reads[i]? = some op ∧ op.settled = some .stopped

/-- A read whose handler is parked or posted: it was dispatched and has not completed, or it was stopped.
-/
def Waits (s : State) (i : Nat) (retired : Prop) : Prop :=
  ∃ op, s.reads[i]? = some op ∧ op.dispatched = true ∧
  (op.settled = none ∨ (op.settled = some .stopped ∧ retired))

structure Inv (s : State) : Prop where
  flow : s.returned ++ postedBytes s.posted ++ s.discarded ++ s.chunks.bytes = s.received
  kept : s.ending = none ∨ s.ending = some .eof → s.discarded = []
  cleared : ∀ e, s.ending = some e → e ≠ .eof → s.chunks.pieces = []
  credit : s.credited = s.returned.length + (postedBytes s.posted).length
  posted : ∀ p ∈ s.posted, Waits s p.1 (p.2.data = [])
  nodup : (s.posted.map Prod.fst).Nodup
  parked : ∀ i, s.reading = some i →
    Waits s i (s.cancelReads = [i]) ∧ i ∉ s.posted.map Prod.fst ∧ s.chunks.pieces = [] ∧ s.ending = none
  cancelReads : s.cancelReads = [] ∨
    ∃ i, s.cancelReads = [i] ∧ Stopped s i ∧ (s.reading = some i ∨ (s.reading = none ∧ s.ending.isSome))
  fresh : ∀ op ∈ s.reads, op.dispatched = false → op.settled = none
  drainedOnce : s.drainedPosts = if s.drainedSignalled then 1 else 0
  drained : s.drainedSignalled = true → s.ending = some .eof ∧ s.chunks.pieces = []
  postedEnd : ∀ p ∈ s.posted, p.2 = .ended .eof → s.drainedSignalled = true
  toldEnd : ∀ op ∈ s.reads, op.settled = some (.result (.ended .eof)) → s.drainedSignalled = true
  aborted : s.ending = some .aborted → s.cancelled = true
  postedAborted : ∀ p ∈ s.posted, p.2 = .ended .aborted → s.cancelled = true ∨ Stopped s p.1
  toldAborted : ∀ op ∈ s.reads, op.settled = some (.result (.ended .aborted)) → s.cancelled = true

theorem init_inv (capacity : Nat) : Inv { capacity } where
  flow := rfl
  kept _ := rfl
  cleared := nofun
  credit := rfl
  posted _ hp := absurd hp not_mem_nil
  nodup := nodup_nil
  parked := nofun
  cancelReads := .inl rfl
  fresh _ hop := absurd hop not_mem_nil
  drainedOnce := rfl
  drained := nofun
  postedEnd _ hp := absurd hp not_mem_nil
  toldEnd _ hop := absurd hop not_mem_nil
  aborted := nofun
  postedAborted _ hp := absurd hp not_mem_nil
  toldAborted _ hop := absurd hop not_mem_nil

variable {s : State}

theorem postedBytes_concat (posted : List (Nat × ReadResult)) (i : Nat) (r : ReadResult) :
    postedBytes (posted ++ [(i, r)]) = postedBytes posted ++ r.data := by
  simp [postedBytes]

theorem Inv.discarded_or_bytes (h : Inv s) : s.discarded = [] ∨ s.chunks.bytes = [] := by
  obtain he | ⟨e, he⟩ := Option.eq_none_or_eq_some s.ending
  · exact .inl (h.kept (.inl he))
  · by_cases heof : e = .eof
    · exact .inl (h.kept (.inr (heof ▸ he)))
    · exact .inr ((Segments.pieces_eq_nil _).1 (h.cleared e he heof))

/-! ### The pieces of a step -/

variable {i : Nat}

theorem Inv.post (h : Inv s) {r : ReadResult} (chunks : Segments UInt8) (hw : Waits s i (r.data = []))
    (hi : i ∉ s.posted.map Prod.fst) (hread : ∀ j, s.reading = some j → j ≠ i)
    (hbytes : s.chunks.bytes = r.data ++ chunks.bytes) (hend : r = .ended .eof → s.drainedSignalled = true)
    (habort : r = .ended .aborted → s.cancelled = true ∨ Stopped s i) :
    Inv ({ s with chunks, credited := s.credited + r.data.length }.postRead i r) where
  flow := by
    have hf := h.flow
    simp only [State.postRead, postedBytes_concat, append_assoc] at hf ⊢
    rcases h.discarded_or_bytes with hnil | hnil
    · rw [hnil, hbytes] at hf
      rw [hnil]
      exact hf
    · obtain ⟨hdata, hrest⟩ := append_eq_nil_iff.1 (hbytes ▸ hnil)
      rw [hnil] at hf
      rw [hdata, hrest]
      exact hf
  kept := h.kept
  cleared e he hne := by
    have hp := h.cleared e he hne
    rw [Segments.pieces_eq_nil, hbytes, append_eq_nil_iff] at hp
    exact (Segments.pieces_eq_nil _).2 hp.2
  credit := by
    simp only [State.postRead, postedBytes_concat, length_append, h.credit, Nat.add_assoc]
  posted p hp := by
    rcases mem_append.1 hp with hp | hp
    · exact h.posted p hp
    · rw [mem_singleton] at hp
      subst hp
      exact hw
  nodup := by
    rw [State.postRead, map_append]
    refine nodup_append.2 ⟨h.nodup, nodup_singleton i, fun a ha b hb hab => ?_⟩
    rw [map_cons, map_nil, mem_singleton] at hb
    have hai : a = i := hab.trans hb
    exact hi (hai ▸ ha)
  parked j hj := by
    obtain ⟨hwj, hjp, hp, he⟩ := h.parked j hj
    rw [Segments.pieces_eq_nil, hbytes, append_eq_nil_iff] at hp
    refine ⟨hwj, fun hmem => ?_, (Segments.pieces_eq_nil _).2 hp.2, he⟩
    rw [State.postRead, map_append, mem_append, map_cons, map_nil, mem_singleton] at hmem
    exact hmem.elim hjp (hread j hj)
  cancelReads := h.cancelReads
  fresh := h.fresh
  drainedOnce := h.drainedOnce
  drained hd := by
    obtain ⟨he, hp⟩ := h.drained hd
    rw [Segments.pieces_eq_nil, hbytes, append_eq_nil_iff] at hp
    exact ⟨he, (Segments.pieces_eq_nil _).2 hp.2⟩
  postedEnd p hp hr := by
    rcases mem_append.1 hp with hp | hp
    · exact h.postedEnd p hp hr
    · rw [mem_singleton] at hp
      subst hp
      exact hend hr
  toldEnd := h.toldEnd
  aborted := h.aborted
  postedAborted p hp hr := by
    rcases mem_append.1 hp with hp | hp
    · exact h.postedAborted p hp hr
    · rw [mem_singleton] at hp
      subst hp
      exact habort hr
  toldAborted := h.toldAborted

theorem Inv.signalDrained (h : Inv s) (he : s.ending = some .eof)
    (hp : s.chunks.pieces = []) : Inv s.signalDrained := by
  unfold State.signalDrained
  split
  · exact h
  · rename_i hd
    have hposts := h.drainedOnce
    rw [if_neg hd] at hposts
    exact { h with
      drainedOnce := congrArg (· + 1) hposts
      drained := fun _ => ⟨he, hp⟩
      postedEnd := fun _ _ _ => rfl
      toldEnd := fun _ _ _ => rfl }

theorem signalDrained_postRead (s : State) (i : Nat) (r : ReadResult) :
    (s.postRead i r).signalDrained = s.signalDrained.postRead i r := by
  unfold State.signalDrained
  split
  · rename_i hd
    exact (if_pos hd).symm ▸ rfl
  · rename_i hd
    exact (if_neg hd).symm ▸ rfl

theorem signalDrained_signalled (s : State) : s.signalDrained.drainedSignalled = true := by
  unfold State.signalDrained
  split
  · assumption
  · rfl

theorem Inv.finishRead (h : Inv s) (hw : Waits s i True) (hi : i ∉ s.posted.map Prod.fst)
    (hread : s.reading = none) (he : s.ending.isSome) (hp : s.chunks.pieces = []) : Inv (s.finishRead i) := by
  obtain ⟨e, he⟩ := Option.isSome_iff_exists.1 he
  unfold State.finishRead
  dsimp only
  rw [he, Option.getD_some]
  obtain ⟨op, hop, hd, hs⟩ := hw
  have hwait : op.settled = none ∨ (op.settled = some .stopped ∧ (ReadResult.ended e).data = []) :=
    hs.imp_right fun hs => ⟨hs.1, rfl⟩
  split
  · rename_i hee
    subst hee
    rw [signalDrained_postRead]
    have h' := h.signalDrained he hp
    have hkeep : s.signalDrained.reads = s.reads ∧ s.signalDrained.posted = s.posted ∧
        s.signalDrained.reading = s.reading := by
      unfold State.signalDrained
      split <;> exact ⟨rfl, rfl, rfl⟩
    refine h'.post s.signalDrained.chunks ⟨op, hkeep.1 ▸ hop, hd, hwait⟩ (hkeep.2.1 ▸ hi) (fun j hj => ?_) rfl
      (fun _ => signalDrained_signalled s) nofun
    rw [hkeep.2.2, hread] at hj
    cases hj
  · rename_i hee
    refine h.post s.chunks ⟨op, hop, hd, hwait⟩ hi (fun j hj => ?_) rfl
      (fun hr => absurd (ReadResult.ended.inj hr) hee) fun hr => .inl (h.aborted (ReadResult.ended.inj hr ▸ he))
    rw [hread] at hj
    cases hj

theorem Inv.deliver (h : Inv s) {room : Nat} (hw : Waits s i False) (hi : i ∉ s.posted.map Prod.fst)
    (hread : s.reading = none) (hp : s.chunks.pieces ≠ []) : Inv (s.deliver i room) := by
  obtain ⟨op, hop, hd, hs⟩ := hw
  have hs : op.settled = none := hs.resolve_right fun hs => hs.2
  unfold State.deliver
  cases hr : s.chunks.readSome room with
  | none => exact absurd ((Segments.pieces_eq_nil _).2 (Segments.readSome_eq_none hr)) hp
  | some taken =>
    obtain ⟨data, chunks⟩ := taken
    have h' : Inv ({ s with chunks, credited := s.credited + data.length }.postRead i (.bytes data)) := by
      refine h.post (r := .bytes data) chunks ⟨op, hop, hd, .inl hs⟩ hi (fun j hj => ?_)
        (Segments.readSome_bytes _ _ _ _ hr) nofun nofun
      rw [hread] at hj
      cases hj
    dsimp only
    split
    · rename_i hdone
      -- only a finished stream has both an end and bytes left
      obtain ⟨e, he⟩ := Option.isSome_iff_exists.1 hdone.2
      have heof : e = .eof := by
        by_contra hne
        exact hp (h.cleared e he hne)
      exact h'.signalDrained (heof ▸ he) hdone.1
    · exact h'

variable {e : BodyEnd}

theorem Inv.close (h : Inv s) (he : e ≠ .eof) (hd : s.drainedSignalled = false)
    (habort : e = .aborted → s.cancelled = true) : Inv ({ s with reading := none }.clear e) where
  flow := by
    have hf := h.flow
    simp only [State.clear, append_assoc] at hf ⊢
    simpa [Segments.bytes] using hf
  kept hk := absurd hk (by simp [State.clear, he])
  cleared _ _ _ := rfl
  credit := h.credit
  posted := h.posted
  nodup := h.nodup
  parked := nofun
  cancelReads := by
    rcases h.cancelReads with hc | ⟨i, hc, hs, _⟩
    · exact .inl hc
    · exact .inr ⟨i, hc, hs, .inr ⟨rfl, rfl⟩⟩
  fresh := h.fresh
  drainedOnce := h.drainedOnce
  drained hd' := by
    rw [State.clear, hd] at hd'; cases hd'
  postedEnd := h.postedEnd
  toldEnd := h.toldEnd
  aborted ha := habort (Option.some.inj ha)
  postedAborted := h.postedAborted
  toldAborted := h.toldAborted

theorem clear_retire_none (h : s.reading = none) :
    (s.clear e).retire e = { s with reading := none }.clear e := by
  obtain ⟨_, _, _, reading, _, _, _, _, _, _, _, _, _, _, _⟩ := s
  subst h
  rfl

theorem clear_retire_some (h : s.reading = some i) :
    (s.clear e).retire e = ({ s with reading := none }.clear e).postRead i (.ended e) := by
  obtain ⟨_, _, _, reading, _, _, _, _, _, _, _, _, _, _, _⟩ := s
  subst h
  rfl

theorem Inv.clear_retire (h : Inv s) (he : e ≠ .eof) (hd : s.drainedSignalled = false)
    (habort : e = .aborted → s.cancelled = true) : Inv ((s.clear e).retire e) := by
  have hclose := h.close he hd habort
  obtain hr | ⟨i, hr⟩ := Option.eq_none_or_eq_some s.reading
  · rw [clear_retire_none hr]
    exact hclose
  · rw [clear_retire_some hr]
    obtain ⟨⟨op, hop, hdisp, hs⟩, hi, _, _⟩ := h.parked i hr
    exact hclose.post (r := .ended e) .empty
      ⟨op, hop, hdisp, hs.imp_right fun hs => ⟨hs.1, rfl⟩⟩ hi nofun rfl
      (fun heof => absurd (ReadResult.ended.inj heof) he) fun ha => .inl (habort (ReadResult.ended.inj ha))

/-! ### The session -/

theorem Inv.fail (h : Inv s) : Inv s.fail := by
  unfold State.fail
  split
  · exact h
  · rename_i he
    refine h.clear_retire nofun (Bool.eq_false_iff.2 fun hd => he ?_) nofun
    rw [(h.drained hd).1]
    rfl

theorem Inv.runCancel (h : Inv s) : Inv s.runCancel := by
  unfold State.runCancel
  dsimp only
  split
  · exact h
  · split
    · exact { h with }
    · rename_i hc
      rw [Bool.or_eq_true, not_or] at hc
      have h' : Inv { s with cancels := s.cancels - 1, cancelled := true } := { h with
        aborted := fun _ => rfl
        postedAborted := fun _ _ _ => .inl rfl
        toldAborted := fun _ _ _ => rfl }
      exact h'.clear_retire nofun (Bool.eq_false_iff.2 hc.1) fun _ => rfl

theorem Inv.finish (h : Inv s) : Inv s.finish := by
  unfold State.finish
  split
  · exact h
  · rename_i he
    have he : s.ending = none := Option.not_isSome_iff_eq_none.1 he
    have hd : s.drainedSignalled ≠ true := fun hd => nomatch he.symm.trans (h.drained hd).1
    -- the parked read, if there is one, is told at once
    have h' : Inv { s with ending := some .eof, reading := none } := { h with
      kept := fun _ => h.kept (.inl he)
      cleared := fun e hee hne => absurd (Option.some.inj hee).symm hne
      parked := nofun
      cancelReads := h.cancelReads.imp_right fun ⟨i, hc, hs, _⟩ => ⟨i, hc, hs, .inr ⟨rfl, rfl⟩⟩
      drained := fun hd' => absurd hd' hd
      aborted := nofun }
    obtain hr | ⟨i, hr⟩ := Option.eq_none_or_eq_some s.reading
    · simp only [hr]
      exact h'
    · obtain ⟨⟨op, hop, hdisp, hs⟩, hi, hp, _⟩ := h.parked i hr
      simp only [hr, hp, if_true]
      exact h'.finishRead ⟨op, hop, hdisp, hs.imp_right fun hs => ⟨hs.1, trivial⟩⟩ hi rfl rfl hp

theorem Inv.receive (h : Inv s) (hc : s.cancelReads = []) (data : Bytes) : Inv (s.receive data).2 := by
  unfold State.receive
  split
  · exact h
  · rename_i hcond
    have he : s.ending = none := Option.not_isSome_iff_eq_none.1 fun he => hcond (.inl he)
    split
    · exact h
    · rename_i hdata
      have hd : s.drainedSignalled ≠ true := fun hd => nomatch he.symm.trans (h.drained hd).1
      have h' : Inv { s with chunks := s.chunks.snoc data, received := s.received ++ data, reading :=
        none } := { h with
        flow := by
          rw [Segments.snoc_bytes, ← append_assoc, h.flow]
        cleared := fun e hee => nomatch he.symm.trans hee
        parked := nofun
        cancelReads := .inl hc
        drained := fun hd' => absurd hd' hd }
      obtain hr | ⟨i, hr⟩ := Option.eq_none_or_eq_some s.reading
      · simp only [hr]
        exact h'
      · obtain ⟨⟨op, hop, hdisp, hs⟩, hi, _, _⟩ := h.parked i hr
        simp only [hr]
        refine h'.deliver ⟨op, hop, hdisp, hs.imp_right fun hs => ⟨hs.1, ?_⟩⟩ hi rfl fun hp => hdata ?_
        · exact cons_ne_nil i [] (hs.2.symm.trans hc)
        · rw [Segments.pieces_eq_nil, Segments.snoc_bytes] at hp
          exact (append_eq_nil_iff.1 hp).2

theorem signalDrained_received (s : State) : s.signalDrained.received = s.received := by
  unfold State.signalDrained
  split <;> rfl

theorem deliver_received (s : State) (i room : Nat) : (s.deliver i room).received = s.received := by
  unfold State.deliver State.finishRead
  dsimp only
  split
  · split
    · exact signalDrained_received _
    · rfl
  · split
    · exact signalDrained_received _
    · rfl

theorem receive_received (s : State) (data : Bytes) :
    (s.receive data).2.received = s.received ++ if (s.receive data).1 then data else [] := by
  unfold State.receive
  split
  · exact (append_nil _).symm
  · split
    · rename_i hdata
      rw [hdata]
      exact (append_nil _).symm
    · cases s.reading with
      | none => rfl
      | some i => exact deliver_received _ _ _

/-! ### The readers -/

variable {op : ReadOp}

theorem Inv.readSome (h : Inv s) (hop : s.reads[i]? = some op) (hd : op.dispatched = true)
    (hs : op.settled = none) (hi : i ∉ s.posted.map Prod.fst) (hread : ∀ j, s.reading = some j → j ≠
      i) (room : Nat)
    (hc : s.cancelReads = []) : Inv (s.readSome i room) := by
  unfold State.readSome
  split
  · exact h.post (r := .bytes []) s.chunks ⟨op, hop, hd, .inl hs⟩ hi hread rfl nofun nofun
  · split
    · exact h.post (r := .alreadyStarted) s.chunks ⟨op, hop, hd, .inl hs⟩ hi hread rfl nofun nofun
    · rename_i hr
      have hr : s.reading = none := Option.not_isSome_iff_eq_none.1 hr
      split
      · rename_i hp
        exact h.deliver ⟨op, hop, hd, .inl hs⟩ hi hr hp
      · rename_i hp
        have hp : s.chunks.pieces = [] := not_not.1 hp
        split
        · rename_i he
          exact h.finishRead ⟨op, hop, hd, .inl hs⟩ hi hr he hp
        · rename_i he
          exact { h with
            parked := fun j hj => by
              cases hj
              exact ⟨⟨op, hop, hd, .inl hs⟩, hi, hp, Option.not_isSome_iff_eq_none.1 he⟩
            cancelReads := .inl hc }

/-! ### One read is rewritten -/

variable {op' : ReadOp} {j : Nat}

theorem Waits.set {P : Prop} (hw : Waits s j P) (h : j ≠ i) :
    Waits { s with reads := s.reads.set i op' } j P := by
  obtain ⟨op, hop, hw⟩ := hw
  exact ⟨op, (getElem?_set_ne (Ne.symm h)).trans hop, hw⟩

theorem Stopped.set (hs : Stopped s j) (h : j ≠ i) :
    Stopped { s with reads := s.reads.set i op' } j := by
  obtain ⟨op, hop, hs⟩ := hs
  exact ⟨op, (getElem?_set_ne (Ne.symm h)).trans hop, hs⟩

theorem Stopped.ne (hs : Stopped s j) (hop : s.reads[i]? = some op) (hop' : op.settled = none) :
    j ≠ i := by
  rintro rfl
  obtain ⟨op', hj, hst⟩ := hs
  rw [hop] at hj
  cases hj
  rw [hop'] at hst
  cases hst

theorem forall_mem_set {reads : List ReadOp} {P : ReadOp → Prop} (h : ∀ op ∈ reads, P op)
    (h' : P op') : ∀ op ∈ reads.set i op', P op := by
  intro op hop
  rcases mem_or_eq_of_mem_set hop with hop | rfl
  · exact h op hop
  · exact h'

theorem Inv.dispatch (h : Inv s) (hc : s.cancelReads = []) (i : Nat) : Inv (s.dispatch i) := by
  unfold State.dispatch
  split
  · exact h
  · rename_i op hop
    split
    · exact h
    · rename_i hd
      have hd : op.dispatched = false := Bool.eq_false_iff.2 hd
      have hlt : i < s.reads.length := (List.getElem?_eq_some_iff.1 hop).1
      have hs : op.settled = none := h.fresh op (mem_of_getElem? hop) hd
      -- a read that was not dispatched is neither parked nor posted
      have hne : ∀ {j P}, Waits s j P → j ≠ i := by
        rintro j P ⟨op', hop', hd', _⟩ rfl
        rw [hop] at hop'
        cases hop'
        rw [hd] at hd'
        cases hd'
      have h' : Inv { s with reads := s.reads.set i { op with dispatched := true } } := { h with
        posted := fun p hp => (h.posted p hp).set (hne (h.posted p hp))
        parked := fun j hj => ⟨(h.parked j hj).1.set (hne (h.parked j hj).1), (h.parked j hj).2⟩
        cancelReads := .inl hc
        fresh := forall_mem_set h.fresh nofun
        toldEnd := forall_mem_set h.toldEnd fun ht => nomatch hs.symm.trans ht
        postedAborted := fun p hp hr => (h.postedAborted p hp hr).imp_right fun hst => hst.set (hst.ne hop hs)
        toldAborted := forall_mem_set h.toldAborted fun ht => nomatch hs.symm.trans ht }
      refine h'.readSome (getElem?_set_self hlt) rfl hs (fun hi => ?_)
        (fun j hj => hne (h.parked j hj).1) op.room hc
      obtain ⟨p, hp, hpi⟩ := mem_map.1 hi
      exact hne (h.posted p hp) hpi

theorem Inv.stop (h : Inv s) (hcalm : Calm s (.stop i)) : Inv (s.stop i) := by
  unfold State.stop
  split
  · exact h
  · rename_i op hop
    split
    · exact h
    · rename_i hs
      have hs : op.settled = none := Option.not_isSome_iff_eq_none.1 hs
      have hr : s.reading = some i := hcalm op hop hs
      have hlt : i < s.reads.length := (List.getElem?_eq_some_iff.1 hop).1
      obtain ⟨⟨op', hop', hd, _⟩, hi, hp, he⟩ := h.parked i hr
      rw [hop] at hop'
      cases hop'
      have hc : s.cancelReads = [] := by
        rcases h.cancelReads with hc | ⟨j, _, hst, hj⟩
        · exact hc
        · refine absurd ?_ (hst.ne hop hs)
          rcases hj with hj | ⟨hj, _⟩
          · exact Option.some.inj (hj.symm.trans hr)
          · cases hj.symm.trans hr
      have hset : (s.reads.set i { op with settled := some .stopped })[i]? =
        some { op with settled := some .stopped } :=
        getElem?_set_self hlt
      rw [hc]
      exact { h with
        posted := fun p hp => (h.posted p hp).set fun hpi => hi (hpi ▸ mem_map_of_mem hp)
        parked := fun j hj => by
          obtain rfl : i = j := Option.some.inj (hr.symm.trans hj)
          exact ⟨⟨_, hset, hd, .inr ⟨rfl, rfl⟩⟩, hi, hp, he⟩
        cancelReads := .inr ⟨i, rfl, ⟨_, hset, rfl⟩, .inl hr⟩
        fresh := forall_mem_set h.fresh fun hd' => nomatch hd.symm.trans hd'
        toldEnd := forall_mem_set h.toldEnd nofun
        postedAborted := fun p hp hr => (h.postedAborted p hp hr).imp_right fun hst => hst.set (hst.ne hop hs)
        toldAborted := forall_mem_set h.toldAborted nofun }

theorem Inv.runCancelRead (h : Inv s) : Inv s.runCancelRead := by
  unfold State.runCancelRead
  rcases h.cancelReads with hc | ⟨i, hc, hst, hr⟩
  · rw [hc]
    exact h
  · rw [hc]
    have h' : Inv { s with cancelReads := [], reading := none } := { h with
      parked := nofun
      cancelReads := .inl rfl }
    rcases hr with hr | ⟨hr, _⟩
    · obtain ⟨⟨op, hop, hd, _⟩, hi, _, _⟩ := h.parked i hr
      obtain ⟨op', hop', hs⟩ := hst
      rw [hop] at hop'
      cases hop'
      simp only [State.retire, hr]
      exact h'.post (r := .ended .aborted) s.chunks ⟨op, hop, hd,
        .inr ⟨hs, rfl⟩⟩ hi nofun rfl nofun fun _ => .inr ⟨op, hop, hs⟩
    · simp only [State.retire, hr]
      exact h'

theorem Inv.runPosted (h : Inv s) : Inv s.runPosted := by
  unfold State.runPosted
  cases hp : s.posted with
  | nil => exact h
  | cons p rest =>
    obtain ⟨i, r⟩ := p
    have hflow := h.flow
    have hcredit := h.credit
    have hnodup := h.nodup
    rw [hp] at hflow hcredit hnodup
    have hbytes : postedBytes ((i, r) :: rest) = r.data ++ postedBytes rest := rfl
    rw [hbytes] at hflow hcredit
    obtain ⟨hirest, hrest⟩ := nodup_cons.1 hnodup
    have hmem : ∀ {q}, q ∈ rest → q ∈ s.posted := fun hq => hp ▸ mem_cons_of_mem _ hq
    have hparked : ∀ j, s.reading = some j → j ≠ i ∧ j ∉ rest.map Prod.fst := by
      intro j hj
      have hjp := (h.parked j hj).2.1
      rw [hp, map_cons, mem_cons, not_or] at hjp
      exact hjp
    have hhead : (i, r) ∈ s.posted := hp ▸ mem_cons_self
    obtain ⟨op, hop, hd, hs⟩ := h.posted (i, r) hhead
    dsimp only
    split
    · rename_i hnone
      rw [hop] at hnone
      cases hnone
    · rename_i op' hop'
      rw [hop] at hop'
      cases hop'
      split
      · rename_i hsome
        have hdata : r.data = [] := by
          rcases hs with hs | ⟨_, hdata⟩
          · rw [hs] at hsome
            cases hsome
          · exact hdata
        rw [hdata, nil_append] at hflow hcredit
        exact { h with
          flow := hflow
          credit := hcredit
          posted := fun q hq => h.posted q (hmem hq)
          nodup := hrest
          parked := fun j hj => ⟨(h.parked j hj).1, (hparked j hj).2, (h.parked j hj).2.2⟩
          postedEnd := fun q hq => h.postedEnd q (hmem hq)
          postedAborted := fun q hq => h.postedAborted q (hmem hq) }
      · rename_i hnone
        have hnone : op.settled = none := Option.not_isSome_iff_eq_none.1 hnone
        have hne : ∀ q ∈ rest, q.1 ≠ i := fun q hq hqi =>
          hirest (mem_map.2 ⟨q, hq, hqi⟩)
        exact { h with
          flow := by
            rw [← hflow]
            simp only [append_assoc]
          credit := by
            rw [hcredit, length_append, length_append, Nat.add_assoc]
          posted := fun q hq => (h.posted q (hmem hq)).set (hne q hq)
          nodup := hrest
          parked := fun j hj => ⟨(h.parked j hj).1.set (hparked j hj).1, (hparked j hj).2, (h.parked j hj).2.2⟩
          cancelReads := h.cancelReads.imp_right fun ⟨j, hc, hst, hr⟩ => ⟨j, hc, hst.set (hst.ne hop hnone), hr⟩
          fresh := forall_mem_set h.fresh fun hd' => nomatch hd.symm.trans hd'
          postedEnd := fun q hq => h.postedEnd q (hmem hq)
          toldEnd := forall_mem_set h.toldEnd fun ht =>
            h.postedEnd (i, r) hhead (Settled.result.inj (Option.some.inj ht))
          postedAborted := fun q hq hr => (h.postedAborted q (hmem hq) hr).imp_right fun hst =>
            hst.set (hst.ne hop hnone)
          toldAborted := forall_mem_set h.toldAborted fun ht =>
            (h.postedAborted (i, r) hhead (Settled.result.inj (Option.some.inj ht))).resolve_right fun hst =>
              hst.ne hop hnone rfl }

theorem Inv.newRead (h : Inv s) (op : ReadOp) (hs : op.settled = none)
    : Inv { s with reads := s.reads ++ [op] } := by
  have hget : ∀ {j : Nat} {op' : ReadOp}, s.reads[j]? = some op' → (s.reads ++ [op])[j]? = some op' := fun hop =>
    (getElem?_append_left (List.getElem?_eq_some_iff.1 hop).1).trans hop
  have hmem : ∀ {P : ReadOp → Prop}, (∀ op' ∈ s.reads, P op') → P op → ∀ op' ∈ s.reads ++ [op], P op' := by
    intro P hall hnew op' hop
    rcases mem_append.1 hop with hop | hop
    · exact hall op' hop
    · exact mem_singleton.1 hop ▸ hnew
  have hwaits : ∀ {j : Nat} {P : Prop}, Waits s j P → Waits { s with reads := s.reads ++ [op] } j P :=
    fun ⟨op', hop, hw⟩ => ⟨op', hget hop, hw⟩
  have hstopped : ∀ {j : Nat}, Stopped s j → Stopped { s with reads := s.reads ++ [op] } j :=
    fun ⟨op', hop, hs⟩ => ⟨op', hget hop, hs⟩
  exact { h with
    posted := fun p hp => hwaits (h.posted p hp)
    parked := fun j hj => ⟨hwaits (h.parked j hj).1, (h.parked j hj).2⟩
    cancelReads := h.cancelReads.imp_right fun ⟨j, hc, hst, hr⟩ => ⟨j, hc, hstopped hst, hr⟩
    fresh := hmem h.fresh fun _ => hs
    toldEnd := hmem h.toldEnd fun ht => nomatch hs.symm.trans ht
    postedAborted := fun p hp hr => (h.postedAborted p hp hr).imp_right hstopped
    toldAborted := hmem h.toldAborted fun ht => nomatch hs.symm.trans ht }

/-! ### Runs -/

theorem step_inv {e : Event} (h : Inv s) (hcalm : Calm s e) : Inv (step s e) := by
  cases e with
  | receive data => exact h.receive hcalm data
  | finish => exact h.finish
  | fail => exact h.fail
  | newRead room => exact h.newRead { room := room } rfl
  | dispatch i => exact h.dispatch hcalm i
  | stop i => exact h.stop hcalm
  | cancel => exact { h with }
  | runPosted => exact h.runPosted
  | runCancelRead => exact h.runCancelRead
  | runCancel => exact h.runCancel

/-- **What holds of the stream.**  `told`: the received bytes are those that the session was told were
taken.  `inOrder`: what completed reads returned, what is on its way to its reads, what was cleared and
what is queued are the received bytes, in this order; nothing is lost with a stopped read.  `credit`: the
credit is for the bytes taken by readers, and no other. `accepted`: a read that is parked behind no stop
has not completed, and only a cancelled stream aborts a read.  `drained`: the end is signalled at most
once, on a stream that is finished with nothing left, and whenever a read was told the end. -/
structure Sound (s : State) : Prop where
  told : ∀ data, (s.receive data).2.received = s.received ++ if (s.receive data).1 then data else []
  inOrder : s.returned ++ postedBytes s.posted ++ s.discarded ++ s.chunks.bytes = s.received
  credit : s.credited = s.returned.length + (postedBytes s.posted).length
  accepted : ∀ i, s.cancelReads = [] → s.reading = some i → ∃ op, s.reads[i]? = some op ∧ op.settled = none
  aborted : ∀ op ∈ s.reads, op.settled = some (.result (.ended .aborted)) → s.cancelled = true
  drainedOnce : s.drainedPosts ≤ 1
  drained : s.drainedPosts ≠ 0 → s.ending = some .eof ∧ s.chunks.bytes = []
  toldEnd : ∀ op ∈ s.reads, op.settled = some (.result (.ended .eof)) → s.drainedPosts = 1

theorem Inv.sound (h : Inv s) : Sound s where
  told := receive_received s
  inOrder := h.flow
  credit := h.credit
  accepted i hc hr := by
    obtain ⟨⟨op, hop, _, hs⟩, _⟩ := h.parked i hr
    refine ⟨op, hop, hs.resolve_right fun hs => ?_⟩
    exact cons_ne_nil i [] (hs.2.symm.trans hc)
  aborted := h.toldAborted
  drainedOnce := by
    rw [h.drainedOnce]
    split <;> decide
  drained hd := by
    have hd : s.drainedSignalled = true := by
      by_contra hnot
      exact hd (h.drainedOnce.trans (if_neg hnot))
    exact ⟨(h.drained hd).1, (Segments.pieces_eq_nil _).1 (h.drained hd).2⟩
  toldEnd op hop ht := h.drainedOnce.trans (if_pos (h.toldEnd op hop ht))

/-- **Bodies reach their readers**: in every run whose stops are not overtaken. -/
theorem body_stream_sound (capacity : Nat) (l : List Event) (h : Runs.Along step Calm { capacity } l) :
    Sound (Runs.run step { capacity } l) :=
  (Runs.along_induction (fun _ _ => step_inv) l _ (init_inv capacity) h).sound

/-- A read is stopped; the next one gets the bytes, and the one behind it the end. -/
def stoppedRead : List Event :=
  [.newRead 2, .dispatch 0, .stop 0, .runCancelRead, .receive [1, 2, 3], .runPosted, .newRead 4,
    .dispatch 1, .runPosted,
    .finish, .newRead 4, .dispatch 2, .runPosted]

theorem body_stream_sound_stopped :
    Sound (Runs.run step { capacity := 8 } stoppedRead) ∧
      (Runs.run step { capacity := 8 } stoppedRead).returned = [1, 2, 3] :=
  ⟨body_stream_sound 8 stoppedRead (by decide +kernel), by decide +kernel⟩

/-- **A cancellation returns no credit** for the bytes it clears, and a cancelled stream is never drained:
both are left to the session, which is told by `on_cancel`. -/
theorem cancel_returns_no_credit :
    ¬ ∀ (capacity : Nat) (l : List Event),
      (Runs.run step { capacity } l).posted = [] →
      (Runs.run step { capacity } l).credited =
        (Runs.run step { capacity } l).returned.length + (Runs.run step { capacity } l).discarded.length := by
  intro h
  exact absurd (h 8 [.receive [1, 2, 3], .cancel, .runCancel] (by decide +kernel)) (by decide +kernel)

end ClashNative.ExchangeBody
