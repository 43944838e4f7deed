import ClashNative.KcptunSnappy
import Mathlib.Data.List.Nodup
/-!
# KcptunSnappyWrites — every write handler is called once

A write is queued, in flight, or its handler has been called.  `finish_write` calls the handlers of the
queued writes and then that of `write_handler_`, and leaves them set: a write that is queued behind
another is called twice, and so is one whose write of the transport succeeds behind the end of the stream.
-/
namespace ClashNative.Kcptun.Snappy

open List

namespace StreamState

def called (s : StreamState) (id : Nat) : Nat := s.calls.countP fun call => call.1 == id

def Finishing (s : StreamState) : Prop := ∃ error, .finishWrite error ∈ s.stack

/-- **What is promised of the handlers**: each is called once, but for a write that is queued or in
flight, or about to be finished, where something is to come; a success is one of a packet that was
written, with all of its bytes. -/
structure CalledOnce (s : StreamState) : Prop where
  once : ∀ id, s.called id ≤ 1
  waits : ∀ id, id < s.next → s.called id = 0 →
    s.inFlight = some id ∨ s.Finishing ∨ id ∈ s.writes ∧ (s.inFlight.isSome = true ∨ s.stack ≠ [])
  success : ∀ id size, (id, .ok size) ∈ s.calls → size = 0 ∨ id ∈ s.written ∧ size = (s.pending id).size

/-- The write of `write_handler_` is not queued behind another. -/
def Started (s : StreamState) : Prop := ∀ id, s.writeHandler = some id → id ∉ s.writes

/-- **The condition**: the stream does not end while the write of `write_handler_` is queued behind
another, and no write of the transport succeeds whose handler the end of the stream has called. -/
def EndsStarted (s : StreamState) : Event → Prop
  | .close => s.closed = false → s.Started
  | .handlerReturned =>
    match s.stack with
    | .finishWrite _ :: _ => s.Started
    | .close :: _ => s.closed = false → s.Started
    | _ => True
  | .writeDone false => ∀ id, s.inFlight = some id → (s.pending id).cancelled = false → s.writeHandler = some id
  | _ => True

structure Core (s : StreamState) : Prop where
  nodup : (s.inFlight.toList ++ s.writes).Nodup
  bound : ∀ id, id ∈ s.inFlight.toList ++ s.writes → id < s.next
  handler : ∀ id, s.writeHandler = some id → id < s.next ∧ s.called id = 0 ∧ (s.pending id).cancelled = false ∧
    (s.pending id).handler = true
  retired : ∀ id, id ∈ s.writes → s.writeHandler ≠ some id → (s.pending id).cancelled = true
  flying : ∀ id, s.inFlight = some id → (s.pending id).cancelled = false → (s.pending id).handler = true
  count : ∀ id, id < s.next → s.writeHandler ≠ some id → s.called id = 1
  fresh : ∀ id, s.next ≤ id → s.called id = 0
  success : ∀ id size, (id, .ok size) ∈ s.calls → size = 0 ∨ id ∈ s.written ∧ size = (s.pending id).size

def Placed (s : StreamState) : Prop := ∀ id, s.writeHandler = some id → id ∈ s.writes ∨
    s.inFlight = some id ∨ s.Finishing

structure Ledger (s : StreamState) : Prop where
  core : Core s
  placed : Placed s
  closed : s.closed = true → s.writeHandler = none ∧ s.writes = []
  running : s.writes ≠ [] → s.inFlight.isSome = true ∨ s.stack ≠ []

variable {s s' : StreamState}

theorem Ledger.calledOnce (h : Ledger s) : CalledOnce s where
  once id := by
    by_cases hnext : id < s.next
    · by_cases hhandler : s.writeHandler = some id
      · rw [(h.core.handler id hhandler).2.1]
        exact Nat.zero_le 1
      · exact Nat.le_of_eq (h.core.count id hnext hhandler)
    · rw [h.core.fresh id (Nat.not_lt.1 hnext)]
      exact Nat.zero_le 1
  waits id hnext hzero := by
    have hhandler : s.writeHandler = some id := by
      by_contra hne
      rw [h.core.count id hnext hne] at hzero
      exact absurd hzero (by decide)
    rcases h.placed id hhandler with hqueued | hflight | hfinishing
    · exact .inr (.inr ⟨hqueued, h.running (ne_nil_of_mem hqueued)⟩)
    · exact .inl hflight
    · exact .inr (.inl hfinishing)
  success := h.core.success

/-! ## What reads leave alone -/

structure SameWrites (s s' : StreamState) : Prop where
  writeHandler : s'.writeHandler = s.writeHandler
  writes : s'.writes = s.writes
  inFlight : s'.inFlight = s.inFlight
  pending : s'.pending = s.pending
  next : s'.next = s.next
  calls : s'.calls = s.calls
  written : s'.written = s.written
  closed : s'.closed = s.closed
  stack : s.stack ⊆ s'.stack

theorem SameWrites.refl (s : StreamState) : SameWrites s s :=
  ⟨rfl, rfl, rfl, rfl, rfl, rfl, rfl, rfl, fun _ h => h⟩

theorem SameWrites.core (hsame : SameWrites s s') (h : Core s) : Core s' := by
  have hcalled : ∀ id, s'.called id = s.called id := fun id => by
    unfold called
    rw [hsame.calls]
  refine ⟨?_, fun id hid => ?_, fun id hid => ?_, fun id hid hne => ?_, fun id hid => ?_,
    fun id hid hne => ?_, fun id hid => ?_,
    fun id size hid => ?_⟩
  · rw [hsame.inFlight, hsame.writes]
    exact h.nodup
  · rw [hsame.inFlight, hsame.writes] at hid
    rw [hsame.next]
    exact h.bound id hid
  · rw [hsame.writeHandler] at hid
    rw [hsame.next, hcalled, hsame.pending]
    exact h.handler id hid
  · rw [hsame.writes] at hid
    rw [hsame.writeHandler] at hne
    rw [hsame.pending]
    exact h.retired id hid hne
  · rw [hsame.inFlight] at hid
    rw [hsame.pending]
    exact h.flying id hid
  · rw [hsame.next] at hid
    rw [hsame.writeHandler] at hne
    rw [hcalled]
    exact h.count id hid hne
  · rw [hsame.next] at hid
    rw [hcalled]
    exact h.fresh id hid
  · rw [hsame.calls] at hid
    rw [hsame.written, hsame.pending]
    exact h.success id size hid

theorem SameWrites.ledger (hsame : SameWrites s s') (h : Ledger s) : Ledger s' := by
  refine ⟨hsame.core h.core, fun id hid => ?_, fun hclosed => ?_, fun hne => ?_⟩
  · rw [hsame.writeHandler] at hid
    rw [hsame.writes, hsame.inFlight]
    exact (h.placed id hid).imp_right fun h => h.imp_right fun ⟨error, herror⟩ => ⟨error, hsame.stack herror⟩
  · rw [hsame.closed] at hclosed
    rw [hsame.writeHandler, hsame.writes]
    exact h.closed hclosed
  · rw [hsame.writes] at hne
    rw [hsame.inFlight]
    exact (h.running hne).imp id fun hstack hnil => hstack (subset_nil.1 (hnil ▸ hsame.stack))

theorem sameWrites_finishRead (s : StreamState) (error : StreamError) : SameWrites s (s.finishRead error) := by
  unfold finishRead
  split <;> exact ⟨rfl, rfl, rfl, rfl, rfl, rfl, rfl, rfl, fun _ h => h⟩

theorem sameWrites_deliverRead (s : StreamState) : SameWrites s s.deliverRead := by
  unfold deliverRead
  split
  · exact SameWrites.refl s
  · split
    · split
      · exact sameWrites_finishRead s _
      · exact SameWrites.refl s
    · exact ⟨rfl, rfl, rfl, rfl, rfl, rfl, rfl, rfl, fun _ h => h⟩

theorem sameWrites_closeWithError (s : StreamState) (error : StreamError) :
    SameWrites s (s.closeWithError error) := by
  unfold closeWithError
  split
  · exact SameWrites.refl s
  · have h := sameWrites_finishRead { s with failed := true } error
    exact { h with stack := fun _ hr => mem_cons_of_mem _ (mem_cons_of_mem _ (h.stack hr)) }

theorem sameWrites_read (s : StreamState) (size : Nat) : SameWrites s (s.asyncReadSome size) := by
  have hdone : ∀ result, SameWrites s (s.readDone result) := fun _ =>
    ⟨rfl, rfl, rfl, rfl, rfl, rfl, rfl, rfl, fun _ h => h⟩
  unfold asyncReadSome
  split
  · exact ⟨rfl, rfl, rfl, rfl, rfl, rfl, rfl, rfl, fun _ h => h⟩
  · split
    · exact hdone _
    · split
      · exact hdone _
      · have h := sameWrites_deliverRead { s with readHandler := some size }
        exact { h with }

theorem sameWrites_cancelRead (s : StreamState) : SameWrites s s.cancelRead := by
  unfold cancelRead
  split <;> exact ⟨rfl, rfl, rfl, rfl, rfl, rfl, rfl, rfl, fun _ h => h⟩

theorem sameWrites_stopReading (s : StreamState) (error : StreamError) : SameWrites s (s.stopReading error) := by
  have h := sameWrites_closeWithError { s with reading := false } error
  exact { h with }

theorem sameWrites_receive (s : StreamState) (decoded : Bytes) : SameWrites s (s.receive decoded) := by
  have h := sameWrites_deliverRead { s with incoming := s.incoming ++ decoded, decoded := s.decoded ++ decoded }
  exact { h with }

theorem sameWrites_stageRead (s : StreamState) (codec : Codec) (bytes : Bytes) :
    SameWrites s (s.stageRead codec bytes) := by
  unfold stageRead
  cases s.stage with
  | identifier =>
    dsimp only
    split
    · exact sameWrites_stopReading s _
    · exact ⟨rfl, rfl, rfl, rfl, rfl, rfl, rfl, rfl, fun _ h => h⟩
  | header =>
    dsimp only
    split
    · split <;> exact ⟨rfl, rfl, rfl, rfl, rfl, rfl, rfl, rfl, fun _ h => h⟩
    · split
      · exact sameWrites_stopReading s _
      · exact ⟨rfl, rfl, rfl, rfl, rfl, rfl, rfl, rfl, fun _ h => h⟩
  | payload type length =>
    dsimp only
    split
    · exact sameWrites_stopReading s _
    · exact sameWrites_receive s _
  | skip length => exact ⟨rfl, rfl, rfl, rfl, rfl, rfl, rfl, rfl, fun _ h => h⟩

theorem sameWrites_arrive (s : StreamState) (codec : Codec) (bytes : Bytes) :
    SameWrites s (s.arrive codec bytes) := by
  unfold arrive
  split
  · exact SameWrites.refl s
  · split
    · exact ⟨rfl, rfl, rfl, rfl, rfl, rfl, rfl, rfl, fun _ h => h⟩
    · split
      · exact sameWrites_stopReading s _
      · split
        · exact SameWrites.refl s
        · split
          · exact ⟨rfl, rfl, rfl, rfl, rfl, rfl, rfl, rfl, fun _ h => h⟩
          · exact sameWrites_stageRead s codec _

theorem sameWrites_arriveError (s : StreamState) (error : StreamError) : SameWrites s (s.arriveError error) := by
  unfold arriveError
  split
  · exact SameWrites.refl s
  · exact sameWrites_stopReading s error

/-! ## The moves of the writing half -/

variable {id : Nat}

theorem called_snoc {result : Except StreamError Nat} (h : s'.calls = s.calls ++ [(id, result)]) (id' : Nat) :
    s'.called id' = s.called id' + if id = id' then 1 else 0 := by
  unfold called
  rw [h, countP_append, countP_singleton]
  by_cases heq : id = id'
  · simp [heq]
  · simp [heq]

theorem called_call (s : StreamState) (id id' : Nat) (result : Except StreamError Nat) :
    (s.call id' result).called id = s.called id + if id' = id then 1 else 0 := called_snoc rfl id

theorem pumpWrite_ledger (h : Core s) (hplaced : Placed s) (hclosed : s.closed = true →
    s.writeHandler = none ∧ s.writes = []) :
    Ledger s.pumpWrite := by
  unfold pumpWrite
  by_cases hbusy : s.closed = true ∨ s.inFlight.isSome = true
  · rw [if_pos hbusy]
    refine ⟨h, hplaced, hclosed, fun hne => ?_⟩
    exact hbusy.elim (fun hc => absurd (hclosed hc).2 hne) .inl
  · rw [if_neg hbusy]
    rw [not_or] at hbusy
    have hidle : s.inFlight = none := by simpa using hbusy.2
    cases hwrites : s.writes with
    | nil => exact ⟨h, hplaced, hclosed, fun hne => absurd hwrites hne⟩
    | cons id rest =>
      have hnodup := h.nodup
      have hbound := h.bound
      rw [hidle, hwrites] at hnodup hbound
      refine ⟨⟨hnodup, hbound, h.handler, fun id' hid hne => h.retired id' ?_ hne,
        fun id' hid hcancelled => ?_, h.count, h.fresh,
        h.success⟩, fun id' hid => ?_, fun hc => absurd hc hbusy.1, fun _ => .inl rfl⟩
      · rw [hwrites]
        exact mem_cons_of_mem id hid
      · cases hid
        by_cases hhandler : s.writeHandler = some id
        · exact (h.handler id hhandler).2.2.2
        · have hgone := h.retired id (by rw [hwrites]; exact mem_cons_self) hhandler
          exact Bool.noConfusion (hgone.symm.trans hcancelled)
      · rcases hplaced id' hid with hqueued | hflight | hfinishing
        · rw [hwrites] at hqueued
          rcases mem_cons.1 hqueued with rfl | hrest
          · exact .inr (.inl rfl)
          · exact .inl hrest
        · rw [hidle] at hflight
          cases hflight
        · exact .inr (.inr hfinishing)

theorem failQueued_of_cancelled (error : StreamError) : ∀ (ids : List Nat) (s : StreamState),
    (∀ id, id ∈ ids → (s.pending id).cancelled = true) → s.failQueued error ids = s
  | [], _, _ => rfl
  | id :: rest, s, h => by
    unfold failQueued
    rw [if_neg (fun hlive => Bool.noConfusion (hlive.1.symm.trans (h id mem_cons_self)))]
    exact failQueued_of_cancelled error rest s fun id' hid => h id' (mem_cons_of_mem id hid)

theorem finishWrite_ledger (h : Core s) (hstarted : Started s) (error : StreamError) : Ledger
    (s.finishWrite error) := by
  have hqueued : ({ s with writeHandler := none }).failQueued error s.writes = { s with writeHandler := none } :=
    failQueued_of_cancelled error s.writes _ fun id hid => h.retired id hid fun hhandler =>
    hstarted id hhandler hid
  have hnodup : (s.inFlight.toList ++ []).Nodup := by
    rw [append_nil]
    exact (nodup_append.1 h.nodup).1
  have hbound : ∀ id, id ∈ s.inFlight.toList ++ [] → id < s.next := fun id hid =>
    h.bound id (mem_append_left _ (by simpa using hid))
  unfold finishWrite
  rw [hqueued]
  cases hhandler : s.writeHandler with
  | none =>
    exact ⟨⟨hnodup, hbound, fun id hid => (nomatch hid), fun id hid => (nomatch hid), h.flying,
      fun id hid _ => h.count id hid (by rw [hhandler]; exact nofun), h.fresh, h.success⟩, fun id hid =>
      (nomatch hid),
      fun _ => ⟨rfl, rfl⟩, fun hne => absurd rfl hne⟩
  | some id =>
    obtain ⟨hnext, hzero, hcancelled, hset⟩ := h.handler id hhandler
    dsimp only
    rw [if_pos ⟨hcancelled, hset⟩]
    refine ⟨⟨hnodup, hbound, fun id' hid => (nomatch hid), fun id' hid => (nomatch hid), h.flying,
      fun id' hid _ => ?_, fun id' hid => ?_,
      fun id' size hid => ?_⟩, fun id' hid => (nomatch hid), fun _ => ⟨rfl, rfl⟩, fun hne => absurd rfl hne⟩
    · rw [called_call]
      by_cases heq : id = id'
      · subst heq
        rw [if_pos rfl]
        exact congrArg (· + 1) hzero
      · rw [if_neg heq]
        exact h.count id' hid (by rw [hhandler]; exact fun he => heq (Option.some.inj he))
    · rw [called_call, if_neg (by rintro rfl; exact absurd hnext (Nat.not_lt.2 hid))]
      exact h.fresh id' hid
    · rcases mem_append.1 hid with hold | hnew
      · exact h.success id' size hold
      · exact nomatch (Prod.ext_iff.1 (mem_singleton.1 hnew)).2

theorem close_ledger (h : Core s) (hclosed : s.closed = true → s.writeHandler = none ∧ s.writes = [])
    (hstarted : s.closed = false → Started s) : Ledger s.close := by
  unfold close
  split
  · rename_i hdone
    refine ⟨h, fun id hid => ?_, hclosed, fun hne => absurd (hclosed hdone).2 hne⟩
    rw [(hclosed hdone).1] at hid
    cases hid
  · rename_i hopen
    have hsame := sameWrites_finishRead { s with closed := true } .operationAborted
    have hcore : Core { s with closed := true } :=
      { h with }
    refine finishWrite_ledger (hsame.core hcore) (fun id hid => ?_) _
    rw [hsame.writeHandler] at hid
    rw [hsame.writes]
    exact hstarted (by simpa using hopen) id hid

theorem asyncWrite_ledger (h : Ledger s) (codec : Codec) (data : Bytes) : Ledger (s.asyncWrite codec data) := by
  have hfresh := h.core.fresh s.next (Nat.le_refl _)
  -- a write whose handler is called at once
  have hrefused : ∀ result, (∀ size, result = .ok size → size = 0) →
    Ledger (({ s with next := s.next + 1 }).call s.next result) := by
    intro result hzero
    refine { h with
      core := ⟨h.core.nodup, fun id hid => Nat.lt_succ_of_lt (h.core.bound id hid),
        fun id hid => ?_, h.core.retired, h.core.flying,
      fun id hid hne => ?_, fun id hid => ?_, fun id size hid => ?_⟩ }
    · obtain ⟨hnext, hcalled, hrest⟩ := h.core.handler id hid
      refine ⟨Nat.lt_succ_of_lt hnext, ?_, hrest⟩
      rw [called_call, if_neg (Nat.ne_of_gt hnext)]
      exact hcalled
    · rw [called_call]
      by_cases heq : s.next = id
      · subst heq
        rw [if_pos rfl]
        exact congrArg (· + 1) hfresh
      · rw [if_neg heq]
        have hlt : id < s.next := Nat.lt_of_le_of_ne (Nat.lt_succ_iff.1 hid) (Ne.symm heq)
        exact h.core.count id hlt hne
    · rw [called_call, if_neg (by intro heq; exact absurd hid (by rw [← heq]; exact Nat.not_succ_le_self _))]
      exact h.core.fresh id (Nat.le_of_succ_le hid)
    · rcases mem_append.1 hid with hold | hnew
      · exact h.core.success id size hold
      · exact .inl (hzero size (Prod.ext_iff.1 (mem_singleton.1 hnew)).2.symm)
  unfold asyncWrite
  dsimp only
  split
  · exact hrefused _ nofun
  · rename_i hopen
    split
    · exact hrefused _ nofun
    · rename_i hidle
      have hidle : s.writeHandler = none := by simpa using hidle
      split
      · exact hrefused _ fun _ hok => (Except.ok.inj hok).symm
      · have hnot : s.next ∉ s.inFlight.toList ++ s.writes :=
          fun hmem => Nat.lt_irrefl _ (h.core.bound s.next hmem)
        refine pumpWrite_ledger ⟨?_, fun id hid => ?_, fun id hid => ?_, fun id hid hne => ?_,
          fun id hid => ?_, fun id hid hne => ?_,
          fun id hid => h.core.fresh id (Nat.le_of_succ_le hid), fun id size hid => ?_⟩ (fun id hid =>
          ?_) fun hclosed => absurd hclosed hopen
        · show (s.inFlight.toList ++ (s.writes ++ [s.next])).Nodup
          rw [← append_assoc]
          exact h.core.nodup.append (nodup_singleton _) (disjoint_singleton.2 hnot)
        · have hid : id ∈ s.inFlight.toList ++ (s.writes ++ [s.next]) := hid
          rw [← append_assoc] at hid
          rcases mem_append.1 hid with hold | hnew
          · exact Nat.lt_succ_of_lt (h.core.bound id hold)
          · rw [mem_singleton.1 hnew]
            exact Nat.lt_succ_self _
        · cases hid
          refine ⟨Nat.lt_succ_self _, hfresh, ?_, ?_⟩
          · show (if s.next = s.next then _ else _ : PendingWrite).cancelled = false
            rw [if_pos rfl]
          · show (if s.next = s.next then _ else _ : PendingWrite).handler = true
            rw [if_pos rfl]
        · have hlt : id ≠ s.next := fun heq => hne (congrArg some heq.symm)
          show (if id = s.next then _ else s.pending id : PendingWrite).cancelled = true
          rw [if_neg hlt]
          have hmem : id ∈ s.writes := (mem_append.1 hid).resolve_right fun hnew => hlt (mem_singleton.1 hnew)
          exact h.core.retired id hmem (by rw [hidle]; exact nofun)
        · have hlt : id ≠ s.next := fun heq => hnot (by
            rw [← heq]
            exact mem_append_left _ (by rw [show s.inFlight = some id from hid]; exact mem_singleton.2 rfl))
          show (if id = s.next then _ else s.pending id : PendingWrite).cancelled = false →
            (if id = s.next then _ else s.pending id : PendingWrite).handler = true
          rw [if_neg hlt]
          exact h.core.flying id hid
        · have hlt : id ≠ s.next := fun heq => hne (congrArg some heq.symm)
          exact h.core.count id (Nat.lt_of_le_of_ne (Nat.lt_succ_iff.1 hid) hlt) (by rw [hidle]; exact nofun)
        · refine (h.core.success id size hid).imp_right fun ⟨hwritten, hsize⟩ => ⟨hwritten, ?_⟩
          have hlt : id ≠ s.next := by
            rintro rfl
            have hpos : 0 < s.called s.next := countP_pos_iff.2 ⟨_, hid, beq_self_eq_true _⟩
            omega
          show size = (if id = s.next then _ else s.pending id : PendingWrite).size
          rw [if_neg hlt]
          exact hsize
        · cases hid
          exact .inl (mem_append_right _ (mem_singleton.2 rfl))

theorem cancelWrite_ledger (h : Ledger s) : Ledger s.cancelWrite := by
  unfold cancelWrite
  split
  · exact h
  · rename_i id hhandler
    obtain ⟨hnext, hzero, hcancelled, hset⟩ := h.core.handler id hhandler
    rw [if_neg (by simp [hset])]
    have hflags : ∀ id', (if id' = id then { s.pending id' with cancelled := true, handler := false } else
      s.pending id').cancelled =
        (decide (id' = id) || (s.pending id').cancelled) := fun id' => by
      by_cases heq : id' = id
      · simp [heq]
      · simp [heq]
    refine ⟨⟨h.core.nodup, h.core.bound, fun id' hid => (nomatch hid), fun id' hid _ => ?_,
      fun id' hid hlive => ?_, fun id' hid _ => ?_,
      fun id' hid => ?_, fun id' size hid => ?_⟩, fun id' hid => (nomatch hid), fun hclosed =>
      ⟨rfl, (h.closed hclosed).2⟩, h.running⟩
    · refine (hflags id').trans ?_
      by_cases heq : id' = id
      · simp [heq]
      · rw [h.core.retired id' hid (by rw [hhandler]; exact fun he => heq (Option.some.inj he).symm)]
        exact Bool.or_true _
    · have hlive := (hflags id').symm.trans hlive
      have heq : id' ≠ id := fun heq => by simp [heq] at hlive
      show (if id' = id then _ else s.pending id' : PendingWrite).handler = true
      rw [if_neg heq]
      exact h.core.flying id' hid (by simpa [heq] using hlive)
    · rw [called_call]
      by_cases heq : id = id'
      · subst heq
        rw [if_pos rfl]
        exact congrArg (· + 1) hzero
      · rw [if_neg heq]
        exact h.core.count id' hid (by rw [hhandler]; exact fun he => heq (Option.some.inj he))
    · rw [called_call, if_neg (by rintro rfl; exact absurd hnext (Nat.not_lt.2 hid))]
      exact h.core.fresh id' hid
    · rcases mem_append.1 hid with hold | hnew
      · refine (h.core.success id' size hold).imp_right fun ⟨hwritten, hsize⟩ => ⟨hwritten, ?_⟩
        rw [hsize]
        show (s.pending id').size = (if id' = id then _ else s.pending id' : PendingWrite).size
        split <;> rfl
      · exact nomatch (Prod.ext_iff.1 (mem_singleton.1 hnew)).2

theorem landed_core (h : Core s) (hflight : s.inFlight = some id) (failed : Bool) : Core
    (s.landed id failed) := by
  have hnodup := h.nodup
  have hbound := h.bound
  rw [hflight] at hnodup hbound
  refine ⟨(nodup_append.1 hnodup).2.1, fun id' hid => hbound id' (mem_append_right _ hid), h.handler, h.retired,
    fun id' hid => (nomatch hid), h.count, h.fresh, fun id' size hid =>
    (h.success id' size hid).imp_right fun ⟨hwritten, hsize⟩ => ⟨?_, hsize⟩⟩
  show id' ∈ if failed then s.written else s.written ++ [id]
  split
  · exact hwritten
  · exact mem_append_left _ hwritten

theorem landed_placed (h : Placed s) (hflight : s.inFlight = some id) (failed : Bool)
    (hother : s.writeHandler ≠ some id) :
    Placed (s.landed id failed) := by
  intro id' hid
  rcases h id' hid with hqueued | hmine | hfinishing
  · exact .inl hqueued
  · cases hflight.symm.trans hmine
    exact absurd hid hother
  · exact .inr (.inr hfinishing)

theorem closeWithError_stack (hopen : s.closed = false) (error : StreamError) :
    (s.closeWithError error).stack = .finishWrite error :: .close :: s.stack := by
  unfold closeWithError finishRead
  rw [if_neg (by simp [hopen])]
  split <;> rfl

theorem writeDone_failed_ledger (h : Ledger s) : Ledger (s.writeDone true) := by
  unfold writeDone
  split
  · exact h
  · rename_i id hflight
    rw [if_pos rfl]
    have hlanded := landed_core h.core hflight true
    by_cases hcancelled : (s.pending id).cancelled = true
    · rw [if_pos hcancelled]
      refine pumpWrite_ledger hlanded (landed_placed h.placed hflight true fun hhandler => ?_) h.closed
      exact Bool.noConfusion (hcancelled.symm.trans (h.core.handler id hhandler).2.2.1)
    · rw [if_neg hcancelled]
      have hsame := sameWrites_closeWithError (s.landed id true) .transport
      refine ⟨hsame.core hlanded, fun id' hid => ?_, fun hclosed => ?_, fun hne => ?_⟩
      · by_cases hopen : s.closed = false
        · refine .inr (.inr ⟨.transport, ?_⟩)
          rw [closeWithError_stack (s := s.landed id true) hopen]
          exact mem_cons_self
        · have hended := h.closed (by simpa using hopen)
          rw [hsame.writeHandler] at hid
          cases hended.1.symm.trans hid
      · rw [hsame.writeHandler, hsame.writes]
        exact h.closed (hsame.closed.symm.trans hclosed)
      · by_cases hopen : s.closed = false
        · right
          rw [closeWithError_stack (s := s.landed id true) hopen]
          exact cons_ne_nil _ _
        · rw [hsame.writes] at hne
          exact absurd (h.closed (by simpa using hopen)).2 hne

theorem writeDone_ledger (h : Ledger s) (hmine : ∀ id, s.inFlight = some id →
    (s.pending id).cancelled = false → s.writeHandler = some id) :
    Ledger (s.writeDone false) := by
  unfold writeDone
  split
  · exact h
  · rename_i id hflight
    have hnodup := h.core.nodup
    have hbound := h.core.bound
    rw [hflight] at hnodup hbound
    rw [if_neg Bool.false_ne_true]
    split
    · rename_i hlive
      have hcalls : ((s.landed id false).succeed id).calls = s.calls ++ [(id, .ok (s.pending id).size)] := rfl
      have hhandler := hmine id hflight hlive.1
      obtain ⟨hnext, hzero, -, -⟩ := h.core.handler id hhandler
      have hflags : ∀ id', (if id' = id then { s.pending id' with handler := false } else
        s.pending id').cancelled = (s.pending id').cancelled ∧
          (if id' = id then { s.pending id' with handler := false } else s.pending id').size =
          (s.pending id').size := fun id' => by
        split <;> exact ⟨rfl, rfl⟩
      have hretired : (if s.writeHandler = some id then none else s.writeHandler) = none := if_pos hhandler
      refine ⟨⟨(nodup_append.1 hnodup).2.1, fun id' hid => hbound id' (mem_append_right _ hid),
        fun id' hid => ?_,
        fun id' hid hne => ?_, fun id' hid => (nomatch hid), fun id' hid _ => ?_, fun id' hid =>
        ?_, fun id' size hid => ?_⟩,
        fun id' hid => ?_, fun hclosed => ⟨hretired, (h.closed hclosed).2⟩, fun _ => .inr (cons_ne_nil _ _)⟩
      · have hid : (if s.writeHandler = some id then none else s.writeHandler) = some id' := hid
        rw [hretired] at hid
        cases hid
      · refine (hflags id').1.trans (h.core.retired id' hid ?_)
        rw [hhandler]
        rintro he
        cases he
        exact (nodup_append.1 hnodup).2.2 id (mem_singleton.2 rfl) id hid rfl
      · rw [called_snoc hcalls]
        by_cases heq : id = id'
        · subst heq
          rw [if_pos rfl]
          exact congrArg (· + 1) hzero
        · rw [if_neg heq]
          exact h.core.count id' hid (by rw [hhandler]; exact fun he => heq (Option.some.inj he))
      · rw [called_snoc hcalls, if_neg (by rintro rfl; exact absurd hnext (Nat.not_lt.2 hid))]
        exact h.core.fresh id' hid
      · rcases mem_append.1 hid with hold | hnew
        · refine (h.core.success id' size hold).imp_right fun ⟨hwritten, hsize⟩ =>
            ⟨mem_append_left _ hwritten, ?_⟩
          exact hsize.trans (hflags id').2.symm
        · obtain ⟨rfl, hsize⟩ := Prod.ext_iff.1 (mem_singleton.1 hnew)
          exact .inr ⟨mem_append_right _ (mem_singleton.2 rfl), (Except.ok.inj hsize).trans (hflags _).2.symm⟩
      · have hid : (if s.writeHandler = some id then none else s.writeHandler) = some id' := hid
        rw [hretired] at hid
        cases hid
    · rename_i hdead
      refine pumpWrite_ledger (landed_core h.core hflight false)
        (landed_placed h.placed hflight false fun hhandler => ?_) h.closed
      obtain ⟨-, -, hcancelled, hset⟩ := h.core.handler id hhandler
      exact absurd ⟨hcancelled, hset⟩ hdead

theorem handlerReturned_ledger (h : Ledger s) (hends : s.EndsStarted .handlerReturned) :
    Ledger s.handlerReturned := by
  have hcore : ∀ stack, Core { s with stack := stack } := fun _ =>
    ⟨h.core.nodup, h.core.bound, h.core.handler, h.core.retired, h.core.flying, h.core.count,
      h.core.fresh, h.core.success⟩
  unfold EndsStarted at hends
  unfold handlerReturned
  cases hstack : s.stack with
  | nil => exact h
  | cons r stack =>
    rw [hstack] at hends
    cases r with
    | pumpWrite =>
      refine pumpWrite_ledger (hcore stack) (fun id hid => ?_) h.closed
      refine (h.placed id hid).imp_right fun hplace => hplace.imp_right fun ⟨error, herror⟩ => ⟨error, ?_⟩
      rw [hstack] at herror
      exact (mem_cons.1 herror).resolve_left nofun
    | finishWrite error => exact finishWrite_ledger (hcore stack) hends error
    | close => exact close_ledger (hcore stack) h.closed hends

theorem step_ledger (h : Ledger s) (codec : Codec) (e : Event) (hends : s.EndsStarted e) : Ledger
    (s.step codec e) := by
  cases e with
  | read size => exact (sameWrites_read s size).ledger h
  | cancelRead => exact (sameWrites_cancelRead s).ledger h
  | arrive bytes => exact (sameWrites_arrive s codec bytes).ledger h
  | eof => exact (sameWrites_arriveError s _).ledger h
  | readError => exact (sameWrites_arriveError s _).ledger h
  | write data => exact asyncWrite_ledger h codec data
  | cancelWrite => exact cancelWrite_ledger h
  | shutdownSend => exact h
  | close => exact close_ledger h.core h.closed hends
  | writeDone failed =>
    cases failed with
    | true => exact writeDone_failed_ledger h
    | false => exact writeDone_ledger h hends
  | handlerReturned => exact handlerReturned_ledger h hends

theorem ledger_start : Ledger {} where
  core := ⟨nodup_nil, nofun, nofun, nofun, nofun,
    fun id hid => absurd hid (Nat.not_lt_zero id), fun _ _ => rfl, nofun⟩
  placed _ hid := nomatch hid
  closed hclosed := nomatch hclosed
  running hne := absurd rfl hne

/-! ## What breaks it -/

theorem failQueued_pending (error : StreamError) :
    ∀ (ids : List Nat) (s : StreamState), (s.failQueued error ids).pending = s.pending
  | [], _ => rfl
  | id :: rest, s => by
    unfold failQueued
    split
    · exact failQueued_pending error rest (s.call id (.error error))
    · exact failQueued_pending error rest s

theorem le_failQueued (error : StreamError) (id : Nat) :
    ∀ (ids : List Nat) (s : StreamState), s.called id ≤ (s.failQueued error ids).called id
  | [], _ => Nat.le_refl _
  | id' :: rest, s => by
    unfold failQueued
    split
    · refine Nat.le_trans ?_ (le_failQueued error id rest (s.call id' (.error error)))
      rw [called_call]
      exact Nat.le_add_right _ _
    · exact le_failQueued error id rest s

theorem lt_failQueued (error : StreamError) (ids : List Nat) (s : StreamState) (hid : id ∈ ids)
    (hlive : (s.pending id).cancelled = false ∧ (s.pending id).handler = true) :
    s.called id < (s.failQueued error ids).called id := by
  induction ids generalizing s with
  | nil => cases hid
  | cons id' rest ih =>
    unfold failQueued
    by_cases heq : id = id'
    · subst heq
      rw [if_pos hlive]
      refine Nat.lt_of_lt_of_le ?_ (le_failQueued error id rest (s.call id (.error error)))
      rw [called_call, if_pos rfl]
      exact Nat.lt_succ_self _
    · have hrest := (mem_cons.1 hid).resolve_left heq
      split
      · refine Nat.lt_of_le_of_lt ?_ (ih (s.call id' (.error error)) hrest hlive)
        rw [called_call]
        exact Nat.le_add_right _ _
      · exact ih s hrest hlive

theorem finishWrite_twice (h : Core s) (hqueued : ¬ Started s) (error : StreamError) :
    ¬ CalledOnce (s.finishWrite error) := by
  unfold Started at hqueued
  push Not at hqueued
  obtain ⟨id, hhandler, hmem⟩ := hqueued
  obtain ⟨-, -, hcancelled, hset⟩ := h.handler id hhandler
  have hlt := lt_failQueued error s.writes { s with writeHandler := none } hmem ⟨hcancelled, hset⟩
  have hpending := failQueued_pending error s.writes { s with writeHandler := none }
  have hagain : (s.finishWrite error).called id =
    (({ s with writeHandler := none }).failQueued error s.writes).called id + 1 := by
    unfold finishWrite
    rw [hhandler]
    dsimp only
    rw [hpending, if_pos ⟨hcancelled, hset⟩, called_call, if_pos rfl]
    rfl
  intro honce
  have := honce.once id
  omega

theorem not_calledOnce_step (h : Ledger s) (codec : Codec) (e : Event)
    (hends : ¬ s.EndsStarted e) : ¬ CalledOnce (s.step codec e) := by
  have hclose : ∀ stack, ¬ (s.closed = false → s.Started) →
    ¬ CalledOnce ({ s with stack := stack } : StreamState).close := by
    intro stack hnot
    obtain ⟨hopen, hqueued⟩ := Classical.not_imp.1 hnot
    unfold close
    rw [if_neg (by simp [hopen])]
    have hsame := sameWrites_finishRead { s with stack := stack, closed := true } .operationAborted
    have hcore : Core { s with stack := stack, closed := true } :=
      ⟨h.core.nodup, h.core.bound, h.core.handler, h.core.retired, h.core.flying, h.core.count,
        h.core.fresh, h.core.success⟩
    refine finishWrite_twice (hsame.core hcore) (fun hstarted => hqueued fun id hid => ?_) _
    have := hstarted id (hsame.writeHandler.trans hid)
    rw [hsame.writes] at this
    exact this
  cases e with
  | close => exact hclose s.stack hends
  | handlerReturned =>
    unfold EndsStarted at hends
    show ¬ CalledOnce s.handlerReturned
    unfold handlerReturned
    cases hstack : s.stack with
    | nil =>
      rw [hstack] at hends
      exact absurd trivial hends
    | cons r stack =>
      rw [hstack] at hends
      cases r with
      | pumpWrite => exact absurd trivial hends
      | finishWrite error =>
        have hcore : Core { s with stack := stack } :=
          ⟨h.core.nodup, h.core.bound, h.core.handler, h.core.retired, h.core.flying, h.core.count,
            h.core.fresh, h.core.success⟩
        exact finishWrite_twice hcore hends error
      | close => exact hclose stack hends
  | writeDone failed =>
    cases failed with
    | true => exact absurd trivial hends
    | false =>
      have hends : ¬ ∀ id, s.inFlight = some id →
        (s.pending id).cancelled = false → s.writeHandler = some id := hends
      push Not at hends
      obtain ⟨id, hflight, hcancelled, hother⟩ := hends
      have hnext := h.core.bound id (mem_append_left _ (by rw [hflight]; exact mem_singleton.2 rfl))
      have hdone : s.step codec (.writeDone false) = (s.landed id false).succeed id := by
        show s.writeDone false = _
        unfold writeDone
        rw [hflight]
        dsimp only
        rw [if_neg Bool.false_ne_true, if_pos ⟨hcancelled, h.core.flying id hflight hcancelled⟩]
      have hcalls : ((s.landed id false).succeed id).calls = s.calls ++ [(id, .ok (s.pending id).size)] := rfl
      intro honce
      have htwice := honce.once id
      rw [hdone, called_snoc hcalls, if_pos rfl, h.core.count id hnext hother] at htwice
      exact absurd htwice (by decide)
  | read size => exact absurd trivial hends
  | cancelRead => exact absurd trivial hends
  | arrive bytes => exact absurd trivial hends
  | eof => exact absurd trivial hends
  | readError => exact absurd trivial hends
  | write data => exact absurd trivial hends
  | cancelWrite => exact absurd trivial hends
  | shutdownSend => exact absurd trivial hends

end StreamState

/-- A write that is queued behind one that was cancelled is finished twice when the stream is closed. -/
theorem queued_write_called_twice :
    (run stored [.write [1], .cancelWrite, .write [2], .close]).calls =
      [(0, .error .operationAborted), (1, .error .operationAborted), (1, .error .operationAborted)] ∧
    ¬ (run stored [.write [1], .cancelWrite, .write [2], .close]).CalledOnce :=
  ⟨rfl, fun h => absurd (h.once 1) (show ¬ 2 ≤ 1 by decide)⟩

/-- **Every handler is called once in every state of a run if and only if** every step of it meets the
condition. -/
theorem calledOnce_iff (codec : Codec) (events : List Event) :
    (∀ before, before <+: events → (run codec before).CalledOnce) ↔
    Runs.Along (StreamState.step codec) StreamState.EndsStarted {} events :=
  Runs.forall_prefix_iff_along (P := StreamState.Ledger) (fun _ h => h.calledOnce)
    (fun _ e h hends => StreamState.step_ledger h codec e hends)
    (fun _ e h hends => StreamState.not_calledOnce_step h codec e hends) StreamState.ledger_start events

end ClashNative.Kcptun.Snappy
