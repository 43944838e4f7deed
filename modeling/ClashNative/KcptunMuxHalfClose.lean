import ClashNative.SmuxSendWindow
/-!
# KcptunMuxHalfClose — one FIN behind every byte

The FIN of a stream is its last frame, behind the bytes of every write that it has accepted.  It waits for
a write that is pending, or for a handler that has not returned: what takes the write away without
queueing it loses it.
-/
namespace ClashNative.Kcptun.Mux

open List

open SendWindow (Entry Counters)

namespace StreamState

def framed (s : StreamState) : Bytes := s.frames.flatMap Frame.payload

def FinDue (s : StreamState) : Prop := s.finRequested = true ∧ s.finEnqueued = false

/-- Something is to come that pumps: a handler returns, a PUSH frame is written, the window opens. -/
def Waits (o : Options) (s : StreamState) : Prop :=
  0 < s.returns ∨ s.pending.isSome = true ∧ (0 < s.outstanding ∨ o.smuxVersion = 2 ∧ s.window.Shut)

/-- **What is promised of the FIN**: it is the last frame, with every byte before it that is owed; it is
queued only where the stream has ended, and then, while the session lives, it is there or something is to
come. -/
structure HalfClosed (o : Options) (s : StreamState) : Prop where
  last : ∀ before after, s.frames = before ++ .fin :: after → after = []
  behind : .fin ∈ s.frames → s.framed = s.owed
  ended : .fin ∈ s.frames → s.localClosed = true
  comes : s.localClosed = true → s.sessionClosed = false → .fin ∈ s.frames ∨ s.Waits o

/-- **The condition**: no `cancel_write` and no `close` while a FIN waits for a write, unless a handler is
running; and no handler that returns with its FIN asked for and a new write not all in frames. -/
def Meets (s : StreamState) : Event → Prop
  | .cancel | .close => ¬ (s.FinDue ∧ s.pending.isSome = true ∧ s.returns = 0)
  | .handlerReturned => ¬ (s.FinDue ∧ s.rest ≠ [] ∧ 0 < s.returns)
  | _ => True

structure Core (s : StreamState) : Prop where
  bytes : s.framed ++ s.rest = s.owed
  offset : ∀ p, s.pending = some p → p.offset ≤ p.data.length
  rest : .fin ∈ s.frames → s.rest = []
  last : ∀ before after, s.frames = before ++ .fin :: after → after = []
  requested : s.finRequested = true → s.localClosed = true
  ended : s.localClosed = true → s.finRequested = true ∨ s.closed = true
  fin : .fin ∈ s.frames → s.localClosed = true ∧ (s.finEnqueued = true ∨ s.finRequested = false)
  enqueued : s.finEnqueued = true → s.finRequested = true ∧ (s.sessionClosed = false → .fin ∈ s.frames)
  closed : s.closed = true → s.pending = none
  registered : s.registered = false → s.closed = true

structure Live (o : Options) (s : StreamState) : Prop where
  pumped : s.pending.isSome = true → 0 < s.outstanding ∨ o.smuxVersion = 2 ∧ s.window.Shut
  due : s.localClosed = true → .fin ∈ s.frames ∨ s.FinDue ∧ (0 < s.returns ∨ s.pending.isSome = true)

structure Inv (o : Options) (s : StreamState) : Prop where
  core : Core s
  session : s.sessionClosed = true → s.closed = true
  live : s.sessionClosed = false → Live o s

variable {o : Options} {s : StreamState}

theorem Inv.halfClosed (h : Inv o s) : HalfClosed o s where
  last := h.core.last
  behind hfin := by
    have hbytes := h.core.bytes
    rw [h.core.rest hfin, append_nil] at hbytes
    exact hbytes
  ended hfin := (h.core.fin hfin).1
  comes hlocal hsession := by
    have hlive := h.live hsession
    rcases hlive.due hlocal with hfin | ⟨-, hreturns | hpending⟩
    · exact .inl hfin
    · exact .inr (.inl hreturns)
    · exact .inr (.inr ⟨hpending, hlive.pumped hpending⟩)

theorem rest_eq_nil (h : s.pending = none) : s.rest = [] := by
  unfold rest
  rw [h]
  rfl

variable {p : PendingWrite}

theorem rest_eq (h : s.pending = some p) : s.rest = p.rest := by
  unfold rest
  rw [h]
  rfl

/-! ## The moves -/

theorem finishWrite_core (h : Core s) (error : Option StreamError) : Core (s.finishWrite error) := by
  unfold finishWrite
  split
  · exact h
  · rename_i p hp
    have hbytes := h.bytes
    rw [rest_eq hp] at hbytes
    refine ⟨?_, fun q hq => (nomatch hq), fun _ => rfl, h.last, h.requested, h.ended, h.fin, h.enqueued,
      fun _ => rfl, h.registered⟩
    show s.framed ++ [] = s.owed.take (s.owed.length - p.rest.length)
    rw [← hbytes, append_nil, length_append, Nat.add_sub_cancel, take_left]

theorem finishWrite_pending (s : StreamState) (error : Option StreamError) :
    (s.finishWrite error).pending = none := by
  unfold finishWrite
  split
  · assumption
  · rfl

theorem finishWrite_same (s : StreamState) (error : Option StreamError) :
    (s.finishWrite error).frames = s.frames ∧ (s.finishWrite error).localClosed = s.localClosed ∧
      (s.finishWrite error).finRequested = s.finRequested ∧ (s.finishWrite error).finEnqueued = s.finEnqueued ∧
      (s.finishWrite error).sessionClosed = s.sessionClosed ∧ (s.finishWrite error).returns = s.returns ∧
      (s.finishWrite error).closed = s.closed := by
  unfold finishWrite
  split <;> exact ⟨rfl, rfl, rfl, rfl, rfl, rfl, rfl⟩

theorem onSessionError_core (h : Core s) (error : StreamError) : Core (s.onSessionError error) := by
  unfold onSessionError
  split
  · exact h
  · have hfinished := finishWrite_core h (some error)
    have heq : ({ s with closed := true }).finishWrite (some error) =
      { s.finishWrite (some error) with closed := true } := by
      unfold finishWrite
      dsimp only
      split <;> rfl
    rw [heq]
    exact ⟨hfinished.bytes, hfinished.offset, hfinished.rest, hfinished.last, hfinished.requested,
      fun _ => .inr rfl,
      hfinished.fin, hfinished.enqueued, fun _ => finishWrite_pending s _, fun _ => rfl⟩

theorem onSessionError_session (s : StreamState) (error : StreamError) :
    (s.onSessionError error).sessionClosed = s.sessionClosed := by
  unfold onSessionError
  split
  · rfl
  · exact (finishWrite_same _ _).2.2.2.2.1

theorem inv_of_failed (h : Core s) (hclosed : s.closed = true) (hsession : s.sessionClosed = true) : Inv o s :=
  ⟨h, fun _ => hclosed, fun hlive => absurd (hsession.symm.trans hlive) Bool.noConfusion⟩

theorem failSession_inv (h : Core s) (hs : s.sessionClosed = true → s.closed = true) (error : StreamError) :
    Inv o (s.failSession error) := by
  unfold failSession
  split
  · exact inv_of_failed h (hs ‹_›) ‹_›
  · rename_i hopen
    have hcore : Core { s with sessionClosed := true } :=
      { h with enqueued := fun he => ⟨(h.enqueued he).1, nofun⟩ }
    dsimp only
    split
    · have heq : ({ s with sessionClosed := true, registered := false }).onSessionError error =
          { ({ s with sessionClosed := true }).onSessionError error with registered := false } := by
        unfold onSessionError finishWrite
        dsimp only
        split
        · rfl
        · split <;> rfl
      have hfailed := onSessionError_core hcore error
      have hclosed := onSessionError_closed { s with sessionClosed := true } error
      rw [heq]
      refine inv_of_failed { hfailed with registered := fun _ => hclosed } hclosed ?_
      exact onSessionError_session _ _
    · rename_i hgone
      exact inv_of_failed hcore (h.registered (by simpa using hgone)) rfl

theorem requestFin_inv (h : Core s) (hs : s.sessionClosed = true → s.closed = true) (hrest : s.FinDue →
    s.rest = [])
    (hpumped : s.sessionClosed = false → s.pending.isSome = true → 0 < s.outstanding ∨
      o.smuxVersion = 2 ∧ s.window.Shut)
    (hdue : s.sessionClosed = false → s.localClosed = true → .fin ∈ s.frames ∨ s.FinDue) :
    Inv o s.requestFin := by
  unfold requestFin
  split
  · rename_i hfin
    have habsent : Frame.fin ∉ s.frames := fun hmem => by
      rcases (h.fin hmem).2 with henqueued | hrequested
      · exact Bool.noConfusion (henqueued.symm.trans hfin.2)
      · exact Bool.noConfusion (hfin.1.symm.trans hrequested)
    unfold enqueueFin
    split
    · rename_i hsession
      have hclosed := hs hsession
      have heq : ({ s with finEnqueued := true }).onSessionError .session =
        { s with finEnqueued := true } := if_pos hclosed
      rw [heq]
      refine inv_of_failed ⟨h.bytes, h.offset, h.rest, h.last, h.requested, h.ended,
        fun hmem => absurd hmem habsent,
        fun _ => ⟨hfin.1, fun hopen => ?_⟩, h.closed, h.registered⟩ hclosed hsession
      exact absurd (hsession.symm.trans hopen) Bool.noConfusion
    · have hmem : Frame.fin ∈ s.frames ++ [.fin] := mem_append_right _ mem_cons_self
      have hlocal := h.requested hfin.1
      refine ⟨⟨?_, h.offset, fun _ => hrest hfin, snoc_last habsent, h.requested, h.ended,
        fun _ => ⟨hlocal, .inl rfl⟩,
        fun _ => ⟨hfin.1, fun _ => hmem⟩, h.closed, h.registered⟩, hs, fun hsession =>
        ⟨hpumped hsession, fun _ => .inl hmem⟩⟩
      show (s.frames ++ [Frame.fin]).flatMap Frame.payload ++ s.rest = s.owed
      rw [flatMap_append]
      show (s.framed ++ []) ++ s.rest = s.owed
      rw [append_nil]
      exact h.bytes
  · rename_i hnot
    refine ⟨h, hs, fun hsession => ⟨hpumped hsession, fun hlocal => ?_⟩⟩
    exact (hdue hsession hlocal).imp id fun hfin => absurd hfin hnot

theorem push_core (o : Options) (h : Core s) (hp : s.pending = some p) (hopen : s.closed = false) (count : Nat)
    (hlt : p.offset < p.data.length) (hcount : p.offset + count ≤ p.data.length) : Core (s.push o p count) := by
  have habsent : Frame.fin ∉ s.frames := fun hmem => by
    have hrest := h.rest hmem
    rw [rest_eq hp] at hrest
    exact absurd (drop_eq_nil_iff.1 hrest) (Nat.not_le.2 hlt)
  have hmem : ∀ frame, frame ∈ s.frames ++ [.push (p.rest.take count)] → frame ≠ .fin := by
    intro frame hframe hfin
    subst hfin
    rcases mem_append.1 hframe with hin | hin
    · exact habsent hin
    · exact absurd (mem_singleton.1 hin) (nofun)
  have hnone : Frame.fin ∉ s.frames ++ [.push (p.rest.take count)] := fun hin => hmem _ hin rfl
  refine ⟨?_, fun q hq => ?_, fun hin => absurd hin hnone, fun before after heq => ?_, h.requested, h.ended,
    fun hin => absurd hin hnone, fun he => ⟨(h.enqueued he).1, fun hs => absurd ((h.enqueued he).2 hs) habsent⟩,
    fun hclosed => absurd (hclosed.symm.trans hopen) Bool.noConfusion, h.registered⟩
  · have hbytes := h.bytes
    rw [rest_eq hp] at hbytes
    show (s.frames ++ [Frame.push (p.rest.take count)]).flatMap Frame.payload ++ p.data.drop
      (p.offset + count) = s.owed
    rw [flatMap_append, flatMap_singleton, ← drop_drop]
    show (s.framed ++ p.rest.take count) ++ p.rest.drop count = s.owed
    rw [append_assoc, take_append_drop]
    exact hbytes
  · cases hq
    exact hcount
  · refine absurd ?_ hnone
    rw [show s.frames ++ [.push (p.rest.take count)] = before ++ .fin :: after from heq]
    exact mem_append_right _ mem_cons_self

theorem Core.due (h : Core s) (hopen : s.closed = false) (hsession : s.sessionClosed = false)
    (hlocal : s.localClosed = true) :
    .fin ∈ s.frames ∨ s.FinDue := by
  by_cases hfin : .fin ∈ s.frames
  · exact .inl hfin
  · right
    refine ⟨(h.ended hlocal).resolve_right (by simp [hopen]), ?_⟩
    cases henqueued : s.finEnqueued with
    | false => rfl
    | true => exact absurd ((h.enqueued henqueued).2 hsession) hfin

theorem pumpWrite_inv (h : Core s) (hs : s.sessionClosed = true → s.closed = true)
    (hlive : s.closed = true → s.sessionClosed = false → Live o s) : Inv o (s.pumpWrite o) := by
  unfold pumpWrite
  by_cases hdone : s.closed = true ∨ s.sessionClosed = true
  · rw [if_pos hdone]
    exact ⟨h, hs, hlive (hdone.elim id hs)⟩
  · rw [if_neg hdone]
    obtain ⟨hopen, hsession⟩ : s.closed = false ∧ s.sessionClosed = false := by simpa using hdone
    split
    · rename_i hnone
      refine requestFin_inv h hs (fun _ => rest_eq_nil hnone) (fun _ hsome => ?_) (fun _ => h.due hopen hsession)
      rw [hnone] at hsome
      cases hsome
    · rename_i p hp
      have hoffset := h.offset p hp
      split
      · have hfinished := finishWrite_core h none
        obtain ⟨hframes, hlocal, hrequested, henqueued, hsession', hreturns, hclosed'⟩ := finishWrite_same s none
        refine ⟨{ hfinished with }, fun hfailed => ?_, fun _ => ⟨fun hsome => ?_, fun hended => ?_⟩⟩
        · exact absurd (hfailed.symm.trans (hsession'.trans hsession)) Bool.noConfusion
        · have hnone := finishWrite_pending s none
          rw [show (s.finishWrite none).pending = none from hnone] at hsome
          cases hsome
        · refine (hfinished.due (hclosed'.trans hopen) (hsession'.trans hsession) hended).imp id fun hdue =>
            ⟨hdue, .inl ?_⟩
          exact Nat.succ_pos _
      · rename_i hne
        have hsome : s.pending.isSome = true := by rw [hp]; rfl
        split
        · rename_i hshut
          exact ⟨h, hs, fun _ => ⟨fun _ => .inr hshut,
            fun hlocal => (h.due hopen hsession hlocal).imp id fun hdue => ⟨hdue, .inr hsome⟩⟩⟩
        · rename_i hfree
          have hpos : 0 < s.available o p ∧ s.available o p ≤ p.data.length - p.offset := by
            unfold available
            split
            · rename_i ho
              have := Counters.room_pos (fun hshut => hfree ⟨ho, hshut⟩)
              omega
            · omega
          split
          · rename_i hzero
            omega
          · have hcore := push_core o h hp hopen (min o.frameSize (s.available o p)) (by omega) (by omega)
            refine ⟨hcore, hs, fun _ => ⟨fun _ => .inl (Nat.succ_pos _), fun hlocal => ?_⟩⟩
            exact (hcore.due hopen hsession hlocal).imp id fun hdue => ⟨hdue, .inr rfl⟩

/-! ## A step -/

theorem asyncWrite_inv (h : Inv o s) (data : Bytes) : Inv o (s.asyncWrite o data) := by
  have hreport : ∀ result, Inv o (s.report result) := fun _ =>
    ⟨⟨h.core.bytes, h.core.offset, h.core.rest, h.core.last,
    h.core.requested, h.core.ended, h.core.fin, h.core.enqueued, h.core.closed, h.core.registered⟩, h.session,
    fun hsession => ⟨(h.live hsession).pumped, (h.live hsession).due⟩⟩
  unfold asyncWrite
  split
  · exact hreport _
  · rename_i hopen
    rw [not_or] at hopen
    split
    · exact hreport _
    · rename_i hidle
      have hnone : s.pending = none := by simpa using hidle
      have habsent : Frame.fin ∉ s.frames := fun hmem => hopen.2 (h.core.fin hmem).1
      split
      · exact hreport _
      · have hbytes := h.core.bytes
        rw [rest_eq_nil hnone, append_nil] at hbytes
        refine pumpWrite_inv ⟨?_, fun p hp => ?_, fun hmem => absurd hmem habsent, h.core.last,
          h.core.requested, h.core.ended,
          h.core.fin, h.core.enqueued, fun hclosed => absurd hclosed hopen.1, h.core.registered⟩ h.session
          fun hclosed => absurd hclosed hopen.1
        · show s.framed ++ data = s.owed ++ data
          rw [hbytes]
        · cases hp
          exact Nat.zero_le _

theorem onUpdate_inv (h : Inv o s) (payload : Bytes) : Inv o (s.onUpdate o payload) := by
  unfold onUpdate
  split
  · exact h
  · split
    · exact failSession_inv h.core h.session _
    · rename_i hvalid
      rw [not_or, not_or] at hvalid
      exact pumpWrite_inv ⟨h.core.bytes, h.core.offset, h.core.rest, h.core.last, h.core.requested,
        h.core.ended, h.core.fin,
        h.core.enqueued, h.core.closed, h.core.registered⟩ h.session fun hclosed => absurd hclosed hvalid.2.2

theorem shutdownSend_inv (h : Inv o s) : Inv o (s.shutdownSend o) := by
  unfold shutdownSend
  split
  · exact h
  · rename_i hopen
    rw [not_or] at hopen
    have habsent : Frame.fin ∉ s.frames := fun hmem => hopen.2 (h.core.fin hmem).1
    exact pumpWrite_inv ⟨h.core.bytes, h.core.offset, h.core.rest, h.core.last, fun _ => rfl, fun _ => .inl rfl,
      fun hmem => absurd hmem habsent, fun he =>
      ⟨rfl, (h.core.enqueued he).2⟩, h.core.closed, h.core.registered⟩ h.session
      fun hclosed => absurd hclosed hopen.1

theorem cancelWrite_inv (h : Inv o s) (hmeets : s.Meets .cancel) : Inv o s.cancelWrite := by
  have hcore := finishWrite_core h.core (some .operationAborted)
  obtain ⟨hframes, hlocal, hrequested, henqueued, hsession, hreturns, hclosed⟩ :=
    finishWrite_same s (some .operationAborted)
  unfold cancelWrite
  refine ⟨hcore, fun hfailed => hclosed.trans (h.session (hsession.symm.trans hfailed)),
    fun hlive => ⟨fun hsome => ?_, fun hended => ?_⟩⟩
  · rw [finishWrite_pending] at hsome
    cases hsome
  · unfold FinDue
    rw [hframes, hrequested, henqueued, hreturns]
    refine ((h.live (hsession.symm.trans hlive)).due (hlocal.symm.trans hended)).imp id fun hdue =>
      ⟨hdue.1, .inl ?_⟩
    by_cases hzero : s.returns = 0
    · exact absurd ⟨hdue.1, hdue.2.resolve_left (by omega), hzero⟩ hmeets
    · exact Nat.pos_of_ne_zero hzero

theorem close_inv (h : Inv o s) (hmeets : s.Meets .close) : Inv o s.close := by
  unfold close
  split
  · exact h
  · rename_i hopen
    have hclosing : ({ s with closed := true, localClosed := true }).finishWrite (some .operationAborted) =
        { s.finishWrite (some .operationAborted) with closed := true, localClosed := true } := by
      unfold finishWrite
      dsimp only
      split <;> rfl
    have hcore := finishWrite_core h.core (some .operationAborted)
    have hnone := finishWrite_pending s (some .operationAborted)
    obtain ⟨hframes, hlocal, hrequested, henqueued, hsession, hreturns, -⟩ :=
      finishWrite_same s (some .operationAborted)
    rw [hclosing]
    dsimp only
    split
    · rename_i hnotify
      have habsent : Frame.fin ∉ s.frames :=
        fun hmem => Bool.noConfusion (hnotify.2.symm.trans (h.core.fin hmem).1)
      have hunasked : s.finRequested = false := by
        cases hr : s.finRequested with
        | false => rfl
        | true => exact absurd (hnotify.2.symm.trans (h.core.requested hr)) Bool.noConfusion
      have hmem : Frame.fin ∈ (s.finishWrite (some .operationAborted)).frames ++ [.fin] :=
        mem_append_right _ mem_cons_self
      refine ⟨⟨?_, hcore.offset, fun _ => rest_eq_nil hnone, ?_, fun _ => rfl, fun _ => .inr rfl,
        fun _ => ⟨rfl, .inr (hrequested.trans hunasked)⟩, fun he =>
        ⟨(hcore.enqueued he).1, fun _ => hmem⟩, fun _ => hnone,
        fun _ => rfl⟩, fun _ => rfl, fun _ => ⟨fun hsome => ?_, fun _ => .inl hmem⟩⟩
      · show ((s.finishWrite (some .operationAborted)).frames ++ [Frame.fin]).flatMap Frame.payload ++ _ = _
        rw [flatMap_append]
        show ((s.finishWrite (some .operationAborted)).framed ++ []) ++ _ = _
        rw [append_nil]
        exact hcore.bytes
      · rw [hframes]
        exact snoc_last habsent
      · rw [show (s.finishWrite (some .operationAborted)).pending = none from hnone] at hsome
        cases hsome
    · rename_i hsilent
      refine ⟨⟨hcore.bytes, hcore.offset, hcore.rest, hcore.last, fun _ => rfl, fun _ => .inr rfl,
        fun hmem => ⟨rfl, (hcore.fin hmem).2⟩, hcore.enqueued, fun _ => hnone, fun _ => rfl⟩, fun _ => rfl,
        fun hlive => ⟨fun hsome => ?_, fun _ => ?_⟩⟩
      · rw [show (s.finishWrite (some .operationAborted)).pending = none from hnone] at hsome
        cases hsome
      · have hlive : s.sessionClosed = false := hsession.symm.trans hlive
        have hended : s.localClosed = true := by
          by_contra hnot
          exact hsilent ⟨hlive, by simpa using hnot⟩
        rw [hframes, hrequested, henqueued, hreturns]
        refine ((h.live hlive).due hended).imp id fun hdue => ⟨hdue.1, .inl ?_⟩
        by_cases hzero : s.returns = 0
        · exact absurd ⟨hdue.1, hdue.2.resolve_left (by omega), hzero⟩ hmeets
        · exact Nat.pos_of_ne_zero hzero

theorem pushDone_inv (h : Inv o s) (failed : Bool) : Inv o (s.pushDone o failed) := by
  have hcore : Core { s with outstanding := s.outstanding - 1 } := ⟨h.core.bytes, h.core.offset,
    h.core.rest, h.core.last,
    h.core.requested, h.core.ended, h.core.fin, h.core.enqueued, h.core.closed, h.core.registered⟩
  unfold pushDone
  split
  · exact h
  · dsimp only
    split
    · refine failSession_inv ?_ ?_ _
      · split
        · exact onSessionError_core hcore _
        · exact hcore
      · split
        · exact fun _ => onSessionError_closed _ _
        · exact h.session
    · split
      · rename_i hsome
        refine pumpWrite_inv hcore h.session fun hclosed _ => ?_
        rw [show s.pending = none from h.core.closed hclosed] at hsome
        cases hsome
      · rename_i hnone
        exact ⟨hcore, h.session, fun hsession => ⟨fun hsome => absurd hsome hnone, (h.live hsession).due⟩⟩

theorem handlerReturned_inv (h : Inv o s) (hmeets : s.Meets .handlerReturned) : Inv o s.handlerReturned := by
  have hcore : Core { s with returns := s.returns - 1 } := ⟨h.core.bytes, h.core.offset, h.core.rest,
    h.core.last,
    h.core.requested, h.core.ended, h.core.fin, h.core.enqueued, h.core.closed, h.core.registered⟩
  unfold handlerReturned
  split
  · exact h
  · rename_i hreturns
    refine requestFin_inv hcore h.session (fun hdue => ?_) (fun hsession => (h.live hsession).pumped)
      fun hsession hlocal => ?_
    · by_contra hrest
      exact hmeets ⟨hdue, hrest, Nat.pos_of_ne_zero hreturns⟩
    · exact ((h.live hsession).due hlocal).imp id And.left

theorem step_inv (h : Inv o s) (e : Event) (hmeets : s.Meets e) : Inv o (s.step o e) := by
  cases e with
  | write data => exact asyncWrite_inv h data
  | update payload => exact onUpdate_inv h payload
  | shutdown => exact shutdownSend_inv h
  | cancel => exact cancelWrite_inv h hmeets
  | close => exact close_inv h hmeets
  | pushDone failed => exact pushDone_inv h failed
  | handlerReturned => exact handlerReturned_inv h hmeets
  | sessionFailed => exact failSession_inv h.core h.session _

theorem inv_start (o : Options) : Inv o {} where
  core := ⟨rfl, fun p hp => (nomatch hp), nofun, fun before after heq => by simp at heq,
    nofun, nofun, nofun, nofun, nofun,
    nofun⟩
  session h := nomatch h
  live _ := ⟨nofun, nofun⟩

end StreamState

theorem not_halfClosed_step {o : Options} {s : StreamState} (h : s.Inv o) (e : Event) (hmeets : ¬ s.Meets e) :
    ¬ (s.step o e).HalfClosed o := by
  -- what a FIN that is due says of the state
  have hdue : s.FinDue → s.pending.isSome = true →
      Frame.fin ∉ s.frames ∧ s.localClosed = true ∧ s.closed = false ∧ s.sessionClosed = false := by
    intro hfin hsome
    have hopen : s.closed = false := by
      cases hclosed : s.closed with
      | false => rfl
      | true =>
        rw [h.core.closed hclosed] at hsome
        cases hsome
    refine ⟨fun hmem => ?_, h.core.requested hfin.1, hopen, ?_⟩
    · rcases (h.core.fin hmem).2 with henqueued | hrequested
      · exact Bool.noConfusion (henqueued.symm.trans hfin.2)
      · exact Bool.noConfusion (hfin.1.symm.trans hrequested)
    · cases hsession : s.sessionClosed with
      | false => rfl
      | true => exact absurd (hopen.symm.trans (h.session hsession)) Bool.noConfusion
  cases e with
  | cancel =>
    obtain ⟨hfin, hsome, hreturns⟩ := not_not.1 hmeets
    obtain ⟨habsent, hlocal, -, hsession⟩ := hdue hfin hsome
    obtain ⟨hframes, hlocal', -, -, hsession', hreturns', -⟩ :=
      StreamState.finishWrite_same s (some .operationAborted)
    intro hpromise
    have hcomes := hpromise.comes (hlocal'.trans hlocal) (hsession'.trans hsession)
    rw [show (s.step o .cancel).frames = s.frames from hframes] at hcomes
    rcases hcomes with hmem | hreturned | ⟨hpending, -⟩
    · exact habsent hmem
    · rw [show (s.step o .cancel).returns = s.returns from hreturns', hreturns] at hreturned
      exact absurd hreturned (by decide)
    · rw [show (s.step o .cancel).pending = none from StreamState.finishWrite_pending s _] at hpending
      cases hpending
  | close =>
    obtain ⟨hfin, hsome, hreturns⟩ := not_not.1 hmeets
    obtain ⟨habsent, hlocal, hopen, hsession⟩ := hdue hfin hsome
    have hclosing : s.step o .close = { ({ s with closed := true, localClosed := true }).finishWrite
      (some .operationAborted) with
        registered := false } := by
      show s.close = _
      unfold StreamState.close
      rw [if_neg (by simp [hopen])]
      dsimp only
      rw [if_neg (fun hnotify => Bool.noConfusion (hnotify.2.symm.trans hlocal))]
    obtain ⟨hframes, hlocal', -, -, hsession', hreturns', -⟩ :=
      StreamState.finishWrite_same { s with closed := true, localClosed := true } (some .operationAborted)
    intro hpromise
    rw [hclosing] at hpromise
    rcases hpromise.comes hlocal' (hsession'.trans hsession) with hmem | hreturned | ⟨hpending, -⟩
    · rw [hframes] at hmem
      exact habsent hmem
    · have hreturned : 0 < s.returns := Nat.lt_of_lt_of_eq hreturned hreturns'
      omega
    · rw [StreamState.finishWrite_pending] at hpending
      cases hpending
  | handlerReturned =>
    obtain ⟨hfin, hrest, hreturns⟩ := not_not.1 hmeets
    obtain ⟨p, hp, -⟩ := pending_of_rest hrest
    obtain ⟨habsent, -, hopen, hsession⟩ := hdue hfin (by rw [hp]; rfl)
    have hqueued : s.step o .handlerReturned =
        { s with returns := s.returns - 1, finEnqueued := true, frames := s.frames ++ [.fin] } := by
      show s.handlerReturned = _
      unfold StreamState.handlerReturned StreamState.requestFin StreamState.enqueueFin
      rw [if_neg (by omega)]
      exact (if_pos hfin).trans (if_neg (by simp [hsession]))
    intro hpromise
    rw [hqueued] at hpromise
    have hbehind := hpromise.behind (mem_append_right _ mem_cons_self)
    have hbehind : (s.frames ++ [Frame.fin]).flatMap Frame.payload = s.owed := hbehind
    rw [flatMap_append, ← h.core.bytes] at hbehind
    have hlength := congrArg List.length hbehind
    simp only [StreamState.framed, flatMap_singleton, Frame.payload, length_append, length_nil] at hlength
    have hpos := length_pos_iff.2 hrest
    omega
  | write data => exact absurd trivial hmeets
  | update payload => exact absurd trivial hmeets
  | shutdown => exact absurd trivial hmeets
  | pushDone failed => exact absurd trivial hmeets
  | sessionFailed => exact absurd trivial hmeets

/-- A FIN that waits for a write is lost when the write is cancelled: nothing is to come, and closing does
not send it. -/
theorem cancelled_write_loses_fin :
    let o : Options := ⟨1, 1, .inl rfl, by decide, by decide⟩
    let s := run o [.write [1, 2], .shutdown, .cancel, .pushDone false, .pushDone false, .close]
    s.frames = [.push [1], .push [2]] ∧ s.sessionClosed = false ∧ s.outstanding = 0 ∧ s.returns = 0 ∧
    ¬ s.HalfClosed o := by
  refine ⟨rfl, rfl, rfl, rfl, fun h => ?_⟩
  rcases h.comes rfl rfl with hmem | hreturns | ⟨hpending, -⟩
  · exact absurd hmem (by decide)
  · exact absurd hreturns (by decide)
  · exact absurd hpending (by decide)

/-- **Every state of a run keeps what is promised of the FIN if and only if** every step of it meets the
condition. -/
theorem halfClosed_iff_meets (o : Options) (events : List Event) :
    (∀ before, before <+: events → (run o before).HalfClosed o) ↔
    Runs.Along (StreamState.step o) StreamState.Meets {} events :=
  Runs.forall_prefix_iff_along (P := StreamState.Inv o) (fun _ h => h.halfClosed)
    (fun _ e h hmeets => StreamState.step_inv h e hmeets)
    (fun _ e h hmeets => not_halfClosed_step h e hmeets) (StreamState.inv_start o) events

end ClashNative.Kcptun.Mux
