import ClashNative.SmuxSendWindow
/-!
# WebSocketMuxEnds — one End behind every data frame

The close frame of a `WebSocketMuxStreamState` is its last frame and is queued at the latest when the
stream is closed.  Who queues it looks at `end_enqueued_` alone: a handler that has put a new write before
it, and an error that closes the stream without its session, are not seen.
-/
namespace ClashNative.Kcptun.WebSocketMux

open List

open Mux (PendingWrite StreamError)

/-- A stream of the session; `opened`: its open frame was written, and it was handed out. -/
structure Stream where
  half : StreamState := {}
  opened : Bool := false

/-- What happens to a stream: `openCancelled` is `WebSocketMuxSession::cancel` while the open frame waits,
`remoteError` a v2ray frame with the status `kV2rayError`. -/
inductive StreamEvent
  | opened
  | openCancelled
  | remoteEnd
  | remoteError
  | stream (e : Event)
  deriving DecidableEq, Repr

def Event.ofOwner : Event → Bool
  | .write _ | .shutdown | .cancel | .close => true
  | _ => false

namespace Stream

/-- `cancel` of an open that is pending: `streams_.erase`, and `on_open_error`. -/
def openCancelled (s : Stream) : Stream :=
  if s.opened ∨ s.half.closed then s
  else { s with half := ({ s.half with registered := false } : StreamState).onSessionError .operationAborted }

def remoteError (s : Stream) : Stream :=
  if s.half.registered ∧ s.half.sessionClosed = false then
    { s with half := s.half.onSessionError .session } else s

def step (o : WebSocketMuxOptions) (s : Stream) : StreamEvent → Stream
  | .opened => if s.half.closed then s else { s with opened := true }
  | .openCancelled => s.openCancelled
  | .remoteEnd => s
  | .remoteError => s.remoteError
  | .stream e => if e.ofOwner ∧ s.opened = false then s else { s with half := s.half.step o e }

end Stream

def runStream (o : WebSocketMuxOptions) (events : List StreamEvent) : Stream :=
  Runs.run (Stream.step o) {} events

namespace StreamState

/-- **What is promised of the close frame**: it is the last frame, with nothing of a write left behind it,
and a stream that is closed has queued it, unless its session has failed. -/
structure Ends (s : StreamState) : Prop where
  last : ∀ before after, s.frames = before ++ .close :: after → after = []
  behind : .close ∈ s.frames → s.rest = []
  sent : s.closed = true → s.sessionClosed = false → .close ∈ s.frames

def EndDue (s : StreamState) : Prop := s.endRequested = true ∧ s.endEnqueued = false

structure Core (s : StreamState) : Prop where
  offset : ∀ p, s.pending = some p → p.offset ≤ p.data.length
  rest : .close ∈ s.frames → s.rest = []
  last : ∀ before after, s.frames = before ++ .close :: after → after = []
  requested : s.endRequested = true → s.localClosed = true
  ended : .close ∈ s.frames → s.localClosed = true ∧ s.endEnqueued = true
  enqueued : s.endEnqueued = true → s.sessionClosed = false → .close ∈ s.frames
  closed : s.closed = true → s.pending = none
  sent : s.closed = true → s.sessionClosed = false → .close ∈ s.frames
  gone : s.registered = false ∨ s.session = false → s.closed = true
  failed : s.sessionClosed = true → s.closed = true

variable {o : WebSocketMuxOptions} {s : StreamState}

theorem Core.ends (h : Core s) : Ends s := ⟨h.last, h.rest, h.sent⟩

theorem rest_eq_nil (h : s.pending = none) : s.rest = [] := by
  unfold rest
  rw [h]
  rfl

variable {p : PendingWrite}

theorem rest_eq (h : s.pending = some p) : s.rest = p.rest := by
  unfold rest
  rw [h]
  rfl

/-! ## The moves -/

theorem finishWrite_eq (s : StreamState) (error : Option StreamError) :
    ∃ results, s.finishWrite error = { s with pending := none, results := results } := by
  unfold finishWrite
  split
  · rename_i hnone
    exact ⟨s.results, by rw [← hnone]⟩
  · exact ⟨_, rfl⟩

theorem onSessionError_eq (hopen : s.closed = false) (error : StreamError) :
    ∃ results, s.onSessionError error =
      { s with closed := true, pending := none, results := results, session := false } := by
  obtain ⟨results, hresults⟩ := finishWrite_eq { s with closed := true } (some error)
  refine ⟨results, ?_⟩
  unfold onSessionError
  rw [if_neg (by simp [hopen]), hresults]

theorem finishWrite_core (h : Core s) (error : Option StreamError) : Core (s.finishWrite error) := by
  obtain ⟨results, hresults⟩ := finishWrite_eq s error
  rw [hresults]
  exact { h with offset := fun p hp => (nomatch hp), rest := fun _ => rfl, closed := fun _ => rfl }

theorem onSessionError_core (h : Core s) (error : StreamError) (hsent : s.sessionClosed = false →
    .close ∈ s.frames) :
    Core (s.onSessionError error) := by
  by_cases hclosed : s.closed = true
  · unfold onSessionError
    rw [if_pos hclosed]
    exact h
  · obtain ⟨results, hresults⟩ := onSessionError_eq (by simpa using hclosed) error
    rw [hresults]
    exact ⟨fun p hp => (nomatch hp), fun _ => rfl, h.last, h.requested, h.ended, h.enqueued, fun _ => rfl,
      fun _ => hsent,
      fun _ => rfl, fun _ => rfl⟩

theorem failSession_core (h : Core s) (error : StreamError) : Core (s.failSession error) := by
  unfold failSession
  split
  · exact h
  · dsimp only
    split
    · by_cases hclosed : s.closed = true
      · unfold onSessionError
        rw [if_pos hclosed]
        exact { h with enqueued := nofun, sent := nofun, gone := fun _ => hclosed, failed := fun _ => hclosed }
      · obtain ⟨results, hresults⟩ := onSessionError_eq
          (s := ({ s with sessionClosed := true, registered := false } : StreamState))
          (by simpa using hclosed) error
        rw [hresults]
        exact ⟨fun p hp => (nomatch hp), fun _ => rfl, h.last, h.requested, h.ended, nofun,
          fun _ => rfl, nofun, fun _ => rfl, fun _ => rfl⟩
    · rename_i hgone
      have hclosed : s.closed = true := h.gone (.inl (by simpa using hgone))
      exact { h with enqueued := nofun, sent := nofun, failed := fun _ => hclosed }

theorem requestEnd_core (h : Core s) (hrest : s.EndDue → s.rest = []) : Core s.requestEnd := by
  unfold requestEnd
  split
  · rename_i hdue
    have habsent : Frame.close ∉ s.frames := fun hmem => Bool.noConfusion ((h.ended hmem).2.symm.trans hdue.2)
    have hmem : Frame.close ∈ s.frames ++ [.close] := mem_append_right _ mem_cons_self
    unfold enqueueFrame
    split
    · rename_i hfailed
      refine { h with ended := fun hin => absurd hin habsent, enqueued := fun _ hlive => ?_ }
      exact absurd (hfailed.symm.trans hlive) Bool.noConfusion
    · exact ⟨h.offset, fun _ => hrest hdue, snoc_last habsent, h.requested,
        fun _ => ⟨h.requested hdue.1, rfl⟩, fun _ _ => hmem,
        h.closed, fun _ _ => hmem, h.gone, h.failed⟩
  · exact h

theorem push_core (h : Core s) (hp : s.pending = some p) (hopen : s.closed = false) (count : Nat)
    (hlt : p.offset < p.data.length) (hcount : p.offset + count ≤ p.data.length) : Core (s.push o p count) := by
  have hlive : s.sessionClosed = false := by
    cases hfailed : s.sessionClosed with
    | false => rfl
    | true => exact absurd ((h.failed hfailed).symm.trans hopen) Bool.noConfusion
  have habsent : Frame.close ∉ s.frames := fun hmem => by
    have hrest := h.rest hmem
    rw [rest_eq hp] at hrest
    exact absurd (drop_eq_nil_iff.1 hrest) (Nat.not_le.2 hlt)
  have hnone : Frame.close ∉ s.frames ++ [.data (p.rest.take count)] := fun hin =>
    (mem_append.1 hin).elim habsent fun hin => nomatch mem_singleton.1 hin
  unfold push
  rw [if_neg (by simp [hlive])]
  refine ⟨fun q hq => ?_, fun hin => absurd hin hnone, fun before after heq => absurd ?_ hnone, h.requested,
    fun hin => absurd hin hnone, fun henqueued hlive => absurd (h.enqueued henqueued hlive) habsent,
    fun hclosed => absurd (hclosed.symm.trans hopen) Bool.noConfusion,
    fun hclosed => absurd (hclosed.symm.trans hopen) Bool.noConfusion, h.gone, h.failed⟩
  · cases hq
    exact hcount
  · rw [show s.frames ++ [.data (p.rest.take count)] = before ++ .close :: after from heq]
    exact mem_append_right _ mem_cons_self

theorem pumpWrite_core (h : Core s) : Core (s.pumpWrite o) := by
  unfold pumpWrite
  by_cases hdone : s.closed = true ∨ s.session = false
  · rw [if_pos hdone]
    exact h
  · rw [if_neg hdone]
    rw [not_or] at hdone
    split
    · rename_i hnone
      exact requestEnd_core h fun _ => rest_eq_nil hnone
    · rename_i p hp
      split
      · have hfinished := finishWrite_core h none
        exact { hfinished with }
      · rename_i hne
        split
        · exact h
        · split
          · exact h
          · have hleft : s.available o p ≤ p.data.length - p.offset := by
              unfold available
              split
              · exact Nat.min_le_left _ _
              · exact Nat.le_refl _
            exact push_core h hp (by simpa using hdone.1) _ (by omega) (by omega)

/-! ## The events of the sending half -/

theorem writeSome_core (h : Core s) (data : Mux.Bytes) : Core (s.writeSome o data) := by
  have hreport : ∀ result, Core (s.report result) := fun _ =>
    { h with }
  unfold writeSome
  split
  · exact hreport _
  · rename_i hopen
    rw [not_or] at hopen
    have habsent : Frame.close ∉ s.frames := fun hmem => hopen.2 (h.ended hmem).1
    split
    · exact hreport _
    · refine pumpWrite_core ⟨fun p hp => ?_, fun hmem => absurd hmem habsent, h.last, h.requested,
        h.ended, h.enqueued,
        fun hclosed => absurd hclosed hopen.1, h.sent, h.gone, h.failed⟩
      cases hp
      exact Nat.zero_le _

theorem shutdownSend_core (h : Core s) : Core (s.shutdownSend o) := by
  unfold shutdownSend
  split
  · exact h
  · rename_i hopen
    rw [not_or] at hopen
    have habsent : Frame.close ∉ s.frames := fun hmem => hopen.2 (h.ended hmem).1
    exact pumpWrite_core { h with requested := fun _ => rfl, ended := fun hmem => absurd hmem habsent }

theorem close_core (h : Core s) : Core s.close := by
  unfold close
  split
  · exact h
  · rename_i hopen
    have hsession : s.session = true := by
      by_contra hgone
      exact hopen (h.gone (.inr (by simpa using hgone)))
    have hlive : s.sessionClosed = false := by
      by_contra hfailed
      exact hopen (h.failed (by simpa using hfailed))
    obtain ⟨results, hresults⟩ := finishWrite_eq
      ({ s with closed := true, localClosed := true } : StreamState) (some .operationAborted)
    rw [hresults]
    rw [if_pos hsession]
    unfold streamClose
    dsimp only
    split
    · rename_i hunsent
      have habsent : Frame.close ∉ s.frames :=
        fun hmem => Bool.noConfusion ((h.ended hmem).2.symm.trans hunsent.2)
      have hmem : Frame.close ∈ s.frames ++ [.close] := mem_append_right _ mem_cons_self
      unfold enqueueFrame
      rw [if_neg (by simp [hlive])]
      exact ⟨fun p hp => (nomatch hp), fun _ => rfl, snoc_last habsent, fun _ => rfl, fun _ => ⟨rfl, rfl⟩,
        fun _ _ => hmem,
        fun _ => rfl, fun _ _ => hmem, fun _ => rfl, fun _ => rfl⟩
    · rename_i hsent
      have henqueued : s.endEnqueued = true := by
        by_contra hunsent
        exact hsent ⟨hlive, by simpa using hunsent⟩
      exact ⟨fun p hp => (nomatch hp), fun _ => rfl, h.last, fun _ => rfl, fun hmem => ⟨rfl, henqueued⟩,
        h.enqueued, fun _ => rfl,
        fun _ => h.enqueued henqueued, fun _ => rfl, fun _ => rfl⟩

theorem onUpdate_core (h : Core s) (payload : Mux.Bytes) : Core (s.onUpdate o payload) := by
  unfold onUpdate
  split
  · exact h
  · split
    · split
      · exact failSession_core h _
      · exact h
    · exact pumpWrite_core { h with }

theorem dataDone_core (h : Core s) (failed : Bool) : Core (s.dataDone o failed) := by
  have hdone : Core ({ s with outstanding := s.outstanding - 1 } : StreamState) :=
    { h with }
  unfold dataDone
  split
  · exact h
  · dsimp only
    split
    · split
      · rename_i hsome
        have hopen : s.closed = false := by
          cases hclosed : s.closed with
          | false => rfl
          | true =>
            rw [show s.pending = none from h.closed hclosed] at hsome
            cases hsome
        have hlive : s.sessionClosed = false := by
          by_contra hfailed
          exact Bool.noConfusion ((h.failed (by simpa using hfailed)).symm.trans hopen)
        obtain ⟨results, hresults⟩ := finishWrite_eq ({ s with outstanding := s.outstanding -
            1 } : StreamState) (some .session)
        obtain ⟨results', hresults'⟩ := onSessionError_eq
          (s := ({ s with outstanding := s.outstanding - 1, pending := none, results := results } :
            StreamState)) hopen .session
        rw [hresults, hresults']
        unfold failSession
        dsimp only
        rw [if_neg (by simp [hlive])]
        split
        · exact ⟨fun p hp => (nomatch hp), fun _ => rfl, h.last, h.requested, h.ended, nofun,
            fun _ => rfl, nofun, fun _ => rfl, fun _ => rfl⟩
        · exact ⟨fun p hp => (nomatch hp), fun _ => rfl, h.last, h.requested, h.ended, nofun,
            fun _ => rfl, nofun, fun _ => rfl, fun _ => rfl⟩
      · exact failSession_core hdone _
    · split
      · exact pumpWrite_core hdone
      · exact hdone

theorem handlerReturned_core (h : Core s) (hmeets : ¬ (s.EndDue ∧ s.rest ≠ [] ∧ 0 < s.returns)) :
    Core s.handlerReturned := by
  unfold handlerReturned
  split
  · exact h
  · rename_i hreturns
    have hreturned : Core ({ s with returns := s.returns - 1 } : StreamState) :=
      { h with }
    refine requestEnd_core hreturned fun hdue => ?_
    by_contra hrest
    exact hmeets ⟨hdue, hrest, Nat.pos_of_ne_zero hreturns⟩

end StreamState

namespace Stream

/-- **The condition**: no open is cancelled while it is pending, and no v2ray error frame comes for an
open stream, unless its close frame is queued already; and no handler returns with a close frame asked for
and a new write not all in frames. -/
def Meets (s : Stream) : StreamEvent → Prop
  | .openCancelled => s.opened = true ∨ s.half.closed = true ∨ s.half.endEnqueued = true
  | .remoteError =>
    s.half.registered = true → s.half.sessionClosed = false → s.half.closed = false → s.half.endEnqueued = true
  | .stream .handlerReturned => ¬ (s.half.EndDue ∧ s.half.rest ≠ [] ∧ 0 < s.half.returns)
  | _ => True

variable {o : WebSocketMuxOptions} {s : Stream}

theorem openCancelled_core (h : s.half.Core) (hmeets : s.Meets .openCancelled) : s.openCancelled.half.Core := by
  unfold openCancelled
  split
  · exact h
  · rename_i hpending
    rw [not_or] at hpending
    have henqueued : s.half.endEnqueued = true := (hmeets.resolve_left hpending.1).resolve_left hpending.2
    obtain ⟨results, hresults⟩ := StreamState.onSessionError_eq
      (s := ({ s.half with registered := false } : StreamState))
      (by simpa using hpending.2) .operationAborted
    rw [hresults]
    exact ⟨fun p hp => (nomatch hp), fun _ => rfl, h.last, h.requested, h.ended, h.enqueued, fun _ => rfl,
      fun _ => h.enqueued henqueued, fun _ => rfl, fun _ => rfl⟩

theorem remoteError_core (h : s.half.Core) (hmeets : s.Meets .remoteError) : s.remoteError.half.Core := by
  unfold remoteError
  split
  · rename_i hknown
    by_cases hclosed : s.half.closed = true
    · exact StreamState.onSessionError_core h _ fun hlive => h.sent hclosed hlive
    · exact StreamState.onSessionError_core h _ fun hlive =>
        h.enqueued (hmeets hknown.1 hknown.2 (by simpa using hclosed)) hlive
  · exact h

theorem step_core (h : s.half.Core) (e : StreamEvent) (hmeets : s.Meets e) : (s.step o e).half.Core := by
  cases e with
  | opened =>
    show (if s.half.closed then s else { s with opened := true }).half.Core
    split <;> exact h
  | openCancelled => exact openCancelled_core h hmeets
  | remoteEnd => exact h
  | remoteError => exact remoteError_core h hmeets
  | stream e =>
    show (if e.ofOwner ∧ s.opened = false then s else { s with half := s.half.step o e }).half.Core
    split
    · exact h
    · cases e with
      | write data => exact StreamState.writeSome_core h data
      | update payload => exact StreamState.onUpdate_core h payload
      | shutdown => exact StreamState.shutdownSend_core h
      | cancel => exact StreamState.finishWrite_core h _
      | close => exact StreamState.close_core h
      | dataDone failed => exact StreamState.dataDone_core h failed
      | handlerReturned => exact StreamState.handlerReturned_core h hmeets
      | sessionFailed => exact StreamState.failSession_core h _

theorem core_start : ({} : Stream).half.Core where
  offset p hp := nomatch hp
  rest hmem := nomatch hmem
  last before after heq := by
    have hnil : ([] : List Frame) = before ++ .close :: after := heq
    simp at hnil
  requested h := nomatch h
  ended hmem := nomatch hmem
  enqueued h := nomatch h
  closed h := nomatch h
  sent h := nomatch h
  gone h := h.elim (nofun) (nofun)
  failed h := nomatch h

theorem not_ends_step (h : s.half.Core) (e : StreamEvent) (hmeets : ¬ s.Meets e) : ¬ (s.step o e).half.Ends := by
  have habsent : s.half.endEnqueued = false → Frame.close ∉ s.half.frames := fun hunsent hmem =>
    Bool.noConfusion ((h.ended hmem).2.symm.trans hunsent)
  have hlive : s.half.closed = false → s.half.sessionClosed = false := by
    intro hopen
    by_contra hfailed
    exact Bool.noConfusion ((h.failed (by simpa using hfailed)).symm.trans hopen)
  cases e with
  | openCancelled =>
    have hpending : s.opened = false ∧ s.half.closed = false ∧ s.half.endEnqueued = false := by
      simpa [Meets, not_or] using hmeets
    obtain ⟨results, hresults⟩ := StreamState.onSessionError_eq (s := ({
      s.half with registered := false } : StreamState))
      hpending.2.1 .operationAborted
    have hstep : (s.step o .openCancelled).half = { s.half with
        registered := false, closed := true, pending := none, results := results, session := false } := by
      show s.openCancelled.half = _
      unfold openCancelled
      rw [hpending.1, hpending.2.1,
        if_neg (fun hnot => hnot.elim Bool.noConfusion Bool.noConfusion), hresults]
    intro hpromise
    rw [hstep] at hpromise
    exact habsent hpending.2.2 (hpromise.sent rfl (hlive hpending.2.1))
  | remoteError =>
    obtain ⟨hregistered, hmeets⟩ := Classical.not_imp.1 hmeets
    obtain ⟨hsession, hmeets⟩ := Classical.not_imp.1 hmeets
    obtain ⟨hopen, hunsent⟩ := Classical.not_imp.1 hmeets
    obtain ⟨results, hresults⟩ := StreamState.onSessionError_eq hopen .session
    have hstep : (s.step o .remoteError).half = { s.half with
        closed := true, pending := none, results := results, session := false } := by
      show s.remoteError.half = _
      unfold remoteError
      rw [if_pos ⟨hregistered, hsession⟩]
      exact hresults
    intro hpromise
    rw [hstep] at hpromise
    exact habsent (by simpa using hunsent) (hpromise.sent rfl hsession)
  | stream e =>
    cases e with
    | handlerReturned =>
      obtain ⟨hdue, hrest, hreturns⟩ := not_not.1 hmeets
      have hopen : s.half.closed = false := by
        cases hclosed : s.half.closed with
        | false => rfl
        | true => exact absurd (StreamState.rest_eq_nil (h.closed hclosed)) hrest
      have hstep : (s.step o (.stream .handlerReturned)).half = { s.half with
          returns := s.half.returns - 1, endEnqueued := true, frames := s.half.frames ++ [.close] } := by
        show s.half.handlerReturned = _
        unfold StreamState.handlerReturned StreamState.requestEnd StreamState.enqueueFrame
        rw [if_neg (by omega)]
        exact (if_pos hdue).trans (if_neg (by simp [hlive hopen]))
      intro hpromise
      rw [hstep] at hpromise
      exact hrest (hpromise.behind (mem_append_right _ mem_cons_self))
    | write data => exact absurd trivial hmeets
    | update payload => exact absurd trivial hmeets
    | shutdown => exact absurd trivial hmeets
    | cancel => exact absurd trivial hmeets
    | close => exact absurd trivial hmeets
    | dataDone failed => exact absurd trivial hmeets
    | sessionFailed => exact absurd trivial hmeets
  | opened => exact absurd trivial hmeets
  | remoteEnd => exact absurd trivial hmeets

end Stream

/-- A write handler writes three bytes and shuts the stream down before they are in frames: its close
frame is queued in front of the last one. -/
theorem close_overtakes_data :
    let o : WebSocketMuxOptions := ⟨false, 1, by decide, by decide⟩
    let s := runStream o [.opened, .stream (.write [9]), .stream (.dataDone false),
      .stream (.write [1, 2, 3]), .stream .shutdown,
      .stream .handlerReturned, .stream (.dataDone false), .stream .close]
    s.half.frames = [.data [9], .data [1], .data [2], .close, .data [3]] ∧ s.half.sessionClosed = false ∧
    ¬ s.half.Ends := by
  refine ⟨by decide, rfl, fun h => ?_⟩
  exact absurd (h.last [.data [9], .data [1], .data [2]] [.data [3]] (by decide)) (by decide)

/-- **In every state of a run the close frame is the last frame, behind all data, and is queued once the
stream is closed, if and only if** every step meets the condition. -/
theorem ends_iff_meets (o : WebSocketMuxOptions) (events : List StreamEvent) :
    (∀ before, before <+: events → (runStream o before).half.Ends) ↔
    Runs.Along (Stream.step o) Stream.Meets {} events :=
  Runs.forall_prefix_iff_along (P := fun s : Stream => s.half.Core) (fun _ h => h.ends)
    (fun _ e h hmeets => Stream.step_core h e hmeets)
    (fun _ e h hmeets => Stream.not_ends_step h e hmeets) Stream.core_start events

end ClashNative.Kcptun.WebSocketMux
