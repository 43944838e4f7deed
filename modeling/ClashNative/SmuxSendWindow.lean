import ClashNative.SmuxStreams
/-!
# SmuxSendWindow — no sender overruns its peer's window

Every sender keeps the counters of its window (`SendWindow.Counters.Of`), and puts bytes into a frame only
where it has room. A write that the window alone holds up goes on with the update that opens it.
-/
namespace ClashNative.Kcptun

open List

open SendWindow (Entry Counters total Respected)
open Mux (Options PendingWrite StreamError initialPeerWindow)

def Opens (history : List Entry) (payload : Mux.Bytes) : Prop :=
  payload.length = 8 ∧ ((total history : Int) - (Mux.getU32 payload).toNat) % 2 ^ 32 <
  (Mux.getU32 (payload.drop 4)).toNat

variable {c : Counters} {payload : Mux.Bytes} {history : List Entry}

theorem Opens.not_shut (h : Opens history payload)
    (hc : Counters.Of (0, initialPeerWindow) c history) :
    ¬ (c.update (Mux.getU32 payload) (Mux.getU32 (payload.drop 4))).Shut := by
  rw [(hc.update _ _).shut_iff]
  exact Int.not_le.2 h.2

theorem Opens.room_pos (h : Opens history payload)
    (hc : Counters.Of (0, initialPeerWindow) c history) {p : PendingWrite} (hlt : p.offset < p.data.length) :
    0 < min (p.data.length - p.offset) (c.update (Mux.getU32 payload) (Mux.getU32 (payload.drop 4))).room :=
  Nat.lt_min.2 ⟨Nat.sub_pos_of_lt hlt, Counters.room_pos (h.not_shut hc)⟩

theorem pending_of_rest {pending : Option PendingWrite} (h : (pending.map PendingWrite.rest).getD [] ≠ []) :
    ∃ p, pending = some p ∧ p.offset < p.data.length := by
  cases pending with
  | none => exact absurd rfl h
  | some p => exact ⟨p, rfl, Nat.not_le.1 fun hle => h (drop_eq_nil_of_le hle)⟩

/-! ### A window, and what goes into frames -/

/-- The window of a stream, what it has put into frames, and its write. -/
structure Sender where
  window : Counters
  history : List Entry
  carried : Mux.Bytes
  pending : Option PendingWrite

namespace Sender

structure Keeps (d d' : Sender) : Prop where
  window : d'.window = d.window
  history : d'.history = d.history
  carried : d'.carried = d.carried
  pending : d'.pending = none ∨ d'.pending = d.pending

structure Windowed (v2 : Prop) (d : Sender) : Prop where
  window : v2 → Counters.Of (0, initialPeerWindow) d.window d.history
  carried : d.carried.length = total d.history
  offset : ∀ p, d.pending = some p → p.offset ≤ p.data.length

variable {v2 : Prop} {d d' d'' : Sender}

theorem Keeps.refl (d : Sender) : Keeps d d := ⟨rfl, rfl, rfl, Or.inr rfl⟩

theorem Keeps.finished (d : Sender) : Keeps d { d with pending := none } := ⟨rfl, rfl, rfl, Or.inl rfl⟩

variable {α : Type}

theorem carried_snoc {payload : α → Mux.Bytes} {frames : List α} {f : α} {sent : Mux.Bytes}
    (hf : payload f = sent) :
    (frames ++ [f]).flatMap payload = frames.flatMap payload ++ sent := by
  rw [flatMap_append, flatMap_singleton, hf]

theorem Keeps.empty {payload : α → Mux.Bytes} {frames : List α} {f : α} (hf : payload f = []) {window : Counters}
    {history : List Entry} {pending : Option PendingWrite} :
    Keeps ⟨window, history, frames.flatMap payload, pending⟩ ⟨window, history,
      (frames ++ [f]).flatMap payload, pending⟩ :=
  ⟨rfl, rfl, (carried_snoc hf).trans (append_nil _), .inr rfl⟩

theorem Keeps.trans (h : Keeps d d') (h' : Keeps d' d'') : Keeps d d'' where
  window := h'.window.trans h.window
  history := h'.history.trans h.history
  carried := h'.carried.trans h.carried
  pending := h'.pending.elim .inl fun heq => h.pending.imp heq.trans heq.trans

theorem Keeps.windowed (h : Keeps d d') (hd : Windowed v2 d) : Windowed v2 d' where
  window hv2 := by
    rw [h.window, h.history]
    exact hd.window hv2
  carried := by
    rw [h.carried, h.history]
    exact hd.carried
  offset p hp := by
    rcases h.pending with hnone | heq
    · rw [hnone] at hp
      cases hp
    · exact hd.offset p (heq.symm.trans hp)

namespace Windowed

theorem start : Windowed v2 ⟨{ window := initialPeerWindow }, [], [], none⟩ :=
  ⟨fun _ => Counters.Of.start _, rfl, fun _ hp => nomatch hp⟩

theorem write (hd : Windowed v2 d) (data : Mux.Bytes) : Windowed v2
    { d with pending := some { data := data } } := by
  refine { hd with offset := fun p hp => ?_ }
  cases hp
  exact Nat.zero_le _

theorem update (hd : Windowed v2 d) (consumed window : UInt32) :
    Windowed v2 { d with window := d.window.update consumed window, history := .update consumed window
      :: d.history } :=
  { hd with window := fun hv2 => (hd.window hv2).update _ _ }

theorem push [Decidable v2] {p : PendingWrite} {count : Nat} (hd : Windowed v2 d) (hp : d.pending = some p)
    (hopen : ¬ (v2 ∧ d.window.Shut))
    (hcount : count ≤ if v2 then min (p.data.length - p.offset) d.window.room else p.data.length - p.offset)
    {carried : Mux.Bytes} (hcarried : carried = d.carried ++ p.rest.take count) :
    Windowed v2 ⟨if v2 then d.window.send count else d.window, .sent count :: d.history, carried,
      some { p with offset := p.offset + count }⟩ := by
  have hleft : count ≤ p.data.length - p.offset := by
    split at hcount
    · exact Nat.le_trans hcount (Nat.min_le_left _ _)
    · exact hcount
  refine ⟨fun hv2 => ?_, ?_, fun q hq => ?_⟩
  · rw [if_pos hv2] at hcount ⊢
    exact (hd.window hv2).send (fun hshut => hopen ⟨hv2, hshut⟩) (Nat.le_trans hcount (Nat.min_le_right _ _))
  · have hrest : count ≤ p.rest.length := by
      unfold PendingWrite.rest
      rw [length_drop]
      exact hleft
    unfold total
    rw [hcarried, length_append, hd.carried, length_take, Nat.min_eq_left hrest]
  · cases hq
    have := hd.offset p hp
    exact (Nat.add_le_add_left hleft _).trans_eq (Nat.add_sub_cancel' this)

end Windowed

end Sender

theorem snoc_last {α : Type} {x : α} {frames : List α} (h : x ∉ frames) (before after : List α)
    (heq : frames ++ [x] = before ++ x :: after) : after = [] := by
  rcases append_eq_append_iff.1 heq with ⟨middle, hbefore, hafter⟩ | ⟨middle, hframes, hmiddle⟩
  · cases middle with
    | nil =>
      cases hafter
      rfl
    | cons f middle =>
      have := congrArg List.length hafter
      simp at this
  · cases middle with
    | nil =>
      cases hmiddle
      rfl
    | cons f middle =>
      rw [cons_append, List.cons.injEq] at hmiddle
      refine absurd ?_ h
      rw [hframes, hmiddle.1]
      exact mem_append_right _ mem_cons_self

/-! ## `KcptunMuxStreamState` -/

namespace Mux
namespace StreamState

def sender (s : StreamState) : Sender := ⟨s.window, s.history, s.frames.flatMap Frame.payload, s.pending⟩

structure Keeps (s s' : StreamState) : Prop where
  sender : s.sender.Keeps s'.sender
  closed : s.closed = true → s'.closed = true
  registered : s'.registered = false → s.registered = false ∨ s'.closed = true

structure Windowed (o : Options) (s : StreamState) : Prop where
  sender : s.sender.Windowed (o.smuxVersion = 2)
  registered : s.registered = false → s.closed = true

variable {o : Options} {s s' s'' : StreamState}

theorem Keeps.refl (s : StreamState) : Keeps s s := ⟨.refl _, id, Or.inl⟩

theorem Keeps.windowed (h : Keeps s s') (hs : Windowed o s) : Windowed o s' where
  sender := h.sender.windowed hs.sender
  registered hr := (h.registered hr).elim (fun hr' => h.closed (hs.registered hr')) id

theorem keeps_report (s : StreamState) (result : Except StreamError Nat) : Keeps s (s.report result) :=
  ⟨.refl _, id, Or.inl⟩

theorem keeps_finishWrite (s : StreamState) (error : Option StreamError) : Keeps s (s.finishWrite error) := by
  unfold finishWrite
  split
  · exact Keeps.refl s
  · exact ⟨.finished _, id, .inl⟩

theorem finishWrite_closed (s : StreamState) (error : Option StreamError) :
    (s.finishWrite error).closed = s.closed := by
  unfold finishWrite
  split <;> rfl

theorem onSessionError_closed (s : StreamState) (error : StreamError) :
    (s.onSessionError error).closed = true := by
  unfold onSessionError
  split
  · assumption
  · exact finishWrite_closed _ _

theorem keeps_onSessionError (s : StreamState) (error : StreamError) : Keeps s (s.onSessionError error) := by
  unfold onSessionError
  split
  · exact Keeps.refl s
  · have h := keeps_finishWrite { s with closed := true } (some error)
    exact { h with closed := fun _ => h.closed rfl }

theorem keeps_failSession (s : StreamState) (error : StreamError) : Keeps s (s.failSession error) := by
  unfold failSession
  split
  · exact Keeps.refl s
  · dsimp only
    split
    · have h := keeps_onSessionError { s with sessionClosed := true, registered := false } error
      exact { h with registered := fun _ => .inr (onSessionError_closed _ _) }
    · exact ⟨.refl _, id, .inl⟩

theorem keeps_requestFin (s : StreamState) : Keeps s s.requestFin := by
  unfold requestFin
  split
  · unfold enqueueFin
    split
    · have h := keeps_onSessionError { s with finEnqueued := true } .session
      exact { h with }
    · exact ⟨.empty rfl, id, .inl⟩
  · exact Keeps.refl s

theorem keeps_close (s : StreamState) : Keeps s s.close := by
  unfold close
  split
  · exact Keeps.refl s
  · have h := keeps_finishWrite { s with closed := true, localClosed := true } (some .operationAborted)
    split
    · exact ⟨h.sender.trans (.empty rfl), fun _ => finishWrite_closed _ _,
          fun _ => .inr (finishWrite_closed _ _)⟩
    · exact ⟨h.sender, fun _ => finishWrite_closed _ _, fun _ => .inr (finishWrite_closed _ _)⟩

theorem push_windowed (hs : Windowed o s) {p : PendingWrite} (hp : s.pending = some p)
    (hopen : ¬ (o.smuxVersion = 2 ∧ s.window.Shut)) :
    Windowed o (s.push o p (min o.frameSize (s.available o p))) where
  sender := hs.sender.push hp hopen (Nat.min_le_right _ _) (Sender.carried_snoc rfl)
  registered := hs.registered

theorem pumpWrite_windowed (hs : Windowed o s) : Windowed o (s.pumpWrite o) := by
  unfold pumpWrite
  split
  · exact hs
  · split
    · exact (keeps_requestFin s).windowed hs
    · rename_i p hp
      split
      · have h := keeps_finishWrite s none
        have hkeeps : Keeps s { s.finishWrite none with returns := s.returns + 1 } :=
          { h with }
        exact hkeeps.windowed hs
      · split
        · exact hs
        · rename_i hopen
          split
          · exact hs
          · exact push_windowed hs hp hopen

theorem onUpdate_windowed (hs : Windowed o s) (payload : Mux.Bytes) : Windowed o (s.onUpdate o payload) := by
  unfold onUpdate
  split
  · exact hs
  · split
    · exact (keeps_failSession s _).windowed hs
    · exact pumpWrite_windowed ⟨hs.sender.update _ _, hs.registered⟩

theorem step_windowed (hs : Windowed o s) (e : Event) : Windowed o (s.step o e) := by
  cases e with
  | write data =>
    show Windowed o (s.asyncWrite o data)
    unfold asyncWrite
    split
    · exact (keeps_report s _).windowed hs
    · split
      · exact (keeps_report s _).windowed hs
      · split
        · exact (keeps_report s _).windowed hs
        · exact pumpWrite_windowed ⟨hs.sender.write data, hs.registered⟩
  | update payload => exact onUpdate_windowed hs payload
  | shutdown =>
    show Windowed o (s.shutdownSend o)
    unfold shutdownSend
    split
    · exact hs
    · exact pumpWrite_windowed ⟨hs.sender, hs.registered⟩
  | cancel => exact (keeps_finishWrite s _).windowed hs
  | close => exact (keeps_close s).windowed hs
  | pushDone failed =>
    have hs' : Windowed o { s with outstanding := s.outstanding - 1 } := ⟨hs.sender, hs.registered⟩
    show Windowed o (s.pushDone o failed)
    unfold pushDone
    split
    · exact hs
    · dsimp only
      split
      · refine (keeps_failSession _ _).windowed ?_
        split
        · exact (keeps_onSessionError _ _).windowed hs'
        · exact hs'
      · split
        · exact pumpWrite_windowed hs'
        · exact hs'
  | handlerReturned =>
    show Windowed o s.handlerReturned
    unfold handlerReturned
    split
    · exact hs
    · exact (keeps_requestFin _).windowed ⟨hs.sender, hs.registered⟩
  | sessionFailed => exact (keeps_failSession s _).windowed hs

theorem update_resumes (hs : Windowed o s) (ho : o.smuxVersion = 2) (halive : s.closed = false ∧
    s.sessionClosed = false)
    (hrest : s.rest ≠ []) {payload : Mux.Bytes} (hopens : Opens s.history payload) :
    ∃ count, 0 < count ∧ (s.step o (.update payload)).history =
      .sent count :: .update (Mux.getU32 payload) (Mux.getU32 (payload.drop 4)) :: s.history := by
  obtain ⟨p, hp, hlt⟩ := pending_of_rest hrest
  have hopen := hopens.not_shut (hs.sender.window ho)
  have hregistered : ¬ s.registered = false := fun h => by
    rw [hs.registered h] at halive
    exact Bool.noConfusion halive.1
  have havailable := hopens.room_pos (c := s.window) (hs.sender.window ho) hlt
  show ∃ count, 0 < count ∧ (s.onUpdate o payload).history = _
  unfold onUpdate
  rw [if_neg hregistered, if_neg (by simp [ho, hopens.1, halive.1])]
  unfold pumpWrite available
  rw [if_neg (by simp [halive.1, halive.2]), hp]
  dsimp only
  rw [if_neg (Nat.ne_of_lt hlt), if_neg (fun h => hopen h.2), if_pos ho, if_neg (Nat.ne_of_gt havailable)]
  exact ⟨_, by have := o.frame_pos; omega, rfl⟩

end StreamState

theorem run_windowed (o : Options) (events : List Event) : (run o events).Windowed o := by
  have hstart : StreamState.Windowed o {} :=
    ⟨.start, nofun⟩
  exact Runs.run_induction (fun s e (hs : s.Windowed o) => StreamState.step_windowed hs e) events {} hstart

/-- **Flow control of a stream**: what it puts into frames fits the window, and an update that opens the
window goes on. -/
def FlowControlled (o : Options) : Prop :=
  ∀ events, Respected (0, initialPeerWindow) (run o events).history ∧
    total (run o events).history = ((run o events).frames.flatMap Frame.payload).length ∧
    ∀ payload, (run o events).closed = false → (run o events).sessionClosed = false → (run o events).rest ≠ [] →
      Opens (run o events).history payload → ∃ count, 0 < count ∧ (run o (events ++ [.update payload])).history =
        .sent count :: .update (Mux.getU32 payload) (Mux.getU32 (payload.drop 4)) :: (run o events).history

theorem flowControlled {o : Options} (ho : o.smuxVersion = 2) : FlowControlled o := by
  intro events
  have hs := run_windowed o events
  refine ⟨(hs.sender.window ho).respected, hs.sender.carried.symm, fun payload hopen hsession hrest hopens => ?_⟩
  unfold run
  rw [Runs.run_append]
  exact StreamState.update_resumes hs ho ⟨hopen, hsession⟩ hrest hopens

end Mux

/-! ## `SmuxStreamState` -/

namespace Smux
namespace StreamState

def sender (s : StreamState) : Sender := ⟨s.window, s.history, s.packets.flatMap Packet.payload, s.pending⟩

structure Keeps (s s' : StreamState) : Prop where
  sender : s.sender.Keeps s'.sender
  writing : s.writeInProgress = true ∧ 0 < s.outstanding → 0 < s'.outstanding
  progress : s'.writeInProgress = true → s.writeInProgress = true ∨ 0 < s'.outstanding

/-- **What every state of a run satisfies**, also before it pumps. -/
structure Windowed (o : Options) (s : StreamState) : Prop where
  sender : s.sender.Windowed (o.smuxVersion = 2)
  progress : s.writeInProgress = true → 0 < s.outstanding

variable {o : Options} {s s' s'' : StreamState}

theorem Keeps.refl (s : StreamState) : Keeps s s := ⟨.refl _, And.right, Or.inl⟩

theorem Keeps.windowed (h : Keeps s s') (hs : Windowed o s) : Windowed o s' where
  sender := h.sender.windowed hs.sender
  progress hw := (h.progress hw).elim (fun hw' => h.writing ⟨hw', hs.progress hw'⟩) id

theorem keeps_report (s : StreamState) (result : Except StreamError Nat) : Keeps s (s.report result) :=
  ⟨.refl _, And.right, .inl⟩

theorem keeps_finishWrite (s : StreamState) (error : Option StreamError) : Keeps s (s.finishWrite error) := by
  unfold finishWrite
  split
  · exact Keeps.refl s
  · exact ⟨.finished _, And.right, .inl⟩

theorem keeps_close (s : StreamState) : Keeps s s.close := by
  unfold close
  split
  · exact Keeps.refl s
  · have h := keeps_finishWrite { s with closed := true, queuedWrites := [] } (some .operationAborted)
    exact { h with }

theorem closeWithError_windowed (hs : Windowed o s) (error : StreamError) : Windowed o
    (s.closeWithError error) := by
  unfold closeWithError
  split
  · exact hs
  · exact (keeps_close _).windowed ((keeps_finishWrite s _).windowed hs)

theorem startWrite_windowed (hs : Windowed o s) : Windowed o s.startWrite := by
  unfold startWrite
  split
  · exact hs
  · exact ⟨hs.sender, fun _ => Nat.succ_pos _⟩

theorem startWrite_history (s : StreamState) : s.startWrite.history = s.history := by
  unfold startWrite
  split <;> rfl

theorem enqueuePacket_windowed (hs : Windowed o s) {packet : Packet} (hpacket : packet.payload = []) :
    Windowed o (s.enqueuePacket packet) := ⟨(Sender.Keeps.empty hpacket).windowed hs.sender, hs.progress⟩

theorem pumpRest_windowed (hs : Windowed o s) : Windowed o s.pumpRest := by
  unfold pumpRest
  split
  · have hrequested : Windowed o { s with finEnqueued := true } := ⟨hs.sender, hs.progress⟩
    exact startWrite_windowed (enqueuePacket_windowed hrequested rfl)
  · exact startWrite_windowed hs

theorem pumpRest_history (s : StreamState) : s.pumpRest.history = s.history := by
  unfold pumpRest
  split <;> exact startWrite_history _

theorem push_windowed (hs : Windowed o s) {p : PendingWrite} (hp : s.pending = some p)
    (hopen : ¬ (o.smuxVersion = 2 ∧ s.window.Shut)) :
    Windowed o (s.push o p (min o.frameSize (s.available o p))) where
  sender := hs.sender.push hp hopen (Nat.min_le_right _ _) (Sender.carried_snoc rfl)
  progress := hs.progress

theorem pumpWrite_windowed (hs : Windowed o s) : Windowed o (s.pumpWrite o) := by
  unfold pumpWrite
  by_cases hbusy : s.closed = true ∨ s.writeInProgress = true
  · rw [if_pos hbusy]
    exact hs
  · rw [if_neg hbusy]
    by_cases hqueue : s.queuedWrites = []
    · rw [if_neg (not_not.2 hqueue)]
      split
      · exact pumpRest_windowed hs
      · rename_i p hp
        split
        · split
          · exact hs
          · rename_i hopen
            exact pumpRest_windowed (push_windowed hs hp hopen)
        · have h := keeps_finishWrite s none
          have hkeeps : Keeps s { s.finishWrite none with returns := s.returns + 1 } :=
            { h with }
          exact hkeeps.windowed hs
    · rw [if_pos hqueue]
      exact startWrite_windowed hs

theorem step_windowed (hs : Windowed o s) (e : Event) : Windowed o (s.step o e) := by
  cases e with
  | write data =>
    show Windowed o (s.asyncWrite o data)
    unfold asyncWrite
    split
    · exact (keeps_report s _).windowed hs
    · split
      · exact (keeps_report s _).windowed hs
      · split
        · exact (keeps_report s _).windowed hs
        · exact pumpWrite_windowed ⟨hs.sender.write data, hs.progress⟩
  | control => exact pumpWrite_windowed (enqueuePacket_windowed hs rfl)
  | update payload =>
    show Windowed o (s.onUpdate o payload)
    unfold onUpdate
    split
    · exact closeWithError_windowed hs _
    · exact pumpWrite_windowed ⟨hs.sender.update _ _, hs.progress⟩
  | shutdown =>
    show Windowed o (s.shutdownSend o)
    unfold shutdownSend
    split
    · exact hs
    · exact pumpWrite_windowed ⟨hs.sender, hs.progress⟩
  | cancel => exact (keeps_finishWrite s _).windowed hs
  | close => exact (keeps_close s).windowed hs
  | writeDone failed =>
    have hs' : Windowed o { s with outstanding := s.outstanding - 1, writeInProgress := false } :=
      ⟨hs.sender, nofun⟩
    show Windowed o (s.writeDone o failed)
    unfold writeDone
    split
    · exact hs
    · split
      · exact closeWithError_windowed hs' _
      · exact pumpWrite_windowed hs'
  | handlerReturned =>
    show Windowed o s.handlerReturned
    unfold handlerReturned
    split
    · exact hs
    · exact pumpRest_windowed ⟨hs.sender, hs.progress⟩

structure Waits (o : Options) (s : StreamState) : Prop where
  windowed : Windowed o s
  opened : s.closed = false
  rest : s.rest ≠ []
  free : ¬ s.window.Shut

theorem pumpWrite_resumes (hs : Waits o s) (ho : o.smuxVersion = 2) (hidle : s.writeInProgress = false) :
    (∃ count, 0 < count ∧ (s.pumpWrite o).history = .sent count :: s.history) ∨
    s.queuedWrites ≠ [] ∧ s.pumpWrite o = s.startWrite := by
  obtain ⟨p, hp, hlt⟩ := pending_of_rest hs.rest
  have havailable : 0 < min (p.data.length - p.offset) s.window.room := by
    have := Counters.room_pos hs.free
    omega
  unfold pumpWrite
  rw [if_neg (by simp [hs.opened, hidle])]
  by_cases hqueue : s.queuedWrites = []
  · left
    rw [if_neg (not_not.2 hqueue), hp]
    dsimp only
    rw [if_pos hlt, if_neg (fun h => hs.free h.2), pumpRest_history]
    refine ⟨_, ?_, rfl⟩
    unfold available
    rw [if_pos ho]
    have := o.frame_pos
    omega
  · right
    exact ⟨hqueue, if_pos hqueue⟩

theorem writeDone_resumes (ho : o.smuxVersion = 2) : ∀ (k : Nat) (s : StreamState),
    s.queuedWrites.length = k → Waits o s →
    s.writeInProgress = true → ∃ n count, 0 < count ∧
      ((List.replicate n (Event.writeDone false)).foldl (step o) s).history = .sent count :: s.history := by
  intro k
  induction k with
  | zero =>
    intro s hk hs hbusy
    have hout := hs.windowed.progress hbusy
    have hwaits : Waits o { s with outstanding := s.outstanding - 1, writeInProgress := false } :=
      { hs with windowed := ⟨hs.windowed.sender, nofun⟩ }
    obtain ⟨count, hcount, hsent⟩ | ⟨hqueue, -⟩ := pumpWrite_resumes hwaits ho rfl
    · refine ⟨1, count, hcount, ?_⟩
      show (s.writeDone o false).history = _
      unfold writeDone
      rw [if_neg (Nat.ne_of_gt hout)]
      exact hsent
    · exact absurd (length_eq_zero_iff.1 hk) hqueue
  | succ k ih =>
    intro s hk hs hbusy
    have hout := hs.windowed.progress hbusy
    have hwaits : Waits o { s with outstanding := s.outstanding - 1, writeInProgress := false } :=
      { hs with windowed := ⟨hs.windowed.sender, nofun⟩ }
    have hdone : s.step o (.writeDone false) =
      { s with outstanding := s.outstanding - 1, writeInProgress := false }.pumpWrite o :=
      if_neg (Nat.ne_of_gt hout)
    obtain ⟨count, hcount, hsent⟩ | ⟨hqueue, hstart⟩ := pumpWrite_resumes hwaits ho rfl
    · refine ⟨1, count, hcount, ?_⟩
      show (s.step o (.writeDone false)).history = _
      rw [hdone]
      exact hsent
    · obtain ⟨packet, rest, hpackets⟩ := exists_cons_of_ne_nil hqueue
      rw [hstart] at hdone
      unfold startWrite at hdone
      rw [hpackets] at hdone hk
      obtain ⟨n, count, hcount, hsent⟩ := ih (s.step o (.writeDone false)) (by rw [hdone]; exact Nat.succ.inj hk)
        (by rw [hdone]; exact { hs with windowed := ⟨hs.windowed.sender, fun _ => Nat.succ_pos _⟩ })
        (by rw [hdone])
      refine ⟨n + 1, count, hcount, ?_⟩
      rw [replicate_succ, foldl_cons, hsent, hdone]

theorem update_resumes (hs : Windowed o s) (ho : o.smuxVersion = 2)
    (halive : s.closed = false) (hrest : s.rest ≠ [])
    {payload : Mux.Bytes} (hopens : Opens s.history payload) : ∃ n count, 0 < count ∧
      ((List.replicate n (Event.writeDone false)).foldl (step o) (s.step o (.update payload))).history =
        .sent count :: .update (Mux.getU32 payload) (Mux.getU32 (payload.drop 4)) :: s.history := by
  have hupdate : s.step o (.update payload) = ({ s with
      window := s.window.update (Mux.getU32 payload) (Mux.getU32 (payload.drop 4))
      history := .update (Mux.getU32 payload) (Mux.getU32 (payload.drop 4)) :: s.history }).pumpWrite o :=
    if_neg (by simp [ho, hopens.1])
  have hwaits : Waits o { s with
      window := s.window.update (Mux.getU32 payload) (Mux.getU32 (payload.drop 4))
      history := .update (Mux.getU32 payload) (Mux.getU32 (payload.drop 4)) :: s.history } :=
    ⟨⟨hs.sender.update _ _, hs.progress⟩, halive, hrest, hopens.not_shut (hs.sender.window ho)⟩
  rw [hupdate]
  by_cases hbusy : s.writeInProgress = true
  · have hpump : ({ s with
        window := s.window.update (Mux.getU32 payload) (Mux.getU32 (payload.drop 4))
        history := .update (Mux.getU32 payload) (Mux.getU32 (payload.drop 4)) :: s.history }).pumpWrite
          o = { s with
        window := s.window.update (Mux.getU32 payload) (Mux.getU32 (payload.drop 4))
        history := .update (Mux.getU32 payload) (Mux.getU32 (payload.drop 4)) :: s.history } := if_pos
          (.inr hbusy)
    rw [hpump]
    exact writeDone_resumes ho _ _ rfl hwaits hbusy
  · obtain ⟨count, hcount, hsent⟩ | ⟨hqueue, hstart⟩ := pumpWrite_resumes hwaits ho (by simpa using hbusy)
    · exact ⟨0, count, hcount, hsent⟩
    · obtain ⟨packet, rest, hpackets⟩ := exists_cons_of_ne_nil hqueue
      rw [hstart]
      rw [hpackets]
      exact writeDone_resumes ho _ _ rfl ⟨⟨hwaits.windowed.sender, fun _ => Nat.succ_pos _⟩, halive,
        hrest, hwaits.free⟩ rfl

end StreamState

theorem run_windowed (o : Options) (events : List Event) : (run o events).Windowed o := by
  have hstart : StreamState.Windowed o {} :=
    ⟨.start, nofun⟩
  exact Runs.run_induction (fun s e (hs : s.Windowed o) => StreamState.step_windowed hs e) events {} hstart

/-- **Flow control of a stream**: what it puts into packets fits the window, and an update that opens the
window goes on, once the writes of its transport that are before it have completed. -/
def FlowControlled (o : Options) : Prop :=
  ∀ events, Respected (0, initialPeerWindow) (run o events).history ∧
    total (run o events).history = ((run o events).packets.flatMap Packet.payload).length ∧
    ∀ payload, (run o events).closed = false → (run o events).rest ≠ [] → Opens (run o events).history payload →
      ∃ n count, 0 < count ∧ (run o (events ++ .update payload :: List.replicate n (.writeDone false))).history =
        .sent count :: .update (Mux.getU32 payload) (Mux.getU32 (payload.drop 4)) :: (run o events).history

theorem flowControlled {o : Options} (ho : o.smuxVersion = 2) : FlowControlled o := by
  intro events
  have hs := run_windowed o events
  refine ⟨(hs.sender.window ho).respected, hs.sender.carried.symm, fun payload hopen hrest hopens => ?_⟩
  obtain ⟨n, count, hcount, hsent⟩ := StreamState.update_resumes hs ho hopen hrest hopens
  refine ⟨n, count, hcount, ?_⟩
  rw [← hsent]
  unfold run
  rw [Runs.run_append]
  rfl

end Smux

/-! ## `WebSocketMuxStreamState` -/

namespace WebSocketMux
namespace StreamState

def sender (s : StreamState) : Sender := ⟨s.window, s.history, s.frames.flatMap Frame.payload, s.pending⟩

structure Keeps (s s' : StreamState) : Prop where
  sender : s.sender.Keeps s'.sender
  closed : s.closed = true → s'.closed = true
  registered : s'.registered = false ∨ s'.session = false → (s.registered = false ∨ s.session = false) ∨
    s'.closed = true

structure Windowed (o : WebSocketMuxOptions) (s : StreamState) : Prop where
  sender : s.sender.Windowed (o.smuxV2 = true)
  registered : s.registered = false ∨ s.session = false → s.closed = true

variable {o : WebSocketMuxOptions} {s s' s'' : StreamState}

theorem Keeps.refl (s : StreamState) : Keeps s s := ⟨.refl _, id, Or.inl⟩

theorem Keeps.trans (h : Keeps s s') (h' : Keeps s' s'') : Keeps s s'' where
  sender := h.sender.trans h'.sender
  closed hc := h'.closed (h.closed hc)
  registered hr := (h'.registered hr).elim (fun hr' => (h.registered hr').imp id h'.closed) .inr

theorem Keeps.windowed (h : Keeps s s') (hs : Windowed o s) : Windowed o s' where
  sender := h.sender.windowed hs.sender
  registered hr := (h.registered hr).elim (fun hr' => h.closed (hs.registered hr')) id

theorem keeps_finishWrite (s : StreamState) (error : Option StreamError) : Keeps s (s.finishWrite error) := by
  unfold finishWrite
  split
  · exact Keeps.refl s
  · exact ⟨.finished _, id, .inl⟩

theorem finishWrite_closed (s : StreamState) (error : Option StreamError) :
    (s.finishWrite error).closed = s.closed := by
  unfold finishWrite
  split <;> rfl

theorem onSessionError_closed (s : StreamState) (error : StreamError) :
    (s.onSessionError error).closed = true := by
  unfold onSessionError
  split
  · assumption
  · exact finishWrite_closed _ _

theorem keeps_onSessionError (s : StreamState) (error : StreamError) : Keeps s (s.onSessionError error) := by
  unfold onSessionError
  split
  · exact Keeps.refl s
  · have h := keeps_finishWrite { s with closed := true } (some error)
    exact ⟨h.sender, fun _ => h.closed rfl, fun _ => .inr (h.closed rfl)⟩

theorem keeps_failSession (s : StreamState) (error : StreamError) : Keeps s (s.failSession error) := by
  unfold failSession
  split
  · exact Keeps.refl s
  · dsimp only
    split
    · have h := keeps_onSessionError { s with sessionClosed := true, registered := false } error
      exact { h with registered := fun _ => .inr (onSessionError_closed _ _) }
    · exact ⟨.refl _, id, .inl⟩

theorem keeps_enqueueFrame (s : StreamState) : Keeps s (s.enqueueFrame .close) := by
  unfold enqueueFrame
  split
  · exact Keeps.refl s
  · exact ⟨.empty rfl, id, .inl⟩

theorem keeps_requestEnd (s : StreamState) : Keeps s s.requestEnd := by
  unfold requestEnd
  split
  · have h := keeps_enqueueFrame { s with endEnqueued := true }
    exact { h with }
  · exact Keeps.refl s

theorem keeps_streamClose (h : s.closed = true) : Keeps s s.streamClose := by
  unfold streamClose
  dsimp only
  split
  · have hframe := keeps_enqueueFrame { s with registered := false, endEnqueued := true }
    exact { hframe with registered := fun _ => .inr (hframe.closed h) }
  · exact ⟨.refl _, id, fun _ => .inr h⟩

theorem keeps_close (s : StreamState) : Keeps s s.close := by
  unfold close
  split
  · exact Keeps.refl s
  · have h := keeps_finishWrite { s with closed := true, localClosed := true } (some .operationAborted)
    have hfinished : Keeps s ({ s with closed := true, localClosed := true }.finishWrite
        (some .operationAborted)) :=
      ⟨h.sender, fun _ => h.closed rfl, fun _ => .inr (h.closed rfl)⟩
    dsimp only
    split
    · exact hfinished.trans (keeps_streamClose (h.closed rfl))
    · exact hfinished

theorem push_windowed (hs : Windowed o s) {p : PendingWrite} (hp : s.pending = some p)
    (hopen : ¬ (o.smuxV2 = true ∧ s.window.Shut)) :
    Windowed o (s.push o p (min (s.available o p) o.maxFrameSize)) := by
  have hsent : Windowed o { s with
      pending := some { p with offset := p.offset + min (s.available o p) o.maxFrameSize }
      window := if o.smuxV2 then s.window.send (min (s.available o p) o.maxFrameSize) else s.window
      history := .sent (min (s.available o p) o.maxFrameSize) :: s.history
      frames := s.frames ++ [.data (p.rest.take (min (s.available o p) o.maxFrameSize))] } := by
    exact ⟨hs.sender.push hp hopen (Nat.min_le_left _ _) (Sender.carried_snoc rfl), hs.registered⟩
  unfold push
  dsimp only
  split
  · exact (keeps_onSessionError _ _).windowed ((keeps_finishWrite _ _).windowed hsent)
  · exact ⟨hsent.sender, hsent.registered⟩

theorem pumpWrite_windowed (hs : Windowed o s) : Windowed o (s.pumpWrite o) := by
  unfold pumpWrite
  split
  · exact hs
  · split
    · exact (keeps_requestEnd s).windowed hs
    · rename_i p hp
      split
      · have h := keeps_finishWrite s none
        have hkeeps : Keeps s { s.finishWrite none with returns := s.returns + 1 } :=
          { h with }
        exact hkeeps.windowed hs
      · split
        · exact hs
        · rename_i hopen
          split
          · exact hs
          · exact push_windowed hs hp hopen

theorem step_windowed (hs : Windowed o s) (e : Event) : Windowed o (s.step o e) := by
  cases e with
  | write data =>
    have hreport : ∀ result, Windowed o (s.report result) := fun _ => ⟨hs.sender, hs.registered⟩
    show Windowed o (s.writeSome o data)
    unfold writeSome
    split
    · exact hreport _
    · split
      · exact hreport _
      · exact pumpWrite_windowed ⟨hs.sender.write data, hs.registered⟩
  | update payload =>
    show Windowed o (s.onUpdate o payload)
    unfold onUpdate
    split
    · exact hs
    · split
      · split
        · exact (keeps_failSession s _).windowed hs
        · exact hs
      · exact pumpWrite_windowed ⟨hs.sender.update _ _, hs.registered⟩
  | shutdown =>
    show Windowed o (s.shutdownSend o)
    unfold shutdownSend
    split
    · exact hs
    · exact pumpWrite_windowed ⟨hs.sender, hs.registered⟩
  | cancel => exact (keeps_finishWrite s _).windowed hs
  | close => exact (keeps_close s).windowed hs
  | dataDone failed =>
    have hs' : Windowed o { s with outstanding := s.outstanding - 1 } := ⟨hs.sender, hs.registered⟩
    show Windowed o (s.dataDone o failed)
    unfold dataDone
    split
    · exact hs
    · dsimp only
      split
      · refine (keeps_failSession _ _).windowed ?_
        split
        · exact (keeps_onSessionError _ _).windowed ((keeps_finishWrite _ _).windowed hs')
        · exact hs'
      · split
        · exact pumpWrite_windowed hs'
        · exact hs'
  | handlerReturned =>
    show Windowed o s.handlerReturned
    unfold handlerReturned
    split
    · exact hs
    · exact (keeps_requestEnd _).windowed ⟨hs.sender, hs.registered⟩
  | sessionFailed => exact (keeps_failSession s _).windowed hs

theorem update_resumes (hs : Windowed o s) (ho : o.smuxV2 = true) (halive : s.closed = false ∧
    s.sessionClosed = false)
    (hrest : s.rest ≠ []) {payload : Mux.Bytes} (hopens : Opens s.history payload) :
    ∃ count, 0 < count ∧ (s.step o (.update payload)).history =
      .sent count :: .update (Mux.getU32 payload) (Mux.getU32 (payload.drop 4)) :: s.history := by
  obtain ⟨p, hp, hlt⟩ := pending_of_rest hrest
  have hopen := hopens.not_shut (hs.sender.window ho)
  have hthere : ¬ (s.registered = false ∨ s.session = false) := fun h => by
    rw [hs.registered h] at halive
    exact Bool.noConfusion halive.1
  rw [not_or] at hthere
  have havailable := hopens.room_pos (c := s.window) (hs.sender.window ho) hlt
  show ∃ count, 0 < count ∧ (s.onUpdate o payload).history = _
  unfold onUpdate
  rw [if_neg hthere.1, if_neg (by simp [ho, hopens.1, halive.1, hthere.2])]
  unfold pumpWrite available
  rw [if_neg (by simp [halive.1, hthere.2]), hp]
  dsimp only
  rw [if_neg (Nat.ne_of_lt hlt), if_neg (fun h => hopen h.2), if_pos ho, if_neg (Nat.ne_of_gt havailable)]
  unfold push
  rw [if_neg (by simp [halive.2])]
  exact ⟨_, by have := o.frame_pos; omega, rfl⟩

end StreamState

theorem run_windowed (o : WebSocketMuxOptions) (events : List Event) : (run o events).Windowed o := by
  have hstart : StreamState.Windowed o {} :=
    ⟨.start, fun h => h.elim (nofun) (nofun)⟩
  exact Runs.run_induction (fun s e (hs : s.Windowed o) => StreamState.step_windowed hs e) events {} hstart

/-- **Flow control of a stream**: what it puts into frames fits the window, and an update that opens the
window goes on. -/
def FlowControlled (o : WebSocketMuxOptions) : Prop :=
  ∀ events, Respected (0, initialPeerWindow) (run o events).history ∧
    total (run o events).history = ((run o events).frames.flatMap Frame.payload).length ∧
    ∀ payload, (run o events).closed = false → (run o events).sessionClosed = false → (run o events).rest ≠ [] →
      Opens (run o events).history payload → ∃ count, 0 < count ∧ (run o (events ++ [.update payload])).history =
        .sent count :: .update (Mux.getU32 payload) (Mux.getU32 (payload.drop 4)) :: (run o events).history

theorem flowControlled {o : WebSocketMuxOptions} (ho : o.smuxV2 = true) : FlowControlled o := by
  intro events
  have hs := run_windowed o events
  refine ⟨(hs.sender.window ho).respected, hs.sender.carried.symm, fun payload hopen hsession hrest hopens => ?_⟩
  unfold run
  rw [Runs.run_append]
  exact StreamState.update_resumes hs ho ⟨hopen, hsession⟩ hrest hopens

end WebSocketMux

/-- **In SMUX v2 no sender overruns the window of its peer**, and what the window alone holds up goes on
when it opens. -/
theorem send_window_respected (o : Options) (w : WebSocketMux.WebSocketMuxOptions) (ho : o.smuxVersion = 2)
    (hw : w.smuxV2 = true) :
    Mux.FlowControlled o ∧ Smux.FlowControlled o ∧ WebSocketMux.FlowControlled w :=
  ⟨Mux.flowControlled ho, Smux.flowControlled ho, WebSocketMux.flowControlled hw⟩

/-- Version 2 with the default frame sizes. -/
theorem send_window_respected_defaults :
    Mux.FlowControlled ⟨2, 8192, .inr rfl, by decide, by decide⟩ ∧
    Smux.FlowControlled ⟨2, 8192, .inr rfl, by decide, by decide⟩ ∧
      WebSocketMux.FlowControlled ⟨true, 32768, by decide, by decide⟩ :=
  send_window_respected ⟨2, 8192, .inr rfl, by decide, by decide⟩ ⟨true, 32768, by decide, by decide⟩ rfl rfl

end ClashNative.Kcptun
