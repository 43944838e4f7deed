import ClashNative.QuicWrites
import ClashNative.Runs
/-!
# Http3Output — what an HTTP/3 session writes to its connection

`pump_output`, `on_stream_write_consumed` and the other places of `http3_client.cpp` that write or end
streams.  The session has one write with the connection at a time, and `write_pending_` says so.  What
nghttp3 offers is an argument; it offers nothing more of a stream whose end it has offered.
-/
namespace ClashNative.Quic.Http3Output

open Runs List

inductive Writer
  | session | other
  deriving DecidableEq, Repr

/-- What `nghttp3_conn_writev_stream` has to write. -/
inductive Offer
  | failed
  | nothing
  | output (id : StreamId) (data : List UInt8) (fin : Bool)
  deriving DecidableEq, Repr

/-- A `QuicClientConnection` and the `Http3ClientSession` on it.  `http3`: `http3_` is set up. -/
structure State where
  conn : Conn Writer := {}
  retired : Bool := false
  http3 : Bool := false
  writePending : Bool := false

def connectionFailed (s : State) : State :=
  if s.retired then s else { s with retired := true, http3 := false }

def offerable (s : State) : Offer → Offer
  | .output id data fin => if id ∈ s.conn.finishedStreams then .nothing else .output id data fin
  | offer => offer

def pumpOutput (s : State) (offer : Offer) : State :=
  if s.retired ∨ s.http3 = false ∨ s.writePending then s
  else match offerable s offer with
    | .failed => connectionFailed s
    | .nothing => s
    | .output id data fin => { s with writePending := true, conn := s.conn.writeStreamData id .session data fin }

/-- `on_stream_write_consumed`; `offsetFails`: nghttp3 does not take the new offset. -/
def onStreamWriteConsumed (offsetFails : Bool) (offer : Offer) (s : State) (told : Consumed) : State :=
  if s.retired ∨ s.http3 = false then s
  else if told.length ≠ 0 ∧ offsetFails then connectionFailed s
  else if told.complete then pumpOutput { s with writePending := false } offer
  else s

def onStreamWritable (s : State) (unblockFails : Bool) (offer : Offer) : State :=
  if s.http3 ∧ unblockFails then connectionFailed s else pumpOutput s offer

/-- `fail_pending`, of an exchange on a stream; the end of a user's stream does the same to the
connection. -/
def failPending (s : State) (id : StreamId) : State := { s with conn := s.conn.shutdownStream id }

/-- `on_stream_closed`, of the connection and then of the session. -/
def onStreamClosed (s : State) (id : StreamId) (closeFails : Bool) : State :=
  let s := { s with conn := s.conn.onStreamClosed id }
  if s.http3 ∧ closeFails then connectionFailed s else s

/-- What can happen: the session is set up; a request, a body or a tunnel makes it pump; another user
writes; a turn of the write loop, and what the session does when it is told; a stream gets credit, is
aborted (an exchange cancelled, past its deadline or reset by the peer), or is closed; the connection or
the session fails. -/
inductive Event
  | ready
  | pump (offer : Offer)
  | write (id : StreamId) (data : List UInt8) (fin : Bool)
  | frame (credit : Bool) (written : Written) (offsetFails : Bool) (offer : Offer)
  | extend (id : StreamId) (unblockFails : Bool) (offer : Offer)
  | abort (id : StreamId)
  | closed (id : StreamId) (closeFails : Bool)
  | connFailed
  | sessionFailed
  deriving Repr

/-- **One step of the connection and its session.** -/
def step (s : State) : Event → State
  | .ready => if s.retired then s else { s with http3 := true }
  | .pump offer => pumpOutput s offer
  | .write id data fin => { s with conn := s.conn.writeStreamData id .other data fin }
  | .frame credit written offsetFails offer =>
    let (conn, told) := s.conn.writeFrame credit written
    told.foldl (onStreamWriteConsumed offsetFails offer) { s with conn }
  | .extend id unblockFails offer =>
    onStreamWritable { s with conn := s.conn.onExtendMaxStreamData id } unblockFails offer
  | .abort id => failPending s id
  | .closed id closeFails => onStreamClosed s id closeFails
  | .connFailed => { s with conn := s.conn.fail }
  | .sessionFailed => connectionFailed s

/-! ## No output is stranded -/

/-- The connection holds a write of the session, on another stream than `id` if one is given. -/
def Holds (s : State) (except : Option StreamId) : Prop :=
  ∃ id write, except ≠ some id ∧ write ∈ s.conn.writes id ∧ write.tag = .session

/-- **No output is stranded**, while neither is retired: a stream with queued writes is in the ready queue
exactly once or marked blocked, and a pending write of the session is with the connection. -/
def NotStranded (s : State) : Prop :=
  s.conn.retired = false → s.retired = false →
    (∀ id, s.conn.writes id ≠ [] → (s.conn.readyStreams.count id = 1 ∧ id ∉ s.conn.blockedStreams) ∨
      (id ∉ s.conn.readyStreams ∧ id ∈ s.conn.blockedStreams)) ∧
    (s.writePending = true → Holds s none)

/-- **The condition on a step**: a stream that is aborted or closed does not hold the session's pending
write. -/
def Spares (s : State) : Event → Prop
  | .abort id => s.conn.retired = false → s.retired = false → s.writePending = true → Holds s (some id)
  | .closed id closeFails => s.conn.retired = false → s.retired = false → (s.http3 && closeFails) = false →
      s.writePending = true → Holds s (some id)
  | _ => True

structure SetUp (s : State) : Prop where
  live : s.conn.Live
  setUp : s.retired = false → s.writePending = true → s.http3 = true

structure Inv (s : State) : Prop extends SetUp s where
  pending : s.conn.retired = false → s.retired = false → s.writePending = true → Holds s none

theorem inv_init : Inv {} where
  live := Conn.queued_init.live
  setUp _ h := absurd h Bool.false_ne_true
  pending _ _ h := absurd h Bool.false_ne_true

variable {s : State}

theorem Inv.notStranded (h : Inv s) : NotStranded s := by
  intro hconn hrun
  refine ⟨fun id hw => ?_, h.pending hconn hrun⟩
  have hq := h.live hconn
  rcases hq.covered id hw with hr | hb | hnone
  · exact .inl ⟨count_eq_one_of_mem hq.nodup hr, hq.disjoint id hr⟩
  · exact .inr ⟨fun hr => hq.disjoint id hr hb, hb⟩
  · cases hnone

/-! ## What a step keeps -/

theorem writeStreamData_mem {s : Conn Writer} (id : StreamId) (tag : Writer) (data : List UInt8) (fin : Bool)
    (hfin : id ∉ s.finishedStreams) (hrun : (s.writeStreamData id tag data fin).retired = false) :
    ∃ write, write ∈ (s.writeStreamData id tag data fin).writes id ∧ write.tag = tag := by
  unfold Conn.writeStreamData at hrun ⊢
  split
  · rename_i hskip
    rw [if_pos hskip] at hrun
    rcases hskip with hr | hf
    · rw [hrun] at hr
      cases hr
    · exact absurd hf hfin
  · rename_i hskip
    rw [if_neg hskip] at hrun
    split
    · rename_i hlast
      rw [if_pos hlast] at hrun
      cases hrun
    · refine ⟨{ tag, bytes := data, fin }, ?_, rfl⟩
      have hself := Conn.writes_insert s id id (s.writes id ++ [{ tag, bytes := data, fin }])
      rw [if_pos rfl] at hself
      rw [Conn.queueStream_writes]
      change _ ∈ ({ s with
        streamWrites := s.streamWrites.insert id (s.writes id ++ [{ tag, bytes := data, fin }])
          } : Conn Writer).writes id
      rw [hself]
      exact mem_append_right _ (mem_singleton.2 rfl)

theorem writeStreamData_keeps (s : Conn Writer) (id : StreamId) (tag : Writer) (data : List UInt8) (fin : Bool)
    {other : StreamId} {write : PendingWrite Writer} (hw : write ∈ s.writes other) :
    write ∈ (s.writeStreamData id tag data fin).writes other := by
  unfold Conn.writeStreamData
  split
  · exact hw
  · split
    · exact hw
    · have hset := Conn.writes_insert s id other (s.writes id ++ [{ tag, bytes := data, fin }])
      rw [Conn.queueStream_writes]
      change _ ∈ ({ s with
        streamWrites := s.streamWrites.insert id (s.writes id ++ [{ tag, bytes := data, fin }])
          } : Conn Writer).writes other
      rw [hset]
      split
      · rename_i heq
        exact mem_append_left _ (heq ▸ hw)
      · exact hw

variable {id : StreamId}

theorem writeStreamData_retired {s : Conn Writer} {tag : Writer} {data : List UInt8} {fin : Bool}
    (h : (s.writeStreamData id tag data fin).retired = false) : s.retired = false := by
  unfold Conn.writeStreamData at h
  split at h
  · exact h
  · rename_i hskip
    rw [not_or] at hskip
    simpa using hskip.1

theorem SetUp.connectionFailed (h : SetUp s) : SetUp (connectionFailed s) := by
  unfold Http3Output.connectionFailed
  split
  · exact h
  · refine ⟨h.live, fun hrun => ?_⟩
    cases hrun

namespace Inv

variable {s : State}

theorem connectionFailed (h : Inv s) : Inv (connectionFailed s) := by
  refine ⟨h.toSetUp.connectionFailed, fun hconn hrun => ?_⟩
  unfold Http3Output.connectionFailed at hconn hrun ⊢
  split
  · rename_i hretired
    rw [if_pos hretired, hretired] at hrun
    cases hrun
  · rename_i hretired
    rw [if_neg hretired] at hrun
    cases hrun

theorem pump (h : Inv s) (offer : Offer) : Inv (pumpOutput s offer) := by
  unfold pumpOutput
  split
  · exact h
  · rename_i hgo
    rw [not_or, not_or] at hgo
    have hhttp3 : s.http3 = true := by simpa using hgo.2.1
    cases hoffer : offerable s offer with
    | failed => exact h.connectionFailed
    | nothing => exact h
    | output id data fin =>
      have hfin : id ∉ s.conn.finishedStreams := by
        intro hmem
        cases offer with
        | failed => cases hoffer
        | nothing => cases hoffer
        | output id' data' fin' =>
          unfold offerable at hoffer
          dsimp only at hoffer
          split at hoffer
          · cases hoffer
          · rename_i hnot
            cases hoffer
            exact hnot hmem
      refine ⟨⟨h.live.writeStreamData id .session data fin, fun _ _ => hhttp3⟩, fun hconn _ _ => ?_⟩
      obtain ⟨write, hmem, htag⟩ := writeStreamData_mem id .session data fin hfin hconn
      exact ⟨id, write, (Option.some_ne_none id).symm, hmem, htag⟩

theorem told (h : SetUp s) {t : Consumed}
    (hpending : t.complete = false → s.conn.retired = false → s.retired = false →
      s.writePending = true → Holds s none)
    (offsetFails : Bool) (offer : Offer) : Inv (onStreamWriteConsumed offsetFails offer s t) := by
  unfold onStreamWriteConsumed
  split
  · rename_i hskip
    refine ⟨h, fun _ hrun hw => ?_⟩
    rcases hskip with hr | hn
    · rw [hrun] at hr
      cases hr
    · rw [h.setUp hrun hw] at hn
      cases hn
  · split
    · rename_i hskip _
      refine ⟨h.connectionFailed, fun _ hrun => ?_⟩
      unfold Http3Output.connectionFailed at hrun
      rw [if_neg (fun hr => hskip (.inl hr))] at hrun
      cases hrun
    · split
      · refine Inv.pump (s := { s with writePending := false }) ⟨⟨h.live, fun _ hw => ?_⟩,
          fun _ _ hw => ?_⟩ offer
        · cases hw
        · cases hw
      · rename_i hcomplete
        exact ⟨h, hpending (by simpa using hcomplete)⟩

theorem keeps (h : Inv s) {conn : Conn Writer} (hlive : conn.Live) (hrun : conn.retired = false →
    s.conn.retired = false)
    (hkeeps : ∀ id, ∀ write ∈ s.conn.writes id, write ∈ conn.writes id) : Inv { s with conn } := by
  refine ⟨⟨hlive, h.setUp⟩, fun hconn hsession hw => ?_⟩
  obtain ⟨id, write, hne, hmem, htag⟩ := h.pending (hrun hconn) hsession hw
  exact ⟨id, write, hne, hkeeps id write hmem, htag⟩

end Inv

theorem onStreamWriteConsumed_partial {t : Consumed} (ht : t.complete = false) (offsetFails : Bool)
    (offer : Offer) :
    onStreamWriteConsumed offsetFails offer s t = s ∨
    onStreamWriteConsumed offsetFails offer s t = connectionFailed s := by
  unfold onStreamWriteConsumed
  rw [ht]
  split
  · exact .inl rfl
  · split
    · exact .inr rfl
    · exact .inl rfl

theorem foldl_partial {P : State → Prop} (hfailed : ∀ s, P s → P (connectionFailed s)) (offsetFails : Bool)
    (offer : Offer) :
    ∀ (told : List Consumed) (s : State), (∀ t ∈ told, t.complete = false) → P s →
      P (told.foldl (onStreamWriteConsumed offsetFails offer) s)
  | [], _, _, h => h
  | t :: told, s, ht, h => by
    refine foldl_partial hfailed offsetFails offer told _ (fun t' hmem => ht t' (mem_cons_of_mem _ hmem)) ?_
    rcases onStreamWriteConsumed_partial (s := s) (ht t mem_cons_self) offsetFails offer with heq | heq
    · rw [heq]
      exact h
    · rw [heq]
      exact hfailed s h

namespace Inv

variable {s : State}

theorem frame (h : Inv s) (credit : Bool) (written : Written) (offsetFails : Bool) (offer : Offer) :
    Inv (step s (.frame credit written offsetFails offer)) := by
  change Inv ((s.conn.writeFrame credit written).2.foldl (onStreamWriteConsumed offsetFails offer)
    { s with conn := (s.conn.writeFrame credit written).1 })
  have hlive := h.live.writeFrame credit written
  rcases Conn.writeFrame_cases s.conn credit written with ⟨htold, hsame⟩ | ⟨s₁, id, write, rest, n, hsame,
    hrun, -, hw, -, heq⟩
  · rw [htold]
    refine h.keeps hlive (fun hconn => ?_) fun id write hmem => (hsame.writes id).symm ▸ hmem
    by_contra hretired
    have hretired : s.conn.retired = true := by simpa using hretired
    have hnone : s.conn.writeFrame credit written = (s.conn, []) := by
      unfold Conn.writeFrame
      rw [if_pos hretired]
    rw [hnone, hretired] at hconn
    cases hconn
  · rw [heq] at hlive ⊢
    have hw₁ : s₁.writes id = write :: rest := (hsame.writes id).trans hw
    obtain ⟨advanced, told, -, -, hothers, htold, hcase⟩ := Conn.advanceWrite_cases hw₁ n
    have hpartial : ∀ t ∈ told, t.complete = false := fun t ht => (htold t ht).2
    rcases hcase with ⟨-, -, -, hdone⟩ | ⟨hfirst, -, hmore⟩
    · rw [hdone, foldl_append]
      -- the last of it is told as complete, so nothing is asked of what came before but that it was set up
      have hbase : SetUp (told.foldl (onStreamWriteConsumed offsetFails offer)
          { s with conn := (s₁.advanceWrite id n).1 }) :=
        foldl_partial (P := SetUp) (fun s' hs' => hs'.connectionFailed) offsetFails offer told _ hpartial
          ⟨hlive, h.setUp⟩
      exact Inv.told hbase (fun hcomplete => absurd hcomplete.symm Bool.false_ne_true) offsetFails offer
    · rw [hmore]
      apply foldl_partial (P := Inv) (fun s' hs' => hs'.connectionFailed)
      · exact hpartial
      · refine ⟨⟨hlive, h.setUp⟩, fun _ hsession hwp => ?_⟩
        obtain ⟨id', write', hne, hmem, htag⟩ := h.pending hrun hsession hwp
        by_cases hid : id' = id
        · subst hid
          rw [hw] at hmem
          rcases mem_cons.1 hmem with rfl | hmem
          · refine ⟨id', { write' with offset := write'.offset + advanced }, hne, ?_, htag⟩
            rw [hfirst]
            exact mem_cons_self
          · refine ⟨id', write', hne, ?_, htag⟩
            rw [hfirst]
            exact mem_cons_of_mem _ hmem
        · refine ⟨id', write', hne, ?_, htag⟩
          rw [hothers id' hid, hsame.writes]
          exact hmem

end Inv

theorem holds_erased {conn : Conn Writer}
    (hwrites : ∀ other, conn.writes other = if other = id then [] else s.conn.writes other) :
    Holds { s with conn } none ↔ Holds s (some id) := by
  constructor
  · rintro ⟨other, write, -, hmem, htag⟩
    rw [hwrites] at hmem
    split at hmem
    · cases hmem
    · rename_i hne
      exact ⟨other, write, fun heq => hne (Option.some.inj heq).symm, hmem, htag⟩
  · rintro ⟨other, write, hne, hmem, htag⟩
    refine ⟨other, write, (Option.some_ne_none other).symm, ?_, htag⟩
    rw [hwrites, if_neg fun heq => hne (congrArg some heq.symm)]
    exact hmem

theorem step_closed {closeFails : Bool} (h : (s.http3 && closeFails) = false) :
    step s (.closed id closeFails) = { s with conn := s.conn.onStreamClosed id } := by
  simp only [step, onStreamClosed]
  rw [if_neg (by simpa using h)]

theorem step_inv (h : Inv s) (e : Event) (hspares : Spares s e) : Inv (step s e) := by
  cases e with
  | ready =>
    unfold step
    dsimp only
    split
    · exact h
    · exact ⟨⟨h.live, fun _ _ => rfl⟩, h.pending⟩
  | pump offer => exact h.pump offer
  | write id data fin =>
    exact h.keeps (h.live.writeStreamData id .other data fin) writeStreamData_retired fun other write hmem =>
      writeStreamData_keeps s.conn id .other data fin hmem
  | frame credit written offsetFails offer => exact h.frame credit written offsetFails offer
  | extend id unblockFails offer =>
    have hextended : Inv { s with conn := s.conn.onExtendMaxStreamData id } := by
      refine h.keeps (h.live.onExtendMaxStreamData id) (fun hconn => ?_) fun other write hmem => ?_
      · rwa [Conn.onExtendMaxStreamData_retired] at hconn
      · rwa [Conn.onExtendMaxStreamData_writes]
    change Inv (onStreamWritable _ unblockFails offer)
    unfold onStreamWritable
    split
    · exact hextended.connectionFailed
    · exact hextended.pump offer
  | abort id =>
    refine ⟨⟨h.live.shutdownStream id, h.setUp⟩, fun hconn hrun hw => ?_⟩
    have hconn : s.conn.retired = false := (Conn.shutdownStream_retired s.conn id).symm.trans hconn
    exact (holds_erased fun other => Conn.shutdownStream_writes hconn id other).2 (hspares hconn hrun hw)
  | closed id closeFails =>
    have hset : SetUp { s with conn := s.conn.onStreamClosed id } := ⟨h.live.onStreamClosed id, h.setUp⟩
    by_cases hfails : (s.http3 && closeFails) = true
    · have hstep : step s (.closed id closeFails) =
        connectionFailed { s with conn := s.conn.onStreamClosed id } := by
        simp only [step, onStreamClosed]
        rw [if_pos (by simpa using hfails)]
      rw [hstep]
      refine ⟨hset.connectionFailed, fun _ hrun => ?_⟩
      unfold connectionFailed at hrun
      split at hrun
      · rename_i hretired
        rw [hretired] at hrun
        cases hrun
      · cases hrun
    · have hfails : (s.http3 && closeFails) = false := by simpa using hfails
      rw [step_closed hfails]
      refine ⟨hset, fun hconn hrun hw => ?_⟩
      exact (holds_erased fun other => Conn.onStreamClosed_writes s.conn id other).2
        (hspares hconn hrun hfails hw)
  | connFailed => exact ⟨⟨Conn.live_of_retired rfl, h.setUp⟩, fun hconn => absurd hconn.symm Bool.false_ne_true⟩
  | sessionFailed => exact h.connectionFailed

theorem step_strands (e : Event) (hnot : ¬ Spares s e) : ¬ NotStranded (step s e) := by
  intro hstep
  cases e with
  | abort id =>
    refine hnot fun hconn hrun hw => ?_
    have hconn' : (s.conn.shutdownStream id).retired = false :=
      (Conn.shutdownStream_retired s.conn id).trans hconn
    exact (holds_erased fun other => Conn.shutdownStream_writes hconn id other).1 ((hstep hconn' hrun).2 hw)
  | closed id closeFails =>
    refine hnot fun hconn hrun hfails hw => ?_
    rw [step_closed hfails] at hstep
    exact (holds_erased fun other => Conn.onStreamClosed_writes s.conn id other).1 ((hstep hconn hrun).2 hw)
  | _ => exact hnot trivial

/-- **No output is stranded all along a run exactly when no stream that holds the session's pending write
is aborted or closed.** -/
theorem not_stranded_iff (l : List Event) :
    (∀ pre, pre <+: l → NotStranded (run step {} pre)) ↔ Along step Spares {} l :=
  forall_prefix_iff_along (P := Inv) (fun _ h => h.notStranded) (fun _ e h => step_inv h e)
    (fun _ e _ => step_strands e) inv_init l

/-- A request is written, and cancelled before the connection has taken it: nothing is pumped after that.
-/
theorem aborted_write_strands :
    let s := run step {} [.ready, .pump (.output 0 [1] true), .abort 0]
    ¬ NotStranded s ∧ (step s (.pump (.output 4 [2] true))).conn.writes 4 = [] := by
  refine ⟨fun h => ?_, rfl⟩
  obtain ⟨id, write, -, hmem, -⟩ := (h rfl rfl).2 rfl
  cases hmem

end ClashNative.Quic.Http3Output
