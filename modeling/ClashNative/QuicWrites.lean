import ClashNative.CoreTypes
import Mathlib.Data.List.AList
import Mathlib.Data.Finset.Basic
/-!
# QuicWrites — the write side of a QUIC client connection

`QuicClientConnection::Impl` of `quic_client.cpp`: the queued writes of each stream, and which streams are
ready or blocked.  What ngtcp2 answers is an argument.  One turn of the write loop is one step, and what
it tells the users of the connection is left to them; a call they make from there is the next step.
Stream identifiers are not negative.
-/
namespace ClashNative.Quic

open List

abbrev StreamId := Nat

/-- `Impl::PendingWrite`; `tag` is its user's name for it. -/
structure PendingWrite (τ : Type) where
  tag : τ
  bytes : List UInt8
  offset : Nat := 0
  fin : Bool
  deriving DecidableEq, Repr

/-- `Impl`, the fields its writes use.  `consumed` records the writes ngtcp2 has taken whole. -/
structure Conn (τ : Type) where
  retired : Bool := false
  streamWrites : AList (fun _ : StreamId => List (PendingWrite τ)) := ∅
  finishedStreams : Finset StreamId := ∅
  blockedStreams : Finset StreamId := ∅
  scheduledStreams : Finset StreamId := ∅
  readyStreams : List StreamId := []
  consumed : List (StreamId × τ) := []

/-- What `ngtcp2_conn_writev_stream` returns: it wants more, the stream is blocked, another error, or what
it wrote. `consumed` is what it took of the stream, when it says. -/
inductive Written
  | writeMore (consumed : Option Nat)
  | blocked
  | error
  | packet (consumed : Option Nat)
  deriving DecidableEq, Repr

structure Consumed where
  stream : StreamId
  length : Nat
  complete : Bool
  deriving DecidableEq, Repr

namespace Conn

variable {τ : Type}

def writes (s : Conn τ) (id : StreamId) : List (PendingWrite τ) := (s.streamWrites.lookup id).getD []

def queueStream (s : Conn τ) (id : StreamId) : Conn τ :=
  if s.retired ∨ id ∈ s.blockedStreams ∨ id ∈ s.scheduledStreams then s
  else if s.writes id = [] then s
  else { s with scheduledStreams := insert id s.scheduledStreams, readyStreams := s.readyStreams ++ [id] }

/-- `write_stream_data`.  Data behind a FIN has been refused by then, so the second test never fails. -/
def writeStreamData (s : Conn τ) (id : StreamId) (tag : τ) (data : List UInt8) (fin : Bool) : Conn τ :=
  if s.retired ∨ id ∈ s.finishedStreams then s
  else if (s.writes id).getLast?.any (·.fin) then { s with retired := true }
  else queueStream { s with
    streamWrites := s.streamWrites.insert id (s.writes id ++ [{ tag, bytes := data, fin }]),
    finishedStreams := if fin then insert id s.finishedStreams else s.finishedStreams } id

def shutdownStream (s : Conn τ) (id : StreamId) : Conn τ :=
  if s.retired then s
  else { s with
    streamWrites := s.streamWrites.erase id,
    readyStreams := s.readyStreams.filter (· != id),
    scheduledStreams := s.scheduledStreams.erase id,
    blockedStreams := s.blockedStreams.erase id }

def onStreamClosed (s : Conn τ) (id : StreamId) : Conn τ :=
  { s with
    streamWrites := s.streamWrites.erase id,
    finishedStreams := s.finishedStreams.erase id,
    blockedStreams := s.blockedStreams.erase id,
    scheduledStreams := s.scheduledStreams.erase id,
    readyStreams := s.readyStreams.filter (· != id) }

/-- `on_extend_max_stream_data`, before it is told. -/
def onExtendMaxStreamData (s : Conn τ) (id : StreamId) : Conn τ :=
  queueStream { s with blockedStreams := s.blockedStreams.erase id } id

/-- The loop of `take_writable_stream`, over the ready queue. -/
def takeLoop : List StreamId → Conn τ → Option StreamId × Conn τ
  | [], s => (none, { s with readyStreams := [] })
  | id :: rest, s =>
    let s := { s with readyStreams := rest, scheduledStreams := s.scheduledStreams.erase id }
    if id ∈ s.blockedStreams then takeLoop rest s
    else if s.writes id = [] then takeLoop rest s
    else (some id, s)

def takeWritableStream (s : Conn τ) : Option StreamId × Conn τ := takeLoop s.readyStreams s

/-- `advance_write`, with what it tells.  The FIN flag it is given is the write's own. -/
def advanceWrite (s : Conn τ) (id : StreamId) (consumed : Nat) : Conn τ × List Consumed :=
  match s.writes id with
  | [] => (s, [])
  | write :: rest =>
    let advanced := min (write.bytes.length - write.offset) consumed
    let told : List Consumed := if advanced ≠ 0 then [⟨id, advanced, false⟩] else []
    if write.offset + advanced = write.bytes.length then
      let s := { s with consumed := s.consumed ++ [(id, write.tag)] }
      if write.fin then ({ s with streamWrites := s.streamWrites.erase id }, told ++ [⟨id, 0, true⟩])
      else (queueStream { s with streamWrites := s.streamWrites.insert id rest } id, told ++ [⟨id, 0, true⟩])
    else (queueStream { s with
      streamWrites := s.streamWrites.insert id
        ({ write with offset := write.offset + advanced } :: rest) } id, told)

def fail (s : Conn τ) : Conn τ := { s with retired := true }

/-- One turn of the inner loop of `write_packets`, over streams: `credit` says whether the connection's
flow control lets data through. -/
def writeFrame (s : Conn τ) (credit : Bool) (written : Written) : Conn τ × List Consumed :=
  if s.retired then (s, [])
  else
    let (target, s) := if credit then takeWritableStream s else (none, s)
    match target with
    | none =>
      match written with
      | .blocked | .error => (fail s, [])
      | _ => (s, [])
    | some id =>
      match written with
      | .writeMore none => (fail s, [])
      | .writeMore (some consumed) => advanceWrite s id consumed
      | .blocked => ({ s with blockedStreams := insert id s.blockedStreams }, [])
      | .error => (fail s, [])
      | .packet none => (queueStream s id, [])
      | .packet (some consumed) => advanceWrite s id consumed

/-! ## Which streams can write -/

/-- **Every stream with queued writes is ready once or blocked**, but `hand`, which the write loop has
taken. -/
structure Queued (hand : Option StreamId) (s : Conn τ) : Prop where
  nodup : s.readyStreams.Nodup
  scheduled : ∀ id, id ∈ s.scheduledStreams ↔ id ∈ s.readyStreams
  disjoint : ∀ id ∈ s.readyStreams, id ∉ s.blockedStreams
  covered : ∀ id, s.writes id ≠ [] → id ∈ s.readyStreams ∨ id ∈ s.blockedStreams ∨ hand = some id

theorem queued_init : Queued none ({} : Conn τ) := by
  constructor
  · exact nodup_nil
  · intro id
    simp
  · intro id hid
    cases hid
  · intro id hid
    exact absurd rfl hid

/-! ### What each function leaves alone -/

@[simp] theorem queueStream_writes (s : Conn τ) (id other : StreamId) :
    (s.queueStream id).writes other = s.writes other := by
  unfold queueStream
  split
  · rfl
  · split <;> rfl

@[simp] theorem queueStream_retired (s : Conn τ) (id : StreamId) : (s.queueStream id).retired = s.retired := by
  unfold queueStream
  split
  · rfl
  · split <;> rfl

@[simp] theorem queueStream_finished (s : Conn τ) (id : StreamId) :
    (s.queueStream id).finishedStreams = s.finishedStreams := by
  unfold queueStream
  split
  · rfl
  · split <;> rfl

@[simp] theorem queueStream_consumed (s : Conn τ) (id : StreamId) :
    (s.queueStream id).consumed = s.consumed := by
  unfold queueStream
  split
  · rfl
  · split <;> rfl

theorem writes_insert (s : Conn τ) (id other : StreamId) (ws : List (PendingWrite τ)) :
    ({ s with streamWrites := s.streamWrites.insert id ws } : Conn τ).writes other =
      if other = id then ws else s.writes other := by
  unfold writes
  split
  · rename_i h
    rw [h, AList.lookup_insert]
    rfl
  · rename_i h
    rw [AList.lookup_insert_ne h]

theorem writes_erase (s : Conn τ) (id other : StreamId) :
    ({ s with streamWrites := s.streamWrites.erase id } : Conn τ).writes other =
      if other = id then [] else s.writes other := by
  unfold writes
  split
  · rename_i h
    rw [h, AList.lookup_erase]
    rfl
  · rename_i h
    rw [AList.lookup_erase_ne h]

variable {s : Conn τ}

theorem shutdownStream_writes (hrun : s.retired = false) (id other : StreamId) :
    (s.shutdownStream id).writes other = if other = id then [] else s.writes other := by
  unfold shutdownStream
  rw [hrun, if_neg Bool.false_ne_true]
  exact writes_erase s id other

theorem onStreamClosed_writes (s : Conn τ) (id other : StreamId) :
    (s.onStreamClosed id).writes other = if other = id then [] else s.writes other := writes_erase s id other

@[simp] theorem onExtendMaxStreamData_writes (s : Conn τ) (id other : StreamId) :
    (s.onExtendMaxStreamData id).writes other = s.writes other := queueStream_writes _ _ _

@[simp] theorem onExtendMaxStreamData_retired (s : Conn τ) (id : StreamId) :
    (s.onExtendMaxStreamData id).retired = s.retired := queueStream_retired _ _

@[simp] theorem shutdownStream_retired (s : Conn τ) (id : StreamId) :
    (s.shutdownStream id).retired = s.retired := by
  unfold shutdownStream
  split <;> rfl

theorem takeLoop_same : ∀ (l : List StreamId) (s : Conn τ), (takeLoop l s).2.streamWrites = s.streamWrites ∧
    (takeLoop l s).2.retired = s.retired ∧ (takeLoop l s).2.finishedStreams = s.finishedStreams ∧
    (takeLoop l s).2.consumed = s.consumed ∧ (takeLoop l s).2.blockedStreams = s.blockedStreams
  | [], s => ⟨rfl, rfl, rfl, rfl, rfl⟩
  | id :: rest, s => by
    have ih := takeLoop_same rest { s with
      readyStreams := rest, scheduledStreams := s.scheduledStreams.erase id }
    rw [takeLoop]
    split
    · exact ih
    · split
      · exact ih
      · exact ⟨rfl, rfl, rfl, rfl, rfl⟩

/-! ### Queueing and taking -/

namespace Queued

variable {s : Conn τ} {hand : Option StreamId} {id : StreamId}

theorem queue (h : Queued (some id) s) (hrun : s.retired = false) : Queued none (s.queueStream id) := by
  have hother : ∀ other, s.writes other ≠ [] → other ≠ id → other ∈ s.readyStreams ∨
    other ∈ s.blockedStreams := by
    intro other hw hne
    rcases h.covered other hw with hr | hb | heq
    · exact .inl hr
    · exact .inr hb
    · exact absurd (Option.some.inj heq).symm hne
  unfold queueStream
  split
  · rename_i hskip
    refine { h with covered := fun other hw => ?_ }
    by_cases hne : other = id
    · subst hne
      rcases hskip with hr | hb | hs
      · rw [hrun] at hr
        cases hr
      · exact .inr (.inl hb)
      · exact .inl ((h.scheduled other).1 hs)
    · rcases hother other hw hne with hr | hb
      · exact .inl hr
      · exact .inr (.inl hb)
  · rename_i hskip
    rw [not_or, not_or] at hskip
    split
    · rename_i hempty
      refine { h with covered := fun other hw => ?_ }
      have hne : other ≠ id := by
        rintro rfl
        exact hw hempty
      rcases hother other hw hne with hr | hb
      · exact .inl hr
      · exact .inr (.inl hb)
    · have hnot : id ∉ s.readyStreams := fun hr => hskip.2.2 ((h.scheduled id).2 hr)
      refine ⟨?_, fun other => ?_, fun other ho => ?_, fun other hw => ?_⟩
      · exact nodup_append.2 ⟨h.nodup, nodup_singleton _, fun a ha b hb heq =>
          hnot (mem_singleton.1 hb ▸ heq ▸ ha)⟩
      · simp only [Finset.mem_insert, mem_append, mem_singleton, h.scheduled other]
        exact or_comm
      · rcases mem_append.1 ho with ho | ho
        · exact h.disjoint other ho
        · rw [mem_singleton.1 ho]
          exact hskip.2.1
      · by_cases hne : other = id
        · exact .inl (mem_append_right _ (mem_singleton.2 hne))
        · rcases hother other hw hne with hr | hb
          · exact .inl (mem_append_left _ hr)
          · exact .inr (.inl hb)

theorem pop {rest : List StreamId} (h : Queued none s) (hready : s.readyStreams = id :: rest) :
    Queued (some id) { s with readyStreams := rest, scheduledStreams := s.scheduledStreams.erase id } ∧
      id ∉ rest ∧ id ∉ s.blockedStreams := by
  have hnodup := h.nodup
  have hsched := h.scheduled
  have hdisjoint := h.disjoint
  rw [hready, nodup_cons] at hnodup
  rw [hready] at hsched hdisjoint
  refine ⟨⟨hnodup.2, fun other => ?_, fun other ho => hdisjoint other (mem_cons_of_mem _ ho),
    fun other hw => ?_⟩,
    hnodup.1, hdisjoint id mem_cons_self⟩
  · rw [Finset.mem_erase, hsched, mem_cons]
    constructor
    · rintro ⟨hne, heq | hmem⟩
      · exact absurd heq hne
      · exact hmem
    · intro hmem
      exact ⟨fun heq => hnodup.1 (heq ▸ hmem), .inr hmem⟩
  · rcases h.covered other hw with hr | hb | heq
    · rw [hready] at hr
      rcases mem_cons.1 hr with rfl | hr
      · exact .inr (.inr rfl)
      · exact .inl hr
    · exact .inr (.inl hb)
    · cases heq

theorem release (h : Queued (some id) s) (hempty : s.writes id = []) : Queued none s := by
  refine { h with covered := fun other hw => ?_ }
  rcases h.covered other hw with hr | hb | heq
  · exact .inl hr
  · exact .inr (.inl hb)
  · rw [← Option.some.inj heq] at hw
    exact absurd hempty hw

theorem takeLoop : ∀ (l : List StreamId) {s : Conn τ}, Queued none s → s.readyStreams = l →
    Queued (Conn.takeLoop l s).1 (Conn.takeLoop l s).2 ∧
      ∀ id, (Conn.takeLoop l s).1 = some id → id ∉ (Conn.takeLoop l s).2.readyStreams ∧ s.writes id ≠ []
  | [], s, h, hready => by
    refine ⟨⟨nodup_nil, fun id => ?_, fun id hid => absurd hid not_mem_nil, fun id hw => ?_⟩,
      fun id hid => absurd hid.symm (Option.some_ne_none id)⟩
    · have hsched := h.scheduled id
      rw [hready] at hsched
      exact hsched
    · have hcov := h.covered id hw
      rw [hready] at hcov
      exact hcov
  | id :: rest, s, h, hready => by
    obtain ⟨hpop, hnot, hblocked⟩ := h.pop hready
    rw [Conn.takeLoop]
    rw [if_neg hblocked]
    split
    · rename_i hempty
      exact takeLoop rest (hpop.release hempty) rfl
    · rename_i hw
      refine ⟨hpop, fun other heq => ?_⟩
      rw [← Option.some.inj heq]
      exact ⟨hnot, hw⟩

theorem setWrites (h : Queued hand s) (ws : List (PendingWrite τ)) (hhand : hand = none ∨ hand = some id) :
    Queued (some id) { s with streamWrites := s.streamWrites.insert id ws } := by
  refine { h with covered := fun other hw => ?_ }
  rw [writes_insert] at hw
  by_cases hne : other = id
  · exact .inr (.inr (by rw [hne]))
  · rw [if_neg hne] at hw
    rcases h.covered other hw with hr | hb | heq
    · exact .inl hr
    · exact .inr (.inl hb)
    · rcases hhand with hnone | hsome
      · rw [hnone] at heq
        cases heq
      · rw [hsome] at heq
        exact absurd (Option.some.inj heq).symm hne

theorem forget (h : Queued hand s) (hhand : hand = none ∨ hand = some id) {finished blocked : Finset StreamId}
    (hblocked : ∀ other, other ∈ blocked ↔ other ≠ id ∧ other ∈ s.blockedStreams) :
    Queued none { s with
      streamWrites := s.streamWrites.erase id,
      finishedStreams := finished,
      blockedStreams := blocked,
      scheduledStreams := s.scheduledStreams.erase id,
      readyStreams := s.readyStreams.filter (· != id) } := by
  refine ⟨h.nodup.filter _, fun other => ?_, fun other ho => ?_, fun other hw => ?_⟩
  · rw [Finset.mem_erase, mem_filter, h.scheduled, bne_iff_ne, and_comm]
  · rw [hblocked]
    exact fun hb => h.disjoint other (mem_filter.1 ho).1 hb.2
  · have hw : ({ s with streamWrites := s.streamWrites.erase id } : Conn τ).writes other ≠ [] := hw
    rw [writes_erase] at hw
    by_cases hne : other = id
    · rw [if_pos hne] at hw
      exact absurd rfl hw
    · rw [if_neg hne] at hw
      rcases h.covered other hw with hr | hb | heq
      · exact .inl (mem_filter.2 ⟨hr, by simpa using hne⟩)
      · exact .inr (.inl ((hblocked other).2 ⟨hne, hb⟩))
      · rcases hhand with hnone | hsome
        · rw [hnone] at heq
          cases heq
        · rw [hsome] at heq
          exact absurd (Option.some.inj heq).symm hne

theorem eraseWrites (h : Queued (some id) s) : Queued none
    { s with streamWrites := s.streamWrites.erase id } := by
  refine { h with covered := fun other hw => ?_ }
  rw [writes_erase] at hw
  by_cases hne : other = id
  · rw [if_pos hne] at hw
    exact absurd rfl hw
  · rw [if_neg hne] at hw
    rcases h.covered other hw with hr | hb | heq
    · exact .inl hr
    · exact .inr (.inl hb)
    · exact absurd (Option.some.inj heq).symm hne

theorem block (h : Queued (some id) s) (hnot : id ∉ s.readyStreams) :
    Queued none { s with blockedStreams := insert id s.blockedStreams } := by
  refine ⟨h.nodup, h.scheduled, fun other ho => ?_, fun other hw => ?_⟩
  · rw [Finset.mem_insert, not_or]
    exact ⟨fun heq => hnot (heq ▸ ho), h.disjoint other ho⟩
  · rcases h.covered other hw with hr | hb | heq
    · exact .inl hr
    · exact .inr (.inl (Finset.mem_insert_of_mem hb))
    · exact .inr (.inl (Finset.mem_insert.2 (.inl (Option.some.inj heq).symm)))

theorem unblock (h : Queued none s) (id : StreamId) :
    Queued (some id) { s with blockedStreams := s.blockedStreams.erase id } := by
  refine ⟨h.nodup, h.scheduled, fun other ho hb => ?_, fun other hw => ?_⟩
  · exact h.disjoint other ho (Finset.mem_of_mem_erase hb)
  · by_cases hne : other = id
    · exact .inr (.inr (by rw [hne]))
    · rcases h.covered other hw with hr | hb | heq
      · exact .inl hr
      · exact .inr (.inl (Finset.mem_erase.2 ⟨hne, hb⟩))
      · cases heq

end Queued

/-! ### Steps -/

def Live (s : Conn τ) : Prop := s.retired = false → Queued none s

theorem Queued.live (h : Queued none s) : s.Live := fun _ => h

theorem live_of_retired (h : s.retired = true) : s.Live := by
  intro hrun
  rw [h] at hrun
  cases hrun

namespace Live

variable {s : Conn τ}

theorem writeStreamData (h : s.Live) (id : StreamId) (tag : τ) (data : List UInt8) (fin : Bool) :
    (s.writeStreamData id tag data fin).Live := by
  unfold Conn.writeStreamData
  split
  · exact h
  · rename_i hskip
    rw [not_or] at hskip
    have hrun : s.retired = false := by simpa using hskip.1
    split
    · exact live_of_retired rfl
    · have hset : Queued (some id) { s with
          streamWrites := s.streamWrites.insert id (s.writes id ++ [{ tag, bytes := data, fin }]) } :=
        (h hrun).setWrites _ (.inl rfl)
      exact (Queued.queue (s := { s with
        streamWrites := s.streamWrites.insert id (s.writes id ++ [{ tag, bytes := data, fin }]),
        finishedStreams := if fin then insert id s.finishedStreams else s.finishedStreams })
        { hset with } hrun).live

theorem shutdownStream (h : s.Live) (id : StreamId) : (s.shutdownStream id).Live := by
  unfold Conn.shutdownStream
  split
  · exact h
  · rename_i hrun
    have hrun : s.retired = false := by simpa using hrun
    exact ((h hrun).forget (.inl rfl) fun other => Finset.mem_erase).live

theorem onStreamClosed (h : s.Live) (id : StreamId) : (s.onStreamClosed id).Live := by
  intro hrun
  exact (h hrun).forget (.inl rfl) fun other => Finset.mem_erase

theorem onExtendMaxStreamData (h : s.Live) (id : StreamId) : (s.onExtendMaxStreamData id).Live := by
  intro hrun
  unfold Conn.onExtendMaxStreamData at hrun ⊢
  rw [queueStream_retired] at hrun
  exact ((h hrun).unblock id).queue hrun

end Live

variable {id : StreamId}

theorem advanceWrite_queued (h : Queued (some id) s) (hrun : s.retired = false)
    (consumed : Nat) : Queued none (s.advanceWrite id consumed).1 := by
  unfold advanceWrite
  split
  · rename_i hempty
    exact h.release hempty
  · dsimp only
    split
    · split
      · exact ⟨h.eraseWrites.nodup, h.eraseWrites.scheduled, h.eraseWrites.disjoint, h.eraseWrites.covered⟩
      · rename_i write rest _ _ _
        have hset := h.setWrites rest (.inr rfl)
        exact Queued.queue (s := { s with
          consumed := s.consumed ++ [(id, write.tag)], streamWrites := s.streamWrites.insert id rest })
          { hset with } hrun
    · exact (h.setWrites _ (.inr rfl)).queue hrun

theorem Live.writeFrame (h : s.Live) (credit : Bool) (written : Written) :
    (s.writeFrame credit written).1.Live := by
  unfold Conn.writeFrame
  split
  · exact h
  · rename_i hrun
    have hrun : s.retired = false := by simpa using hrun
    have hq := h hrun
    cases credit with
    | false =>
      cases written with
      | writeMore consumed => exact h
      | blocked => exact live_of_retired rfl
      | error => exact live_of_retired rfl
      | packet consumed => exact h
    | true =>
      obtain ⟨htake, hnot⟩ := hq.takeLoop s.readyStreams rfl
      have hrun' : (takeLoop s.readyStreams s).2.retired = false := by rw [(takeLoop_same _ s).2.1, hrun]
      rw [if_pos rfl, takeWritableStream]
      generalize takeLoop s.readyStreams s = taken at htake hnot hrun'
      obtain ⟨target, s'⟩ := taken
      cases target with
      | none =>
        cases written with
        | writeMore consumed => exact htake.live
        | blocked => exact live_of_retired rfl
        | error => exact live_of_retired rfl
        | packet consumed => exact htake.live
      | some id =>
        cases written with
        | writeMore consumed =>
          cases consumed with
          | none => exact live_of_retired rfl
          | some n => exact (advanceWrite_queued htake hrun' n).live
        | blocked => exact (htake.block (hnot id rfl).1).live
        | error => exact live_of_retired rfl
        | packet consumed =>
          cases consumed with
          | none => exact (htake.queue hrun').live
          | some n => exact (advanceWrite_queued htake hrun' n).live

/-! ### What a turn of the write loop takes -/

theorem advanceWrite_cases {write : PendingWrite τ} {rest : List (PendingWrite τ)}
    (hw : s.writes id = write :: rest) (consumed : Nat) :
    ∃ advanced told, (s.advanceWrite id consumed).1.retired = s.retired ∧
      (s.advanceWrite id consumed).1.finishedStreams = s.finishedStreams ∧
      (∀ other, other ≠ id → (s.advanceWrite id consumed).1.writes other = s.writes other) ∧
      (∀ t ∈ told, t.stream = id ∧ t.complete = false) ∧
      ((write.offset + advanced = write.bytes.length ∧
          (s.advanceWrite id consumed).1.writes id = (if write.fin then [] else rest) ∧
          (s.advanceWrite id consumed).1.consumed = s.consumed ++ [(id, write.tag)] ∧
          (s.advanceWrite id consumed).2 = told ++ [⟨id, 0, true⟩]) ∨
        ((s.advanceWrite id consumed).1.writes id = { write with offset := write.offset + advanced } :: rest ∧
          (s.advanceWrite id consumed).1.consumed = s.consumed ∧ (s.advanceWrite id consumed).2 = told)) := by
  have htold : ∀ (n : Nat) (t : Consumed), t ∈ (if n ≠ 0 then [⟨id, n, false⟩] else [] : List Consumed) →
      t.stream = id ∧ t.complete = false := by
    intro n t ht
    split at ht
    · rw [mem_singleton.1 ht]
      exact ⟨rfl, rfl⟩
    · cases ht
  refine ⟨min (write.bytes.length - write.offset) consumed, _, ?_, ?_, fun other hne => ?_, htold
    (min (write.bytes.length - write.offset) consumed), ?_⟩
  · unfold advanceWrite
    rw [hw]
    dsimp only
    split
    · split
      · rfl
      · exact queueStream_retired _ _
    · exact queueStream_retired _ _
  · unfold advanceWrite
    rw [hw]
    dsimp only
    split
    · split
      · rfl
      · exact queueStream_finished _ _
    · exact queueStream_finished _ _
  · unfold advanceWrite
    rw [hw]
    dsimp only
    split
    · split
      · exact (writes_erase _ _ _).trans (if_neg hne)
      · rw [queueStream_writes]
        exact (writes_insert _ _ _ _).trans (if_neg hne)
    · rw [queueStream_writes]
      exact (writes_insert _ _ _ _).trans (if_neg hne)
  · unfold advanceWrite
    rw [hw]
    dsimp only
    by_cases hdone : write.offset + min (write.bytes.length - write.offset) consumed = write.bytes.length
    · rw [if_pos hdone]
      refine .inl ⟨hdone, ?_, ?_, ?_⟩
      · split
        · exact (writes_erase _ _ _).trans (if_pos rfl)
        · rw [queueStream_writes]
          exact (writes_insert _ _ _ _).trans (if_pos rfl)
      · split
        · rfl
        · exact queueStream_consumed _ _
      · split <;> rfl
    · rw [if_neg hdone]
      refine .inr ⟨?_, queueStream_consumed _ _, rfl⟩
      rw [queueStream_writes]
      exact (writes_insert _ _ _ _).trans (if_pos rfl)

structure SameWrites (s s' : Conn τ) : Prop where
  writes : ∀ id, s'.writes id = s.writes id
  finished : s'.finishedStreams = s.finishedStreams
  consumed : s'.consumed = s.consumed

theorem SameWrites.refl (s : Conn τ) : SameWrites s s := ⟨fun _ => rfl, rfl, rfl⟩

theorem writeFrame_cases (s : Conn τ) (credit : Bool) (written : Written) :
    ((s.writeFrame credit written).2 = [] ∧ SameWrites s (s.writeFrame credit written).1) ∨
    ∃ (s₁ : Conn τ) (id : StreamId) (write : PendingWrite τ) (rest : List (PendingWrite τ)) (n : Nat),
      SameWrites s s₁ ∧ s.retired = false ∧ s₁.retired = false ∧ s.writes id = write :: rest ∧
      (credit = true ∧ s.takeWritableStream.1 = some id ∧ written ≠ .error) ∧
      s.writeFrame credit written = s₁.advanceWrite id n := by
  unfold writeFrame
  split
  · exact .inl ⟨rfl, SameWrites.refl s⟩
  · rename_i hrun
    have hrun : s.retired = false := by simpa using hrun
    cases credit with
    | false =>
      refine .inl ?_
      cases written with
      | writeMore consumed => exact ⟨rfl, SameWrites.refl s⟩
      | blocked => exact ⟨rfl, fun _ => rfl, rfl, rfl⟩
      | error => exact ⟨rfl, fun _ => rfl, rfl, rfl⟩
      | packet consumed => exact ⟨rfl, SameWrites.refl s⟩
    | true =>
      obtain ⟨hstream, hretired, hfinished, hconsumed, -⟩ := takeLoop_same s.readyStreams s
      have hsame : SameWrites s (takeLoop s.readyStreams s).2 :=
        ⟨fun other => by unfold writes; rw [hstream], hfinished, hconsumed⟩
      rw [if_pos rfl, takeWritableStream]
      generalize takeLoop s.readyStreams s = taken at hsame hretired
      obtain ⟨target, s'⟩ := taken
      have hadvance : ∀ id n, target = some id → written ≠ .error →
          ((s'.advanceWrite id n).2 = [] ∧ SameWrites s (s'.advanceWrite id n).1) ∨
          ∃ (s₁ : Conn τ) (id' : StreamId) (write : PendingWrite τ) (rest : List (PendingWrite τ)) (n' : Nat),
            SameWrites s s₁ ∧ s.retired = false ∧ s₁.retired = false ∧ s.writes id' = write :: rest ∧
            (true = true ∧ target = some id' ∧ written ≠ .error) ∧
            s'.advanceWrite id n = s₁.advanceWrite id' n' := by
        intro id n htarget hwritten
        cases hw : s'.writes id with
        | nil =>
          have hnone : s'.advanceWrite id n = (s', []) := by
            unfold advanceWrite
            rw [hw]
          rw [hnone]
          exact .inl ⟨rfl, hsame⟩
        | cons write rest =>
          exact .inr ⟨s', id, write, rest, n, hsame, hrun, hretired.trans hrun, (hsame.writes id).symm.trans hw,
            ⟨rfl, htarget, hwritten⟩, rfl⟩
      cases target with
      | none =>
        refine .inl ?_
        cases written with
        | writeMore consumed => exact ⟨rfl, hsame⟩
        | blocked => exact ⟨rfl, hsame.writes, hsame.finished, hsame.consumed⟩
        | error => exact ⟨rfl, hsame.writes, hsame.finished, hsame.consumed⟩
        | packet consumed => exact ⟨rfl, hsame⟩
      | some id =>
        cases written with
        | writeMore consumed =>
          cases consumed with
          | none => exact .inl ⟨rfl, hsame.writes, hsame.finished, hsame.consumed⟩
          | some n => exact hadvance id n rfl Written.noConfusion
        | blocked => exact .inl ⟨rfl, hsame.writes, hsame.finished, hsame.consumed⟩
        | error => exact .inl ⟨rfl, hsame.writes, hsame.finished, hsame.consumed⟩
        | packet consumed =>
          cases consumed with
          | none =>
            refine .inl ⟨rfl, fun other => ?_, ?_, ?_⟩
            · exact (queueStream_writes _ _ _).trans (hsame.writes other)
            · exact (queueStream_finished _ _).trans hsame.finished
            · exact (queueStream_consumed _ _).trans hsame.consumed
          | some n => exact hadvance id n rfl Written.noConfusion

end Conn
end ClashNative.Quic
