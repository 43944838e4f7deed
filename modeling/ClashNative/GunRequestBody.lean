import ClashNative.GunFrames
import ClashNative.Runs
/-!
# GunRequestBody — the request body of a Tun stream

`GunRequestBody` of `gun_stream.cpp`: frames wait in `writes_` up to a capacity and in `overflow_` behind
it, and reads take them out. The body keeps what it was given, in order, and no read waits on bytes that
are there, in every run in which nothing has to leave `overflow_` before its time (`Meets`).
-/
namespace ClashNative.Gun

open List

def kRequestQueueCapacity : Nat := 256 * 1024

/-- `QueuedWrite`: what has not been read of it, and the size its handler is told. -/
structure QueuedWrite where
  rest : Bytes
  size : Nat
  deriving DecidableEq, Repr

inductive BodyRead
  | bytes (data : Bytes)
  | eof
  | alreadyStarted
  deriving DecidableEq, Repr

/-- `room`: the buffer size of the parked read; `delivered`: what is in its buffer.  `handed` is what the
reads have returned, `accepted` what the writes have brought, `answered` the write handlers that were
called, `late` what was unread whenever an end was reported. -/
structure GunRequestBody where
  writes : List QueuedWrite := []
  overflow : List QueuedWrite := []
  queuedBytes : Nat := 0
  room : Option Nat := none
  delivered : Bytes := []
  eof : Bool := false
  reads : List BodyRead := []
  answered : List Nat := []
  handed : Bytes := []
  accepted : Bytes := []
  late : List Bytes := []
  deriving DecidableEq, Repr

def rests (writes : List QueuedWrite) : Bytes := writes.flatMap QueuedWrite.rest

namespace GunRequestBody

def unread (s : GunRequestBody) : Bytes := rests s.writes ++ rests s.overflow

/-- The loop of `pump_reads`, over what is left of `writes_`. -/
def fill (room : Nat) : List QueuedWrite → GunRequestBody → GunRequestBody
  | [], s => { s with writes := [] }
  | front :: writes, s =>
    let amount := min (room - s.delivered.length) front.rest.length
    if amount = 0 then { s with writes := front :: writes }
    else
      let s := { s with delivered := s.delivered ++
          front.rest.take amount, queuedBytes := s.queuedBytes - amount }
      if amount = front.rest.length then fill room writes { s with answered := s.answered ++ [front.size] }
      -- the buffer is full: the next turn of the loop breaks
      else { s with writes := { front with rest := front.rest.drop amount } :: writes }

/-- `admit_overflow`, over what is left of `overflow_`. -/
def admitOverflow : List QueuedWrite → GunRequestBody → GunRequestBody
  | [], s => { s with overflow := [] }
  | front :: overflow, s =>
    if s.queuedBytes + front.rest.length ≤ kRequestQueueCapacity then
      admitOverflow overflow { s with queuedBytes := s.queuedBytes + front.rest.length, writes :=
        s.writes ++ [front] }
    else { s with overflow := front :: overflow }

/-- The end of `pump_reads`: the read is answered, or goes on waiting. -/
def settle (s : GunRequestBody) (room : Nat) : GunRequestBody :=
  if s.delivered ≠ [] ∧ (s.writes = [] ∨ s.delivered.length = room) then
    { s with
      room := none, delivered := [], reads := s.reads ++ [.bytes s.delivered],
      handed := s.handed ++ s.delivered }
  else if s.writes = [] ∧ s.eof then
    { s with room := none, reads := s.reads ++ [.eof], late := s.late ++ [s.unread] }
  else s

def pumpReads (s : GunRequestBody) : GunRequestBody :=
  match s.room with
  | none => s
  | some room =>
    let filled := fill room s.writes s
    (admitOverflow filled.overflow filled).settle room

/-- `write`, of the frame that `GunStreamState::send` makes of a payload. -/
def write (s : GunRequestBody) (payload : Bytes) : GunRequestBody :=
  if kMaxFramePayload < payload.length then s
  else
    let frame := encodeFrame payload
    let s := { s with accepted := s.accepted ++ frame }
    let queued : QueuedWrite := ⟨frame, frame.length⟩
    if kRequestQueueCapacity < s.queuedBytes + frame.length then { s with overflow := s.overflow ++ [queued] }
    else { s with queuedBytes := s.queuedBytes + frame.length, writes := s.writes ++ [queued] }.pumpReads

def readSome (s : GunRequestBody) (room : Nat) : GunRequestBody :=
  if room = 0 then { s with reads := s.reads ++ [.bytes []] }
  else if s.room.isSome then { s with reads := s.reads ++ [.alreadyStarted] }
  else { s with room := some room }.pumpReads

def finish (s : GunRequestBody) : GunRequestBody := if s.eof then s else { s with eof := true }.pumpReads

end GunRequestBody

inductive BodyEvent
  | write (payload : Bytes)
  | read (room : Nat)
  | finish
  deriving DecidableEq, Repr

namespace GunRequestBody

def step (s : GunRequestBody) : BodyEvent → GunRequestBody
  | .write payload => s.write payload
  | .read room => s.readSome room
  | .finish => s.finish

def run (events : List BodyEvent) : GunRequestBody := Runs.run step {} events

/-- **What is promised**: no read waits while bytes are queued; what the reads return and what is left is
what was accepted, in order; an end was never reported with bytes unread. -/
structure Sound (s : GunRequestBody) : Prop where
  awake : s.room.isSome = true → s.unread = []
  fifo : s.handed ++ s.unread = s.accepted
  complete : ∀ left ∈ s.late, left = []

/-- **The condition**: a frame fits the capacity, and none is let past one that waits; while one waits, no
read has room for more than is in front of it. -/
def Meets (s : GunRequestBody) : BodyEvent → Prop
  | .write payload => payload.length ≤ kMaxFramePayload → (encodeFrame payload).length ≤ kRequestQueueCapacity ∧
      (s.overflow ≠ [] → kRequestQueueCapacity < s.queuedBytes + (encodeFrame payload).length)
  | .read room => s.overflow ≠ [] → room ≤ s.queuedBytes
  | .finish => True

instance decidableMeets (s : GunRequestBody) : (e : BodyEvent) → Decidable (s.Meets e)
  | .write payload => inferInstanceAs (Decidable (payload.length ≤ kMaxFramePayload →
      (encodeFrame payload).length ≤ kRequestQueueCapacity ∧
      (s.overflow ≠ [] → kRequestQueueCapacity < s.queuedBytes + (encodeFrame payload).length)))
  | .read room => inferInstanceAs (Decidable (s.overflow ≠ [] → room ≤ s.queuedBytes))
  | .finish => inferInstanceAs (Decidable True)

structure Inv (s : GunRequestBody) : Prop where
  queued : s.queuedBytes = (rests s.writes).length
  settled : s.delivered = []
  awake : s.room.isSome = true → s.writes = [] ∧ s.overflow = []
  fifo : s.handed ++ s.unread = s.accepted
  complete : ∀ left ∈ s.late, left = []
  nonempty : ∀ w ∈ s.writes ++ s.overflow, w.rest ≠ []
  fits : ∀ w ∈ s.overflow, w.rest.length ≤ kRequestQueueCapacity
  waits : ∀ w overflow, s.overflow = w :: overflow → kRequestQueueCapacity < s.queuedBytes + w.rest.length
  roomy : ∀ room, s.room = some room → 0 < room

variable {s : GunRequestBody}

theorem Inv.sound (h : Inv s) : Sound s where
  awake hroom := by
    obtain ⟨hwrites, hoverflow⟩ := h.awake hroom
    unfold unread
    rw [hwrites, hoverflow]
    rfl
  fifo := h.fifo
  complete := h.complete

/-! ## What a pump moves -/

theorem rests_append (writes writes' : List QueuedWrite) :
    rests (writes ++ writes') = rests writes ++ rests writes' :=
  flatMap_append

theorem rests_eq_nil {writes : List QueuedWrite} (hne : ∀ w ∈ writes, w.rest ≠ [])
    (h : rests writes = []) : writes = [] := by
  cases writes with
  | nil => rfl
  | cons w writes => exact absurd (append_eq_nil_iff.1 h).1 (hne w mem_cons_self)

theorem fill_eq (room : Nat) : ∀ (writes : List QueuedWrite) (s : GunRequestBody), s.delivered.length ≤ room →
    s.queuedBytes = (rests writes).length → (∀ w ∈ writes, w.rest ≠ []) → ∃ writes' answered,
      fill room writes s = { s with
        writes := writes'
        delivered := s.delivered ++ (rests writes).take (room - s.delivered.length)
        queuedBytes := (rests writes').length
        answered := answered } ∧
      rests writes' = (rests writes).drop (room - s.delivered.length) ∧ ∀ w ∈ writes', w.rest ≠ []
  | [], s, _, hqueued, _ => by
    refine ⟨[], s.answered, ?_, drop_nil.symm, fun w hw => absurd hw not_mem_nil⟩
    have hzero : s.queuedBytes = 0 := hqueued
    unfold fill
    simp [rests, hzero]
  | front :: writes, s, hroom, hqueued, hne => by
    have hfront := length_pos_iff.2 (hne front mem_cons_self)
    have hne' : ∀ w ∈ writes, w.rest ≠ [] := fun w hw => hne w (mem_cons_of_mem front hw)
    have hrests : rests (front :: writes) = front.rest ++ rests writes := rfl
    rw [hrests, length_append] at hqueued
    rw [hrests]
    unfold fill
    by_cases hfull : room - s.delivered.length = 0
    · rw [if_pos (by omega), hfull]
      refine ⟨front :: writes, s.answered, ?_, rfl, hne⟩
      rw [take_zero, append_nil, hrests, length_append, ← hqueued]
    · rw [if_neg (by omega)]
      by_cases hwhole : front.rest.length ≤ room - s.delivered.length
      · rw [Nat.min_eq_right hwhole, if_pos rfl, take_length]
        obtain ⟨writes', answered, heq, hdrop, hnonempty⟩ := fill_eq room writes
          { s with delivered := s.delivered ++ front.rest, queuedBytes := s.queuedBytes - front.rest.length,
                   answered := s.answered ++ [front.size] }
          (by rw [length_append]; omega) (by show s.queuedBytes - front.rest.length = _; omega) hne'
        have hleft : room - (s.delivered ++ front.rest).length =
          room - s.delivered.length - front.rest.length := by
          rw [length_append]
          omega
        refine ⟨writes', answered, ?_, ?_, hnonempty⟩
        · rw [heq, hleft, take_append, take_of_length_le hwhole, append_assoc]
        · rw [hdrop, hleft, drop_append, drop_of_length_le hwhole, nil_append]
      · have hpart : room - s.delivered.length ≤ front.rest.length := by omega
        rw [Nat.min_eq_left hpart, if_neg (by omega)]
        refine ⟨{ front with rest := front.rest.drop (room - s.delivered.length) } :: writes, s.answered,
          ?_, ?_, fun w hw => ?_⟩
        · rw [take_append_of_le_length hpart]
          congr 1
          show s.queuedBytes - (room - s.delivered.length) =
            (front.rest.drop (room - s.delivered.length) ++ rests writes).length
          rw [length_append, length_drop]
          omega
        · rw [drop_append_of_le_length hpart]
          rfl
        · rcases mem_cons.1 hw with rfl | hw
          · exact fun hnil => absurd (drop_eq_nil_iff.1 hnil) (by omega)
          · exact hne' w hw

theorem admit_eq : ∀ (overflow : List QueuedWrite) (s : GunRequestBody), ∃ moved left, overflow = moved ++ left ∧
    admitOverflow overflow s = { s with
      queuedBytes := s.queuedBytes + (rests moved).length, writes := s.writes ++ moved, overflow := left } ∧
    ∀ w rest, left = w :: rest → kRequestQueueCapacity < s.queuedBytes + (rests moved).length + w.rest.length
  | [], s => ⟨[], [], rfl, by simp [admitOverflow, rests], fun w rest h => (nomatch h)⟩
  | front :: overflow, s => by
    unfold admitOverflow
    by_cases hfits : s.queuedBytes + front.rest.length ≤ kRequestQueueCapacity
    · rw [if_pos hfits]
      obtain ⟨moved, left, hsplit, heq, hwaits⟩ :=
        admit_eq overflow { s with queuedBytes := s.queuedBytes + front.rest.length, writes :=
          s.writes ++ [front] }
      have hsum : (rests (front :: moved)).length = front.rest.length + (rests moved).length := length_append
      refine ⟨front :: moved, left, by rw [hsplit]; rfl, ?_, fun w rest h => ?_⟩
      · rw [heq, hsum]
        simp [Nat.add_assoc]
      · have := hwaits w rest h
        rw [hsum, ← Nat.add_assoc]
        exact this
    · rw [if_neg hfits]
      refine ⟨[], front :: overflow, rfl, by simp [rests], fun w rest h => ?_⟩
      cases h
      simpa [rests] using hfits

theorem pumpReads_inv {room : Nat} (hparked : s.room = some room) (hroom : 0 < room)
    (hqueued : s.queuedBytes = (rests s.writes).length) (hsettled : s.delivered = [])
    (hfifo : s.handed ++ s.unread = s.accepted)
    (hcomplete : ∀ left ∈ s.late, left = []) (hne : ∀ w ∈ s.writes ++ s.overflow, w.rest ≠ [])
    (hfits : ∀ w ∈ s.overflow, w.rest.length ≤ kRequestQueueCapacity) (hmeets : s.overflow ≠ [] →
      room ≤ s.queuedBytes) :
    Inv s.pumpReads ∧ s.pumpReads.unread.length ≤ s.unread.length - 1 := by
  have hwrites : ∀ w ∈ s.writes, w.rest ≠ [] := fun w hw => hne w (mem_append_left _ hw)
  have hoverflow : ∀ w ∈ s.overflow, w.rest ≠ [] := fun w hw => hne w (mem_append_right _ hw)
  obtain ⟨writes, answered, hfill, hrests, hleft⟩ :=
    fill_eq room s.writes s (by rw [hsettled]; exact Nat.zero_le _) hqueued hwrites
  rw [hsettled, length_nil, Nat.sub_zero] at hrests
  rw [hsettled, nil_append, length_nil, Nat.sub_zero] at hfill
  obtain ⟨moved, left, hsplit, hadmit, hwaits⟩ := admit_eq s.overflow (fill room s.writes s)
  have hpump : s.pumpReads = (admitOverflow s.overflow (fill room s.writes s)).settle room := by
    unfold pumpReads
    rw [hparked]
    dsimp only
    rw [show (fill room s.writes s).overflow = s.overflow by rw [hfill]]
  rw [hfill] at hadmit hwaits
  rw [hpump, hfill, hadmit]
  -- what is unread behind the bytes that the read takes
  have hjoin : rests (writes ++ moved) ++ rests left = (rests s.writes).drop room ++ rests s.overflow := by
    rw [rests_append, hrests, hsplit, rests_append, append_assoc]
  have htaken : (rests s.writes).take room ++ ((rests s.writes).drop room ++ rests s.overflow) = s.unread := by
    rw [← append_assoc, take_append_drop]
    rfl
  have hmoved : ∀ w ∈ (writes ++ moved) ++ left, w.rest ≠ [] := by
    intro w hw
    rw [append_assoc, ← hsplit] at hw
    exact (mem_append.1 hw).elim (hleft w) (hoverflow w)
  have hfits' : ∀ w ∈ left, w.rest.length ≤ kRequestQueueCapacity := fun w hw =>
    hfits w (by rw [hsplit]; exact mem_append_right _ hw)
  have hqueued' : (rests writes).length + (rests moved).length = (rests (writes ++ moved)).length := by
    rw [rests_append, length_append]
  unfold settle
  by_cases hanswer : (rests s.writes).take room ≠ [] ∧ (writes ++ moved = [] ∨
    ((rests s.writes).take room).length = room)
  · rw [if_pos hanswer]
    constructor
    · refine ⟨hqueued', rfl, nofun, ?_, hcomplete, hmoved, hfits', hwaits, fun r hr => (nomatch hr)⟩
      show (s.handed ++ (rests s.writes).take room) ++ (rests (writes ++ moved) ++ rests left) = s.accepted
      rw [hjoin, append_assoc, htaken]
      exact hfifo
    · have htook := length_pos_iff.2 hanswer.1
      show (rests (writes ++ moved) ++ rests left).length ≤ s.unread.length - 1
      rw [hjoin, ← htaken, @length_append _ ((rests s.writes).take room)]
      omega
  · rw [if_neg hanswer]
    -- the read takes all there is, which is nothing
    have hshort : (rests s.writes).length < room := by
      by_contra hlong
      refine hanswer ⟨fun hnil => ?_, .inr ?_⟩
      · have := congrArg List.length hnil
        rw [length_take, length_nil] at this
        omega
      · rw [length_take]
        omega
    have hempty : s.overflow = [] := by
      by_contra hsome
      have := hmeets hsome
      omega
    have hmovedNil : moved = [] ∧ left = [] := append_eq_nil_iff.1 (hsplit.symm.trans hempty)
    have hwritesNil : writes = [] := rests_eq_nil hleft (by rw [hrests]; exact drop_of_length_le (by omega))
    have htakeNil : (rests s.writes).take room = [] := by
      by_contra hsome
      exact hanswer ⟨hsome, .inl (by rw [hwritesNil, hmovedNil.1]; rfl)⟩
    have hunread : s.unread = [] := by
      rw [← htaken, htakeNil, hempty, drop_of_length_le (by omega)]
      rfl
    rw [hwritesNil, hmovedNil.1, hmovedNil.2, htakeNil]
    split
    · refine ⟨?_, Nat.zero_le _⟩
      refine ⟨rfl, rfl, nofun, ?_, fun b hb => ?_, fun w hw => absurd hw not_mem_nil,
        fun w hw => absurd hw not_mem_nil, fun w rest h => (nomatch h), fun r hr => (nomatch hr)⟩
      · rw [hunread] at hfifo
        exact hfifo
      · rcases mem_append.1 hb with hb | hb
        · exact hcomplete b hb
        · rw [mem_singleton.1 hb]
          rfl
    · refine ⟨?_, Nat.zero_le _⟩
      refine ⟨rfl, rfl, fun _ => ⟨rfl, rfl⟩, ?_, hcomplete, fun w hw => absurd hw not_mem_nil,
        fun w hw => absurd hw not_mem_nil, fun w rest h => (nomatch h), fun r hr => ?_⟩
      · rw [hunread] at hfifo
        exact hfifo
      · have hr : s.room = some r := hr
        rw [hparked] at hr
        cases hr
        exact hroom

/-! ## A step -/

theorem rests_snoc (writes : List QueuedWrite) (frame : Bytes) (size : Nat) :
    rests (writes ++ [⟨frame, size⟩]) = rests writes ++ frame := by
  rw [rests_append]
  congr 1
  exact append_nil frame

theorem encodeFrame_ne_nil (payload : Bytes) : encodeFrame payload ≠ [] := cons_ne_nil _ _

theorem write_inv (h : Inv s) (payload : Bytes)
    (hmeets : s.Meets (.write payload)) : Inv (s.write payload) := by
  unfold write
  by_cases hlarge : kMaxFramePayload < payload.length
  · rw [if_pos hlarge]
    exact h
  · rw [if_neg hlarge]
    obtain ⟨hfits, hbehind⟩ := hmeets (Nat.not_lt.1 hlarge)
    have hframe := encodeFrame_ne_nil payload
    generalize encodeFrame payload = frame at hfits hbehind hframe ⊢
    by_cases hover : kRequestQueueCapacity < s.queuedBytes + frame.length
    · rw [if_pos hover]
      refine ⟨h.queued, h.settled, fun hparked => ?_, ?_, h.complete, fun w hw => ?_, fun w hw => ?_,
        fun w rest heq => ?_, h.roomy⟩
      · -- a read that waits has nothing in front of it
        have := h.queued
        rw [(h.awake hparked).1] at this
        have : s.queuedBytes = 0 := this
        omega
      · show s.handed ++ (rests s.writes ++ rests (s.overflow ++ [⟨frame, frame.length⟩])) = s.accepted ++ frame
        rw [rests_snoc, ← append_assoc, ← append_assoc, append_assoc s.handed]
        exact congrArg (· ++ frame) h.fifo
      · have hw : w ∈ s.writes ++ (s.overflow ++ [⟨frame, frame.length⟩]) := hw
        rw [← append_assoc] at hw
        rcases mem_append.1 hw with hw | hw
        · exact h.nonempty w hw
        · rw [mem_singleton.1 hw]
          exact hframe
      · rcases mem_append.1 hw with hw | hw
        · exact h.fits w hw
        · rw [mem_singleton.1 hw]
          exact hfits
      · have heq : s.overflow ++ [⟨frame, frame.length⟩] = w :: rest := heq
        cases hoverflow : s.overflow with
        | nil =>
          rw [hoverflow] at heq
          cases heq
          exact hover
        | cons front overflow =>
          rw [hoverflow] at heq
          cases heq
          exact h.waits _ overflow hoverflow
    · rw [if_neg hover]
      have hempty : s.overflow = [] := by
        by_contra hsome
        exact hover (hbehind hsome)
      have hqueued : s.queuedBytes + frame.length = (rests (s.writes ++ [⟨frame, frame.length⟩])).length := by
        rw [rests_snoc, length_append, h.queued]
      have hfifo : s.handed ++ (rests (s.writes ++ [⟨frame, frame.length⟩]) ++ rests s.overflow) =
        s.accepted ++ frame := by
        have := h.fifo
        unfold unread at this
        rw [hempty] at this ⊢
        rw [rests_snoc, ← this]
        simp [rests]
      have hne : ∀ w ∈ (s.writes ++ [⟨frame, frame.length⟩]) ++ s.overflow, w.rest ≠ [] := by
        intro w hw
        rw [hempty, append_nil] at hw
        rcases mem_append.1 hw with hw | hw
        · exact h.nonempty w (mem_append_left _ hw)
        · rw [mem_singleton.1 hw]
          exact hframe
      cases hparked : s.room with
      | none =>
        exact ⟨hqueued, h.settled, nofun, hfifo, h.complete, hne, h.fits,
          fun w rest heq => (by rw [show s.overflow = w :: rest from heq] at hempty; cases hempty),
          fun r hr => (nomatch hr)⟩
      | some room =>
        exact (pumpReads_inv
          (s := { s with
            accepted := s.accepted ++ frame
            queuedBytes := s.queuedBytes + frame.length
            writes := s.writes ++ [⟨frame, frame.length⟩]
            room := some room })
          rfl (h.roomy room hparked) hqueued h.settled hfifo h.complete hne h.fits
            (fun hsome => absurd hempty hsome)).1

theorem readSome_inv (h : Inv s) (room : Nat) (hmeets : s.Meets (.read room)) :
    Inv (s.readSome room) ∧ (0 < room → (s.readSome room).unread.length ≤ s.unread.length - 1) := by
  unfold readSome
  by_cases hzero : room = 0
  · rw [if_pos hzero]
    exact ⟨{ h with }, fun hpos => absurd hzero (by omega)⟩
  · rw [if_neg hzero]
    by_cases hparked : s.room.isSome = true
    · rw [if_pos hparked]
      refine ⟨{ h with }, fun _ => ?_⟩
      show s.unread.length ≤ s.unread.length - 1
      rw [h.sound.awake hparked]
      exact Nat.le_refl 0
    · rw [if_neg hparked]
      obtain ⟨hinv, hless⟩ := pumpReads_inv (s := { s with room := some room }) rfl
        (by omega) h.queued h.settled h.fifo h.complete
        h.nonempty h.fits hmeets
      exact ⟨hinv, fun _ => hless⟩

theorem finish_inv (h : Inv s) : Inv s.finish := by
  unfold finish
  by_cases heof : s.eof = true
  · rw [if_pos heof]
    exact h
  · rw [if_neg heof]
    cases hparked : s.room with
    | none =>
      exact { h with awake := nofun, roomy := fun r hr => (nomatch hr) }
    | some room =>
      have hempty := (h.awake (by rw [hparked]; rfl)).2
      exact (pumpReads_inv (s := { s with eof := true, room := some room }) rfl
        (h.roomy room hparked) h.queued h.settled h.fifo h.complete
        h.nonempty h.fits (fun hsome => absurd hempty hsome)).1

theorem step_inv (h : Inv s) (e : BodyEvent) (hmeets : s.Meets e) : Inv (s.step e) := by
  cases e with
  | write payload => exact write_inv h payload hmeets
  | read room => exact (readSome_inv h room hmeets).1
  | finish => exact finish_inv h

theorem inv_start : Inv {} :=
  ⟨rfl, rfl, nofun, rfl, fun _ h => absurd h not_mem_nil, fun _ h => absurd h not_mem_nil,
    fun _ h => absurd h not_mem_nil, nofun, nofun⟩

theorem reads_drain : ∀ (rooms : List Nat) (s : GunRequestBody), Inv s →
    Runs.Along step Meets s (rooms.map .read) →
    (∀ room ∈ rooms, 0 < room) → s.unread.length ≤ rooms.length → (Runs.run step s (rooms.map .read)).unread = []
  | [], s, _, _, _, hlength => length_eq_zero_iff.1 (Nat.le_zero.1 hlength)
  | room :: rooms, s, h, hmeets, hpos, hlength => by
    obtain ⟨hinv, hless⟩ := readSome_inv h room hmeets.1
    refine reads_drain rooms _ hinv hmeets.2 (fun r hr => hpos r (mem_cons_of_mem room hr)) ?_
    have := hless (hpos room mem_cons_self)
    rw [length_cons] at hlength
    show (s.readSome room).unread.length ≤ rooms.length
    omega

/-- **A run that meets the condition** keeps what is promised, and reads that go on drain it. -/
theorem body_reads_sound (events : List BodyEvent) (h : Runs.Along step Meets {} events) :
    Sound (run events) ∧ ∀ (before : List BodyEvent) (rooms : List Nat), events =
    before ++ rooms.map .read → (∀ room ∈ rooms, 0 < room) →
      (run before).unread.length ≤ rooms.length → (run events).unread = [] := by
  have hinv : ∀ before, Runs.Along step Meets {} before → Inv (run before) := fun before hbefore =>
    Runs.along_induction (P := Inv) (fun _ e hs hmeets => step_inv hs e hmeets) before {} inv_start hbefore
  refine ⟨(hinv events h).sound, fun before rooms hsplit hpos hlength => ?_⟩
  rw [hsplit, Runs.along_append] at h
  rw [hsplit]
  unfold run
  rw [Runs.run_append]
  exact reads_drain rooms (run before) (hinv before h.1) h.2 hpos hlength

/-- Of two frames that do not fit the queue together, the second waits until the first is read. -/
theorem overflow_meets {payload : Bytes} (hfits : (encodeFrame payload).length ≤ kRequestQueueCapacity)
    (hlarge : kRequestQueueCapacity < (encodeFrame payload).length + (encodeFrame payload).length) :
    Runs.Along step Meets {} [.write payload, .write payload, .read (encodeFrame payload).length,
      .finish, .read 1] ∧
      (run [.write payload, .write payload]).overflow ≠ [] := by
  have hpayload : payload.length ≤ kMaxFramePayload :=
    Nat.le_trans (Nat.le_of_lt (length_lt_encodeFrame payload)) (Nat.le_trans hfits (by decide))
  have hne := encodeFrame_ne_nil payload
  have hpos := length_pos_of_ne_nil hne
  have hfirst : ({} : GunRequestBody).write payload = {
      writes := [⟨encodeFrame payload, (encodeFrame payload).length⟩],
        queuedBytes := (encodeFrame payload).length
      accepted := encodeFrame payload } := by
    unfold write
    rw [if_neg (Nat.not_lt.2 hpayload)]
    dsimp only
    rw [if_neg (by rw [Nat.zero_add]; exact Nat.not_lt.2 hfits), Nat.zero_add]
    rfl
  have hsecond : (({} : GunRequestBody).write payload).write payload = {
      writes := [⟨encodeFrame payload, (encodeFrame payload).length⟩],
        queuedBytes := (encodeFrame payload).length
      overflow := [⟨encodeFrame payload, (encodeFrame payload).length⟩]
      accepted := encodeFrame payload ++ encodeFrame payload } := by
    rw [hfirst]
    unfold write
    rw [if_neg (Nat.not_lt.2 hpayload), if_pos (by dsimp only; omega)]
    rfl
  have hread : ((({} : GunRequestBody).write payload).write payload).readSome (encodeFrame payload).length = {
      writes := [⟨encodeFrame payload, (encodeFrame payload).length⟩]
      queuedBytes := (encodeFrame payload).length
      accepted := encodeFrame payload ++ encodeFrame payload
      reads := [.bytes (encodeFrame payload)]
      answered := [(encodeFrame payload).length]
      handed := encodeFrame payload } := by
    rw [hsecond]
    simp [readSome, pumpReads, fill, admitOverflow, settle, hne, hfits]
  refine ⟨⟨fun _ => ⟨hfits, fun h => absurd rfl h⟩, fun _ => ⟨hfits, fun h => ?_⟩, fun _ => ?_, trivial,
    fun h => ?_, trivial⟩, ?_⟩
  · exact absurd (congrArg overflow hfirst) h
  · exact Nat.le_of_eq (congrArg queuedBytes hsecond).symm
  · refine absurd ?_ h
    show (GunRequestBody.finish (((({} : GunRequestBody).write payload).write payload).readSome
      (encodeFrame payload).length)).overflow = []
    rw [hread]
    rfl
  · show ((({} : GunRequestBody).write payload).write payload).overflow ≠ []
    rw [hsecond]
    exact cons_ne_nil _ _

/-- Two frames of 200 kB, of which the second waits in `overflow_`. -/
theorem body_reads_sound_two_writes :
    let payload : Bytes := List.replicate 200000 0
    (run [.write payload, .write payload]).overflow ≠ [] ∧
      Sound (run [.write payload, .write payload, .read (encodeFrame payload).length, .finish, .read 1]) := by
  have hall (payload : Bytes) (hlength : payload.length = 200000) :
    (run [.write payload, .write payload]).overflow ≠ [] ∧
      Sound (run [.write payload, .write payload, .read (encodeFrame payload).length, .finish, .read 1]) := by
    have hcapacity : kRequestQueueCapacity = 262144 := rfl
    have hput (n : Nat) : (putBe32 n).length = 4 := rfl
    have hlt := length_lt_encodeFrame payload
    have hmax : payload.length ≤ kMaxFramePayload := by rw [hlength]; decide
    obtain ⟨init, last, heq, -, -, hinit, -⟩ := encodeFrame_eq hmax
    have hsize := congrArg List.length heq
    simp only [length_cons, length_append, hput] at hsize
    have hfits : (encodeFrame payload).length ≤ kRequestQueueCapacity := by omega
    obtain ⟨hmeets, hwaits⟩ := overflow_meets hfits (by omega)
    exact ⟨hwaits, (body_reads_sound _ hmeets).1⟩
  exact hall _ length_replicate

theorem read_waits_behind_large {payload : Bytes} (hsize : kRequestQueueCapacity < (encodeFrame payload).length)
    (hfits : payload.length ≤ kMaxFramePayload) :
    (run [.write payload, .read 1]).room = some 1 ∧
    (run [.write payload, .read 1]).unread = encodeFrame payload := by
  have hwritten : ({} : GunRequestBody).write payload =
      { overflow := [⟨encodeFrame payload, (encodeFrame payload).length⟩],
        accepted := encodeFrame payload } := by
    unfold write
    rw [if_neg (Nat.not_lt.2 hfits)]
    rw [if_pos (by rw [Nat.zero_add]; exact hsize)]
    rfl
  have hread : run [.write payload, .read 1] =
      { overflow := [⟨encodeFrame payload,
        (encodeFrame payload).length⟩], accepted := encodeFrame payload, room := some 1 } := by
    show (({} : GunRequestBody).write payload).readSome 1 = _
    rw [hwritten]
    unfold readSome pumpReads fill
    dsimp only
    rw [if_neg Nat.one_ne_zero, if_neg (show ¬ (none : Option Nat).isSome = true from Bool.false_ne_true)]
    unfold admitOverflow
    rw [if_neg (by dsimp only; omega)]
    rfl
  rw [hread]
  exact ⟨rfl, append_nil _⟩

/-- **A frame that is larger than the queue** keeps a read waiting, and the bytes unread. -/
theorem large_frame_waits : ¬ Sound (run [.write (List.replicate kRequestQueueCapacity 0), .read 1]) := by
  have hfits : (List.replicate kRequestQueueCapacity (0 : UInt8)).length ≤ kMaxFramePayload := by
    rw [length_replicate]
    decide
  have hsize : kRequestQueueCapacity < (encodeFrame (List.replicate kRequestQueueCapacity 0)).length := by
    have := length_lt_encodeFrame (List.replicate kRequestQueueCapacity 0)
    rwa [length_replicate] at this
  obtain ⟨hroom, hunread⟩ := read_waits_behind_large hsize hfits
  intro h
  have := h.awake (by rw [hroom]; rfl)
  rw [hunread] at this
  exact encodeFrame_ne_nil _ this

end GunRequestBody
end ClashNative.Gun
