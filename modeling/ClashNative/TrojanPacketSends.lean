import ClashNative.UdpOverTcpSends
/-!
# TrojanPacketSends — sends of the Trojan packet handle

The send half of `TrojanPacketState`.  A datagram is one frame or several, and its handler is called when
the last write behind it completes.
-/
namespace ClashNative.PacketStream

open List hiding Vector

def chunkLoop : Nat → Bytes → List Bytes
  | 0, rest => [rest]
  | turns + 1, rest =>
    if rest.length ≤ kMaxPacketPayload then [rest] else rest.take kMaxPacketPayload :: chunkLoop turns
    (rest.drop kMaxPacketPayload)

/-- The chunks of a payload, one for an empty payload too; there are no more turns than bytes. -/
def chunks (payload : Bytes) : List Bytes := chunkLoop payload.length payload

structure FrameWrite where
  packet : Bytes
  id : Nat
  deriving DecidableEq, Repr

/-- The send half of `TrojanPacketState`.  `completed` are the lower writes that have completed, and how;
`accepted` the frames of the sends that were taken. -/
structure TrojanPacketState where
  handlers : Handlers := {}
  writes : List FrameWrite := []
  sendSize : Nat := 0
  writeInProgress : Bool := false
  inFlight : List FrameWrite := []
  completed : List (FrameWrite × Bool) := []
  accepted : List (Nat × List Bytes) := []

namespace TrojanPacketState

def pumpWrite (s : TrojanPacketState) : TrojanPacketState :=
  if s.writeInProgress then s
  else
    match s.writes with
    | [] => s
    | pending :: rest =>
      { s with
        writes := rest
        writeInProgress := true
        inFlight := s.inFlight ++ [pending] }

def refuse (s : TrojanPacketState) (code : ErrorCode) : TrojanPacketState :=
  { s with handlers := s.handlers.refuse code }

def send (s : TrojanPacketState) (payload : Bytes) (destination : DatagramAddress) : TrojanPacketState :=
  if s.handlers.parked.isSome then s.refuse .alreadyStarted
  else if 65535 < payload.length then s.refuse .messageSize
  else
    match encodeAddress destination with
    | .error _ => s.refuse .protocolError
    | .ok address =>
      let frames := (chunks payload).map (trojan.frame address)
      pumpWrite
        { s with
          writes := s.writes ++ frames.map (⟨·, s.handlers.issued⟩)
          handlers := s.handlers.park
          sendSize := payload.length
          accepted := s.accepted ++ [(s.handlers.issued, frames)] }

/-- The completion of a lower write: the handler is left for the last one of the queue, and told how that
one went. -/
def writeDone (s : TrojanPacketState) (i : Nat) (succeeded : Bool) (w : FrameWrite) : TrojanPacketState :=
  let done : TrojanPacketState :=
    { s with
      writeInProgress := false
      inFlight := s.inFlight.eraseIdx i
      completed := s.completed ++ [(w, succeeded)] }
  if done.writes ≠ [] then done.pumpWrite
  else { done with handlers := done.handlers.finish (if succeeded then .ok done.sendSize else .error .lower) }

def step (s : TrojanPacketState) : SendEvent → TrojanPacketState
  | .send payload destination => s.send payload destination
  | .writeDone i succeeded =>
    match s.inFlight[i]? with
    | none => s
    | some w => s.writeDone i succeeded w
  | .pumped => s
  | .cancelSend => { s with handlers := s.handlers.finish (.error .operationAborted) }

/-- **What the sends owe**: one lower write at a time; each handler called once, and until then there is a
write to wait for; success only for a datagram whose frames were all written. -/
structure SendsSound (s : TrojanPacketState) : Prop where
  one_write : s.inFlight.length ≤ 1
  once : s.handlers.Once
  waits : s.handlers.parked ≠ none → s.inFlight ≠ []
  sends_differ : (s.accepted.map Prod.fst).Nodup
  whole : ∀ id n, (id, .ok n) ∈ s.handlers.called → ∃ frames, (id, frames) ∈ s.accepted ∧
    s.completed.filter (fun c => c.1.id = id) = frames.map fun frame => (⟨frame, id⟩, true)

/-- **The condition on a step**: when the last write of the queue succeeds, no write of the datagram whose
handler is parked has failed. -/
def Kept (s : TrojanPacketState) : SendEvent → Prop
  | .writeDone i succeeded => succeeded = true → s.writes = [] → s.inFlight[i]?.isSome = true →
      ∀ id ∈ s.handlers.parked,
    ∀ c ∈ s.completed, c.1.id = id → c.2 = true
  | .send _ _ | .pumped | .cancelSend => True

instance (s : TrojanPacketState) (event : SendEvent) : Decidable (Kept s event) :=
  match event with
  | .writeDone i _ => inferInstanceAs (Decidable (_ → _ → s.inFlight[i]?.isSome = true →
    ∀ id ∈ s.handlers.parked, ∀ c ∈ s.completed, c.1.id = id →
    c.2 = true))
  | .send _ _ | .pumped | .cancelSend => inferInstanceAs (Decidable True)

/-! ## Chunks -/

theorem chunks_ne_nil (payload : Bytes) : chunks payload ≠ [] := by
  unfold chunks
  cases payload.length with
  | zero => exact cons_ne_nil _ _
  | succ turns =>
    rw [chunkLoop]
    split
    · exact cons_ne_nil _ _
    · exact cons_ne_nil _ _

/-! ## What every step keeps -/

/-- The writes in their order: those that have completed, the one on its way, and the queue. -/
def inOrder (s : TrojanPacketState) : List FrameWrite := s.completed.map Prod.fst ++ s.inFlight ++ s.writes

structure Core (s : TrojanPacketState) : Prop where
  flag : s.writeInProgress = true ↔ s.inFlight ≠ []
  one_write : s.inFlight.length ≤ 1
  once : s.handlers.Once
  sends_differ : (s.accepted.map Prod.fst).Nodup
  issued : ∀ send ∈ s.accepted, send.1 < s.handlers.issued
  own : ∀ w ∈ s.inOrder, w.id < s.handlers.issued
  fifo : ∀ id frames, (id, frames) ∈ s.accepted →
    s.inOrder.filter (fun w => w.id = id) = frames.map fun frame => ⟨frame, id⟩
  parked : ∀ id, s.handlers.parked = some id → ∃ frames, (id, frames) ∈ s.accepted
  whole : ∀ id n, (id, .ok n) ∈ s.handlers.called → ∃ frames, (id, frames) ∈ s.accepted ∧
    s.completed.filter (fun c => c.1.id = id) = frames.map fun frame => (⟨frame, id⟩, true)

def Inv (s : TrojanPacketState) : Prop :=
  Core s ∧ (s.inFlight = [] → s.writes = []) ∧ (s.handlers.parked ≠ none → s.inFlight ≠ [])

theorem pumpWrite_inOrder (s : TrojanPacketState) : s.pumpWrite.inOrder = s.inOrder := by
  unfold pumpWrite
  split
  · rfl
  · cases hwrites : s.writes with
    | nil => rfl
    | cons pending rest =>
      unfold inOrder
      rw [hwrites]
      simp

variable {s : TrojanPacketState}

theorem pumpWrite_inv (h : Core s) (hwaits : s.handlers.parked ≠ none → s.inFlight ≠ [] ∨ s.writes ≠ []) :
    Inv s.pumpWrite := by
  have horder := pumpWrite_inOrder s
  unfold pumpWrite at horder ⊢
  by_cases hflag : s.writeInProgress = true
  · rw [if_pos hflag]
    exact ⟨h, fun hidle => absurd hidle (h.flag.1 hflag), fun _ => h.flag.1 hflag⟩
  · rw [if_neg hflag] at horder ⊢
    have hidle : s.inFlight = [] := by
      by_contra hne
      exact hflag (h.flag.2 hne)
    cases hwrites : s.writes with
    | nil =>
      refine ⟨h, fun _ => hwrites, fun hparked => ?_⟩
      exact absurd ((hwaits hparked).resolve_left fun hne => hne hidle) (fun hne => hne hwrites)
    | cons pending rest =>
      rw [hwrites] at horder
      dsimp only at horder ⊢
      rw [hidle, nil_append] at horder ⊢
      refine ⟨⟨⟨fun _ => cons_ne_nil _ _, fun _ => rfl⟩, Nat.le_refl 1, h.once, h.sends_differ, h.issued,
        ?_, ?_, h.parked, h.whole⟩,
        fun hnil => absurd hnil (cons_ne_nil _ _), fun _ => cons_ne_nil _ _⟩
      · rw [horder]
        exact h.own
      · rw [horder]
        exact h.fifo

theorem Core.finish_error (h : Core s) (code : ErrorCode) : Core
    { s with handlers := s.handlers.finish (.error code) } where
  flag := h.flag
  one_write := h.one_write
  once := h.once.finish _
  sends_differ := h.sends_differ
  issued send hsend := by
    rw [Handlers.finish_issued]
    exact h.issued send hsend
  own w hw := by
    rw [Handlers.finish_issued]
    exact h.own w hw
  fifo := h.fifo
  parked id hid := by
    rw [Handlers.finish_parked] at hid
    cases hid
  whole id n hcall := by
    rcases Handlers.mem_finish hcall with hcall | ⟨-, hresult⟩
    · exact h.whole id n hcall
    · cases hresult

theorem Core.refuse (h : Core s) (code : ErrorCode) : Core (s.refuse code) where
  flag := h.flag
  one_write := h.one_write
  once := h.once.refuse code
  sends_differ := h.sends_differ
  issued send hsend := Nat.lt_succ_of_lt (h.issued send hsend)
  own w hw := Nat.lt_succ_of_lt (h.own w hw)
  fifo := h.fifo
  parked := h.parked
  whole id n hcall := h.whole id n (Handlers.mem_refuse hcall)

theorem filter_id_map (id id' : Nat) (frames : List Bytes) :
    (frames.map (⟨·, id'⟩) : List FrameWrite).filter (fun w => w.id = id) = if id' = id then
    frames.map (⟨·, id'⟩) else [] := by
  split
  · rename_i h
    exact filter_eq_self.2 fun w hw => by
      obtain ⟨frame, -, rfl⟩ := mem_map.1 hw
      simpa using h
  · rename_i h
    exact filter_eq_nil_iff.2 fun w hw => by
      obtain ⟨frame, -, rfl⟩ := mem_map.1 hw
      simpa using h

theorem Core.enqueue (h : Core s) (hparked : s.handlers.parked = none) (frames : List Bytes) (size : Nat) :
    Core
      { s with
        writes := s.writes ++ frames.map (⟨·, s.handlers.issued⟩)
        handlers := s.handlers.park
        sendSize := size
        accepted := s.accepted ++ [(s.handlers.issued, frames)] } where
  flag := h.flag
  one_write := h.one_write
  once := h.once.park hparked
  sends_differ := by
    rw [map_append]
    refine nodup_append.2 ⟨h.sends_differ, nodup_singleton _, ?_⟩
    rintro id hid _ hnew rfl
    obtain ⟨send, hsend, rfl⟩ := mem_map.1 hid
    exact absurd (mem_singleton.1 hnew) (Nat.ne_of_lt (h.issued send hsend))
  issued send hsend := by
    rcases mem_append.1 hsend with hsend | hsend
    · exact Nat.lt_succ_of_lt (h.issued send hsend)
    · rw [mem_singleton.1 hsend]
      exact Nat.lt_succ_self _
  own w hw := by
    unfold inOrder at hw
    rw [← append_assoc] at hw
    rcases mem_append.1 hw with hw | hw
    · exact Nat.lt_succ_of_lt (h.own w hw)
    · obtain ⟨frame, -, rfl⟩ := mem_map.1 hw
      exact Nat.lt_succ_self _
  fifo id frames' hsend := by
    unfold inOrder
    rw [← append_assoc, filter_append, filter_id_map]
    rcases mem_append.1 hsend with hsend | hsend
    · rw [if_neg (Nat.ne_of_gt (h.issued _ hsend)), append_nil]
      exact h.fifo id frames' hsend
    · obtain ⟨rfl, rfl⟩ := Prod.mk.inj (mem_singleton.1 hsend)
      have hfresh : s.inOrder.filter (fun w => w.id = s.handlers.issued) = [] :=
        filter_eq_nil_iff.2 fun w hw => by
        simpa using Nat.ne_of_lt (h.own w hw)
      rw [if_pos rfl]
      exact congrArg (· ++ frames'.map (⟨·, s.handlers.issued⟩)) hfresh
  parked id hid := by
    cases hid
    exact ⟨frames, mem_append_right _ mem_cons_self⟩
  whole id n hcall := by
    obtain ⟨frames', hsend, hdone⟩ := h.whole id n hcall
    exact ⟨frames', mem_append_left _ hsend, hdone⟩

theorem send_inv (h : Inv s) (payload : Bytes) (destination : DatagramAddress) : Inv
    (s.send payload destination) := by
  have hrefused : ∀ code, Inv (s.refuse code) := fun code => ⟨h.1.refuse code, h.2.1, h.2.2⟩
  unfold send
  by_cases hparked : s.handlers.parked.isSome = true
  · rw [if_pos hparked]
    exact hrefused _
  rw [if_neg hparked]
  by_cases hlength : 65535 < payload.length
  · rw [if_pos hlength]
    exact hrefused _
  rw [if_neg hlength]
  cases encodeAddress destination with
  | error _ => exact hrefused _
  | ok address =>
    refine pumpWrite_inv (h.1.enqueue (by simpa using hparked) _ _) fun _ => .inr ?_
    refine append_ne_nil_of_right_ne_nil _ fun hnil => ?_
    rw [map_eq_nil_iff, map_eq_nil_iff] at hnil
    exact chunks_ne_nil payload hnil

theorem filter_completed {completed : List (FrameWrite × Bool)} {id : Nat} {frames : List FrameWrite}
    (h : (completed.map Prod.fst).filter (fun w => w.id = id) = frames)
    (hall : ∀ c ∈ completed, c.1.id = id → c.2 = true) :
    completed.filter (fun c => c.1.id = id) = frames.map fun w => (w, true) := by
  rw [← h, filter_map, map_map]
  refine (map_id _).symm.trans (map_congr_left fun c hc => ?_)
  obtain ⟨hmem, hid⟩ := mem_filter.1 hc
  exact Prod.ext rfl (hall c hmem (of_decide_eq_true hid))

theorem Core.ne_of_called (h : Core s) {id n : Nat} (hcall : (id, .ok n) ∈ s.handlers.called) {w : FrameWrite}
    (hw : w ∈ s.inFlight) : w.id ≠ id := by
  obtain ⟨frames, hsend, hdone⟩ := h.whole id n hcall
  have horder := h.fifo id frames hsend
  unfold inOrder at horder
  have hcompleted : (s.completed.map Prod.fst).filter (fun w => w.id = id) = frames.map fun frame =>
    ⟨frame, id⟩ := by
    rw [filter_map]
    refine (congrArg (List.map Prod.fst) hdone).trans ?_
    rw [map_map]
    rfl
  rw [append_assoc, filter_append, hcompleted] at horder
  have hrest := append_cancel_left (horder.trans (append_nil _).symm)
  intro hid
  exact not_mem_nil (hrest ▸ mem_filter.2 ⟨mem_append_left _ hw, decide_eq_true hid⟩)

theorem writeDone_inv (h : Inv s) {i : Nat} {succeeded : Bool} {w : FrameWrite} (hw : s.inFlight[i]? = some w)
    (hkept : Kept s (.writeDone i succeeded)) : Inv (s.writeDone i succeeded w) := by
  have hmem : w ∈ s.inFlight := mem_of_getElem? hw
  obtain ⟨hflight, hempty⟩ : s.inFlight = [w] ∧ s.inFlight.eraseIdx i = [] := by
    have hpos := length_pos_of_mem hmem
    obtain ⟨w', hw'⟩ := length_eq_one_iff.1 (Nat.le_antisymm h.1.one_write hpos)
    rw [hw'] at hw ⊢
    cases i with
    | zero =>
      cases hw
      exact ⟨rfl, rfl⟩
    | succ i => cases hw
  have horder : (s.completed ++ [(w, succeeded)]).map Prod.fst ++ [] ++ s.writes = s.inOrder := by
    unfold inOrder
    rw [hflight, map_append, append_nil]
    rfl
  -- what was completed for a datagram already reported stays as it is
  have hwhole : ∀ id n, (id, .ok n) ∈ s.handlers.called → ∃ frames, (id, frames) ∈ s.accepted ∧
      (s.completed ++ [(w, succeeded)]).filter (fun c => c.1.id = id) = frames.map fun frame =>
      (⟨frame, id⟩, true) := by
    intro id n hcall
    obtain ⟨frames, hsend, hdone⟩ := h.1.whole id n hcall
    refine ⟨frames, hsend, ?_⟩
    rw [filter_append, hdone, filter_cons_of_neg (by simpa using h.1.ne_of_called hcall hmem),
      filter_nil, append_nil]
  have hcore : Core
      { s with
        writeInProgress := false
        inFlight := []
        completed := s.completed ++ [(w, succeeded)] } := by
    refine ⟨⟨nofun, fun hne => absurd rfl hne⟩, Nat.zero_le 1, h.1.once, h.1.sends_differ, h.1.issued, ?_,
      ?_, h.1.parked,
      hwhole⟩
    · unfold inOrder
      rw [horder]
      exact h.1.own
    · unfold inOrder
      rw [horder]
      exact h.1.fifo
  unfold writeDone
  rw [hempty]
  by_cases hwrites : s.writes ≠ []
  · rw [if_pos hwrites]
    exact pumpWrite_inv hcore fun _ => .inr hwrites
  · rw [if_neg hwrites]
    have hwrites : s.writes = [] := not_not.1 hwrites
    refine ⟨?_, fun _ => hwrites, fun hparked => absurd (Handlers.finish_parked _ _) hparked⟩
    cases succeeded with
    | false => exact hcore.finish_error .lower
    | true =>
      refine ⟨hcore.flag, hcore.one_write, hcore.once.finish _, hcore.sends_differ, fun send hsend => ?_,
        fun w' hw' => ?_, hcore.fifo,
        fun id hid => ?_, fun id n hcall => ?_⟩
      · rw [Handlers.finish_issued]
        exact hcore.issued send hsend
      · rw [Handlers.finish_issued]
        exact hcore.own w' hw'
      · rw [Handlers.finish_parked] at hid
        cases hid
      · rcases Handlers.mem_finish hcall with hcall | ⟨hparked, -⟩
        · exact hwhole id n hcall
        · obtain ⟨frames, hsend⟩ := h.1.parked id hparked
          refine ⟨frames, hsend, ?_⟩
          have hfifo := h.1.fifo id frames hsend
          rw [← horder, hwrites, append_nil, append_nil] at hfifo
          rw [filter_completed hfifo fun c hc hid => ?_, map_map]
          · rfl
          · rcases mem_append.1 hc with hc | hc
            · exact hkept rfl hwrites (by rw [hw]; rfl) id hparked c hc hid
            · rw [mem_singleton.1 hc]

theorem step_inv (h : Inv s) (event : SendEvent) (hkept : Kept s event) : Inv (s.step event) := by
  cases event with
  | send payload destination => exact send_inv h payload destination
  | writeDone i succeeded =>
    unfold step
    dsimp only
    cases hw : s.inFlight[i]? with
    | none => exact h
    | some w => exact writeDone_inv h hw hkept
  | pumped => exact h
  | cancelSend => exact ⟨h.1.finish_error _, h.2.1, fun hparked => absurd (Handlers.finish_parked _ _) hparked⟩

theorem start_inv : Inv {} := by
  refine ⟨⟨⟨nofun, fun hne => absurd rfl hne⟩, Nat.zero_le 1, Handlers.once_start, nodup_nil,
    fun send hsend => absurd hsend not_mem_nil, fun w hw => absurd hw not_mem_nil, fun id frames hsend =>
    absurd hsend not_mem_nil,
    fun id hid => (nomatch hid), fun id n hcall => absurd hcall not_mem_nil⟩, fun _ => rfl, fun hparked =>
    absurd rfl hparked⟩

theorem runs_sound (events : List SendEvent) (hkept : Runs.Along step Kept {} events) :
    SendsSound (Runs.run step {} events) := by
  have hinv := Runs.along_induction (P := Inv) (fun s event h hk => step_inv h event hk) events _ start_inv hkept
  exact ⟨hinv.1.one_write, hinv.1.once, hinv.2.2, hinv.1.sends_differ, hinv.1.whole⟩

end TrojanPacketState

/-! ## The two handles -/

def exampleDestination : DatagramAddress := ⟨.v4 (Vector.replicate 4 9), 53⟩

def exampleOptions (version : Version) : Options := ⟨version, some exampleDestination⟩

/-- A cancelled send is on its way, and its write reports the next one as sent.  A request that failed is
written twice when the handler of the send behind it sends again.  A datagram of two frames is reported as
sent when the first one failed. -/
theorem sends_misreported :
    ¬ SendsSound (exampleOptions .legacy) (Runs.run (UdpOverTcpState.step (exampleOptions .legacy)) {}
      [.send [1] exampleDestination, .cancelSend, .send [2] exampleDestination, .writeDone 0 true]) ∧
    ¬ SendsSound (exampleOptions .version2) (Runs.run (UdpOverTcpState.step (exampleOptions .version2)) {}
      [.send [1] exampleDestination, .cancelSend, .send [2] exampleDestination, .writeDone 0 false,
        .send [3] exampleDestination, .pumped,
        .writeDone 0 true, .pumped, .writeDone 0 true]) ∧
    ¬ TrojanPacketState.SendsSound (Runs.run TrojanPacketState.step {}
      [.send (List.replicate 8193 0) exampleDestination, .writeDone 0 false, .writeDone 0 true]) := by
  refine ⟨fun h => ?_, fun h => ?_, fun h => ?_⟩
  · have hunwritten : ∀ w ∈ (Runs.run (UdpOverTcpState.step (exampleOptions .legacy)) {}
        [.send [1] exampleDestination, .cancelSend, .send [2] exampleDestination,
          .writeDone 0 true]).written, w.id ≠ 1 := by decide +kernel
    obtain ⟨frame, -, w, hw, hid, -⟩ := h.whole 1 1 (by decide +kernel)
    exact hunwritten w hw hid
  · have htwice : ∃ w ∈ (Runs.run (UdpOverTcpState.step (exampleOptions .version2)) {}
        [.send [1] exampleDestination, .cancelSend, .send [2] exampleDestination, .writeDone 0 false,
          .send [3] exampleDestination, .pumped,
          .writeDone 0 true, .pumped, .writeDone 0 true]).written.tail,
          w.includesRequest = true := by decide +kernel
    obtain ⟨w, hw, hincludes⟩ := htwice
    rw [h.request_first.tail hw] at hincludes
    cases hincludes
  · obtain ⟨frames, -, hdone⟩ := h.whole 0 8193 (by decide +kernel)
    have hfailed : ∃ c ∈ (Runs.run TrojanPacketState.step {}
        [.send (List.replicate 8193 0) exampleDestination, .writeDone 0 false,
          .writeDone 0 true]).completed.filter (fun c => c.1.id = 0),
          c.2 = false := by
      decide +kernel
    obtain ⟨c, hc, hsecond⟩ := hfailed
    rw [hdone] at hc
    obtain ⟨frame, -, rfl⟩ := mem_map.1 hc
    cases hsecond

/-- **Sends report the truth** in the runs that meet the condition of their handle. -/
theorem packet_sends_sound (o : Options) (events trojanEvents : List SendEvent) :
    (Runs.Along (UdpOverTcpState.step o) (UdpOverTcpState.Kept o) {} events →
      SendsSound o (Runs.run (UdpOverTcpState.step o) {} events)) ∧
    (Runs.Along TrojanPacketState.step TrojanPacketState.Kept {} trojanEvents →
      TrojanPacketState.SendsSound (Runs.run TrojanPacketState.step {} trojanEvents)) :=
  ⟨UdpOverTcpState.runs_sound o events, TrojanPacketState.runs_sound trojanEvents⟩

/-- A send of each handle goes through behind a cancelled one. -/
theorem packet_sends_sound_once :
    SendsSound (exampleOptions .version2) (Runs.run (UdpOverTcpState.step (exampleOptions .version2)) {}
      [.send [1] exampleDestination, .cancelSend, .writeDone 0 true, .pumped, .send [2] exampleDestination,
        .writeDone 0 true, .pumped]) ∧
    TrojanPacketState.SendsSound (Runs.run TrojanPacketState.step {}
      [.send [1] exampleDestination, .cancelSend, .send [2] exampleDestination, .writeDone 0 true,
        .writeDone 0 true]) := by
  have h := packet_sends_sound (exampleOptions .version2)
    [.send [1] exampleDestination, .cancelSend, .writeDone 0 true, .pumped, .send [2] exampleDestination,
      .writeDone 0 true, .pumped]
    [.send [1] exampleDestination, .cancelSend, .send [2] exampleDestination, .writeDone 0 true,
      .writeDone 0 true]
  exact ⟨h.1 (by decide +kernel), h.2 (by decide +kernel)⟩

end ClashNative.PacketStream
