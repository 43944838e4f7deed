import ClashNative.PacketFrames
import Mathlib.Data.List.Perm.Basic
/-!
# UdpOverTcpSends — sends of the UDP-over-TCP handle

The send half of `UdpOverTcpState`.  A receive touches nothing of it.  The handler of a send may send
again before `pump_write` behind it runs: `pumps` counts the calls that are still to come.
-/
namespace ClashNative.PacketStream

open List

/-! ## Send handlers -/

/-- The handlers of the sends, which are numbered: the one in `send_handler_`, which is there while
`send_in_progress_` is set, and what the others were called with. -/
structure Handlers where
  parked : Option Nat := none
  issued : Nat := 0
  called : List (Nat × Except ErrorCode Nat) := []

namespace Handlers

/-- A send that ends at once, through `post_write_result`. -/
def refuse (h : Handlers) (code : ErrorCode) : Handlers where
  parked := h.parked
  issued := h.issued + 1
  called := h.called ++ [(h.issued, .error code)]

def park (h : Handlers) : Handlers where
  parked := some h.issued
  issued := h.issued + 1
  called := h.called

/-- `finish_send`, and the other places that take the handler. -/
def finish (h : Handlers) (result : Except ErrorCode Nat) : Handlers :=
  match h.parked with
  | none => h
  | some id =>
    { h with
      parked := none
      called := h.called ++ [(id, result)] }

/-- **Each handler is called once**, the parked one not yet. -/
def Once (h : Handlers) : Prop := (h.called.map Prod.fst ++ h.parked.toList).Perm (List.range h.issued)

theorem once_start : Once {} := List.Perm.refl _

variable {h : Handlers}

theorem Once.refuse (ho : h.Once) (code : ErrorCode) : (h.refuse code).Once := by
  unfold Once Handlers.refuse
  rw [map_append, append_assoc, range_succ]
  exact (List.Perm.append_left _ perm_append_comm).trans (by rw [← append_assoc]; exact ho.append_right _)

theorem Once.park (ho : h.Once) (hparked : h.parked = none) : h.park.Once := by
  unfold Once at ho
  rw [hparked, Option.toList_none, append_nil] at ho
  unfold Once Handlers.park
  rw [range_succ]
  exact ho.append_right _

theorem Once.finish (ho : h.Once) (result : Except ErrorCode Nat) : (h.finish result).Once := by
  unfold Once Handlers.finish
  cases hparked : h.parked with
  | none => exact ho
  | some id =>
    unfold Once at ho
    rw [hparked] at ho
    rw [map_append, Option.toList_none, append_nil]
    exact ho

theorem finish_issued (h : Handlers) (result : Except ErrorCode Nat) : (h.finish result).issued = h.issued := by
  unfold finish
  cases h.parked <;> rfl

theorem finish_parked (h : Handlers) (result : Except ErrorCode Nat) : (h.finish result).parked = none := by
  unfold finish
  cases hparked : h.parked with
  | none => exact hparked
  | some id => rfl

theorem mem_finish {result : Except ErrorCode Nat} {call : Nat × Except ErrorCode Nat}
    (hcall : call ∈ (h.finish result).called) :
    call ∈ h.called ∨ h.parked = some call.1 ∧ call.2 = result := by
  unfold finish at hcall
  cases hparked : h.parked with
  | none =>
    rw [hparked] at hcall
    exact .inl hcall
  | some id =>
    rw [hparked] at hcall
    rcases mem_append.1 hcall with hcall | hcall
    · exact .inl hcall
    · rw [mem_singleton.1 hcall]
      exact .inr ⟨rfl, rfl⟩

theorem mem_refuse {code : ErrorCode} {id n : Nat} (hcall : (id, .ok n) ∈ (h.refuse code).called) : (id,
    .ok n) ∈ h.called := by
  rcases mem_append.1 hcall with hcall | hcall
  · exact hcall
  · cases mem_singleton.1 hcall

end Handlers

/-! ## The send half -/

inductive Version
  | legacy | version2
  deriving DecidableEq, Repr

structure Options where
  version : Version
  requestDestination : Option DatagramAddress

/-- The request of version 2: packet mode, and its destination.  `none`: there is none, or it has no
encoding. -/
def Options.request (o : Options) : Option Bytes :=
  o.requestDestination.bind fun destination =>
    match encodeRequestDestination destination with
    | .ok address => some (0 :: address)
    | .error _ => none

structure PendingWrite where
  packet : Bytes
  size : Nat
  includesRequest : Bool
  id : Nat
  deriving DecidableEq, Repr

/-- The send half of `UdpOverTcpState`.  `inFlight` are the lower writes that are outstanding, `written`
those that succeeded, `accepted` the frames of the sends that were taken. -/
structure UdpOverTcpState where
  handlers : Handlers := {}
  writes : List PendingWrite := []
  requestWritten : Bool := false
  requestPending : Bool := false
  writeInProgress : Bool := false
  inFlight : List PendingWrite := []
  pumps : Nat := 0
  written : List PendingWrite := []
  accepted : List (Nat × Bytes) := []

inductive SendEvent
  | send (payload : Bytes) (destination : DatagramAddress)
  /-- A lower write completes. -/
  | writeDone (i : Nat) (succeeded : Bool)
  /-- The handler has returned, and `pump_write` behind it runs. -/
  | pumped
  | cancelSend
  deriving DecidableEq

namespace UdpOverTcpState

def pumpLoop (o : Options) (s : UdpOverTcpState) : List PendingWrite → UdpOverTcpState
  | [] => { s with writes := [] }
  | pending :: rest =>
    if o.version = .version2 ∧ s.requestWritten = false ∧ pending.includesRequest = false then
      match o.request with
      | none => pumpLoop o { s with handlers := s.handlers.finish (.error .protocolError) } rest
      | some request =>
        { s with
          writes := rest
          requestPending := true
          writeInProgress := true
          inFlight := s.inFlight ++ [{ pending with
            packet := request ++ pending.packet
            includesRequest := true }] }
    else
      { s with
        writes := rest
        writeInProgress := true
        inFlight := s.inFlight ++ [pending] }

def pumpWrite (o : Options) (s : UdpOverTcpState) : UdpOverTcpState :=
  if s.writeInProgress then s else pumpLoop o s s.writes

def push (o : Options) (s : UdpOverTcpState) (frame : Bytes) (pending : PendingWrite) : UdpOverTcpState :=
  pumpWrite o
    { s with
      handlers := s.handlers.park
      writes := s.writes ++ [pending]
      accepted := s.accepted ++ [(s.handlers.issued, frame)] }

def refuse (s : UdpOverTcpState) (code : ErrorCode) : UdpOverTcpState :=
  { s with handlers := s.handlers.refuse code }

def send (o : Options) (s : UdpOverTcpState) (payload : Bytes)
    (destination : DatagramAddress) : UdpOverTcpState :=
  if s.handlers.parked.isSome then s.refuse .alreadyStarted
  else if 65535 < payload.length then s.refuse .messageSize
  else
    match encodeDestination destination with
    | .error _ => s.refuse .protocolError
    | .ok address =>
      let frame := udpOverTcp.frame address payload
      if s.requestWritten = false ∧ s.requestPending = false ∧ o.version = .version2 then
        match o.request with
        | none => s.refuse .protocolError
        | some request => { s with requestPending := true }.push o frame ⟨request ++ frame, payload.length,
          true, s.handlers.issued⟩
      else s.push o frame ⟨frame, payload.length, false, s.handlers.issued⟩

def writeDone (s : UdpOverTcpState) (i : Nat) (succeeded : Bool) (w : PendingWrite) : UdpOverTcpState :=
  { s with
    writeInProgress := false
    inFlight := s.inFlight.eraseIdx i
    requestPending := if w.includesRequest then false else s.requestPending
    requestWritten := if w.includesRequest then succeeded else s.requestWritten
    handlers := s.handlers.finish (if succeeded then .ok w.size else .error .lower)
    pumps := s.pumps + 1
    written := if succeeded then s.written ++ [w] else s.written }

def step (o : Options) (s : UdpOverTcpState) : SendEvent → UdpOverTcpState
  | .send payload destination => s.send o payload destination
  | .writeDone i succeeded =>
    match s.inFlight[i]? with
    | none => s
    | some w => s.writeDone i succeeded w
  | .pumped => if s.pumps = 0 then s else { s with pumps := s.pumps - 1 }.pumpWrite o
  | .cancelSend => { s with handlers := s.handlers.finish (.error .operationAborted) }

end UdpOverTcpState

def PendingWrite.request (o : Options) (w : PendingWrite) : Bytes :=
  if w.includesRequest then o.request.getD [] else []

def RequestFirst (o : Options) (written : List PendingWrite) : Prop :=
  match o.version, written with
  | .legacy, written => ∀ w ∈ written, w.includesRequest = false
  | .version2, [] => True
  | .version2, w :: rest => w.includesRequest = true ∧ ∀ w ∈ rest, w.includesRequest = false

/-- **What the sends owe**: one lower write at a time; each handler called once, and until then there is a
write to wait for; success only for a frame that was written, behind the request or not; the request once,
and first. -/
structure SendsSound (o : Options) (s : UdpOverTcpState) : Prop where
  one_write : s.inFlight.length ≤ 1
  once : s.handlers.Once
  waits : s.handlers.parked ≠ none → s.inFlight ≠ []
  sends_differ : (s.accepted.map Prod.fst).Nodup
  whole : ∀ id n, (id, .ok n) ∈ s.handlers.called → ∃ frame, (id, frame) ∈ s.accepted ∧
    ∃ w ∈ s.written, w.id = id ∧ w.packet = w.request o ++ frame
  request_first : RequestFirst o s.written

theorem RequestFirst.tail {o : Options} {written : List PendingWrite}
    (h : RequestFirst o written) {w : PendingWrite} (hw : w ∈ written.tail) :
    w.includesRequest = false := by
  unfold RequestFirst at h
  cases hversion : o.version with
  | legacy =>
    rw [hversion] at h
    exact h w (mem_of_mem_tail hw)
  | version2 =>
    rw [hversion] at h
    cases written with
    | nil => exact absurd hw not_mem_nil
    | cons first rest => exact h.2 w hw

namespace UdpOverTcpState

/-- **The condition on a step**: no lower write succeeds while the handler of another send is parked; no
send brings the request while a frame is queued before it. -/
def Kept (o : Options) (s : UdpOverTcpState) : SendEvent → Prop
  | .send payload destination => s.handlers.parked = none → payload.length ≤ 65535 →
      (encodeDestination destination).isOk = true →
    o.version = .version2 → s.requestWritten = false → s.requestPending = false → s.writes = []
  | .writeDone i succeeded => succeeded = true → ∀ w ∈ s.inFlight[i]?, ∀ id ∈ s.handlers.parked, w.id = id
  | .pumped | .cancelSend => True

instance (o : Options) (s : UdpOverTcpState) (event : SendEvent) : Decidable (Kept o s event) :=
  match event with
  | .send _ _ => inferInstanceAs (Decidable (_ → _ → _ → _ → _ → _ → _ = _))
  | .writeDone i _ => inferInstanceAs (Decidable (_ → ∀ w ∈ s.inFlight[i]?, ∀ id ∈ s.handlers.parked, w.id = id))
  | .pumped | .cancelSend => inferInstanceAs (Decidable True)

/-! ## What every step keeps -/

def RequestAt (o : Options) (s : UdpOverTcpState) : Prop :=
  match o.version, s.requestWritten with
  | .legacy, _ => (∀ w ∈ s.written, w.includesRequest = false) ∧ ∀ w ∈ s.inFlight, w.includesRequest = false
  | .version2, true => (∃ w rest, s.written = w :: rest ∧ w.includesRequest = true ∧
    ∀ w ∈ rest, w.includesRequest = false) ∧
    (∀ w ∈ s.inFlight, w.includesRequest = false) ∧ s.requestPending = false
  | .version2, false => s.written = [] ∧ (∀ w ∈ s.inFlight, w.includesRequest = true) ∧
    (s.requestPending = true ↔ s.inFlight ≠ [])

structure Core (o : Options) (s : UdpOverTcpState) : Prop where
  flag : s.writeInProgress = true ↔ s.inFlight ≠ []
  one_write : s.inFlight.length ≤ 1
  once : s.handlers.Once
  sends_differ : (s.accepted.map Prod.fst).Nodup
  issued : ∀ send ∈ s.accepted, send.1 < s.handlers.issued
  framed : ∀ w, w ∈ s.written ∨ w ∈ s.inFlight ∨ w ∈ s.writes → ∃ frame, (w.id, frame) ∈ s.accepted ∧
    w.packet = w.request o ++ frame
  whole : ∀ id n, (id, .ok n) ∈ s.handlers.called → ∃ w ∈ s.written, w.id = id
  queued : ∀ w ∈ s.writes, w.includesRequest = false
  request_at : s.RequestAt o

namespace Core

variable {o : Options} {s : UdpOverTcpState}

theorem requestFirst (h : Core o s) : RequestFirst o s.written := by
  have hat := h.request_at
  unfold RequestAt at hat
  unfold RequestFirst
  cases hversion : o.version with
  | legacy =>
    rw [hversion] at hat
    exact hat.1
  | version2 =>
    rw [hversion] at hat
    cases hwritten : s.requestWritten with
    | false =>
      rw [hwritten] at hat
      rw [hat.1]
      trivial
    | true =>
      rw [hwritten] at hat
      obtain ⟨⟨w, rest, heq, hfirst, hrest⟩, -, -⟩ := hat
      rw [heq]
      exact ⟨hfirst, hrest⟩

theorem sound (h : Core o s) (hwaits : s.handlers.parked ≠ none → s.inFlight ≠ []) : SendsSound o s where
  one_write := h.one_write
  once := h.once
  waits := hwaits
  sends_differ := h.sends_differ
  whole id n hcall := by
    obtain ⟨w, hw, rfl⟩ := h.whole id n hcall
    obtain ⟨frame, haccepted, hpacket⟩ := h.framed w (.inl hw)
    exact ⟨frame, haccepted, w, hw, rfl, hpacket⟩
  request_first := h.requestFirst

theorem finish_error (h : Core o s) (code : ErrorCode) : Core o
    { s with handlers := s.handlers.finish (.error code) } where
  flag := h.flag
  one_write := h.one_write
  once := h.once.finish _
  sends_differ := h.sends_differ
  issued send hsend := by
    rw [Handlers.finish_issued]
    exact h.issued send hsend
  framed := h.framed
  whole id n hcall := by
    rcases Handlers.mem_finish hcall with hcall | ⟨-, hresult⟩
    · exact h.whole id n hcall
    · cases hresult
  queued := h.queued
  request_at := h.request_at

theorem refuse (h : Core o s) (code : ErrorCode) : Core o (s.refuse code) where
  flag := h.flag
  one_write := h.one_write
  once := h.once.refuse code
  sends_differ := h.sends_differ
  issued send hsend := Nat.lt_succ_of_lt (h.issued send hsend)
  framed := h.framed
  whole id n hcall := h.whole id n (Handlers.mem_refuse hcall)
  queued := h.queued
  request_at := h.request_at

end Core

theorem pumpLoop_core (o : Options) : ∀ (queue : List PendingWrite) (s : UdpOverTcpState),
    Core o { s with writes := queue } → s.inFlight = [] →
    (s.handlers.parked ≠ none → queue ≠ []) →
    Core o (pumpLoop o s queue) ∧ ((pumpLoop o s queue).handlers.parked ≠ none →
      (pumpLoop o s queue).inFlight ≠ [])
  | [], s, h, _, hwaits => ⟨h, fun hparked => absurd rfl (hwaits hparked)⟩
  | pending :: rest, s, h, hidle, hwaits => by
    have hframed : ∀ w, w ∈ s.written ∨ w ∈ rest → ∃ frame, (w.id, frame) ∈ s.accepted ∧
      w.packet = w.request o ++ frame := by
      rintro w (hw | hw)
      · exact h.framed w (.inl hw)
      · exact h.framed w (.inr (.inr (mem_cons_of_mem pending hw)))
    obtain ⟨frame, haccepted, hpacket⟩ := h.framed pending (.inr (.inr mem_cons_self))
    have hplain : pending.includesRequest = false := h.queued pending mem_cons_self
    have hpacket : pending.packet = frame := by
      rw [hpacket, PendingWrite.request, hplain]
      rfl
    have hat := h.request_at
    unfold RequestAt at hat
    unfold pumpLoop
    by_cases hrequest : o.version = .version2 ∧ s.requestWritten = false ∧ pending.includesRequest = false
    · rw [if_pos hrequest]
      cases hbytes : o.request with
      | none =>
        refine pumpLoop_core o rest _ ?_ hidle
          (fun hparked => absurd (Handlers.finish_parked s.handlers _) hparked)
        have herror := h.finish_error .protocolError
        exact ⟨herror.flag, herror.one_write, herror.once, herror.sends_differ, herror.issued,
          fun w hw => h.framed w
          (hw.imp_right fun hw => hw.imp_right (mem_cons_of_mem pending)), herror.whole,
          fun w hw => h.queued w (mem_cons_of_mem pending hw), herror.request_at⟩
      | some request =>
        dsimp only
        rw [hidle, nil_append]
        refine ⟨?_, fun _ => cons_ne_nil _ _⟩
        refine ⟨⟨fun _ => cons_ne_nil _ _, fun _ => rfl⟩, Nat.le_refl 1, h.once, h.sends_differ, h.issued,
          fun w hw => ?_, h.whole,
          fun w hw => h.queued w (mem_cons_of_mem pending hw), ?_⟩
        · rcases hw with hw | hw | hw
          · exact hframed w (.inl hw)
          · rw [mem_singleton.1 hw]
            refine ⟨frame, haccepted, ?_⟩
            show request ++ pending.packet = (if true = true then o.request.getD [] else []) ++ frame
            rw [hpacket, hbytes, if_pos rfl, Option.getD_some]
          · exact hframed w (.inr hw)
        · unfold RequestAt
          rw [hrequest.1, hrequest.2.1] at hat ⊢
          refine ⟨hat.1, fun w hw => ?_, fun _ => cons_ne_nil _ _, fun _ => rfl⟩
          rw [mem_singleton.1 hw]
    · rw [if_neg hrequest, hidle, nil_append]
      refine ⟨?_, fun _ => cons_ne_nil _ _⟩
      refine ⟨⟨fun _ => cons_ne_nil _ _, fun _ => rfl⟩, Nat.le_refl 1, h.once, h.sends_differ, h.issued,
        fun w hw => ?_, h.whole,
        fun w hw => h.queued w (mem_cons_of_mem pending hw), ?_⟩
      · rcases hw with hw | hw | hw
        · exact hframed w (.inl hw)
        · rw [mem_singleton.1 hw]
          exact h.framed pending (.inr (.inr mem_cons_self))
        · exact hframed w (.inr hw)
      · have hone : ∀ w ∈ [pending], w.includesRequest = false := fun w hw => by rw [mem_singleton.1 hw, hplain]
        unfold RequestAt
        cases hversion : o.version with
        | legacy =>
          rw [hversion] at hat
          exact ⟨hat.1, hone⟩
        | version2 =>
          cases hwritten : s.requestWritten with
          | false => exact absurd ⟨hversion, hwritten, hplain⟩ hrequest
          | true =>
            rw [hversion, hwritten] at hat
            exact ⟨hat.1, hone, hat.2.2⟩

variable {s : UdpOverTcpState} {o : Options}

theorem pumpWrite_core (h : Core o s) (hwaits : s.handlers.parked ≠ none → s.inFlight ≠ [] ∨ s.writes ≠ []) :
    Core o (s.pumpWrite o) ∧ ((s.pumpWrite o).handlers.parked ≠ none → (s.pumpWrite o).inFlight ≠ []) := by
  unfold pumpWrite
  by_cases hflag : s.writeInProgress = true
  · rw [if_pos hflag]
    exact ⟨h, fun _ => h.flag.1 hflag⟩
  · rw [if_neg hflag]
    have hidle : s.inFlight = [] := by
      by_contra hne
      exact hflag (h.flag.2 hne)
    exact pumpLoop_core o s.writes s h hidle fun hparked => (hwaits hparked).resolve_left fun hne => hne hidle

theorem Core.enqueue (h : Core o s) (hparked : s.handlers.parked = none) (frame : Bytes) (size : Nat) :
    Core o
      { s with
        handlers := s.handlers.park
        writes := s.writes ++ [⟨frame, size, false, s.handlers.issued⟩]
        accepted := s.accepted ++ [(s.handlers.issued, frame)] } where
  flag := h.flag
  one_write := h.one_write
  once := h.once.park hparked
  sends_differ := by
    rw [map_append]
    refine nodup_append.2 ⟨h.sends_differ, nodup_singleton _, ?_⟩
    rintro id hid _ hnew rfl
    obtain ⟨send, hsend, rfl⟩ := mem_map.1 hid
    exact absurd (mem_singleton.1 hnew) (Nat.ne_of_lt (h.issued send hsend))
  issued send hsend := by
    rcases mem_append.1 hsend with hsend | hsend
    · exact Nat.lt_succ_of_lt (h.issued send hsend)
    · rw [mem_singleton.1 hsend]
      exact Nat.lt_succ_self _
  framed w hw := by
    have hold : w ∈ s.written ∨ w ∈ s.inFlight ∨ w ∈ s.writes →
      ∃ frame', (w.id, frame') ∈ s.accepted ++ [(s.handlers.issued, frame)] ∧
        w.packet = w.request o ++ frame' := fun hw => by
      obtain ⟨frame', haccepted, hpacket⟩ := h.framed w hw
      exact ⟨frame', mem_append_left _ haccepted, hpacket⟩
    rcases hw with hw | hw | hw
    · exact hold (.inl hw)
    · exact hold (.inr (.inl hw))
    · rcases mem_append.1 hw with hw | hw
      · exact hold (.inr (.inr hw))
      · rw [mem_singleton.1 hw]
        exact ⟨frame, mem_append_right _ mem_cons_self, rfl⟩
  whole := h.whole
  queued w hw := by
    rcases mem_append.1 hw with hw | hw
    · exact h.queued w hw
    · rw [mem_singleton.1 hw]
  request_at := h.request_at

variable {request : Bytes}

theorem Core.push_request (h : Core o s) (hparked : s.handlers.parked = none) (hversion : o.version = .version2)
    (hwritten : s.requestWritten = false) (hpending : s.requestPending = false) (hqueue : s.writes = [])
    (hrequest : o.request = some request) (frame : Bytes) (size : Nat) :
    Core o ({ s with requestPending := true }.push o frame ⟨request ++ frame, size, true, s.handlers.issued⟩) ∧
      ({ s with requestPending := true }.push o frame ⟨request ++ frame, size, true,
        s.handlers.issued⟩).inFlight ≠ [] := by
  have hat := h.request_at
  unfold RequestAt at hat
  rw [hversion, hwritten] at hat
  have hidle : s.inFlight = [] := by
    by_contra hne
    rw [hat.2.2.2 hne] at hpending
    cases hpending
  have hflag : ¬ s.writeInProgress = true := fun hflag => h.flag.1 hflag hidle
  have henqueued := h.enqueue hparked frame size
  unfold push pumpWrite
  rw [if_neg hflag, hqueue, nil_append, pumpLoop, if_neg (fun hplain => nomatch hplain.2.2)]
  rw [hidle, nil_append]
  refine ⟨?_, cons_ne_nil _ _⟩
  refine ⟨⟨fun _ => cons_ne_nil _ _, fun _ => rfl⟩, Nat.le_refl 1, henqueued.once, henqueued.sends_differ,
    henqueued.issued, fun w hw => ?_,
    h.whole, fun w hw => absurd hw not_mem_nil, ?_⟩
  · rcases hw with hw | hw | hw
    · exact henqueued.framed w (.inl hw)
    · rw [mem_singleton.1 hw]
      refine ⟨frame, mem_append_right _ mem_cons_self, ?_⟩
      show request ++ frame = (if true = true then o.request.getD [] else []) ++ frame
      rw [hrequest, if_pos rfl, Option.getD_some]
    · exact absurd hw not_mem_nil
  · unfold RequestAt
    rw [hversion, hwritten]
    refine ⟨hat.1, fun w hw => ?_, fun _ => cons_ne_nil _ _, fun _ => rfl⟩
    rw [mem_singleton.1 hw]

theorem send_core (h : Core o s) (hwaits : s.handlers.parked ≠ none → s.inFlight ≠ []) (payload : Bytes)
    (destination : DatagramAddress) (hkept : Kept o s (.send payload destination)) :
    Core o (s.send o payload destination) ∧
      ((s.send o payload destination).handlers.parked ≠ none →
        (s.send o payload destination).inFlight ≠ []) := by
  have hrefused : ∀ code, Core o (s.refuse code) ∧
    ((s.refuse code).handlers.parked ≠ none → (s.refuse code).inFlight ≠ []) :=
    fun code => ⟨h.refuse code, hwaits⟩
  unfold send
  by_cases hparked : s.handlers.parked.isSome = true
  · rw [if_pos hparked]
    exact hrefused _
  rw [if_neg hparked]
  have hparked : s.handlers.parked = none := by simpa using hparked
  by_cases hlength : 65535 < payload.length
  · rw [if_pos hlength]
    exact hrefused _
  rw [if_neg hlength]
  cases haddress : encodeDestination destination with
  | error _ => exact hrefused _
  | ok address =>
    dsimp only
    by_cases hfirst : s.requestWritten = false ∧ s.requestPending = false ∧ o.version = .version2
    · rw [if_pos hfirst]
      cases hrequest : o.request with
      | none => exact hrefused _
      | some request =>
        have hqueue := hkept hparked (Nat.not_lt.1 hlength)
          (by rw [haddress]; rfl) hfirst.2.2 hfirst.1 hfirst.2.1
        obtain ⟨hcore, hflight⟩ := h.push_request hparked hfirst.2.2 hfirst.1 hfirst.2.1 hqueue hrequest
          (udpOverTcp.frame address payload)
          payload.length
        exact ⟨hcore, fun _ => hflight⟩
    · rw [if_neg hfirst]
      exact pumpWrite_core (h.enqueue hparked _ _) fun _ =>
        .inr (append_ne_nil_of_right_ne_nil _ (cons_ne_nil _ _))

variable {w : PendingWrite}

theorem writeDone_core (h : Core o s) {i : Nat} {succeeded : Bool}
    (hw : s.inFlight[i]? = some w)
    (hkept : Kept o s (.writeDone i succeeded)) : Core o (s.writeDone i succeeded w) := by
  have hmem : w ∈ s.inFlight := mem_of_getElem? hw
  have hempty : s.inFlight.eraseIdx i = [] := by
    have hi := (List.getElem?_eq_some_iff.1 hw).1
    have hlength := length_eraseIdx_of_lt hi
    exact length_eq_zero_iff.1 (by have := h.one_write; omega)
  have hold : ∀ w' ∈ s.written, w' ∈ (if succeeded then s.written ++ [w] else s.written) := fun w' hw' => by
    split
    · exact mem_append_left _ hw'
    · exact hw'
  unfold writeDone
  rw [hempty]
  refine ⟨⟨nofun, fun hne => absurd rfl hne⟩, Nat.zero_le 1, h.once.finish _, h.sends_differ,
    fun send hsend => ?_,
    fun w' hw' => ?_, fun id n hcall => ?_, h.queued, ?_⟩
  · rw [Handlers.finish_issued]
    exact h.issued send hsend
  · rcases hw' with hw' | hw' | hw'
    · dsimp only at hw'
      split at hw'
      · rcases mem_append.1 hw' with hw' | hw'
        · exact h.framed w' (.inl hw')
        · rw [mem_singleton.1 hw']
          exact h.framed w (.inr (.inl hmem))
      · exact h.framed w' (.inl hw')
    · exact absurd hw' not_mem_nil
    · exact h.framed w' (.inr (.inr hw'))
  · rcases Handlers.mem_finish hcall with hcall | ⟨hparked, hresult⟩
    · obtain ⟨w', hw', hid⟩ := h.whole id n hcall
      exact ⟨w', hold w' hw', hid⟩
    · cases succeeded with
      | false => cases hresult
      | true => exact ⟨w, mem_append_right _ mem_cons_self, hkept rfl w hw id hparked⟩
  · have hat := h.request_at
    unfold RequestAt at hat ⊢
    cases hversion : o.version with
    | legacy =>
      rw [hversion] at hat
      refine ⟨fun w' hw' => ?_, fun w' hw' => absurd hw' not_mem_nil⟩
      split at hw'
      · rcases mem_append.1 hw' with hw' | hw'
        · exact hat.1 w' hw'
        · rw [mem_singleton.1 hw']
          exact hat.2 w hmem
      · exact hat.1 w' hw'
    | version2 =>
      cases hwritten : s.requestWritten with
      | true =>
        rw [hversion, hwritten] at hat
        obtain ⟨⟨first, rest, heq, hfirst, hrest⟩, hflight, hpending⟩ := hat
        have hplain : w.includesRequest = false := hflight w hmem
        rw [hplain]
        refine ⟨?_, fun w' hw' => absurd hw' not_mem_nil, hpending⟩
        cases succeeded with
        | false => exact ⟨first, rest, heq, hfirst, hrest⟩
        | true =>
          refine ⟨first, rest ++ [w], by rw [heq]; rfl, hfirst, fun w' hw' => ?_⟩
          rcases mem_append.1 hw' with hw' | hw'
          · exact hrest w' hw'
          · rw [mem_singleton.1 hw', hplain]
      | false =>
        rw [hversion, hwritten] at hat
        obtain ⟨hnone, hflight, -⟩ := hat
        rw [hflight w hmem, hnone]
        cases succeeded with
        | false => exact ⟨rfl, fun w' hw' => absurd hw' not_mem_nil, nofun, fun hne => absurd rfl hne⟩
        | true =>
          refine ⟨⟨w, [], rfl, hflight w hmem, fun w' hw' => absurd hw' not_mem_nil⟩,
            fun w' hw' => absurd hw' not_mem_nil, rfl⟩

def Inv (o : Options) (s : UdpOverTcpState) : Prop := Core o s ∧ (s.handlers.parked ≠ none → s.inFlight ≠ [])

theorem step_inv (h : Inv o s) (event : SendEvent) (hkept : Kept o s event) : Inv o (s.step o event) := by
  cases event with
  | send payload destination => exact send_core h.1 h.2 payload destination hkept
  | writeDone i succeeded =>
    unfold step
    dsimp only
    cases hw : s.inFlight[i]? with
    | none => exact h
    | some w => exact ⟨writeDone_core h.1 hw hkept, fun hparked => absurd (Handlers.finish_parked _ _) hparked⟩
  | pumped =>
    unfold step
    dsimp only
    split
    · exact h
    · exact pumpWrite_core
        ⟨h.1.flag, h.1.one_write, h.1.once, h.1.sends_differ, h.1.issued, h.1.framed, h.1.whole,
          h.1.queued, h.1.request_at⟩ fun hparked =>
          .inl (h.2 hparked)
  | cancelSend => exact ⟨h.1.finish_error _, fun hparked => absurd (Handlers.finish_parked _ _) hparked⟩

theorem start_inv (o : Options) : Inv o {} := by
  refine ⟨⟨⟨nofun, fun hne => absurd rfl hne⟩, Nat.zero_le 1, Handlers.once_start, nodup_nil,
    fun send hsend => absurd hsend not_mem_nil, ?_, fun id n hcall => absurd hcall not_mem_nil,
    fun w hw => absurd hw not_mem_nil, ?_⟩, fun hparked => absurd rfl hparked⟩
  · rintro w (hw | hw | hw) <;> exact absurd hw not_mem_nil
  · unfold RequestAt
    cases o.version with
    | legacy => exact ⟨fun w hw => absurd hw not_mem_nil, fun w hw => absurd hw not_mem_nil⟩
    | version2 => exact ⟨rfl, fun w hw => absurd hw not_mem_nil, nofun, fun hne => absurd rfl hne⟩

theorem runs_sound (o : Options) (events : List SendEvent) (hkept : Runs.Along (step o) (Kept o) {} events) :
    SendsSound o (Runs.run (step o) {} events) := by
  have hinv := Runs.along_induction (P := Inv o) (fun s event h hk => step_inv h event hk) events _
    (start_inv o) hkept
  exact hinv.1.sound hinv.2

/-! ## Sends one after the other -/

def stream (o : Options) (frames : List Bytes) : Bytes :=
  (if o.version = .version2 ∧ frames ≠ [] then o.request.getD [] else []) ++ frames.flatten

theorem stream_append (o : Options) (frames : List Bytes) (frame : Bytes) : stream o (frames ++ [frame]) =
    stream o frames ++ ((if o.version = .version2 ∧ frames = [] then o.request.getD [] else []) ++ frame) := by
  have hne : frames ++ [frame] ≠ [] := append_ne_nil_of_right_ne_nil _ (cons_ne_nil _ _)
  unfold stream
  rw [flatten_append, flatten_singleton]
  by_cases hversion : o.version = .version2
  · rw [if_pos ⟨hversion, hne⟩]
    by_cases hfirst : frames = []
    · rw [if_neg (fun h => h.2 hfirst), if_pos ⟨hversion, hfirst⟩, hfirst]
      simp
    · rw [if_pos ⟨hversion, hfirst⟩, if_neg (fun h => hfirst h.2), nil_append, append_assoc]
  · rw [if_neg (fun h => hversion h.1), if_neg (fun h => hversion h.1), if_neg (fun h => hversion h.1)]
    simp

/-- **Each send found the one before it done**, and every lower write that completed succeeded: nothing is
queued, and what is on its way is the parked send. -/
structure OneByOne (o : Options) (s : UdpOverTcpState) (frames : List Bytes) : Prop where
  inv : s.Inv o
  queue : s.writes = []
  idle : s.handlers.parked = none → s.inFlight = []
  own : ∀ id, s.handlers.parked = some id → ∀ w ∈ s.inFlight, w.id = id
  succeeds : ∀ call ∈ s.handlers.called, ∃ n, call.2 = .ok n
  count : (s.written ++ s.inFlight).length = frames.length
  stream : (s.written ++ s.inFlight).flatMap PendingWrite.packet = stream o frames

variable {address payload : Bytes} {destination : DatagramAddress}

theorem send_first (o : Options) (s : UdpOverTcpState) (hlength : payload.length ≤ 65535)
    (hencode : encodeDestination destination = .ok address) (hparked : s.handlers.parked = none)
    (hrequest : o.request = some request)
    (hfirst : s.requestWritten = false ∧ s.requestPending = false ∧ o.version = .version2) :
    s.send o payload destination =
      { s with requestPending := true }.push o (udpOverTcp.frame address payload)
        ⟨request ++ udpOverTcp.frame address payload, payload.length, true, s.handlers.issued⟩ := by
  unfold UdpOverTcpState.send
  rw [if_neg (by simp [hparked]), if_neg (Nat.not_lt.2 hlength)]
  simp only [hencode, hrequest, if_pos hfirst]

theorem send_later (o : Options) (s : UdpOverTcpState) (hlength : payload.length ≤ 65535)
    (hencode : encodeDestination destination = .ok address) (hparked : s.handlers.parked = none)
    (hlater : ¬ (s.requestWritten = false ∧ s.requestPending = false ∧ o.version = .version2)) :
    s.send o payload destination =
      s.push o (udpOverTcp.frame address payload) ⟨udpOverTcp.frame address payload, payload.length, false,
        s.handlers.issued⟩ := by
  unfold UdpOverTcpState.send
  rw [if_neg (by simp [hparked]), if_neg (Nat.not_lt.2 hlength)]
  simp only [hencode, if_neg hlater]

theorem push_idle (o : Options) (hflag : ¬ s.writeInProgress = true) (hqueue : s.writes = [])
    (hidle : s.inFlight = [])
    (frame : Bytes) (hdirect : ¬ (o.version = .version2 ∧ s.requestWritten = false ∧
      w.includesRequest = false)) :
    (s.push o frame w).handlers = s.handlers.park ∧ (s.push o frame w).writes = [] ∧
    (s.push o frame w).inFlight = [w] ∧
      (s.push o frame w).written = s.written := by
  unfold UdpOverTcpState.push UdpOverTcpState.pumpWrite
  rw [if_neg hflag, hqueue, nil_append, UdpOverTcpState.pumpLoop.eq_def]
  dsimp only
  rw [if_neg hdirect, hidle]
  exact ⟨rfl, rfl, rfl, rfl⟩

theorem pumpWrite_empty (o : Options) (hqueue : s.writes = []) : (s.pumpWrite o).handlers = s.handlers ∧
    (s.pumpWrite o).writes = [] ∧ (s.pumpWrite o).inFlight = s.inFlight ∧
    (s.pumpWrite o).written = s.written := by
  unfold pumpWrite
  split
  · exact ⟨rfl, hqueue, rfl, rfl⟩
  · rw [hqueue]
    exact ⟨rfl, rfl, rfl, rfl⟩

namespace OneByOne

variable {o : Options} {s : UdpOverTcpState} {frames : List Bytes} {address payload : Bytes}
    {destination : DatagramAddress}

theorem send_free (h : OneByOne o s frames) (hrequest : o.version = .version2 → o.request.isSome)
    (hparked : s.handlers.parked = none)
    (hlength : payload.length ≤ 65535)
    (hencode : encodeDestination destination = .ok address) : ∃ w : PendingWrite,
    w.id = s.handlers.issued ∧
    w.packet = (if o.version = .version2 ∧ frames = [] then o.request.getD [] else []) ++
    udpOverTcp.frame address payload ∧
    (s.send o payload destination).handlers = s.handlers.park ∧ (s.send o payload destination).writes = [] ∧
    (s.send o payload destination).inFlight = [w] ∧ (s.send o payload destination).written = s.written := by
  have hidle := h.idle hparked
  have hflag : ¬ s.writeInProgress = true := fun hflag => h.inv.1.flag.1 hflag hidle
  have hat := h.inv.1.request_at
  have hcount := h.count
  rw [hidle, append_nil] at hcount
  unfold RequestAt at hat
  by_cases hversion : o.version = .version2
  · rw [hversion] at hat
    by_cases hwritten : s.requestWritten = false
    · rw [hwritten] at hat
      obtain ⟨hnone, -, hpending⟩ := hat
      have hpending : s.requestPending = false := by
        by_contra hne
        exact hpending.1 (by simpa using hne) hidle
      have hfirst : frames = [] := length_eq_zero_iff.1 (by rw [← hcount, hnone]; rfl)
      obtain ⟨request, hrequest⟩ := Option.isSome_iff_exists.1 (hrequest hversion)
      rw [send_first o s hlength hencode hparked hrequest ⟨hwritten, hpending, hversion⟩,
        if_pos ⟨hversion, hfirst⟩, hrequest, Option.getD_some]
      refine ⟨_, rfl, rfl, push_idle _ (s := { s with requestPending := true }) hflag h.queue hidle _ ?_⟩
      exact fun hplain => nomatch hplain.2.2
    · have hdone : s.requestWritten = true := by simpa using hwritten
      rw [hdone] at hat
      obtain ⟨⟨w, rest, heq, -, -⟩, -, -⟩ := hat
      have hfirst : frames ≠ [] := by
        rintro rfl
        rw [heq] at hcount
        cases hcount
      rw [send_later o s hlength hencode hparked (fun h => hwritten h.1), if_neg (fun h => hfirst h.2)]
      refine ⟨_, rfl, rfl, push_idle _ hflag h.queue hidle _ ?_⟩
      exact fun hplain => hwritten hplain.2.1
  · rw [send_later o s hlength hencode hparked (fun h => hversion h.2.2), if_neg (fun h => hversion h.1)]
    exact ⟨_, rfl, rfl, push_idle _ hflag h.queue hidle _ fun hplain => hversion hplain.1⟩

theorem start (o : Options) : OneByOne o {} [] where
  inv := start_inv o
  queue := rfl
  idle _ := rfl
  own _ hid := nomatch hid
  succeeds _ hcall := absurd hcall not_mem_nil
  count := rfl
  stream := by
    unfold UdpOverTcpState.stream
    rw [if_neg (fun h => h.2 rfl)]
    rfl

theorem send (h : OneByOne o s frames) (hrequest : o.version = .version2 → o.request.isSome)
    (hparked : s.handlers.parked = none)
    (hlength : payload.length ≤ 65535)
    (hencode : encodeDestination destination = .ok address) :
    OneByOne o (s.send o payload destination) (frames ++ [udpOverTcp.frame address payload]) := by
  obtain ⟨w, hid, hpacket, hhandlers, hqueue, hflight, hwritten⟩ := h.send_free hrequest hparked hlength hencode
  have hidle := h.idle hparked
  have hcount := h.count
  have hstream := h.stream
  rw [hidle, append_nil] at hcount hstream
  refine ⟨step_inv h.inv (.send payload destination) fun _ _ _ _ _ _ => h.queue, hqueue, ?_, ?_, ?_, ?_, ?_⟩
  · rw [hhandlers]
    exact nofun
  · rw [hhandlers, hflight]
    intro id hparked' w' hw'
    rw [mem_singleton.1 hw', hid]
    exact Option.some.inj hparked'
  · rw [hhandlers]
    exact h.succeeds
  · rw [hwritten, hflight, length_append, length_append, hcount]
    rfl
  · rw [hwritten, hflight, flatMap_append, hstream, flatMap_singleton, hpacket, stream_append]

theorem writeDone (h : OneByOne o s frames) (i : Nat) :
    OneByOne o (s.step o (.writeDone i true)) frames := by
  have hinv := step_inv h.inv (.writeDone i true) fun _ w hw id hid => h.own id hid w (mem_of_getElem? hw)
  unfold step at hinv ⊢
  dsimp only at hinv ⊢
  cases hw : s.inFlight[i]? with
  | none => exact h
  | some w =>
    rw [hw] at hinv
    have hpos := length_pos_of_mem (mem_of_getElem? hw)
    obtain ⟨w', hw'⟩ := length_eq_one_iff.1 (Nat.le_antisymm h.inv.1.one_write hpos)
    have hcount := h.count
    have hstream := h.stream
    rw [hw'] at hw hcount hstream
    cases i with
    | succ i => cases hw
    | zero =>
      cases hw
      have hempty : (s.writeDone 0 true w).inFlight = [] := by
        unfold UdpOverTcpState.writeDone
        rw [hw']
        rfl
      refine ⟨hinv, h.queue, fun _ => hempty, fun id hid => ?_, fun call hcall => ?_, ?_, ?_⟩
      · exact absurd ((Handlers.finish_parked s.handlers _).symm.trans hid) (Option.some_ne_none id).symm
      · rcases Handlers.mem_finish hcall with hcall | ⟨-, hresult⟩
        · exact h.succeeds call hcall
        · exact ⟨w.size, hresult⟩
      · rw [hempty, append_nil]
        exact hcount
      · rw [hempty, append_nil]
        exact hstream

theorem pumped_handlers (h : OneByOne o s frames) : (s.step o .pumped).handlers = s.handlers := by
  unfold step
  dsimp only
  split
  · rfl
  · exact (pumpWrite_empty o (s := { s with pumps := s.pumps - 1 }) h.queue).1

theorem pumped (h : OneByOne o s frames) : OneByOne o (s.step o .pumped) frames := by
  have hinv := step_inv h.inv .pumped trivial
  unfold step at hinv ⊢
  by_cases hpumps : s.pumps = 0
  · rw [if_pos hpumps]
    exact h
  · rw [if_neg hpumps] at hinv ⊢
    obtain ⟨hhandlers, hqueue, hflight, hwritten⟩ :=
      pumpWrite_empty o (s := { s with pumps := s.pumps - 1 }) h.queue
    refine ⟨hinv, hqueue, ?_, ?_, ?_, ?_, ?_⟩
    · rw [hhandlers, hflight]
      exact h.idle
    · rw [hhandlers, hflight]
      exact h.own
    · rw [hhandlers]
      exact h.succeeds
    · rw [hwritten, hflight]
      exact h.count
    · rw [hwritten, hflight]
      exact h.stream

end OneByOne

end UdpOverTcpState

end ClashNative.PacketStream
