import ClashNative.MpscChannel
/-!
# MpscFifo — the channel loses nothing, repeats nothing, and completes every operation once

The invariant `Inv closing hs hr` of the channel, with the send operation `hs` and the receive operation
`hr` in the hand of the running section, which is `closing` the channel or not: what was accepted is what
was delivered followed by the buffer; a parked receive leaves nothing to receive; parked sends mean a full
buffer; and the nodes of both kinds are in order (`NodesOk`).
-/
namespace ClashNative.Async.Mpsc

open WaitNodes List

variable {α : Type}

/-- What the record of accepted values says of send `i`: it was accepted exactly when its outcome says so.
-/
def SendAgrees (accepted : List (Origin × α)) (i : Nat) : Option SendResult → Prop
  | none => .send i ∉ accepted.map (·.1)
  | some r => .send i ∈ accepted.map (·.1) ↔ r = .value true

/-- What the record of delivered values says of receive `j`: the value delivered to it is the one it
completes with. -/
def RecvAgrees (delivered : List (Target × α)) (j : Nat) : Option (RecvResult α) → Prop
  | none => ∀ v, (.recv j, v) ∉ delivered
  | some r => ∀ v, (.recv j, v) ∈ delivered ↔ r = .value (some v)

/-- Why a send has the outcome it has: a refused one was not attached or finds the channel closed. -/
def SendReason (closed : Bool) (n : Node SendResult) : SendResult → Prop
  | .value accepted => accepted = false → n.attached = false ∨ closed = true
  | .stopped => n.stopRequested = true ∨ n.stage = .kStopped

/-- Why a receive has the outcome it has: one that ends without a value was not attached, or the channel
is closed and drained. -/
def RecvReason (closed : Bool) (buffer : List α) (n : Node (RecvResult α)) : RecvResult α → Prop
  | .value v => v = none → n.attached = false ∨ closed = true ∧ buffer = []
  | .violation => True
  | .stopped => n.stopRequested = true ∨ n.stage = .kStopped

variable {closed : Bool}

theorem SendReason.mono {n n' : Node SendResult} {r : SendResult} (h : SendReason closed n r)
    (hf : n'.attached = n.attached ∧ n'.stage = n.stage ∧ (n.stopRequested = true → n'.stopRequested = true)) :
    SendReason closed n' r := by
  cases r with
  | value accepted => exact fun ha => (h ha).imp_left hf.1.trans
  | stopped => exact h.imp hf.2.2 hf.2.1.trans

theorem RecvReason.mono {buffer : List α} {n n' : Node (RecvResult α)} {r : RecvResult α}
    (h : RecvReason closed buffer n r)
    (hf : n'.attached = n.attached ∧ n'.stage = n.stage ∧ (n.stopRequested = true → n'.stopRequested = true)) :
    RecvReason closed buffer n' r := by
  cases r with
  | value v => exact fun hv => (h hv).imp_left hf.1.trans
  | violation => trivial
  | stopped => exact h.imp hf.2.2 hf.2.1.trans

def State.valueOf (s : State α) : Origin → Option α
  | .send i => (s.sends[i]?).map (·.value)
  | .trySend n => s.trySent[n]?

def State.knows (s : State α) : Target → Prop
  | .recv j => j < s.recvs.length
  | .tryRecv n => n < s.tryReceived

def State.sendNodes (s : State α) : List (Node SendResult) := s.sends.map (·.node)

/-- **What `try_send` answers**: whether the value was accepted, and only a closed or a full channel
refuses it. -/
def TrySends (s : State α) (v : α) (r : Bool × State α) : Prop :=
  r.2.accepted = s.accepted ++ (if r.1 then [(Origin.trySend s.trySent.length, v)] else []) ∧
    (r.1 = false → s.closed = true ∨ s.recvSlot = none ∧ s.capacity = some s.buffer.length)

/-- **What `try_recv` answers**: the value that was delivered to it, and nothing only when no value was
there. -/
def TryReceives (s : State α) (r : Option α × State α) : Prop :=
  r.2.delivered = s.delivered ++ (r.1.map fun v => (Target.tryRecv s.tryReceived, v)).toList ∧
    (r.1 = none → s.buffer = [] ∧ s.waitList = [])

structure Inv (closing : Bool) (hs hr : Option Nat) (s : State α) : Prop where
  fifo : s.accepted.map (·.2) = s.delivered.map (·.2) ++ s.buffer
  capacity : ∀ c, s.capacity = some c → s.buffer.length ≤ c
  slot_empty : s.recvSlot ≠ none → s.buffer = [] ∧ s.waitList = []
  wait_full : s.waitList ≠ [] → s.capacity = some s.buffer.length
  closed_empty : s.closed = true → closing = false → s.waitList = [] ∧ s.recvSlot = none
  sends : NodesOk hs (SendAgrees s.accepted) (SendReason s.closed) s.waitList s.sendNodes
  recvs : NodesOk hr (RecvAgrees s.delivered) (RecvReason s.closed s.buffer) s.recvSlot.toList s.recvs
  origins_nodup : (s.accepted.map (·.1)).Nodup
  targets_nodup : (s.delivered.map (·.1)).Nodup
  origin_ok : ∀ o v, (o, v) ∈ s.accepted → s.valueOf o = some v
  target_ok : ∀ t ∈ s.delivered.map (·.1), s.knows t

theorem inv_init (capacity : Option Nat) : Inv false none none ({ capacity } : State α) where
  fifo := rfl
  capacity _ _ := Nat.zero_le _
  slot_empty h := absurd rfl h
  wait_full h := absurd rfl h
  closed_empty h := by cases h
  sends := NodesOk.empty _ _
  recvs := NodesOk.empty _ _
  origins_nodup := nodup_nil
  targets_nodup := nodup_nil
  origin_ok _ _ h := by cases h
  target_ok _ h := by cases h

@[simp] theorem sendNodes_updSend (s : State α) (i : Nat) (f : Node SendResult → Node SendResult) :
    (s.updSend i f).sendNodes = s.sendNodes.modify i f := by
  apply ext_getElem?
  intro j
  unfold State.sendNodes State.updSend
  rw [getElem?_map, getElem?_modify, getElem?_modify, getElem?_map]
  cases s.sends[j]? with
  | none => rfl
  | some op =>
    by_cases hij : i = j
    · simp [hij]
    · simp [hij]

@[simp] theorem valueOf_updSend (s : State α) (i : Nat) (f : Node SendResult → Node SendResult) (o : Origin) :
    (s.updSend i f).valueOf o = s.valueOf o := by
  cases o with
  | trySend n => rfl
  | send k =>
    simp only [State.valueOf, State.updSend, getElem?_modify]
    cases s.sends[k]? with
    | none => rfl
    | some op =>
      by_cases hik : i = k
      · simp [hik]
      · simp [hik]

@[simp] theorem valueOf_unlinkSend (s : State α) (i : Nat) (st : Stage) (o : Origin) :
    (s.unlinkSend i st).valueOf o = s.valueOf o := valueOf_updSend s i (Node.leave st) o

variable {s : State α}

theorem sendNodes_getElem? {i : Nat} {op : SendOp α} (h : s.sends[i]? = some op) :
    s.sendNodes[i]? = some op.node := by
  simp [State.sendNodes, h]

namespace Inv

variable {cl : Bool} {hs hr : Option Nat} {s : State α}

/-! ## Moves of one operation -/

theorem updSend (h : Inv cl hs hr s) {hs' : Option Nat} (i : Nat) (f : Node SendResult →
    Node SendResult) (w : List Nat)
    (hw : w ≠ [] → s.waitList ≠ [] ∨ (s.capacity = some s.buffer.length ∧ s.recvSlot = none ∧ s.closed = false))
    (hn : NodesOk hs' (SendAgrees s.accepted) (SendReason s.closed) w (s.sendNodes.modify i f)) :
    Inv cl hs' hr { s.updSend i f with waitList := w } where
  fifo := h.fifo
  capacity := h.capacity
  slot_empty hslot := by
    obtain ⟨hb, hwait⟩ := h.slot_empty hslot
    refine ⟨hb, ?_⟩
    by_contra hne
    rcases hw hne with h1 | ⟨_, h2, _⟩
    · exact h1 hwait
    · exact hslot h2
  wait_full hne := by
    rcases hw hne with h1 | ⟨h2, _, _⟩
    · exact h.wait_full h1
    · exact h2
  closed_empty hc hk := by
    obtain ⟨hwait, hslot⟩ := h.closed_empty hc hk
    refine ⟨?_, hslot⟩
    by_contra hne
    rcases hw hne with h1 | ⟨_, _, h3⟩
    · exact h1 hwait
    · rw [show s.closed = true from hc] at h3
      cases h3
  sends := by
    have := sendNodes_updSend s i f
    unfold State.sendNodes at this hn ⊢
    rw [this]
    exact hn
  recvs := h.recvs
  origins_nodup := h.origins_nodup
  targets_nodup := h.targets_nodup
  origin_ok o v hov := (valueOf_updSend s i f o).trans (h.origin_ok o v hov)
  target_ok := h.target_ok

theorem knows_updRecv (s : State α) (j : Nat) (f : Node (RecvResult α) → Node (RecvResult α)) (t : Target) :
    (s.updRecv j f).knows t ↔ s.knows t := by
  cases t <;> simp [State.knows, State.updRecv]

theorem updRecv (h : Inv cl hs hr s) {hr' : Option Nat} (j : Nat) (f : Node (RecvResult α) → Node (RecvResult α))
    (slot : Option Nat) (hslot : slot ≠ none → s.recvSlot ≠ none ∨
      (s.buffer = [] ∧ s.waitList = [] ∧ s.closed = false))
    (hn : NodesOk hr' (RecvAgrees s.delivered) (RecvReason s.closed s.buffer) slot.toList (s.recvs.modify j f)) :
    Inv cl hs hr' { s.updRecv j f with recvSlot := slot } where
  fifo := h.fifo
  capacity := h.capacity
  slot_empty hne := by
    rcases hslot hne with h1 | ⟨h2, h3, _⟩
    · exact h.slot_empty h1
    · exact ⟨h2, h3⟩
  wait_full := h.wait_full
  closed_empty hc hk := by
    obtain ⟨hwait, hempty⟩ := h.closed_empty hc hk
    refine ⟨hwait, ?_⟩
    by_contra hne
    rcases hslot hne with h1 | ⟨_, _, h3⟩
    · exact h1 hempty
    · rw [show s.closed = true from hc] at h3
      cases h3
  sends := h.sends
  recvs := hn
  origins_nodup := h.origins_nodup
  targets_nodup := h.targets_nodup
  origin_ok := h.origin_ok
  target_ok t ht := (knows_updRecv s j f t).2 (h.target_ok t ht)

variable {op : SendOp α} {i : Nat}

theorem beginSend (h : Inv cl none hr s) (hop : s.sends[i]? = some op)
    (hst : op.node.started = false) : Inv cl (some i) hr (s.updSend i Node.start) :=
  h.updSend i Node.start s.waitList (fun hw => .inl hw) (h.sends.begin_ (sendNodes_getElem? hop) hst)

theorem finishSend (h : Inv cl (some i) hr s) (r : SendResult) (hr' : SendAgrees s.accepted i (some r))
    (hR : ∀ n, s.sendNodes[i]? = some n → SendReason s.closed (n.owe r) r) : Inv cl none hr (s.oweSend i r) :=
  h.updSend i (Node.owe r) s.waitList (fun hw => .inl hw) (h.sends.finish r hr' hR)

theorem neutralSend (h : Inv cl hs hr s) (i : Nat) (f : Node SendResult → Node SendResult)
    (hf : ∀ n, (f n).started = n.started ∧ (f n).stage = n.stage ∧ (f n).outcome = n.outcome)
    (hR : ∀ n, (f n).attached = n.attached ∧ (f n).stage = n.stage ∧
      (n.stopRequested = true → (f n).stopRequested = true)) :
    Inv cl hs hr (s.updSend i f) :=
  h.updSend i f s.waitList (fun hw => .inl hw) (h.sends.neutral i f hf fun n _ hn => hn.mono (hR n))

variable {k : Stage}

theorem unlinkSend (h : Inv cl none hr s) (hi : i ∈ s.waitList) (hst : k ≠ .kQueued)
    (hg : k ≠ .kGone) : Inv cl (some i) hr (s.unlinkSend i k) ∧ SendAgrees s.accepted i none := by
  obtain ⟨hn, hP⟩ := h.sends.unlink hi hst hg
  exact ⟨h.updSend i (Node.leave k) (s.waitList.erase i)
    (fun _ => .inl fun hnil => by rw [hnil] at hi; cases hi) hn, hP⟩

theorem withdrawSend (h : Inv cl none hr s) (hi : i ∈ s.waitList) : Inv cl none hr (s.unlinkSend i .kGone) :=
  h.updSend i (Node.leave .kGone) (s.waitList.erase i) (fun _ => .inl fun hnil => by rw [hnil] at hi; cases hi)
    (h.sends.withdraw hi)

theorem parkSend (h : Inv cl (some i) hr s) (hi : i < s.sends.length) (hfull : s.capacity = some s.buffer.length)
    (hslot : s.recvSlot = none) (hclosed : s.closed = false) (hP : SendAgrees s.accepted i none) :
    Inv cl none hr { s.updSend i (Node.leave .kQueued) with waitList := s.waitList ++ [i] } :=
  h.updSend i (Node.leave .kQueued) _ (fun _ => .inr ⟨hfull, hslot, hclosed⟩)
    (h.sends.park (by simpa [State.sendNodes] using hi) hP)

variable {j : Nat}

theorem beginRecv (h : Inv cl hs none s) {op : Node (RecvResult α)} (hop : s.recvs[j]? = some op)
    (hst : op.started = false) : Inv cl hs (some j) (s.updRecv j Node.start) :=
  h.updRecv j Node.start s.recvSlot (fun hw => .inl hw) (h.recvs.begin_ hop hst)

theorem finishRecv (h : Inv cl hs (some j) s) (r : RecvResult α) (hr' : RecvAgrees s.delivered j (some r))
    (hR : ∀ n, s.recvs[j]? = some n → RecvReason s.closed s.buffer (n.owe r) r) : Inv cl hs none
    (s.oweRecv j r) :=
  h.updRecv j (Node.owe r) s.recvSlot (fun hw => .inl hw) (h.recvs.finish r hr' hR)

theorem neutralRecv (h : Inv cl hs hr s) (j : Nat) (f : Node (RecvResult α) → Node (RecvResult α))
    (hf : ∀ n, (f n).started = n.started ∧ (f n).stage = n.stage ∧ (f n).outcome = n.outcome)
    (hR : ∀ n, (f n).attached = n.attached ∧ (f n).stage = n.stage ∧
      (n.stopRequested = true → (f n).stopRequested = true)) :
    Inv cl hs hr (s.updRecv j f) :=
  h.updRecv j f s.recvSlot (fun hw => .inl hw) (h.recvs.neutral j f hf fun n _ hn => hn.mono (hR n))

theorem erase_slot (hj : s.recvSlot = some j) : s.recvSlot.toList.erase j = (none : Option Nat).toList := by
  simp [hj]

theorem clearSlot (h : Inv cl hs none s) (hj : s.recvSlot = some j) (hst : k ≠ .kQueued)
    (hg : k ≠ .kGone) : Inv cl hs (some j) (s.clearSlot j k) ∧ RecvAgrees s.delivered j none := by
  obtain ⟨hn, hP⟩ := h.recvs.unlink (i := j) (by simp [hj]) hst hg
  rw [erase_slot hj] at hn
  exact ⟨h.updRecv j (Node.leave k) none (fun hne => absurd rfl hne) hn, hP⟩

theorem withdrawRecv (h : Inv cl hs none s) (hj : s.recvSlot = some j) :
    Inv cl hs none (s.clearSlot j .kGone) := by
  have hn := h.recvs.withdraw (i := j) (by simp [hj])
  rw [erase_slot hj] at hn
  exact h.updRecv j (Node.leave .kGone) none (fun hne => absurd rfl hne) hn

theorem parkRecv (h : Inv cl hs (some j) s) (hj : j < s.recvs.length) (hbuf : s.buffer = [])
    (hwait : s.waitList = []) (hclosed : s.closed = false) (hslot : s.recvSlot = none)
    (hP : RecvAgrees s.delivered j none) :
    Inv cl hs none { s.updRecv j (Node.leave .kQueued) with recvSlot := some j } := by
  have hn := h.recvs.park hj hP
  rw [hslot] at hn
  exact h.updRecv j (Node.leave .kQueued) (some j) (fun _ => .inr ⟨hbuf, hwait, hclosed⟩) hn

/-! ## Moves of values -/

theorem content (h : Inv cl hs hr s) {p : List (Origin × α)} {q : List (Target × α)} {b : List α}
    (hfifo : s.buffer ++ p.map (·.2) = q.map (·.2) ++ b)
    (hcap : ∀ c, s.capacity = some c → b.length ≤ c)
    (hslot : s.recvSlot ≠ none → b = [])
    (hdrained : s.closed = true → s.buffer = [] → b = [])
    (hwait : s.waitList ≠ [] → b.length = s.buffer.length)
    (has : (p.map (·.1)).Nodup) (hds : (q.map (·.1)).Nodup)
    (hnew : ∀ o v, (o, v) ∈ p → s.valueOf o = some v ∧ o ∉ s.accepted.map (·.1) ∧ ∀ i, o = .send i → hs = some i)
    (hnew' : ∀ t v, (t, v) ∈ q → s.knows t ∧ t ∉ s.delivered.map (·.1) ∧ ∀ j, t = .recv j → hr = some j) :
    Inv cl hs hr { s with buffer := b, accepted := s.accepted ++ p, delivered := s.delivered ++ q } where
  fifo := by
    simp only [map_append]
    rw [h.fifo, append_assoc, hfifo, append_assoc]
  capacity := hcap
  slot_empty hne := ⟨hslot hne, (h.slot_empty hne).2⟩
  wait_full hne := by
    rw [hwait hne]
    exact h.wait_full hne
  closed_empty := h.closed_empty
  sends := by
    refine h.sends.agree (fun i hi _ r hP => ?_) fun n r hn => hn
    have hmem : .send i ∈ (s.accepted ++ p).map (·.1) ↔ .send i ∈ s.accepted.map (·.1) := by
      rw [map_append, mem_append]
      constructor
      · rintro (hm | hm)
        · exact hm
        · obtain ⟨⟨o, v⟩, hov, rfl⟩ := mem_map.1 hm
          exact absurd ((hnew _ v hov).2.2 i rfl) hi
      · exact .inl
    cases r with
    | none => exact fun hm => hP (hmem.1 hm)
    | some r => exact hmem.trans hP
  recvs := by
    refine h.recvs.agree (fun j hj _ r hP => ?_) fun n r hn => ?_
    on_goal 2 =>
      cases r with
      | value v => exact fun hv => (hn hv).imp_right fun ⟨hc, hb⟩ => ⟨hc, hdrained hc hb⟩
      | violation => trivial
      | stopped => exact hn
    have hmem : ∀ v, (.recv j, v) ∈ s.delivered ++ q ↔ (.recv j, v) ∈ s.delivered := by
      intro v
      rw [mem_append]
      constructor
      · rintro (hm | hm)
        · exact hm
        · exact absurd ((hnew' _ v hm).2.2 j rfl) hj
      · exact .inl
    cases r with
    | none => exact fun v hm => hP v ((hmem v).1 hm)
    | some r => exact fun v => (hmem v).trans (hP v)
  origins_nodup := by
    rw [map_append, nodup_append]
    refine ⟨h.origins_nodup, has, fun a ha b hb hab => ?_⟩
    obtain ⟨⟨o, v⟩, hov, rfl⟩ := mem_map.1 hb
    rw [hab] at ha
    exact (hnew o v hov).2.1 ha
  targets_nodup := by
    rw [map_append, nodup_append]
    refine ⟨h.targets_nodup, hds, fun a ha b hb hab => ?_⟩
    obtain ⟨⟨t, v⟩, htv, rfl⟩ := mem_map.1 hb
    rw [hab] at ha
    exact (hnew' t v htv).2.1 ha
  origin_ok o v hov := by
    rcases mem_append.1 hov with hov | hov
    · exact h.origin_ok o v hov
    · exact (hnew o v hov).1
  target_ok t ht := by
    rw [map_append, mem_append] at ht
    rcases ht with ht | ht
    · exact h.target_ok t ht
    · obtain ⟨⟨t, v⟩, htv, rfl⟩ := mem_map.1 ht
      exact (hnew' t v htv).1

/-- Accepting a value whose origin is a send in hand, or a call that has not been accepted before. -/
structure Fresh (hs : Option Nat) (s : State α) (o : Origin) (v : α) : Prop where
  value : s.valueOf o = some v
  new : o ∉ s.accepted.map (·.1)
  inHand : ∀ i, o = .send i → hs = some i

variable {v : α} {o : Origin}

theorem handOver (h : Inv cl hs none s) (hj : s.recvSlot = some j) (ho : Fresh hs s o v) :
    Inv cl hs none (s.handOver j o v) := by
  obtain ⟨hbuf, hwait⟩ := h.slot_empty (by rw [hj]; nofun)
  have hjlt : j < s.recvs.length := by
    obtain ⟨n, hn, _⟩ := (h.recvs.queued_iff j).1 (by simp [hj])
    exact (List.getElem?_eq_some_iff.1 hn).1
  obtain ⟨hclear, hP⟩ := h.clearSlot hj (k := .kClaimed) nofun nofun
  have hcontent := hclear.content (p := [(o, v)]) (q := [(.recv j, v)]) (b := (s.clearSlot j .kClaimed).buffer)
    (by show s.buffer ++ [v] = [v] ++ s.buffer; rw [hbuf]; rfl) h.capacity (fun hne => absurd rfl hne)
    (fun _ hb => hb) (fun _ => rfl) (nodup_singleton _) (nodup_singleton _)
    (fun o' v' hov => by
      cases mem_singleton.1 hov
      exact ⟨ho.value, ho.new, ho.inHand⟩)
    (fun t v' htv => by
      cases mem_singleton.1 htv
      refine ⟨(knows_updRecv s j (Node.leave .kClaimed) (.recv j)).2 hjlt, fun hm => ?_,
        fun k hk => by cases hk; rfl⟩
      obtain ⟨⟨t, w⟩, htw, rfl⟩ := mem_map.1 hm
      exact hP w htw)
  refine hcontent.finishRecv (.value (some v)) (fun w => ?_) fun _ _ hnone => by cases hnone
  have hno : (.recv j, w) ∉ s.delivered := hP w
  show (.recv j, w) ∈ s.delivered ++ [(Target.recv j, v)] ↔ _
  simp [hno, eq_comm]

theorem push (h : Inv cl hs hr s) (hroom : s.hasRoom = true) (hslot : s.recvSlot = none)
    (hclosed : s.closed = false)
    (ho : Fresh hs s o v) : Inv cl hs hr (s.push o v) := by
  have hlt : ∀ c, s.capacity = some c → s.buffer.length < c := by
    intro c hc
    simpa [State.hasRoom, hc] using hroom
  have hcontent := h.content (p := [(o, v)]) (q := []) (b := s.buffer ++ [v]) rfl
    (fun c hc => by rw [length_append]; exact hlt c hc) (fun hne => absurd hslot hne)
    (fun hc => by rw [hclosed] at hc; cases hc) (fun hne => absurd (hlt _ (h.wait_full hne)) (Nat.lt_irrefl _))
    (nodup_singleton _) nodup_nil
    (fun o' v' hov => by
      cases mem_singleton.1 hov
      exact ⟨ho.value, ho.new, ho.inHand⟩)
    (fun t v' htv => by cases htv)
  rw [append_nil] at hcontent
  exact hcontent

theorem waitHead_eq (h : Inv cl hs hr s) : s.waitHead = s.waitList.head? := by
  unfold State.waitHead
  split
  · rfl
  · rename_i hcap
    by_cases hw : s.waitList = []
    · rw [hw]
      rfl
    · rw [h.wait_full hw] at hcap
      exact absurd rfl hcap

theorem takeFront (h : Inv cl none hr s) {t : Target} (hk : s.knows t) (hnew : t ∉ s.delivered.map (·.1))
    (hhand : ∀ j, t = .recv j → hr = some j) :
    (∃ v, (s.takeFront t).1 = some v ∧ Inv cl none hr (s.takeFront t).2 ∧
      (s.takeFront t).2.delivered = s.delivered ++ [(t, v)]) ∨
    (s.takeFront t = (none, s) ∧ s.buffer = [] ∧ s.waitList = []) := by
  have htarget : ∀ (x : α) (t' : Target) (v' : α), (t', v') ∈ [(t, x)] →
      s.knows t' ∧ t' ∉ s.delivered.map (·.1) ∧ ∀ j, t' = .recv j → hr = some j := by
    intro x t' v' htv
    cases mem_singleton.1 htv
    exact ⟨hk, hnew, hhand⟩
  -- a parked send: its node, its value, and the state with it in hand
  have hparked : ∀ i w, s.waitList = i :: w → ∃ op, s.sends[i]? = some op ∧
      Inv cl (some i) hr (s.unlinkSend i .kClaimed) ∧ SendAgrees s.accepted i none := by
    intro i w hw
    have hi : i ∈ s.waitList := by rw [hw]; exact mem_cons_self
    obtain ⟨n, hn, _⟩ := (h.sends.queued_iff i).1 hi
    obtain ⟨op, hop, _⟩ := Option.map_eq_some_iff.1 ((getElem?_map ..).symm.trans hn)
    exact ⟨op, hop, h.unlinkSend hi nofun nofun⟩
  unfold State.takeFront
  rw [h.waitHead_eq]
  cases hbuf : s.buffer with
  | nil =>
    cases hw : s.waitList.head? with
    | none => exact .inr ⟨rfl, rfl, head?_eq_none_iff.1 hw⟩
    | some i =>
      obtain ⟨w, hw⟩ := head?_eq_some_iff.1 hw
      obtain ⟨op, hop, hunlink, hP⟩ := hparked i w hw
      refine .inl ⟨op.value, ?_⟩
      dsimp only
      rw [hop]
      have hcontent := hunlink.content (p := [(.send i, op.value)]) (q := [(t, op.value)])
        (b := (s.unlinkSend i .kClaimed).buffer)
        (by show s.buffer ++ [op.value] = [op.value] ++ s.buffer; rw [hbuf]; rfl) h.capacity
        (fun hne => hbuf) (fun _ hb => hb) (fun _ => rfl) (nodup_singleton _) (nodup_singleton _)
        (fun o' v' hov => by
          cases mem_singleton.1 hov
          refine ⟨?_, hP, fun k hk => by cases hk; rfl⟩
          rw [valueOf_unlinkSend]
          simp [State.valueOf, hop])
        (htarget op.value)
      refine ⟨rfl, hcontent.finishSend (.value true) ?_ nofun, rfl⟩
      show .send i ∈ (s.accepted ++ [(Origin.send i, op.value)]).map (·.1) ↔ _
      simp
  | cons x rest =>
    have hslot : s.recvSlot = none := by
      by_contra hne
      rw [(h.slot_empty hne).1] at hbuf
      cases hbuf
    cases hw : s.waitList.head? with
    | none =>
      rw [head?_eq_none_iff] at hw
      refine .inl ⟨x, rfl, ?_, rfl⟩
      have hcontent := h.content (p := []) (q := [(t, x)]) (b := rest)
        (by rw [hbuf]; simp) (fun c hc => by have := h.capacity c hc; rw [hbuf, length_cons] at this; omega)
        (fun hne => absurd hslot hne) (fun _ hb => by rw [hbuf] at hb; cases hb)
        (fun hne => absurd hw hne) nodup_nil (nodup_singleton _)
        (fun o' v' hov => by cases hov) (htarget x)
      rw [append_nil] at hcontent
      exact hcontent
    | some i =>
      obtain ⟨w, hw⟩ := head?_eq_some_iff.1 hw
      obtain ⟨op, hop, hunlink, hP⟩ := hparked i w hw
      refine .inl ⟨x, ?_⟩
      dsimp only
      rw [hop]
      have hcontent := hunlink.content (p := [(.send i, op.value)]) (q := [(t, x)]) (b := rest ++ [op.value])
        (by show s.buffer ++ [op.value] = [x] ++ (rest ++ [op.value]); rw [hbuf]; rfl)
        (fun c hc => by
          have := h.capacity c hc
          rw [hbuf, length_cons] at this
          rw [length_append]
          exact this)
        (fun hne => absurd hslot hne) (fun _ hb => by rw [show s.buffer = [] from hb] at hbuf; cases hbuf)
        (fun _ => by show (rest ++ [op.value]).length = s.buffer.length; rw [hbuf]; simp)
        (nodup_singleton _) (nodup_singleton _)
        (fun o' v' hov => by
          cases mem_singleton.1 hov
          refine ⟨?_, hP, fun k hk => by cases hk; rfl⟩
          rw [valueOf_unlinkSend]
          simp [State.valueOf, hop])
        (htarget x)
      refine ⟨rfl, hcontent.finishSend (.value true) ?_ nofun, rfl⟩
      show .send i ∈ (s.accepted ++ [(Origin.send i, op.value)]).map (·.1) ↔ _
      simp

theorem stage_unlinkSend {n : Node SendResult} (h : (s.unlinkSend i k).sendNodes[i]? = some n) :
    n.stage = k := by
  rw [show (s.unlinkSend i k).sendNodes = _ from sendNodes_updSend s i (Node.leave k), getElem?_modify_eq] at h
  obtain ⟨n', -, rfl⟩ := Option.map_eq_some_iff.1 h
  rfl

theorem stage_clearSlot {n : Node (RecvResult α)} (h : (s.clearSlot j k).recvs[j]? = some n) :
    n.stage = k := by
  rw [show (s.clearSlot j k).recvs = s.recvs.modify j (Node.leave k) from rfl, getElem?_modify_eq] at h
  obtain ⟨n', -, rfl⟩ := Option.map_eq_some_iff.1 h
  rfl

theorem closeSends : ∀ (w : List Nat) {s : State α}, Inv cl none none s → s.waitList = w → s.closed = true →
    Inv cl none none (w.foldl State.closeSend s) ∧ (w.foldl State.closeSend s).waitList = [] ∧
      (w.foldl State.closeSend s).recvSlot = s.recvSlot ∧ (w.foldl State.closeSend s).closed = true
  | [], s, h, hw, hc => ⟨h, hw, rfl, hc⟩
  | i :: w, s, h, hw, hc => by
    obtain ⟨hunlink, hP⟩ := h.unlinkSend (i := i) (k := .kClosed) (by rw [hw]; exact mem_cons_self) nofun nofun
    have hclose : Inv cl none none (s.closeSend i) := hunlink.finishSend (.value false)
      ⟨fun hm => absurd hm hP, fun hr => by cases hr⟩ fun _ _ _ => .inr hc
    refine closeSends w hclose ?_ hc
    show s.waitList.erase i = w
    rw [hw, erase_cons_head]

theorem closeRecv (h : Inv cl none none s) (hc : s.closed = true) :
    Inv cl none none s.closeRecv ∧ s.closeRecv.recvSlot = none ∧ s.closeRecv.closed = true := by
  unfold State.closeRecv
  split
  · rename_i j hj
    have hbuf := (h.slot_empty (by rw [hj]; nofun)).1
    obtain ⟨hclear, hP⟩ := h.clearSlot hj (k := .kClosed) nofun nofun
    refine ⟨hclear.finishRecv (.value none) (fun v => ?_) fun _ _ _ => .inr ⟨hc, hbuf⟩, rfl, hc⟩
    exact ⟨fun hm => absurd hm (hP v), fun hr => by cases hr⟩
  · rename_i hnone
    exact ⟨h, hnone, hc⟩

theorem close (h : Inv false none none s) : Inv false none none s.close ∧ s.close.closed = true := by
  unfold State.close
  by_cases hc : s.closed = true
  · rw [if_pos hc]
    exact ⟨h, hc⟩
  · rw [if_neg hc]
    -- what was refused or ended before the close had a reason of its own
    have hclosed : Inv true none none { s with closed := true } := { h with
      closed_empty := fun _ hk => by cases hk
      sends := h.sends.agree (fun _ _ _ _ hP => hP) fun n r hn => by
        cases r with
        | value accepted => exact fun _ => .inr rfl
        | stopped => exact hn
      recvs := h.recvs.agree (fun _ _ _ _ hP => hP) fun n r hn => by
        cases r with
        | value v => exact fun hv => (hn hv).imp_right fun hend => absurd hend.1 hc
        | violation => trivial
        | stopped => exact hn }
    obtain ⟨hrecv, hnone, hrc⟩ := hclosed.closeRecv rfl
    obtain ⟨hall, hwait, hkeep, hac⟩ := closeSends _ hrecv rfl hrc
    exact ⟨{ hall with closed_empty := fun _ _ => ⟨hwait, hkeep.trans hnone⟩ }, hac⟩

theorem full (h : Inv cl hs hr s) (hroom : ¬ s.hasRoom = true) : s.capacity = some s.buffer.length := by
  cases hcap : s.capacity with
  | none => simp [State.hasRoom, hcap] at hroom
  | some c =>
    have hle := h.capacity c hcap
    simp only [State.hasRoom, hcap, decide_eq_true_eq, Nat.not_lt] at hroom
    rw [Nat.le_antisymm hle hroom]

theorem trySend (h : Inv cl none none s) (v : α) :
    Inv cl none none (s.trySend v).2 ∧ TrySends s v (s.trySend v) := by
  have hmore : Inv cl none none { s with trySent := s.trySent ++ [v] } := by
    refine { h with origin_ok := fun o w how => ?_ }
    have hval := h.origin_ok o w how
    cases o with
    | send i => exact hval
    | trySend n =>
      show (s.trySent ++ [v])[n]? = some w
      rw [getElem?_append_left (List.getElem?_eq_some_iff.1 hval).1]
      exact hval
  have hfresh : Fresh none { s with trySent := s.trySent ++ [v] } (.trySend s.trySent.length) v := by
    refine ⟨by simp [State.valueOf], fun hm => ?_, fun i hi => by cases hi⟩
    obtain ⟨⟨o, w⟩, how, ho⟩ := mem_map.1 hm
    have hval := h.origin_ok o w how
    rw [show o = _ from ho] at hval
    simp [State.valueOf] at hval
  unfold State.trySend
  dsimp only
  split
  · rename_i hclosed
    exact ⟨hmore, (append_nil _).symm, fun _ => .inl hclosed⟩
  · rename_i hclosed
    split
    · rename_i j hj
      exact ⟨hmore.handOver hj hfresh, rfl, nofun⟩
    · rename_i hnone
      split
      · rename_i hroom
        exact ⟨hmore.push hroom hnone (eq_false_of_ne_true hclosed) hfresh, rfl, nofun⟩
      · rename_i hroom
        exact ⟨hmore, (append_nil _).symm, fun _ => .inr ⟨hnone, h.full hroom⟩⟩

theorem tryRecv (h : Inv cl none none s) : Inv cl none none s.tryRecv.2 ∧ TryReceives s s.tryRecv := by
  have hmore : Inv cl none none { s with tryReceived := s.tryReceived + 1 } := by
    refine { h with target_ok := fun t ht => ?_ }
    have hk := h.target_ok t ht
    cases t with
    | recv j => exact hk
    | tryRecv n => exact Nat.lt_succ_of_lt hk
  have hnew : .tryRecv s.tryReceived ∉ s.delivered.map (·.1) := fun hm => Nat.lt_irrefl _ (h.target_ok _ hm)
  unfold State.tryRecv
  rcases hmore.takeFront (t := .tryRecv s.tryReceived) (Nat.lt_succ_self _) hnew (fun j hj => by cases hj) with
    ⟨v, hv, hinv, hdel⟩ | ⟨heq, hempty⟩
  · exact ⟨hinv, by rw [hdel, hv]; rfl, fun hnone => by rw [hv] at hnone; cases hnone⟩
  · rw [heq]
    exact ⟨hmore, (append_nil _).symm, fun _ => hempty⟩

theorem runSend (h : Inv cl (some i) none s) (hop : (s.sends[i]?).map (·.value) = some op.value)
    (hnode : s.sendNodes[i]? = some op.node.start) (hP : SendAgrees s.accepted i none) :
    Inv cl none none (s.runSend i op) := by
  have hreject : ∀ r, r ≠ .value true → SendReason s.closed op.node r → Inv cl none none (s.oweSend i r) :=
    fun r hr hR =>
    h.finishSend r ⟨fun hm => absurd hm hP, fun he => absurd he hr⟩ fun n hn => by
      obtain rfl := Option.some.inj (hnode.symm.trans hn)
      exact hR.mono ⟨rfl, rfl, id⟩
  have hfresh : Fresh (some i) s (.send i) op.value := ⟨hop, hP, fun k hk => by cases hk; rfl⟩
  have hlt : i < s.sends.length := by
    obtain ⟨op', hop', _⟩ := Option.map_eq_some_iff.1 hop
    exact (List.getElem?_eq_some_iff.1 hop').1
  unfold State.runSend
  split
  · rename_i hdetached
    exact hreject _ nofun fun _ => .inl (by simpa using hdetached)
  · split
    · rename_i hstop
      exact hreject _ nofun (.inl hstop)
    · split
      · rename_i hclosed
        exact hreject _ nofun fun _ => .inr hclosed
      · rename_i hclosed
        split
        · rename_i j hj
          refine (h.handOver hj hfresh).finishSend (.value true) ?_ nofun
          show .send i ∈ (s.accepted ++ [(Origin.send i, op.value)]).map (·.1) ↔ _
          simp
        · rename_i hnone
          split
          · rename_i hroom
            refine (h.push hroom hnone (eq_false_of_ne_true hclosed) hfresh).finishSend (.value true) ?_ nofun
            show .send i ∈ (s.accepted ++ [(Origin.send i, op.value)]).map (·.1) ↔ _
            simp
          · rename_i hroom
            exact h.parkSend hlt (h.full hroom) hnone (eq_false_of_ne_true hclosed) hP

theorem startSend (h : Inv cl none none s) (i : Nat) : Inv cl none none (s.startSend i) := by
  unfold State.startSend
  cases hop : s.sends[i]? with
  | none => exact h
  | some op =>
    dsimp only
    split
    · exact h
    · rename_i hst
      have hstart : op.node.started = false := by
        cases hs : op.node.started with
        | false => rfl
        | true => simp [hs] at hst
      refine (h.beginSend hop hstart).runSend ?_ ?_ (h.sends.of_fresh (sendNodes_getElem? hop) hstart).2.2
      · have := valueOf_updSend s i Node.start (.send i)
        simpa [State.valueOf, hop] using this
      · rw [sendNodes_updSend, getElem?_modify_eq, sendNodes_getElem? hop]
        rfl

theorem runRecv (h : Inv cl none (some j) s) (op : Node (RecvResult α)) (hnode : s.recvs[j]? = some op.start)
    (hP : RecvAgrees s.delivered j none) : Inv cl none none (s.runRecv j op) := by
  have hj := (List.getElem?_eq_some_iff.1 hnode).1
  have hreject : ∀ r : RecvResult α, (∀ v, r ≠ .value (some v)) → RecvReason s.closed s.buffer op r →
      Inv cl none none (s.oweRecv j r) := fun r hr hR =>
    h.finishRecv r (fun v => ⟨fun hm => absurd hm (hP v), fun he => absurd he (hr v)⟩) fun n hn => by
      obtain rfl := Option.some.inj (hnode.symm.trans hn)
      exact hR.mono ⟨rfl, rfl, id⟩
  have hnew : .recv j ∉ s.delivered.map (·.1) := by
    intro hm
    obtain ⟨⟨t, v⟩, htv, rfl⟩ := mem_map.1 hm
    exact hP v htv
  unfold State.runRecv
  split
  · rename_i hdetached
    exact hreject _ nofun fun _ => .inl (by simpa using hdetached)
  · split
    · rename_i hstop
      exact hreject _ nofun (.inl hstop)
    · dsimp only
      rcases h.takeFront (t := .recv j) hj hnew (fun k hk => by cases hk; rfl) with
        ⟨v, hv, hinv, hdel⟩ | ⟨heq, hbuf, hwait⟩
      · rw [hv]
        refine hinv.finishRecv (.value (some v)) (fun w => ?_) fun _ _ hnone => by cases hnone
        have hno : (.recv j, w) ∉ s.delivered := hP w
        rw [hdel]
        simp [hno, eq_comm]
      · rw [heq]
        dsimp only
        split
        · rename_i hclosed
          exact hreject _ nofun fun _ => .inr ⟨hclosed, hbuf⟩
        · rename_i hclosed
          split
          · exact hreject _ nofun trivial
          · rename_i hslot
            exact h.parkRecv hj hbuf hwait (eq_false_of_ne_true hclosed) hslot hP

theorem startRecv (h : Inv cl none none s) (j : Nat) : Inv cl none none (s.startRecv j) := by
  unfold State.startRecv
  cases hop : s.recvs[j]? with
  | none => exact h
  | some op =>
    dsimp only
    split
    · exact h
    · rename_i hst
      have hstart : op.started = false := by
        cases hs : op.started with
        | false => rfl
        | true => simp [hs] at hst
      refine (h.beginRecv hop hstart).runRecv op ?_ (h.recvs.of_fresh hop hstart).2.2
      rw [State.updRecv, getElem?_modify_eq, hop]
      rfl

theorem stopSend (h : Inv cl none none s) (i : Nat) : Inv cl none none (s.stopSend i) := by
  unfold State.stopSend
  cases hop : s.sends[i]? with
  | none => exact h
  | some op =>
    dsimp only
    split
    · rename_i hq
      obtain ⟨hunlink, hP⟩ := h.unlinkSend (i := i) (k := .kStopped)
        ((h.sends.queued_iff i).2 ⟨op.node, sendNodes_getElem? hop, hq⟩) nofun nofun
      exact hunlink.finishSend .stopped ⟨fun hm => absurd hm hP, fun hr => by cases hr⟩ fun n hn =>
        .inr (show n.stage = .kStopped from stage_unlinkSend hn)
    · exact h.neutralSend i Node.requestStop (fun n => ⟨rfl, rfl, rfl⟩) fun n => ⟨rfl, rfl, fun _ => rfl⟩
    · exact h

theorem slot_of_queued (h : Inv cl hs hr s) {op : Node (RecvResult α)} (hop : s.recvs[j]? = some op)
    (hq : op.stage = .kQueued) : s.recvSlot = some j := by
  have := (h.recvs.queued_iff j).2 ⟨op, hop, hq⟩
  simpa [eq_comm] using this

theorem stopRecv (h : Inv cl none none s) (j : Nat) : Inv cl none none (s.stopRecv j) := by
  unfold State.stopRecv
  cases hop : s.recvs[j]? with
  | none => exact h
  | some op =>
    dsimp only
    split
    · rename_i hq
      obtain ⟨hclear, hP⟩ := h.clearSlot (h.slot_of_queued hop hq) (k := .kStopped) nofun nofun
      exact hclear.finishRecv .stopped (fun v => ⟨fun hm => absurd hm (hP v), fun hr => by cases hr⟩) fun n hn =>
        .inr (show n.stage = .kStopped from stage_clearSlot hn)
    · exact h.neutralRecv j Node.requestStop (fun n => ⟨rfl, rfl, rfl⟩) fun n => ⟨rfl, rfl, fun _ => rfl⟩
    · exact h

theorem stopped_send (h : Inv cl none none s) (hi : i ∈ s.waitList) :
    ∃ op, (s.stopSend i).sends[i]? = some op ∧ op.node.outcome = [.stopped] := by
  obtain ⟨n, hn, hq⟩ := (h.sends.queued_iff i).1 hi
  obtain ⟨op, hop, rfl⟩ := Option.map_eq_some_iff.1 ((getElem?_map ..).symm.trans hn)
  have hout : op.node.completions = [] := (append_eq_nil_iff.1 (h.sends.of_parked hn hq).2.1).1
  refine ⟨{ op with node := (op.node.leave .kStopped).owe .stopped }, ?_, ?_⟩
  · simp only [State.stopSend, hop, hq]
    simp [State.oweSend, State.unlinkSend, State.updSend, hop]
  · simp [Node.outcome, Node.owe, Node.leave, hout]

theorem stopped_first (h : Inv cl none none s) (hop : s.sends[i]? = some op)
    (hstart : op.node.started = false) (hstop : op.node.stopRequested = true) :
    .send i ∉ (s.startSend i).accepted.map (·.1) := by
  have hP : .send i ∉ s.accepted.map (·.1) := (h.sends.of_fresh (sendNodes_getElem? hop) hstart).2.2
  unfold State.startSend State.runSend
  rw [hop]
  dsimp only
  split
  · exact hP
  · split
    · exact hP
    · exact hP

theorem stopped_recv (h : Inv cl none none s) (hj : s.recvSlot = some j) :
    ∃ n, (s.stopRecv j).recvs[j]? = some n ∧ n.outcome = [.stopped] := by
  obtain ⟨n, hn, hq⟩ := (h.recvs.queued_iff j).1 (by simp [hj])
  have hout : n.completions = [] := (append_eq_nil_iff.1 (h.recvs.of_parked hn hq).2.1).1
  refine ⟨(n.leave .kStopped).owe .stopped, ?_, ?_⟩
  · simp only [State.stopRecv, hn, hq]
    simp [State.oweRecv, State.clearSlot, State.updRecv, hn]
  · simp [Node.outcome, Node.owe, Node.leave, hout]

theorem recvs_takeFront (s : State α) (t : Target) : (s.takeFront t).2.recvs = s.recvs := by
  unfold State.takeFront
  split
  · rfl
  · split <;> rfl
  · rfl
  · split <;> rfl

theorem violation (h : Inv cl none none s) (hslot : s.recvSlot = none) (j : Nat) (n : Node (RecvResult α))
    (hn : (s.startRecv j).recvs[j]? = some n) (hviolation : .violation ∈ n.outcome) : s.startRecv j = s := by
  unfold State.startRecv at hn ⊢
  cases hop : s.recvs[j]? with
  | none => rfl
  | some op =>
    rw [hop] at hn
    dsimp only at hn ⊢
    split
    · rfl
    · rename_i hst
      rw [if_neg hst] at hn
      obtain ⟨hout, howed⟩ : op.completions = [] ∧ op.owed.toList = [] :=
        append_eq_nil_iff.1 (h.recvs.of_fresh hop (by cases hs : op.started <;> simp_all)).2.1
      -- whatever else the start of a receive comes to, its outcome is that one thing
      have howe : ∀ (s' : State α) (r : RecvResult α), s'.recvs = s.recvs.modify j Node.start →
          (s'.oweRecv j r).recvs[j]? = some n → r = .violation := by
        intro s' r hs' hn'
        rw [State.oweRecv, State.updRecv, hs', getElem?_modify_eq, getElem?_modify_eq, hop] at hn'
        obtain rfl := Option.some.inj hn'
        simpa [Node.outcome, Node.owe, Node.start, hout, eq_comm] using hviolation
      exfalso
      unfold State.runRecv at hn
      split at hn
      · cases howe _ _ rfl hn
      · split at hn
        · cases howe _ _ rfl hn
        · dsimp only at hn
          split at hn
          · cases howe _ _ (recvs_takeFront ..) hn
          · split at hn
            · cases howe _ _ rfl hn
            · rw [show (s.updRecv j Node.start).recvSlot = none from hslot] at hn
              dsimp only at hn
              rw [State.updRecv, State.updRecv, getElem?_modify_eq, getElem?_modify_eq, hop] at hn
              obtain rfl := Option.some.inj hn
              simp [Node.outcome, Node.leave, Node.start, hout, howed] at hviolation

theorem destroySend (h : Inv cl none none s) (i : Nat) : Inv cl none none (s.destroySend i) := by
  unfold State.destroySend
  cases hop : s.sends[i]? with
  | none => exact h
  | some op =>
    dsimp only
    split
    · exact h
    · split
      · rename_i hq
        have hi := (h.sends.queued_iff i).2 ⟨op.node, sendNodes_getElem? hop, hq⟩
        exact (h.withdrawSend hi).neutralSend i Node.destroy (fun n => ⟨rfl, rfl, rfl⟩) fun n => ⟨rfl, rfl, id⟩
      · exact h.neutralSend i Node.destroy (fun n => ⟨rfl, rfl, rfl⟩) fun n => ⟨rfl, rfl, id⟩

theorem destroyRecv (h : Inv cl none none s) (j : Nat) : Inv cl none none (s.destroyRecv j) := by
  unfold State.destroyRecv
  cases hop : s.recvs[j]? with
  | none => exact h
  | some op =>
    dsimp only
    split
    · exact h
    · split
      · rename_i hq
        exact (h.withdrawRecv (h.slot_of_queued hop hq)).neutralRecv j Node.destroy
          (fun n => ⟨rfl, rfl, rfl⟩) fun n => ⟨rfl, rfl, id⟩
      · exact h.neutralRecv j Node.destroy (fun n => ⟨rfl, rfl, rfl⟩) fun n => ⟨rfl, rfl, id⟩

theorem newSend (h : Inv cl none none s) (v : α) (attached : Bool) :
    Inv cl none none { s with sends := s.sends ++ [⟨{ attached }, v⟩] } := by
  have hold : ∀ (o : Origin) (w : α), s.valueOf o = some w →
      State.valueOf { s with sends := s.sends ++ [⟨{ attached }, v⟩] } o = some w := by
    intro o w how
    cases o with
    | trySend n => exact how
    | send i =>
      obtain ⟨op, hop, hv⟩ := Option.map_eq_some_iff.1 how
      show ((s.sends ++ [⟨{ attached }, v⟩])[i]?).map (·.value) = some w
      rw [getElem?_append_left (List.getElem?_eq_some_iff.1 hop).1, hop]
      exact congrArg some hv
  refine { h with sends := ?_, origin_ok := fun o w how => hold o w (h.origin_ok o w how) }
  have hnodes : State.sendNodes { s with sends := s.sends ++ [⟨{ attached }, v⟩] } = s.sendNodes ++
    [({ attached := attached } : Node SendResult)] := by
    simp [State.sendNodes]
  rw [hnodes]
  refine h.sends.add _ rfl rfl rfl (fun hm => ?_) nofun
  obtain ⟨⟨o, w⟩, how, ho⟩ := mem_map.1 hm
  have hval := h.origin_ok o w how
  rw [show o = _ from ho] at hval
  simp [State.valueOf, State.sendNodes] at hval

theorem newRecv (h : Inv cl none none s) (attached : Bool) :
    Inv cl none none { s with recvs := s.recvs ++ [{ attached }] } := by
  refine { h with recvs := ?_, target_ok := fun t ht => ?_ }
  · refine h.recvs.add _ rfl rfl rfl (fun v hm => ?_) nofun
    exact Nat.lt_irrefl _ (h.target_ok _ (mem_map.2 ⟨_, hm, rfl⟩))
  · have hk := h.target_ok t ht
    cases t with
    | tryRecv n => exact hk
    | recv j =>
      show j < (s.recvs ++ [_]).length
      rw [length_append]
      exact Nat.lt_of_lt_of_le hk (Nat.le_add_right _ _)

theorem handles_irrelevant (h : Inv cl hs hr s) (senders closesOwed : Nat) :
    Inv cl hs hr { s with senders := senders, closesOwed := closesOwed } :=
  { h with }

end Inv

theorem step_inv (s : State α) (e : Event α) (h : Inv false none none s) : Inv false none none (step s e) := by
  cases e with
  | trySend v => exact (h.trySend v).1
  | tryRecv => exact h.tryRecv.1
  | newSend v attached => exact h.newSend v attached
  | startSend i => exact h.startSend i
  | stopSend i => exact h.stopSend i
  | destroySend i => exact h.destroySend i
  | completeSend i => exact h.neutralSend i Node.complete (fun n => ⟨rfl, rfl, n.outcome_complete⟩) fun n =>
    ⟨rfl, rfl, id⟩
  | newRecv attached => exact h.newRecv attached
  | startRecv j => exact h.startRecv j
  | stopRecv j => exact h.stopRecv j
  | destroyRecv j => exact h.destroyRecv j
  | completeRecv j => exact h.neutralRecv j Node.complete (fun n => ⟨rfl, rfl, n.outcome_complete⟩) fun n =>
    ⟨rfl, rfl, id⟩
  | copySender =>
    simp only [step]
    split
    · exact h
    · exact h.handles_irrelevant _ s.closesOwed
  | dropSender =>
    simp only [step]
    split
    · exact h
    · exact h.handles_irrelevant _ _
  | closeOwed =>
    simp only [step]
    split
    · exact h
    · exact h.close.1.handles_irrelevant s.close.senders _
  | close => exact h.close.1

/-! ## The contract -/

/-- **An operation completes once**: its one completion has been decided when it has been started, unless
it is parked or was destroyed while it was. -/
def CompletesOnce {ρ : Type} (n : Node ρ) : Prop :=
  n.outcome.length = if n.started = true ∧ n.stage ≠ .kQueued ∧ n.stage ≠ .kGone then 1 else 0

theorem completesOnce_of_ok {ρ : Type} {P : Option ρ → Prop} {R : Node ρ → ρ → Prop} {n : Node ρ} {hand : Prop}
    (hh : ¬ hand) (h : NodeOk hand P R n) : CompletesOnce n := by
  unfold CompletesOnce
  cases h with
  | fresh h1 h2 h3 h4 h5 => simp [h1, h3]
  | parked h1 h2 h3 h4 h5 => simp [h2, h3]
  | withdrawn h1 h2 h3 h4 h5 => simp [h2, h3]
  | inHand h1 h2 h3 h4 h5 => exact absurd h5 hh
  | done h1 h2 h3 r h4 h5 h6 => simp [h1, h2, h3, h4]

structure Contract (s : State α) : Prop where
  /-- what was delivered is what was accepted, in order, but for what is still buffered -/
  fifo : s.accepted.map (·.2) = s.delivered.map (·.2) ++ s.buffer
  /-- no send is accepted twice, no receive is given two values -/
  accepted_once : (s.accepted.map (·.1)).Nodup
  delivered_once : (s.delivered.map (·.1)).Nodup
  accepted_value : ∀ o v, (o, v) ∈ s.accepted → s.valueOf o = some v
  capacity : ∀ c, s.capacity = some c → s.buffer.length ≤ c
  parked_receiver : s.recvSlot ≠ none → s.buffer = [] ∧ s.waitList = []
  wait_list : s.waitList ≠ [] → s.capacity = some s.buffer.length
  closed : s.closed = true → s.waitList = [] ∧ s.recvSlot = none
  sends : ∀ (i : Nat) (op : SendOp α), s.sends[i]? = some op → CompletesOnce op.node
  recvs : ∀ (j : Nat) (n : Node (RecvResult α)), s.recvs[j]? = some n → CompletesOnce n
  /-- an operation that waits is where the channel finds it -/
  send_waits : ∀ (i : Nat) (op : SendOp α), s.sends[i]? = some op → (op.node.stage = .kQueued ↔ i ∈ s.waitList)
  recv_waits : ∀ (j : Nat) (n : Node (RecvResult α)), s.recvs[j]? = some n →
    (n.stage = .kQueued ↔ s.recvSlot = some j)
  /-- a send was accepted exactly when it completes with true; it completes with false only if it is not
  attached or the channel is closed, and is stopped only on request -/
  send_accepted : ∀ (i : Nat) (op : SendOp α), s.sends[i]? = some op →
    (.send i ∈ s.accepted.map (·.1) ↔ .value true ∈ op.node.outcome)
  send_reason : ∀ (i : Nat) (op : SendOp α), s.sends[i]? = some op →
    ∀ r ∈ op.node.outcome, SendReason s.closed op.node r
  /-- the value of a stopped send, or of one that was destroyed while parked, was never accepted -/
  send_stopped : ∀ (i : Nat) (op : SendOp α), s.sends[i]? = some op →
    .stopped ∈ op.node.outcome ∨ op.node.stage = .kGone → .send i ∉ s.accepted.map (·.1)
  /-- a receive completes with the value that was delivered to it; it ends without one only if it is not
  attached or the channel is closed and drained, and is stopped only on request -/
  recv_delivered : ∀ (j : Nat) (n : Node (RecvResult α)) (v : α), s.recvs[j]? = some n →
    ((.recv j, v) ∈ s.delivered ↔ .value (some v) ∈ n.outcome)
  recv_reason : ∀ (j : Nat) (n : Node (RecvResult α)), s.recvs[j]? = some n →
    ∀ r ∈ n.outcome, RecvReason s.closed s.buffer n r
  /-- a receive is a violation only when another one is parked -/
  violation : s.recvSlot = none → ∀ (j : Nat) (n : Node (RecvResult α)), (s.startRecv j).recvs[j]? = some n →
    .violation ∈ n.outcome → s.startRecv j = s
  /-- a parked operation that is asked to stop is stopped, and a send that was asked before it starts is
  not accepted -/
  stop_send : ∀ i ∈ s.waitList, ∃ op, (s.stopSend i).sends[i]? = some op ∧ op.node.outcome = [.stopped]
  stop_first : ∀ (i : Nat) (op : SendOp α), s.sends[i]? = some op → op.node.started = false →
    op.node.stopRequested = true → .send i ∉ (s.startSend i).accepted.map (·.1)
  stop_recv : ∀ j, s.recvSlot = some j → ∃ n, (s.stopRecv j).recvs[j]? = some n ∧ n.outcome = [.stopped]
  try_send : ∀ v, TrySends s v (s.trySend v)
  try_recv : TryReceives s s.tryRecv
  close : s.close.closed = true

theorem contract_of_inv (h : Inv false none none s) : Contract s where
  fifo := h.fifo
  accepted_once := h.origins_nodup
  delivered_once := h.targets_nodup
  accepted_value := h.origin_ok
  capacity := h.capacity
  parked_receiver := h.slot_empty
  wait_list := h.wait_full
  closed hc := h.closed_empty hc rfl
  sends i op hop := completesOnce_of_ok nofun (h.sends.ok i op.node (sendNodes_getElem? hop))
  recvs j n hn := completesOnce_of_ok nofun (h.recvs.ok j n hn)
  send_waits i op hop := by
    rw [h.sends.queued_iff]
    exact ⟨fun hq => ⟨_, sendNodes_getElem? hop, hq⟩, fun ⟨n, hn, hq⟩ => by
      obtain rfl := Option.some.inj ((sendNodes_getElem? hop).symm.trans hn)
      exact hq⟩
  recv_waits j n hn :=
    ⟨fun hq => h.slot_of_queued hn hq, fun hslot => by
      obtain ⟨n', hn', hq⟩ := (h.recvs.queued_iff j).1 (by simp [hslot])
      obtain rfl := Option.some.inj (hn.symm.trans hn')
      exact hq⟩
  send_accepted i op hop := by
    rcases (h.sends.ok i op.node (sendNodes_getElem? hop)).told nofun with ⟨hout, hP⟩ | ⟨r, hout, -, hP, -⟩
    · rw [hout]
      exact ⟨fun hm => absurd hm hP, nofun⟩
    · rw [hout, mem_singleton]
      exact hP.trans eq_comm
  send_reason i op hop r hr := by
    rcases (h.sends.ok i op.node (sendNodes_getElem? hop)).told nofun with ⟨hout, -⟩ | ⟨r', hout, -, -, hR⟩
    · rw [hout] at hr
      cases hr
    · rw [hout, mem_singleton] at hr
      exact hr ▸ hR
  send_stopped i op hop hstop := by
    rcases (h.sends.ok i op.node (sendNodes_getElem? hop)).told nofun with ⟨-, hP⟩ | ⟨r, hout, hgone, hP, -⟩
    · exact hP
    · rw [hout, mem_singleton] at hstop
      rcases hstop with hstop | hstop
      · exact fun hm => by cases hstop.trans (hP.1 hm)
      · exact absurd hstop hgone
  recv_delivered j n v hn := by
    rcases (h.recvs.ok j n hn).told nofun with ⟨hout, hP⟩ | ⟨r, hout, -, hP, -⟩
    · rw [hout]
      exact ⟨fun hm => absurd hm (hP v), nofun⟩
    · rw [hout, mem_singleton]
      exact (hP v).trans eq_comm
  recv_reason j n hn r hr := by
    rcases (h.recvs.ok j n hn).told nofun with ⟨hout, -⟩ | ⟨r', hout, -, -, hR⟩
    · rw [hout] at hr
      cases hr
    · rw [hout, mem_singleton] at hr
      exact hr ▸ hR
  violation := h.violation
  stop_send i hi := h.stopped_send hi
  stop_first i op hop hstart hstop := h.stopped_first hop hstart hstop
  stop_recv j hj := h.stopped_recv hj
  try_send v := (h.trySend v).2
  try_recv := h.tryRecv.2
  close := h.close.2

/-- A rendezvous: the send parks, and the receive takes its value. -/
example : (Runs.run step (bounded 0) [.newSend 7 true, .startSend 0, .newRecv true, .startRecv 0]).delivered =
    [(.recv 0, 7)] := by decide

end ClashNative.Async.Mpsc
