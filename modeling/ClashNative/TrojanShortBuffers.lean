import ClashNative.PacketReads
/-!
# TrojanShortBuffers — datagrams that are larger than the buffer

`read_payload_bytes` of `TrojanPacketState` looks at the buffer before it reads the payload, and a receive
that is told `message_size` leaves the payload in the stream.  `udp_over_tcp.cpp` reads the payload first.
-/
namespace ClashNative.PacketStream

open List hiding Vector

/-- A Trojan handle at the start of a frame: these are the packets that follow. -/
def atFrame (packets : List Packet) (results : List Received) (begun : List Bytes) : Receiver :=
  { incoming := wires trojan packets, results := results, begun := begun }

/-- **One receive**, its task, and lower reads that bring up to `n + 1` bytes each. -/
def receiveOnce (s : Receiver) (room : Nat) (sizes : List Nat) : Receiver :=
  Runs.run (Receiver.step trojan) s (.receive room :: .readFamily :: sizes.map (.arrive 0))

/-- **The stream is at the next frame**, and a receive that has room for its packet returns it, however
the bytes come. -/
structure NextFrame (packets : List Packet) (s : Receiver) : Prop where
  position : s.incoming = wires trojan packets
  next : ∀ p left room sizes, packets = p :: left → 0 < room → p.payload.length ≤ room →
    p.payload.length ≤ kMaxPacketPayload →
    (p.wire trojan).length ≤ sizes.length →
    (receiveOnce s room sizes).results = s.results ++ [.packet p.address p.payload]

/-! ## A receive inside of a frame -/

def Fits (p : Packet) (room : Nat) : Stage → Prop
  | .payload _ _ => p.payload ≠ [] ∧ p.payload.length ≤ room
  | _ => True

structure Tells (p : Packet) (room : Nat) (result : Received) (tail : Bytes) : Prop where
  messageSize : result = .error .messageSize → tail = p.payload ∧ p.payload ≠ []
  short : room < p.payload.length → p.payload.length ≤ kMaxPacketPayload → result = .error .messageSize

variable {stage : Stage} {room : Nat} {d : Dialect}

theorem Dialect.payloadLength_of_next {size : Nat} {bytes : Bytes} {source : DatagramAddress}
    (h : d.next room stage bytes = .read (.payload source size)) :
    ∃ source', stage = .payloadLength source' := by
  cases stage with
  | payloadLength source' => exact ⟨source', rfl⟩
  | family =>
    unfold Dialect.next at h
    dsimp only at h
    split at h
    · cases h
    · split at h
      · cases h
      · split at h
        · cases h
        · cases h
  | domainLength =>
    unfold Dialect.next at h
    dsimp only at h
    split at h
    · cases h
    · cases h
  | payload source' size' =>
    rw [d.next_payload] at h
    split at h
    · cases h
    · cases h
  | domainName _ | domainPort _ | numericAddress _ _ | port _ _ => cases h

variable {field tail : Bytes} {p : Packet}

theorem At.payload_of_tail (h : At d p stage field tail) (htail : tail = [])
    (hlength : ¬ ∃ source, stage = .payloadLength source) : stage = .payload p.address p.payload.length := by
  cases h with
  | payload => rfl
  | payloadLength => exact absurd ⟨_, rfl⟩ hlength
  | _ => simp [Packet.lengthBytes, putBe16, putPort] at htail

theorem At.trojan_next (h : At trojan p stage field tail)
    (hfits : Fits p room stage) :
    (∃ stage' field' tail', trojan.next room stage field = .read stage' ∧ At trojan p stage' field' tail' ∧
      tail = field' ++ tail' ∧
      Fits p room stage') ∨
    ∃ result, trojan.next room stage field = .finish result ∧ Tells p room result tail := by
  by_cases hlength : ∃ source, stage = .payloadLength source
  · obtain ⟨source, rfl⟩ := hlength
    cases h with
    | payloadLength =>
      have hsize : be16 (p.lengthBytes trojan) = p.payload.length := be16_putBe16 p.payload_le _
      rw [trojan.next_payloadLength, hsize,
        if_neg (not_not.2 (show (p.lengthBytes trojan).drop 2 = trojan.suffix from rfl))]
      by_cases hmax : p.payload.length ≤ kMaxPacketPayload
      · have hany : ¬ trojan.maxPayload.any (· < p.payload.length) = true := by simpa [trojan] using hmax
        rw [if_neg hany, Dialect.readPayloadBytes]
        by_cases hzero : p.payload.length = 0
        · refine .inr ⟨_, if_pos ⟨rfl, hzero⟩, fun heq => (by cases heq), fun hshort => ?_⟩
          omega
        · have hne : p.payload ≠ [] := fun hnil => hzero (length_eq_zero_iff.2 hnil)
          rw [if_neg (fun h => hzero h.2)]
          by_cases hshort : room < p.payload.length
          · -- the payload is not read
            exact .inr ⟨_, if_pos ⟨rfl, hshort⟩, fun _ => ⟨rfl, hne⟩, fun _ _ => rfl⟩
          · refine .inl ⟨_, _, _, if_neg (fun h => hshort h.2), .payload,
              (append_nil _).symm, hne, Nat.not_lt.1 hshort⟩
      · have hany : trojan.maxPayload.any (· < p.payload.length) = true := by simpa [trojan] using hmax
        exact .inr ⟨_, if_pos hany, fun heq => (by cases heq), fun _ hle => absurd hle hmax⟩
  · have htakes : trojan.Takes room stage field := by
      cases h with
      | payloadLength => exact absurd ⟨_, rfl⟩ hlength
      | payload => exact fun _ => hfits.2
      | _ => trivial
    rcases h.next htakes with ⟨stage', field', tail', hnext, hat, htail⟩ | ⟨htail, -, hnext⟩
    · refine .inl ⟨stage', field', tail', hnext, hat, htail, ?_⟩
      cases hat with
      | payload => exact absurd (Dialect.payloadLength_of_next hnext) hlength
      | _ => trivial
    · have hstage := h.payload_of_tail htail hlength
      rw [hstage] at hfits
      have hanswer : p.answer room = .packet p.address p.payload := if_neg (Nat.not_lt.2 hfits.2)
      rw [hanswer] at hnext
      exact .inr ⟨_, hnext, fun heq => (by cases heq), fun hshort => absurd hfits.2 (Nat.not_le.2 hshort)⟩

/-! ## The reads of a receive -/

/-- **A receive and its frame**: it reads a field, and what is left of the frame starts with what the
field misses; or it was told its result. -/
inductive Receiving (p : Packet) (packets : List Packet) (room : Nat) (results : List Received)
    (s : Receiver) : Prop
  | reading (c : Chain) (field tail : Bytes) (hroom : s.room = some room) (hchains : s.chains = [c])
    (hresults : s.results = results)
    (h : Inside trojan c [] p packets s field tail) (hfits : Fits p room c.stage)
  | told (result : Received) (tail : Bytes) (hchains : s.chains = [])
    (hresults : s.results = results ++ [result])
    (hincoming : s.incoming = tail ++ wires trojan packets) (h : Tells p room result tail)

namespace Receiving

variable {p : Packet} {packets : List Packet} {room : Nat} {results : List Received} {s : Receiver}

theorem field_ne_nil {field tail : Bytes} (h : At trojan p stage field tail)
    (hfits : Fits p room stage) : field ≠ [] := by
  by_cases hpayload : ∃ source size, stage = .payload source size
  · obtain ⟨source, size, rfl⟩ := hpayload
    cases h with
    | payload => exact hfits.1
  · exact h.ne_nil fun source size hstage => hpayload ⟨source, size, hstage⟩

theorem arrive_nobody (hchains : s.chains = []) (n : Nat) : s.step trojan (.arrive 0 n) = s := by
  unfold Receiver.step
  rw [hchains]
  rfl

theorem run_nobody : ∀ (sizes : List Nat) {s : Receiver}, s.chains = [] →
    Runs.run (Receiver.step trojan) s (sizes.map (.arrive 0)) = s
  | [], _, _ => rfl
  | n :: sizes, _, hchains => by
    rw [map_cons, Runs.run_cons, arrive_nobody hchains n, run_nobody sizes hchains]

theorem arrive (h : Receiving p packets room results s) (n : Nat) :
    Receiving p packets room results (s.step trojan (.arrive 0 n)) ∧
    ((s.step trojan (.arrive 0 n)).chains = [] ∨
      (s.step trojan (.arrive 0 n)).incoming.length < s.incoming.length) := by
  cases h with
  | told result tail hchains hresults hincoming htells =>
    rw [arrive_nobody hchains n]
    exact ⟨.told result tail hchains hresults hincoming htells, .inl hchains⟩
  | reading c field tail hroom hchains hresults hinside hfits =>
    obtain ⟨missing, hfield, hrest⟩ := hinside.split n
    have hlt := hinside.held_lt (field_ne_nil hinside.at_field hfits)
    have hchunk : s.chunk trojan c n ≠ [] := by
      intro hnil
      have hlength := congrArg List.length (hinside.chunk_eq n)
      rw [hnil, length_take, length_drop, length_nil] at hlength
      omega
    have hless : (s.incoming.drop (s.chunk trojan c n).length).length < s.incoming.length := by
      have hpos := length_pos_iff.2 hchunk
      have hincoming := congrArg List.length hinside.incoming
      rw [length_append, length_append, length_drop] at hincoming
      rw [length_drop]
      omega
    have hstep : s.step trojan (.arrive 0 n) = s.arrive trojan 0 n c := by
      unfold Receiver.step
      rw [hchains]
      rfl
    rw [hstep]
    unfold Receiver.arrive
    dsimp only
    generalize (if c.stage = Stage.family ∧ s.room.isSome ∧
      s.chunk trojan c n ≠ [] then s.incoming :: s.begun else s.begun) = begun
    rw [pull_bytes trojan (s := { s with
      incoming := s.incoming.drop (s.chunk trojan c n).length
      begun := begun }) 0 c hroom hchunk]
    by_cases hfull : (c.held ++ s.chunk trojan c n).length = c.stage.size trojan
    · rw [if_pos hfull]
      have hmissing : missing = [] := by
        have hlength := congrArg List.length hfield
        rw [hinside.at_field.length_eq, length_append] at hlength
        exact length_eq_zero_iff.1 (by omega)
      rw [hmissing, append_nil] at hfield
      rw [hmissing, nil_append] at hrest
      rw [← hfield]
      rcases hinside.at_field.trojan_next hfits with ⟨stage', field', tail', hnext, hat,
        htail, hfits'⟩ | ⟨result, hnext, htells⟩
      · rw [hnext]
        refine ⟨.reading ⟨stage', []⟩ field' tail' hroom (by rw [hchains]; rfl) hresults ?_ hfits', .inr hless⟩
        refine ⟨by rw [hchains]; rfl, fun _ hc => absurd hc not_mem_nil, hat, nil_prefix,
          fun hne => length_pos_iff.2 hne, ?_⟩
        rw [hrest, htail]
        rfl
      · rw [hnext]
        refine ⟨.told result tail ?_ ?_ hrest htells, .inr hless⟩
        · rw [hchains]
          rfl
        · show s.results ++ [result] = _
          rw [hresults]
    · rw [if_neg hfull]
      refine ⟨.reading ⟨c.stage, c.held ++ s.chunk trojan c n⟩ field tail hroom
        (by rw [hchains]; rfl) hresults ?_ hfits, .inr hless⟩
      refine ⟨by rw [hchains]; rfl, fun _ hc => absurd hc not_mem_nil, hinside.at_field,
        ⟨missing, hfield.symm⟩, fun _ => ?_, ?_⟩
      · have hle : (c.held ++ s.chunk trojan c n).length ≤ field.length := by
          rw [hfield]
          exact (prefix_append _ missing).length_le
        rw [← hinside.at_field.length_eq] at hfull
        exact Nat.lt_of_le_of_ne hle hfull
      · rw [hrest]
        have hdrop : field.drop (c.held ++ s.chunk trojan c n).length = missing := by
          rw [hfield]
          exact drop_left
        rw [hdrop]

theorem run : ∀ (sizes : List Nat) {s : Receiver}, Receiving p packets room results s →
    Receiving p packets room results (Runs.run (Receiver.step trojan) s (sizes.map (.arrive 0))) ∧
    ((Runs.run (Receiver.step trojan) s (sizes.map (.arrive 0))).chains = [] ∨
      (Runs.run (Receiver.step trojan) s (sizes.map (.arrive 0))).incoming.length + sizes.length ≤
      s.incoming.length)
  | [], _, h => ⟨h, .inr (Nat.le_refl _)⟩
  | n :: sizes, s, h => by
    obtain ⟨hnext, hless⟩ := h.arrive n
    rw [map_cons, Runs.run_cons, length_cons]
    rcases hless with hdone | hless
    · rw [run_nobody sizes hdone]
      exact ⟨hnext, .inl hdone⟩
    · obtain ⟨hrun, hcount⟩ := run sizes hnext
      exact ⟨hrun, hcount.imp_right fun hcount => by omega⟩

end Receiving

theorem run_start (packets : List Packet) (hroom : 0 < room) (results : List Received) (begun : List Bytes) :
    Runs.run (Receiver.step trojan) (atFrame packets results begun) [.receive room, .readFamily] =
      { atFrame packets results begun with
        room := some room
        chains := [{}] } := by
  show ((atFrame packets results begun).receive room).readFamily = _
  unfold Receiver.receive
  rw [if_neg (fun h => Bool.noConfusion h), if_neg (Nat.ne_of_gt hroom)]
  rfl

theorem receiving_start (p : Packet) (packets : List Packet) (hroom : 0 < room) (results : List Received)
    (begun : List Bytes) :
    Receiving p packets room results
      (Runs.run (Receiver.step trojan) (atFrame (p :: packets) results begun) [.receive room, .readFamily]) := by
  rw [run_start (p :: packets) hroom]
  refine .reading {} [p.family trojan] (p.hostBytes ++
    (putPort p.address.port ++ (p.lengthBytes trojan ++ p.payload))) rfl rfl rfl ?_ trivial
  exact ⟨List.Perm.refl _, fun _ hc => absurd hc not_mem_nil, .family, nil_prefix, fun _ => Nat.one_pos, rfl⟩

/-- **A receive from the start of a frame** that was told `message_size` left the payload in the stream,
and a buffer that is too small is told so after as many lower reads as the frame has bytes. -/
theorem receiveOnce_tells (p : Packet) (packets : List Packet) (hroom : 0 < room) (results : List Received)
    (begun : List Bytes)
    (sizes : List Nat) :
    (room < p.payload.length → p.payload.length ≤ kMaxPacketPayload → (p.wire trojan).length ≤ sizes.length →
      (receiveOnce (atFrame (p :: packets) results begun) room sizes).results =
      results ++ [.error .messageSize]) ∧
    ((receiveOnce (atFrame (p :: packets) results begun) room sizes).results = results ++ [.error .messageSize] →
      (receiveOnce (atFrame (p :: packets) results begun) room sizes).incoming =
      p.payload ++ wires trojan packets ∧ p.payload ≠ []) := by
  obtain ⟨hrun, hcount⟩ := (receiving_start p packets hroom results begun).run sizes
  have hrun' : Runs.run (Receiver.step trojan)
      (Runs.run (Receiver.step trojan) (atFrame (p :: packets) results begun) [.receive room, .readFamily])
      (sizes.map (.arrive 0)) =
      receiveOnce (atFrame (p :: packets) results begun) room sizes := rfl
  rw [hrun'] at hrun hcount
  cases hrun with
  | told result tail hchains hresults hincoming htells =>
    refine ⟨fun hshort hmax _ => by rw [hresults, htells.short hshort hmax], fun hmessage => ?_⟩
    rw [hresults] at hmessage
    obtain ⟨htail, hne⟩ := htells.messageSize (singleton_inj.1 (append_cancel_left hmessage))
    exact ⟨by rw [hincoming, htail], hne⟩
  | reading c field tail hroom' hchains hresults hinside hfits =>
    constructor
    · intro _ _ hsizes
      have hleft := congrArg List.length hinside.incoming
      have hlt := hinside.held_lt (Receiving.field_ne_nil hinside.at_field hfits)
      have hstart : (Runs.run (Receiver.step trojan) (atFrame (p :: packets) results begun)
        [.receive room, .readFamily]).incoming =
          p.wire trojan ++ wires trojan packets := by
        rw [run_start (p :: packets) hroom]
        rfl
      rw [hstart, hchains] at hcount
      have hcount := hcount.resolve_left (cons_ne_nil _ _)
      rw [length_append, length_append, length_drop] at hleft
      rw [length_append] at hcount
      omega
    · intro hmessage
      rw [hresults] at hmessage
      have hlength := congrArg List.length hmessage
      rw [length_append, length_singleton] at hlength
      omega

/-- **A receive that is told `message_size` leaves the stream at the payload**, and never at the next
frame: whatever packets are sent, whatever the size of the buffer, and however the bytes come.  A buffer
that is too small for its packet is told so. -/
theorem short_buffer_desyncs (p : Packet) (packets : List Packet) (room : Nat) (results : List Received)
    (begun : List Bytes)
    (sizes : List Nat) :
    (0 < room ∧ room < p.payload.length ∧ p.payload.length ≤ kMaxPacketPayload ∧
      (p.wire trojan).length ≤ sizes.length →
      (receiveOnce (atFrame (p :: packets) results begun) room sizes).results =
      results ++ [.error .messageSize]) ∧
    ((receiveOnce (atFrame (p :: packets) results begun) room sizes).results = results ++ [.error .messageSize] →
      (receiveOnce (atFrame (p :: packets) results begun) room sizes).incoming =
      p.payload ++ wires trojan packets ∧
      ¬ NextFrame packets (receiveOnce (atFrame (p :: packets) results begun) room sizes)) := by
  by_cases hroom : 0 < room
  · obtain ⟨hshort, hmessage⟩ := receiveOnce_tells p packets hroom results begun sizes
    refine ⟨fun h => hshort h.2.1 h.2.2.1 h.2.2.2, fun hresults => ?_⟩
    obtain ⟨hincoming, hne⟩ := hmessage hresults
    refine ⟨hincoming, fun hnext => hne ?_⟩
    exact append_left_eq_self.1 (hincoming.symm.trans hnext.position)
  · refine ⟨fun h => absurd h.1 hroom, fun hresults => ?_⟩
    -- an empty buffer is not told anything of the stream
    have hzero : room = 0 := Nat.eq_zero_of_not_pos hroom
    subst hzero
    have hrun : receiveOnce (atFrame (p :: packets) results begun) 0 sizes =
        Runs.run (Receiver.step trojan) (atFrame (p :: packets)
          (results ++ [.packet defaultAddress []]) begun) (sizes.map (.arrive 0)) := rfl
    rw [hrun, Receiving.run_nobody sizes rfl] at hresults
    cases append_cancel_left hresults

/-- The payload of a datagram from `9.9.9.9:53` reads as a frame from `8.8.8.8:53`. -/
def framedPacket : Packet := examplePacket 53 [1, 8, 8, 8, 8, 0, 53, 0, 1, 13, 10, 42] (by decide)

/-- A buffer of four bytes is too small for it.  The next receive returns a datagram that nobody sent, and
not the one that follows. -/
theorem short_buffer_forges :
    (receiveOnce (atFrame [framedPacket, examplePacket 53 [7] (by decide)] [] []) 4
      (List.replicate 24 99)).results = [.error .messageSize] ∧
    ¬ NextFrame [examplePacket 53 [7] (by decide)]
      (receiveOnce (atFrame [framedPacket, examplePacket 53 [7] (by decide)] [] []) 4 (List.replicate 24 99)) ∧
    (receiveOnce (receiveOnce (atFrame [framedPacket, examplePacket 53 [7] (by decide)] [] []) 4
      (List.replicate 24 99)) 100
      (List.replicate 24 99)).results = [.error .messageSize,
      .packet ⟨.v4 (Vector.replicate 4 8), 53⟩ [42]] := by
  refine ⟨by decide +kernel, fun h => ?_, by decide +kernel⟩
  exact absurd h.position (by decide +kernel)

/-- A buffer of three bytes for a payload of four. -/
theorem short_buffer_desyncs_once :
    (receiveOnce (atFrame [examplePacket 53 [1, 2, 3, 4] (by decide)] [] []) 3
      (List.replicate 15 0)).results = [.error .messageSize] ∧
    (receiveOnce (atFrame [examplePacket 53 [1, 2, 3, 4] (by decide)] [] []) 3
      (List.replicate 15 0)).incoming = [1, 2, 3, 4] := by
  obtain ⟨htold, hleft⟩ := short_buffer_desyncs (examplePacket 53 [1, 2, 3, 4] (by decide)) [] 3 [] []
    (List.replicate 15 0)
  have hresults := htold (by decide +kernel)
  exact ⟨hresults, (hleft hresults).1⟩

end ClashNative.PacketStream
