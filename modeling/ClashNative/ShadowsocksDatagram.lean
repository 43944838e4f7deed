import ClashNative.AeadRecords
import ClashNative.Socks5Udp
/-!
# ShadowsocksDatagram — receives of a Shadowsocks datagram handle

The receiving half of `ShadowsocksDatagramHandle::State` (`shadowsocks_outbound.cpp`): `receive` gives its
handler to the task that pulls the datagrams (`run_receive`), and `decode_response` looks for it in the
state.  `decrypt_aead_datagram` and `Shadowsocks2022DatagramCodec::decrypt` are over the primitives of a
method.
-/
namespace ClashNative.ShadowsocksDatagram

open List

open Socks5Udp (decodeProxyAddress)
open Wire (getU16 getU64)

abbrev Bytes := List UInt8

inductive ReceiveError
  | alreadyStarted | operationAborted | authentication | protocol | messageSize | transport
  deriving DecidableEq, Repr

/-! ### What a datagram says -/

/-- A method with its password: `psk` is empty where it cannot be decoded, `sessionId` is the codec's own.
-/
structure Cipher where
  shadowsocks2022 : Bool
  isAes : Bool
  keySize : Nat
  nonceSize : Nat
  overhead : Nat
  psk : Bytes
  sessionId : Nat
  aesEcbDecrypt : Bytes → Bytes → Option Bytes
  deriveSubkey : Bytes → Option Bytes
  aeadDecrypt : Bytes → Bytes → Bytes → Option Bytes
  xchachaDecrypt : Bytes → Bytes → Bytes → Option Bytes

def kAeadTagSize : Nat := 16
def kPacketHeaderSize : Nat := 16
def kPacketNonceSize : Nat := 24
def kFixedBodySize : Nat := 1 + 8 + 8 + 2
def kServerHeader : UInt8 := 1

def timestampIsRecent (now timestamp : Nat) : Bool := timestamp ≤ now + 30 && now ≤ timestamp + 30

def stripResponseHeader (now : Nat) (plaintext : Bytes) (expectedSessionId : Nat) : Option Bytes :=
  if plaintext.length < kFixedBodySize ∨ plaintext.getD 0 0 ≠ kServerHeader ∨
      timestampIsRecent now (getU64 ((plaintext.drop 1).take 8)) = false then none
  else if getU64 ((plaintext.drop 9).take 8) ≠ expectedSessionId then none
  else if plaintext.length < kFixedBodySize + getU16 (plaintext.drop 17) then none
  else some (plaintext.drop (kFixedBodySize + getU16 (plaintext.drop 17)))

namespace Cipher

variable (c : Cipher)

def decrypt (now : Nat) (wire : Bytes) : Option Bytes :=
  if c.psk = [] then none
  else if c.isAes then
    if wire.length < kPacketHeaderSize + kAeadTagSize + kFixedBodySize then none
    else do
      let packetHeader ← c.aesEcbDecrypt c.psk (wire.take kPacketHeaderSize)
      let sessionKey ← c.deriveSubkey (packetHeader.take 8)
      let plaintext ← c.aeadDecrypt sessionKey ((packetHeader.drop 4).take 12) (wire.drop kPacketHeaderSize)
      stripResponseHeader now plaintext c.sessionId
  else if wire.length < kPacketNonceSize + kAeadTagSize + 8 * 2 + kFixedBodySize then none
  else do
    let body ← c.xchachaDecrypt c.psk (wire.take kPacketNonceSize) (wire.drop kPacketNonceSize)
    stripResponseHeader now (body.drop (8 * 2)) c.sessionId

def decryptAeadDatagram (wire : Bytes) : Option Bytes :=
  if wire.length < c.keySize + c.overhead then none
  else do
    let key ← c.deriveSubkey (wire.take c.keySize)
    c.aeadDecrypt key (List.replicate c.nonceSize 0) (wire.drop c.keySize)

end Cipher

abbrev Received : Type := Except ReceiveError (Bytes × Socks5Udp.Destination)

structure Packet where
  source : Socks5Udp.Destination
  bytes : Bytes
  now : Nat

/-- `decode_response` and `decode_plaintext`: the payload and where it comes from. -/
def decodeResponse (c : Cipher) (packet : Packet) : Received :=
  match if c.shadowsocks2022 then c.decrypt packet.now packet.bytes else c.decryptAeadDatagram packet.bytes with
  | none => .error .authentication
  | some plaintext =>
    match decodeProxyAddress plaintext 0 with
    | .error _ => .error .protocol
    | .ok address => .ok (plaintext.drop address.size, address.destination)

/-- `complete_payload`, with a buffer of `size` bytes. -/
def completePayload (size : Nat) : Received → Received
  | .error e => .error e
  | .ok (payload, sender) => if size < payload.length then .error .messageSize else .ok (payload, sender)

/-! ### The handle -/

structure Config where
  cipher : Cipher
  server : Socks5Udp.Destination
  filterServerEndpoint : Bool

def Config.Foreign (c : Config) (packet : Packet) : Prop :=
  c.filterServerEndpoint = true ∧ packet.source ≠ c.server

instance (c : Config) (packet : Packet) : Decidable (c.Foreign packet) := inferInstanceAs (Decidable (_ ∧ _))

/-- A datagram of the server, the receive that it is taken for and the room there. -/
structure Taken where
  id : Nat
  packet : Packet
  room : Nat

def Taken.Valid (c : Config) (t : Taken) : Prop := (decodeResponse c.cipher t.packet).isOk = true

instance (c : Config) (t : Taken) : Decidable (t.Valid c) := inferInstanceAs (Decidable (_ = _))

def Taken.outcome (c : Config) (t : Taken) : Received :=
  completePayload t.room (decodeResponse c.cipher t.packet)

/-- `task`: the pull loop that runs, with the handler it was given.  `socket`: the datagrams that nothing
has taken.  Receives are numbered; `cancelled`: those whose caller has given up, `answers`: the calls of
the handlers. -/
structure State where
  socket : List Packet := []
  task : Option Nat := none
  receiveInProgress : Bool := false
  outputBuffer : Nat := 0
  receiveHandler : Option Nat := none
  receives : Nat := 0
  cancelled : List Nat := []
  taken : List Taken := []
  answers : List (Nat × Received) := []

inductive Event
  | receive (size : Nat)
  | cancelReceive
  | arrive (packet : Packet)
  | pull
  | fails (e : ReceiveError)

namespace State

def receiveNext (s : State) : State :=
  match s.receiveHandler with
  | none => s
  | some id => { s with task := some id, receiveHandler := none }

def receive (s : State) (size : Nat) : State :=
  if s.receiveInProgress then
    { s with receives := s.receives + 1, answers := s.answers ++ [(s.receives, .error .alreadyStarted)] }
  else
    ({ s with
      receiveInProgress := true
      outputBuffer := size
      receiveHandler := some s.receives
      receives := s.receives + 1 }).receiveNext

def finishReceive (s : State) (result : Received) : State :=
  { s with
    receiveInProgress := false
    receiveHandler := none
    outputBuffer := 0
    answers := match s.receiveHandler with
      | none => s.answers
      | some id => s.answers ++ [(id, result)] }

def cancelReceive (s : State) : State :=
  let s := { s with cancelled := s.cancelled ++ s.task.toList }
  match s.receiveHandler with
  | none => s
  | some _ => s.finishReceive (.error .operationAborted)

def pull (c : Config) (s : State) : State :=
  match s.task, s.socket with
  | some id, packet :: socket =>
    if c.Foreign packet then { s with socket := socket }
    else
      let t : Taken := ⟨id, packet, s.outputBuffer⟩
      { s with socket := socket, task := none, taken := s.taken ++ [t] }.finishReceive (t.outcome c)
  | _, _ => s

def fails (s : State) (e : ReceiveError) : State :=
  match s.task with
  | none => s
  | some id => { s with task := none, receiveInProgress := false, answers := s.answers ++ [(id, .error e)] }

end State

def step (c : Config) (s : State) : Event → State
  | .receive size => s.receive size
  | .cancelReceive => s.cancelReceive
  | .arrive packet => { s with socket := s.socket ++ [packet] }
  | .pull => s.pull c
  | .fails e => s.fails e

def run (c : Config) (events : List Event) : State := Runs.run (step c) {} events

/-! ### What is promised -/

/-- **Every receive is served**: who has not given up is answered once, with the datagram of the server
that was taken for it; no other datagram is taken, and none that can be read is taken for nothing. -/
structure Served (c : Config) (s : State) : Prop where
  answered : ∀ t ∈ s.taken, t.id ∉ s.cancelled →
    s.answers.filter (fun answer => answer.1 = t.id) = [(t.id, t.outcome c)]
  delivered : ∀ t ∈ s.taken, t.Valid c → (t.id, t.outcome c) ∈ s.answers
  skipped : ∀ t ∈ s.taken, ¬ c.Foreign t.packet
  once : (s.answers.map Prod.fst).Nodup

/-- **The condition**: no datagram of the server is taken, but for one that cannot be read and a receive
that was given up. -/
def Quiet (c : Config) (s : State) : Event → Prop
  | .pull => ∀ id packet socket, s.task = some id → s.socket = packet :: socket →
      c.Foreign packet ∨ (id ∈ s.cancelled ∧ ¬ (decodeResponse c.cipher packet).isOk = true)
  | _ => True

/-- Where the handler is: with the task as long as it runs, and never in the state. -/
structure Inv (c : Config) (s : State) : Prop where
  handler : s.receiveHandler = none
  progress : s.receiveInProgress = s.task.isSome
  known : ∀ id ∈ s.answers.map Prod.fst ++ s.task.toList, id < s.receives
  once : (s.answers.map Prod.fst ++ s.task.toList).Nodup
  taken : ∀ t ∈ s.taken, t.id ∈ s.cancelled ∧ ¬ t.Valid c ∧ ¬ c.Foreign t.packet

section Runs

variable {c : Config} {s : State}

theorem Inv.served (h : Inv c s) : Served c s where
  answered t ht hnot := absurd (h.taken t ht).1 hnot
  delivered t ht hvalid := absurd hvalid (h.taken t ht).2.1
  skipped t ht := (h.taken t ht).2.2
  once := (nodup_append.1 h.once).1

theorem start_inv : Inv c {} := ⟨rfl, rfl, fun _ h => absurd h not_mem_nil, nodup_nil,
    fun _ h => absurd h not_mem_nil⟩

theorem receive_inv (h : Inv c s) (size : Nat) : Inv c (s.receive size) := by
  have hfresh : s.receives ∉ s.answers.map Prod.fst ++ s.task.toList :=
    fun hmem => Nat.lt_irrefl _ (h.known _ hmem)
  unfold State.receive
  split
  · rename_i hprogress
    refine { h with known := fun id hid => ?_, once := ?_ }
    · simp only [map_append, map_cons, map_nil, append_assoc, mem_append, mem_singleton] at hid
      rcases hid with hid | rfl | hid
      · exact Nat.lt_succ_of_lt (h.known id (mem_append_left _ hid))
      · exact Nat.lt_succ_self _
      · exact Nat.lt_succ_of_lt (h.known id (mem_append_right _ hid))
    · simp only [map_append, map_cons, map_nil, append_assoc, singleton_append]
      exact (nodup_middle).2 (nodup_cons.2 ⟨hfresh, h.once⟩)
  · rename_i hprogress
    have hnone : s.task = none := by
      cases htask : s.task with
      | none => rfl
      | some id =>
        rw [h.progress, htask] at hprogress
        exact absurd rfl hprogress
    rw [hnone, Option.toList_none, append_nil] at hfresh
    have hknown := h.known
    have honce := h.once
    rw [hnone, Option.toList_none, append_nil] at hknown honce
    refine ⟨rfl, rfl, fun id hid => ?_, ?_, h.taken⟩
    · rcases mem_append.1 hid with hid | hid
      · exact Nat.lt_succ_of_lt (hknown id hid)
      · rw [mem_singleton.1 hid]
        exact Nat.lt_succ_self _
    · exact nodup_append.2 ⟨honce, nodup_singleton _, fun a ha b hb heq => hfresh
        (by rwa [← mem_singleton.1 hb, ← heq])⟩

theorem cancelReceive_inv (h : Inv c s) : Inv c s.cancelReceive := by
  have heq : s.cancelReceive = { s with cancelled := s.cancelled ++ s.task.toList } := by
    unfold State.cancelReceive
    rw [h.handler]
  rw [heq]
  exact { h with taken := fun t ht =>
    ⟨mem_append_left _ (h.taken t ht).1, (h.taken t ht).2⟩ }

variable {socket : List Packet} {packet : Packet} {id : Nat}

theorem pull_foreign (htask : s.task = some id) (hsocket : s.socket = packet :: socket)
    (hforeign : c.Foreign packet) : s.pull c = { s with socket := socket } := by
  unfold State.pull
  rw [htask, hsocket]
  exact if_pos hforeign

theorem pull_server (h : Inv c s) (htask : s.task = some id)
    (hsocket : s.socket = packet :: socket) (hserver : ¬ c.Foreign packet) : s.pull c = { s with
      socket := socket
      task := none
      receiveInProgress := false
      outputBuffer := 0
      taken := s.taken ++ [⟨id, packet, s.outputBuffer⟩] } := by
  unfold State.pull
  rw [htask, hsocket]
  dsimp only
  rw [if_neg hserver]
  unfold State.finishReceive
  simp only [h.handler]

theorem pull_inv (h : Inv c s) (hquiet : Quiet c s .pull) : Inv c (s.pull c) := by
  cases htask : s.task with
  | none =>
    have heq : s.pull c = s := by
      unfold State.pull
      rw [htask]
    rwa [heq]
  | some id =>
    cases hsocket : s.socket with
    | nil =>
      have heq : s.pull c = s := by
        unfold State.pull
        rw [htask, hsocket]
      rwa [heq]
    | cons packet socket =>
      by_cases hforeign : c.Foreign packet
      · rw [pull_foreign htask hsocket hforeign]
        exact { h with }
      · have hgiven := (hquiet id packet socket htask hsocket).resolve_left hforeign
        rw [pull_server h htask hsocket hforeign]
        refine ⟨h.handler, rfl, fun i hi => ?_, ?_, fun t ht => ?_⟩
        · rw [Option.toList_none, append_nil] at hi
          exact h.known i (mem_append_left _ hi)
        · rw [Option.toList_none, append_nil]
          exact (nodup_append.1 h.once).1
        · rcases mem_append.1 ht with hold | hnew
          · exact h.taken t hold
          · rw [mem_singleton.1 hnew]
            exact ⟨hgiven.1, hgiven.2, hforeign⟩

theorem fails_inv (h : Inv c s) (e : ReceiveError) : Inv c (s.fails e) := by
  unfold State.fails
  split
  · exact h
  · rename_i id htask
    have hsame : (s.answers ++ [(id, (.error e : Received))]).map Prod.fst ++ (none : Option Nat).toList =
      s.answers.map Prod.fst ++
      s.task.toList := by
      simp [htask]
    refine ⟨h.handler, rfl, fun i hi => ?_, ?_, h.taken⟩
    · rw [hsame] at hi
      exact h.known i hi
    · rw [hsame]
      exact h.once

theorem step_inv (s : State) (e : Event) (h : Inv c s) (hquiet : Quiet c s e) : Inv c (step c s e) := by
  cases e with
  | receive size => exact receive_inv h size
  | cancelReceive => exact cancelReceive_inv h
  | arrive packet => exact { h with }
  | pull => exact pull_inv h hquiet
  | fails e => exact fails_inv h e

theorem step_unserved (s : State) (e : Event) (h : Inv c s) (hnot : ¬ Quiet c s e) : ¬ Served c
    (step c s e) := by
  cases e with
  | pull =>
    intro hserved
    apply hnot
    intro id packet socket htask hsocket
    by_cases hforeign : c.Foreign packet
    · exact .inl hforeign
    · have heq := pull_server h htask hsocket hforeign
      have habsent : id ∉ s.answers.map Prod.fst := fun hmem => by
        have honce := h.once
        rw [htask] at honce
        exact (nodup_append.1 honce).2.2 id hmem id (mem_singleton.2 rfl) rfl
      rw [show step c s .pull = s.pull c from rfl, heq] at hserved
      have hmem : (⟨id, packet, s.outputBuffer⟩ : Taken) ∈ s.taken ++ [⟨id, packet, s.outputBuffer⟩] :=
        mem_append_right _ (mem_singleton.2 rfl)
      refine .inr ⟨?_, fun hvalid => habsent (mem_map_of_mem (hserved.delivered _ hmem hvalid))⟩
      by_contra hcancelled
      have hanswer := hserved.answered _ hmem hcancelled
      have hin : (id, (⟨id, packet, s.outputBuffer⟩ : Taken).outcome c) ∈ s.answers := by
        have hself := mem_singleton.2 (rfl : (id, (⟨id, packet, s.outputBuffer⟩ : Taken).outcome c) = _)
        rw [← hanswer] at hself
        exact (mem_filter.1 hself).1
      exact habsent (mem_map_of_mem hin)
  | receive size | cancelReceive | arrive packet | fails e => exact absurd trivial hnot

/-- **The receives of a handle are served exactly as long as no datagram of the server is taken**, but for
one that cannot be read and a receive that was given up. -/
theorem receives_served_iff (c : Config) (events : List Event) :
    (∀ pre, pre <+: events → Served c (run c pre)) ↔ Runs.Along (step c) (Quiet c) {} events :=
  Runs.forall_prefix_iff_along (P := Inv c) (Q := Served c)
    (fun _ h => h.served) step_inv step_unserved start_inv events

def exampleCipher : Cipher where
  shadowsocks2022 := false
  isAes := true
  keySize := 16
  nonceSize := 12
  overhead := 16
  psk := []
  sessionId := 0
  aesEcbDecrypt _ _ := none
  deriveSubkey := some
  aeadDecrypt key _ encrypted :=
    if encrypted.drop (encrypted.length - 16) = key then some (encrypted.take (encrypted.length - 16)) else none
  xchachaDecrypt _ _ _ := none

def exampleConfig : Config := ⟨exampleCipher, ⟨.v4 #v[192, 0, 2, 1], 8388⟩, true⟩

def examplePacket : Packet where
  source := exampleConfig.server
  bytes := List.replicate 16 7 ++ ([1, 8, 8, 8, 8, 0, 53, 42] ++ List.replicate 16 7)
  now := 0

/-- **A receive waits, the server's datagram comes, can be read and is taken**: nobody is told. -/
theorem server_datagram_lost :
    ¬ Served exampleConfig (run exampleConfig [.receive 100, .arrive examplePacket, .pull]) ∧
      (run exampleConfig [.receive 100, .arrive examplePacket, .pull]).answers = [] ∧
      decodeResponse exampleCipher examplePacket = .ok ([42], ⟨.v4 #v[8, 8, 8, 8], 53⟩) := by
  have htaken : (run exampleConfig [.receive 100, .arrive examplePacket, .pull]).taken = [⟨0,
    examplePacket, 100⟩] := rfl
  have hanswers : (run exampleConfig [.receive 100, .arrive examplePacket, .pull]).answers = [] := rfl
  refine ⟨fun hserved => ?_, hanswers, by decide +kernel⟩
  have hgiven := hserved.delivered ⟨0, examplePacket, 100⟩ (by rw [htaken]; exact mem_singleton.2 rfl)
    (by decide +kernel)
  exact absurd hgiven not_mem_nil

end Runs

end ClashNative.ShadowsocksDatagram
