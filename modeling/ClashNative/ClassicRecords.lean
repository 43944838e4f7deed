import ClashNative.CancelledReads
import ClashNative.ClassicWrites
import ClashNative.ObfsLayer
import ClashNative.ShadowsocksStream
import ClashNative.Socks5Udp
import ClashNative.StreamWrites
/-!
# ClassicRecords — what a classic AEAD stream seals, and what its reads return

`append_tcp_record`, the writes and the reads of `shadowsocks_outbound.cpp`, over the bytes of the socket.
-/
namespace ClashNative.Shadowsocks.Classic

open List

variable {κ : Type} {c : Config κ}

/-! ### The records are blind to the socket -/

theorem lengthReceived_blind (key : κ) (bytes : Bytes) : Blind fun s => lengthReceived c s key bytes := by
  intro s w
  have hnonce : (s.on w).readNonce = s.readNonce := rfl
  dsimp only
  unfold lengthReceived
  rw [hnonce]
  cases c.method.decrypt key s.readNonce bytes with
  | none => rfl
  | some length =>
    by_cases hsize : length.length ≠ 2
    · simp only [if_pos hsize]
      rfl
    · by_cases hrange : Wire.getU16 length = 0 ∨ kMaxChunkPayload < Wire.getU16 length
      · simp only [if_neg hsize, if_pos hrange]
        rfl
      · simp only [if_neg hsize, if_neg hrange]
        exact readExact_blind c.mode _ _ s.incrementReadNonce w

theorem copyPending_blind : Blind fun s : State κ => copyPending s := by
  intro s w
  show (if s.readInProgress then (s.on w).copy else s.on w) = (if s.readInProgress then s.copy else s).on w
  split
  · rfl
  · rfl

theorem payloadReceived_blind (key : κ) (bytes : Bytes) : Blind fun s => payloadReceived c s key bytes := by
  intro s w
  have hnonce : (s.on w).readNonce = s.readNonce := rfl
  dsimp only
  unfold payloadReceived
  rw [hnonce]
  cases c.method.decrypt key s.readNonce bytes with
  | none => rfl
  | some plaintext =>
    by_cases hnil : plaintext = []
    · simp only [if_pos hnil]
      rfl
    · simp only [if_neg hnil]
      exact copyPending_blind { s.incrementReadNonce with pendingPlaintext := plaintext } w

theorem saltReceived_blind (salt : Bytes) : Blind fun s => saltReceived c s salt := by
  intro s w
  unfold saltReceived
  cases c.method.deriveKey salt with
  | none => rfl
  | some key => exact readExact_blind c.mode _ _ { s with readKey := some key } w

theorem received_blind (stage : Stage) (bytes : Bytes) : Blind fun s => received c s stage bytes := by
  intro s w
  have hkey : (s.on w).readKey = s.readKey := rfl
  dsimp only
  unfold received
  rw [hkey]
  cases stage with
  | salt => exact saltReceived_blind bytes s w
  | responseFixed => rfl
  | responseVariable n => rfl
  | length =>
    cases s.readKey with
    | none => rfl
    | some key => exact lengthReceived_blind key bytes s w
  | payload n =>
    cases s.readKey with
    | none => rfl
    | some key => exact payloadReceived_blind key bytes s w

theorem reader_blind : (reader c).Blind where
  receive s w := by
    show (if (s.on w).readKey.isNone then receiveSalt c (s.on w) else receiveLength c (s.on w)) =
      (if s.readKey.isNone then receiveSalt c s else receiveLength c s).on w
    by_cases hnone : s.readKey.isNone = true
    · rw [if_pos hnone]
      exact (if_pos hnone).trans (readExact_blind c.mode _ _ s w)
    · rw [if_neg hnone]
      exact (if_neg hnone).trans (readExact_blind c.mode _ _ s w)
  receiveSalt := readExact_blind c.mode _ _
  received := received_blind

/-! ### The reads -/

def openReads (server : Server c.method) (initial : Nat) (raw : Bytes) : Layered κ :=
  ⟨(start server initial).on raw, []⟩

theorem start_free (server : Server c.method) (initial : Nat) :
    Free (Ahead server) (entry c) server.payloads.flatten (start server initial) where
  alive := (start_inv server initial).alive rfl
  ops := rfl
  progress := rfl
  unended := rfl
  clean _ _ h := nomatch h

theorem reads_return (server : Server c.method) (initial : Nat) {raw : Bytes}
    (hraw : Framing (start server initial).wire c.mode raw) :
    Returns (reader c) server.payloads.flatten (openReads server initial raw) :=
  layered_returns reader_prompt reader_blind (start_layered (start_free server initial) rfl hraw)

/-! ### The destination -/

theorem address_fits {destination : Socks5Udp.Destination} {address : Bytes}
    (h : Socks5Udp.encodeProxyAddress destination = .ok address) :
    1 ≤ address.length ∧ address.length ≤ kMaxChunkPayload := by
  have hmax : kMaxChunkPayload = 16383 := rfl
  unfold Socks5Udp.encodeProxyAddress at h
  split at h
  · cases h
    simp
    omega
  · cases h
    simp
    omega
  · split at h
    · cases h
    · rename_i hname
      cases h
      simp
      omega

/-! ### The stream -/

/-- **A classic AEAD stream**: its writes seal records of 1 to `0x3fff` bytes, the destination's among
them, under nonces that are distinct exactly while the key has made no more seals than there are nonces;
and its reads return the payloads of the server. -/
theorem stream_seals_and_returns (c : Config κ)
    (sealer : Writes.Sealer) {destination : Socks5Udp.Destination} {address : Bytes}
    (haddress : Socks5Udp.encodeProxyAddress destination = .ok address) (server : Server c.method)
    (initial : Nat) {raw : Bytes}
    (hraw : Framing (start server initial).wire c.mode raw) :
    (∀ events, let sealing :=
        (Runs.run (ClassicWrites.step sealer)
          (ClassicWrites.openStream sealer c.method.nonceSize address).2 events).sealing
      sealing.OfRecords ∧ (sealing.Distinct ↔ sealing.seals.length ≤ 256 ^ c.method.nonceSize)) ∧
    Returns (reader c) server.payloads.flatten (openReads server initial raw) := by
  obtain ⟨hpos, hle⟩ := address_fits haddress
  refine ⟨fun events => ?_, reads_return server initial hraw⟩
  obtain ⟨hcounted, hrecords⟩ := @ClassicWrites.run_counted sealer c.method.nonceSize address hpos hle events
  refine ⟨hrecords, ?_⟩
  rw [hcounted.distinct_iff, length_replicate]

def exampleHead : SimpleObfs.HttpHead where
  bytes := Http.ascii "HTTP/1.1 101 Switching Protocols" ++ SimpleObfs.delimiter
  lines := Http.ascii "HTTP/1.1 101 Switching Protocols"
  ended := by decide
  switching := by decide
  size := by decide

theorem stream_seals_and_returns_http :
    (∀ events, let sealing :=
        (Runs.run (ClassicWrites.step Writes.exampleSealer)
          (ClassicWrites.openStream Writes.exampleSealer 12 [1, 127, 0, 0, 1, 0, 80]).2
          events).sealing
      sealing.OfRecords ∧ (sealing.Distinct ↔ sealing.seals.length ≤ 256 ^ 12)) ∧
    Returns (reader ⟨.http, tagMethod⟩) [1, 2, 3] (openReads (c := ⟨.http, tagMethod⟩) exampleServer 0
      (exampleHead.bytes ++ wire (c := ⟨.http, tagMethod⟩) exampleServer)) :=
  stream_seals_and_returns ⟨.http, tagMethod⟩ Writes.exampleSealer
    (by rfl : Socks5Udp.encodeProxyAddress ⟨.v4 #v[127, 0, 0, 1], 80⟩ = _)
    exampleServer 0 (.http exampleHead)

/-! ### Where it ends -/

def writeOne : List ClassicWrites.Event := [.write [0], .complete 0 false]

theorem writeOne_seals (sealer : Writes.Sealer) (s : ClassicWrites.State)
    (hidle : s.writeInProgress = false) (htasks : s.tasks = []) :
    (Runs.run (ClassicWrites.step sealer) s writeOne).writeInProgress = false ∧
    (Runs.run (ClassicWrites.step sealer) s writeOne).tasks = [] ∧
      (Runs.run (ClassicWrites.step sealer) s writeOne).sealing.seals.length = s.sealing.seals.length + 2 := by
  have hseals := s.sealing.encodeChunks_byte sealer 0
  have hnot : ¬ (s.writeInProgress = true) := by
    rw [hidle]
    decide
  simp only [writeOne, Runs.run_cons, Runs.run_nil, ClassicWrites.step, ClassicWrites.write, if_neg hnot,
    if_neg (cons_ne_nil _ _),
    length_singleton]
  rcases heq : s.sealing.encodeChunks sealer 1 [0] with ⟨wire, sealing⟩
  rw [heq] at hseals
  cases wire with
  | none =>
    simp only [ClassicWrites.State.answer, ClassicWrites.State.call, htasks]
    exact ⟨hidle, rfl, hseals⟩
  | some wire =>
    simp only [ClassicWrites.State.spawn, ClassicWrites.State.call, htasks]
    exact ⟨rfl, rfl, hseals⟩

theorem writeOnes_seals (sealer : Writes.Sealer) (n : Nat) :
    ∀ s : ClassicWrites.State, s.writeInProgress = false → s.tasks = [] →
    (Runs.run (ClassicWrites.step sealer) s (List.replicate n writeOne).flatten).sealing.seals.length =
    s.sealing.seals.length + 2 * n := by
  induction n with
  | zero => exact fun s _ _ => rfl
  | succ n ih =>
    intro s hidle htasks
    obtain ⟨hidle', htasks', hseals⟩ := writeOne_seals sealer s hidle htasks
    rw [replicate_succ, flatten_cons, Runs.run_append, ih _ hidle' htasks', hseals]
    omega

def emptyRecord : Bytes := exampleSalt ++ tagMethod.records incrementNonce exampleSalt
    (List.replicate 12 0) [[], [7]]

/-- **A key comes round**: its nonces are used again behind `2 ^ 96` seals.  And a record that holds
nothing is refused. -/
theorem nonces_come_round :
    ¬ (Runs.run (ClassicWrites.step Writes.exampleSealer)
      (ClassicWrites.openStream Writes.exampleSealer 12 [1, 127, 0, 0, 1, 0, 80]).2
      (List.replicate (2 ^ 95) writeOne).flatten).sealing.Distinct ∧
    (Runs.run (Layered.step (reader ⟨.none, tagMethod⟩))
      ⟨{ readNonce := List.replicate 12 0, wire := emptyRecord }, []⟩
      [.read 1, .brings 99, .brings 99]).state.results = [(0, .error .protocolError)] := by
  refine ⟨?_, by decide +kernel⟩
  have hcounted := (@ClassicWrites.run_counted Writes.exampleSealer 12 [1, 127, 0, 0, 1, 0, 80]
    (by decide) (by decide)
    (List.replicate (2 ^ 95) writeOne).flatten).1
  rw [hcounted.distinct_iff, writeOnes_seals _ _ _ rfl rfl, length_replicate]
  decide

end ClashNative.Shadowsocks.Classic
