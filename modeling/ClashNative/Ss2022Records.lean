import ClashNative.CancelledReads
import ClashNative.ObfsLayer
import ClashNative.SealNonces
import ClashNative.StreamWrites
/-!
# Ss2022Records — what a Shadowsocks 2022 stream seals, and what its reads return

`run_open` of `Shadowsocks2022OpenOperation` seals the request header, the writes of
`Shadowsocks2022StreamState` go on under its nonce.
-/
namespace ClashNative.Shadowsocks.Ss2022

open List

open LegacyStream (ObfsMode)
open Writes (Sealer WriteState WriteEvent)

variable {κ : Type} {c : Config κ}

/-! ### The request -/

def kClientHeader : UInt8 := 0

def paddingSize : Nat := 1

/-- The header of fixed size, made at `timestamp`, of eight bytes. -/
def requestFixed (timestamp destination : Bytes) : Bytes :=
  kClientHeader :: (timestamp ++ Wire.putU16 (destination.length + 2 + paddingSize))

def requestVariable (destination : Bytes) : Bytes := destination ++ (Wire.putU16 paddingSize ++ [0])

/-- The request behind its salt, `none` where there is none; and the key as the stream takes it. -/
def openRequest (sealer : Sealer) (nonceSize : Nat) (timestamp destination : Bytes) : Option Bytes × Sealing :=
  if destination = [] ∨ kMaxChunkPayload < destination.length + 2 then (none, ⟨List.replicate nonceSize 0, []⟩)
  else
    let fixed := Sealing.encrypt sealer ⟨List.replicate nonceSize 0, []⟩ (requestFixed timestamp destination)
    let rest := fixed.2.encrypt sealer (requestVariable destination)
    (fixed.1.bind fun head => rest.1.map fun tail => head ++ tail, rest.2)

/-! ### The writes -/

structure Sealed where
  writes : WriteState
  sealing : Sealing

def sealedStep (mode : ObfsMode) (sealer : Sealer) (s : Sealed) (e : WriteEvent) : Sealed where
  writes := (Writes.Ss2022.writer mode sealer).step s.writes e
  sealing :=
    match e with
    | .write data => if s.writes.writeInProgress ∨ data = [] then s.sealing else
      (s.sealing.encodeChunks sealer data.length data).2
    | _ => s.sealing

def openWrites (sealing : Sealing) : Sealed := ⟨{ writeNonce := sealing.nonce }, sealing⟩

theorem encoded_eq (sealer : Sealer) : ∀ (n : Nat) (nonce data : Bytes), Writes.appendRecords
    (Writes.Ss2022.encryptRecord sealer) n nonce data =
    Writes.appendRecords (Writes.appendRecord sealer) n nonce data
  | 0, _, _ => rfl
  | n + 1, nonce, data => by
    rw [Writes.appendRecords, Writes.appendRecords]
    by_cases hdata : data = []
    · rw [if_pos hdata, if_pos hdata]
    · have hpos := length_pos_iff.2 hdata
      have hmax : kMaxChunkPayload = 16383 := rfl
      have hlength := length_take (i := kMaxChunkPayload) (l := data)
      have hchunk : Writes.Ss2022.encryptRecord sealer nonce (data.take kMaxChunkPayload) =
          Writes.appendRecord sealer nonce (data.take kMaxChunkPayload) := by
        refine if_neg ?_
        rintro (hnil | hmore)
        · rw [hnil, length_nil] at hlength
          omega
        · omega
      rw [if_neg hdata, if_neg hdata, hchunk]
      rcases Writes.appendRecord sealer nonce (data.take kMaxChunkPayload) with ⟨head, nonce'⟩
      cases head with
      | none => rfl
      | some head =>
        dsimp only
        rw [encoded_eq sealer n nonce' (data.drop kMaxChunkPayload)]

/-- What a state of the writes satisfies: the nonce of the stream is that of the key. -/
structure SealedInv (first : Bytes) (s : Sealed) : Prop where
  nonce : s.writes.writeNonce = s.sealing.nonce
  counted : s.sealing.Counted first

theorem write_nonce (sealer : Sealer) {s : Sealed} (h : s.writes.writeNonce = s.sealing.nonce) (data : Bytes) :
    (Writes.Ss2022.write sealer s.writes data).writeNonce =
      if s.writes.writeInProgress ∨ data = [] then s.sealing.nonce else
      (s.sealing.encodeChunks sealer data.length data).2.nonce := by
  unfold Writes.Ss2022.write
  by_cases hbusy : s.writes.writeInProgress = true
  · rw [if_pos hbusy, if_pos (.inl hbusy)]
    exact h
  · rw [if_neg hbusy]
    by_cases hdata : data = []
    · rw [if_pos hdata, if_pos (.inr hdata)]
      exact h
    · have hencoded : Writes.Ss2022.encoded sealer s.writes data =
          ((s.sealing.encodeChunks sealer data.length data).1,
            (s.sealing.encodeChunks sealer data.length data).2.nonce) := by
        unfold Writes.Ss2022.encoded
        rw [encoded_eq, h, ← Sealing.encodeChunks_eq]
      rw [if_neg hdata, if_neg (not_or.2 ⟨hbusy, hdata⟩), hencoded]
      rcases s.sealing.encodeChunks sealer data.length data with ⟨wire, sealing⟩
      cases wire with
      | none => rfl
      | some wire => rfl

theorem sealedStep_inv {mode : ObfsMode} {sealer : Sealer} {first : Bytes} (s : Sealed) (e : WriteEvent)
    (h : SealedInv first s) :
    SealedInv first (sealedStep mode sealer s e) := by
  cases e with
  | write data =>
    constructor
    · show (Writes.Ss2022.write sealer s.writes data).writeNonce =
        (if s.writes.writeInProgress ∨ data = [] then s.sealing
        else (s.sealing.encodeChunks sealer data.length data).2).nonce
      rw [write_nonce sealer h.nonce]
      split
      · rfl
      · rfl
    · show (if s.writes.writeInProgress ∨ data = [] then s.sealing else
        (s.sealing.encodeChunks sealer data.length data).2).Counted first
      split
      · exact h.counted
      · exact h.counted.encodeChunks sealer data.length data
  | cancelWrite =>
    refine ⟨?_, h.counted⟩
    show s.writes.cancelWrite.writeNonce = s.sealing.nonce
    unfold WriteState.cancelWrite
    split
    · exact h.nonce
    · exact h.nonce
  | close => exact h
  | complete i error =>
    refine ⟨?_, h.counted⟩
    show ((Writes.Ss2022.writer mode sealer).step s.writes (.complete i error)).writeNonce = s.sealing.nonce
    unfold Writes.Writer.step
    dsimp only
    split
    · exact h.nonce
    · cases error with
      | none => exact h.nonce
      | some e => exact h.nonce

theorem openRequest_counted (sealer : Sealer) (nonceSize : Nat) (timestamp destination : Bytes) :
    (openRequest sealer nonceSize timestamp destination).2.Counted (List.replicate nonceSize 0) := by
  unfold openRequest
  split
  · exact Sealing.Counted.new _
  · exact ((Sealing.Counted.new _).encrypt sealer _).encrypt sealer _

theorem run_sealed (mode : ObfsMode) (sealer : Sealer) (nonceSize : Nat) (timestamp destination : Bytes)
    (events : List WriteEvent) :
    SealedInv (List.replicate nonceSize 0)
      (Runs.run (sealedStep mode sealer)
        (openWrites (openRequest sealer nonceSize timestamp destination).2) events) :=
  Runs.run_induction sealedStep_inv events _ ⟨rfl, openRequest_counted sealer nonceSize timestamp destination⟩

/-! ### The records are blind to the socket -/

theorem receiveResponseFixed_blind : Blind fun s : State κ => receiveResponseFixed c s := by
  intro s w
  have hkey : (s.on w).readKey = s.readKey := rfl
  dsimp only
  unfold receiveResponseFixed
  rw [hkey]
  cases s.readKey with
  | none => rfl
  | some key => exact readExact_blind c.mode _ _ s w

theorem receiveRecord_blind : Blind fun s : State κ => receiveRecord c s := by
  intro s w
  have hkey : (s.on w).readKey = s.readKey := rfl
  dsimp only
  unfold receiveRecord
  rw [hkey]
  cases s.readKey with
  | none => rfl
  | some key => exact readExact_blind c.mode _ _ s w

theorem copyPending_blind : Blind fun s : State κ => copyPending s := by
  intro s w
  show (if s.readHandler.isSome then (s.on w).copy else s.on w) =
    (if s.readHandler.isSome then s.copy else s).on w
  split
  · rfl
  · rfl

theorem finishPendingOrReceive_blind : Blind fun s : State κ => finishPendingOrReceive c s := by
  intro s w
  show (if s.readHandler.isSome then if s.pendingPlaintext ≠ [] then copyPending (s.on w)
    else receiveRecord c (s.on w) else s.on w) =
    (if s.readHandler.isSome then if s.pendingPlaintext ≠ [] then copyPending s else
      receiveRecord c s else s).on w
  split
  · split
    · exact copyPending_blind s w
    · exact receiveRecord_blind s w
  · rfl

theorem saltReceived_blind (salt : Bytes) : Blind fun s => saltReceived c s salt := by
  intro s w
  unfold saltReceived
  cases c.method.deriveKey salt with
  | none => rfl
  | some key => exact receiveResponseFixed_blind { s with readKey := some key } w

theorem fixedReceived_blind (key : κ) (bytes : Bytes) : Blind fun s => fixedReceived c s key bytes := by
  intro s w
  have hnonce : (s.on w).readNonce = s.readNonce := rfl
  dsimp only
  unfold fixedReceived
  rw [hnonce]
  cases c.method.decrypt key s.readNonce bytes with
  | none => rfl
  | some fixed =>
    dsimp only
    split
    · rfl
    · split
      · rfl
      · split
        · exact finishPendingOrReceive_blind { s.incrementReadNonce with responseHeaderReady := true } w
        · exact readExact_blind c.mode _ _ s.incrementReadNonce w

theorem variableReceived_blind (key : κ) (n : Nat) (bytes : Bytes) :
    Blind fun s => variableReceived c s key n bytes := by
  intro s w
  have hnonce : (s.on w).readNonce = s.readNonce := rfl
  dsimp only
  unfold variableReceived
  rw [hnonce]
  cases c.method.decrypt key s.readNonce bytes with
  | none => rfl
  | some plaintext =>
    dsimp only
    split
    · rfl
    · exact finishPendingOrReceive_blind
        { s.incrementReadNonce with pendingPlaintext := plaintext, responseHeaderReady := true } w

theorem lengthReceived_blind (key : κ) (bytes : Bytes) : Blind fun s => lengthReceived c s key bytes := by
  intro s w
  have hnonce : (s.on w).readNonce = s.readNonce := rfl
  dsimp only
  unfold lengthReceived
  rw [hnonce]
  cases c.method.decrypt key s.readNonce bytes with
  | none => rfl
  | some length =>
    dsimp only
    split
    · rfl
    · split
      · rfl
      · exact readExact_blind c.mode _ _ s.incrementReadNonce w

theorem payloadReceived_blind (key : κ) (bytes : Bytes) : Blind fun s => payloadReceived c s key bytes := by
  intro s w
  have hnonce : (s.on w).readNonce = s.readNonce := rfl
  dsimp only
  unfold payloadReceived
  rw [hnonce]
  cases c.method.decrypt key s.readNonce bytes with
  | none => rfl
  | some plaintext => exact copyPending_blind { s.incrementReadNonce with pendingPlaintext := plaintext } w

theorem received_blind (stage : Stage) (bytes : Bytes) : Blind fun s => received c s stage bytes := by
  intro s w
  have hkey : (s.on w).readKey = s.readKey := rfl
  dsimp only
  unfold received
  rw [hkey]
  cases stage with
  | salt => exact saltReceived_blind bytes s w
  | responseFixed =>
    cases s.readKey with
    | none => rfl
    | some key => exact fixedReceived_blind key bytes s w
  | responseVariable n =>
    cases s.readKey with
    | none => rfl
    | some key => exact variableReceived_blind key n bytes s w
  | length =>
    cases s.readKey with
    | none => rfl
    | some key => exact lengthReceived_blind key bytes s w
  | payload n =>
    cases s.readKey with
    | none => rfl
    | some key => exact payloadReceived_blind key bytes s w

theorem receive_blind : Blind fun s : State κ => receive c s := by
  intro s w
  show (if s.readKey.isNone then receiveSalt c (s.on w) else if !s.responseHeaderReady then
    receiveResponseFixed c (s.on w)
      else receiveRecord c (s.on w)) =
    (if s.readKey.isNone then receiveSalt c s else if !s.responseHeaderReady then
      receiveResponseFixed c s else receiveRecord c s).on w
  split
  · exact readExact_blind c.mode _ _ s w
  · split
    · exact receiveResponseFixed_blind s w
    · exact receiveRecord_blind s w

theorem reader_blind : (reader c).Blind where
  receive := receive_blind
  receiveSalt := readExact_blind c.mode _ _
  received := received_blind

/-! ### The stream -/

def openReads (server : Server c) (initial : Nat) (raw : Bytes) : Layered κ :=
  ⟨(start c server initial).on raw, []⟩

theorem start_free (server : Server c) (initial : Nat) :
    Free (Ahead server) (entry c) server.plaintext (start c server initial) where
  alive := (start_inv server initial).alive rfl
  ops := rfl
  progress := rfl
  unended := rfl
  clean _ _ h := nomatch h

/-- **A 2022 stream**: what its key seals, the request header among it, has nonces that are distinct
exactly while there are no more seals than nonces; and its reads return the first payload and the records
of the server, under any obfs layer. -/
theorem request_seals_and_returns (c : Config κ) (sealer : Sealer) (timestamp destination : Bytes)
    (server : Server c) (initial : Nat)
    {raw : Bytes} (hraw : Framing (start c server initial).wire c.mode raw) :
    (∀ events, let s :=
        Runs.run (sealedStep c.mode sealer) (openWrites
          (openRequest sealer c.method.nonceSize timestamp destination).2) events
      s.writes.writeNonce = s.sealing.nonce ∧ (s.sealing.Distinct ↔
        s.sealing.seals.length ≤ 256 ^ c.method.nonceSize)) ∧
    Returns (reader c) server.plaintext (openReads server initial raw) := by
  refine ⟨fun events => ?_, layered_returns reader_prompt reader_blind
    (start_layered (start_free server initial) rfl hraw)⟩
  have hrun := run_sealed c.mode sealer c.method.nonceSize timestamp destination events
  refine ⟨hrun.nonce, ?_⟩
  rw [hrun.counted.distinct_iff, length_replicate]

def exampleHello : SimpleObfs.TlsHead true where
  bytes := [0x16, 0x03, 0x01] ++ List.replicate 102 0
  size := rfl
  header := rfl

/-- The salt and four bytes come in the first TLS record, the rest in another one. -/
theorem request_seals_and_returns_tls :
    (∀ events, let s :=
        Runs.run (sealedStep .tls Writes.exampleSealer) (openWrites
          (openRequest Writes.exampleSealer 12 (List.replicate 8 0) [5]).2) events
      s.writes.writeNonce = s.sealing.nonce ∧ (s.sealing.Distinct ↔ s.sealing.seals.length ≤ 256 ^ 12)) ∧
    Returns (reader (exampleConfig .tls)) [1, 2, 3] (openReads (exampleServer2022 .tls) 0
      (exampleHello.frame ((exampleServer2022 .tls).wire.take 20) ++
        [(exampleServer2022 .tls).wire.drop 20].flatMap SimpleObfs.tlsRecord)) :=
  request_seals_and_returns (exampleConfig .tls) Writes.exampleSealer
  (List.replicate 8 0) [5] (exampleServer2022 .tls) 0
    (.tls exampleHello ((exampleServer2022 .tls).wire.take 20) [(exampleServer2022 .tls).wire.drop 20]
      (by decide +kernel)
      (by decide +kernel) (by decide +kernel))

/-! ### Where it ends -/

def writeOne : List WriteEvent := [.write [0], .complete 0 none]

theorem writeOne_seals (sealer : Sealer) (s : Sealed) (hidle : s.writes.writeInProgress = false)
    (hlowers : s.writes.lowers = []) :
    (Runs.run (sealedStep .none sealer) s writeOne).writes.writeInProgress = false ∧
      (Runs.run (sealedStep .none sealer) s writeOne).writes.lowers = [] ∧
      (Runs.run (sealedStep .none sealer) s writeOne).sealing.seals.length = s.sealing.seals.length + 2 := by
  have hseals := s.sealing.encodeChunks_byte sealer 0
  have hnot : ¬ (s.writes.writeInProgress = true) := by
    rw [hidle]
    decide
  have hsealed : (Runs.run (sealedStep .none sealer) s writeOne).sealing =
    (s.sealing.encodeChunks sealer 1 [0]).2 :=
    if_neg (not_or.2 ⟨hnot, cons_ne_nil _ _⟩)
  have hwrites : (Runs.run (sealedStep .none sealer) s writeOne).writes =
      (Writes.Ss2022.writer .none sealer).step (Writes.Ss2022.write sealer s.writes [0])
      (.complete 0 none) := rfl
  rw [hsealed, hwrites, ← and_assoc]
  refine ⟨?_, hseals⟩
  unfold Writes.Ss2022.write
  rw [if_neg hnot, if_neg (cons_ne_nil _ _)]
  rcases Writes.Ss2022.encoded sealer s.writes [0] with ⟨wire, nonce⟩
  cases wire with
  | none => simp [Writes.Writer.step, WriteState.post, hlowers, hidle]
  | some wire => simp [Writes.Writer.step, WriteState.startWrite, Writes.Writer.lowerWritten,
    WriteState.finishWrite, hlowers]

theorem writeOnes_seals (sealer : Sealer) (n : Nat) :
    ∀ s : Sealed, s.writes.writeInProgress = false → s.writes.lowers = [] →
    (Runs.run (sealedStep .none sealer) s (List.replicate n writeOne).flatten).sealing.seals.length =
    s.sealing.seals.length + 2 * n := by
  induction n with
  | zero => exact fun s _ _ => rfl
  | succ n ih =>
    intro s hidle hlowers
    obtain ⟨hidle', hlowers', hseals⟩ := writeOne_seals sealer s hidle hlowers
    rw [replicate_succ, flatten_cons, Runs.run_append, ih _ hidle' hlowers', hseals]
    omega

/-- A server that answers with an empty first payload, and then sends a record of `0x4000` bytes. -/
def longRecord : Bytes :=
  exampleSalt ++ (tagMethod.encrypt exampleSalt zeroNonce (exampleServer2022 .none).fixed ++
    tagMethod.records incrementNonce exampleSalt (incrementNonce zeroNonce) [List.replicate 0x4000 7])

/-- **A key comes round** behind `2 ^ 96` seals, and a record of more than `0x3fff` bytes is refused. -/
theorem long_record_refused :
    ¬ (Runs.run (sealedStep .none Writes.exampleSealer)
      (openWrites (openRequest Writes.exampleSealer 12 (List.replicate 8 0) [5]).2)
      (List.replicate (2 ^ 95) writeOne).flatten).sealing.Distinct ∧
    (Runs.run (Layered.step (reader (exampleConfig .none))) ⟨{ readNonce := zeroNonce, wire := longRecord }, []⟩
      [.read 1, .brings 99, .brings 99, .brings 99, .brings 99]).state.results =
      [(0, .error .protocolError)] := by
  refine ⟨?_, by decide +kernel⟩
  have hcounted := (run_sealed .none Writes.exampleSealer 12 (List.replicate 8 0) [5]
    (List.replicate (2 ^ 95) writeOne).flatten).counted
  rw [hcounted.distinct_iff, writeOnes_seals _ _ _ rfl rfl, length_replicate]
  decide

end ClashNative.Shadowsocks.Ss2022
