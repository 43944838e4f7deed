import ClashNative.CoreTypes
import ClashNative.RestlsStream
import ClashNative.ShadowTlsStreams
/-!
# CamouflageOpens — how the streams that look like TLS are opened

`RestlsOpenOperation` (`restls_client.cpp`), `JlsOpenOperation` (`jls_client.cpp`) and
`ShadowTlsV3OpenOperation` (`shadow_tls_v3.cpp`).  Each drives a TLS engine through its handshake, writes
what the engine sends, and hands the lower stream over when the handshake is complete.

The engine is any.  An event is the completion of a read or a write of the lower stream, a deadline, or an
abort; the coroutines of ResTLS and JLS do one thing at a time, so that what completes at once is what
completes next.
-/
namespace ClashNative.Camouflage

open Wire (getU16)
open Restls (RestlsStream RestlsScriptLine KeyedHash kTlsRecordHeaderLength kMaxTlsRecordPayload)
open ShadowTlsV3 (Chains HmacSha1 kTlsHeaderSize kTlsHmacSize kApplicationRecord verifyChain payloadOf)

abbrev Bytes := List UInt8

/-! ## The engine -/

/-- What the engine tells in a call: a record for the peer, and whether the handshake was complete by
then, or plaintext of the peer. -/
inductive Output
  | record (bytes : Bytes) (complete : Bool)
  | plain (bytes : Bytes)
  deriving DecidableEq, Repr

/-- **A TLS engine**: what `received_data` tells, and the state it leaves or the exception that it throws.
-/
structure Engine (σ : Type) where
  receivedData : σ → Bytes → List Output × Except (Option String) σ
  isHandshakeComplete : σ → Bool
  authenticated : σ → Bool

def records (outputs : List Output) : List Bytes :=
  outputs.filterMap fun
    | .record bytes _ => some bytes
    | .plain _ => none

def plaintext (outputs : List Output) : Bytes :=
  outputs.flatMap fun
    | .record _ _ => []
    | .plain bytes => bytes

def thrown (context unknown : String) : Option String → Error
  | some what => ⟨.carrierHandshake, context ++ ": " ++ what⟩
  | none => ⟨.carrierHandshake, unknown⟩

/-- **The records of the engine**: `tls_write_queue_`, the one on its way, and what the lower stream has
written. -/
structure Outbox where
  queue : List Bytes := []
  current : Option Bytes := none
  written : List Bytes := []
  deriving DecidableEq, Repr

namespace Outbox

def push (box : Outbox) (record : Bytes) : Outbox := { box with queue := box.queue ++ [record] }

def next (box : Outbox) : Outbox :=
  match box.queue with
  | [] => box
  | record :: queue => { box with queue, current := some record }

def land (box : Outbox) : Outbox := { box with current := none, written := box.written ++ box.current.toList }

end Outbox

/-- What completes: a write, with the failure that it has where it fails, a read of so many bytes, or a
read that throws. -/
inductive Act
  | lowerWritten (failure : Option (Option Error))
  | lowerRead (n : Nat)
  | readThrows
  | timeout
  | abort
  deriving DecidableEq, Repr

def writeError (context : String) (failure : Option Error) : Error := failure.getD ⟨.transportIo, context⟩

/-! ## ResTLS -/

structure RestlsOptions where
  secret : Bytes
  tls13 : Bool
  script : List RestlsScriptLine

/-- **`RestlsOpenOperation`.**  `outputs` are all that the engine has told, `consumed` the records it was
given as they have come, `wire` what the lower stream has not brought yet. -/
structure RestlsOpen (σ : Type) where
  engine : σ
  outputs : List Output := []
  box : Outbox := {}
  reading : Bool := false
  tlsInput : Bytes := []
  consumed : List Bytes := []
  serverRandom : Bytes := []
  serverTls12Gcm : Bool := false
  serverCcsSeen : Bool := false
  serverAuthUnmasked : Bool := false
  lastClientFinished : Bytes := []
  wire : Bytes
  result : Option (Except Error RestlsStream) := none

namespace RestlsOpen

variable {σ : Type} (E : Engine σ) (hash : KeyedHash) (options : RestlsOptions)

def finish (s : RestlsOpen σ) (result : Except Error RestlsStream) : RestlsOpen σ :=
  if s.result.isSome then s else { s with result := some result }

/-- The loop of `remember_finished_record`, over at most `n` records. -/
def lastFinished : Nat → Bytes → Bytes → Bytes
  | 0, last, _ => last
  | n + 1, last, bytes =>
    match RestlsStream.nextRecord bytes with
    | none => last
    | some (record, rest) => lastFinished n (if record.getD 0 0 = 22 ∨
        record.getD 0 0 = 23 then record else last) rest

/-- `emit_tls`, and `record_received`, which keeps nothing. -/
def tellOne (s : RestlsOpen σ) : Output → RestlsOpen σ
  | .record bytes complete =>
    { s with
      box := s.box.push bytes
      lastClientFinished := if complete then s.lastClientFinished else
        lastFinished bytes.length s.lastClientFinished bytes }
  | .plain _ => s

def tell (s : RestlsOpen σ) (outputs : List Output) : RestlsOpen σ :=
  outputs.foldl tellOne { s with outputs := s.outputs ++ outputs }

def isTls12GcmCipher (cipherSuite : Nat) : Bool := cipherSuite = 0xC02F ∨ cipherSuite = 0xC02B ∨
    cipherSuite = 0xC030 ∨ cipherSuite = 0xC02C

def rememberServerRandom (s : RestlsOpen σ) (record : Bytes) : RestlsOpen σ :=
  if s.serverRandom ≠ [] ∨ record.length < 5 + 4 + 2 + 32 ∨ record.getD 0 0 ≠ 22 ∨ record.getD 5 0 ≠ 2 then s
  else
    let sessionIdOffset := 5 + 4 + 2 + 32
    let cipherOffset := sessionIdOffset + 1 + (record.getD sessionIdOffset 0).toNat
    { s with
      serverRandom := (record.drop (5 + 4 + 2)).take 32
      serverTls12Gcm := if sessionIdOffset < record.length ∧ cipherOffset + 2 ≤ record.length then
          isTls12GcmCipher (getU16 (record.drop cipherOffset))
        else s.serverTls12Gcm }

def unmaskServerAuth (s : RestlsOpen σ) (record : Bytes) : Bytes :=
  if s.serverRandom.length ≠ 32 ∨ record.length ≤ kTlsRecordHeaderLength then record
  else
    let mask := hash.keyed options.secret s.serverRandom
    let explicitNonce := (record.drop kTlsRecordHeaderLength).take 8
    let offset := if s.serverTls12Gcm ∧ kTlsRecordHeaderLength + 8 ≤ record.length ∧
      explicitNonce = List.replicate 8 0 then
        kTlsRecordHeaderLength + 8
      else kTlsRecordHeaderLength
    record.take offset ++ List.zipWith (· ^^^ ·) ((record.drop offset).take 16) mask ++ record.drop (offset + 16)

def takeRecord (s : RestlsOpen σ) (record rest : Bytes) : Bytes × RestlsOpen σ :=
  let s := { s with tlsInput := rest, consumed := s.consumed ++ [record] }.rememberServerRandom record
  let unmasks := s.serverCcsSeen ∧ s.serverAuthUnmasked = false ∧ (record.getD 0 0 = 22 ∨ record.getD 0 0 = 23)
  (if unmasks then s.unmaskServerAuth hash options record else record,
    { s with serverAuthUnmasked := s.serverAuthUnmasked || unmasks, serverCcsSeen := s.serverCcsSeen ||
      record.getD 0 0 = 20 })

def openRestlsStream (s : RestlsOpen σ) : RestlsOpen σ :=
  if s.serverRandom.length ≠ 32 ∨ s.lastClientFinished = [] then
    s.finish (.error ⟨.protocolFraming, "ResTLS TLS handshake did not expose ServerHello and Finished records"⟩)
  else
    s.finish (.ok (RestlsStream.opened options.secret s.serverRandom s.serverTls12Gcm
      (if options.tls13 then s.lastClientFinished else [])
      options.script s.tlsInput s.wire))

def processTlsRecords : Nat → RestlsOpen σ → RestlsOpen σ
  | 0, s => s
  | n + 1, s =>
    let payloadSize := getU16 (s.tlsInput.drop 3)
    if s.result.isSome ∨ s.tlsInput.length < kTlsRecordHeaderLength then s
    else if kMaxTlsRecordPayload < payloadSize then
      s.finish (.error ⟨.protocolFraming, "invalid ResTLS TLS record length"⟩)
    else
      match RestlsStream.nextRecord s.tlsInput with
      | none => s
      | some (front, rest) =>
        let (record, s) := s.takeRecord hash options front rest
        match E.receivedData s.engine record with
        | (outputs, .error what) =>
          (s.tell outputs).finish
            (.error (thrown "ResTLS TLS handshake failed"
              "ResTLS TLS handshake failed with unknown exception" what))
        | (outputs, .ok engine) =>
          let s := { s.tell outputs with engine }
          if E.isHandshakeComplete engine then s.openRestlsStream options else processTlsRecords n s

def runOpen (s : RestlsOpen σ) : RestlsOpen σ :=
  if s.result.isSome then s
  else if s.box.queue ≠ [] then { s with box := s.box.next }
  else if E.isHandshakeComplete s.engine then s
  else { s with reading := true }

/-- The engine is made, which tells its first records, and `run_open` is spawned. -/
def start (engine : σ) (hello : List Output) (wire : Bytes) : RestlsOpen σ :=
  (({ engine, wire } : RestlsOpen σ).tell hello).runOpen E

def step (s : RestlsOpen σ) (act : Act) : RestlsOpen σ :=
  if s.result.isSome then s
  else
    match act with
    | .lowerWritten failure =>
      if s.box.current = none then s
      else
        match failure with
        | none => { s with box := s.box.land }.runOpen E
        | some failure => s.finish (.error (writeError "failed to write ResTLS TLS handshake" failure))
    | .lowerRead n =>
      if s.reading = false then s
      else
        let data := s.wire.take (min n (16 * 1024))
        if data = [] then s.finish (.error ⟨.transportIo, "ResTLS TLS handshake reached EOF"⟩)
        else
          let s := { s with reading := false, tlsInput := s.tlsInput ++ data, wire := s.wire.drop data.length }
          (s.processTlsRecords E hash options s.tlsInput.length).runOpen E
    -- `run_open` ends with the exception
    | .readThrows => { s with reading := false }
    | .timeout => if s.reading then s.finish (.error ⟨.timeout, "ResTLS TLS handshake timed out"⟩) else s
    | .abort => s.finish (.error ⟨.cancelled, "ResTLS TLS handshake was cancelled"⟩)

end RestlsOpen

/-! ## JLS -/

/-- What `JlsStream::create` is given: the engine, the plaintext that it has told, and the lower stream.
-/
structure JlsOpened (σ : Type) where
  engine : σ
  pendingPlain : Bytes
  wire : Bytes

/-- **`JlsOpenOperation`.**  `told` are the bytes that the engine was given. -/
structure JlsOpen (σ : Type) where
  engine : σ
  outputs : List Output := []
  box : Outbox := {}
  reading : Bool := false
  handshakeComplete : Bool := false
  pendingPlain : Bytes := []
  told : Bytes := []
  wire : Bytes
  result : Option (Except Error (JlsOpened σ)) := none

namespace JlsOpen

variable {σ : Type} (E : Engine σ)

def finish (s : JlsOpen σ) (result : Except Error (JlsOpened σ)) : JlsOpen σ :=
  if s.result.isSome then s else { s with result := some result }

def maybeOpen (s : JlsOpen σ) : JlsOpen σ :=
  if s.result.isSome ∨ s.handshakeComplete = false ∨ s.box.queue ≠ [] then s
  else if E.authenticated s.engine = false then
    s.finish (.error ⟨.authentication, "JLS TLS handshake did not authenticate the peer"⟩)
  else { s with result := some (.ok ⟨s.engine, s.pendingPlain, s.wire⟩) }

def tellOne (s : JlsOpen σ) : Output → JlsOpen σ
  | .record bytes _ => if s.result.isSome then s else { s with box := s.box.push bytes }.maybeOpen E
  | .plain bytes => { s with pendingPlain := s.pendingPlain ++ bytes }

def tell (s : JlsOpen σ) (outputs : List Output) : JlsOpen σ :=
  outputs.foldl (tellOne E) { s with outputs := s.outputs ++ outputs }

/-- `run_open`, from a flush of the records on; before the first read `maybe_open` finds the handshake
incomplete. -/
def runOpen (s : JlsOpen σ) : JlsOpen σ :=
  if s.result.isSome then s
  else if s.box.queue ≠ [] then { s with box := s.box.next }
  else
    let s := s.maybeOpen E
    if s.result.isSome ∨ s.handshakeComplete then s else { s with reading := true }

def start (engine : σ) (hello : List Output) (wire : Bytes) : JlsOpen σ :=
  (({ engine, wire } : JlsOpen σ).tell E hello).runOpen E

def step (s : JlsOpen σ) (act : Act) : JlsOpen σ :=
  if s.result.isSome then s
  else
    match act with
    | .lowerWritten failure =>
      if s.box.current = none then s
      else
        match failure with
        | none => { s with box := s.box.land }.runOpen E
        | some failure => s.finish (.error (writeError "failed to write JLS TLS record" failure))
    | .lowerRead n =>
      if s.reading = false then s
      else
        let data := s.wire.take (min n (16 * 1024))
        if data = [] then s.finish (.error ⟨.transportIo, "JLS TLS handshake reached EOF"⟩)
        else
          let s := { s with reading := false, told := s.told ++ data, wire := s.wire.drop data.length }
          match E.receivedData s.engine data with
          | (outputs, .error what) => (s.tell E outputs).finish
            (.error (thrown "JLS TLS handshake failed" "JLS TLS handshake failed" what))
          | (outputs, .ok engine) =>
            let s := { s.tell E outputs with engine }
            { s with handshakeComplete := s.handshakeComplete || E.isHandshakeComplete engine }.runOpen E
    | .readThrows => { s with reading := false }
    | .timeout => if s.reading then s.finish (.error ⟨.timeout, "JLS TLS handshake timed out"⟩) else s
    | .abort => s.finish (.error ⟨.cancelled, "JLS TLS handshake was cancelled"⟩)

end JlsOpen

/-! ## Shadow-TLS v3 -/

structure ShadowTlsV3Options where
  password : Bytes
  mac : HmacSha1
  sha256 : Bytes → Bytes

/-- **`ShadowTlsV3OpenOperation`.**  A read and a write of the lower stream are outstanding beside each
other; `atOnce` tells which of the next writes complete as soon as they are started, and whether they
fail. -/
structure ShadowTlsV3Open (σ : Type) where
  engine : σ
  outputs : List Output := []
  box : Outbox := {}
  reading : Bool := false
  handshakeComplete : Bool := false
  authorized : Bool := false
  serverRandom : Bytes := []
  bridgeChain : Bytes := []
  readKey : Bytes := []
  pendingPlain : Bytes := []
  input : Bytes := []
  consumed : List Bytes := []
  atOnce : List (Option Bool) := []
  wire : Bytes
  result : Option (Except Error (ShadowTls.State Chains Bytes)) := none

namespace ShadowTlsV3Open

variable {σ : Type} (E : Engine σ) (options : ShadowTlsV3Options)

def finish (s : ShadowTlsV3Open σ) (result : Except Error (ShadowTls.State Chains Bytes)) : ShadowTlsV3Open σ :=
  if s.result.isSome then s else { s with result := some result }

def maybeOpen (s : ShadowTlsV3Open σ) : ShadowTlsV3Open σ :=
  if s.result.isSome ∨ s.handshakeComplete = false ∨ s.authorized = false ∨ s.serverRandom.length ≠ 32 ∨
    s.box.current.isSome ∨
      s.box.queue ≠ [] then s
  else
    let chains : Chains := ⟨s.bridgeChain, s.serverRandom ++ [0x53]⟩
    { s with result := some (.ok (ShadowTls.opened chains
      (s.serverRandom ++ [0x43]) s.pendingPlain s.input s.wire)) }

/-- `start_tls_write`, where at most `n` writes complete at once, each with the rest of `run_tls_write`.
-/
def startTlsWriteWith : Nat → ShadowTlsV3Open σ → ShadowTlsV3Open σ
  | n, s =>
    if s.result.isSome ∨ s.box.current.isSome ∨ s.box.queue = [] then s
    else
      match n, s.atOnce with
      | n + 1, some fails :: atOnce =>
        if fails then
          { s with box := { s.box.next with current := none }, atOnce }.finish
          (.error ⟨.transportIo, "failed to write Shadow-TLS v3 TLS record"⟩)
        else (startTlsWriteWith n { s with box := s.box.next.land, atOnce }).maybeOpen
      | _, atOnce => { s with box := s.box.next, atOnce := atOnce.tail }

def startTlsWrite (s : ShadowTlsV3Open σ) : ShadowTlsV3Open σ := s.startTlsWriteWith s.atOnce.length

def tellOne (s : ShadowTlsV3Open σ) : Output → ShadowTlsV3Open σ
  | .record bytes _ => if s.result.isSome then s else { s with box := s.box.push bytes }.startTlsWrite.maybeOpen
  | .plain bytes => { s with pendingPlain := s.pendingPlain ++ bytes }

def tell (s : ShadowTlsV3Open σ) (outputs : List Output) : ShadowTlsV3Open σ :=
  outputs.foldl tellOne { s with outputs := s.outputs ++ outputs }

def readWire (s : ShadowTlsV3Open σ) : ShadowTlsV3Open σ :=
  if s.result.isSome ∨ s.reading ∨ s.handshakeComplete then s else { s with reading := true }

def xorWithKey (data key : Bytes) : Bytes := data.mapIdx fun index byte =>
    byte ^^^ key.getD (index % key.length) 0

def rememberServerHello (s : ShadowTlsV3Open σ) (frame : Bytes) : ShadowTlsV3Open σ :=
  if frame.getD 0 0 = 22 ∧ 5 + 1 + 3 + 2 + 32 ≤ frame.length ∧ frame.getD 5 0 = 2 ∧ s.serverRandom = [] then
    let serverRandom := (frame.drop (5 + 1 + 3 + 2)).take 32
    { s with
      serverRandom, bridgeChain := serverRandom,
      readKey := options.sha256 (options.password ++ serverRandom) }
  else s

def unbridge (s : ShadowTlsV3Open σ) (frame : Bytes) : Except String (Bytes × ShadowTlsV3Open σ) :=
  if frame.getD 0 0 = kApplicationRecord ∧ s.bridgeChain ≠ [] then
    if frame.length < kTlsHeaderSize + kTlsHmacSize then .error "invalid Shadow-TLS v3 authenticated TLS record"
    else
      match verifyChain options.mac s.bridgeChain frame false with
      | none => .error "Shadow-TLS v3 bridge HMAC mismatch"
      | some next =>
        let payload := xorWithKey (payloadOf frame) s.readKey
        .ok (frame.take 3 ++ Wire.putU16 payload.length ++
          payload, { s with bridgeChain := next, authorized := true })
  else .ok (frame, s)

/-- `process_frame`: with the exception that it throws. -/
def processFrame (s : ShadowTlsV3Open σ) (frame : Bytes) : Option (Option String) × ShadowTlsV3Open σ :=
  let s := s.rememberServerHello options frame
  match s.unbridge options frame with
  | .error what => (some (some what), s)
  | .ok (frame, s) =>
    match E.receivedData s.engine frame with
    | (outputs, .error what) => (some what, s.tell outputs)
    | (outputs, .ok engine) =>
      let s := { s.tell outputs with engine }
      if E.isHandshakeComplete engine then (none, { s with handshakeComplete := true }.maybeOpen) else (none, s)

def processInput : Nat → ShadowTlsV3Open σ → Option (Option String) × ShadowTlsV3Open σ
  | 0, s => (none, s)
  | n + 1, s =>
    let size := getU16 (s.input.drop 3)
    if s.handshakeComplete ∨ s.input.length < kTlsHeaderSize then (none, s)
    else if size = 0 then (some (some "invalid Shadow-TLS v3 TLS record length"), s)
    else if s.input.length < kTlsHeaderSize + size then (none, s)
    else
      let frame := s.input.take (kTlsHeaderSize + size)
      match { s with
          input := s.input.drop (kTlsHeaderSize + size),
          consumed := s.consumed ++ [frame] }.processFrame E options frame with
      | (some what, s) => (some what, s)
      | (none, s) => processInput n s

/-- The engine is made, which tells its first records, and a read is started. -/
def start (engine : σ) (hello : List Output) (wire : Bytes) (atOnce : List (Option Bool)) : ShadowTlsV3Open σ :=
  (({ engine, wire, atOnce } : ShadowTlsV3Open σ).tell hello).readWire.startTlsWrite

structure Event where
  act : Act
  atOnce : List (Option Bool) := []
  deriving DecidableEq, Repr

def step (s : ShadowTlsV3Open σ) (event : Event) : ShadowTlsV3Open σ :=
  let s := { s with atOnce := event.atOnce }
  if s.result.isSome then s
  else
    match event.act with
    | .lowerWritten failure =>
      if s.box.current = none then s
      else
        match failure with
        | none => { s with box := s.box.land }.startTlsWrite.maybeOpen
        | some _ => { s with box := { s.box with current := none } }.finish
          (.error ⟨.transportIo, "failed to write Shadow-TLS v3 TLS record"⟩)
    | .lowerRead n =>
      if s.reading = false then s
      else
        let data := s.wire.take (min n (16 * 1024))
        if data = [] then { s with reading := false }.finish (.error
          ⟨.transportIo, "Shadow-TLS v3 handshake reached EOF"⟩)
        else
          let s := { s with reading := false, input := s.input ++ data, wire := s.wire.drop data.length }
          match s.processInput E options s.input.length with
          | (some what, s) => s.finish (.error (thrown
            "Shadow-TLS v3 handshake failed" "Shadow-TLS v3 handshake failed" what))
          | (none, s) => if s.handshakeComplete then s else s.readWire
    | .readThrows =>
      if s.reading = false then s
      else { s with reading := false }.finish (.error ⟨.transportIo, "failed to read Shadow-TLS v3 TLS record"⟩)
    | .timeout => s.finish (.error ⟨.timeout, "Shadow-TLS v3 TLS handshake timed out"⟩)
    | .abort => s.finish (.error ⟨.cancelled, "Shadow-TLS v3 handshake was cancelled"⟩)

end ShadowTlsV3Open

end ClashNative.Camouflage
