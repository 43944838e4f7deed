import ClashNative.AeadRecords
import ClashNative.LegacyStream
/-!
# RecordStream — reads of a Shadowsocks record stream

What `Shadowsocks2022StreamState` (`ss2022_stream.cpp`), `ShadowsocksStreamHandle::State`
(`shadowsocks_outbound.cpp`) and `TrojanSsStreamState` (`ss_stream.cpp`) share: the parked read, the
plaintext that is left over and the reads of exactly so many bytes. The lower stream and the obfs readers
bring the next bytes of the server's stream, as many as an event says.
-/
namespace ClashNative.Shadowsocks

open LegacyStream (ObfsMode)

abbrev Bytes := List UInt8

inductive StreamError
  | eof | transport | operationAborted | alreadyStarted | protocolError | authenticationError | fault
  deriving DecidableEq, Repr

/-- `CipherMethod`, of an AEAD method; `deriveKey` from the salt (the password is fixed). -/
structure CipherMethod (κ : Type) extends Wire.Aead κ where
  keySize : Nat
  nonceSize : Nat
  deriveKey : Bytes → Option κ
  keySize_pos : 0 < keySize

def kMaxChunkPayload : Nat := 0x3fff

def incrementNonce : Bytes → Bytes
  | [] => []
  | byte :: rest => if byte + 1 ≠ 0 then (byte + 1) :: rest else (byte + 1) :: incrementNonce rest

inductive Stage
  | salt
  | responseFixed
  | responseVariable (size : Nat)
  | length
  | payload (size : Nat)
  deriving DecidableEq, Repr

/-- What is outstanding: the reader of the obfs response, `read_exact_carrier` or `read_exact_tls` with
what they have of `size` bytes, and the handler of `read_exact` where it is posted. -/
inductive Op
  | obfsResponse
  | carrier (stage : Stage) (size : Nat) (got : Bytes)
  | obfsRecord (stage : Stage) (size : Nat) (copied : Bytes)
  | exact (stage : Stage) (bytes : Bytes)
  deriving DecidableEq, Repr

/-- `initialWire` and `pendingPlaintext` are the bytes from their offsets on, `readBuffer` the size of the
caller's buffer.  `wire` is what the lower stream has not brought yet, `ended` how it has ended.
`results`: the handler calls, each where it is decided. -/
structure State (κ : Type) where
  initialWire : Bytes := []
  obfsResponseReady : Bool := true
  readKey : Option κ := none
  readNonce : Bytes
  responseHeaderReady : Bool := false
  pendingPlaintext : Bytes := []
  readBuffer : Nat := 0
  readHandler : Option Nat := none
  readInProgress : Bool := false
  closed : Bool := false
  ops : List Op := []
  wire : Bytes
  ended : Option StreamError := none
  results : List (Nat × Except StreamError Bytes) := []
  reads : Nat := 0

def dataOf : Except StreamError Bytes → Bytes
  | .ok data => data
  | .error _ => []

namespace State

variable {κ : Type}

def delivered (s : State κ) : Bytes := s.results.flatMap fun r => dataOf r.2

def incrementReadNonce (s : State κ) : State κ := { s with readNonce := incrementNonce s.readNonce }

def answer (s : State κ) (result : Except StreamError Bytes) : State κ :=
  { s with results := s.results ++ [(s.reads, result)], reads := s.reads + 1 }

def park (s : State κ) (size : Nat) : State κ :=
  { s with readInProgress := true, readBuffer := size, readHandler := some s.reads, reads := s.reads + 1 }

def finishRead (s : State κ) (result : Except StreamError Bytes) : State κ :=
  { s with
    readInProgress := false
    readHandler := none
    readBuffer := 0
    results := match s.readHandler with
      | none => s.results
      | some id => s.results ++ [(id, result)] }

def cancelRead (s : State κ) : State κ :=
  match s.readHandler with
  | none => s
  | some _ => s.finishRead (.error .operationAborted)

def copy (s : State κ) : State κ :=
  { s with pendingPlaintext := s.pendingPlaintext.drop s.readBuffer }.finishRead
  (.ok (s.pendingPlaintext.take s.readBuffer))

/-! ### The lower stream -/

/-- A read of the lower stream, with a buffer for `room` bytes, of which it fills at most `n`. -/
def lowerRead (s : State κ) (room n : Nat) : Except StreamError Bytes × State κ :=
  match s.ended with
  | some e => (.error e, s)
  | none =>
    if s.wire.take (min n room) = [] then (.error .eof, { s with ended := some .eof })
    else (.ok (s.wire.take (min n room)), { s with wire := s.wire.drop (min n room) })

def lowerFails (s : State κ) (e : StreamError) : State κ := { s with ended := s.ended.or (some e) }

/-! ### `read_exact` -/

def start (s : State κ) (op : Op) : State κ := { s with ops := s.ops ++ [op] }

def readExactTls (s : State κ) (stage : Stage) (size : Nat) (copied : Bytes) : State κ :=
  let copied' := copied ++ s.initialWire.take (size - copied.length)
  let s := { s with initialWire := s.initialWire.drop (size - copied.length) }
  if copied'.length = size then s.start (.exact stage copied') else s.start (.obfsRecord stage size copied')

def readExact (mode : ObfsMode) (s : State κ) (stage : Stage) (size : Nat) : State κ :=
  if mode = .tls then s.readExactTls stage size []
  else
    let copied := s.initialWire.take size
    let s := { s with initialWire := s.initialWire.drop size }
    if copied.length = size then s.start (.exact stage copied) else s.start (.carrier stage size copied)

end State

/-! ### The two streams over a carrier -/

/-- What the two classes do in their own way: `obfsFailure`: the error of a reader of the obfs layer;
`receive`: what `read` starts when the obfs response is there; `received`: what `read_exact` goes on to.
-/
structure Reader (κ : Type) where
  mode : ObfsMode
  obfsFailure : StreamError
  receiveSalt : State κ → State κ
  receive : State κ → State κ
  received : State κ → Stage → Bytes → State κ

namespace Reader

variable {κ : Type} (r : Reader κ)

def read (s : State κ) (size : Nat) : State κ :=
  if s.readInProgress then s.answer (.error .alreadyStarted)
  else if size = 0 then s.answer (.ok [])
  else if s.pendingPlaintext ≠ [] then (s.park size).copy
  else if !s.obfsResponseReady then (s.park size).start .obfsResponse
  else r.receive (s.park size)

def obfsResponseRead (s : State κ) : Option Bytes → State κ
  | none => s.finishRead (.error r.obfsFailure)
  | some payload => r.receiveSalt { s with initialWire := payload, obfsResponseReady := true }

def obfsResponse (s : State κ) (n : Nat) : State κ :=
  if s.ended.isSome ∨ r.mode = .tls ∧ s.wire.take n = [] then r.obfsResponseRead (s.lowerFails .eof) none
  else r.obfsResponseRead { s with wire := s.wire.drop n } (some (s.wire.take n))

def carrierRead (s : State κ) (stage : Stage) (size : Nat) (got : Bytes) (n : Nat) : State κ :=
  match s.lowerRead (size - got.length) n with
  | (.error e, s) => s.finishRead (.error e)
  | (.ok chunk, s) =>
    if (got ++ chunk).length = size then r.received s stage (got ++ chunk) else
      s.start (.carrier stage size (got ++ chunk))

def obfsRecord (s : State κ) (stage : Stage) (size : Nat) (copied : Bytes) (n : Nat) : State κ :=
  match s.lowerRead n n with
  | (.error _, s) => s.finishRead (.error r.obfsFailure)
  | (.ok payload, s) => { s with initialWire := payload }.readExactTls stage size copied

/-- An operation completes, with at most `n` bytes of the lower stream. -/
def complete (s : State κ) (n : Nat) : Op → State κ
  | .obfsResponse => r.obfsResponse s n
  | .carrier stage size got => r.carrierRead s stage size got n
  | .obfsRecord stage size copied => r.obfsRecord s stage size copied n
  | .exact stage bytes => r.received s stage bytes

def close (s : State κ) : State κ := (s.lowerFails .operationAborted).finishRead (.error .operationAborted)

end Reader

inductive Event
  | read (size : Nat)
  | cancelRead
  | close
  | lowerFails
  | complete (i n : Nat)
  deriving DecidableEq, Repr

def Reader.step {κ : Type} (r : Reader κ) (s : State κ) : Event → State κ
  | .read size => r.read s size
  | .cancelRead => s.cancelRead
  | .close => close s
  | .lowerFails => s.lowerFails .transport
  | .complete i n =>
    match s.ops[i]? with
    | none => s
    | some op => r.complete { s with ops := s.ops.eraseIdx i } n op

variable {i : Nat} {κ : Type}

theorem Reader.step_complete {r : Reader κ} {s : State κ} {op : Op} (hop : s.ops[i]? = some op) (n : Nat) :
    r.step s (.complete i n) = r.complete { s with ops := s.ops.eraseIdx i } n op := by
  unfold Reader.step
  dsimp only
  rw [hop]

theorem Reader.step_complete_none {r : Reader κ} {s : State κ} (hop : s.ops[i]? = none) (n : Nat) :
    r.step s (.complete i n) = s := by
  unfold Reader.step
  dsimp only
  rw [hop]

/-! ### A method for examples -/

/-- The method of `Wire.tagAead`; the salt is the key. -/
def tagMethod : CipherMethod Bytes where
  toAead := Wire.tagAead
  keySize := 16
  nonceSize := 12
  deriveKey := some
  keySize_pos := by decide

/-! ### What the server sends -/

structure Server {κ : Type} (method : CipherMethod κ) where
  salt : Bytes
  key : κ
  payloads : List Bytes
  salt_length : salt.length = method.keySize
  derive_salt : method.deriveKey salt = some key
  payload_size : ∀ payload ∈ payloads, 0 < payload.length ∧ payload.length ≤ kMaxChunkPayload

end ClashNative.Shadowsocks
