import ClashNative.Runs
import Mathlib.Data.List.Infix
import Mathlib.Algebra.GroupWithZero.Nat
/-!
# KcptunSnappy — the Snappy framing of a kcptun stream

`SnappyStreamState` of `kcptun_snappy.cpp`; Snappy itself is an argument.  A handler runs inside the
function that calls it: `stack` holds what the functions go on to when their handlers return.
-/
namespace ClashNative.Kcptun.Snappy

abbrev Bytes := List UInt8

/-- `snappy::Compress`, and `GetUncompressedLength` with `RawUncompress`. -/
structure Codec where
  compress : Bytes → Bytes
  uncompress : Bytes → Option Bytes

def stored : Codec := ⟨fun data => data, some⟩

def kStreamIdentifier : Bytes := [0xff, 0x06, 0x00, 0x00, 0x73, 0x4e, 0x61, 0x50, 0x70, 0x59]
def kChunkHeaderSize : Nat := 4
def kChunkChecksumSize : Nat := 4
def kMaximumChunkPayload : Nat := 0x00ffffff
def kCompressionChunkSize : Nat := 32 * 1024

inductive StreamError
  | operationAborted | alreadyStarted | eof | protocolError | transport
  deriving DecidableEq, Repr

/-! ## Chunks -/

def putU24 (value : Nat) : Bytes := [UInt8.ofNat value, UInt8.ofNat (value / 2 ^ 8),
    UInt8.ofNat (value / 2 ^ 16)]

def putU32 (value : UInt32) : Bytes :=
  [value.toUInt8, (value >>> 8).toUInt8, (value >>> 16).toUInt8, (value >>> 24).toUInt8]

def getU24 (input : Bytes) : Nat :=
  (input.getD 0 0).toNat + (input.getD 1 0).toNat * 2 ^ 8 + (input.getD 2 0).toNat * 2 ^ 16

def getU32 (input : Bytes) : UInt32 :=
  (input.getD 0 0).toUInt32 ||| (input.getD 1 0).toUInt32 <<< 8 ||| (input.getD 2 0).toUInt32 <<< 16 |||
    (input.getD 3 0).toUInt32 <<< 24

def crcBit (value : UInt32) : UInt32 := if value &&& 1 ≠ 0 then (value >>> 1) ^^^ 0x82f63b78 else value >>> 1

def crcEntry (index : UInt32) : UInt32 := (List.range 8).foldl (fun value _ => crcBit value) index

def crc32c (input : Bytes) : UInt32 :=
  input.foldl (fun value byte => crcEntry ((value ^^^ byte.toUInt32) &&& 0xff) ^^^ (value >>> 8))
    0xffffffff ^^^ 0xffffffff

def maskedCrc32c (input : Bytes) : UInt32 :=
  let value := crc32c input
  ((value >>> 15) ||| (value <<< 17)) + 0xa282ead8

def appendChunk (codec : Codec) (plaintext : Bytes) : Bytes :=
  let compressed := codec.compress plaintext
  let useCompressed : Bool := compressed.length + kChunkChecksumSize < plaintext.length + kChunkChecksumSize
  let payload := if useCompressed then compressed else plaintext
  if payload.length + kChunkChecksumSize > kMaximumChunkPayload then []
  else (if useCompressed then 0x00 else 0x01) :: (putU24 (payload.length + kChunkChecksumSize) ++
    (putU32 (maskedCrc32c plaintext) ++ payload))

def appendChunks (codec : Codec) : Nat → Bytes → Bytes
  | 0, _ => []
  | n + 1, data =>
    if data = [] then []
    else appendChunk codec (data.take kCompressionChunkSize) ++ appendChunks codec n
    (data.drop kCompressionChunkSize)

def decodeChunk (codec : Codec) (type : UInt8) (payload : Bytes) : Except StreamError Bytes :=
  let data := payload.drop kChunkChecksumSize
  match if type = 0x00 then codec.uncompress data else some data with
  | none => .error .protocolError
  | some decoded => if maskedCrc32c decoded ≠ getU32 payload then .error .protocolError else .ok decoded

/-! ## The stream -/

inductive Stage
  | identifier
  | header
  | payload (type : UInt8) (length : Nat)
  | skip (length : Nat)
  deriving DecidableEq, Repr

def Stage.size : Stage → Nat
  | .identifier => kStreamIdentifier.length
  | .header => kChunkHeaderSize
  | .payload _ length => length
  | .skip length => length

structure PendingWrite where
  packet : Bytes
  size : Nat
  cancelled : Bool := false
  handler : Bool := true
  deriving DecidableEq, Repr

inductive Resume
  | pumpWrite
  | finishWrite (error : StreamError)
  | close
  deriving DecidableEq, Repr

/-- `incoming` holds the bytes of `incoming_` from `incoming_offset_` on; `got` what `read_exact` has;
`reading`: the read loop is waiting for its transport.  Writes are numbered, `pending` are their objects.
`reads` and `calls` are the handler calls; `decoded`, `written`, `failed` (`close_with_error` was called)
and `told` (a read has ended behind it) are for the statements. -/
structure StreamState where
  stage : Stage := .identifier
  got : Bytes := []
  reading : Bool := true
  incoming : Bytes := []
  remoteClosed : Bool := false
  readHandler : Option Nat := none
  writeIdentifierSent : Bool := false
  writeHandler : Option Nat := none
  writes : List Nat := []
  inFlight : Option Nat := none
  pending : Nat → PendingWrite := fun _ => ⟨[], 0, false, false⟩
  next : Nat := 0
  closed : Bool := false
  stack : List Resume := []
  reads : List (Except StreamError Bytes) := []
  calls : List (Nat × Except StreamError Nat) := []
  decoded : Bytes := []
  written : List Nat := []
  failed : Bool := false
  told : Bool := false

namespace StreamState

def readDone (s : StreamState) (result : Except StreamError Bytes) : StreamState :=
  { s with reads := s.reads ++ [result] }

def call (s : StreamState) (id : Nat) (result : Except StreamError Nat) : StreamState :=
  { s with calls := s.calls ++ [(id, result)] }

def modify (s : StreamState) (id : Nat) (f : PendingWrite → PendingWrite) : StreamState :=
  { s with pending := fun i => if i = id then f (s.pending i) else s.pending i }

/-! ### Reads -/

def finishRead (s : StreamState) (error : StreamError) : StreamState :=
  match s.readHandler with
  | none => s
  | some _ => ({ s with readHandler := none, told := s.told || s.failed }).readDone (.error error)

def deliverRead (s : StreamState) : StreamState :=
  match s.readHandler with
  | none => s
  | some size =>
    if s.incoming = [] then if s.remoteClosed then s.finishRead .eof else s
    else ({ s with readHandler := none, incoming := s.incoming.drop size }).readDone (.ok (s.incoming.take size))

def asyncReadSome (s : StreamState) (size : Nat) : StreamState :=
  if s.closed then ({ s with told := s.told || s.failed }).readDone (.error .operationAborted)
  else if s.readHandler.isSome then s.readDone (.error .alreadyStarted)
  else if size = 0 then s.readDone (.ok [])
  else { s with readHandler := some size }.deliverRead

def cancelRead (s : StreamState) : StreamState :=
  match s.readHandler with
  | none => s
  | some _ => ({ s with readHandler := none }).readDone (.error .operationAborted)

/-! ### The end -/

def failQueued (s : StreamState) (error : StreamError) : List Nat → StreamState
  | [] => s
  | id :: rest =>
    if (s.pending id).cancelled = false ∧
    (s.pending id).handler then failQueued (s.call id (.error error)) error rest
    else failQueued s error rest

def finishWrite (s : StreamState) (error : StreamError) : StreamState :=
  let s' := { ({ s with writeHandler := none }).failQueued error s.writes with writes := [] }
  match s.writeHandler with
  | none => s'
  | some id => if (s'.pending id).cancelled = false ∧
    (s'.pending id).handler then s'.call id (.error error) else s'

def close (s : StreamState) : StreamState :=
  if s.closed then s else (({ s with closed := true }).finishRead .operationAborted).finishWrite
    .operationAborted

/-- `close_with_error`, up to the handler that it calls. -/
def closeWithError (s : StreamState) (error : StreamError) : StreamState :=
  if s.closed then s
  else
    let s := ({ s with failed := true }).finishRead error
    { s with stack := .finishWrite error :: .close :: s.stack }

/-! ### The read loop -/

def stopReading (s : StreamState) (error : StreamError) : StreamState :=
  ({ s with reading := false }).closeWithError error

def receive (s : StreamState) (decoded : Bytes) : StreamState :=
  { ({ s with incoming := s.incoming ++ decoded, decoded := s.decoded ++ decoded }).deliverRead
    with stage := .header, got := [] }

/-- The handler of `read_exact` is called with its bytes. -/
def stageRead (s : StreamState) (codec : Codec) (bytes : Bytes) : StreamState :=
  match s.stage with
  | .identifier =>
    if bytes ≠ kStreamIdentifier then s.stopReading .protocolError
    else { s with stage := .header, got := [] }
  | .header =>
    let type := bytes.getD 0 0
    let length := getU24 (bytes.drop 1)
    if 0x80 ≤ type ∧ type ≤ 0xfe then
      if length = 0 then { s with got := [] } else { s with stage := .skip length, got := [] }
    else if (type ≠ 0x00 ∧ type ≠ 0x01) ∨ length < kChunkChecksumSize then
      s.stopReading .protocolError
    else { s with stage := .payload type length, got := [] }
  | .payload type _ =>
    match decodeChunk codec type bytes with
    | .error e => s.stopReading e
    | .ok decoded => s.receive decoded
  | .skip _ => { s with stage := .header, got := [] }

/-- A read of the transport completes, with at most what `read_exact` has left.  It does so outside of
every handler. -/
def arrive (s : StreamState) (codec : Codec) (bytes : Bytes) : StreamState :=
  if s.reading = false ∨ s.stack ≠ [] then s
  else if s.closed then { s with reading := false }
  else if bytes = [] then s.stopReading .eof
  else if s.stage.size < s.got.length + bytes.length then s
  else if s.got.length + bytes.length < s.stage.size then { s with got := s.got ++ bytes }
  else s.stageRead codec (s.got ++ bytes)

def arriveError (s : StreamState) (error : StreamError) : StreamState :=
  if s.reading = false ∨ s.stack ≠ [] then s else s.stopReading error

/-! ### Writes -/

def pumpWrite (s : StreamState) : StreamState :=
  if s.closed ∨ s.inFlight.isSome then s
  else
    match s.writes with
    | [] => s
    | id :: rest => { s with writes := rest, inFlight := some id }

def asyncWrite (s : StreamState) (codec : Codec) (data : Bytes) : StreamState :=
  let id := s.next
  let s := { s with next := s.next + 1 }
  if s.closed then s.call id (.error .operationAborted)
  else if s.writeHandler.isSome then s.call id (.error .alreadyStarted)
  else if data = [] then s.call id (.ok 0)
  else
    let packet := (if s.writeIdentifierSent then [] else kStreamIdentifier) ++
      appendChunks codec data.length data
    (({ s with
        writeIdentifierSent := true, writeHandler := some id,
        writes := s.writes ++ [id] }).modify id fun _ =>
      { packet := packet, size := data.length }).pumpWrite

def cancelWrite (s : StreamState) : StreamState :=
  match s.writeHandler with
  | none => s
  | some id =>
    if (s.pending id).handler = false then { s with writeHandler := none }
    else (({ s with writeHandler := none }).modify id fun p =>
      { p with cancelled := true, handler := false }).call id
      (.error .operationAborted)

def landed (s : StreamState) (id : Nat) (failed : Bool) : StreamState :=
  { s with inFlight := none, written := if failed then s.written else s.written ++ [id] }

def succeed (s : StreamState) (id : Nat) : StreamState :=
  let s' := ({ s with writeHandler := if s.writeHandler = some id then none else s.writeHandler }).modify
    id fun p => { p with handler := false }
  { s'.call id (.ok (s.pending id).size) with stack := .pumpWrite :: s.stack }

def writeDone (s : StreamState) (failed : Bool) : StreamState :=
  match s.inFlight with
  | none => s
  | some id =>
    if failed then
      if (s.pending id).cancelled then (s.landed id true).pumpWrite else
        (s.landed id true).closeWithError .transport
    else if (s.pending id).cancelled = false ∧ (s.pending id).handler then (s.landed id false).succeed id
    else (s.landed id false).pumpWrite

def handlerReturned (s : StreamState) : StreamState :=
  match s.stack with
  | [] => s
  | .pumpWrite :: stack => ({ s with stack := stack }).pumpWrite
  | .finishWrite error :: stack => ({ s with stack := stack }).finishWrite error
  | .close :: stack => ({ s with stack := stack }).close

end StreamState

inductive Event
  | read (size : Nat)
  | cancelRead
  | arrive (bytes : Bytes)
  | eof
  | readError
  | write (data : Bytes)
  | cancelWrite
  | shutdownSend
  | close
  | writeDone (failed : Bool)
  | handlerReturned
  deriving DecidableEq, Repr

def StreamState.step (codec : Codec) (s : StreamState) : Event → StreamState
  | .read size => s.asyncReadSome size
  | .cancelRead => s.cancelRead
  | .arrive bytes => s.arrive codec bytes
  | .eof => s.arriveError .eof
  | .readError => s.arriveError .transport
  | .write data => s.asyncWrite codec data
  | .cancelWrite => s.cancelWrite
  | .shutdownSend => s
  | .close => s.close
  | .writeDone failed => s.writeDone failed
  | .handlerReturned => s.handlerReturned

def run (codec : Codec) (events : List Event) : StreamState := Runs.run (StreamState.step codec) {} events

end ClashNative.Kcptun.Snappy
