import ClashNative.Restls
/-!
# RestlsStream — the stream of ResTLS

`RestlsStream` (`restls_client.cpp`).  What is written goes out in records of the sizes that the script
tells, some of them held back until the peer has answered; the application's reads and those answers share
one read of the lower stream.

An event is a call, or the completion of the lower stream's read or write.  A handler of a write that is
called in its course may write in its turn before it returns: `replies` tells what these handlers do, one
after another.
-/
namespace ClashNative.Restls

open Wire (getU16)

def kMaxTlsRecordPayload : Nat := 16384

def RestlsCommand.needsPeerResponse (command : RestlsCommand) : Bool := command.kind = .response

/-- A line of the script, within what `parse_restls_script` accepts. -/
structure RestlsScriptLine where
  targetLength : Nat
  randomRange : Nat := 0
  command : RestlsCommand := {}
  fits : targetLength + randomRange ≤ 32768 := by decide
  deriving DecidableEq, Repr

inductive StreamError
  | eof | fault | transport | operationAborted | alreadyStarted
  deriving DecidableEq, Repr

structure Env where
  hash : KeyedHash
  rng : Nat → UInt8

/-- Who has started the read of the lower stream: `pump_read` or `ensure_control_read`. -/
inductive LowerRead
  | pump | control
  deriving DecidableEq, Repr

/-- The record that the lower stream writes: a piece of a write, or one that answers the peer. -/
inductive LowerWrite
  | data (owner chunk : Nat) (needsResponse : Bool) (wire : Bytes)
  | control (wire : Bytes)
  deriving DecidableEq, Repr

/-- **The stream.**  `pendingPlain` is what is left from its offset on, `lowerRead` and `inFlight` are
what the two flags tell.  `overrun` is set where the source reads behind the end of what is staged.
`wire` is what the lower stream has not brought yet, `ended` how it has ended; a call is known by its
place among the calls, and `sent` are the data of the records that were encoded. -/
structure RestlsStream where
  encoder : RestlsApplicationCodec
  decoder : RestlsApplicationCodec
  script : List RestlsScriptLine
  scriptIndex : Nat := 0
  drawn : Nat := 0
  readWire : Bytes
  pendingPlain : Bytes := []
  readBuffer : Nat := 0
  readHandler : Option Nat := none
  lowerRead : Option LowerRead := none
  pendingWrite : Bytes := []
  pendingWriteOffset : Nat := 0
  pendingWriteSize : Nat := 0
  writeHandler : Option Nat := none
  inFlight : Option LowerWrite := none
  writeWaitingResponse : Bool := false
  pendingControlResponses : Nat := 0
  overrun : Bool := false
  wire : Bytes
  ended : Option StreamError := none
  replies : List (Option Bytes) := []
  readResults : List (Nat × Except StreamError Bytes) := []
  reads : Nat := 0
  writeResults : List (Nat × Except StreamError Nat) := []
  writes : List Bytes := []
  sent : List (Nat × Bytes) := []

namespace RestlsStream

variable (env : Env)

/-! ## Reads -/

def finishRead (s : RestlsStream) (result : Except StreamError Bytes) : RestlsStream :=
  { s with
    readHandler := none
    readResults := match s.readHandler with
      | none => s.readResults
      | some id => s.readResults ++ [(id, result)] }

def postRead (s : RestlsStream) (result : Except StreamError Bytes) : RestlsStream :=
  { s with readResults := s.readResults ++ [(s.reads, result)], reads := s.reads + 1 }

/-- `deliver_pending`, where it is true: a read is parked and there is plaintext. -/
def deliverPending (s : RestlsStream) : RestlsStream :=
  { s with pendingPlain := s.pendingPlain.drop s.readBuffer }.finishRead (.ok (s.pendingPlain.take s.readBuffer))

def cancelRead (s : RestlsStream) : RestlsStream :=
  if s.readHandler = none then s else { s with readBuffer := 0 }.finishRead (.error .operationAborted)

/-! ## Writes -/

def postWrite (s : RestlsStream) (buffer : Bytes) (result : Except StreamError Nat) : RestlsStream :=
  { s with writeResults := s.writeResults ++ [(s.writes.length, result)], writes := s.writes ++ [buffer] }

def cancelWrite (s : RestlsStream) : RestlsStream :=
  match s.writeHandler with
  | none => s
  | some id =>
    { s with
      writeHandler := none
      pendingWrite := []
      pendingWriteOffset := 0
      pendingWriteSize := 0
      writeWaitingResponse := false
      writeResults := s.writeResults ++ [(id, .error .operationAborted)] }

/-- `script_target`, with four bytes of the generator where the line has a range. -/
def scriptTarget (s : RestlsStream) (line : RestlsScriptLine) : Nat × RestlsStream :=
  if line.randomRange = 0 then (line.targetLength, s)
  else
    let value := (List.range 4).foldl (fun value i => value * 256 + (env.rng (s.drawn + i)).toNat) 0
    (line.targetLength + value % line.randomRange, { s with drawn := s.drawn + 4 })

/-- The next line of the script: its target and its command; `otherwise` is the target where there is
none. -/
def nextLine (s : RestlsStream) (otherwise : Nat) : Nat × RestlsCommand × RestlsStream :=
  match s.script[s.scriptIndex]? with
  | none => (otherwise, {}, s)
  | some line => ((s.scriptTarget env line).1, line.command, (s.scriptTarget env line).2)

def ensureControlRead (s : RestlsStream) : RestlsStream :=
  if s.lowerRead.isSome then s else { s with lowerRead := some .control }

section Pump

-- `finish_write`, which calls a handler that may write in its turn
variable (finish : RestlsStream → Except StreamError Nat → RestlsStream)

def pumpControlWrite (s : RestlsStream) : RestlsStream :=
  if s.pendingControlResponses = 0 ∨ s.inFlight.isSome then s
  else
    let (target, command, s) := s.nextLine env 32
    match s.encoder.encode env.hash [] 0 (min target 65535) command with
    | (.error _, encoder) => finish ({ s with encoder }.finishRead (.error .fault)) (.error .fault)
    | (.ok wire, encoder) => { s with encoder, inFlight := some (.control wire) }

def pumpWrite (s : RestlsStream) : RestlsStream :=
  if s.inFlight.isSome then s
  else if s.pendingControlResponses ≠ 0 then s.pumpControlWrite env finish
  else if s.writeWaitingResponse then s.ensureControlRead
  else
    match s.writeHandler with
    | none => s
    | some owner =>
      if s.pendingWriteOffset = s.pendingWrite.length then finish s (.ok s.pendingWriteSize)
      else if s.pendingWrite.length < s.pendingWriteOffset then { s with overrun := true }
      else
        let remaining := s.pendingWrite.length - s.pendingWriteOffset
        let (target, command, s) := s.nextLine env remaining
        let target := min (if target = 0 then min 16384 remaining else target) 65535
        let chunk := min remaining target
        let data := s.pendingWrite.drop s.pendingWriteOffset
        match s.encoder.encode env.hash data chunk (target - chunk) command with
        | (.error _, encoder) => finish { s with encoder } (.error .fault)
        | (.ok wire, encoder) =>
          { s with encoder, inFlight := some (.data owner chunk command.needsPeerResponse wire), sent :=
            s.sent ++ [(owner, data.take chunk)] }

def writeImpl (s : RestlsStream) (buffer : Bytes) : RestlsStream :=
  if s.writeHandler.isSome then s.postWrite buffer (.error .alreadyStarted)
  else if buffer = [] then s.postWrite buffer (.ok 0)
  else
    { s with
      pendingWrite := buffer
      pendingWriteOffset := 0
      pendingWriteSize := buffer.length
      writeHandler := some s.writes.length
      writes := s.writes ++ [buffer] }.pumpWrite env finish

end Pump

def callWriter (s : RestlsStream) (result : Except StreamError Nat) : RestlsStream :=
  { s with
    writeHandler := none
    writeResults := match s.writeHandler with
      | none => s.writeResults
      | some id => s.writeResults ++ [(id, result)] }

/-- The rest of `finish_write`, when the handler has returned. -/
def clearWrite (s : RestlsStream) : RestlsStream :=
  { s with pendingWrite := [], pendingWriteOffset := 0, pendingWriteSize := 0 }

/-- `finish_write`, where at most `n` handlers write in their turn. -/
def finishWriteWith : Nat → RestlsStream → Except StreamError Nat → RestlsStream
  | 0, s, result => (s.callWriter result).clearWrite
  | n + 1, s, result =>
    match s.writeHandler, s.replies with
    | some _, some buffer :: replies => ({ s.callWriter result with replies }.writeImpl env
        (finishWriteWith n) buffer).clearWrite
    | some _, none :: replies => { s.callWriter result with replies }.clearWrite
    | _, _ => (s.callWriter result).clearWrite

def finishWrite (s : RestlsStream) (result : Except StreamError Nat) : RestlsStream :=
  s.finishWriteWith env s.replies.length result

/-! ## What the peer sends -/

def nextRecord (wire : Bytes) : Option (Bytes × Bytes) :=
  let payloadSize := getU16 (wire.drop 3)
  if wire.length < kTlsRecordHeaderLength ∨ kMaxTlsRecordPayload < payloadSize ∨
    wire.length < kTlsRecordHeaderLength + payloadSize then none
  else some (wire.take (kTlsRecordHeaderLength + payloadSize), wire.drop (kTlsRecordHeaderLength + payloadSize))

/-- A record that was decoded: its data are kept, a write that waits goes on, and what it asks for is
answered. -/
def handleRecord (s : RestlsStream) (decoded : RestlsDecodedRecord) : RestlsStream :=
  let s := { s with pendingPlain := s.pendingPlain ++ decoded.data, writeWaitingResponse := false }
  let s := if decoded.command.kind = .response then
      { s with pendingControlResponses := s.pendingControlResponses +
        decoded.command.response.toNat }.pumpControlWrite env (finishWrite env)
    else s
  s.pumpWrite env (finishWrite env)

/-- `process_wire`, of at most `n` records: whether the parked read was called. -/
def processWire : Nat → RestlsStream → Bool × RestlsStream
  | 0, s => (false, s)
  | n + 1, s =>
    match nextRecord s.readWire with
    | none => (false, s)
    | some (record, readWire) =>
      match s.decoder.decode env.hash record with
      | (.error _, decoder) => (true, { s with readWire, decoder }.finishRead (.error .fault))
      | (.ok decoded, decoder) =>
        let s := { s with readWire, decoder }.handleRecord env decoded
        if s.readHandler.isSome ∧ s.pendingPlain ≠ [] then (true, s.deliverPending) else processWire n s

def pumpRead (s : RestlsStream) : RestlsStream :=
  if s.readHandler = none ∨ s.lowerRead.isSome then s
  else
    let processed := processWire env s.readWire.length s
    if processed.1 then processed.2 else { processed.2 with lowerRead := some .pump }

def readImpl (s : RestlsStream) (size : Nat) : RestlsStream :=
  if s.readHandler.isSome then s.postRead (.error .alreadyStarted)
  else if size = 0 then s.postRead (.ok [])
  else
    let s := { s with readBuffer := size, readHandler := some s.reads, reads := s.reads + 1 }
    if s.pendingPlain ≠ [] then s.deliverPending else s.pumpRead env

/-! ## The lower stream -/

def brings (s : RestlsStream) (n : Nat) : Bytes := if s.ended.isSome then [] else s.wire.take (min n (16 * 1024))

def lowerEnd (s : RestlsStream) : StreamError := s.ended.getD .eof

def fail (s : RestlsStream) : RestlsStream := { s with ended := s.ended.or (some .transport) }

/-- The rest of `pump_read`, and of `ensure_control_read`. -/
def lowerReadDone (s : RestlsStream) (n : Nat) : RestlsStream :=
  match s.lowerRead with
  | none => s
  | some reader =>
    let data := s.brings n
    if data = [] then
      let e := s.lowerEnd
      let s := { s with lowerRead := none, ended := some e }
      match reader with
      | .pump => s.finishRead (.error e)
      | .control => (s.finishWrite env (.error e)).finishRead (.error e)
    else
      let s := { s with lowerRead := none, wire := s.wire.drop data.length, readWire := s.readWire ++ data }
      match reader with
      | .pump => s.pumpRead env
      | .control =>
        let s := (processWire env s.readWire.length s).2
        if s.writeWaitingResponse then s.ensureControlRead else s

/-- The rest of `pump_write`, and of `pump_control_write`. -/
def lowerWritten (s : RestlsStream) (fails : Bool) : RestlsStream :=
  match s.inFlight with
  | none => s
  | some lower =>
    let s := { s with inFlight := none }
    match lower with
    | .data _ chunk needsResponse _ =>
      if fails then s.finishWrite env (.error .transport)
      else
        let offset := s.pendingWriteOffset + chunk
        { s with
          pendingWriteOffset := offset
          scriptIndex := s.scriptIndex + 1
          writeWaitingResponse := s.writeWaitingResponse || needsResponse && offset <
            s.pendingWrite.length }.pumpWrite env (finishWrite env)
    | .control _ =>
      if fails then (s.finishRead (.error .transport)).finishWrite env (.error .transport)
      else
        ({ s with
          pendingControlResponses := s.pendingControlResponses - 1
          scriptIndex := s.scriptIndex + 1 }.pumpControlWrite env (finishWrite env)).pumpWrite env
            (finishWrite env)

def close (s : RestlsStream) : RestlsStream :=
  (s.fail.finishRead (.error .operationAborted)).finishWrite env (.error .operationAborted)

inductive Act
  | read (size : Nat)
  | cancelRead
  | write (buffer : Bytes)
  | cancelWrite
  | lowerRead (n : Nat)
  | lowerWritten (fails : Bool)
  | fail
  | close
  deriving DecidableEq, Repr

structure Event where
  act : Act
  replies : List (Option Bytes) := []
  deriving DecidableEq, Repr

def perform (s : RestlsStream) : Act → RestlsStream
  | .read size => s.readImpl env size
  | .cancelRead => s.cancelRead
  | .write buffer => s.writeImpl env (finishWrite env) buffer
  | .cancelWrite => s.cancelWrite
  | .lowerRead n => s.lowerReadDone env n
  | .lowerWritten fails => s.lowerWritten env fails
  | .fail => s.fail
  | .close => s.close env

def step (s : RestlsStream) (event : Event) : RestlsStream :=
  { s with replies := event.replies }.perform env event.act

def opened (secret serverRandom : Bytes) (tls12Gcm : Bool) (initialAuthExtra : Bytes)
    (script : List RestlsScriptLine)
    (initialWire wire : Bytes) : RestlsStream where
  encoder := { secret, serverRandom, toClient := false, tls12Gcm, initialAuthExtra }
  decoder := { secret, serverRandom, toClient := true, tls12Gcm }
  script := script
  readWire := initialWire
  wire := wire

end RestlsStream

end ClashNative.Restls
