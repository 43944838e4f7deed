import ClashNative.Runs
import ClashNative.ShadowTlsV3Frames
/-!
# ShadowTlsStreams — the streams of Shadow-TLS v2 and v3

`ShadowTlsV2Stream` (`shadow_tls.cpp`) and `ShadowTlsV3Stream` (`shadow_tls_v3.cpp`), from their reads and
writes down to the lower stream. A frame is read by a chain of reads of exactly so many bytes; what
differs between the two is an argument.

An event is a call, the completion of a read or a write of the lower stream, or a posted handler; none of
them waits for another.  The lower stream brings the next bytes of the peer's, as many as an event says.
-/
namespace ClashNative.ShadowTls

open Wire (putU16 getU16)
open ShadowTlsV3 (Bytes Chains HmacSha1 Verdict kTlsHeaderSize kApplicationRecord kMaxTlsPlaintext)

inductive StreamError
  | eof | fault | transport | operationAborted | alreadyStarted
  deriving DecidableEq, Repr

inductive Stage
  | header
  | payload (frameHeader : Bytes)
  deriving DecidableEq, Repr

def sizeOf (header : Bytes) : Nat := getU16 (header.drop 3)

def Stage.want : Stage → Nat
  | .header => kTlsHeaderSize
  | .payload frameHeader => sizeOf frameHeader

/-- A `read_exact` with the bytes it has got: it waits for the lower stream, or its handler is posted.
`owner` is the read it was started for.  (Two frames that are read at once would share `read_payload_`;
here each has its own bytes.) -/
structure Op where
  owner : Nat
  stage : Stage
  got : Bytes
  posted : Bool
  deriving DecidableEq, Repr

structure Answer (α : Type) where
  request : Nat
  origin : Nat
  result : Except StreamError α

/-! ## The reads -/

/-- The half of a stream that reads.  `waiting` is the parked read; `called` is a handler that was called
and that `read_handler_` still refers to (v2).  `pending` and `initialWire` are the bytes from their
offsets on, `wire` is what the lower stream has not brought yet, `ended` how it has ended.  `results`: the
handler calls, each where it is decided; a read is known by its place among the calls. -/
structure Reads (κ : Type) where
  waiting : Option Nat := none
  called : Option Nat := none
  readBuffer : Nat := 0
  pending : Bytes := []
  initialWire : Bytes := []
  kept : κ
  ops : List Op := []
  wire : Bytes
  ended : Option StreamError := none
  results : List (Answer Bytes) := []
  reads : Nat := 0

def dataOf : Except StreamError Bytes → Bytes
  | .ok data => data
  | .error _ => []

/-- What the two streams do in their own way: what is asked of a header, what becomes of a frame, whether
a completion of the lower stream is dropped where no read waits, whether a handler stays after it was
called, and the error that a failure is told as. -/
structure Framing (κ : Type) where
  opens : Bytes → Bool
  handle : κ → Bytes → Verdict × κ
  guards : Bool
  shares : Bool
  failure : StreamError → StreamError

namespace Reads

variable {κ : Type}

def delivered (s : Reads κ) : Bytes := s.results.flatMap fun answer => dataOf answer.result

def handler (s : Reads κ) : Option Nat := s.waiting.or s.called

def answer (s : Reads κ) (result : Except StreamError Bytes) : Reads κ :=
  { s with results := s.results ++ [⟨s.reads, s.reads, result⟩], reads := s.reads + 1 }

def park (s : Reads κ) (size : Nat) : Reads κ :=
  { s with waiting := some s.reads, called := none, readBuffer := size, reads := s.reads + 1 }

def readExact (s : Reads κ) (owner : Nat) (stage : Stage) : Reads κ :=
  { s with
    initialWire := s.initialWire.drop stage.want
    ops := s.ops ++ [⟨owner, stage, s.initialWire.take stage.want,
      (s.initialWire.take stage.want).length = stage.want⟩] }

def finishRead (s : Reads κ) (origin : Nat) (result : Except StreamError Bytes) : Reads κ :=
  { s with
    waiting := none
    called := none
    results := match s.handler with
      | none => s.results
      | some id => s.results ++ [⟨id, origin, result⟩] }

def cancelRead (s : Reads κ) : Reads κ :=
  match s.handler with
  | none => s
  | some id => { s with
      waiting := none, called := none, readBuffer := 0,
      results := s.results ++ [⟨id, id, .error .operationAborted⟩] }

/-- `copy_pending` of v2, `deliver_pending` of v3, for the handler of the stream. -/
def copyPending (f : Framing κ) (s : Reads κ) (origin : Nat) : Reads κ :=
  match s.handler with
  | none => s
  | some id =>
    if s.pending = [] then s
    else
      { s with
        pending := s.pending.drop s.readBuffer
        waiting := none
        called := if f.shares then some id else none
        results := s.results ++ [⟨id, origin, .ok (s.pending.take s.readBuffer)⟩] }

def fail (s : Reads κ) : Reads κ := { s with ended := s.ended.or (some .transport) }

def brings (s : Reads κ) (op : Op) (n : Nat) : Bytes :=
  if s.ended.isSome then [] else s.wire.take (min n (op.stage.want - op.got.length))

/-- The lower read of an operation completes; it brings nothing where the lower stream ends, or has ended.
-/
def lowerRead (f : Framing κ) (s : Reads κ) (i n : Nat) : Reads κ :=
  match s.ops[i]? with
  | none => s
  | some op =>
    if op.posted then s
    else
      let data := s.brings op n
      let s := { s with ops := s.ops.eraseIdx i, wire := s.wire.drop data.length }
      match s.ended with
      | some e => s.finishRead op.owner (.error (f.failure e))
      | none =>
        if f.guards ∧ s.waiting = none then { s with ended := if data = [] then some .eof else none }
        else if data = [] then { s with ended := some .eof }.finishRead op.owner (.error .eof)
        else
          let got := op.got ++ data
          { s with ops := s.ops ++ [{ op with got, posted := got.length = op.stage.want }] }

/-- The posted handler of an operation runs: the rest of `read_header`, `read_frame_header`,
`read_payload`, `read_frame_payload`. -/
def runPosted (f : Framing κ) (s : Reads κ) (i : Nat) : Reads κ :=
  match s.ops[i]? with
  | none => s
  | some op =>
    if op.posted then
      let s := { s with ops := s.ops.eraseIdx i }
      match op.stage with
      | .header =>
        if f.opens op.got then s.readExact op.owner (.payload op.got)
        else s.finishRead op.owner (.error .fault)
      | .payload frameHeader =>
        let handled := f.handle s.kept (frameHeader ++ op.got)
        match handled.1 with
        | .bridge => { s with kept := handled.2 }.readExact op.owner .header
        | .fault => { s with kept := handled.2 }.finishRead op.owner (.error .fault)
        | .data payload => { s with kept := handled.2, pending := payload }.copyPending f op.owner
    else s

end Reads

/-! ### v2 -/

def framingV2 : Framing Unit where
  opens header := header.getD 0 0 == kApplicationRecord && header.getD 1 0 == 3 && header.getD 2 0 == 3 &&
  sizeOf header ≠ 0
  handle _ frame := (.data (frame.drop kTlsHeaderSize), ())
  guards := false
  shares := true
  failure e := e

/-- `read_impl`; `read_busy_` is whether a read waits. -/
def readV2 (s : Reads Unit) (size : Nat) : Reads Unit :=
  if s.waiting.isSome then s.answer (.error .alreadyStarted)
  else if s.pending ≠ [] then { s with pending := s.pending.drop size }.answer (.ok (s.pending.take size))
  else if size = 0 then s.answer (.ok [])
  else (s.park size).readExact s.reads .header

/-! ### v3 -/

def framingV3 (mac : HmacSha1) : Framing Chains where
  opens header := sizeOf header ≠ 0
  handle := ShadowTlsV3.handleFrame mac
  guards := true
  shares := false
  failure e := if e = .eof then .eof else .fault

def readV3 (mac : HmacSha1) (s : Reads Chains) (size : Nat) : Reads Chains :=
  if s.waiting.isSome then s.answer (.error .alreadyStarted)
  else if size = 0 then s.answer (.ok [])
  else if s.pending ≠ [] then (s.park size).copyPending (framingV3 mac) s.reads
  else (s.park size).readExact s.reads .header

/-! ## The writes -/

/-- A write of the lower stream: for which call, for how many of its bytes, and what it carries. -/
structure LowerWrite where
  owner : Nat
  size : Nat
  wire : Bytes
  deriving DecidableEq, Repr

/-- The half that writes: `lowers` are the writes of the lower stream that are outstanding; `buffers` and
`sent` record the calls and the writes of the lower stream.  `mark` is what a stream keeps: whether the
hash was sent (v2), the chain of the digests (v3). -/
structure Writes (μ : Type) where
  writeHandler : Option Nat := none
  writeSize : Nat := 0
  mark : μ
  closed : Bool := false
  lowers : List LowerWrite := []
  results : List (Answer Nat) := []
  buffers : List Bytes := []
  sent : List LowerWrite := []

namespace Writes

variable {μ : Type}

def answer (s : Writes μ) (buffer : Bytes) (result : Except StreamError Nat) : Writes μ :=
  { s with results := s.results ++ [⟨s.buffers.length,
    s.buffers.length, result⟩], buffers := s.buffers ++ [buffer] }

def start (s : Writes μ) (buffer wire : Bytes) (mark : μ) : Writes μ :=
  { s with
    writeHandler := some s.buffers.length
    writeSize := buffer.length
    mark := mark
    lowers := s.lowers ++ [⟨s.buffers.length, buffer.length, wire⟩]
    buffers := s.buffers ++ [buffer]
    sent := s.sent ++ [⟨s.buffers.length, buffer.length, wire⟩] }

def finishWrite (s : Writes μ) (origin : Nat) (error : Option StreamError) : Writes μ :=
  { s with
    writeHandler := none
    results := match s.writeHandler with
      | none => s.results
      | some id => s.results ++ [⟨id, origin, match error with
        | none => .ok s.writeSize
        | some e => .error e⟩] }

def cancelWrite (s : Writes μ) : Writes μ :=
  match s.writeHandler with
  | none => s
  | some id => { s with
      writeHandler := none, writeSize := 0,
      results := s.results ++ [⟨id, id, .error .operationAborted⟩] }

def lowerWritten (s : Writes μ) (i : Nat) (error : Option StreamError) : Writes μ :=
  match s.lowers[i]? with
  | none => s
  | some lower => { s with lowers := s.lowers.eraseIdx i }.finishWrite lower.owner error

end Writes

def frameWire : Nat → Bytes → Bytes
  | 0, _ => []
  | n + 1, payload =>
    if payload = [] then []
    else
      let piece := payload.take kMaxTlsPlaintext
      [kApplicationRecord, 3, 3] ++ putU16 piece.length ++ piece ++ frameWire n (payload.drop kMaxTlsPlaintext)

/-- `write_impl` and `write_payload` of v2; `write_busy_` is whether a write is parked. -/
def writeV2 (hash : Bytes) (s : Writes Bool) (buffer : Bytes) : Writes Bool :=
  if s.writeHandler.isSome then s.answer buffer (.error .alreadyStarted)
  else if buffer = [] then s.answer buffer (.ok 0)
  else
    let payload := (if s.mark then [] else hash) ++ buffer
    s.start buffer (frameWire payload.length payload) true

/-- `write` of v3; `mark` is `write_chain_`.  A digest that is too short ends the write before its frames
are sent. -/
def writeV3 (mac : HmacSha1) (s : Writes Bytes) (buffer : Bytes) : Writes Bytes :=
  if s.writeHandler.isSome ∨ s.closed then s.answer buffer (.error .alreadyStarted)
  else if buffer = [] then s.answer buffer (.ok 0)
  else
    match ShadowTlsV3.write mac s.mark buffer with
    | none => s.answer buffer (.error .fault)
    | some (chain, frames) => s.start buffer frames.flatten chain

/-! ## The streams -/

structure Kind (κ μ : Type) extends Framing κ where
  read : Reads κ → Nat → Reads κ
  write : Writes μ → Bytes → Writes μ
  closes : Bool

def kindV2 (hash : Bytes) : Kind Unit Bool :=
  { framingV2 with read := readV2, write := writeV2 hash, closes := false }

def kindV3 (mac : HmacSha1) : Kind Chains Bytes :=
  { framingV3 mac with read := readV3 mac, write := writeV3 mac, closes := true }

structure State (κ μ : Type) where
  reads : Reads κ
  writes : Writes μ

inductive Event
  | read (size : Nat)
  | cancelRead
  | lowerRead (i n : Nat)
  | posted (i : Nat)
  | fail
  | write (buffer : Bytes)
  | cancelWrite
  | lowerWritten (i : Nat) (error : Option StreamError)
  | close
  deriving DecidableEq, Repr

/-- `close`: v2 closes the lower stream alone, v3 calls its handlers. -/
def close {κ μ : Type} (k : Kind κ μ) (s : State κ μ) : State κ μ :=
  if k.closes then
    if s.writes.closed then s
    else
      { reads := match s.reads.waiting with
          | none => s.reads.fail
          | some id => s.reads.fail.finishRead id (.error .operationAborted)
        writes := match s.writes.writeHandler with
          | none => { s.writes with closed := true }
          | some id => { s.writes with closed := true }.finishWrite id (some .operationAborted) }
  else { s with reads := s.reads.fail }

def step {κ μ : Type} (k : Kind κ μ) (s : State κ μ) : Event → State κ μ
  | .read size => { s with reads := k.read s.reads size }
  | .cancelRead => { s with reads := s.reads.cancelRead }
  | .lowerRead i n => { s with reads := s.reads.lowerRead k.toFraming i n }
  | .posted i => { s with reads := s.reads.runPosted k.toFraming i }
  | .fail => { s with reads := s.reads.fail }
  | .write buffer => { s with writes := k.write s.writes buffer }
  | .cancelWrite => { s with writes := s.writes.cancelWrite }
  | .lowerWritten i error => { s with writes := s.writes.lowerWritten i error }
  | .close => close k s

/-- A stream that was opened: with what the opening has left over of the peer's bytes. -/
def opened {κ μ : Type} (kept : κ) (mark : μ) (pending initialWire wire : Bytes) : State κ μ where
  reads := { kept, pending, initialWire, wire }
  writes := { mark }

end ClashNative.ShadowTls
