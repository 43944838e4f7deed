import ClashNative.Runs
import ClashNative.Segments
import ClashNative.StreamCipher
/-!
# LegacyStream — reads of a legacy Shadowsocks stream, with or without simple-obfs

`legacy_stream.cpp`: a read goes through the obfs response, the IV and the ciphertext, each from bytes
that are already there or from another read of the carrier.  `Lower` is a carrier read that is
outstanding, with what its completion goes on to (`simple_obfs.cpp` for the obfs readers).  A composed
read of exactly `n` bytes is one carrier read.
-/
namespace ClashNative.LegacyStream

open Wire

inductive ObfsMode
  | none
  | http
  | tls
  deriving DecidableEq, Repr

inductive ReadError
  | eof
  | carrier
  | fault
  | alreadyStarted
  | operationNotSupported
  | operationAborted
  deriving DecidableEq, Repr

inductive ReadResult
  | ok (data : List UInt8)
  | error (e : ReadError)
  deriving DecidableEq, Repr

def ReadResult.data : ReadResult → List UInt8
  | .ok data => data
  | .error _ => []

inductive RecordUse
  | response
  | iv (copied : List UInt8) (size : Nat)
  | plaintext
  deriving DecidableEq, Repr

inductive Lower
  | httpResponse (response : List UInt8)
  | tlsDiscard (first : Bool) (use : RecordUse)
  | tlsLength (use : RecordUse)
  | tlsPayload (length : Nat) (use : RecordUse)
  | iv (copied : List UInt8) (size : Nat)
  | ciphertext (room : Nat)
  deriving DecidableEq, Repr

/-- The method that the stream is opened with: `none` when `cipher_method` does not know it. -/
structure Config (κ : Type) where
  obfsMode : ObfsMode
  cipher : Option (StreamCipher κ)

def intMax : Nat := 2147483647
def kMaxResponseHeaderSize : Nat := 64 * 1024
def httpReadBufferSize : Nat := 8192

/-- `LegacyStreamState`.  `initialWire` is `initial_wire_` from its offset on, `readBuffer` the size of
the caller's buffer, `posted` and `postedExact` the handler calls that are posted.  `results` are the
handler calls made, `reads` the reads so far, and `misuse` is set when the read cipher is used before
there is one; these three are kept for the statements only. -/
structure State (κ : Type) where
  initialWire : List UInt8
  obfsResponseReady : Bool
  carrier : Segments UInt8
  ending : ReadError
  readCipher : Option κ := none
  readBuffer : Nat := 0
  readHandler : Option Nat := none
  readInProgress : Bool := false
  lower : List Lower := []
  posted : List (Nat × ReadResult) := []
  postedExact : List (List UInt8) := []
  results : List (Nat × ReadResult) := []
  reads : Nat := 0
  misuse : Bool := false

namespace State

variable {κ : Type}

def finishRead (s : State κ) (r : ReadResult) : State κ :=
  { s with
    readInProgress := false
    readHandler := none
    readBuffer := 0
    results := match s.readHandler with
      | none => s.results
      | some id => s.results ++ [(id, r)] }

/-- `process_plaintext`: `data` is what the caller's buffer holds. -/
def processPlaintext (c : Config κ) (s : State κ) (error : Option ReadError) (data : List UInt8) : State κ :=
  match s.readHandler with
  | none => { s with readInProgress := false, readBuffer := 0 }
  | some _ =>
    match s.readCipher, c.cipher with
    | some k, some cipher =>
      if intMax < data.length then s.finishRead (.error .operationNotSupported)
      else
        { s with readCipher := some (cipher.update k data).1 }.finishRead
          (match error with
            | none => .ok (cipher.update k data).2
            | some e => .error e)
    | _, _ => { s with misuse := true }

def receivePlaintext (c : Config κ) (s : State κ) : State κ :=
  if s.initialWire ≠ [] then
    processPlaintext c { s with initialWire := s.initialWire.drop s.readBuffer } none
      (s.initialWire.take s.readBuffer)
  else if c.obfsMode = .tls then { s with lower := s.lower ++ [.tlsDiscard false .plaintext] }
  else { s with lower := s.lower ++ [.ciphertext s.readBuffer] }

def readExactTls (s : State κ) (copied : List UInt8) (size : Nat) : State κ :=
  let copied' := copied ++ s.initialWire.take (size - copied.length)
  let s' := { s with initialWire := s.initialWire.drop (size - copied.length) }
  if copied'.length = size then { s' with postedExact := s'.postedExact ++ [copied'] }
  else { s' with lower := s'.lower ++ [.tlsDiscard false (.iv copied' size)] }

def readExact (c : Config κ) (s : State κ) (size : Nat) : State κ :=
  if c.obfsMode = .tls then s.readExactTls [] size
  else
    let copied := s.initialWire.take size
    let s' := { s with initialWire := s.initialWire.drop size }
    if copied.length = size then { s' with postedExact := s'.postedExact ++ [copied] }
    else { s' with lower := s'.lower ++ [.iv copied size] }

def receiveIv (c : Config κ) (s : State κ) : State κ :=
  match c.cipher with
  | none => s.finishRead (.error .operationNotSupported)
  | some cipher => readExact c s cipher.ivSize

/-- What `receive_iv` gives `read_exact` to call when the IV is there. -/
def ivReceived (c : Config κ) (s : State κ) (iv : List UInt8) : State κ :=
  match c.cipher with
  | none => s.finishRead (.error .operationNotSupported)
  | some cipher => receivePlaintext c { s with readCipher := some (cipher.init iv) }

def receiveObfsResponse (c : Config κ) (s : State κ) : State κ :=
  if c.obfsMode = .http then { s with lower := s.lower ++ [.httpResponse []] }
  else { s with lower := s.lower ++ [.tlsDiscard true .response] }

def read (c : Config κ) (s : State κ) (room : Nat) : State κ :=
  let id := s.reads
  let s := { s with reads := s.reads + 1 }
  if s.readInProgress then { s with posted := s.posted ++ [(id, .error .alreadyStarted)] }
  else if room = 0 then { s with posted := s.posted ++ [(id, .ok [])] }
  else
    let s := { s with readInProgress := true, readBuffer := room, readHandler := some id }
    if !s.obfsResponseReady then
      -- no return behind `receive_obfs_response`
      receivePlaintext c (receiveObfsResponse c s)
    else if s.readCipher.isNone then receiveIv c s
    else receivePlaintext c s

def cancelRead (s : State κ) : State κ :=
  match s.readHandler with
  | none => s
  | some id =>
    { s with
      readHandler := none
      readBuffer := 0
      readInProgress := false
      posted := s.posted ++ [(id, .error .operationAborted)] }

/-! ### Completions of the carrier's reads -/

def obfsRead (c : Config κ) (s : State κ) (use : RecordUse) (result : Option (List UInt8)) : State κ :=
  match result with
  | none => s.finishRead (.error .fault)
  | some payload =>
    let s := { s with initialWire := payload }
    match use with
    | .response => receiveIv c { s with obfsResponseReady := true }
    | .iv copied size => s.readExactTls copied size
    | .plaintext => receivePlaintext c s

def headerEnd : List UInt8 → Option Nat
  | 13 :: 10 :: 13 :: 10 :: _ => some 4
  | _ :: bs => (headerEnd bs).map (· + 1)
  | [] => none

/-- The first line of the response starts with `HTTP/1.1 101`. -/
def switchingProtocols (response : List UInt8) : Bool :=
  [72, 84, 84, 80, 47, 49, 46, 49, 32, 49, 48, 49].isPrefixOf response

def httpResponseRead (c : Config κ) (s : State κ) (response : List UInt8) : State κ :=
  match s.carrier.readSome httpReadBufferSize with
  | none => obfsRead c s .response none
  | some (chunk, carrier) =>
    let s := { s with carrier }
    let response := response ++ chunk
    if kMaxResponseHeaderSize < response.length then obfsRead c s .response none
    else
      match headerEnd response with
      | none => { s with lower := s.lower ++ [.httpResponse response] }
      | some headerEnd =>
        if switchingProtocols response then obfsRead c s .response (some (response.drop headerEnd))
        else obfsRead c s .response none

/-- A carrier read of exactly `n` bytes: when the stream ends first, what is left of it is gone. -/
def readCarrierExact (s : State κ) (n : Nat) : Option (List UInt8) × State κ :=
  match s.carrier.readExact n with
  | none => (none, { s with carrier := ⟨[], nofun⟩ })
  | some (bytes, carrier) => (some bytes, { s with carrier })

def tlsDiscardRead (c : Config κ) (s : State κ) (first : Bool) (use : RecordUse) : State κ :=
  match s.readCarrierExact (if first then 105 else 3) with
  | (none, s) => obfsRead c s use none
  | (some bytes, s) =>
    if bytes.take 3 = (if first then [0x16, 0x03, 0x01] else [0x17, 0x03, 0x03]) then
      { s with lower := s.lower ++ [.tlsLength use] }
    else obfsRead c s use none

def readU16 (bytes : List UInt8) : Nat := (bytes.getD 0 0).toNat * 256 + (bytes.getD 1 0).toNat

def tlsLengthRead (c : Config κ) (s : State κ) (use : RecordUse) : State κ :=
  match s.readCarrierExact 2 with
  | (none, s) => obfsRead c s use none
  | (some bytes, s) =>
    if readU16 bytes = 0 then obfsRead c s use none
    else { s with lower := s.lower ++ [.tlsPayload (readU16 bytes) use] }

def tlsPayloadRead (c : Config κ) (s : State κ) (length : Nat) (use : RecordUse) : State κ :=
  match s.readCarrierExact length with
  | (none, s) => obfsRead c s use none
  | (some bytes, s) => obfsRead c s use (some bytes)

/-- `read_exact_carrier`: another read until the IV is whole. -/
def ivRead (c : Config κ) (s : State κ) (copied : List UInt8) (size : Nat) : State κ :=
  match s.carrier.readSome (size - copied.length) with
  | none => s.finishRead (.error s.ending)
  | some (chunk, carrier) =>
    let s := { s with carrier }
    if (copied ++ chunk).length = size then ivReceived c s (copied ++ chunk)
    else { s with lower := s.lower ++ [.iv (copied ++ chunk) size] }

def ciphertextRead (c : Config κ) (s : State κ) (room : Nat) : State κ :=
  match s.carrier.readSome room with
  | none => if s.ending = .eof then processPlaintext c s (some .eof) [] else s.finishRead (.error s.ending)
  | some (chunk, carrier) => processPlaintext c { s with carrier } none chunk

def completeLower (c : Config κ) (s : State κ) : Lower → State κ
  | .httpResponse response => httpResponseRead c s response
  | .tlsDiscard first use => tlsDiscardRead c s first use
  | .tlsLength use => tlsLengthRead c s use
  | .tlsPayload length use => tlsPayloadRead c s length use
  | .iv copied size => ivRead c s copied size
  | .ciphertext room => ciphertextRead c s room

end State

/-! ### Runs -/

/-- What can happen next: a read, the completion of a carrier read, or a posted call. -/
inductive Event
  | read (room : Nat)
  | complete (i : Nat)
  | posted
  | postedExact
  deriving DecidableEq, Repr

variable {κ : Type}

def step (c : Config κ) (s : State κ) : Event → State κ
  | .read room => s.read c room
  | .complete i =>
    match s.lower[i]? with
    | none => s
    | some op => State.completeLower c { s with lower := s.lower.eraseIdx i } op
  | .posted =>
    match s.posted with
    | [] => s
    | p :: rest => { s with posted := rest, results := s.results ++ [p] }
  | .postedExact =>
    match s.postedExact with
    | [] => s
    | iv :: rest => State.ivReceived c { s with postedExact := rest } iv

/-- **What the server sends**: the bytes that were there when the stream was made, the rest as the
carrier's reads see it, and how the carrier ends.  No read returns more than `INT_MAX` bytes. -/
structure Server where
  initialWire : List UInt8
  carrier : Segments UInt8
  fails : Bool
  initialWire_le : initialWire.length ≤ intMax
  carrier_le : ∀ p ∈ carrier.pieces, p.length ≤ intMax

def start (c : Config κ) (server : Server) : State κ :=
  { initialWire := server.initialWire, obfsResponseReady := c.obfsMode == .none, carrier := server.carrier,
    ending := if server.fails then .carrier else .eof }

end ClashNative.LegacyStream
