import ClashNative.HttpText
/-!
# Http1Reads — how a client session reads the response to an exchange

The response side of `run_buffered` and `run_streaming` in `http1_client.cpp`.  The HTTP library is a
parameter with the laws that the session relies on; the bytes are what is in the read buffer and what the
server still sends.  A loop that is not over yet is `running`.
-/
namespace ClashNative.Http1

open Http (Bytes Field ascii)

structure Head where
  status : Nat
  headers : List Field
  keepAlive : Bool
  deriving DecidableEq, Repr

/-- **The HTTP library's response parser.**  `fresh` takes what `skip` and `body_limit` set; `remaining`
says what a parser will still give from the bytes, and which of them it leaves (`none`: it fails, or the
message is cut off). -/
structure Library where
  Parser : Type
  fresh : (skip : Bool) → (limit : Option Nat) → Parser
  readHeader : Parser → Bytes → Option (Parser × Bytes)
  readSome : Parser → (capacity : Nat) → Bytes → Option (Parser × Bytes × Bytes)
  isHeaderDone : Parser → Bool
  isDone : Parser → Bool
  get : Parser → Head
  remaining : Parser → Bytes → Option (Bytes × Bytes)
  /-- A header that is done completes at once and takes nothing. -/
  readHeader_done : ∀ p bytes, isHeaderDone p = true → readHeader p bytes = some (p, bytes)
  remaining_done : ∀ p bytes, isDone p = true → remaining p bytes = some ([], bytes)
  /-- One read gives a piece of the body, and the rest stays to be read. -/
  readSome_step : ∀ p capacity bytes content left, isDone p = false → 0 < capacity →
    remaining p bytes = some (content, left) →
    ∃ p' produced rest content', readSome p capacity bytes = some (p', produced, rest) ∧
      content = produced ++ content' ∧ remaining p' rest = some (content', left) ∧
      (isDone p' = true ∨ rest.length < bytes.length)

inductive Progress (α : Type)
  | running
  | failed
  | done (a : α)
  deriving DecidableEq, Repr

def isInterim (status : Nat) : Bool := 100 ≤ status && status < 200 && status ≠ 101

section Session

variable (lib : Library)

/-! ### Buffered -/

/-- `async_read`: the header, unless that is done, and all that remains. -/
def asyncRead (p : lib.Parser) (bytes : Bytes) : Option (Head × Bytes × Bytes) := do
  let (p, bytes) ← lib.readHeader p bytes
  let (content, left) ← lib.remaining p bytes
  return (lib.get p, content, left)

/-- The read of `run_buffered`: the parser is told the request's limit and nothing else. -/
def runBuffered (responseBodyLimit : Nat) (bytes : Bytes) : Progress (Head × Bytes) :=
  match asyncRead lib (lib.fresh false (some responseBodyLimit)) bytes with
  | none => .failed
  | some (head, content, _) => .done (head, content)

/-! ### Streaming -/

def streamingHeader : Nat → lib.Parser → Bytes → Progress (lib.Parser × Bytes)
  | 0, _, _ => .running
  | fuel + 1, p, bytes =>
    match lib.readHeader p bytes with
    | none => .failed
    | some (p, bytes) =>
      -- the loop goes on with the parser that it has
      if isInterim (lib.get p).status then streamingHeader fuel p bytes else .done (p, bytes)

def receiveCapacity : Nat := 256 * 1024

def bufferSize : Nat := 16 * 1024

/-- The download loop, from its `i`-th read on.  `queued i` is how full the stream is at that read; while
it is full the task waits for the consumer. -/
def download (queued : Nat → Fin receiveCapacity) : Nat → Nat → lib.Parser → Bytes → Progress Bytes
  | 0, _, _, _ => .running
  | fuel + 1, i, p, bytes =>
    match lib.readSome p (min bufferSize (receiveCapacity - queued i)) bytes with
    | none => .failed
    | some (p, produced, bytes) =>
      if lib.isDone p then .done produced
      else
        match download queued fuel (i + 1) p bytes with
        | .done content => .done (produced ++ content)
        | .failed => .failed
        | .running => .running

/-- The response side of `run_streaming`: the head and what the body stream brings. -/
def runStreaming (method : Bytes) (queued : Nat → Fin receiveCapacity) (fuel : Nat) (bytes : Bytes) :
    Progress (Head × Bytes) :=
  match streamingHeader lib fuel (lib.fresh (method = ascii "HEAD") none) bytes with
  | .running => .running
  | .failed => .failed
  | .done (p, bytes) =>
    if lib.isDone p then .done (lib.get p, [])
    else
      match download lib queued fuel 0 p bytes with
      | .done content => .done (lib.get p, content)
      | .failed => .failed
      | .running => .running

end Session

/-! ### What the server sends -/

/-- **A response on the wire**: the bytes of its head, the bytes of its body with their framing, and what
they say.  To a HEAD request only the head is sent. -/
structure Message where
  stated : Head
  head : Bytes
  tail : Bytes
  content : Bytes
  bare : tail = [] → content = []

/-- **The library reads a message** within its limit, and not before it is all there: no message that the
end of the connection ends is one. -/
structure Library.Reads (lib : Library) (m : Message) : Prop where
  header : ∀ skip limit, (∀ n ∈ limit, m.content.length ≤ n) → ∃ p, lib.isHeaderDone p = true ∧
    lib.get p = m.stated ∧
    (∀ rest, lib.readHeader (lib.fresh skip limit) (m.head ++ rest) = some (p, rest)) ∧
    (skip = true → ∀ rest, lib.remaining p rest = some ([], rest)) ∧
    (skip = false → (∀ rest, lib.remaining p (m.tail ++ rest) = some (m.content, rest)) ∧
      ∀ cut, cut <+: m.tail → cut ≠ m.tail → lib.remaining p cut = none)

/-- **One exchange as the server serves it**: interim responses, which have no body, and the final one,
within the limit that the request sets. -/
structure Served (lib : Library) where
  method : Bytes
  responseBodyLimit : Nat
  interims : List Message
  final : Message
  reads_interims : ∀ m ∈ interims, lib.Reads m
  interims_status : ∀ m ∈ interims, isInterim m.stated.status = true
  interims_bare : ∀ m ∈ interims, m.tail = []
  reads_final : lib.Reads final
  final_status : isInterim final.stated.status = false
  fits : final.content.length ≤ responseBodyLimit

namespace Served

variable {lib : Library}

def bytes (s : Served lib) : Bytes :=
  s.interims.flatMap (·.head) ++ (s.final.head ++ if s.method = ascii "HEAD" then [] else s.final.tail)

def response (s : Served lib) : Head × Bytes :=
  (s.final.stated, if s.method = ascii "HEAD" then [] else s.final.content)

/-- `exchange_streaming` delivers it, once the loops have run far enough. -/
def StreamingDelivers (s : Served lib) (queued : Nat → Fin receiveCapacity) : Prop :=
  ∃ enough, ∀ fuel, enough ≤ fuel → runStreaming lib s.method queued fuel s.bytes = .done s.response

def BufferedDelivers (s : Served lib) : Prop := runBuffered lib s.responseBodyLimit s.bytes = .done s.response

end Served

end ClashNative.Http1
