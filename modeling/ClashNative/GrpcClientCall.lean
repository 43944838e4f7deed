import ClashNative.Calls
import ClashNative.HttpText
import ClashNative.Runs
/-!
# GrpcClientCall — the reads of a gRPC call

The receiving half of `GrpcClientCall` (`grpc_client.cpp`), from the start of the call on.  A step is one
turn of the executor.  A body read is a task: where the body stops it, the task ends there and nothing
after it runs.
-/
namespace ClashNative.Grpc

open List

open Http (Bytes Field ascii isDigit decimal)

def kReadBufferSize : Nat := 16 * 1024

def kMaxGrpcStatus : Nat := 16

/-! ### Headers and options -/

def lowerCopy (value : Bytes) : Bytes := value.map toLower

def isMetadataName (name : Bytes) : Bool :=
  name ≠ [] && name.head? ≠ some 58 && !name.any (fun c => 65 ≤ c && c ≤ 90) &&
    name.all fun c => (97 ≤ c && c ≤ 122) || isDigit c || c == 45 || c == 95 || c == 46

def hexValue (c : UInt8) : Option UInt8 :=
  if isDigit c then some (c - 48)
  else if 97 ≤ c && c ≤ 102 then some (c - 97 + 10)
  else if 65 ≤ c && c ≤ 70 then some (c - 65 + 10)
  else none

def percentDecode : Bytes → Option Bytes
  | [] => some []
  | 37 :: a :: b :: rest => do
    let high ← hexValue a
    let low ← hexValue b
    let decoded ← percentDecode rest
    some ((high <<< 4 ||| low) :: decoded)
  | 37 :: _ => none
  | c :: rest => (percentDecode rest).map (c :: ·)

def findHeader (headers : List Field) (name : Bytes) : Option Bytes :=
  (headers.find? fun f => lowerCopy f.name == name).map Field.value

structure GrpcStatus where
  code : Nat
  message : Bytes
  deriving DecidableEq

def parseStatus (headers : List Field) : Except Error GrpcStatus :=
  match findHeader headers (ascii "grpc-status") with
  | none => .error ⟨.protocolFraming, "gRPC response is missing grpc-status"⟩
  | some value =>
    if value = [] ∨ value.all isDigit = false ∨ kMaxGrpcStatus < decimal value then
      .error ⟨.protocolFraming, "gRPC response has an invalid grpc-status"⟩
    else
      match findHeader headers (ascii "grpc-message") with
      | none => .ok ⟨decimal value, []⟩
      | some message =>
        match percentDecode message with
        | none => .error ⟨.protocolFraming, "gRPC response has an invalid grpc-message"⟩
        | some message => .ok ⟨decimal value, message⟩

structure GrpcCallOptions where
  scheme : Bytes := ascii "https"
  authority : Bytes := []
  method : Bytes := []
  metadata : List Field := []
  maxMessageSize : Nat := 4 * 1024 * 1024
  deriving DecidableEq

def validateOptions (options : GrpcCallOptions) : Option Error :=
  if options.scheme ≠ ascii "http" ∧ options.scheme ≠ ascii "https" then
    some ⟨.configuration, "gRPC scheme must be http or https"⟩
  else if options.authority = [] ∨ options.method.length < 2 ∨ options.method.head? ≠ some 47 ∨
    32 ∈ options.method.tail ∨
      options.maxMessageSize = 0 ∨ 2 ^ 32 - 1 < options.maxMessageSize then
    some ⟨.configuration, "gRPC call authority, method, or message limit is invalid"⟩
  else if ∃ f ∈ options.metadata, isMetadataName f.name = false ∨ ascii "grpc-" <+: f.name ∨
    f.name = ascii "content-type" ∨
      f.name = ascii "te" ∨ 13 ∈ f.value ∨ 10 ∈ f.value then
    some ⟨.configuration, "gRPC metadata contains a reserved or invalid field"⟩
  else none

/-! ### Frames -/

def putBe32 (n : Nat) : Bytes := [UInt8.ofNat (n / 2 ^ 24), UInt8.ofNat (n / 2 ^ 16),
    UInt8.ofNat (n / 2 ^ 8), UInt8.ofNat n]

def getBe32 (a b c d : UInt8) : Nat := a.toNat * 2 ^ 24 + b.toNat * 2 ^ 16 + c.toNat * 2 ^ 8 + d.toNat

def frame (message : Bytes) : Bytes := 0 :: putBe32 message.length ++ message

inductive Frame
  | incomplete | compressed | tooLong
  | message (message : Bytes)
  deriving DecidableEq

/-- What `deliver_or_read` finds in front of the bytes that are there. -/
def nextFrame (limit : Nat) : Bytes → Frame
  | flag :: a :: b :: c :: d :: rest =>
    if flag ≠ 0 then .compressed
    else if limit < getBe32 a b c d then .tooLong
    else if getBe32 a b c d ≤ rest.length then .message (rest.take (getBe32 a b c d))
    else .incomplete
  | _ => .incomplete

def Framed (messages : List Bytes) : Prop := ∀ message ∈ messages, message.length < 2 ^ 32

theorem getBe32_putBe32 {n : Nat} (hn : n < 2 ^ 32) :
    getBe32 (UInt8.ofNat (n / 2 ^ 24)) (UInt8.ofNat (n / 2 ^ 16)) (UInt8.ofNat (n / 2 ^ 8))
    (UInt8.ofNat n) = n := by
  simp only [getBe32, UInt8.toNat_ofNat']
  omega

theorem getBe32_lt (a b c d : UInt8) : getBe32 a b c d < 2 ^ 32 := by
  have := a.toNat_lt
  have := b.toNat_lt
  have := c.toNat_lt
  have := d.toNat_lt
  unfold getBe32
  omega

theorem putBe32_getBe32 (a b c d : UInt8) : putBe32 (getBe32 a b c d) = [a, b, c, d] := by
  have := a.toNat_lt
  have := b.toNat_lt
  have := c.toNat_lt
  have := d.toNat_lt
  simp only [putBe32, getBe32, List.cons.injEq, and_true, ← UInt8.toNat_inj, UInt8.toNat_ofNat']
  omega

theorem length_frame (message : Bytes) : (frame message).length = message.length + 5 := by
  rw [frame, cons_append, length_cons, length_append, Nat.add_comm (putBe32 _).length]
  rfl

variable {size : Nat}

theorem frame_take {a b c d : UInt8} {rest : Bytes} (hput : putBe32 size = [a, b, c, d])
    (hsize : size ≤ rest.length) :
    0 :: a :: b :: c :: d :: rest = frame (rest.take size) ++ (0 :: a :: b :: c :: d :: rest).drop
    ((rest.take size).length + 5) ∧
      (rest.take size).length = size := by
  have hlength : (rest.take size).length = size := by
    rw [length_take]
    exact Nat.min_eq_left hsize
  have hdrop : (0 :: a :: b :: c :: d :: rest).drop (size + 5) = rest.drop size := rfl
  refine ⟨?_, hlength⟩
  rw [frame, hlength, hput, hdrop, append_assoc]
  exact congrArg (fun bytes => 0 :: a :: b :: c :: d :: bytes) (take_append_drop size rest).symm

variable {bytes : Bytes} {limit : Nat} {message : Bytes}

theorem nextFrame_message (h : nextFrame limit bytes = .message message) :
    bytes = frame message ++ bytes.drop (message.length + 5) ∧ message.length ≤ limit ∧
    message.length < 2 ^ 32 := by
  unfold nextFrame at h
  split at h
  · rename_i flag a b c d rest
    split at h
    · cases h
    rename_i hflag
    split at h
    · cases h
    rename_i hlimit
    split at h
    · rename_i hsize
      obtain rfl := Frame.message.inj h
      obtain ⟨hframe, hlength⟩ := frame_take (putBe32_getBe32 a b c d) hsize
      rw [not_ne_iff.1 hflag]
      refine ⟨hframe, ?_, ?_⟩
      · rw [hlength]
        exact Nat.le_of_not_lt hlimit
      · rw [hlength]
        exact getBe32_lt a b c d
    · cases h
  · cases h

theorem nextFrame_frame (rest : Bytes) (hlength : message.length < 2 ^ 32) (hlimit : message.length ≤ limit) :
    nextFrame limit (frame message ++ rest) = .message message := by
  have hsize := getBe32_putBe32 hlength
  rw [frame, putBe32]
  simp only [cons_append, nil_append, nextFrame, hsize]
  rw [if_neg (by decide), if_neg (Nat.not_lt.2 hlimit),
    if_pos (by rw [length_append]; exact Nat.le_add_right _ _), take_left]

theorem nextFrame_incomplete (h : nextFrame limit bytes = .incomplete) : bytes.length < limit + 5 := by
  unfold nextFrame at h
  split at h
  · rename_i flag a b c d rest
    split at h
    · cases h
    · split at h
      · cases h
      · split at h
        · cases h
        · simp only [length_cons]
          omega
  · rename_i hshort
    match bytes, hshort with
    | [], _ | [_], _ | [_, _], _ | [_, _, _], _ | [_, _, _, _], _ =>
      simp only [length_cons, length_nil]
      omega
    | a :: b :: c :: d :: e :: rest, hshort => exact absurd rfl (hshort a b c d e rest)

theorem frames_front {rest : Bytes} : ∀ {read messages : List Bytes}, Framed read → Framed messages →
    read.flatMap frame ++ rest <+: messages.flatMap frame → read <+: messages ∧
    rest <+: (messages.drop read.length).flatMap frame
  | [], messages, _, _, h => ⟨List.nil_prefix, h⟩
  | message :: read, [], _, _, h => by
    have hle := h.length_le
    rw [flatMap_cons, append_assoc, length_append, length_frame, flatMap_nil, length_nil] at hle
    omega
  | message :: read, message' :: messages, hread, hmessages, h => by
    obtain ⟨more, hmore⟩ := h
    rw [flatMap_cons, flatMap_cons, append_assoc, append_assoc] at hmore
    have hfirst := nextFrame_frame (read.flatMap frame ++ (rest ++ more)) (hread message mem_cons_self)
      (Nat.le_of_lt (hread message mem_cons_self))
    have hsecond := nextFrame_frame (messages.flatMap frame) (hmessages message' mem_cons_self)
      (Nat.le_of_lt (hmessages message' mem_cons_self))
    rw [hmore, hsecond] at hfirst
    obtain rfl := Frame.message.inj hfirst
    have hrest := append_cancel_left hmore
    have ih := frames_front (fun m hm => hread m (mem_cons_of_mem _ hm))
      (fun m hm => hmessages m (mem_cons_of_mem _ hm))
      ⟨more, (append_assoc _ _ _).trans hrest⟩
    exact ⟨(prefix_cons_inj _).2 ih.1, ih.2⟩

theorem nextFrame_allowed {messages : List Bytes} (hframed : Framed messages)
    (hlimit : ∀ message ∈ messages, message.length ≤ limit) (h : bytes <+: messages.flatMap frame) :
    nextFrame limit bytes ≠ .compressed ∧ nextFrame limit bytes ≠ .tooLong := by
  unfold nextFrame
  split
  · rename_i flag a b c d rest
    cases messages with
    | nil => exact absurd (prefix_nil.1 h) (cons_ne_nil _ _)
    | cons message messages =>
      rw [flatMap_cons, frame, putBe32] at h
      simp only [cons_append, nil_append, cons_prefix_cons] at h
      obtain ⟨rfl, rfl, rfl, rfl, rfl, -⟩ := h
      rw [getBe32_putBe32 (hframed message mem_cons_self), if_neg (by decide),
        if_neg (Nat.not_lt.2 (hlimit message mem_cons_self))]
      split <;> exact ⟨nofun, nofun⟩
  · exact ⟨nofun, nofun⟩

/-! ### The call -/

inductive Fault
  | busy | cancelled
  | exchange (error : Error)
  | httpStatus (status : Nat)
  | noContentType | contentType | noBody
  | status (error : Error)
  | read (aborted : Bool) (message : String)
  | noProgress | flooded | compressed | tooLong | truncated | disagree | noStatus
  deriving DecidableEq

def Fault.error : Fault → Error
  | busy => ⟨.protocolFraming, "only one gRPC response read may be active"⟩
  | cancelled => ⟨.cancelled, "gRPC call was cancelled"⟩
  | exchange error => error
  | httpStatus code => ⟨.protocolFraming, "gRPC endpoint returned HTTP status " ++ toString code⟩
  | noContentType => ⟨.protocolFraming, "gRPC response is missing content-type"⟩
  | contentType => ⟨.protocolFraming, "gRPC response has an unsupported content-type"⟩
  | noBody => ⟨.protocolFraming, "gRPC response has no HTTP body stream"⟩
  | status error => error
  | read aborted message =>
    ⟨if aborted then .cancelled else .transportIo,
      "failed while reading the gRPC HTTP/2 response body: " ++ message⟩
  | noProgress => ⟨.transportIo, "gRPC HTTP/2 response read made no progress"⟩
  | flooded | tooLong => ⟨.protocolFraming, "gRPC response message exceeds the configured limit"⟩
  | compressed => ⟨.unsupported, "compressed gRPC messages are not supported"⟩
  | truncated => ⟨.protocolFraming, "gRPC response ended with a truncated message frame"⟩
  | disagree => ⟨.protocolFraming, "gRPC initial and trailing status values disagree"⟩
  | noStatus => ⟨.protocolFraming, "gRPC response ended without grpc-status"⟩

inductive ReadResult
  | message (data : Bytes)
  | finished
  | error (fault : Fault)
  deriving DecidableEq

def ReadResult.data? : ReadResult → Option Bytes
  | .message data => some data
  | _ => none

structure Answer where
  op : Nat
  result : ReadResult
  deriving DecidableEq

/-- What is left of `start` or `on_response` behind the open handler. -/
inductive Left
  | nothing | open | deliver
  deriving DecidableEq

/-- What is to come before the call is open: the turn of `start`, then the response, unless the start is
refused.  Then the open handler runs, which may call the call. -/
inductive Phase
  | starting | exchanging
  | opening (left : Left)
  | settled
  deriving DecidableEq

def Phase.early : Phase → Bool
  | starting | exchanging => true
  | _ => false

def Phase.inHandler : Phase → Bool
  | opening _ => true
  | _ => false

/-- **The call.**  Reads are numbered; `pull` says that the task of a body read is there, `trailers` are
the body's.  `posted` are the calls of handlers that are posted, `answered` the ones that have run,
`opens` the calls of the open handler; `received` is what the body has given. -/
structure GrpcClientCall where
  session : Bool
  options : GrpcCallOptions
  phase : Phase := .starting
  openHandler : Bool := true
  cancelled : Bool := false
  opened : Bool := false
  responseBody : Bool := false
  readingBody : Bool := false
  pull : Bool := false
  bodyEof : Bool := false
  responseFinished : Bool := false
  status : Option GrpcStatus := none
  trailers : List Field := []
  responseBytes : Bytes := []
  responseOffset : Nat := 0
  pendingRead : Option Nat := none
  readError : Option Fault := none
  reads : Nat := 0
  posted : List Answer := []
  answered : List Answer := []
  opens : List (Option Error) := []
  received : Bytes := []
  deriving DecidableEq

namespace GrpcClientCall

def rest (c : GrpcClientCall) : Bytes := c.responseBytes.drop c.responseOffset

def postRead (c : GrpcClientCall) (op : Nat) (result : ReadResult) : GrpcClientCall :=
  { c with posted := c.posted ++ [⟨op, result⟩] }

def answer (c : GrpcClientCall) (result : ReadResult) : GrpcClientCall :=
  match c.pendingRead with
  | some op => { c with pendingRead := none }.postRead op result
  | none => c

def failReads (c : GrpcClientCall) (fault : Fault) : GrpcClientCall :=
  if c.readError.isSome then c else { c with readError := some fault }.answer (.error fault)

def readResponse (c : GrpcClientCall) : GrpcClientCall :=
  if c.responseBody = false ∨ c.readingBody = true ∨ c.bodyEof = true ∨
    c.readError.isSome then c else { c with readingBody := true, pull := true }

def finishResponse (c : GrpcClientCall) : Except Fault GrpcClientCall :=
  if c.responseFinished then .ok c
  else if c.responseOffset ≠ c.responseBytes.length then .error .truncated
  else if (findHeader c.trailers (ascii "grpc-status")).isSome then
    match parseStatus c.trailers with
    | .error error => .error (.status error)
    | .ok status =>
      if c.status.any fun initial => initial.code ≠ status.code then .error .disagree
      else .ok { c with status := some status, responseFinished := true }
  else if c.status = none then .error .noStatus
  else .ok { c with responseFinished := true }

def consume (c : GrpcClientCall) (size : Nat) : GrpcClientCall :=
  let offset := c.responseOffset + size
  if offset = c.responseBytes.length then { c with responseBytes := [], responseOffset := 0 }
  else if kReadBufferSize ≤ offset then
    { c with responseBytes := c.responseBytes.drop offset, responseOffset := 0 }
  else { c with responseOffset := offset }

/-- `deliver_or_read`; the call of itself behind a `fail_reads` finds no read waiting. -/
def deliverOrRead (c : GrpcClientCall) : GrpcClientCall :=
  if c.pendingRead = none ∨ c.opened = false then c
  else
    match c.readError with
    | some fault => c.answer (.error fault)
    | none =>
      match nextFrame c.options.maxMessageSize c.rest with
      | .compressed => c.failReads .compressed
      | .tooLong => c.failReads .tooLong
      | .message message => (c.consume (message.length + 5)).answer (.message message)
      | .incomplete =>
        if c.bodyEof then
          match c.finishResponse with
          | .error fault => c.failReads fault
          | .ok c => { c with responseFinished := true }.answer .finished
        else c.readResponse

def asyncReadMessage (c : GrpcClientCall) : GrpcClientCall :=
  let op := c.reads
  let c := { c with reads := op + 1 }
  if c.pendingRead.isSome then c.postRead op (.error .busy) else { c with pendingRead := some op }.deliverOrRead

def cancelledBeforeOpening : Error := ⟨.cancelled, "gRPC call was cancelled before opening"⟩

def cancel (c : GrpcClientCall) : GrpcClientCall :=
  if c.cancelled then c
  else
    { c with
      cancelled := true, opened := true, openHandler := false
      opens := if c.openHandler then c.opens ++ [some cancelledBeforeOpening] else
        c.opens }.answer (.error .cancelled)

end GrpcClientCall

/-- What the session gives: an error, or a response with or without a body. -/
inductive Response
  | failed (error : Error)
  | response (status : Nat) (headers : List Field) (body : Bool)
  deriving DecidableEq

inductive Pulled
  | bytes (chunk : Bytes)
  | eof (trailers : List Field)
  | error (aborted : Bool) (message : String)
  | stopped
  deriving DecidableEq

namespace GrpcClientCall

def resume (c : GrpcClientCall) : Left → GrpcClientCall
  | .nothing => { c with phase := .settled }
  | .open => { c with phase := .settled, opened := true }
  | .deliver => { c with phase := .settled }.deliverOrRead

def callOpen (c : GrpcClientCall) (result : Option Error) (left : Left) : GrpcClientCall :=
  if c.openHandler then
    { c with openHandler := false, opens := c.opens ++ [result], phase := .opening left }
  else c.resume left

def refusal (c : GrpcClientCall) : Option Error :=
  if c.session then validateOptions c.options else some ⟨.configuration, "gRPC client has no HTTP/2 session"⟩

def start (c : GrpcClientCall) : GrpcClientCall :=
  if c.cancelled then c
  else
    match c.refusal with
    | some error => c.callOpen (some error) .nothing
    | none => { c with phase := .exchanging }

end GrpcClientCall

def isGrpcMediaType (contentType : Bytes) : Bool :=
  let mediaType := lowerCopy (contentType.takeWhile (· ≠ 59))
  mediaType = ascii "application/grpc" || mediaType = ascii "application/grpc+proto"

/-- What `on_response` refuses before it takes the body. -/
def Response.fault : Response → Option Fault
  | .failed error => some (.exchange error)
  | .response status headers body =>
    if status ≠ 200 then some (.httpStatus status)
    else
      match findHeader headers (ascii "content-type") with
      | none => some .noContentType
      | some contentType => if !isGrpcMediaType contentType then some .contentType else if !body then
          some .noBody else none

/-- The status in the headers of a response, where there is one. -/
def Response.initial : Response → Option (Except Error GrpcStatus)
  | .failed _ => none
  | .response _ headers _ => if (findHeader headers (ascii "grpc-status")).isSome then
      some (parseStatus headers) else none

namespace GrpcClientCall

def onResponse (c : GrpcClientCall) (response : Response) : GrpcClientCall :=
  if c.cancelled then c
  else
    match response.fault with
    | some fault => ({ c with opened := true }.failReads fault).callOpen (some fault.error) .nothing
    | none =>
      match response.initial with
      | some (.error error) => ({ c with responseBody := true }.failReads (.status error)).callOpen
        (some error) .open
      | some (.ok status) =>
        { c with responseBody := true, status := some status, opened := true }.callOpen none .deliver
      | none => { c with responseBody := true, opened := true }.callOpen none .deliver

def onResponseRead (c : GrpcClientCall) : Pulled → GrpcClientCall
  | .stopped => c
  | .bytes chunk =>
    let c := { c with readingBody := false }
    let allowed := c.options.maxMessageSize + (5 + kReadBufferSize)
    if chunk = [] then c.failReads .noProgress
    else if allowed - min c.rest.length allowed < chunk.length then c.failReads .flooded
    else { c with responseBytes := c.responseBytes ++ chunk, received := c.received ++ chunk }.deliverOrRead
  | .eof trailers => { c with readingBody := false, bodyEof := true, trailers }.deliverOrRead
  | .error aborted message => { c with readingBody := false }.failReads (.read aborted message)

end GrpcClientCall

/-- Nothing but calls of the call happens while the open handler runs; `returned` is its end. -/
inductive Event
  | start
  | response (response : Response)
  | returned
  | bodyRead (pulled : Pulled)
  | read
  | cancel
  | deliver
  deriving DecidableEq

/-- No more than the read buffer holds comes with one read. -/
def Pulled.fitted : Pulled → Pulled
  | .bytes chunk => .bytes (chunk.take kReadBufferSize)
  | pulled => pulled

open GrpcClientCall in
def step (c : GrpcClientCall) : Event → GrpcClientCall
  | .start => if c.phase = .starting then { c with phase := .settled }.start else c
  | .response response => if c.phase = .exchanging then { c with phase := .settled }.onResponse response else c
  | .returned =>
    match c.phase with
    | .opening left => c.resume left
    | _ => c
  | .bodyRead pulled => if c.pull && !c.phase.inHandler then
    { c with pull := false }.onResponseRead pulled.fitted else c
  | .read => c.asyncReadMessage
  | .cancel => c.cancel
  | .deliver =>
    match c.posted with
    | [] => c
    | a :: posted => if c.phase.inHandler then c else { c with posted, answered := c.answered ++ [a] }

/-! ### The property -/

namespace GrpcClientCall

def answers (c : GrpcClientCall) : List Answer := c.answered ++ c.posted

def returned (c : GrpcClientCall) : List Bytes := c.answers.filterMap fun a => a.result.data?

def next (c : GrpcClientCall) : Frame := nextFrame c.options.maxMessageSize c.rest

/-- What a waiting read waits for is still to come: the body's bytes, or the response before it. -/
def Coming (c : GrpcClientCall) : Prop := c.pull = true ∨ c.cancelled = false ∧ c.phase.early = true ∨
    c.phase = .opening .deliver

/-- An error that the bytes give, or no error of theirs. -/
def Justified (c : GrpcClientCall) : Fault → Prop
  | .compressed => c.next = .compressed
  | .tooLong => c.next = .tooLong
  | .truncated => c.bodyEof = true ∧ c.rest ≠ [] ∧ c.next = .incomplete
  | .flooded => False
  | .cancelled => c.cancelled = true
  | _ => True

end GrpcClientCall

/-- **What the call owes its reads**: each handler is called once, or waits for what is to come; the
messages are those of the stream, in order and within the limit; the end is told behind the last of them,
of a stream of whole frames with its status; an error is not told of a stream of frames that the limit
allows. -/
structure Sound (c : GrpcClientCall) : Prop where
  once : Calls.Once (c.answers.map Answer.op) c.pendingRead c.reads
  opens : c.opens.length + (if c.openHandler then 1 else 0) = 1 ∧ (c.openHandler = true → c.Coming)
  waits : c.pendingRead ≠ none → c.Coming ∧
    (c.opened = true → c.phase.inHandler = false → c.readError = none ∧ c.bodyEof = false ∧ c.next = .incomplete)
  exact : ∀ messages, Framed messages → c.received <+: messages.flatMap frame → c.returned <+: messages
  limit : ∀ message ∈ c.returned, message.length ≤ c.options.maxMessageSize
  allowed : ∀ messages, Framed messages → (∀ message ∈ messages, message.length ≤ c.options.maxMessageSize) →
    c.received <+: messages.flatMap frame → c.readError ≠ some .compressed ∧ c.readError ≠ some .tooLong
  errors : ∀ a ∈ c.answers, ∀ fault, a.result = .error fault → fault = .busy ∨ fault = .cancelled ∧
    c.cancelled = true ∨ c.readError = some fault
  faults : ∀ fault, c.readError = some fault → c.Justified fault
  finished : ∀ a ∈ c.answers, a.result = .finished → c.received = c.returned.flatMap frame ∧
    c.bodyEof = true ∧ c.status ≠ none
  last : c.answers.Pairwise fun a b => a.result = .finished → b.result.data? = none

/-! ### The condition -/

namespace GrpcClientCall

/-- The body can still be read: no task of a read has been stopped. -/
def Readable (c : GrpcClientCall) : Prop := c.responseBody = true ∧ (c.readingBody = true → c.pull = true)

instance (c : GrpcClientCall) : Decidable c.Readable := inferInstanceAs (Decidable (_ ∧ _))

/-- A read that is called now is answered, or what it waits for is to come. -/
def Served (c : GrpcClientCall) : Prop :=
  c.opened = true ∧ (c.readError.isSome ∨ c.Readable) ∨ c.cancelled = false ∧ c.phase.early = true

instance (c : GrpcClientCall) : Decidable c.Served := inferInstanceAs (Decidable (_ ∨ _))

end GrpcClientCall

/-- **The condition**: no read is called, and none waits, where nothing is to come that answers it: where
the start is refused, in an open handler that is told of a bad status, in a call that was cancelled before
its response or whose body read was stopped, and under a body read that is stopped. -/
def Clear (c : GrpcClientCall) : Event → Prop
  | .start => c.phase = .starting → c.cancelled = false → c.refusal.isSome → c.pendingRead = none
  | .bodyRead pulled => c.pull = true → c.phase.inHandler = false → pulled = .stopped → c.pendingRead = none
  | .read => c.pendingRead = none → c.Served
  | _ => True

instance (c : GrpcClientCall) : (event : Event) → Decidable (Clear c event)
  | .start => inferInstanceAs (Decidable (_ → _ → _ → _))
  | .bodyRead _ => inferInstanceAs (Decidable (_ → _ → _ → _))
  | .read => inferInstanceAs (Decidable (_ → _))
  | .response _ | .returned | .cancel | .deliver => isTrue trivial

/-! ### What the moves keep -/

structure Told (c : GrpcClientCall) : Prop where
  once : Calls.Once (c.answers.map Answer.op) c.pendingRead c.reads
  errors : ∀ a ∈ c.answers, ∀ fault, a.result = .error fault → fault = .busy ∨ fault = .cancelled ∧
    c.cancelled = true ∨ c.readError = some fault
  finished : ∀ a ∈ c.answers, a.result = .finished → c.responseFinished = true
  last : c.answers.Pairwise fun a b => a.result = .finished → b.result.data? = none
  limit : ∀ message ∈ c.returned, message.length ≤ c.options.maxMessageSize ∧ message.length < 2 ^ 32

/-- **The books**, also where a step is on its way. -/
structure Books (c : GrpcClientCall) : Prop extends Told c where
  messages : c.received = c.returned.flatMap frame ++ c.rest
  offset : c.responseOffset ≤ c.responseBytes.length
  faults : ∀ fault, c.readError = some fault → c.Justified fault
  ended : c.responseFinished = true → c.rest = [] ∧ c.bodyEof = true ∧ c.status ≠ none
  reading : c.readingBody = true → c.opened = true ∧ c.responseBody = true ∧ c.bodyEof = false ∧
    c.readError = none ∧ c.next = .incomplete
  pull : c.pull = true → c.readingBody = true
  shut : c.opened = false → c.cancelled = false
  empty : c.responseBody = false → c.received = [] ∧ c.bodyEof = false
  early : c.phase.early = true → c.responseBody = false ∧ c.readError = none ∧
    (c.opened = true → c.cancelled = true)

structure Gates (c : GrpcClientCall) : Prop extends Books c where
  opens : c.opens.length + (if c.openHandler then 1 else 0) = 1
  held : c.openHandler = true ↔ c.cancelled = false ∧ c.phase.early = true
  opening : c.phase = .opening .deliver → c.opened = true ∧ c.Readable

structure Inv (c : GrpcClientCall) : Prop extends Gates c where
  waits : c.pendingRead ≠ none → c.opened = false ∧ c.phase.early = true ∨ c.pull = true ∨
    c.phase = .opening .deliver

variable {c d : GrpcClientCall} {a : Answer}

theorem returned_append (h : d.answers = c.answers ++ [a]) : d.returned = c.returned ++
    a.result.data?.toList := by
  rw [GrpcClientCall.returned, GrpcClientCall.returned, h, filterMap_append]
  cases hdata : a.result.data? with
  | none => simp [hdata]
  | some data => simp [hdata]

theorem Told.add (h : Told c) (hanswers : d.answers = c.answers ++ [a])
    (honce : Calls.Once (d.answers.map Answer.op) d.pendingRead d.reads) (hoptions : d.options = c.options)
    (hcancelled : c.cancelled = true → d.cancelled = true)
    (herror : ∀ fault, c.readError = some fault → d.readError = some fault)
    (hfinished : c.responseFinished = true → d.responseFinished = true)
    (htold : ∀ fault, a.result = .error fault → fault = .busy ∨ fault = .cancelled ∧ d.cancelled = true ∨
      d.readError = some fault)
    (hend : a.result = .finished → d.responseFinished = true)
    (hdata : ∀ data, a.result.data? = some data → c.responseFinished = false ∧
      data.length ≤ c.options.maxMessageSize ∧ data.length < 2 ^ 32) :
    Told d where
  once := honce
  errors b hb fault hfault := by
    rw [hanswers] at hb
    rcases mem_append.1 hb with hold | hnew
    · exact (h.errors b hold fault hfault).imp_right (Or.imp (And.imp_right hcancelled) (herror fault))
    · obtain rfl := mem_singleton.1 hnew
      exact htold fault hfault
  finished b hb hresult := by
    rw [hanswers] at hb
    rcases mem_append.1 hb with hold | hnew
    · exact hfinished (h.finished b hold hresult)
    · obtain rfl := mem_singleton.1 hnew
      exact hend hresult
  last := by
    rw [hanswers, pairwise_append]
    refine ⟨h.last, pairwise_singleton _ _, fun b hb b' hb' hresult => ?_⟩
    obtain rfl := mem_singleton.1 hb'
    cases hdata' : b'.result.data? with
    | none => rfl
    | some data => exact nomatch (h.finished b hb hresult).symm.trans (hdata data hdata').1
  limit message hmessage := by
    rw [returned_append hanswers] at hmessage
    rw [hoptions]
    rcases mem_append.1 hmessage with hold | hnew
    · exact h.limit message hold
    · exact (hdata message (Option.mem_toList.1 hnew)).2

theorem answers_postRead (c : GrpcClientCall) (op : Nat) (result : ReadResult) :
    (c.postRead op result).answers = c.answers ++ [⟨op, result⟩] :=
  (append_assoc _ _ _).symm

variable {op : Nat}

theorem answer_some (h : c.pendingRead = some op) (result : ReadResult) :
    c.answer result = { c with pendingRead := none }.postRead op result := by
  unfold GrpcClientCall.answer
  rw [h]

theorem answer_none (h : c.pendingRead = none) (result : ReadResult) : c.answer result = c := by
  unfold GrpcClientCall.answer
  rw [h]

theorem once_answer (h : Told c) (hpending : c.pendingRead = some op) (result : ReadResult) :
    Calls.Once ((c.answers ++ [Answer.mk op result]).map Answer.op) none c.reads := by
  rw [map_append]
  have honce := h.once
  rw [hpending] at honce
  exact honce.finish

/-! ### Deliveries -/

theorem consume_eq (c : GrpcClientCall) (hsize : c.responseOffset + size ≤ c.responseBytes.length) :
    ∃ bytes offset, c.consume size = { c with responseBytes := bytes, responseOffset := offset } ∧
    offset ≤ bytes.length ∧
      bytes.drop offset = c.rest.drop size := by
  unfold GrpcClientCall.consume GrpcClientCall.rest
  rw [drop_drop]
  dsimp only
  split
  · rename_i hall
    refine ⟨[], 0, rfl, Nat.le_refl 0, ?_⟩
    rw [hall, drop_length]
    rfl
  · split
    · exact ⟨_, 0, rfl, Nat.zero_le _, rfl⟩
    · exact ⟨_, _, rfl, hsize, rfl⟩

theorem Books.finish_cases (h : Books c) (heof : c.bodyEof = true) (hnext : c.next = .incomplete) :
    (∃ fault, c.finishResponse = .error fault ∧ c.Justified fault) ∨
    ∃ d status, c.finishResponse = .ok d ∧ c.rest = [] ∧
      { d with responseFinished := true } = { c with status := some status, responseFinished := true } := by
  unfold GrpcClientCall.finishResponse
  split
  · rename_i hfinished
    obtain ⟨hrest, -, hstatus⟩ := h.ended hfinished
    obtain ⟨status, hstatus⟩ := Option.ne_none_iff_exists'.1 hstatus
    refine .inr ⟨c, status, rfl, hrest, ?_⟩
    rw [← hstatus]
  · split
    · rename_i hmore
      refine .inl ⟨.truncated, rfl, heof, fun hempty => ?_, hnext⟩
      have := h.offset
      have := drop_eq_nil_iff.1 hempty
      omega
    · rename_i hall
      have hrest : c.rest = [] := drop_eq_nil_iff.2 (Nat.le_of_eq (not_ne_iff.1 hall).symm)
      split
      · split
        · exact .inl ⟨_, rfl, trivial⟩
        · split
          · exact .inl ⟨_, rfl, trivial⟩
          · exact .inr ⟨_, _, rfl, hrest, rfl⟩
      · split
        · exact .inl ⟨_, rfl, trivial⟩
        · rename_i hstatus
          obtain ⟨status, hstatus⟩ := Option.ne_none_iff_exists'.1 hstatus
          refine .inr ⟨_, status, rfl, hrest, ?_⟩
          rw [← hstatus]

theorem Books.late (h : Books c) (hbody : c.responseBody = true) : c.phase.early = false :=
  (Bool.not_eq_true _).mp fun hearly => (nomatch hbody.symm.trans (h.early hearly).1)

/-- **What `deliver_or_read` does**, by what it finds. -/
inductive Delivered (c : GrpcClientCall) : GrpcClientCall → Prop
  | idle (h : c.pendingRead = none ∨ c.opened = false) : Delivered c c
  | told {op : Nat} {fault : Fault} (hpending : c.pendingRead = some op) (hopened : c.opened = true)
    (herror : c.readError = some fault) :
    Delivered c ({ c with pendingRead := none }.postRead op (.error fault))
  | failed {op : Nat} {fault : Fault} (hpending : c.pendingRead = some op) (hopened : c.opened = true)
    (hnone : c.readError = none)
      (hidle : c.readingBody = false) (hfault : c.Justified fault) (hbody : c.responseBody = true) :
    Delivered c ({ c with readError := some fault, pendingRead := none }.postRead op (.error fault))
  | message {op : Nat} {message bytes : Bytes} {offset : Nat} (hpending : c.pendingRead = some op)
    (hopened : c.opened = true)
      (hnone : c.readError = none) (hnext : c.next = .message message) (hoffset : offset ≤ bytes.length)
      (hbytes : bytes.drop offset = c.rest.drop (message.length + 5)) :
    Delivered c ({ c with responseBytes := bytes, responseOffset := offset, pendingRead := none }.postRead
      op (.message message))
  | finished {op : Nat} {status : GrpcStatus} (hpending : c.pendingRead = some op)
    (hopened : c.opened = true) (hnone : c.readError = none)
      (heof : c.bodyEof = true) (hrest : c.rest = []) :
    Delivered c ({ c with status := some status, responseFinished := true, pendingRead :=
      none }.postRead op .finished)
  | read {op : Nat} (hpending : c.pendingRead = some op) (hopened : c.opened = true)
    (hnone : c.readError = none) (heof : c.bodyEof = false)
      (hnext : c.next = .incomplete) : Delivered c c.readResponse

theorem failReads_some (hnone : c.readError = none) (hpending : c.pendingRead = some op) (fault : Fault) :
    c.failReads fault = { c with readError := some fault, pendingRead := none }.postRead op (.error fault) := by
  unfold GrpcClientCall.failReads
  rw [if_neg (by rw [hnone]; decide)]
  exact answer_some (c := { c with readError := some fault }) hpending _

theorem Books.has_body (h : Books c) (hnext : c.next ≠
    .incomplete ∨ c.bodyEof = true) : c.responseBody = true := by
  refine by_contra fun hnone => ?_
  obtain ⟨hreceived, heof⟩ := h.empty ((Bool.not_eq_true _).mp hnone)
  rcases hnext with hnext | heof'
  · have hrest := h.messages
    rw [hreceived] at hrest
    refine hnext ?_
    rw [GrpcClientCall.next, (append_eq_nil_iff.1 hrest.symm).2]
    rfl
  · exact nomatch heof.symm.trans heof'

theorem Books.idle (h : Books c) (hnext : c.next ≠ .incomplete ∨ c.bodyEof = true) : c.readingBody = false := by
  refine by_contra fun hreading => ?_
  obtain ⟨-, -, heof, -, hincomplete⟩ := h.reading ((Bool.not_eq_false _).mp hreading)
  rcases hnext with hnext | heof'
  · exact hnext hincomplete
  · exact nomatch heof.symm.trans heof'

theorem Books.delivered (h : Books c) : Delivered c c.deliverOrRead := by
  unfold GrpcClientCall.deliverOrRead
  split
  · rename_i hidle
    exact .idle hidle
  rename_i hbusy
  rw [not_or] at hbusy
  obtain ⟨op, hpending⟩ := Option.ne_none_iff_exists'.1 hbusy.1
  have hopened := (Bool.not_eq_false _).mp hbusy.2
  have hfail (fault : Fault) (hnone : c.readError = none) (hnext : c.next ≠ .incomplete ∨ c.bodyEof = true)
      (hfault : c.Justified fault) :
      Delivered c (c.failReads fault) := by
    rw [failReads_some hnone hpending]
    exact .failed hpending hopened hnone (h.idle hnext) hfault (h.has_body hnext)
  split
  · rename_i fault herror
    rw [answer_some hpending]
    exact .told hpending hopened herror
  · rename_i hnone
    split
    · rename_i hnext
      exact hfail _ hnone (.inl fun hincomplete => (nomatch hnext.symm.trans hincomplete)) hnext
    · rename_i hnext
      exact hfail _ hnone (.inl fun hincomplete => (nomatch hnext.symm.trans hincomplete)) hnext
    · rename_i message hnext
      have hfits : c.responseOffset + (message.length + 5) ≤ c.responseBytes.length := by
        have hframe := congrArg List.length (nextFrame_message hnext).1
        have hrest : c.rest.length = c.responseBytes.length - c.responseOffset := length_drop
        have := h.offset
        rw [length_append, length_frame, hrest] at hframe
        omega
      obtain ⟨bytes, offset, hconsume, hoffset, hbytes⟩ := consume_eq c hfits
      rw [hconsume, answer_some (c := { c with responseBytes := bytes, responseOffset := offset }) hpending]
      exact .message hpending hopened hnone hnext hoffset hbytes
    · rename_i hnext
      split
      · rename_i heof
        rcases h.finish_cases heof hnext with ⟨fault, hfinish, hfault⟩ | ⟨d, status, hfinish, hrest, hd⟩
        · rw [hfinish]
          exact hfail fault hnone (.inr heof) hfault
        · rw [hfinish]
          dsimp only
          rw [hd, answer_some (c := { c with status := some status, responseFinished := true }) hpending]
          exact .finished hpending hopened hnone heof hrest
      · rename_i heof
        exact .read hpending hopened hnone ((Bool.not_eq_true _).mp heof) hnext

theorem Books.messages_told (h : Books c) (hanswers : d.answers = c.answers ++ [a])
    (hdata : a.result.data? = none)
    (hreceived : d.received = c.received) (hrest : d.rest = c.rest) :
    d.received = d.returned.flatMap frame ++ d.rest := by
  rw [returned_append hanswers, hdata, hreceived, hrest, Option.toList_none, append_nil]
  exact h.messages

theorem Books.messages_data (h : Books c) {data : Bytes} (hanswers : d.answers = c.answers ++ [a])
    (hdata : a.result.data? = some data) (hreceived : d.received = c.received) (hrest :
      c.rest = frame data ++ d.rest) :
    d.received = d.returned.flatMap frame ++ d.rest := by
  rw [returned_append hanswers, hdata, hreceived, h.messages, hrest, Option.toList_some, flatMap_append,
    flatMap_singleton, append_assoc]

variable {fault : Fault}

theorem Books.tell (h : Books c) (hpending : c.pendingRead = some op)
    (hfault : fault = .cancelled ∧ c.cancelled = true ∨ c.readError = some fault) :
    Books ({ c with pendingRead := none }.postRead op (.error fault)) :=
  { h with
    toTold := h.toTold.add (answers_postRead _ op _)
      (by rw [answers_postRead]; exact once_answer h.toTold hpending _) rfl id (fun _ => id) id
      (fun f hf => .inr (ReadResult.error.inj hf ▸ hfault)) nofun nofun
    messages := h.messages_told (answers_postRead _ op _) rfl rfl rfl }

theorem Books.fail (h : Books c) (hnone : c.readError = none) (hidle : c.readingBody = false)
    (hlate : c.phase.early = false) (hfault : c.Justified fault) : Books { c with readError := some fault } :=
  { h with
    errors := fun a ha f hf => by
      rcases h.errors a ha f hf with hbusy | hcancelled | hsome
      · exact .inl hbusy
      · exact .inr (.inl hcancelled)
      · exact nomatch hnone.symm.trans hsome
    faults := fun f hf => Option.some.inj hf ▸ hfault
    reading := fun hreading => (nomatch hidle.symm.trans hreading)
    early := fun hearly => (nomatch hlate.symm.trans hearly) }

theorem readResponse_eq (c : GrpcClientCall) :
    c.readResponse = c ∨ c.readResponse = { c with readingBody := true, pull := true } ∧
    c.responseBody = true ∧ c.readingBody = false := by
  unfold GrpcClientCall.readResponse
  split
  · exact .inl rfl
  · rename_i hready
    simp only [not_or, Bool.not_eq_false, Bool.not_eq_true] at hready
    exact .inr ⟨rfl, hready.1, hready.2.1⟩

theorem Books.deliverOrRead (h : Books c) : Books c.deliverOrRead := by
  have hdelivered := h.delivered
  generalize c.deliverOrRead = d at hdelivered ⊢
  cases hdelivered with
  | idle => exact h
  | told hpending hopened herror => exact h.tell hpending (.inr herror)
  | @failed op fault hpending hopened hnone hidle hfault hbody =>
    exact (h.fail hnone hidle (h.late hbody) hfault).tell hpending (.inr rfl)
  | @message op message bytes offset hpending hopened hnone hnext hoffset hbytes =>
    have hidle := h.idle (.inl fun hincomplete => (nomatch hnext.symm.trans hincomplete))
    obtain ⟨hframe, hlimit, hlength⟩ := nextFrame_message hnext
    have hunfinished : c.responseFinished = false := by
      refine by_contra fun hfinished => ?_
      obtain ⟨hrest, -, -⟩ := h.ended ((Bool.not_eq_false _).mp hfinished)
      rw [GrpcClientCall.next, hrest] at hnext
      cases hnext
    exact { h with
      toTold := h.toTold.add (answers_postRead _ op _)
          (by rw [answers_postRead]; exact once_answer h.toTold hpending _) rfl id (fun _ => id) id
        nofun nofun (fun data hdata => Option.some.inj hdata ▸ ⟨hunfinished, hlimit, hlength⟩)
      messages := h.messages_data (answers_postRead _ op _) rfl rfl (by
        rw [← hbytes] at hframe
        exact hframe)
      offset := hoffset
      faults := fun f hf => (nomatch hnone.symm.trans hf)
      ended := fun hfinished => (nomatch hunfinished.symm.trans hfinished)
      reading := fun hreading => (nomatch hidle.symm.trans hreading) }
  | @finished op status hpending hopened hnone heof hrest =>
    exact { h with
      toTold := h.toTold.add (answers_postRead _ op _)
          (by rw [answers_postRead]; exact once_answer h.toTold hpending _) rfl id (fun _ => id)
        (fun _ => rfl) nofun (fun _ => rfl) nofun
      messages := h.messages_told (answers_postRead _ op _) rfl rfl rfl
      ended := fun _ => ⟨hrest, heof, nofun⟩ }
  | @read op hpending hopened hnone heof hnext =>
    rcases readResponse_eq c with hsame | ⟨hread, hbody, -⟩
    · rw [hsame]
      exact h
    · rw [hread]
      exact { h with
        reading := fun _ => ⟨hopened, hbody, heof, hnone, hnext⟩
        pull := fun _ => rfl }

theorem Delivered.same (h : Delivered c d) : d.phase = c.phase ∧ d.openHandler = c.openHandler ∧
    d.cancelled = c.cancelled ∧
    d.opened = c.opened ∧ d.opens = c.opens ∧ (c.Readable → d.Readable) := by
  cases h with
  | idle | told | failed | message | finished => exact ⟨rfl, rfl, rfl, rfl, rfl, id⟩
  | read =>
    rcases readResponse_eq c with hsame | ⟨hread, hbody, -⟩
    · rw [hsame]
      exact ⟨rfl, rfl, rfl, rfl, rfl, id⟩
    · rw [hread]
      exact ⟨rfl, rfl, rfl, rfl, rfl, fun _ => ⟨hbody, fun _ => rfl⟩⟩

theorem Books.deliver_pull (h : Books c) (hopened : c.opened = true) (hready : c.readError ≠ none ∨ c.Readable) :
    c.deliverOrRead.pendingRead ≠ none → c.deliverOrRead.pull = true := by
  have hdelivered := h.delivered
  generalize c.deliverOrRead = d at hdelivered ⊢
  cases hdelivered with
  | idle hidle =>
    rcases hidle with hnone | hclosed
    · exact absurd hnone
    · exact nomatch hclosed.symm.trans hopened
  | told | failed | message | finished => exact fun hpending => absurd rfl hpending
  | read _ _ hnone heof hnext =>
    obtain ⟨hbody, hpull⟩ := hready.resolve_left (absurd hnone)
    intro _
    unfold GrpcClientCall.readResponse
    by_cases hreading : c.readingBody = true
    · rw [if_pos (.inr (.inl hreading))]
      exact hpull hreading
    · rw [if_neg (by simp [hbody, hreading, heof, hnone])]

theorem Books.deliver_stuck (h : Books c) (hopened : c.opened = true) (hpending : c.pendingRead ≠ none)
    (hnone : c.readError = none)
    (hstuck : ¬ c.Readable) : c.deliverOrRead = c := by
  have hbare : c.readingBody = true ∨ c.responseBody = false := by
    by_contra hnot
    rw [not_or, Bool.not_eq_true, Bool.not_eq_false] at hnot
    exact hstuck ⟨hnot.2, fun hreading => (nomatch hnot.1.symm.trans hreading)⟩
  have hbytes : c.next = .incomplete ∧ c.bodyEof = false := by
    rcases hbare with hreading | hbody
    · exact ⟨(h.reading hreading).2.2.2.2, (h.reading hreading).2.2.1⟩
    · refine ⟨by_contra fun hnext => ?_, (h.empty hbody).2⟩
      exact nomatch hbody.symm.trans (h.has_body (.inl hnext))
  unfold GrpcClientCall.deliverOrRead
  rw [if_neg (by simp [hpending, hopened]), hnone]
  rw [show nextFrame c.options.maxMessageSize c.rest = .incomplete from hbytes.1]
  rw [if_neg (by rw [hbytes.2]; decide), GrpcClientCall.readResponse, if_pos]
  exact hbare.elim (fun hreading => .inr (.inl hreading)) .inl

/-! ### Reads and cancels -/

theorem read_cases (c : GrpcClientCall) :
    c.pendingRead ≠ none ∧ c.asyncReadMessage = { c with reads := c.reads + 1 }.postRead c.reads (.error .busy) ∨
    c.pendingRead = none ∧ c.asyncReadMessage =
    { c with reads := c.reads + 1, pendingRead := some c.reads }.deliverOrRead := by
  unfold GrpcClientCall.asyncReadMessage
  cases hpending : c.pendingRead with
  | none => exact .inr ⟨rfl, rfl⟩
  | some op => exact .inl ⟨nofun, rfl⟩

theorem Books.park (h : Books c) (hnone : c.pendingRead = none) : Books
    { c with reads := c.reads + 1, pendingRead := some c.reads } :=
  { h with
    once := by
      have honce := h.once
      rw [hnone] at honce
      exact honce.park }

theorem Books.read (h : Books c) : Books c.asyncReadMessage := by
  rcases read_cases c with ⟨-, hread⟩ | ⟨hnone, hread⟩
  · rw [hread]
    have honce : Calls.Once ((c.answers ++ [Answer.mk c.reads (.error .busy)]).map Answer.op) c.pendingRead
        (c.reads + 1) := by
      rw [map_append]
      exact h.once.answer
    exact { h with
      toTold := h.toTold.add (answers_postRead _ _ _) (by rw [answers_postRead]; exact honce) rfl id
        (fun _ => id) id
        (fun f hf => .inl (ReadResult.error.inj hf).symm) nofun nofun
      messages := h.messages_told (answers_postRead _ _ _) rfl rfl rfl }
  · rw [hread]
    exact (h.park hnone).deliverOrRead

theorem justified_cancelled (h : c.Justified fault) (opens : List (Option Error)) :
    { c with cancelled := true, opened := true, openHandler := false, opens }.Justified fault := by
  cases fault <;> first | exact h | exact rfl

theorem cancel_cases (c : GrpcClientCall) : c.cancelled = true ∧ c.cancel = c ∨
    c.cancelled = false ∧ ∃ opens, opens.length = c.opens.length + (if c.openHandler then 1 else 0) ∧
      c.cancel = { c with cancelled := true, opened := true, openHandler := false, opens }.answer
      (.error .cancelled) := by
  unfold GrpcClientCall.cancel
  split
  · rename_i hcancelled
    exact .inl ⟨hcancelled, rfl⟩
  · rename_i hcancelled
    refine .inr ⟨(Bool.not_eq_true _).mp hcancelled, _, ?_, rfl⟩
    split
    · exact length_append
    · rfl

theorem answer_same (c : GrpcClientCall) (result : ReadResult) :
    (c.answer result).pendingRead = none ∧ (c.answer result).phase = c.phase ∧
    (c.answer result).openHandler = c.openHandler ∧ (c.answer result).cancelled = c.cancelled ∧
    (c.answer result).opened = c.opened ∧
    (c.answer result).opens = c.opens ∧ (c.Readable → (c.answer result).Readable) := by
  cases hpending : c.pendingRead with
  | none =>
    rw [answer_none hpending]
    exact ⟨hpending, rfl, rfl, rfl, rfl, rfl, id⟩
  | some op =>
    rw [answer_some hpending]
    exact ⟨rfl, rfl, rfl, rfl, rfl, rfl, id⟩

theorem Books.answer (h : Books c) (hfault : fault = .cancelled ∧ c.cancelled = true ∨
    c.readError = some fault) :
    Books (c.answer (.error fault)) := by
  cases hpending : c.pendingRead with
  | none =>
    rw [answer_none hpending]
    exact h
  | some op =>
    rw [answer_some hpending]
    exact h.tell hpending hfault

/-! ### The steps -/

theorem Gates.deliver (h : Gates c)
    (hwaits : c.deliverOrRead.pendingRead ≠ none → c.opened = false ∧ c.phase.early = true ∨
      c.deliverOrRead.pull = true) : Inv c.deliverOrRead := by
  obtain ⟨hphase, hhandler, hcancelled, hopened, hopens, hready⟩ := h.toBooks.delivered.same
  refine { h.toBooks.deliverOrRead with opens := ?_, held := ?_, opening := ?_, waits := ?_ }
  · rw [hopens, hhandler]
    exact h.opens
  · rw [hhandler, hcancelled, hphase]
    exact h.held
  · rw [hphase, hopened]
    exact fun hopening => ⟨(h.opening hopening).1, hready (h.opening hopening).2⟩
  · rw [hphase, hopened]
    exact fun hpending => (hwaits hpending).imp_right .inl

theorem Gates.answer (h : Gates c)
    (hfault : fault = .cancelled ∧ c.cancelled = true ∨ c.readError = some fault) :
    Inv (c.answer (.error fault)) := by
  obtain ⟨hpending, hphase, hhandler, hcancelled, hopened, hopens, hready⟩ := answer_same c (.error fault)
  refine { h.toBooks.answer hfault with
    opens := ?_, held := ?_, opening := ?_, waits := fun hwaits => absurd hpending hwaits }
  · rw [hopens, hhandler]
    exact h.opens
  · rw [hhandler, hcancelled, hphase]
    exact h.held
  · rw [hphase, hopened]
    exact fun hopening => ⟨(h.opening hopening).1, hready (h.opening hopening).2⟩

theorem failReads_eq (hnone : c.readError = none) (fault : Fault) :
    c.failReads fault = { c with readError := some fault }.answer (.error fault) := by
  unfold GrpcClientCall.failReads
  rw [if_neg (by rw [hnone]; decide)]

theorem Gates.failReads (h : Gates c) (hnone : c.readError = none) (hidle : c.readingBody = false)
    (hlate : c.phase.early = false) (hfault : c.Justified fault) : Inv (c.failReads fault) := by
  have hgates : Gates { c with readError := some fault } := {
    h with toBooks := h.toBooks.fail hnone hidle hlate hfault }
  rw [failReads_eq hnone]
  exact hgates.answer (.inr rfl)

theorem Inv.read (h : Inv c) (hclear : Clear c .read) : Inv c.asyncReadMessage := by
  rcases read_cases c with ⟨-, hread⟩ | ⟨hnone, hread⟩
  · have hbooks := h.toBooks.read
    rw [hread] at hbooks ⊢
    exact { hbooks with opens := h.opens, held := h.held, opening := h.opening, waits := h.waits }
  · have hgates : Gates { c with reads := c.reads + 1, pendingRead := some c.reads } := {
      h with toBooks := h.toBooks.park hnone }
    rw [hread]
    refine hgates.deliver fun hwaits => ?_
    rcases hclear hnone with ⟨hopened, hready⟩ | ⟨hcancelled, hearly⟩
    · exact .inr (hgates.deliver_pull hopened (hready.imp_left Option.isSome_iff_ne_none.1) hwaits)
    · refine .inl ⟨(Bool.not_eq_true _).mp fun hopened => ?_, hearly⟩
      exact nomatch hcancelled.symm.trans ((h.early hearly).2.2 hopened)

theorem Inv.read_unclear (h : Inv c) (hclear : ¬ Clear c .read) : ¬ Sound c.asyncReadMessage := by
  intro hsound
  refine hclear fun hnone => by_contra fun hserved => ?_
  obtain ⟨hstuck, hlate⟩ := not_or.1 hserved
  have hstill : c.asyncReadMessage = { c with reads := c.reads + 1, pendingRead := some c.reads } := by
    rcases read_cases c with ⟨hpending, -⟩ | ⟨-, hread⟩
    · exact absurd hnone hpending
    · rw [hread]
      by_cases hopened : c.opened = true
      · have hnerror : c.readError = none := by_contra fun hsome =>
            hstuck ⟨hopened, .inl (Option.isSome_iff_ne_none.2 hsome)⟩
        exact (h.toBooks.park hnone).deliver_stuck hopened nofun hnerror fun hready =>
          hstuck ⟨hopened, .inr hready⟩
      · unfold GrpcClientCall.deliverOrRead
        rw [if_pos (.inr ((Bool.not_eq_true _).mp hopened))]
  rw [hstill] at hsound
  rcases (hsound.waits nofun).1 with hpull | hearly | hopening
  · obtain ⟨hopened, hbody, -⟩ := h.reading (h.pull hpull)
    exact hstuck ⟨hopened, .inr ⟨hbody, fun _ => hpull⟩⟩
  · exact hlate hearly
  · exact hstuck ⟨(h.opening hopening).1, .inr (h.opening hopening).2⟩

theorem Inv.cancel (h : Inv c) : Inv c.cancel := by
  rcases cancel_cases c with ⟨-, hcancel⟩ | ⟨-, opens, hopens, hcancel⟩
  · rw [hcancel]
    exact h
  · have hgates : Gates { c with cancelled := true, opened := true, openHandler := false, opens } := { h with
      errors := fun a ha f hf => (h.errors a ha f hf).imp_right (Or.imp_left (And.imp_right fun _ => rfl))
      faults := fun f hf => justified_cancelled (h.faults f hf) opens
      reading := fun hreading => ⟨rfl, (h.reading hreading).2⟩
      shut := nofun
      early := fun hearly => ⟨(h.early hearly).1, (h.early hearly).2.1, fun _ => rfl⟩
      opens := hopens.trans h.opens
      held := ⟨nofun, nofun⟩
      opening := fun hopening => ⟨rfl, (h.opening hopening).2⟩ }
    rw [hcancel]
    exact hgates.answer (.inl ⟨rfl, rfl⟩)

theorem Inv.deliver (h : Inv c) {posted : List Answer} (hposted : c.posted = a :: posted) :
    Inv { c with posted, answered := c.answered ++ [a] } := by
  have hanswers : GrpcClientCall.answers { c with posted, answered := c.answered ++ [a] } = c.answers := by
    rw [GrpcClientCall.answers, GrpcClientCall.answers, hposted]
    exact append_assoc _ _ _
  have hreturned : GrpcClientCall.returned { c with posted, answered := c.answered ++ [a] } = c.returned :=
    congrArg (List.filterMap fun a : Answer => a.result.data?) hanswers
  exact { h with
    once := by rw [hanswers]; exact h.once
    errors := by rw [hanswers]; exact h.errors
    finished := by rw [hanswers]; exact h.finished
    last := by rw [hanswers]; exact h.last
    limit := by rw [hreturned]; exact h.limit
    messages := by rw [hreturned]; exact h.messages }

/-! ### Opening -/

theorem Inv.beginning (h : Inv c) (hearly : c.phase.early = true) (hcancelled : c.cancelled = false) :
    c.openHandler = true ∧ c.opens = [] ∧ c.responseBody = false ∧ c.readError = none ∧
    c.readingBody = false := by
  have hhandler := h.held.2 ⟨hcancelled, hearly⟩
  have hopens := h.opens
  rw [hhandler] at hopens
  obtain ⟨hbody, herror, -⟩ := h.early hearly
  exact ⟨hhandler, length_eq_zero_iff.1 (Nat.succ.inj hopens), hbody, herror,
    (Bool.not_eq_true _).mp fun hreading => (nomatch hbody.symm.trans (h.reading hreading).2.1)⟩

theorem Inv.settle (h : Inv c) (hcancelled : c.cancelled = true) (hearly : c.phase.early = true) : Inv
    { c with phase := .settled } :=
  { h with
    early := nofun
    held := ⟨fun hhandler => (nomatch hcancelled.symm.trans (h.held.1 hhandler).1), nofun⟩
    opening := nofun
    waits := fun hpending => by
      rcases h.waits hpending with ⟨hclosed, -⟩ | hpull | hopening
      · exact nomatch hcancelled.symm.trans (h.shut hclosed)
      · exact .inr (.inl hpull)
      · rw [hopening] at hearly
        cases hearly }

variable {left : Left}

theorem Books.callOpen (h : Books c) (hhandler : c.openHandler = true) (hopens : c.opens = [])
    (result : Option Error) (hready : left = .deliver → c.opened = true ∧ c.Readable)
    (hwaits : c.pendingRead ≠ none → left = .deliver) : Inv (c.callOpen result left) := by
  unfold GrpcClientCall.callOpen
  rw [if_pos hhandler]
  exact { h with
    early := nofun
    opens := by rw [hopens]; rfl
    held := ⟨nofun, nofun⟩
    opening := fun hopening => hready (Phase.opening.inj hopening)
    waits := fun hpending => .inr (.inr (congrArg Phase.opening (hwaits hpending))) }

theorem Inv.start (h : Inv c) (hphase : c.phase = .starting)
    (hclear : Clear c .start) : Inv { c with phase := .settled }.start := by
  have hearly : c.phase.early = true := by rw [hphase]; rfl
  unfold GrpcClientCall.start
  split
  · rename_i hcancelled
    exact h.settle hcancelled hearly
  · rename_i hcancelled
    have hopen := (Bool.not_eq_true _).mp hcancelled
    obtain ⟨hhandler, hopens, -⟩ := h.beginning hearly hopen
    split
    · rename_i error hrefusal
      have hbooks : Books { c with phase := .settled } := { h.toBooks with early := nofun }
      have hnone := hclear hphase hopen (Option.isSome_iff_exists.2 ⟨error, hrefusal⟩)
      exact hbooks.callOpen hhandler hopens (some error) nofun fun hpending => absurd hnone hpending
    · exact { h with
        early := fun _ => h.early hearly
        held := ⟨fun hhandler => ⟨(h.held.1 hhandler).1, rfl⟩, fun hheld => h.held.2 ⟨hheld.1, hearly⟩⟩
        opening := nofun
        waits := fun hpending => by
          rcases h.waits hpending with ⟨hclosed, -⟩ | hpull | hopening
          · exact .inl ⟨hclosed, rfl⟩
          · exact .inr (.inl hpull)
          · exact nomatch hphase.symm.trans hopening }

theorem Inv.start_unclear (h : Inv c) (hphase : c.phase = .starting) (hclear : ¬ Clear c .start) : ¬ Sound
    { c with phase := .settled }.start := by
  have hearly : c.phase.early = true := by rw [hphase]; rfl
  intro hsound
  refine hclear fun _ hopen hrefused => by_contra fun hpending => ?_
  obtain ⟨hhandler, -, hbody, -⟩ := h.beginning hearly hopen
  obtain ⟨error, hrefusal⟩ := Option.isSome_iff_exists.1 hrefused
  unfold GrpcClientCall.start at hsound
  rw [if_neg (by rw [hopen]; decide), show GrpcClientCall.refusal { c with phase := .settled } =
    some error from hrefusal] at hsound
  dsimp only at hsound
  unfold GrpcClientCall.callOpen at hsound
  rw [if_pos hhandler] at hsound
  rcases (hsound.waits hpending).1 with hpull | ⟨-, hearly⟩ | hopening
  · exact nomatch hbody.symm.trans (h.reading (h.pull hpull)).2.1
  · cases hearly
  · cases hopening

theorem Response.fault_justified {response : Response} (h : response.fault = some fault) :
    c.Justified fault := by
  unfold Response.fault at h
  repeat' split at h
  all_goals cases h
  all_goals exact trivial

theorem Inv.mar (h : Inv c) (hearly : c.phase.early = true) (hcancelled : c.cancelled = false)
    (hfault : c.Justified fault)
    (opened responseBody : Bool) (result : Option Error) (hleft : left ≠ .deliver) :
    Inv (({ c with phase := .settled, opened, responseBody }.failReads fault).callOpen result left) := by
  obtain ⟨hhandler, hopens, hbody, herror, hidle⟩ := h.beginning hearly hcancelled
  have hbooks : Books { c with phase := .settled, opened, responseBody } := { h.toBooks with
    reading := fun hreading => (nomatch hidle.symm.trans hreading)
    shut := fun _ => hcancelled
    empty := fun _ => h.empty hbody
    early := nofun }
  rw [failReads_eq (c := { c with phase := .settled, opened, responseBody }) herror]
  obtain ⟨hpending, -, hhandler', -, -, hopens', -⟩ :=
    answer_same { c with phase := .settled, opened, responseBody, readError := some fault } (.error fault)
  exact ((hbooks.fail herror hidle rfl hfault).answer (.inr rfl)).callOpen (hhandler'.trans hhandler)
    (hopens'.trans hopens) result
    (fun hdeliver => absurd hdeliver hleft) fun hwaits => absurd hpending hwaits

theorem Inv.open (h : Inv c) (hearly : c.phase.early = true) (hcancelled : c.cancelled = false)
    (status : Option GrpcStatus) :
    Inv ({ c with phase := .settled, responseBody := true, status, opened := true }.callOpen none .deliver) := by
  obtain ⟨hhandler, hopens, hbody, -, hidle⟩ := h.beginning hearly hcancelled
  have hbooks : Books { c with phase := .settled, responseBody := true, status, opened := true } :=
    { h.toBooks with
      ended := fun hfinished => (nomatch (h.empty hbody).2.symm.trans (h.ended hfinished).2.1)
      reading := fun hreading => (nomatch hidle.symm.trans hreading)
      shut := nofun
      empty := nofun
      early := nofun }
  exact hbooks.callOpen hhandler hopens none
    (fun _ => ⟨rfl, rfl, fun hreading => (nomatch hidle.symm.trans hreading)⟩) fun _ => rfl

theorem Inv.response (h : Inv c) (response : Response) (hphase : c.phase = .exchanging) :
    Inv ({ c with phase := .settled }.onResponse response) := by
  have hearly : c.phase.early = true := by rw [hphase]; rfl
  unfold GrpcClientCall.onResponse
  split
  · rename_i hcancelled
    exact h.settle hcancelled hearly
  · rename_i hcancelled
    have hopen := (Bool.not_eq_true _).mp hcancelled
    split
    · rename_i fault hfault
      exact h.mar hearly hopen (response.fault_justified hfault) true c.responseBody (some fault.error) nofun
    · split
      · rename_i error hinitial
        exact h.mar hearly hopen (show c.Justified (.status error) from trivial) c.opened true (some error) nofun
      · exact h.open hearly hopen (some _)
      · exact h.open hearly hopen c.status

theorem Inv.resume (h : Inv c) (hphase : c.phase = .opening left) : Inv (c.resume left) := by
  have hheld : c.openHandler = true ↔ c.cancelled = false ∧ Phase.early .settled = true := by
    rw [h.held, hphase]
    rfl
  have hwaits (hleft : left ≠ .deliver) (hpending : c.pendingRead ≠ none) : c.pull = true := by
    rcases h.waits hpending with ⟨-, hearly⟩ | hpull | hopening
    · rw [hphase] at hearly
      cases hearly
    · exact hpull
    · exact absurd (Phase.opening.inj (hphase.symm.trans hopening)) hleft
  cases left with
  | nothing => exact { h with
      early := nofun, held := hheld, opening := nofun,
      waits := fun hpending => .inr (.inl (hwaits nofun hpending)) }
  | «open» =>
    exact { h with
      reading := fun hreading => ⟨rfl, (h.reading hreading).2⟩
      shut := nofun
      early := nofun
      held := hheld
      opening := nofun
      waits := fun hpending => .inr (.inl (hwaits nofun hpending)) }
  | deliver =>
    obtain ⟨hopened, hready⟩ := h.opening hphase
    have hgates : Gates { c with phase := .settled } :=
      { h with early := nofun, held := hheld, opening := nofun }
    exact hgates.deliver fun hpending => .inr (hgates.deliver_pull hopened (.inr hready) hpending)

/-! ### Body reads -/

theorem Inv.pulled (h : Inv c) (hpull : c.pull = true) : Gates
    { c with pull := false, readingBody := false } ∧ c.opened = true ∧
    c.responseBody = true ∧ c.bodyEof = false ∧ c.readError = none ∧ c.next = .incomplete := by
  obtain ⟨hopened, hbody, heof, herror, hnext⟩ := h.reading (h.pull hpull)
  exact ⟨{ h.toGates with
    reading := nofun
    pull := nofun
    opening := fun hopening => ⟨hopened, hbody, nofun⟩ }, hopened, hbody, heof, herror, hnext⟩

variable {pulled : Pulled}

theorem Inv.bodyRead (h : Inv c) (hpull : c.pull = true) (hphase : c.phase.inHandler = false)
    (hclear : Clear c (.bodyRead pulled)) : Inv ({ c with pull := false }.onResponseRead pulled.fitted) := by
  obtain ⟨hgates, hopened, hbody, heof, herror, hnext⟩ := h.pulled hpull
  cases pulled with
  | stopped =>
    have hnone := hclear hpull hphase rfl
    exact { h with
      pull := nofun
      opening := fun hopening => by
        rw [show c.phase = .opening .deliver from hopening] at hphase
        cases hphase
      waits := fun hpending => absurd hnone hpending }
  | error aborted message => exact hgates.failReads herror rfl (h.late hbody) trivial
  | eof trailers =>
    have hended : Gates { c with pull := false, readingBody := false, bodyEof := true, trailers } :=
      { hgates with
        faults := fun fault hfault => (nomatch herror.symm.trans hfault)
        ended := fun hfinished => (nomatch heof.symm.trans (h.ended hfinished).2.1)
        reading := nofun
        empty := fun hnobody => (nomatch hbody.symm.trans hnobody) }
    exact hended.deliver fun hpending => .inr (hended.deliver_pull hopened (.inr ⟨hbody, nofun⟩) hpending)
  | bytes chunk =>
    have hfits : (chunk.take kReadBufferSize).length ≤ kReadBufferSize := length_take_le _ _
    unfold Pulled.fitted GrpcClientCall.onResponseRead
    dsimp only
    generalize chunk.take kReadBufferSize = chunk at hfits ⊢
    split
    · exact hgates.failReads herror rfl (h.late hbody) trivial
    · have hshort : c.rest.length < c.options.maxMessageSize + 5 := nextFrame_incomplete hnext
      rw [if_neg]
      · have hgiven : Gates { c with
            pull := false, readingBody := false, responseBytes := c.responseBytes ++ chunk,
                received := c.received ++ chunk } := { hgates with
          messages := by
            have hrest : (c.responseBytes ++ chunk).drop c.responseOffset = c.rest ++ chunk :=
                drop_append_of_le_length h.offset
            refine Eq.trans ?_ (congrArg (c.returned.flatMap frame ++ ·) hrest.symm)
            rw [h.messages, append_assoc]
          offset := by
            rw [length_append]
            exact Nat.le_add_right_of_le h.offset
          faults := fun fault hfault => (nomatch herror.symm.trans hfault)
          ended := fun hfinished => (nomatch heof.symm.trans (h.ended hfinished).2.1)
          reading := nofun
          empty := fun hnobody => (nomatch hbody.symm.trans hnobody) }
        exact hgiven.deliver fun hpending => .inr (hgiven.deliver_pull hopened (.inr ⟨hbody, nofun⟩) hpending)
      · rw [show GrpcClientCall.rest { c with pull := false, readingBody := false } = c.rest from rfl]
        omega

theorem Inv.bodyRead_unclear (h : Inv c) (hpull : c.pull = true) (hclear : ¬ Clear c (.bodyRead pulled)) :
    ¬ Sound ({ c with pull := false }.onResponseRead pulled.fitted) := by
  intro hsound
  refine hclear fun _ hphase hstopped => by_contra fun hpending => ?_
  subst hstopped
  rcases (hsound.waits hpending).1 with hsome | ⟨-, hearly⟩ | hopening
  · cases hsome
  · exact nomatch (h.late (h.pulled hpull).2.2.1).symm.trans hearly
  · rw [show c.phase = .opening .deliver from hopening] at hphase
    cases hphase

/-! ### The runs -/

theorem Inv.sound (h : Inv c) : Sound c where
  once := h.once
  opens := ⟨h.opens, fun hhandler => .inr (.inl (h.held.1 hhandler))⟩
  waits hpending := by
    rcases h.waits hpending with ⟨hclosed, hearly⟩ | hpull | hopening
    · exact ⟨.inr (.inl ⟨h.shut hclosed, hearly⟩), fun hopened => (nomatch hclosed.symm.trans hopened)⟩
    · obtain ⟨-, -, heof, herror, hnext⟩ := h.reading (h.pull hpull)
      exact ⟨.inl hpull, fun _ _ => ⟨herror, heof, hnext⟩⟩
    · refine ⟨.inr (.inr hopening), fun _ hphase => ?_⟩
      rw [hopening] at hphase
      cases hphase
  exact messages hframed hfront := by
    rw [h.messages] at hfront
    exact (frames_front (fun message hmessage => (h.limit message hmessage).2) hframed hfront).1
  limit message hmessage := (h.limit message hmessage).1
  allowed messages hframed hlimit hfront := by
    rw [h.messages] at hfront
    obtain ⟨-, hrest⟩ := frames_front (fun message hmessage => (h.limit message hmessage).2) hframed hfront
    have hallowed := nextFrame_allowed (fun message hmessage => hframed message (mem_of_mem_drop hmessage))
      (fun message hmessage => hlimit message (mem_of_mem_drop hmessage)) hrest
    exact ⟨fun herror => hallowed.1 (h.faults _ herror), fun herror => hallowed.2 (h.faults _ herror)⟩
  errors := h.errors
  faults := h.faults
  finished a ha hresult := by
    obtain ⟨hrest, heof, hstatus⟩ := h.ended (h.finished a ha hresult)
    have hmessages := h.messages
    rw [hrest, append_nil] at hmessages
    exact ⟨hmessages, heof, hstatus⟩
  last := h.last

variable {event : Event}

theorem Inv.next (h : Inv c) (hclear : Clear c event) : Inv (step c event) := by
  cases event with
  | start =>
    rw [step]
    split
    · rename_i hphase
      exact h.start hphase hclear
    · exact h
  | response response =>
    rw [step]
    split
    · rename_i hphase
      exact h.response response hphase
    · exact h
  | returned =>
    rw [step]
    split
    · rename_i hphase
      exact h.resume hphase
    · exact h
  | bodyRead pulled =>
    rw [step]
    split
    · rename_i hguard
      simp only [Bool.and_eq_true, Bool.not_eq_true'] at hguard
      exact h.bodyRead hguard.1 hguard.2 hclear
    · exact h
  | read => exact h.read hclear
  | cancel => exact h.cancel
  | deliver =>
    rw [step]
    split
    · exact h
    · rename_i hposted
      split
      · exact h
      · exact h.deliver hposted

theorem Inv.unclear (h : Inv c) (hclear : ¬ Clear c event) : ¬ Sound (step c event) := by
  cases event with
  | start =>
    have hphase : c.phase = .starting := by_contra fun hnot => hclear fun hphase => absurd hphase hnot
    rw [step, if_pos hphase]
    exact h.start_unclear hphase hclear
  | bodyRead pulled =>
    have hpull : c.pull = true := by_contra fun hnot => hclear fun hpull => absurd hpull hnot
    have hphase : c.phase.inHandler = false := by_contra fun hnot => hclear fun _ hphase => absurd hphase hnot
    rw [step, if_pos (by rw [hpull, hphase]; rfl)]
    exact h.bodyRead_unclear hpull hclear
  | read => exact h.read_unclear hclear
  | response | returned | cancel | deliver => exact absurd trivial hclear

theorem Inv.initial (session : Bool) (options : GrpcCallOptions) : Inv { session, options } where
  once := by simp [Calls.Once, GrpcClientCall.answers]
  errors := nofun
  finished := nofun
  last := List.Pairwise.nil
  limit := nofun
  messages := rfl
  offset := Nat.le_refl 0
  faults := nofun
  ended := nofun
  reading := nofun
  pull := nofun
  shut := fun _ => rfl
  empty := fun _ => ⟨rfl, rfl⟩
  early := fun _ => ⟨rfl, rfl, nofun⟩
  opens := rfl
  held := ⟨fun _ => ⟨rfl, rfl⟩, fun _ => rfl⟩
  opening := nofun
  waits := fun hpending => absurd rfl hpending

/-- **The reads of a call**: in every run, of any call, the reads get what they are owed in every state
exactly when every step meets the condition. -/
theorem calls_sound_iff (session : Bool) (options : GrpcCallOptions) (events : List Event) :
    (∀ pre, pre <+: events → Sound (Runs.run step { session, options } pre)) ↔
    Runs.Along step Clear { session, options } events :=
  Runs.forall_prefix_iff_along (P := Inv) (fun _ h => h.sound) (fun _ _ h hclear => h.next hclear)
    (fun _ _ h hclear => h.unclear hclear)
    (Inv.initial session options) events

def echo : GrpcCallOptions := { authority := ascii "localhost", method := ascii "/echo.Echo/Unary" }

/-- A read behind a cancel before the response is never called, nor is one whose body read is stopped. -/
theorem cancelled_read_waits :
    validateOptions echo = none ∧
    (Runs.run step { session := true, options := echo } [.start, .cancel,
      .response (.failed ⟨.timeout, "late"⟩), .read]).pendingRead = some 0 ∧
    ¬ Sound (Runs.run step { session := true, options := echo } [.start, .cancel,
      .response (.failed ⟨.timeout, "late"⟩), .read]) ∧
    ¬ Sound (Runs.run step { session := true, options := echo } [.start,
      .response (.response 200 [⟨ascii "content-type", ascii
        "application/grpc"⟩] true), .read, .returned, .bodyRead .stopped]) :=
  ⟨by decide, by decide, fun h => (h.waits (by decide)).1.elim nofun (Or.rec (by decide) nofun),
    fun h => (h.waits (by decide)).1.elim nofun (Or.rec (by decide) nofun)⟩

end ClashNative.Grpc
