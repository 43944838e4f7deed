import ClashNative.Feed
import ClashNative.Runs
import ClashNative.Segments
/-!
# V2rayMux — the v2ray carrier parser of the Shadowsocks WebSocket mux

`websocket_mux.cpp`: `read_more` appends what the carrier returned to `input_` and `parse_v2ray_frame`
takes one frame at a time off its front, for the stream that the frame names.  `Session.trace` is kept for
the statements only: each entry is what one parse erased from `input_` and the streams before and after
it.
-/
namespace ClashNative.V2rayMux

open Wire

def kV2rayNew : UInt8 := 0x01
def kV2rayKeep : UInt8 := 0x02
def kV2rayEnd : UInt8 := 0x03
def kV2rayKeepAlive : UInt8 := 0x04
def kV2rayNone : UInt8 := 0x00
def kV2rayData : UInt8 := 0x01
def kV2rayError : UInt8 := 0x02
def kV2rayMaximumMetadataSize : Nat := 512
def kMaximumMuxFrameSize : Nat := 0xffff

inductive MuxError
  | protocolError
  | messageSize
  | eof
  | carrier
  deriving DecidableEq, Repr

/-! ### One logical stream -/

inductive ReadResult
  | bytes (data : List UInt8)
  | error (e : MuxError)
  deriving DecidableEq, Repr

def ReadResult.data : ReadResult → List UInt8
  | .bytes data => data
  | .error _ => []

/-- `WebSocketMuxStreamState`, its read side: `incoming` holds the bytes of `incoming_` from
`incoming_offset_` on, `reader` the size of the parked read's buffer, `reads` (kept for the statements)
every completed read. -/
structure StreamState where
  incoming : List UInt8 := []
  reader : Option Nat := none
  remoteClosed : Bool := false
  closed : Bool := false
  reads : List ReadResult := []
  deriving DecidableEq, Repr

namespace StreamState

def received (st : StreamState) : List UInt8 := st.reads.flatMap ReadResult.data ++ st.incoming

def finishRead (st : StreamState) (r : ReadResult) : StreamState :=
  match st.reader with
  | none => st
  | some _ => { st with reader := none, reads := st.reads ++ [r] }

def deliverRead (st : StreamState) : StreamState :=
  if st.closed then st
  else
    match st.reader with
    | none => st
    | some room =>
      if st.incoming = [] then
        if st.remoteClosed then st.finishRead (.error .eof) else st
      else { st.finishRead (.bytes (st.incoming.take room)) with incoming := st.incoming.drop room }

def onData (data : List UInt8) (st : StreamState) : StreamState :=
  if st.closed ∨ st.remoteClosed then st else { st with incoming := st.incoming ++ data }.deliverRead

def onRemoteEnd (st : StreamState) : StreamState :=
  if st.closed then st else { st with remoteClosed := true }.deliverRead

def onSessionError (e : MuxError) (st : StreamState) : StreamState :=
  if st.closed then st else { st with closed := true }.finishRead (.error e)

def accepts (st : StreamState) : Bool := !st.closed && !st.remoteClosed

theorem finishRead_fields (st : StreamState) (r : ReadResult) :
    (st.finishRead r).incoming = st.incoming ∧ (st.finishRead r).closed = st.closed ∧
      (st.finishRead r).remoteClosed = st.remoteClosed := by
  unfold finishRead
  split <;> exact ⟨rfl, rfl, rfl⟩

theorem deliverRead_fields (st : StreamState) :
    st.deliverRead.received = st.received ∧ st.deliverRead.closed = st.closed ∧
      st.deliverRead.remoteClosed = st.remoteClosed := by
  unfold deliverRead
  split
  · exact ⟨rfl, rfl, rfl⟩
  · split
    · exact ⟨rfl, rfl, rfl⟩
    · rename_i room hroom
      split
      · split
        · simp [finishRead, hroom, received, ReadResult.data]
        · exact ⟨rfl, rfl, rfl⟩
      · simp [finishRead, hroom, received, ReadResult.data]

theorem received_onData (data : List UInt8) (st : StreamState) :
    (st.onData data).received = st.received ++ if st.accepts then data else [] := by
  unfold onData
  split
  · rename_i h
    have : st.accepts = false := by rcases h with h | h <;> simp [accepts, h]
    simp [this]
  · rename_i h
    have : st.accepts = true := by simpa [accepts] using h
    rw [this, (deliverRead_fields _).1]
    simp [received]

theorem closed_onData (data : List UInt8) (st : StreamState) : (st.onData data).closed = st.closed := by
  unfold onData
  split
  · rfl
  · rw [(deliverRead_fields _).2.1]

theorem received_onRemoteEnd (st : StreamState) : st.onRemoteEnd.received = st.received := by
  unfold onRemoteEnd
  split
  · rfl
  · rw [(deliverRead_fields _).1]
    rfl

theorem closed_onRemoteEnd (st : StreamState) : st.onRemoteEnd.closed = st.closed := by
  unfold onRemoteEnd
  split
  · rfl
  · rw [(deliverRead_fields _).2.1]

theorem received_onSessionError (e : MuxError) (st : StreamState) :
    (st.onSessionError e).received = st.received := by
  unfold onSessionError finishRead
  split
  · rfl
  · split <;> simp [received, ReadResult.data]

theorem closed_onSessionError (e : MuxError) (st : StreamState) : (st.onSessionError e).closed = true := by
  unfold onSessionError
  split
  · assumption
  · rw [(finishRead_fields _ _).2.1]

end StreamState

/-! ### The session -/

abbrev Streams := Nat → Option StreamState

structure Parse where
  bytes : List UInt8
  before : Streams
  after : Streams

/-- `WebSocketMuxSession`, what its v2ray parser reads and writes.  `orphans` are the streams that `fail`
took out of the map. -/
structure Session where
  maxFrameSize : Nat
  input : List UInt8 := []
  streams : Streams
  orphans : Streams := fun _ => none
  closed : Bool := false
  failure : Option MuxError := none
  trace : List Parse := []

namespace Session

def frameSize (s : Session) : Nat := min s.maxFrameSize kMaximumMuxFrameSize

/-- `fail`: the session closes and every stream in the map hears of it. -/
def fail (s : Session) (e : MuxError) : Session :=
  if s.closed then s
  else { s with closed := true, failure := some e, streams := fun _ => none,
                orphans := fun id => (s.streams id).map (StreamState.onSessionError e) }

def getBe16 (input : List UInt8) (i : Nat) : Nat := (input.getD i 0).toNat * 256 + (input.getD (i + 1) 0).toNat

def handleFrame (status option : UInt8) (payload : List UInt8) (st : StreamState) : StreamState :=
  if status = kV2rayEnd then st.onRemoteEnd
  else if status = kV2rayKeep ∧ option = kV2rayData then st.onData payload
  else if status = kV2rayError then st.onSessionError .protocolError
  else st

def modifyStream (streams : Streams) (id : Nat) (f : StreamState → StreamState) : Streams :=
  fun i => if i = id then (streams i).map f else streams i

/-- The end of `parse_v2ray_frame`: `start` bytes of head (and payload size), then the payload. -/
def takeFrame (s : Session) (wireId : Nat) (status option : UInt8) (start payloadSize : Nat) : Session :=
  let total := start + payloadSize
  let payload := (s.input.drop start).take payloadSize
  let streams := modifyStream s.streams wireId (handleFrame status option payload)
  { s with input := s.input.drop total, streams := streams,
           trace := s.trace ++ [⟨s.input.take total, s.streams, streams⟩] }

def parseV2rayFrame (s : Session) : Session × Bool :=
  if s.input.length < 2 then (s, false)
  else
    let metadataSize := getBe16 s.input 0
    if metadataSize < 4 ∨ kV2rayMaximumMetadataSize < metadataSize then (s.fail .protocolError, false)
    else if s.input.length < 2 + metadataSize then (s, false)
    else
      let status := s.input.getD 4 0
      let option := s.input.getD 5 0
      let total := 2 + metadataSize
      if status = kV2rayKeep ∧ option = kV2rayData then
        if s.input.length < total + 2 then (s, false)
        else
          let payloadSize := getBe16 s.input total
          if s.frameSize < payloadSize then (s.fail .messageSize, false)
          else if s.input.length < total + 2 + payloadSize then (s, false)
          else (s.takeFrame (getBe16 s.input 2) status option (total + 2) payloadSize, true)
      else (s.takeFrame (getBe16 s.input 2) status option total 0, true)

/-- `while (!closed_)`: until a parse wants more or fails. -/
def parseFrames : Nat → Session → Session
  | 0, s => s
  | n + 1, s =>
    if s.closed then s
    else
      match parseV2rayFrame s with
      | (s', true) => parseFrames n s'
      | (s', false) => s'

/-- The completion of a carrier read.  A read is outstanding exactly while the session is open; each
parsed frame takes six bytes at least, so as many rounds as there are bytes are enough. -/
def readDone (s : Session) (error : Option MuxError) (bytes : List UInt8) : Session :=
  if s.closed then s
  else
    match error with
    | some e => s.fail e
    | none =>
      if bytes = [] then s.fail .eof
      else
        let s' := { s with input := s.input ++ bytes }
        parseFrames (s'.input.length + 1) s'

def readAll (s : Session) (carrier : Segments UInt8) : Session :=
  Runs.run (fun s bytes => s.readDone none bytes) s carrier.pieces

def start (maxFrameSize : Nat) (streams : Streams) : Session := { maxFrameSize, streams }

end Session

end ClashNative.V2rayMux
