import ClashNative.Runs
import Mathlib.Data.List.Perm.Basic
/-!
# WebSocketStream — reads and writes over a Beast WebSocket

`WebSocketStreamState` of `websocket_client.cpp`.  A step is one turn of the stream's executor; a handler
is invoked where it is posted. Operations are numbered in the order in which they come up.
-/
namespace ClashNative.WebSocketStream

open List

abbrev Bytes := List UInt8

/-- The `boost::system::error_code`s a handler sees. -/
inductive Code
  | aborted | alreadyStarted | messageSize | eof | protocolError
  | other (value : Nat)
  deriving DecidableEq, Repr

/-- A Beast write: the operation it was started for, and its length. -/
structure BeastWrite where
  op : Nat
  length : Nat
  deriving DecidableEq, Repr

structure Ended extends BeastWrite where
  error : Option Code
  size : Nat
  deriving DecidableEq, Repr

structure Invocation where
  op : Nat
  error : Option Code
  size : Nat
  ended : Option Ended := none
  deriving DecidableEq, Repr

/-- `readHandler` is the parked read and the size of its buffer; `writing` are the Beast writes that are
out, `started` counts the operations; `payloads` and `returned`, what came in messages and what reads
returned, are kept for the statements. -/
structure Stream where
  incoming : Bytes := []
  incomingOffset : Nat := 0
  readHandler : Option (Nat × Nat) := none
  writeHandler : Option Nat := none
  writeSize : Nat := 0
  readError : Option Code := none
  readInProgress : Bool := false
  messageAvailable : Bool := false
  readClosed : Bool := false
  closed : Bool := false
  writing : List BeastWrite := []
  started : Nat := 0
  invoked : List Invocation := []
  payloads : Bytes := []
  returned : Bytes := []
  deriving DecidableEq

namespace Stream

def post (s : Stream) (op : Nat) (error : Option Code) (size : Nat) (ended : Option Ended := none) : Stream :=
  { s with invoked := s.invoked ++ [⟨op, error, size, ended⟩] }

def finishRead (s : Stream) (error : Option Code) (size : Nat) : Stream :=
  match s.readHandler with
  | none => s
  | some (op, _) => { s with readHandler := none }.post op error size

def finishWrite (s : Stream) (error : Option Code) (size : Nat) (ended : Option Ended := none) : Stream :=
  match s.writeHandler with
  | none => s
  | some op => { s with writeHandler := none, writeSize := 0 }.post op error size ended

def remaining (s : Stream) : Bytes := s.incoming.drop s.incomingOffset

def deliverRead (s : Stream) : Stream :=
  match s.readHandler with
  | none => s
  | some (_, buffer) =>
    if s.closed || !s.messageAvailable then s
    else
      let bytes := s.remaining.take buffer
      let s := { s with incomingOffset := s.incomingOffset + bytes.length, returned := s.returned ++ bytes }
      (if s.incomingOffset = s.incoming.length then
        { s with incoming := [], incomingOffset := 0, messageAvailable := false }
        else s).finishRead none bytes.length

def startReadMessage (s : Stream) : Stream :=
  if s.closed || s.readClosed || s.readInProgress || s.readHandler.isNone then s
  else { s with readInProgress := true }

def read (s : Stream) (size : Nat) : Stream :=
  let op := s.started
  let s := { s with started := op + 1 }
  if size = 0 then s.post op none 0
  else if s.closed then s.post op (some .aborted) 0
  else if s.readHandler.isSome then s.post op (some .alreadyStarted) 0
  else if s.messageAvailable then { s with readHandler := some (op, size) }.deliverRead
  else if s.readClosed then s.post op s.readError 0
  else { s with readHandler := some (op, size) }.startReadMessage

def write (maxMessageSize : Nat) (s : Stream) (length : Nat) : Stream :=
  let op := s.started
  let s := { s with started := op + 1 }
  if s.closed then s.post op (some .aborted) 0
  else if s.writeHandler.isSome then s.post op (some .alreadyStarted) 0
  else if maxMessageSize < length then s.post op (some .messageSize) 0
  else if length = 0 then s.post op none 0
  else { s with writeSize := length, writeHandler := some op, writing := s.writing ++ [⟨op, length⟩] }

def remoteClose (s : Stream) (error : Code) : Stream :=
  if s.closed || s.readClosed then s
  else { s with readClosed := true, readError := some error }.finishRead (some error) 0

def fail (s : Stream) (error : Code) : Stream :=
  if s.closed then s
  else
    { ({ s with closed := true, readClosed := true, readError := some error }.finishRead
      (some error) 0).finishWrite (some error) 0 with
      incoming := [], incomingOffset := 0, messageAvailable := false }

def close (s : Stream) : Stream := s.fail .aborted

def cancelRead (s : Stream) : Stream := s.finishRead (some .aborted) 0

def cancelWrite (s : Stream) : Stream := s.finishWrite (some .aborted) 0

end Stream

/-- How a Beast read ends: a message, of either kind, the close of the peer, or an error. -/
inductive Message
  | payload (bytes : Bytes) (binary : Bool)
  | closed
  | failed (error : Code)
  deriving DecidableEq, Repr

namespace Stream

def messageRead (maxMessageSize : Nat) (s : Stream) (message : Message) : Stream :=
  let s := { s with readInProgress := false }
  match message with
  | .closed => if s.closed then s else s.remoteClose .eof
  | .failed error => if s.closed then s else s.fail error
  | .payload bytes binary =>
    let s := { s with payloads := s.payloads ++ bytes }
    if s.closed then s
    else if !binary then s.fail .protocolError
    else if maxMessageSize < bytes.length then s.fail .messageSize
    else { s with incoming := bytes, incomingOffset := 0, messageAvailable := true }.deliverRead

def writeEnded (s : Stream) (index : Nat) (error : Option Code) (size : Nat) : Stream :=
  match s.writing[index]? with
  | none => s
  | some w =>
    let s := { s with writing := s.writing.eraseIdx index }
    if s.closed then s
    else s.finishWrite (if error = none ∧ size ≠ s.writeSize then some .messageSize else error) size
      (some ⟨w, error, size⟩)

end Stream

inductive Event
  | read (size : Nat)
  | write (length : Nat)
  | cancelRead
  | cancelWrite
  | close
  | messageRead (message : Message)
  | writeEnded (index : Nat) (error : Option Code) (size : Nat)
  deriving DecidableEq, Repr

def step (maxMessageSize : Nat) (s : Stream) : Event → Stream
  | .read size => s.read size
  | .write length => s.write maxMessageSize length
  | .cancelRead => s.cancelRead
  | .cancelWrite => s.cancelWrite
  | .close => s.close
  | .messageRead message => if s.readInProgress then s.messageRead maxMessageSize message else s
  | .writeEnded index error size => s.writeEnded index error size

/-- **What the end of a Beast write says to its own handler.** -/
def Ended.outcome (e : Ended) : Option Code :=
  if e.error = none ∧ e.size ≠ e.length then some .messageSize else e.error

/-- **The outcome is that of the operation's own Beast write**, where it is that of one. -/
def Invocation.Own (i : Invocation) : Prop := ∀ e, i.ended = some e → e.op = i.op ∧ i.error = e.outcome ∧
    i.size = e.size

def Stream.parked (s : Stream) : List Nat := (s.readHandler.map Prod.fst).toList ++ s.writeHandler.toList

/-- **What the stream owes**: one Beast write at a time, every handler invoked once or parked behind an
operation that is out, with the outcome of its own Beast write, and no byte of a message lost. -/
structure Sound (s : Stream) : Prop where
  one : s.writing.length ≤ 1
  once : (s.invoked.map Invocation.op ++ s.parked).Perm (List.range s.started)
  own : ∀ i ∈ s.invoked, i.Own
  reading : ∀ read, s.readHandler = some read → s.readInProgress = true
  writing : ∀ op, s.writeHandler = some op → s.writing.map BeastWrite.op = [op]
  returned : s.returned <+: s.payloads
  kept : s.closed = false → s.returned ++ s.remaining = s.payloads

/-- **No write is let in while a Beast write is out.** -/
def Free (maxMessageSize : Nat) (s : Stream) : Event → Prop
  | .write length => s.closed = false → s.writeHandler = none → length ≠ 0 → length ≤ maxMessageSize →
      s.writing = []
  | _ => True

/-! ## The moves -/

/-- **What the moves of the stream keep**, also where one hands over to the next. -/
structure Books (s : Stream) : Prop where
  one : s.writing.length ≤ 1
  once : (s.invoked.map Invocation.op ++ s.parked).Perm (List.range s.started)
  own : ∀ i ∈ s.invoked, i.Own
  out : ∀ op, s.writeHandler = some op → s.writing = [⟨op, s.writeSize⟩]
  returned : s.returned <+: s.payloads
  kept : s.closed = false → s.returned ++ s.remaining = s.payloads
  available : s.messageAvailable = false → s.remaining = []
  waiting : s.readInProgress = true → s.messageAvailable = false

theorem own_concat {invoked : List Invocation} (h : ∀ i ∈ invoked, i.Own) {last : Invocation}
    (hlast : last.Own) :
    ∀ i ∈ invoked ++ [last], i.Own := by
  intro i hi
  rcases mem_append.1 hi with hi | hi
  · exact h i hi
  · rw [mem_singleton.1 hi]
    exact hlast

theorem own_none (op : Nat) (error : Option Code) (size : Nat) : Invocation.Own ⟨op, error, size, none⟩ :=
  fun _ hnone => by cases hnone

variable {s : Stream}

theorem Books.finishRead (h : Books s) (error : Option Code) (size : Nat) : Books (s.finishRead error size) := by
  unfold Stream.finishRead
  split
  · exact h
  · rename_i op buffer hparked
    refine { h with once := ?_, own := own_concat h.own (own_none _ error size) }
    have honce := h.once
    rw [Stream.parked, hparked] at honce
    simpa [Stream.post, Stream.parked] using honce

theorem Books.finishWrite (h : Books s) {error : Option Code} {size : Nat} {ended : Option Ended}
    (hended : ∀ op, s.writeHandler = some op → Invocation.Own ⟨op, error, size, ended⟩) :
    Books (s.finishWrite error size ended) := by
  unfold Stream.finishWrite
  split
  · exact h
  · rename_i op hparked
    refine { h with
      once := ?_, own := own_concat h.own (hended op hparked), out := fun _ hnone => by cases hnone }
    have honce := h.once
    rw [Stream.parked, hparked] at honce
    simp only [Stream.post, Stream.parked, map_append, map_cons, map_nil, Option.toList_some, Option.toList_none,
      append_nil, append_assoc] at honce ⊢
    exact ((@perm_append_comm _ [op] _).append_left _).trans honce

theorem start_perm {invoked parked : List Nat} {n : Nat} (h : (invoked ++ parked).Perm (List.range n)) :
    (invoked ++ n :: parked).Perm (List.range (n + 1)) := by
  rw [range_succ]
  exact perm_middle.trans ((h.cons n).trans (perm_append_singleton n _).symm)

theorem Books.refuse (h : Books s) (error : Option Code) (size : Nat) :
    Books ({ s with started := s.started + 1 }.post s.started error size) := by
  refine { h with once := ?_, own := own_concat h.own (own_none _ error size) }
  have honce := start_perm h.once
  rw [← singleton_append, ← append_assoc] at honce
  rw [Stream.post, map_append]
  exact honce

theorem Books.park (h : Books s) (hnone : s.readHandler = none) (size : Nat) :
    Books { s with started := s.started + 1, readHandler := some (s.started, size) } := by
  have honce := h.once
  rw [Stream.parked, hnone] at honce
  exact { h with once := start_perm honce }

theorem Books.deliverRead (h : Books s) : Books s.deliverRead := by
  unfold Stream.deliverRead
  split
  · exact h
  · rename_i op buffer hparked
    split_ifs with hidle
    · exact h
    · rw [Bool.or_eq_true, not_or, Bool.not_eq_true, Bool.not_eq_true', Bool.not_eq_false] at hidle
      obtain ⟨hopen, havailable⟩ := hidle
      have hrest : s.returned ++ s.remaining.take buffer ++ s.incoming.drop
        (s.incomingOffset + (s.remaining.take buffer).length) = s.payloads := by
        rw [← drop_drop, append_assoc]
        change s.returned ++ (s.remaining.take buffer ++ s.remaining.drop (s.remaining.take buffer).length) = _
        rw [prefix_iff_eq_append.1 (List.take_prefix buffer s.remaining)]
        exact h.kept hopen
      have hwaiting : s.readInProgress = false := by
        by_contra hreading
        rw [h.waiting (by simpa using hreading)] at havailable
        cases havailable
      dsimp only
      refine Books.finishRead ?_ none _
      split
      · rename_i hend
        rw [hend, drop_length, append_nil] at hrest
        exact { h with
          returned := hrest ▸ prefix_rfl, kept := fun _ => (append_nil _).trans hrest, available := fun _ =>
            rfl, waiting := fun _ => rfl }
      · refine { h with returned := ⟨_, hrest⟩, kept := fun _ => hrest, available := fun hnone => ?_ }
        have hnone : s.messageAvailable = false := hnone
        rw [hnone] at havailable
        cases havailable

namespace Stream

variable (s : Stream) (error : Option Code) (size : Nat) (ended : Option Ended)

@[simp] theorem finishRead_readHandler : (s.finishRead error size).readHandler = none := by
  unfold finishRead
  split
  · assumption
  · rfl

@[simp] theorem finishRead_writeHandler : (s.finishRead error size).writeHandler = s.writeHandler := by
  unfold finishRead
  split <;> rfl

@[simp] theorem finishRead_closed : (s.finishRead error size).closed = s.closed := by
  unfold finishRead
  split <;> rfl

@[simp] theorem finishWrite_writeHandler : (s.finishWrite error size ended).writeHandler = none := by
  unfold finishWrite
  split
  · assumption
  · rfl

@[simp] theorem finishWrite_readHandler : (s.finishWrite error size ended).readHandler = s.readHandler := by
  unfold finishWrite
  split <;> rfl

@[simp] theorem finishWrite_closed : (s.finishWrite error size ended).closed = s.closed := by
  unfold finishWrite
  split <;> rfl

@[simp] theorem finishWrite_readClosed : (s.finishWrite error size ended).readClosed = s.readClosed := by
  unfold finishWrite
  split <;> rfl

@[simp] theorem finishWrite_readInProgress :
    (s.finishWrite error size ended).readInProgress = s.readInProgress := by
  unfold finishWrite
  split <;> rfl

theorem finishWrite_of_writing (writing : List BeastWrite) :
    finishWrite { s with writing } error size ended = { s.finishWrite error size ended with writing } := by
  obtain ⟨_, _, _, handler, _⟩ := s
  cases handler <;> rfl

variable {s}

theorem deliverRead_readHandler (havailable : s.messageAvailable = true)
    (hopen : s.closed = false) : s.deliverRead.readHandler = none := by
  unfold deliverRead
  split
  · assumption
  · rw [havailable, hopen]
    exact finishRead_readHandler _ _ _

theorem deliverRead_closed : s.deliverRead.closed = s.closed := by
  unfold deliverRead
  split
  · rfl
  · split
    · rfl
    · rw [finishRead_closed]
      split <;> rfl

end Stream

/-! ## Every run -/

/-- **A parked read has a Beast read out**, and nothing is parked in a closed stream. -/
structure Inv (s : Stream) : Prop extends Books s where
  reading : ∀ read, s.readHandler = some read → s.readInProgress = true
  noneLeft : s.readClosed = true → s.readHandler = none
  shut : s.closed = true → s.readHandler = none ∧ s.writeHandler = none

theorem Inv.sound (h : Inv s) : Sound s :=
  { h with writing := fun op hop => by rw [h.out op hop]; rfl }

theorem Books.served (h : Books s) (hread : s.readHandler = none) (hopen : s.closed = false) : Inv s :=
  { h with
    reading := fun _ hsome => by rw [hread] at hsome; cases hsome
    noneLeft := fun _ => hread
    shut := fun hclosed => by rw [hopen] at hclosed; cases hclosed }

theorem Books.fail (h : Books { s with closed := true }) (hopen : s.closed = false) (error : Code) : Inv
    (s.fail error) := by
  unfold Stream.fail
  rw [hopen, if_neg Bool.false_ne_true]
  have hclosed : Books { s with closed := true, readClosed := true, readError := some error } := { h with }
  have hfinished := @Books.finishWrite _ (hclosed.finishRead (some error) 0) (some error) 0 none fun op _ =>
    own_none op _ 0
  refine { hfinished with
    kept := fun hopen => ?_, available := fun _ => rfl, waiting := fun _ => rfl, reading := fun _ hsome =>
      ?_, noneLeft := fun _ => ?_
    shut := fun _ => ?_ }
  · simp at hopen
  · simp at hsome
  · simp
  · exact ⟨by simp, by simp⟩

theorem Inv.refuse (h : Inv s) (error : Option Code) (size : Nat) :
    Inv ({ s with started := s.started + 1 }.post s.started error size) :=
  { h.toBooks.refuse error size with reading := h.reading, noneLeft := h.noneLeft, shut := h.shut }

theorem Inv.read (h : Inv s) (size : Nat) : Inv (s.read size) := by
  unfold Stream.read
  dsimp only
  split_ifs with hzero hclosed hparked havailable hread
  · exact h.refuse none 0
  · exact h.refuse _ 0
  · exact h.refuse _ 0
  · have hopen : s.closed = false := by simpa using hclosed
    have hparked := h.toBooks.park (by simpa using hparked) size
    refine hparked.deliverRead.served (Stream.deliverRead_readHandler havailable hopen) ?_
    rw [Stream.deliverRead_closed]
    exact hopen
  · exact h.refuse _ 0
  · have hopen : s.closed = false := by simpa using hclosed
    have hparked := h.toBooks.park (by simpa using hparked) size
    have hshut {P : Prop} (hclosed : s.closed = true) : P := by
      rw [hopen] at hclosed
      cases hclosed
    unfold Stream.startReadMessage
    split_ifs with hidle
    · have hreading : s.readInProgress = true := by simpa [hclosed, hread] using hidle
      exact { hparked with reading := fun _ _ => hreading, noneLeft :=
        fun hover => absurd hover hread, shut := fun hclosed => hshut hclosed }
    · exact { hparked with
        waiting := fun _ => by simpa using havailable, reading := fun _ _ =>
          rfl, noneLeft := fun hover => absurd hover hread
        shut := fun hclosed => hshut hclosed }

variable {maxMessageSize : Nat}

theorem Inv.write (h : Inv s) (length : Nat) (hfree : Free maxMessageSize s (.write length)) :
    Inv (s.write maxMessageSize length) := by
  unfold Stream.write
  dsimp only
  split_ifs with hclosed hparked hlarge hzero
  · exact h.refuse _ 0
  · exact h.refuse _ 0
  · exact h.refuse _ 0
  · exact h.refuse none 0
  · have hopen : s.closed = false := by simpa using hclosed
    have hnone : s.writeHandler = none := by simpa using hparked
    have hidle : s.writing = [] := hfree hopen hnone hzero (Nat.le_of_not_lt hlarge)
    refine { h with one := ?_, once := ?_, out := fun op hop => ?_, shut := fun hclosed => ?_ }
    · rw [hidle]
      exact Nat.le_refl 1
    · have honce := h.once
      rw [Stream.parked, hnone, Option.toList_none, append_nil] at honce
      rw [range_succ, Stream.parked, ← append_assoc]
      exact honce.append_right [s.started]
    · cases hop
      rw [hidle]
      rfl
    · have hclosed : s.closed = true := hclosed
      rw [hopen] at hclosed
      cases hclosed

theorem Inv.cancelRead (h : Inv s) : Inv s.cancelRead :=
  { h.toBooks.finishRead (some .aborted) 0 with
    reading := fun _ hsome => by simp [Stream.cancelRead] at hsome
    noneLeft := fun _ => Stream.finishRead_readHandler s _ 0
    shut := fun hclosed => by
      have hclosed : s.closed = true := by simpa [Stream.cancelRead] using hclosed
      exact ⟨Stream.finishRead_readHandler s _ 0,
        (Stream.finishRead_writeHandler s _ 0).trans (h.shut hclosed).2⟩ }

theorem Inv.cancelWrite (h : Inv s) : Inv s.cancelWrite :=
  { @Books.finishWrite _ h.toBooks (some .aborted) 0 none fun op _ => own_none op _ 0 with
    reading := fun read hsome => by
      have hsome : s.readHandler = some read := by simpa [Stream.cancelWrite] using hsome
      simpa [Stream.cancelWrite] using h.reading read hsome
    noneLeft := fun hover => by
      have hover : s.readClosed = true := by simpa [Stream.cancelWrite] using hover
      exact (Stream.finishWrite_readHandler s _ 0 none).trans (h.noneLeft hover)
    shut := fun hclosed => by
      have hclosed : s.closed = true := by simpa [Stream.cancelWrite] using hclosed
      exact ⟨(Stream.finishWrite_readHandler s _ 0 none).trans (h.shut hclosed).1,
        Stream.finishWrite_writeHandler s _ 0 none⟩ }

theorem Inv.messageRead (h : Inv s) (hreading : s.readInProgress = true) (message : Message) :
    Inv (s.messageRead maxMessageSize message) := by
  have hidle : Books { s with
      readInProgress := false } := { h with waiting := fun hfalse => Bool.noConfusion hfalse }
  have hover : s.remaining = [] := h.available (h.waiting hreading)
  have hclosed_inv (payloads : Bytes) (hclosed : s.closed = true) (hpayloads : s.returned <+: payloads) :
      Inv { s with readInProgress := false, payloads } := by
    have hnone := (h.shut hclosed).1
    refine { hidle with
      returned := hpayloads, kept := fun hopen => ?_, reading := fun _ hsome => ?_,
      noneLeft := h.noneLeft, shut := h.shut }
    · rw [show s.closed = false from hopen] at hclosed
      cases hclosed
    · rw [show s.readHandler = none from hnone] at hsome
      cases hsome
  have hfail_inv (payloads : Bytes) (hclosed : ¬ s.closed = true) (hpayloads : s.returned <+: payloads)
      (error : Code) :
      Inv (Stream.fail { s with readInProgress := false, payloads } error) := by
    have hlast : Books { s with readInProgress := false, payloads, closed := true } :=
      { hidle with returned := hpayloads, kept := fun hopen => Bool.noConfusion hopen }
    exact Books.fail hlast (by simpa using hclosed) error
  unfold Stream.messageRead
  cases message with
  | closed =>
    dsimp only
    split
    · rename_i hclosed
      exact hclosed_inv s.payloads hclosed h.returned
    · rename_i hclosed
      have hopen : s.closed = false := by simpa using hclosed
      unfold Stream.remoteClose
      split_ifs with hover
      · exact hidle.served (h.noneLeft (by simpa [hopen] using hover)) hopen
      · have hlast : Books { s with
          readInProgress := false, readClosed := true, readError := some .eof } := { hidle with }
        exact (hlast.finishRead (some .eof) 0).served (Stream.finishRead_readHandler _ _ 0) (by simp [hopen])
  | failed error =>
    dsimp only
    split
    · rename_i hclosed
      exact hclosed_inv s.payloads hclosed h.returned
    · rename_i hclosed
      exact hfail_inv s.payloads hclosed h.returned error
  | payload bytes binary =>
    have hmore : s.returned <+: s.payloads ++ bytes := h.returned.trans (prefix_append _ _)
    dsimp only
    split_ifs with hclosed hbinary hlarge
    · exact hclosed_inv _ hclosed hmore
    · exact hfail_inv _ hclosed hmore _
    · exact hfail_inv _ hclosed hmore _
    · have hopen : s.closed = false := by simpa using hclosed
      have hkept := h.kept hopen
      rw [hover, append_nil] at hkept
      have harrived : Books { s with
          readInProgress := false, payloads := s.payloads ++ bytes, incoming := bytes,
          incomingOffset := 0, messageAvailable := true } :=
        { hidle with
          returned := hmore
          kept := fun _ => congrArg (· ++ bytes) hkept
          available := fun hnone => Bool.noConfusion hnone
          waiting := fun hfalse => Bool.noConfusion hfalse }
      refine harrived.deliverRead.served (Stream.deliverRead_readHandler rfl hopen) ?_
      rw [Stream.deliverRead_closed]
      exact hopen

theorem Inv.writeEnded (h : Inv s) (index : Nat) (error : Option Code) (size : Nat) :
    Inv (s.writeEnded index error size) := by
  unfold Stream.writeEnded
  split
  · exact h
  · rename_i w hw
    have hmem : w ∈ s.writing := mem_of_getElem? hw
    have hone : (s.writing.eraseIdx index).length ≤ 1 := by
      rw [length_eraseIdx]
      have := h.one
      split <;> omega
    dsimp only
    split
    · rename_i hclosed
      have hnone := (h.shut hclosed).2
      refine { h with one := hone, out := fun op hop => ?_ }
      rw [show s.writeHandler = none from hnone] at hop
      cases hop
    · rename_i hclosed
      have hown (op : Nat) (hop : s.writeHandler = some op) : Invocation.Own
          ⟨op, if error = none ∧ size ≠ s.writeSize then some .messageSize else error, size,
            some ⟨w, error, size⟩⟩ := by
        intro e he
        rw [h.out op hop, mem_singleton] at hmem
        cases he
        rw [hmem]
        exact ⟨rfl, rfl, rfl⟩
      have hfinished := h.toBooks.finishWrite hown
      rw [Stream.finishWrite_of_writing]
      refine { hfinished with
        one := hone, out := fun op hop => ?_, reading := fun read hread => ?_, noneLeft := fun hover =>
          ?_, shut := fun hshut => ?_ }
      · rw [show _ = none from Stream.finishWrite_writeHandler s _ size _] at hop
        cases hop
      · have hread : s.readHandler = some read := (Stream.finishWrite_readHandler s _ size _).symm.trans hread
        exact (Stream.finishWrite_readInProgress s _ size _).trans (h.reading read hread)
      · have hover : s.readClosed = true := (Stream.finishWrite_readClosed s _ size _).symm.trans hover
        exact (Stream.finishWrite_readHandler s _ size _).trans (h.noneLeft hover)
      · exact absurd ((Stream.finishWrite_closed s _ size _).symm.trans hshut) hclosed

theorem Inv.step (h : Inv s) (event : Event) (hfree : Free maxMessageSize s event) :
    Inv (step maxMessageSize s event) := by
  cases event with
  | read size => exact h.read size
  | write length => exact h.write length hfree
  | cancelRead => exact h.cancelRead
  | cancelWrite => exact h.cancelWrite
  | close =>
    unfold WebSocketStream.step Stream.close
    by_cases hclosed : s.closed = true
    · rw [Stream.fail, if_pos hclosed]
      exact h
    · have hlast : Books { s with closed := true } := { h with kept := fun hopen => Bool.noConfusion hopen }
      exact hlast.fail (by simpa using hclosed) .aborted
  | messageRead message =>
    unfold WebSocketStream.step
    dsimp only
    split
    · rename_i hreading
      exact h.messageRead hreading message
    · exact h
  | writeEnded index error size => exact h.writeEnded index error size

theorem start_inv : Inv {} where
  one := Nat.zero_le 1
  once := List.Perm.refl []
  own _ hi := absurd hi not_mem_nil
  out _ hop := by cases hop
  returned := prefix_rfl
  kept _ := rfl
  available _ := rfl
  waiting hreading := by cases hreading
  reading _ hread := by cases hread
  noneLeft _ := rfl
  shut _ := ⟨rfl, rfl⟩

theorem Inv.back (event : Event) (hnot : ¬ Free maxMessageSize s event) :
    ¬ Sound (WebSocketStream.step maxMessageSize s event) := by
  cases event with
  | write length =>
    unfold Free at hnot
    push Not at hnot
    obtain ⟨hopen, hnone, hzero, hlarge, hbusy⟩ := hnot
    intro hafter
    have hone := hafter.one
    unfold WebSocketStream.step Stream.write at hone
    dsimp only at hone
    rw [hopen, hnone, if_neg Bool.false_ne_true, if_neg (by simp), if_neg (Nat.not_lt_of_le hlarge),
      if_neg hzero, length_append] at hone
    have := length_pos_iff.2 hbusy
    simp only [length_singleton] at hone
    omega
  | read _ => exact absurd trivial hnot
  | cancelRead => exact absurd trivial hnot
  | cancelWrite => exact absurd trivial hnot
  | close => exact absurd trivial hnot
  | messageRead _ => exact absurd trivial hnot
  | writeEnded _ _ _ => exact absurd trivial hnot

/-- **The stream keeps what it owes exactly as long as no write is let in while a Beast write is out.** -/
theorem sound_iff_free (maxMessageSize : Nat) (events : List Event) :
    (∀ pre, pre <+: events → Sound (Runs.run (step maxMessageSize) {} pre)) ↔
      Runs.Along (step maxMessageSize) (Free maxMessageSize) {} events :=
  Runs.forall_prefix_iff_along (fun _ h => h.sound) (fun _ event h => h.step event)
  (fun _ event _ => Inv.back event) start_inv events

/-- **The write behind a cancelled one** ends with the end of that. -/
theorem cancelled_write_answers : ∃ i ∈ (Runs.run (step 16) {} [.write 3, .cancelWrite, .write 3,
    .writeEnded 0 none 3]).invoked,
    i.op = 1 ∧ i.ended = some ⟨⟨0, 3⟩, none, 3⟩ ∧
    ¬ Sound (Runs.run (step 16) {} [.write 3, .cancelWrite, .write 3]) ∧
      ¬ Sound (Runs.run (step 16) {} [.write 3, .cancelWrite, .write 3, .writeEnded 0 none 3]) := by
  refine ⟨⟨1, none, 3, some ⟨⟨0, 3⟩, none, 3⟩⟩,
    by decide, rfl, rfl, fun h => absurd h.one (by decide), fun h => ?_⟩
  have hown := h.own ⟨1, none, 3, some ⟨⟨0, 3⟩, none, 3⟩⟩ (by decide) _ rfl
  exact absurd hown.1 (by decide)

end ClashNative.WebSocketStream
