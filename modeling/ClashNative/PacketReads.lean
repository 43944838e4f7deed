import ClashNative.PacketFrames
import Mathlib.Data.List.Perm.Basic
/-!
# PacketReads — receives of a packet handle, and their cancellation

The receive half of `UdpOverTcpState` and `TrojanPacketState`: a receive posts `read_family`, and from
there one exact read starts the next.  A chain of such reads is not tied to the receive that started it.
-/
namespace ClashNative.PacketStream

open List hiding Vector

/-! ## The receive half -/

/-- Exact reads, one after the other: the stage they are at, and what is in its buffer. -/
structure Chain where
  stage : Stage := .family
  held : Bytes := []
  deriving DecidableEq

/-- `incoming`: what the peer sends and no lower read has returned yet.  `room`: the buffer of the parked
receive; `read_in_progress_` is set while `receive_handler_` is.  `posted`: the tasks that will call
`read_family`.  Each chain has a lower read outstanding.  `results` is what the handlers were called with,
`begun` the stream from each byte on that was taken for the start of a frame. -/
structure Receiver where
  incoming : Bytes
  room : Option Nat := none
  posted : Nat := 0
  chains : List Chain := []
  results : List Received := []
  begun : List Bytes := []
  deriving DecidableEq

inductive ReadEvent
  /-- `receive`, with a buffer of this size. -/
  | receive (room : Nat)
  /-- A posted task runs. -/
  | readFamily
  /-- A lower read brings up to `n + 1` bytes, or finds the end of the stream. -/
  | arrive (i n : Nat)
  /-- The carrier fails under a lower read. -/
  | lowerFails (i : Nat)
  /-- The carrier refuses a second read. -/
  | refused (i : Nat)
  /-- The stream ends here. -/
  | carrierEnds
  | cancelReceive
  deriving DecidableEq, Repr

def defaultAddress : DatagramAddress := ⟨.v4 (Vector.replicate 4 0), 0⟩

namespace Receiver

def chunk (d : Dialect) (s : Receiver) (c : Chain) (n : Nat) : Bytes :=
  s.incoming.take (min (n + 1) (c.stage.size d - c.held.length))

def receive (s : Receiver) (room : Nat) : Receiver :=
  if s.room.isSome then { s with results := s.results ++ [.error .alreadyStarted] }
  else if room = 0 then { s with results := s.results ++ [.packet defaultAddress []] }
  else
    { s with
      room := some room
      posted := s.posted + 1 }

def readFamily (s : Receiver) : Receiver :=
  if s.posted = 0 then s
  else
    { s with
      posted := s.posted - 1
      chains := s.chains ++ [{}] }

def finishReceive (s : Receiver) (i : Nat) (result : Received) : Receiver :=
  { s with
    room := none
    chains := s.chains.eraseIdx i
    results := s.results ++ [result] }

/-- The handler of a lower read in `read_exact_guarded`: without a parked receive the chain ends, and what
it held goes with it. -/
def pull (d : Dialect) (s : Receiver) (i : Nat) (c : Chain) (result : Except ErrorCode Bytes) : Receiver :=
  match s.room, result with
  | none, _ => { s with chains := s.chains.eraseIdx i }
  | some _, .error code => s.finishReceive i (.error code)
  | some _, .ok [] => s.finishReceive i (.error .eof)
  | some room, .ok (b :: bytes) =>
    let held := c.held ++ b :: bytes
    if held.length = c.stage.size d then
      match d.next room c.stage held with
      | .read stage => { s with chains := s.chains.set i ⟨stage, []⟩ }
      | .finish result => s.finishReceive i result
    else { s with chains := s.chains.set i ⟨c.stage, held⟩ }

def arrive (d : Dialect) (s : Receiver) (i n : Nat) (c : Chain) : Receiver :=
  let bytes := s.chunk d c n
  let read : Receiver :=
    { s with
      incoming := s.incoming.drop bytes.length
      begun := if c.stage = Stage.family ∧ s.room.isSome ∧ bytes ≠ [] then s.incoming :: s.begun else s.begun }
  read.pull d i c (.ok bytes)

def cancelReceive (s : Receiver) : Receiver :=
  if s.room.isSome then
    { s with
      room := none
      results := s.results ++ [.error .operationAborted] }
  else s

def step (d : Dialect) (s : Receiver) : ReadEvent → Receiver
  | .receive room => s.receive room
  | .readFamily => s.readFamily
  | .arrive i n =>
    match s.chains[i]? with
    | none => s
    | some c => s.arrive d i n c
  | .lowerFails i =>
    match s.chains[i]? with
    | none => s
    | some c => ({ s with incoming := [] } : Receiver).pull d i c (.error .lower)
  | .refused i =>
    match s.chains[i]? with
    | none => s
    | some c => if 2 ≤ s.chains.length then s.pull d i c (.error .alreadyStarted) else s
  | .carrierEnds => { s with incoming := [] }
  | .cancelReceive => s.cancelReceive

end Receiver

def wires (d : Dialect) (packets : List Packet) : Bytes := (packets.map (Packet.wire d)).flatten

def receiver (d : Dialect) (packets : List Packet) : Receiver := { incoming := wires d packets }

def successes (results : List Received) : List (DatagramAddress × Bytes) :=
  results.filterMap fun result =>
    match result with
    | .packet source payload => some (source, payload)
    | .error _ => none

/-- **In step with the peer**: each successful receive returned one packet of the peer, in order, and
frames were read from where frames start. -/
structure InSync (d : Dialect) (packets : List Packet) (s : Receiver) : Prop where
  whole : (successes s.results).Sublist (packets.map fun p => (p.address, p.payload))
  begun : ∀ bytes ∈ s.begun, ∃ k, bytes = wires d (packets.drop k)

/-! ## The condition -/

def Chain.Ends (c : Chain) (bytes : Bytes) : Prop :=
  match c.stage with
  | .payload _ size => c.held.length + bytes.length = size
  | _ => False

/-- **The condition on a step**: no bytes come for nobody, except the rest of a payload at once; none for
one chain while another is inside of a frame; a length is not refused, and a payload was checked against
the buffer it gets; no chain is turned away inside of a frame; a buffer is not empty. -/
def Kept (d : Dialect) (s : Receiver) : ReadEvent → Prop
  | .receive room => s.room = none → room ≠ 0
  | .arrive i n => ∀ c ∈ s.chains[i]?, s.chunk d c n ≠ [] →
    (∀ c' ∈ s.chains.eraseIdx i, c'.stage = .family) ∧
    (s.room = none → c.Ends (s.chunk d c n)) ∧
    ∀ room ∈ s.room, c.held.length + (s.chunk d c n).length = c.stage.size d →
    d.Takes room c.stage (c.held ++ s.chunk d c n)
  | .refused i => ∀ c ∈ s.chains[i]?, c.stage = .family
  | .readFamily | .lowerFails _ | .carrierEnds | .cancelReceive => True

instance (c : Chain) (bytes : Bytes) : Decidable (c.Ends bytes) :=
  match c with
  | ⟨.payload _ _, _⟩ => inferInstanceAs (Decidable (_ = _))
  | ⟨.family, _⟩ | ⟨.domainLength, _⟩ | ⟨.domainName _, _⟩ | ⟨.domainPort _, _⟩ | ⟨.numericAddress _ _,
    _⟩ | ⟨.port _ _, _⟩
  | ⟨.payloadLength _, _⟩ => inferInstanceAs (Decidable False)

instance (d : Dialect) (s : Receiver) (event : ReadEvent) : Decidable (Kept d s event) :=
  match event with
  | .receive _ => inferInstanceAs (Decidable (_ → _ ≠ _))
  | .arrive i n => inferInstanceAs (Decidable (∀ c ∈ s.chains[i]?, s.chunk d c n ≠ [] → _ ∧ _ ∧
    ∀ room ∈ s.room, _ → _))
  | .refused i => inferInstanceAs (Decidable (∀ c ∈ s.chains[i]?, c.stage = .family))
  | .readFamily | .lowerFails _ | .carrierEnds | .cancelReceive => inferInstanceAs (Decidable True)

/-! ## Where the chains are -/

/-- **A chain inside of a frame**, and the others at the start of theirs: what is left of the stream
starts with what the chain still reads. -/
structure Inside (d : Dialect) (c : Chain) (others : List Chain) (p : Packet) (left : List Packet)
    (s : Receiver) (field tail : Bytes) : Prop where
  chains : s.chains.Perm (c :: others)
  others_start : ∀ c' ∈ others, c' = {}
  at_field : At d p c.stage field tail
  held_prefix : c.held <+: field
  held_lt : field ≠ [] → c.held.length < field.length
  incoming : s.incoming = field.drop c.held.length ++ tail ++ wires d left

/-- **Where the stream is read**: it is at its end; or every chain is at the start of a frame, and so is
the stream; or one chain is inside. -/
inductive Position (d : Dialect) (s : Receiver) : List Packet → Prop
  | ended (left : List Packet) (h : s.incoming = []) : Position d s left
  | between (left : List Packet) (hchains : ∀ c ∈ s.chains, c = {}) (h : s.incoming = wires d left) :
    Position d s left
  | inside (c : Chain) (others : List Chain) (p : Packet) (left : List Packet) (field tail : Bytes)
    (h : Inside d c others p left s field tail) : Position d s (p :: left)

structure Aligned (d : Dialect) (packets : List Packet) (s : Receiver) : Prop where
  position : ∃ k, (successes s.results).Sublist ((packets.take k).map fun p => (p.address, p.payload)) ∧
    Position d s (packets.drop k)
  begun : ∀ bytes ∈ s.begun, ∃ k, bytes = wires d (packets.drop k)

theorem successes_append (results : List Received) (result : Received) :
    successes (results ++ [result]) = successes results ++ successes [result] := filterMap_append

theorem successes_error (results : List Received) (code : ErrorCode) :
    successes (results ++ [.error code]) = successes results := by
  rw [successes_append]
  exact append_nil _

/-! ### One chain among the others -/

variable {c : Chain} {i : Nat} {l : List Chain}

theorem perm_eraseIdx (h : l[i]? = some c) : l.Perm (c :: l.eraseIdx i) := by
  obtain ⟨hi, rfl⟩ := List.getElem?_eq_some_iff.1 h
  exact (getElem_cons_eraseIdx_perm hi).symm

theorem set_perm (h : l[i]? = some c) (a : Chain) : (l.set i a).Perm (a :: l.eraseIdx i) :=
  set_perm_cons_eraseIdx (List.getElem?_eq_some_iff.1 h).1 a

namespace Inside

variable {d : Dialect} {c : Chain} {others : List Chain} {p : Packet} {left : List Packet} {s : Receiver}
    {field tail : Bytes}

theorem start (h : Inside d c others p left s field tail) (hstage : c.stage = .family) :
    c = {} ∧ s.incoming = wires d (p :: left) := by
  obtain ⟨stage, held⟩ := c
  subst hstage
  have hat := h.at_field
  have hlt := h.held_lt
  have hincoming := h.incoming
  cases hat with
  | family =>
    have hheld : held = [] := length_eq_zero_iff.1 (Nat.lt_one_iff.1 (hlt (cons_ne_nil _ _)))
    subst hheld
    exact ⟨rfl, hincoming⟩

variable {i : Nat}

theorem of_mem (h : Inside d c others p left s field tail) {c' : Chain}
    (hc' : s.chains[i]? = some c') : c' = c ∨ c' = {} :=
  (mem_cons.1 (h.chains.mem_iff.1 (mem_of_getElem? hc'))).imp_right (h.others_start c')

theorem at_place (h : Inside d c others p left s field tail) (hc : s.chains[i]? = some c) :
    Inside d c (s.chains.eraseIdx i) p left s field tail where
  chains := perm_eraseIdx hc
  others_start c' hc' := h.others_start c' ((((perm_eraseIdx hc).symm.trans h.chains).cons_inv).mem_iff.1 hc')
  at_field := h.at_field
  held_prefix := h.held_prefix
  held_lt := h.held_lt
  incoming := h.incoming

end Inside

namespace Position

variable {d : Dialect} {s s' : Receiver} {left : List Packet}

theorem congr (h : Position d s left) (hincoming : s'.incoming = s.incoming)
    (hchains : s'.chains = s.chains) : Position d s' left := by
  cases h with
  | ended _ hend => exact .ended _ (by rw [hincoming, hend])
  | between _ hstart hbetween => exact .between _ (by rwa [hchains]) (by rw [hincoming, hbetween])
  | inside c others p left field tail hinside =>
    refine .inside c others p left field tail ?_
    exact ⟨by rw [hchains]; exact hinside.chains, hinside.others_start, hinside.at_field,
      hinside.held_prefix, hinside.held_lt,
      by rw [hincoming]; exact hinside.incoming⟩

theorem start (h : Position d s left) (hincoming : s'.incoming = s.incoming)
    (hchains : s'.chains = s.chains ++ [({} : Chain)]) :
    Position d s' left := by
  cases h with
  | ended _ hend => exact .ended _ (by rw [hincoming, hend])
  | between _ hstart hbetween =>
    refine .between _ (fun c hc => ?_) (by rw [hincoming, hbetween])
    rw [hchains] at hc
    exact (mem_append.1 hc).elim (hstart c) mem_singleton.1
  | inside c others p left field tail hinside =>
    refine .inside c (others ++ [({} : Chain)]) p left field tail ?_
    refine ⟨?_, fun c' hc' => ?_, hinside.at_field, hinside.held_prefix,
      hinside.held_lt, by rw [hincoming]; exact hinside.incoming⟩
    · rw [hchains]
      exact hinside.chains.append_right [({} : Chain)]
    · exact (mem_append.1 hc').elim (hinside.others_start c') mem_singleton.1

variable {c : Chain} {i : Nat}

theorem erase (h : Position d s left) (hc : s.chains[i]? = some c) (hstage : c.stage = .family)
    (hincoming : s'.incoming = s.incoming) (hchains : s'.chains = s.chains.eraseIdx i) : Position d s' left := by
  cases h with
  | ended _ hend => exact .ended _ (by rw [hincoming, hend])
  | between _ hstart hbetween =>
    refine .between _ (fun c' hc' => hstart c' ?_) (by rw [hincoming, hbetween])
    rw [hchains] at hc'
    exact mem_of_mem_eraseIdx hc'
  | inside c₀ others p left field tail hinside =>
    by_cases heq : c = c₀
    · subst heq
      have hplace := hinside.at_place hc
      refine .between _ (fun c' hc' => hplace.others_start c' ?_) (by rw [hincoming, (hplace.start hstage).2])
      rwa [hchains] at hc'
    · have hperm := (perm_eraseIdx hc).symm.trans hinside.chains
      have hmem : c₀ ∈ s.chains.eraseIdx i :=
        (mem_cons.1 (hperm.mem_iff.2 mem_cons_self)).resolve_left (Ne.symm heq)
      have hrest := perm_cons_erase hmem
      refine .inside c₀ ((s.chains.eraseIdx i).erase c₀) p left field tail ?_
      refine ⟨by rwa [hchains], fun c' hc' => hinside.others_start c' ?_, hinside.at_field,
        hinside.held_prefix, hinside.held_lt,
        by rw [hincoming]; exact hinside.incoming⟩
      have hothers : (c :: (s.chains.eraseIdx i).erase c₀).Perm others :=
        ((List.Perm.swap c c₀ _).trans ((hrest.cons c).symm.trans hperm)).cons_inv
      exact hothers.mem_iff.1 (mem_cons_of_mem c hc')

theorem at_place (h : Position d s left) (hc : s.chains[i]? = some c) (hincoming : s.incoming ≠ [])
    (hothers : ∀ c' ∈ s.chains.eraseIdx i, c'.stage = .family) :
    ∃ p rest field tail, left = p :: rest ∧ Inside d c (s.chains.eraseIdx i) p rest s field tail := by
  cases h with
  | ended _ hend => exact absurd hend hincoming
  | between _ hstart hbetween =>
    cases left with
    | nil => exact absurd hbetween hincoming
    | cons p rest =>
      have hstart_c : c = {} := hstart c (mem_of_getElem? hc)
      subst hstart_c
      refine ⟨p, rest, [p.family d], p.hostBytes ++
        (putPort p.address.port ++ (p.lengthBytes d ++ p.payload)), rfl, ?_⟩
      exact ⟨perm_eraseIdx hc, fun c' hc' => hstart c' (mem_of_mem_eraseIdx hc'), .family, nil_prefix,
        fun _ => Nat.one_pos, hbetween⟩
  | inside c₀ others p rest field tail hinside =>
    have heq : c = c₀ := by
      rcases hinside.of_mem hc with heq | hstart
      · exact heq
      · have hmem := (perm_eraseIdx hc).mem_iff.1 (hinside.chains.mem_iff.2 mem_cons_self)
        rcases mem_cons.1 hmem with heq | hother
        · exact heq.symm
        · rw [hstart, (hinside.start (hothers c₀ hother)).1]
    subst heq
    exact ⟨p, rest, field, tail, rfl, hinside.at_place hc⟩

end Position

/-! ### What a step keeps -/

theorem pull_lost (d : Dialect) (s : Receiver) (i : Nat) (c : Chain) (result : Except ErrorCode Bytes)
    (h : s.room = none ∨ ∀ bytes, result = .ok bytes → bytes = []) : ∃ results : List Received,
    successes results = successes s.results ∧ s.pull d i c result =
      { s with
        room := none
        chains := s.chains.eraseIdx i
        results := results } := by
  unfold Receiver.pull
  cases hroom : s.room with
  | none =>
    refine ⟨s.results, rfl, ?_⟩
    obtain ⟨_, room, _, _, _, _⟩ := s
    cases hroom
    rfl
  | some room =>
    rcases result with code | _ | ⟨b, bytes⟩
    · exact ⟨_, successes_error s.results code, rfl⟩
    · exact ⟨_, successes_error s.results .eof, rfl⟩
    · exact absurd (h.resolve_left (by rw [hroom]; exact Option.some_ne_none room) _ rfl) (cons_ne_nil b bytes)

theorem pull_bytes (d : Dialect) {s : Receiver} (i : Nat) (c : Chain) {room : Nat}
    (hroom : s.room = some room) {bytes : Bytes}
    (hbytes : bytes ≠ []) : s.pull d i c (.ok bytes) =
      if (c.held ++ bytes).length = c.stage.size d then
        match d.next room c.stage (c.held ++ bytes) with
        | .read stage => { s with chains := s.chains.set i ⟨stage, []⟩ }
        | .finish result => s.finishReceive i result
      else { s with chains := s.chains.set i ⟨c.stage, c.held ++ bytes⟩ } := by
  unfold Receiver.pull
  rw [hroom]
  cases bytes with
  | nil => exact absurd rfl hbytes
  | cons b bytes => rfl

namespace Inside

variable {d : Dialect} {c : Chain} {others : List Chain} {p : Packet} {left : List Packet} {s : Receiver}
    {field tail : Bytes}

theorem chunk_eq (h : Inside d c others p left s field tail) (n : Nat) :
    s.chunk d c n = (field.drop c.held.length).take (min (n + 1) (field.drop c.held.length).length) := by
  unfold Receiver.chunk
  rw [← h.at_field.length_eq, ← length_drop, h.incoming, append_assoc,
    take_append_of_le_length (Nat.min_le_right _ _)]

theorem split (h : Inside d c others p left s field tail) (n : Nat) : ∃ missing,
    field = c.held ++ s.chunk d c n ++ missing ∧
    s.incoming.drop (s.chunk d c n).length = missing ++ tail ++ wires d left := by
  obtain ⟨rest, hrest⟩ := h.held_prefix
  have hdrop : field.drop c.held.length = rest := by
    rw [← hrest]
    exact drop_left
  have hchunk := h.chunk_eq n
  have hincoming := h.incoming
  rw [hdrop] at hchunk hincoming
  refine ⟨rest.drop (s.chunk d c n).length, ?_, ?_⟩
  · have hlength : (s.chunk d c n).length = min (n + 1) rest.length := by
      rw [hchunk, length_take]
      omega
    rw [append_assoc, ← hrest]
    congr 1
    rw [hlength, hchunk, take_append_drop]
  · have hle : (s.chunk d c n).length ≤ rest.length := by
      rw [hchunk]
      exact Nat.le_trans (length_take_le _ _) (Nat.min_le_right _ _)
    rw [hincoming, append_assoc, drop_append_of_le_length hle, append_assoc]

end Inside

theorem drop_succ_of_cons {packets rest : List Packet} {p : Packet} {k : Nat} (h : packets.drop k = p :: rest) :
    packets.drop (k + 1) = rest ∧ packets.take (k + 1) = packets.take k ++ [p] := by
  have hk : k < packets.length := by
    by_contra hle
    rw [drop_of_length_le (Nat.not_lt.1 hle)] at h
    cases h
  rw [drop_eq_getElem_cons hk, List.cons.injEq] at h
  exact ⟨h.2, by rw [take_succ_eq_append_getElem hk, h.1]⟩

theorem successes_answer (p : Packet) (room : Nat) :
    (successes [p.answer room]).Sublist [(p.address, p.payload)] := by
  unfold Packet.answer
  split
  · exact nil_sublist _
  · exact List.Sublist.refl _

namespace Aligned

variable {d : Dialect} {packets : List Packet} {s : Receiver}

theorem inSync (h : Aligned d packets s) : InSync d packets s where
  whole := by
    obtain ⟨k, hwhole, -⟩ := h.position
    exact hwhole.trans ((take_sublist k packets).map _)
  begun := h.begun

variable {s' : Receiver}

theorem ended (h : Aligned d packets s) (hincoming : s'.incoming = [])
    (hresults : successes s'.results = successes s.results)
    (hbegun : s'.begun = s.begun) : Aligned d packets s' := by
  obtain ⟨k, hwhole, -⟩ := h.position
  exact ⟨⟨k, by rwa [hresults], .ended _ hincoming⟩, by rw [hbegun]; exact h.begun⟩

theorem quiet (h : Aligned d packets s) (hposition : ∀ left, Position d s left → Position d s' left)
    (hresults : successes s'.results = successes s.results)
    (hbegun : s'.begun = s.begun) : Aligned d packets s' := by
  obtain ⟨k, hwhole, hat⟩ := h.position
  exact ⟨⟨k, by rwa [hresults], hposition _ hat⟩, by rw [hbegun]; exact h.begun⟩

theorem taken (found : List (DatagramAddress × Bytes)) {k : Nat} {p : Packet} {left : List Packet}
    {before : List (DatagramAddress × Bytes)}
    (hwhole : before.Sublist ((packets.take k).map fun p => (p.address, p.payload)))
    (hleft : packets.drop k = p :: left)
    (hresults : successes s'.results = before ++ found) (hfound : found.Sublist [(p.address, p.payload)])
    (hposition : Position d s' left)
    (hbegun : ∀ bytes ∈ s'.begun, ∃ k, bytes = wires d (packets.drop k)) : Aligned d packets s' := by
  obtain ⟨hdrop, htake⟩ := drop_succ_of_cons hleft
  refine ⟨⟨k + 1, ?_, by rwa [hdrop]⟩, hbegun⟩
  rw [hresults, htake, map_append]
  exact hwhole.append hfound

variable {c : Chain} {i n : Nat}

theorem arrive_nothing (h : Aligned d packets s) (hc : s.chains[i]? = some c) (hchunk : s.chunk d c n = []) :
    Aligned d packets (s.arrive d i n c) := by
  have heq : s.arrive d i n c = s.pull d i c (.ok []) := by
    unfold Receiver.arrive
    rw [hchunk]
    dsimp only
    rw [if_neg (fun h => h.2.2 rfl)]
    rfl
  obtain ⟨results, hresults, hpull⟩ := pull_lost d s i c (.ok [])
    (.inr fun bytes hbytes => (Except.ok.inj hbytes).symm)
  rw [heq, hpull]
  by_cases hend : s.incoming = []
  · exact h.ended hend hresults rfl
  · have hfull : c.stage.size d ≤ c.held.length := by
      by_contra hlt
      rcases take_eq_nil_iff.1 hchunk with hzero | hnil
      · omega
      · exact hend hnil
    have hnot_start : c ≠ {} := by
      rintro rfl
      exact Nat.not_succ_le_zero 0 hfull
    obtain ⟨k, hwhole, hposition⟩ := h.position
    generalize hleft : packets.drop k = left at hposition
    cases hposition with
    | ended _ hend' => exact absurd hend' hend
    | between _ hstart _ => exact absurd (hstart c (mem_of_getElem? hc)) hnot_start
    | inside c₀ others p left field tail hinside =>
      have hc₀ : c = c₀ := (hinside.of_mem hc).resolve_right hnot_start
      subst hc₀
      have hinside := hinside.at_place hc
      rw [← hinside.at_field.length_eq] at hfull
      have hfield : field = [] := by
        by_contra hne
        exact absurd (hinside.held_lt hne) (Nat.not_lt.2 hfull)
      have hincoming := hinside.incoming
      rw [hfield, drop_nil, nil_append, hinside.at_field.tail_nil hfield] at hincoming
      refine taken [] hwhole hleft (by rw [hresults, append_nil]) (nil_sublist _) ?_ h.begun
      exact .between _ (fun c' hc' => hinside.others_start c' hc') hincoming

theorem arrive_bytes (h : Aligned d packets s) (hc : s.chains[i]? = some c) (hchunk : s.chunk d c n ≠ [])
    (hkept : Kept d s (.arrive i n)) : Aligned d packets (s.arrive d i n c) := by
  obtain ⟨hothers, hnobody, htakes⟩ := hkept c hc hchunk
  obtain ⟨k, hwhole, hposition⟩ := h.position
  have hincoming : s.incoming ≠ [] := by
    intro hnil
    unfold Receiver.chunk at hchunk
    rw [hnil, take_nil] at hchunk
    exact hchunk rfl
  obtain ⟨p, left, field, tail, hleft, hinside⟩ := hposition.at_place hc hincoming hothers
  obtain ⟨missing, hfield, hrest⟩ := hinside.split n
  unfold Receiver.arrive
  dsimp only
  generalize hbegun' : (if c.stage = Stage.family ∧ s.room.isSome ∧
    s.chunk d c n ≠ [] then s.incoming :: s.begun else s.begun) = begun'
  have hbegun : ∀ bytes ∈ begun', ∃ k, bytes = wires d (packets.drop k) := by
    rw [← hbegun']
    split
    · rename_i hstart
      intro bytes hbytes
      rcases mem_cons.1 hbytes with rfl | hbytes
      · exact ⟨k, by rw [hleft]; exact (hinside.start hstart.1).2⟩
      · exact h.begun bytes hbytes
    · exact h.begun
  have hlength := congrArg List.length hfield
  rw [length_append, length_append, hinside.at_field.length_eq] at hlength
  rw [hrest]
  by_cases hroom : s.room = none
  · -- the rest of a payload is dropped, and its frame is at its end
    have hends := hnobody hroom
    obtain ⟨results, hresults, hpull⟩ := pull_lost d
      { s with
        incoming := missing ++ tail ++ wires d left
        begun := begun' } i c (.ok (s.chunk d c n)) (.inl hroom)
    rw [hpull]
    unfold Chain.Ends at hends
    cases hstage : c.stage with
    | payload source size =>
      rw [hstage] at hends hlength
      have hlength : size = c.held.length + (s.chunk d c n).length + missing.length := hlength
      have hmissing : missing = [] := length_eq_zero_iff.1 (by omega)
      have hat := hinside.at_field
      rw [hstage] at hat
      refine taken [] hwhole hleft (by rw [append_nil]; exact hresults) (nil_sublist _) ?_ hbegun
      refine .between _ (fun c' hc' => hinside.others_start c' hc') ?_
      rw [hmissing, hat.payload_tail]
      rfl
    | family | domainLength | domainName _ | domainPort _ | numericAddress _ _ | port _ _ | payloadLength _ =>
      rw [hstage] at hends
      exact hends.elim
  · obtain ⟨room, hroom⟩ := Option.ne_none_iff_exists'.1 hroom
    rw [pull_bytes d (s := { s with
      incoming := missing ++ tail ++ wires d left
      begun := begun' }) i c hroom hchunk]
    by_cases hfull : (c.held ++ s.chunk d c n).length = c.stage.size d
    · rw [if_pos hfull]
      rw [length_append] at hfull
      have hmissing : missing = [] := length_eq_zero_iff.1 (by omega)
      rw [hmissing, append_nil] at hfield
      rw [hmissing, nil_append, ← hfield]
      have htakes := htakes room hroom hfull
      rw [← hfield] at htakes
      rcases hinside.at_field.next htakes with ⟨stage', field', tail', hnext, hat, htail⟩ | ⟨htail, -, hnext⟩
      · rw [hnext]
        refine ⟨⟨k, hwhole, ?_⟩, hbegun⟩
        rw [hleft]
        refine .inside ⟨stage', []⟩ (s.chains.eraseIdx i) p left field' tail' ?_
        refine ⟨set_perm hc _, hinside.others_start, hat, nil_prefix, fun hne => length_pos_iff.2 hne, ?_⟩
        rw [htail]
        rfl
      · rw [hnext]
        refine taken (successes [p.answer room]) hwhole hleft (successes_append s.results _)
          (successes_answer p room) ?_ hbegun
        refine .between _ (fun c' hc' => hinside.others_start c' hc') ?_
        rw [htail]
        rfl
    · rw [if_neg hfull]
      rw [length_append] at hfull
      refine ⟨⟨k, hwhole, ?_⟩, hbegun⟩
      rw [hleft]
      refine .inside ⟨c.stage, c.held ++ s.chunk d c n⟩ (s.chains.eraseIdx i) p left field tail ?_
      refine ⟨set_perm hc _, hinside.others_start, hinside.at_field, ⟨missing, hfield.symm⟩, fun _ => ?_, ?_⟩
      · rw [hinside.at_field.length_eq, length_append]
        omega
      · have hdrop : field.drop (c.held ++ s.chunk d c n).length = missing := by
          rw [hfield]
          exact drop_left
        rw [hdrop]

theorem step (h : Aligned d packets s) (event : ReadEvent) (hkept : Kept d s event) :
    Aligned d packets (s.step d event) := by
  cases event with
  | receive room =>
    unfold Receiver.step Receiver.receive
    dsimp only
    split
    · exact h.quiet (fun left hat => hat.congr rfl rfl) (successes_error _ _) rfl
    · rename_i hroom
      have hroom : s.room = none := by simpa using hroom
      rw [if_neg (hkept hroom)]
      exact h.quiet (fun left hat => hat.congr rfl rfl) rfl rfl
  | readFamily =>
    unfold Receiver.step Receiver.readFamily
    dsimp only
    split
    · exact h
    · exact h.quiet (fun left hat => hat.start rfl rfl) rfl rfl
  | arrive i n =>
    unfold Receiver.step
    dsimp only
    cases hc : s.chains[i]? with
    | none => exact h
    | some c =>
      by_cases hchunk : s.chunk d c n = []
      · exact h.arrive_nothing hc hchunk
      · exact h.arrive_bytes hc hchunk hkept
  | lowerFails i =>
    unfold Receiver.step
    dsimp only
    cases hc : s.chains[i]? with
    | none => exact h
    | some c =>
      obtain ⟨results, hresults, hpull⟩ := pull_lost d { s with incoming := [] } i c (.error .lower)
        (.inr fun bytes hbytes => nomatch hbytes)
      dsimp only
      rw [hpull]
      exact h.ended rfl hresults rfl
  | refused i =>
    unfold Receiver.step
    dsimp only
    cases hc : s.chains[i]? with
    | none => exact h
    | some c =>
      dsimp only
      split
      · obtain ⟨results, hresults, hpull⟩ :=
          pull_lost d s i c (.error .alreadyStarted) (.inr fun bytes hbytes => nomatch hbytes)
        rw [hpull]
        exact h.quiet (fun left hat => hat.erase hc (hkept c hc) rfl rfl) hresults rfl
      · exact h
  | carrierEnds => exact h.ended rfl rfl rfl
  | cancelReceive =>
    unfold Receiver.step Receiver.cancelReceive
    dsimp only
    split
    · exact h.quiet (fun left hat => hat.congr rfl rfl) (successes_error _ _) rfl
    · exact h

end Aligned

/-- **Cancelled receives keep the frames** in the runs that meet the condition: at any point, whatever is
cancelled and received before it, each successful receive returned one packet of the peer, in order, and
no other byte was taken for the start of a frame. -/
theorem receives_inSync (d : Dialect) (packets : List Packet) (events : List ReadEvent)
    (hkept : Runs.Along (Receiver.step d) (Kept d) (receiver d packets) events) :
    InSync d packets (Runs.run (Receiver.step d) (receiver d packets) events) := by
  have hstart : Aligned d packets (receiver d packets) := by
    refine ⟨⟨0, nil_sublist _, .between _ (fun c hc => absurd hc not_mem_nil) rfl⟩,
      fun bytes hbytes => absurd hbytes not_mem_nil⟩
  exact (Runs.along_induction (P := Aligned d packets)
    (fun s event h hk => h.step event hk) events _ hstart hkept).inSync

/-- One packet from `9.9.9.9`, whose payload can be read as the rest of a frame. -/
def examplePacket (port : UInt16) (payload : Bytes) (h : payload.length ≤ 65535) : Packet :=
  ⟨⟨.v4 (Vector.replicate 4 9), port⟩, payload, fun _ hhost => (nomatch hhost), h⟩

/-- A receive is cancelled behind the first byte of a frame.  The address comes for nobody, and the next
receive takes the port for the start of a frame: a datagram that the peer did not send is returned, from
an address that is not its. -/
theorem cancelled_receive_loses_frames :
    ¬ InSync udpOverTcp [examplePacket 53 [1, 2, 3, 0, 1, 9] (by decide)]
      (Runs.run (Receiver.step udpOverTcp)
        (receiver udpOverTcp [examplePacket 53 [1, 2, 3, 0, 1, 9] (by decide)])
        [.receive 100, .readFamily, .arrive 0 0, .cancelReceive, .arrive 0 3, .receive 100, .readFamily,
          .arrive 0 0, .arrive 0 3, .arrive 0 1,
          .arrive 0 1, .arrive 0 0]) ∧
    ¬ InSync trojan [examplePacket 256 [0, 0, 1, 13, 10, 9] (by decide)]
      (Runs.run (Receiver.step trojan) (receiver trojan [examplePacket 256 [0, 0, 1, 13, 10, 9] (by decide)])
        [.receive 100, .readFamily, .arrive 0 0, .cancelReceive, .arrive 0 3, .receive 100, .readFamily,
          .arrive 0 0, .arrive 0 3, .arrive 0 1,
          .arrive 0 3, .arrive 0 0]) := by
  constructor
  · intro h
    exact absurd h.whole (by decide +kernel)
  · intro h
    exact absurd h.whole (by decide +kernel)

/-- A receive of each handle is cancelled inside of the address, and the next one is there before the rest
of the address is. -/
theorem receives_inSync_once :
    InSync udpOverTcp [examplePacket 53 [1, 2] (by decide)]
      (Runs.run (Receiver.step udpOverTcp) (receiver udpOverTcp [examplePacket 53 [1, 2] (by decide)])
        [.receive 100, .readFamily, .arrive 0 0, .arrive 0 1, .cancelReceive, .receive 100, .readFamily,
          .arrive 0 3, .arrive 0 1, .arrive 0 1,
          .arrive 0 1, .arrive 0 0]) ∧
    InSync trojan [examplePacket 53 [1, 2] (by decide)]
      (Runs.run (Receiver.step trojan) (receiver trojan [examplePacket 53 [1, 2] (by decide)])
        [.receive 100, .readFamily, .arrive 0 0, .arrive 0 1, .cancelReceive, .receive 100, .readFamily,
          .arrive 0 3, .arrive 0 1, .arrive 0 3,
          .arrive 0 1, .arrive 0 0]) :=
  ⟨receives_inSync udpOverTcp _ _ (by decide +kernel), receives_inSync trojan _ _ (by decide +kernel)⟩

end ClashNative.PacketStream
