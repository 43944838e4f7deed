import ClashNative.Calls
import ClashNative.ShadowTlsStreams
import ClashNative.ShadowTlsV3Session
/-!
# ShadowTlsCancels — cancelled reads and writes of the Shadow-TLS streams

What a run keeps as long as every chain of reads, and every write of the lower stream, is done before the
next one starts.
-/
namespace ClashNative.ShadowTls

open List

open ShadowTlsV3 (Bytes Chains HmacSha1 Verdict kTlsHeaderSize kApplicationRecord kMaxTlsPlaintext)

variable {κ μ : Type}

/-! ## What is owed -/

def dataIn : Verdict → Bytes
  | .data payload => payload
  | _ => []

/-- **The peer's data**: the payloads of its frames as they stand one after another; a header that opens
none is passed over. -/
def payloads (f : Framing κ) (kept : κ) (wire : Bytes) : Bytes :=
  if wire.length < kTlsHeaderSize then []
  else
    let header := wire.take kTlsHeaderSize
    let size := kTlsHeaderSize + sizeOf header
    if f.opens header then
      if wire.length < size then []
      else
        let handled := f.handle kept (wire.take size)
        dataIn handled.1 ++ payloads f handled.2 (wire.drop size)
    else payloads f kept (wire.drop kTlsHeaderSize)
termination_by wire.length
decreasing_by
  all_goals
    simp only [List.length_drop]
    unfold kTlsHeaderSize at *
    omega

def Stage.front : Stage → Bytes
  | .header => []
  | .payload frameHeader => frameHeader

def Reads.position (s : Reads κ) : Bytes :=
  (s.ops.flatMap fun op => op.stage.front ++ op.got) ++ s.initialWire ++ s.wire

def Once {α : Type} (results : List (Answer α)) (waiting : Option Nat) (calls : Nat) : Prop :=
  Calls.Once (results.map Answer.request) waiting calls

/-- **The reads are sound**: one read of the lower stream at most, what was told is a front of the peer's
data, each handler is called once at most, by its own operation, and until the lower stream ends nothing
is lost. -/
structure Reads.Sound (f : Framing κ) (total : Bytes) (s : Reads κ) : Prop where
  single : s.ops.length ≤ 1
  front : s.delivered <+: total
  once : Once s.results s.waiting s.reads
  own : ∀ answer ∈ s.results, answer.origin = answer.request
  whole : s.ended = none → s.delivered ++ s.pending ++ payloads f s.kept s.position = total

/-- **The writes are sound**: one write of the lower stream at most, each handler is called once at most,
by its own operation, and a success tells the size of its buffer. -/
structure Writes.Sound (s : Writes μ) : Prop where
  single : s.lowers.length ≤ 1
  once : Once s.results s.writeHandler s.buffers.length
  own : ∀ answer ∈ s.results, answer.origin = answer.request
  sizes : ∀ answer ∈ s.results, ∀ n, answer.result = .ok n →
    ∃ buffer, s.buffers[answer.request]? = some buffer ∧ buffer.length = n

structure State.Sound (f : Framing κ) (total : Bytes) (s : State κ μ) : Prop where
  reads : s.reads.Sound f total
  writes : s.writes.Sound

/-- **The condition.**  A read that needs the lower stream starts when no chain of reads is outstanding;
where completions are dropped, the lower stream brings nothing while no read waits; what is cancelled was
not answered; and a write goes to the lower stream when no other write of it is outstanding. -/
def Alone (k : Kind κ μ) (s : State κ μ) : Event → Prop
  | .read size => s.reads.waiting = none → size ≠ 0 → s.reads.pending = [] → s.reads.ops = []
  | .cancelRead => s.reads.called = none
  | .lowerRead i n => k.guards = true → s.reads.waiting = none → ∀ op ∈ s.reads.ops[i]?, op.posted = false →
      s.reads.brings op n = []
  | .write buffer => s.writes.writeHandler = none → (k.closes = true → s.writes.closed = false) →
      buffer ≠ [] → s.writes.lowers = []
  | _ => True

instance (k : Kind κ μ) (s : State κ μ) : ∀ event, Decidable (Alone k s event)
  | .read size => inferInstanceAs (Decidable (s.reads.waiting = none → size ≠ 0 → s.reads.pending = [] →
      s.reads.ops = []))
  | .cancelRead => inferInstanceAs (Decidable (s.reads.called = none))
  | .lowerRead i n => inferInstanceAs (Decidable (k.guards = true → s.reads.waiting = none →
      ∀ op ∈ s.reads.ops[i]?, op.posted = false → s.reads.brings op n = []))
  | .write buffer => inferInstanceAs (Decidable (s.writes.writeHandler = none →
      (k.closes = true → s.writes.closed = false) → buffer ≠ [] →
      s.writes.lowers = []))
  | .posted _ | .fail | .cancelWrite | .lowerWritten _ _ | .close => inferInstanceAs (Decidable True)

/-! ## One call of each handler -/

section Once

variable {α : Type} {results : List (Answer α)} {calls : Nat}

theorem Once.answer {waiting : Option Nat} (h : Once results waiting calls) (result : Except StreamError α) :
    Once (results ++ [⟨calls, calls, result⟩]) waiting (calls + 1) := by
  unfold Once
  rw [map_append]
  exact Calls.Once.answer h

theorem Once.park (h : Once results none calls) : Once results (some calls) (calls + 1) := Calls.Once.park h

theorem Once.finish {waiting : Nat} (h : Once results (some waiting) calls) (origin : Nat)
    (result : Except StreamError α) :
    Once (results ++ [⟨waiting, origin, result⟩]) none calls := by
  unfold Once
  rw [map_append]
  exact Calls.Once.finish h

theorem own_append (h : ∀ answer ∈ results, answer.origin = answer.request) {last : Answer α}
    (hlast : last.origin = last.request) :
    ∀ answer ∈ results ++ [last], answer.origin = answer.request := by
  intro answer hmem
  rcases mem_append.1 hmem with hmem | hmem
  · exact h answer hmem
  · rw [mem_singleton.1 hmem]
    exact hlast

end Once

/-! ## The writes -/

structure Writes.Inv (s : Writes μ) : Prop extends s.Sound where
  owned : ∀ lower ∈ s.lowers, ∀ id, s.writeHandler = some id → lower.owner = id
  parked : ∀ id, s.writeHandler = some id → ∃ buffer, s.buffers[id]? = some buffer ∧ buffer.length = s.writeSize

namespace Writes

variable {s : Writes μ}

theorem sizes_append {results : List (Answer Nat)} {buffers : List Bytes} (buffer : Bytes)
    (h : ∀ answer ∈ results, ∀ n, answer.result = .ok n → ∃ buffer, buffers[answer.request]? = some buffer ∧
      buffer.length = n) :
    ∀ answer ∈ results, ∀ n, answer.result = .ok n →
    ∃ other, (buffers ++ [buffer])[answer.request]? = some other ∧ other.length = n := by
  intro answer hmem n hn
  obtain ⟨other, hother, hlength⟩ := h answer hmem n hn
  exact ⟨other, by rw [getElem?_append_left (List.getElem?_eq_some_iff.1 hother).1, hother], hlength⟩

variable {result : Except StreamError Nat}

theorem Inv.answer (h : s.Inv) (buffer : Bytes) (hresult : ∀ n, result = .ok n → buffer.length = n) :
    (s.answer buffer result).Inv := by
  refine ⟨⟨h.single, ?_, own_append h.own rfl, fun answer hmem n hn => ?_⟩, h.owned, fun id hid => ?_⟩
  · have honce := h.once.answer result
    unfold Writes.answer
    rwa [length_append]
  · rcases mem_append.1 hmem with hmem | hmem
    · exact sizes_append buffer h.sizes answer hmem n hn
    · rw [mem_singleton.1 hmem] at hn ⊢
      exact ⟨buffer, getElem?_concat_length, hresult n hn⟩
  · obtain ⟨other, hother, hlength⟩ := h.parked id hid
    exact ⟨other, (getElem?_append_left (List.getElem?_eq_some_iff.1 hother).1).trans hother, hlength⟩

theorem Inv.start (h : s.Inv) (hnone : s.writeHandler = none) (hlowers : s.lowers = [])
    (buffer wire : Bytes) (mark : μ) :
    (s.start buffer wire mark).Inv := by
  have honce := h.once
  rw [hnone] at honce
  refine ⟨⟨?_, ?_, h.own, sizes_append buffer h.sizes⟩, fun lower hlower id hid => ?_, fun id hid => ?_⟩
  · change (s.lowers ++ [_]).length ≤ 1
    rw [hlowers]
    exact Nat.le_refl 1
  · unfold Writes.start
    rw [length_append]
    exact honce.park
  · change lower ∈ s.lowers ++ [_] at hlower
    rw [hlowers, nil_append, mem_singleton] at hlower
    rw [hlower]
    exact Option.some.inj hid
  · cases Option.some.inj hid
    exact ⟨buffer, getElem?_concat_length, rfl⟩

variable {origin : Nat}

theorem Inv.finish (h : s.Inv) {id : Nat} (hid : s.writeHandler = some id) (horigin : origin = id)
    (hresult : ∀ n, result = .ok n → s.writeSize = n) (writeSize : Nat) :
    Inv { s with
        writeHandler := none, writeSize := writeSize,
        results := s.results ++ [⟨id, origin, result⟩] } := by
  have honce := h.once
  rw [hid] at honce
  refine ⟨⟨h.single, honce.finish origin result, own_append h.own horigin, fun answer hmem n hn => ?_⟩, nofun,
    nofun⟩
  · rcases mem_append.1 hmem with hmem | hmem
    · exact h.sizes answer hmem n hn
    · rw [mem_singleton.1 hmem] at hn ⊢
      obtain ⟨buffer, hbuffer, hlength⟩ := h.parked id hid
      exact ⟨buffer, hbuffer, hlength.trans (hresult n hn)⟩

theorem Inv.finishWrite (h : s.Inv) (horigin : ∀ id, s.writeHandler = some id → origin = id)
    (error : Option StreamError) :
    (s.finishWrite origin error).Inv := by
  unfold Writes.finishWrite
  cases hid : s.writeHandler with
  | none =>
    have hsame : { s with writeHandler := none } = s := by rw [← hid]
    rw [hsame]
    exact h
  | some id =>
    refine h.finish hid (horigin id hid) (fun n hn => ?_) s.writeSize
    cases error with
    | none => exact Except.ok.inj hn
    | some e => cases hn

theorem Inv.cancelWrite (h : s.Inv) : s.cancelWrite.Inv := by
  unfold Writes.cancelWrite
  cases hid : s.writeHandler with
  | none => exact h
  | some id =>
    refine h.finish hid rfl (fun n hn => ?_) 0
    cases hn

theorem Inv.lowerWritten (h : s.Inv) (i : Nat) (error : Option StreamError) : (s.lowerWritten i error).Inv := by
  unfold Writes.lowerWritten
  cases hlower : s.lowers[i]? with
  | none => exact h
  | some lower =>
    have hmem := mem_of_getElem? hlower
    have herase : Inv { s with lowers := s.lowers.eraseIdx i } :=
      ⟨{ h with single := Nat.le_trans (length_eraseIdx_le _ _) h.single },
        fun other hother => h.owned other (mem_of_mem_eraseIdx hother), h.parked⟩
    exact herase.finishWrite (fun id hid => h.owned lower hmem id hid) error

end Writes

/-! ## The reads -/

section Payloads

variable {f : Framing κ} {header body : Bytes}

theorem payloads_of_shut (hheader : header.length = kTlsHeaderSize) (hopens : f.opens header = false)
    (kept : κ) (rest : Bytes) :
    payloads f kept (header ++ rest) = payloads f kept rest := by
  rw [payloads, if_neg (by rw [length_append]; omega)]
  dsimp only
  rw [take_left' hheader, drop_left' hheader, hopens]
  exact if_neg Bool.false_ne_true

theorem payloads_of_frame (hheader : header.length = kTlsHeaderSize) (hopens : f.opens header = true)
    (hbody : body.length = sizeOf header)
    (kept : κ) (rest : Bytes) : payloads f kept (header ++ body ++ rest) =
      dataIn (f.handle kept (header ++ body)).1 ++ payloads f (f.handle kept (header ++ body)).2 rest := by
  have hframe : (header ++ body).length = kTlsHeaderSize + sizeOf header := by rw [length_append, hheader, hbody]
  have htake : (header ++ body ++ rest).take kTlsHeaderSize = header := by rw [append_assoc, take_left' hheader]
  rw [payloads, if_neg (by rw [length_append, hframe]; omega)]
  rw [htake, if_pos hopens, if_neg (by rw [length_append, hframe]; omega), take_left' hframe, drop_left' hframe]

end Payloads

structure Op.Fits (f : Framing κ) (op : Op) : Prop where
  posted : op.posted = true ↔ op.got.length = op.stage.want
  opened : ∀ header, op.stage = .payload header → header.length = kTlsHeaderSize ∧ f.opens header = true

namespace Reads

/-- **The frames are in place**, behind the bytes of a frame that has begun. -/
def Placed (f : Framing κ) (total front : Bytes) (s : Reads κ) : Prop :=
  s.delivered ++ s.pending ++ payloads f s.kept (front ++ s.position) = total

structure Lost (total : Bytes) (s : Reads κ) : Prop where
  ended : s.ended.isSome = true
  initialWire : s.initialWire = []
  ops : ∀ op ∈ s.ops, op.posted = false
  front : s.delivered ++ s.pending <+: total

structure Booked (s : Reads κ) : Prop where
  once : Once s.results s.waiting s.reads
  own : ∀ answer ∈ s.results, answer.origin = answer.request
  serves : s.waiting.isSome = true → s.called = none

structure Serving (f : Framing κ) (s : Reads κ) (op : Op) : Prop where
  fits : op.Fits f
  owned : ∀ id, s.waiting = some id → op.owner = id
  pending : s.pending = []
  called : s.called = none
  initialWire : op.posted = false → s.initialWire = []

structure Inv (f : Framing κ) (total : Bytes) (s : Reads κ) : Prop extends s.Booked where
  ops : s.ops = [] ∨ ∃ op, s.ops = [op] ∧ s.Serving f op
  place : s.Placed f total [] ∨ s.Lost total

variable {f : Framing κ} {total : Bytes} {s : Reads κ}

theorem position_of_nil (hops : s.ops = []) : s.position = s.initialWire ++ s.wire := by
  unfold position
  rw [hops, flatMap_nil, nil_append]

theorem position_of_one {op : Op} (hops : s.ops = [op]) :
    s.position = op.stage.front ++ op.got ++ s.initialWire ++ s.wire := by
  unfold position
  rw [hops, flatMap_cons, flatMap_nil, append_nil]

theorem delivered_append (results : List (Answer Bytes)) (answer : Answer Bytes) :
    ((results ++ [answer]).flatMap fun a => dataOf a.result) =
    (results.flatMap fun a => dataOf a.result) ++ dataOf answer.result := by
  rw [flatMap_append, flatMap_cons, flatMap_nil, append_nil]

theorem Inv.front (h : s.Inv f total) : s.delivered ++ s.pending <+: total := by
  rcases h.place with hplaced | hlost
  · exact hplaced ▸ prefix_append _ _
  · exact hlost.front

theorem Inv.placed (h : s.Inv f total) (hended : s.ended = none) : s.Placed f total [] := by
  refine h.place.resolve_right fun hlost => ?_
  have hsome := hlost.ended
  rw [hended] at hsome
  cases hsome

theorem Inv.sound (h : s.Inv f total) : s.Sound f total := by
  refine ⟨?_, (prefix_append _ _).trans h.front, h.once, h.own, h.placed⟩
  rcases h.ops with hnil | ⟨op, hone, -⟩
  · rw [hnil]
    exact Nat.zero_le 1
  · rw [hone]
    exact Nat.le_refl 1

theorem readExact_inv (hbook : s.Booked) (hops : s.ops = []) (hpending : s.pending = [])
    (hcalled : s.called = none) {owner : Nat}
    (howned : ∀ id, s.waiting = some id → owner = id) {stage : Stage}
    (hopened : ∀ header, stage = .payload header → header.length = kTlsHeaderSize ∧ f.opens header = true)
    (hplace : s.Placed f total stage.front ∨ stage = .header ∧ s.Lost total) :
    (s.readExact owner stage).Inv f total := by
  have hone : (s.readExact owner stage).ops =
      [⟨owner, stage, s.initialWire.take stage.want, (s.initialWire.take stage.want).length = stage.want⟩] := by
    rw [readExact, hops]
    rfl
  refine ⟨{ hbook with }, .inr ⟨_, hone, ⟨⟨?_, hopened⟩, howned, hpending, hcalled, fun hposted => ?_⟩⟩, ?_⟩
  · rw [decide_eq_true_eq]
  · rw [decide_eq_false_iff_not, length_take] at hposted
    exact drop_of_length_le (by omega)
  · rcases hplace with hplaced | ⟨rfl, hlost⟩
    · have hposition : (s.readExact owner stage).position = stage.front ++ s.position := by
        rw [position_of_nil hops, position_of_one hone]
        change stage.front ++ s.initialWire.take stage.want ++ s.initialWire.drop stage.want ++ s.wire = _
        rw [append_assoc stage.front, take_append_drop, append_assoc]
      refine .inl ?_
      unfold Placed
      rw [hposition]
      exact hplaced
    · refine .inr ⟨hlost.ended, ?_, fun op hop => ?_, hlost.front⟩
      · change s.initialWire.drop _ = []
        rw [hlost.initialWire, drop_nil]
      · rw [hone, mem_singleton, hlost.initialWire, take_nil] at hop
        rw [hop]
        rfl

variable {origin : Nat}

theorem finishRead_inv (hbook : s.Booked) (hops : s.ops = []) (hcalled : s.called = none)
    (howned : ∀ id, s.waiting = some id → origin = id) (hplace : s.Placed f total [] ∨ s.Lost total)
    (e : StreamError) :
    (s.finishRead origin (.error e)).Inv f total := by
  unfold finishRead handler
  rw [hcalled, Option.or_none]
  have honce := hbook.once
  cases hwaiting : s.waiting with
  | none =>
    rw [hwaiting] at honce
    exact ⟨⟨honce, hbook.own, nofun⟩, .inl hops, hplace.imp (fun hplaced => hplaced) fun hlost =>
      { hlost with }⟩
  | some id =>
    rw [hwaiting] at honce
    have hdata : ((s.results ++ [(⟨id, origin, .error e⟩ : Answer Bytes)]).flatMap fun a =>
      dataOf a.result) = s.delivered := by
      rw [delivered_append]
      exact append_nil _
    refine ⟨⟨honce.finish origin _, own_append hbook.own (howned id hwaiting), nofun⟩, .inl hops,
      hplace.imp (fun hplaced => ?_) fun hlost => ?_⟩
    · unfold Placed delivered
      rw [hdata]
      exact hplaced
    · refine { hlost with front := ?_ }
      unfold delivered
      rw [hdata]
      exact hlost.front

theorem copyPending_inv (hbook : s.Booked) (hops : s.ops = []) (hcalled : s.called = none)
    (howned : ∀ id, s.waiting = some id → origin = id) (hplace : s.Placed f total [] ∨ s.Lost total) :
    (s.copyPending f origin).Inv f total := by
  unfold copyPending handler
  rw [hcalled, Option.or_none]
  cases hwaiting : s.waiting with
  | none => exact ⟨hbook, .inl hops, hplace⟩
  | some id =>
    dsimp only
    by_cases hpending : s.pending = []
    · rw [if_pos hpending]
      exact ⟨hbook, .inl hops, hplace⟩
    · rw [if_neg hpending]
      have honce := hbook.once
      rw [hwaiting] at honce
      have hdata : ((s.results ++ [(⟨id, origin,
        .ok (s.pending.take s.readBuffer)⟩ : Answer Bytes)]).flatMap fun a => dataOf a.result) ++
          s.pending.drop s.readBuffer = s.delivered ++ s.pending := by
        rw [delivered_append, append_assoc]
        exact congrArg (s.delivered ++ ·) (take_append_drop _ _)
      refine ⟨⟨honce.finish origin _, own_append hbook.own (howned id hwaiting), nofun⟩, .inl hops,
        hplace.imp (fun hplaced => ?_) fun hlost => ?_⟩
      · unfold Placed delivered
        rw [hdata]
        exact hplaced
      · refine { hlost with front := ?_ }
        unfold delivered
        rw [hdata]
        exact hlost.front

theorem Inv.rebook {t : Reads κ} (h : s.Inv f total) (hbook : t.Booked)
    (hwaiting : ∀ id, t.waiting = some id → s.waiting = some id)
    (hops : t.ops = s.ops) (hkept : t.kept = s.kept) (hinitial : t.initialWire = s.initialWire)
    (hwire : t.wire = s.wire)
    (hended : s.ended.isSome = true → t.ended.isSome = true) (hcalled : s.called = none → t.called = none)
    (hpending : s.pending = [] → t.pending = [])
    (hdata : t.delivered ++ t.pending = s.delivered ++ s.pending) : t.Inv f total := by
  have hposition : t.position = s.position := by
    unfold position
    rw [hops, hinitial, hwire]
  refine ⟨hbook, ?_, h.place.imp (fun hplaced => ?_) fun hlost => ?_⟩
  · rcases h.ops with hnil | ⟨op, hone, hserving⟩
    · exact .inl (hops.trans hnil)
    · refine .inr ⟨op, hops.trans hone, hserving.fits, fun id hid => hserving.owned id (hwaiting id hid),
        hpending hserving.pending,
        hcalled hserving.called, fun hposted => hinitial.trans (hserving.initialWire hposted)⟩
  · unfold Placed
    rw [hdata, hkept, hposition]
    exact hplaced
  · exact ⟨hended hlost.ended, hinitial.trans hlost.initialWire, fun op hop => hlost.ops op (hops ▸ hop),
      hdata ▸ hlost.front⟩

theorem Inv.answer (h : s.Inv f total) {result : Except StreamError Bytes} (hnone : dataOf result = []) :
    (s.answer result).Inv f total := by
  refine h.rebook ⟨h.once.answer result, own_append h.own rfl, h.serves⟩ (fun _ hid => hid) rfl rfl rfl rfl
    (fun hended => hended)
    (fun hcalled => hcalled) (fun hpending => hpending) ?_
  unfold delivered Reads.answer
  rw [delivered_append, hnone, append_nil]

theorem Inv.answerPending (h : s.Inv f total) (hpending : s.pending ≠ []) (size : Nat) :
    ({ s with pending := s.pending.drop size }.answer (.ok (s.pending.take size))).Inv f total := by
  refine h.rebook ⟨h.once.answer _, own_append h.own rfl, h.serves⟩ (fun _ hid => hid) rfl rfl rfl rfl
    (fun hended => hended)
    (fun hcalled => hcalled) (fun hnil => absurd hnil hpending) ?_
  unfold delivered Reads.answer
  rw [delivered_append, append_assoc]
  exact congrArg (s.delivered ++ ·) (take_append_drop size s.pending)

theorem Inv.abort (h : s.Inv f total) {id : Nat} (hwaiting : s.waiting = some id) (readBuffer : Nat)
    (e : StreamError) :
    Inv f total { s with
        waiting := none, called := none, readBuffer := readBuffer,
        results := s.results ++ [⟨id, id, .error e⟩] } := by
  have honce := h.once
  rw [hwaiting] at honce
  refine h.rebook ⟨honce.finish id _, own_append h.own rfl, nofun⟩ (nofun) rfl rfl rfl rfl (fun hended => hended)
    (fun _ => rfl) (fun hpending => hpending) ?_
  unfold delivered
  rw [delivered_append]
  exact congrArg (· ++ s.pending) (append_nil _)

theorem Inv.cancelRead (h : s.Inv f total) (hcalled : s.called = none) : s.cancelRead.Inv f total := by
  unfold Reads.cancelRead handler
  rw [hcalled, Option.or_none]
  cases hwaiting : s.waiting with
  | none => exact h
  | some id => exact h.abort hwaiting 0 .operationAborted

theorem Inv.fail (h : s.Inv f total) : s.fail.Inv f total := by
  refine h.rebook { h with } (fun _ hid => hid) rfl rfl rfl rfl (fun hended => ?_) (fun hcalled => hcalled)
    (fun hpending => hpending) rfl
  unfold Reads.fail
  cases hs : s.ended with
  | none => rfl
  | some e => rfl

theorem Inv.op (h : s.Inv f total) {i : Nat} {op : Op} (hop : s.ops[i]? = some op) :
    s.ops = [op] ∧ s.ops.eraseIdx i = [] ∧ s.Serving f op := by
  rcases h.ops with hnil | ⟨other, hone, hserving⟩
  · rw [hnil] at hop
    cases hop
  · rw [hone] at hop
    obtain ⟨hi, hget⟩ := List.getElem?_eq_some_iff.1 hop
    have hzero : i = 0 := by
      rw [length_singleton] at hi
      omega
    subst hzero
    cases hget
    exact ⟨hone, by rw [hone]; rfl, hserving⟩

theorem brings_append (s : Reads κ) (op : Op) (n : Nat) :
    s.brings op n ++ s.wire.drop (s.brings op n).length = s.wire := by
  refine prefix_iff_eq_append.1 ?_
  unfold brings
  split
  · exact nil_prefix
  · exact take_prefix _ _

theorem Inv.lowerRead (h : s.Inv f total) (i n : Nat)
    (halone : f.guards = true → s.waiting = none →
      ∀ op, s.ops[i]? = some op → op.posted = false → s.brings op n = []) :
    (s.lowerRead f i n).Inv f total := by
  unfold Reads.lowerRead
  cases hop : s.ops[i]? with
  | none => exact h
  | some op =>
    dsimp only
    obtain ⟨hone, herase, hserving⟩ := h.op hop
    cases hposted : op.posted with
    | true => exact h
    | false =>
      rw [if_neg (by decide), herase]
      have hinitial := hserving.initialWire hposted
      split
      · rename_i e hended
        refine finishRead_inv (s := { s with
          ops := [], wire := s.wire.drop (s.brings op n).length }) { h with } rfl hserving.called
          hserving.owned (.inr ⟨?_, hinitial, nofun, h.front⟩) _
        rw [hended]
        rfl
      · rename_i hended
        have hlost : Lost total { s with
            ops := [], wire := s.wire.drop (s.brings op n).length, ended := some .eof } :=
          ⟨rfl, hinitial, nofun, h.front⟩
        split
        · rename_i hdropped
          rw [halone hdropped.1 hdropped.2 op hop hposted] at hlost ⊢
          exact ⟨{ h with }, .inl rfl, .inr hlost⟩
        · by_cases hdata : s.brings op n = []
          · rw [if_pos hdata]
            exact finishRead_inv (s := { s with
              ops := [], wire := s.wire.drop (s.brings op n).length, ended := some .eof })
              { h with } rfl hserving.called hserving.owned (.inr hlost) _
          · rw [if_neg hdata]
            refine ⟨{ h with }, .inr ⟨_, rfl, ⟨by rw [decide_eq_true_eq], hserving.fits.opened⟩, hserving.owned,
              hserving.pending, hserving.called, fun _ => hinitial⟩, .inl ?_⟩
            have hplaced := h.placed hended
            unfold Placed at hplaced ⊢
            rw [nil_append, position_of_one hone, hinitial, append_nil, ← brings_append s op n] at hplaced
            rw [← hplaced, position_of_one rfl]
            change s.delivered ++ s.pending ++ payloads f s.kept
              ([] ++ (op.stage.front ++ (op.got ++ s.brings op n)
                ++ s.initialWire ++ s.wire.drop (s.brings op n).length)) = _
            rw [hinitial, nil_append, append_nil, ← append_assoc op.stage.front, append_assoc _ (s.brings op n)]

theorem Inv.runPosted (h : s.Inv f total) (i : Nat) : (s.runPosted f i).Inv f total := by
  unfold Reads.runPosted
  cases hop : s.ops[i]? with
  | none => exact h
  | some op =>
    dsimp only
    obtain ⟨hone, herase, hserving⟩ := h.op hop
    by_cases hposted : op.posted = true
    · rw [if_pos hposted, herase]
      have hwant := hserving.fits.posted.1 hposted
      have hplaced := h.place.resolve_right fun hlost => by
        have hnot := hlost.ops op (hone ▸ mem_cons_self)
        rw [hposted] at hnot
        cases hnot
      unfold Placed at hplaced
      rw [nil_append, position_of_one hone, append_assoc (op.stage.front ++ op.got)] at hplaced
      split
      · rename_i hstage
        rw [hstage, Stage.want] at hwant
        rw [hstage, Stage.front, nil_append] at hplaced
        cases hopens : f.opens op.got with
        | true =>
          refine readExact_inv (s := { s with ops := [] }) { h with }
            rfl hserving.pending hserving.called hserving.owned
            (fun header heq => ?_) (.inl ?_)
          · cases heq
            exact ⟨hwant, hopens⟩
          · exact hplaced
        | false =>
          refine finishRead_inv (s := { s with ops := [] }) { h with }
            rfl hserving.called hserving.owned (.inl ?_) _
          unfold Placed
          rw [position_of_nil rfl, ← hplaced, payloads_of_shut hwant hopens]
          rfl
      · rename_i header hstage
        obtain ⟨hheader, hopens⟩ := hserving.fits.opened header hstage
        rw [hstage, Stage.want] at hwant
        rw [hstage, Stage.front, payloads_of_frame hheader hopens hwant, hserving.pending, append_nil,
          ← append_assoc] at hplaced
        -- the verdict on the frame
        cases hhandle : f.handle s.kept (header ++ op.got) with
        | mk verdict next =>
        rw [hhandle] at hplaced
        cases verdict with
        | bridge =>
          refine readExact_inv (s := { s with ops := [], kept := next }) { h with }
            rfl hserving.pending hserving.called
            hserving.owned (fun _ heq => by cases heq) (.inl ?_)
          unfold Placed
          rw [position_of_nil rfl, ← hplaced]
          rw [hserving.pending]
          rfl
        | fault =>
          refine finishRead_inv (s := { s with ops := [], kept := next }) { h with }
            rfl hserving.called hserving.owned (.inl ?_) _
          unfold Placed
          rw [position_of_nil rfl, ← hplaced]
          rw [hserving.pending]
          rfl
        | data payload =>
          refine copyPending_inv (s := { s with ops := [], kept := next, pending := payload }) { h with }
            rfl hserving.called
            hserving.owned (.inl ?_)
          unfold Placed
          rw [position_of_nil rfl, ← hplaced]
          rfl
    · rw [if_neg hposted]
      exact h

theorem Inv.begin (h : s.Inv f total) (hwaiting : s.waiting = none) (hops : s.ops = [])
    (hpending : s.pending = []) (size : Nat) :
    ((s.park size).readExact s.reads .header).Inv f total := by
  have honce := h.once
  rw [hwaiting] at honce
  refine readExact_inv (s := s.park size) ⟨honce.park, h.own, fun _ => rfl⟩ hops hpending rfl
    (fun id hid => Option.some.inj hid)
    (nofun) (h.place.imp (fun hplaced => hplaced) fun hlost => ⟨rfl, hlost.ended, hlost.initialWire,
      hlost.ops, hlost.front⟩)

variable {size : Nat}

theorem readV2_inv {s : Reads Unit} (h : s.Inv framingV2 total) (halone : s.waiting = none → size ≠ 0 →
    s.pending = [] → s.ops = []) :
    (readV2 s size).Inv framingV2 total := by
  unfold readV2
  cases hwaiting : s.waiting with
  | some id => exact h.answer rfl
  | none =>
    by_cases hpending : s.pending = []
    · rw [if_neg (not_not_intro hpending)]
      by_cases hsize : size = 0
      · rw [if_pos hsize]
        exact h.answer rfl
      · rw [if_neg hsize]
        exact h.begin hwaiting (halone hwaiting hsize hpending) hpending size
    · rw [if_pos hpending]
      have hanswered := h.answerPending hpending size
      rwa [hwaiting] at hanswered

theorem readV3_inv {mac : HmacSha1} {s : Reads Chains} (h : s.Inv (framingV3 mac) total)
    (halone : s.waiting = none → size ≠ 0 → s.pending = [] → s.ops = []) :
    (readV3 mac s size).Inv (framingV3 mac) total := by
  unfold readV3
  cases hwaiting : s.waiting with
  | some id => exact h.answer rfl
  | none =>
    by_cases hsize : size = 0
    · rw [if_pos hsize]
      exact h.answer rfl
    · rw [if_neg hsize]
      by_cases hpending : s.pending = []
      · rw [if_neg (not_not_intro hpending)]
        exact h.begin hwaiting (halone hwaiting hsize hpending) hpending size
      · rw [if_pos hpending]
        have hops : s.ops = [] := h.ops.resolve_right fun ⟨_, _, hserving⟩ => hpending hserving.pending
        have honce := h.once
        rw [hwaiting] at honce
        exact copyPending_inv (s := s.park size) ⟨honce.park, h.own, fun _ => rfl⟩ hops rfl
          (fun id hid => Option.some.inj hid)
          (h.place.imp (fun hplaced => hplaced) fun hlost => { hlost with })

end Reads

/-! ## The streams -/

variable {buffer : Bytes}

theorem writeV2_inv {s : Writes Bool} (h : s.Inv) (hash : Bytes)
    (halone : s.writeHandler = none → buffer ≠ [] → s.lowers = []) : (writeV2 hash s buffer).Inv := by
  unfold writeV2
  cases hhandler : s.writeHandler with
  | some id => exact h.answer buffer nofun
  | none =>
    by_cases hbuffer : buffer = []
    · rw [if_pos hbuffer]
      refine h.answer buffer fun n hn => ?_
      rw [hbuffer]
      exact Except.ok.inj hn
    · rw [if_neg hbuffer]
      exact h.start hhandler (halone hhandler hbuffer) buffer _ true

theorem writeV3_inv {s : Writes Bytes} (h : s.Inv) (mac : HmacSha1)
    (halone : s.writeHandler = none → s.closed = false → buffer ≠ [] → s.lowers = []) :
    (writeV3 mac s buffer).Inv := by
  unfold writeV3
  by_cases hturned : s.writeHandler.isSome ∨ s.closed
  · rw [if_pos hturned]
    exact h.answer buffer nofun
  · rw [if_neg hturned]
    rw [not_or, Option.not_isSome_iff_eq_none, Bool.not_eq_true] at hturned
    by_cases hbuffer : buffer = []
    · rw [if_pos hbuffer]
      refine h.answer buffer fun n hn => ?_
      rw [hbuffer]
      exact Except.ok.inj hn
    · rw [if_neg hbuffer]
      cases ShadowTlsV3.write mac s.mark buffer with
      | none => exact h.answer buffer nofun
      | some framed => exact h.start hturned.1 (halone hturned.1 hturned.2 hbuffer) buffer _ framed.1

structure Kind.Keeps (k : Kind κ μ) : Prop where
  read : ∀ {total : Bytes} {s : Reads κ} {size : Nat}, s.Inv k.toFraming total → (s.waiting =
    none → size ≠ 0 → s.pending = [] → s.ops = []) →
    (k.read s size).Inv k.toFraming total
  write : ∀ {s : Writes μ} {buffer : Bytes}, s.Inv →
    (s.writeHandler = none → (k.closes = true → s.closed = false) → buffer ≠ [] → s.lowers = []) →
    (k.write s buffer).Inv

theorem kindV2_keeps (hash : Bytes) : (kindV2 hash).Keeps where
  read h halone := Reads.readV2_inv h halone
  write h halone := writeV2_inv h hash fun hnone hbuffer => halone hnone nofun hbuffer

theorem kindV3_keeps (mac : HmacSha1) : (kindV3 mac).Keeps where
  read h halone := Reads.readV3_inv h halone
  write h halone := writeV3_inv h mac fun hnone hopen hbuffer => halone hnone (fun _ => hopen) hbuffer

structure State.Inv (k : Kind κ μ) (total : Bytes) (s : State κ μ) : Prop where
  reads : s.reads.Inv k.toFraming total
  writes : s.writes.Inv

variable {k : Kind κ μ} {total : Bytes} {s : State κ μ}

theorem State.Inv.sound (h : s.Inv k total) : s.Sound k.toFraming total := ⟨h.reads.sound, h.writes.toSound⟩

theorem close_inv (h : s.Inv k total) : (close k s).Inv k total := by
  unfold close
  split
  · split
    · exact h
    · constructor
      · split
        · exact h.reads.fail
        · rename_i id hwaiting
          have hhandler : s.reads.fail.handler = some id := by
            unfold Reads.handler
            rw [show s.reads.fail.waiting = some id from hwaiting]
            rfl
          unfold Reads.finishRead
          rw [hhandler]
          exact h.reads.fail.abort hwaiting s.reads.readBuffer .operationAborted
      · have hclosed : Writes.Inv { s.writes with closed := true } :=
          ⟨⟨h.writes.single, h.writes.once, h.writes.own, h.writes.sizes⟩, h.writes.owned, h.writes.parked⟩
        dsimp only
        split
        · exact hclosed
        · rename_i id hhandler
          exact hclosed.finishWrite (fun other hother => Option.some.inj (hhandler.symm.trans hother)) _
  · exact ⟨h.reads.fail, h.writes⟩

theorem step_inv (hk : k.Keeps) (s : State κ μ) (event : Event) (h : s.Inv k total)
    (halone : Alone k s event) : (step k s event).Inv k total := by
  cases event with
  | read size => exact ⟨hk.read h.reads halone, h.writes⟩
  | cancelRead => exact ⟨h.reads.cancelRead halone, h.writes⟩
  | lowerRead i n => exact ⟨h.reads.lowerRead i n halone, h.writes⟩
  | posted i => exact ⟨h.reads.runPosted i, h.writes⟩
  | fail => exact ⟨h.reads.fail, h.writes⟩
  | write buffer => exact ⟨h.reads, hk.write h.writes halone⟩
  | cancelWrite => exact ⟨h.reads, h.writes.cancelWrite⟩
  | lowerWritten i error => exact ⟨h.reads, h.writes.lowerWritten i error⟩
  | close => exact close_inv h

theorem opened_inv (k : Kind κ μ) (kept : κ) (mark : μ) (pending initialWire wire : Bytes) :
    (opened kept mark pending initialWire wire).Inv k
    (pending ++ payloads k.toFraming kept (initialWire ++ wire)) where
  reads := ⟨⟨fun _ => rfl, nofun, nofun⟩, .inl rfl, .inl rfl⟩
  writes := ⟨⟨Nat.zero_le 1, fun _ => rfl, nofun, nofun⟩, nofun,
    nofun⟩

/-- **Cancelling is sound on the streams of both versions** in every run that meets the condition,
whatever the peer sends. -/
theorem cancels_sound (hash : Bytes) (mac : HmacSha1) (chains : Chains)
    (mark pending initialWire wire : Bytes) (events : List Event) :
    (Runs.Along (step (kindV2 hash)) (Alone (kindV2 hash)) (opened () false [] [] wire) events →
      (Runs.run (step (kindV2 hash)) (opened () false [] [] wire) events).Sound framingV2
      (payloads framingV2 () wire)) ∧
      (Runs.Along (step (kindV3 mac)) (Alone (kindV3 mac)) (opened chains mark pending initialWire wire) events →
        (Runs.run (step (kindV3 mac)) (opened chains mark pending initialWire wire) events).Sound (framingV3 mac)
          (pending ++ payloads (framingV3 mac) chains (initialWire ++ wire))) := by
  refine ⟨fun halong => ?_, fun halong => ?_⟩
  · have hrun := Runs.along_induction (step_inv (kindV2_keeps hash)) events _
      (opened_inv (kindV2 hash) () false [] [] wire) halong
    exact hrun.sound
  · have hrun := Runs.along_induction (step_inv (kindV3_keeps mac)) events _
      (opened_inv (kindV3 mac) chains mark pending initialWire wire) halong
    exact hrun.sound

/-- A read is cancelled and its frame comes; another read has what was sent, and the writes go on behind a
cancelled one. -/
theorem cancels_sound_once :
    (∀ answer ∈ (Runs.run (step (kindV2 [1])) (opened () false [] [] [23, 3, 3, 0, 2, 7, 8])
        [.read 4, .lowerRead 0 5, .cancelRead, .posted 0, .lowerRead 0 2, .posted 0, .read 4, .write [9],
          .cancelWrite, .lowerWritten 0 none,
          .write [9]]).reads.results, answer.origin = answer.request) ∧
      (Runs.run (step (kindV3 ShadowTlsV3.exampleMac)) (opened ⟨[], [7]⟩ [7] [5, 6] [] [])
        [.read 1, .read 4, .read 4, .close]).reads.ops.length ≤ 1 := by
  refine ⟨((cancels_sound [1] ShadowTlsV3.exampleMac ⟨[], []⟩ [] [] [] _ _).1 ?_).reads.own,
    ((cancels_sound [] ShadowTlsV3.exampleMac _ _ _ _ _ _).2 ?_).reads.single⟩
  · decide +kernel
  · decide +kernel

/-- A read and a write behind cancelled ones: two reads of the lower stream are outstanding, and the write
is told how the first one ended. -/
theorem cancelled_ones_are_in_the_way :
    let v2 := Runs.run (step (kindV2 [])) (opened () false [] [] [])
    let v3 := Runs.run (step (kindV3 ShadowTlsV3.exampleMac)) (opened ⟨[], [7]⟩ [7] [] [] [])
    let reads := [Event.read 4, .cancelRead, .read 4]
    let writes := [Event.write [8], .cancelWrite, .write [9, 9], .lowerWritten 0 none]
    (v2 reads).reads.ops.length = 2 ∧ (v3 reads).reads.ops.length = 2 ∧
      (v2 writes).writes.results.map (fun answer => (answer.request, answer.origin)) = [(0, 0), (1, 0)] ∧
      (v3 writes).writes.results.map (fun answer => (answer.request, answer.origin)) = [(0, 0), (1, 0)] := by
  decide +kernel

end ClashNative.ShadowTls
