import ClashNative.Runs
import Mathlib.Data.List.Basic
/-!
# RequestBodyReads — reads of a forwarded request's body

`ProxyRequestBodyStream` of `proxy_stream.cpp`, with the senders that its reads are.  A step is one turn
of the executor.  Reads are numbered; a caller has one of them at a time, and may start the next as soon
as it has stopped one.
-/
namespace ClashNative.RequestBodyReads

open List

abbrev Bytes := List UInt8

/-- A handler and the buffer that comes with it: `owner` is the read whose buffer it is. -/
structure Pull where
  op : Nat
  owner : Nat
  size : Nat
  deriving DecidableEq

inductive Code
  | ok | eof | aborted | alreadyStarted | failed
  deriving DecidableEq

/-- A call of a handler, with what the parser has stored and the read in whose buffer. -/
structure Answer where
  op : Nat
  code : Code
  size : Nat := 0
  chunk : Bytes := []
  owner : Nat := 0
  deriving DecidableEq

def Answer.bytes (a : Answer) : Bytes := if a.code = .ok then a.chunk else []

/-- How a Beast read ends: the buffer is full, there is an error, the body is over, or none of them. -/
inductive Ended
  | needBuffer | failed | done | more
  deriving DecidableEq

/-- **The stream.**  `bodyOwner` and `bodySize` are the parser's buffer, `beast` the Beast reads that are
out, `hops` the retries and `posted` the calls of handlers that are posted; `current` is the read that its
caller waits for.  `decoded` and `returned`, what the parser has stored and what reads have returned, are
kept for the statements; `answered` are the calls that a caller has seen. -/
structure Stream where
  cancelled : Bool := false
  reading : Bool := false
  readAbort : Bool := false
  retryPending : Bool := false
  parked : Option Nat := none
  bodyOwner : Nat := 0
  bodySize : Nat := 0
  beast : List Pull := []
  hops : List Pull := []
  posted : List Answer := []
  current : Option Nat := none
  started : Nat := 0
  broken : Bool := false
  decoded : Bytes := []
  returned : Bytes := []
  answered : List Answer := []
  deriving DecidableEq

namespace Stream

def post (s : Stream) (a : Answer) : Stream := { s with posted := s.posted ++ [a] }

def runReadSome (s : Stream) (r : Pull) : Stream :=
  if s.cancelled then s.post { op := r.op, code := .aborted }
  else if s.reading then s.post { op := r.op, code := .alreadyStarted }
  else if s.readAbort then { s with readAbort := false }.post { op := r.op, code := .aborted }
  else { s with reading := true, parked := some r.op, bodyOwner := r.owner, bodySize := r.size, beast :=
    s.beast ++ [r] }

def retryRead (s : Stream) (r : Pull) : Stream := { s with retryPending := true, hops := s.hops ++ [r] }

def read (s : Stream) (size : Nat) : Stream :=
  if s.current.isSome then s
  else { s with started := s.started + 1, current := some s.started }.runReadSome ⟨s.started, s.started, size⟩

def cancelRead (s : Stream) : Stream :=
  match s.parked with
  | some op => { s with reading := false, parked := none }.post { op, code := .aborted }
  | none => if s.retryPending then { s with readAbort := true } else s

/-- The caller stops its read: the sender is done with it at once, and aborts it. -/
def stop (s : Stream) : Stream := if s.current.isSome then { s with current := none }.cancelRead else s

def cancel (s : Stream) : Stream := { s with cancelled := true }

/-- What a Beast read stores: no more than there is room for.  What a parse that fails has stored counts
for nothing, and a failed parser stores nothing. -/
def stored (s : Stream) (chunk : Bytes) (ended : Ended) : Bytes :=
  if s.broken ∨ ended = .failed then [] else chunk.take s.bodySize

def beastEnded (s : Stream) (index : Nat) (chunk : Bytes) (ended : Ended) : Stream :=
  match s.beast[index]? with
  | none => s
  | some r =>
    let chunk := s.stored chunk ended
    let handler := s.parked
    let s := { s with
      beast := s.beast.eraseIdx index, decoded := s.decoded ++ chunk, bodySize := s.bodySize - chunk.length
      broken := s.broken || ended = .failed, parked := none, reading := false }
    match handler with
    | none => s
    | some op =>
      let size := r.size - s.bodySize
      match ended with
      | .failed => s.post { op, code := .failed }
      | .done => if size ≠ 0 then s.post ⟨op, .ok, size, chunk, s.bodyOwner⟩ else s.post { op, code := .eof }
      | _ => if size ≠ 0 then s.post ⟨op, .ok, size, chunk, s.bodyOwner⟩ else s.retryRead { r with op }

def hop (s : Stream) : Stream :=
  match s.hops with
  | [] => s
  | r :: hops => { s with retryPending := false, hops }.runReadSome r

/-- A posted call of a handler runs; the sender of a stopped read drops it. -/
def deliver (s : Stream) : Stream :=
  match s.posted with
  | [] => s
  | a :: posted =>
    if s.current = some a.op then
      { s with posted, current := none, answered := s.answered ++ [a], returned := s.returned ++ a.bytes }
    else { s with posted }

end Stream

inductive Event
  | read (size : Nat)
  | stop
  | cancel
  | beastEnded (index : Nat) (chunk : Bytes) (ended : Ended)
  | hop
  | deliver
  deriving DecidableEq

def step (s : Stream) : Event → Stream
  | .read size => s.read size
  | .stop => s.stop
  | .cancel => s.cancel
  | .beastEnded index chunk ended => s.beastEnded index chunk ended
  | .hop => s.hop
  | .deliver => s.deliver

/-! ### The property -/

/-- A success is what the parser has stored in the buffer of its own read. -/
def Answer.Own (a : Answer) : Prop := a.code = .ok → a.size = a.chunk.length ∧ a.owner = a.op

def Stream.Serves (s : Stream) (a : Answer) : Prop :=
  (a.code = .aborted → s.cancelled = true) ∧ a.code ≠ .alreadyStarted

def Stream.pipeline (s : Stream) : Bytes := s.posted.flatMap Answer.bytes

/-- **What the stream owes**: one Beast read at a time, a stream that serves the read that its caller
waits for, whatever was stopped before, and the bytes of the body in order, none of them lost. -/
structure Sound (s : Stream) : Prop where
  one : s.beast.length ≤ 1
  own : ∀ a ∈ s.posted ++ s.answered, a.Own
  serves : (∀ a ∈ s.answered, s.Serves a) ∧ ∀ a ∈ s.posted, s.current = some a.op → s.Serves a
  waits : ∀ op, s.current = some op → s.parked = some op ∧ s.beast ≠ [] ∨ op ∈ s.hops.map Pull.op ∨
    op ∈ s.posted.map Answer.op
  returned : s.returned <+: s.decoded
  kept : s.returned ++ s.pipeline = s.decoded

/-- **The condition.**  A read of an open stream is started where no Beast read is out and no abort is
armed, a Beast read whose handler was retired ends without bytes, and a read with bytes is not stopped
before its handler is called. -/
def Clear (s : Stream) : Event → Prop
  | .read _ => s.current = none → s.cancelled = false → s.readAbort = false ∧ s.beast = []
  | .beastEnded index chunk ended => index < s.beast.length → s.parked = none → s.stored chunk ended = []
  | .deliver => ∀ a ∈ s.posted.head?, a.bytes ≠ [] → s.current = some a.op
  | _ => True

instance (s : Stream) : (event : Event) → Decidable (Clear s event)
  | .read _ => inferInstanceAs (Decidable (_ → _ → _ ∧ _))
  | .beastEnded _ _ _ => inferInstanceAs (Decidable (_ → _ → _))
  | .deliver => inferInstanceAs (Decidable (∀ a ∈ s.posted.head?, a.bytes ≠ [] → s.current = some a.op))
  | .stop | .cancel | .hop => isTrue trivial

/-! ### What the moves keep -/

/-- **The books**, also where a read is on its way from one place to the next. -/
structure Books (s : Stream) : Prop where
  one : s.beast.length ≤ 1
  parked : ∀ op, s.parked = some op → s.current = some op ∧ s.beast = [⟨op, op, s.bodySize⟩] ∧ s.bodyOwner = op
  reading : s.reading = s.parked.isSome
  retry : s.hops = [] ∧ s.retryPending = false ∨ ∃ r, s.hops = [r] ∧ s.retryPending = true ∧
    r.owner = r.op ∧ r.op < s.started ∧ s.parked = none ∧
    (s.cancelled = true ∨ s.readAbort = true ∧ s.current = none ∨ s.readAbort = false ∧
    s.current = some r.op ∧ s.beast = [])
  fresh : ∀ op, s.current = some op → op < s.started
  posted : ∀ a ∈ s.posted, a.op < s.started ∧ a.Own ∧
    (s.current = some a.op → s.parked = none ∧ a.op ∉ s.hops.map Pull.op ∧ s.Serves a)
  answered : ∀ a ∈ s.answered, a.Own ∧ s.Serves a
  kept : s.returned ++ s.pipeline = s.decoded

structure Inv (s : Stream) : Prop extends Books s where
  abort : s.readAbort = true → s.cancelled = true ∨ s.hops ≠ []
  waits : ∀ op, s.current = some op → s.parked = some op ∨ op ∈ s.hops.map Pull.op ∨ op ∈ s.posted.map Answer.op

variable {s : Stream}

theorem Inv.sound (h : Inv s) : Sound s where
  one := h.one
  own a ha := by
    rcases mem_append.1 ha with hposted | hanswered
    · exact (h.posted a hposted).2.1
    · exact (h.answered a hanswered).1
  serves := ⟨fun a ha => (h.answered a ha).2, fun a ha hlive => ((h.posted a ha).2.2 hlive).2.2⟩
  waits op hop := (h.waits op hop).imp_left fun hparked =>
    ⟨hparked, by rw [(h.parked op hparked).2.1]; exact cons_ne_nil _ _⟩
  returned := ⟨s.pipeline, h.kept⟩
  kept := h.kept

variable {a : Answer}

theorem bytes_of_ne (h : a.code ≠ .ok) : a.bytes = [] := if_neg h

theorem own_of_ne (h : a.code ≠ .ok) : a.Own := fun hok => absurd hok h

theorem pipeline_post (s : Stream) (a : Answer) : (s.post a).pipeline = s.pipeline ++ a.bytes := by
  rw [Stream.pipeline, Stream.pipeline, Stream.post, flatMap_append, flatMap_singleton]

theorem Books.answer (h : Books s) (hown : a.Own) (hop : a.op < s.started)
    (hlive : s.current = some a.op → s.parked = none ∧ a.op ∉ s.hops.map Pull.op ∧ s.Serves a) :
    Books ({ s with decoded := s.decoded ++ a.bytes }.post a) :=
  { h with
    posted := fun b hb => by
      rcases mem_append.1 hb with hold | hnew
      · exact h.posted b hold
      · obtain rfl := mem_singleton.1 hnew
        exact ⟨hop, hown, hlive⟩
    kept := by
      rw [pipeline_post, ← append_assoc]
      exact congrArg (· ++ a.bytes) h.kept }

theorem Books.post (h : Books s) (hcode : a.code ≠ .ok) (hop : a.op < s.started)
    (hlive : s.current = some a.op → s.parked = none ∧ a.op ∉ s.hops.map Pull.op ∧ s.Serves a) : Books
    (s.post a) := by
  have hanswer := h.answer (own_of_ne hcode) hop hlive
  rwa [bytes_of_ne hcode, append_nil] at hanswer

/-- What a move that ends in `run_read_some` leaves. -/
structure Taken (s t : Stream) (op : Nat) : Prop extends Books t where
  current : t.current = s.current
  abort : t.readAbort = true → t.cancelled = true
  waits : t.parked = some op ∨ op ∈ t.posted.map Answer.op
  more : ∀ a ∈ s.posted, a ∈ t.posted

variable {r : Pull}

theorem Books.runReadSome (h : Books s) (howner : r.owner = r.op) (hop : r.op < s.started)
    (hidle : s.parked = none)
    (hlive : s.current = some r.op → r.op ∉ s.hops.map Pull.op ∧ ∀ a ∈ s.posted, a.op ≠ r.op)
    (hopen : s.cancelled = false → s.hops = [] ∧
      (s.readAbort = true ∧ s.current = none ∨ s.readAbort = false ∧ s.current = some r.op ∧ s.beast = [])) :
    Taken s (s.runReadSome r) r.op := by
  have hreading : s.reading = false := by
    rw [h.reading, hidle]
    rfl
  unfold Stream.runReadSome
  by_cases hcancelled : s.cancelled = true
  · rw [if_pos hcancelled]
    exact { h.post (a := { op := r.op, code := .aborted }) nofun hop fun hcurrent => ⟨hidle,
      (hlive hcurrent).1, fun _ => hcancelled, nofun⟩ with
      current := rfl
      abort := fun _ => hcancelled
      waits := .inr (mem_map_of_mem (mem_append_right _ mem_cons_self))
      more := fun _ ha => mem_append_left _ ha }
  · obtain ⟨hhops, hcase⟩ := hopen ((Bool.not_eq_true _).mp hcancelled)
    have hnohop : s.hops = [] ∧ s.retryPending = false := by
      rcases h.retry with hnone | ⟨r', hr', -⟩
      · exact hnone
      · rw [hhops] at hr'
        cases hr'
    rw [if_neg hcancelled, if_neg (by rw [hreading]; decide)]
    rcases hcase with ⟨habort, hnone⟩ | ⟨habort, hcurrent, hbeast⟩
    · rw [if_pos habort]
      have hretired : Books { s with readAbort := false } := { h with retry := .inl hnohop }
      have hdead : s.current ≠ some r.op := fun hsome => nomatch hnone.symm.trans hsome
      exact { hretired.post (a := { op := r.op, code := .aborted }) nofun hop fun hcurrent =>
        absurd hcurrent hdead with
        current := rfl
        abort := nofun
        waits := .inr (mem_map_of_mem (mem_append_right _ mem_cons_self))
        more := fun _ ha => mem_append_left _ ha }
    · rw [if_neg (by rw [habort]; decide)]
      refine { h with
        one := ?_, parked := fun op hparked => ?_,
          reading := rfl, retry := .inl hnohop, posted := fun a ha => ?_, current := rfl
        abort := fun hsome => by rw [habort] at hsome; cases hsome
        waits := .inl rfl, more := fun _ ha => ha }
      · rw [hbeast]
        exact Nat.le_refl 1
      · obtain rfl := Option.some.inj hparked
        refine ⟨hcurrent, ?_, howner⟩
        rw [hbeast]
        obtain ⟨op, owner, size⟩ := r
        obtain rfl : owner = op := howner
        rfl
      · obtain ⟨hbelow, hown, -⟩ := h.posted a ha
        refine ⟨hbelow, hown, fun hsome => ?_⟩
        exact absurd (Option.some.inj (hsome.symm.trans hcurrent)) ((hlive hcurrent).2 a ha)

variable {size : Nat}

theorem Inv.read (h : Inv s) (hclear : Clear s (.read size)) : Inv (s.read size) := by
  unfold Stream.read
  split
  · exact h
  rename_i hnone
  rw [Option.not_isSome_iff_eq_none] at hnone
  have hidle : s.parked = none := by
    cases hparked : s.parked with
    | none => rfl
    | some op => exact nomatch hnone.symm.trans (h.parked op hparked).1
  have hbelow (a : Answer) (ha : a ∈ s.posted) : a.op ≠ s.started := Nat.ne_of_lt (h.posted a ha).1
  have hhop : s.hops = [] ∧ s.retryPending = false ∨
      ∃ r, s.hops = [r] ∧ s.retryPending = true ∧ r.owner = r.op ∧ r.op < s.started ∧ s.cancelled = true := by
    refine h.retry.imp_right fun ⟨r, hr, hpending, howner, hlt, _, hcase⟩ => ⟨r, hr, hpending, howner, hlt, ?_⟩
    rcases hcase with hcancelled | ⟨habort, -⟩ | ⟨-, hsome, -⟩
    · exact hcancelled
    · refine by_contra fun hopen => ?_
      rw [(hclear hnone ((Bool.not_eq_true _).mp hopen)).1] at habort
      cases habort
    · exact nomatch hnone.symm.trans hsome
  have hnothop : s.started ∉ s.hops.map Pull.op := by
    rcases hhop with ⟨hnohop, -⟩ | ⟨r, hr, -, -, hlt, -⟩
    · rw [hnohop]
      exact not_mem_nil
    · rw [hr]
      exact fun hmem => Nat.ne_of_lt hlt (mem_singleton.1 hmem).symm
  have hnohop (hopen : s.cancelled = false) : s.hops = [] := by
    rcases hhop with ⟨hnohop, -⟩ | ⟨r, -, -, -, -, hcancelled⟩
    · exact hnohop
    · exact nomatch hopen.symm.trans hcancelled
  have hcalled : Books { s with started := s.started + 1, current := some s.started } := { h.toBooks with
    parked := fun op hparked => (nomatch hidle.symm.trans hparked)
    retry := hhop.imp_right (fun ⟨r, hr, hpending, howner, hlt, hcancelled⟩ =>
      ⟨r, hr, hpending, howner, Nat.lt_succ_of_lt hlt, hidle, .inl hcancelled⟩)
    fresh := fun op hop => by
      obtain rfl := Option.some.inj hop
      exact Nat.lt_succ_self _
    posted := fun a ha => ⟨Nat.lt_succ_of_lt (h.posted a ha).1, (h.posted a ha).2.1,
      fun hsome => absurd (Option.some.inj hsome).symm (hbelow a ha)⟩ }
  have htaken := hcalled.runReadSome (r := ⟨s.started, s.started, size⟩) rfl (Nat.lt_succ_self _) hidle
    (fun _ => ⟨hnothop, hbelow⟩)
    fun hopen => ⟨hnohop hopen, .inr ⟨(hclear hnone hopen).1, rfl, (hclear hnone hopen).2⟩⟩
  exact { htaken.toBooks with
    abort := fun habort => .inl (htaken.abort habort)
    waits := fun op hop => by
      rw [htaken.current] at hop
      obtain rfl := Option.some.inj hop
      exact htaken.waits.imp_right .inr }

theorem Inv.hop (h : Inv s) : Inv s.hop := by
  unfold Stream.hop
  rcases h.retry with ⟨hnohop, -⟩ | ⟨r, hr, -, howner, hlt, hidle, hcase⟩
  · rw [hnohop]
    exact h
  · rw [hr]
    have hlanded : Books { s with retryPending := false, hops := [] } := { h.toBooks with
      retry := .inl ⟨rfl, rfl⟩
      posted := fun a ha => ⟨(h.posted a ha).1, (h.posted a ha).2.1,
        fun hsome => ⟨((h.posted a ha).2.2 hsome).1, not_mem_nil,
        ((h.posted a ha).2.2 hsome).2.2⟩⟩ }
    have hunposted (hcurrent : s.current = some r.op) (a : Answer) (ha : a ∈ s.posted) : a.op ≠ r.op := by
      intro heq
      refine ((h.posted a ha).2.2 (heq ▸ hcurrent)).2.1 ?_
      rw [hr, heq]
      exact mem_singleton_self _
    have htaken := hlanded.runReadSome howner hlt hidle (fun hcurrent => ⟨not_mem_nil, hunposted hcurrent⟩)
      fun hopen => ⟨rfl, hcase.resolve_left fun hcancelled =>
        by rw [show s.cancelled = false from hopen] at hcancelled; cases hcancelled⟩
    refine { htaken.toBooks with abort := fun habort => .inl (htaken.abort habort), waits := fun op hop => ?_ }
    rw [htaken.current] at hop
    rcases h.waits op hop with hparked | hhop | hposted
    · exact nomatch hidle.symm.trans hparked
    · rw [hr] at hhop
      obtain rfl := mem_singleton.1 hhop
      exact htaken.waits.imp_right .inr
    · obtain ⟨a, ha, rfl⟩ := mem_map.1 hposted
      exact .inr (.inr (mem_map_of_mem (htaken.more a ha)))

theorem Inv.stop (h : Inv s) : Inv s.stop := by
  unfold Stream.stop Stream.cancelRead
  split
  · have hposted (a : Answer) (ha : a ∈ s.posted) : a.op < s.started ∧
      a.Own := ⟨(h.posted a ha).1, (h.posted a ha).2.1⟩
    split
    · rename_i op hparked
      have hlt := h.fresh op (h.parked op hparked).1
      have hretired : Books { s with current := none, reading := false, parked := none } := { h.toBooks with
        parked := nofun
        reading := rfl
        retry := .inl (h.retry.resolve_right fun ⟨_, _, _, _, _, hidle, _⟩ => (nomatch hidle.symm.trans hparked))
        fresh := nofun
        posted := fun a ha => ⟨(hposted a ha).1, (hposted a ha).2, nofun⟩ }
      exact { hretired.post (a := { op, code := .aborted })
        nofun hlt nofun with abort := h.abort, waits := nofun }
    · rename_i hidle
      split
      · rename_i hpending
        rcases h.retry with ⟨-, hnone⟩ | ⟨r, hr, -, howner, hlt, -, -⟩
        · rw [hpending] at hnone
          cases hnone
        · have hhop : s.hops ≠ [] := by
            rw [hr]
            exact cons_ne_nil _ _
          exact { h with
            parked := fun op hparked => (nomatch hidle.symm.trans hparked)
            retry := .inr ⟨r, hr, hpending, howner, hlt, hidle, .inr (.inl ⟨rfl, rfl⟩)⟩
            fresh := nofun
            posted := fun a ha => ⟨(hposted a ha).1, (hposted a ha).2, nofun⟩
            abort := fun _ => .inr hhop
            waits := nofun }
      · rename_i hpending
        exact { h with
          parked := fun op hparked => (nomatch hidle.symm.trans hparked)
          retry := .inl (h.retry.resolve_right fun ⟨_, _, hsome, _⟩ => hpending hsome)
          fresh := nofun
          posted := fun a ha => ⟨(hposted a ha).1, (hposted a ha).2, nofun⟩
          waits := nofun }
  · exact h

theorem Inv.cancel (h : Inv s) : Inv s.cancel :=
  { h with
    retry := h.retry.imp_right fun ⟨r, hr, hpending, howner, hlt, hidle, _⟩ =>
      ⟨r, hr, hpending, howner, hlt, hidle, .inl rfl⟩
    posted := fun a ha => ⟨(h.posted a ha).1, (h.posted
      a ha).2.1, fun hsome => ⟨((h.posted a ha).2.2 hsome).1, ((h.posted a ha).2.2 hsome).2.1,
      fun _ => rfl, ((h.posted a ha).2.2 hsome).2.2.2⟩⟩
    answered := fun a ha => ⟨(h.answered a ha).1, fun _ => rfl, (h.answered a ha).2.2⟩
    abort := fun _ => .inl rfl }

theorem Inv.deliver (h : Inv s) (hclear : Clear s .deliver) : Inv s.deliver := by
  unfold Stream.deliver
  split
  · exact h
  · rename_i a posted hposted
    have hrest (b : Answer) (hb : b ∈ posted) : b ∈ s.posted := hposted ▸ mem_cons_of_mem _ hb
    have ha : a ∈ s.posted := hposted ▸ mem_cons_self
    have hkept : s.returned ++ (a.bytes ++ posted.flatMap Answer.bytes) = s.decoded := by
      rw [← flatMap_cons, ← hposted]
      exact h.kept
    split
    · rename_i hcurrent
      obtain ⟨hidle, hnothop, hserves⟩ := (h.posted a ha).2.2 hcurrent
      exact { h with
        parked := fun op hparked => (nomatch hidle.symm.trans hparked)
        retry := h.retry.imp_right (fun ⟨r, hr, hpending, howner, hlt, hnone, hcase⟩ => by
          refine ⟨r, hr, hpending, howner, hlt, hnone, ?_⟩
          rcases hcase with hcancelled | ⟨-, hstopped⟩ | ⟨-, hlive, -⟩
          · exact .inl hcancelled
          · exact nomatch hstopped.symm.trans hcurrent
          · rw [hr, map_singleton, mem_singleton] at hnothop
            exact absurd (Option.some.inj (hcurrent.symm.trans hlive)) hnothop)
        fresh := nofun
        posted := fun b hb => ⟨(h.posted b (hrest b hb)).1, (h.posted b (hrest b hb)).2.1, nofun⟩
        answered := fun b hb => by
          rcases mem_append.1 hb with hold | hnew
          · exact h.answered b hold
          · obtain rfl := mem_singleton.1 hnew
            exact ⟨(h.posted b ha).2.1, hserves⟩
        kept := (append_assoc _ _ _).trans hkept
        waits := nofun }
    · rename_i hdead
      have hnone : a.bytes = [] := by_contra fun hbytes => hdead (hclear a (by rw [hposted]; rfl) hbytes)
      exact { h with
        posted := fun b hb => h.posted b (hrest b hb)
        kept := by
          rw [hnone] at hkept
          exact hkept
        waits := fun op hop => by
          refine (h.waits op hop).imp_right (Or.imp_right fun hmem => ?_)
          rw [hposted, map_cons] at hmem
          exact (mem_cons.1 hmem).resolve_left fun heq => hdead (heq ▸ hop) }

theorem stored_length_le (s : Stream) (chunk : Bytes) (ended : Ended) :
    (s.stored chunk ended).length ≤ s.bodySize := by
  unfold Stream.stored
  split
  · exact Nat.zero_le _
  · rw [length_take]
    exact Nat.min_le_left _ _

variable {op : Nat}

theorem Inv.retire (h : Inv s) (hparked : s.parked = some op) (bodySize : Nat) (broken : Bool) :
    Books { s with beast := [], bodySize, broken, parked := none, reading := false } :=
  { h.toBooks with
    one := Nat.zero_le 1
    parked := nofun
    reading := rfl
    retry := .inl (h.retry.resolve_right fun ⟨_, _, _, _, _, hidle, _⟩ => (nomatch hidle.symm.trans hparked))
    posted := fun a ha => ⟨(h.posted a ha).1, (h.posted a ha).2.1, fun hsome =>
      (nomatch ((h.posted a ha).2.2 hsome).1.symm.trans hparked)⟩ }

theorem Inv.nothing_hops (h : Inv s) (hparked : s.parked = some op) : s.hops = [] :=
  (h.retry.resolve_right fun ⟨_, _, _, _, _, hidle, _⟩ => (nomatch hidle.symm.trans hparked)).1

theorem Inv.aborted_open (h : Inv s) (hparked : s.parked = some op)
    (habort : s.readAbort = true) : s.cancelled = true :=
  (h.abort habort).resolve_right (absurd (h.nothing_hops hparked))

theorem Inv.finish (h : Inv s) (hparked : s.parked = some op) (bodySize : Nat) (broken : Bool) {stored : Bytes}
    (hop : a.op = op) (hown : a.Own) (hserves : s.Serves a) (hbytes : a.bytes = stored) : Inv (Stream.post
      { s with beast := [], decoded := s.decoded ++
        stored, bodySize, broken, parked := none, reading := false } a) := by
  have hcurrent := (h.parked op hparked).1
  have hfree : a.op ∉ s.hops.map Pull.op := by
    rw [h.nothing_hops hparked]
    exact not_mem_nil
  have hposted := (h.retire hparked bodySize broken).answer hown (hop ▸ h.fresh op hcurrent)
    (fun _ => ⟨rfl, hfree, hserves⟩)
  rw [hbytes] at hposted
  exact { hposted with
    abort := fun habort => .inl (h.aborted_open hparked habort)
    waits := fun op' hop' => by
      obtain rfl := Option.some.inj (hcurrent.symm.trans hop')
      exact .inr (.inr (hop ▸ mem_map_of_mem (mem_append_right _ mem_cons_self))) }

theorem Inv.retryRead (h : Inv s) (hparked : s.parked = some op) (bodySize : Nat) (broken : Bool)
    (hop : r.op = op)
    (howner : r.owner = op) : Inv (Stream.retryRead
      { s with beast := [], bodySize, broken, parked := none, reading := false } r) := by
  have hcurrent := (h.parked op hparked).1
  have hretired := h.retire hparked bodySize broken
  have hlist : s.hops ++ [r] = [r] := by
    rw [h.nothing_hops hparked]
    rfl
  obtain rfl := hop
  exact { hretired with
    retry := by
      refine .inr ⟨r, hlist, rfl, howner, h.fresh _ hcurrent, rfl, ?_⟩
      by_cases habort : s.readAbort = true
      · exact .inl (h.aborted_open hparked habort)
      · exact .inr (.inr ⟨(Bool.not_eq_true _).mp habort, hcurrent, rfl⟩)
    posted := fun a ha => ⟨(h.posted a ha).1, (h.posted a ha).2.1, fun hsome =>
      (nomatch ((h.posted a ha).2.2 hsome).1.symm.trans hparked)⟩
    abort := fun habort => .inl (h.aborted_open hparked habort)
    waits := fun op' hop' => by
      obtain rfl := Option.some.inj (hcurrent.symm.trans hop')
      exact .inr (.inl (mem_map_of_mem (mem_append_right _ mem_cons_self))) }

variable {ended : Ended} {chunk : Bytes} {index : Nat}

theorem Inv.beastEnded (h : Inv s) (hclear : Clear s (.beastEnded index chunk ended)) :
    Inv (s.beastEnded index chunk ended) := by
  unfold Stream.beastEnded
  split
  · exact h
  rename_i r hr
  obtain ⟨hindex, hget⟩ := List.getElem?_eq_some_iff.1 hr
  have herase : s.beast.eraseIdx index = [] := by
    rw [← length_eq_zero_iff, length_eraseIdx_of_lt hindex]
    have := h.one
    omega
  dsimp only
  rw [herase]
  split
  · rename_i hidle
    have hnone : s.stored chunk ended = [] := hclear hindex hidle
    rw [hnone, append_nil]
    exact { h with
      one := Nat.zero_le 1
      parked := nofun
      reading := rfl
      retry := h.retry.imp_right (fun ⟨r, hr, hpending, howner, hlt, _, hcase⟩ =>
        ⟨r, hr, hpending, howner, hlt, rfl,
          hcase.imp_right (Or.imp_right fun hlive => ⟨hlive.1, hlive.2.1, rfl⟩)⟩)
      posted := fun a ha => ⟨(h.posted a ha).1, (h.posted a ha).2.1,
        fun hsome => ⟨rfl, ((h.posted a ha).2.2 hsome).2⟩⟩
      waits := fun op hop => .inr ((h.waits op hop).resolve_left fun hparked =>
          (nomatch hidle.symm.trans hparked)) }
  · rename_i op hparked
    obtain ⟨-, hbeast, howner⟩ := h.parked op hparked
    have hr : r = ⟨op, op, s.bodySize⟩ := by
      have hmem := mem_of_getElem? hr
      rw [hbeast] at hmem
      exact mem_singleton.1 hmem
    have hsize : r.size - (s.bodySize - (s.stored chunk ended).length) = (s.stored chunk ended).length := by
      have := stored_length_le s chunk ended
      rw [hr]
      dsimp only
      omega
    rw [hsize]
    have hfull := h.finish hparked (s.bodySize - (s.stored chunk ended).length)
        (s.broken || decide (ended = .failed))
      (a := ⟨op, .ok, (s.stored chunk ended).length, s.stored chunk ended, s.bodyOwner⟩)
      rfl (fun _ => ⟨rfl, howner⟩) ⟨nofun, nofun⟩ rfl
    have hnone (code : Code) (hok : code ≠ .ok)
        (hserves : s.Serves { op, code }) (hempty : s.stored chunk ended = []) :=
      h.finish hparked (s.bodySize - (s.stored chunk ended).length) (s.broken || decide (ended =
        .failed)) (a := { op, code }) rfl (own_of_ne hok)
        hserves ((bytes_of_ne hok).trans hempty.symm)
    have hretry (hempty : (s.stored chunk ended).length = 0) : Inv (Stream.retryRead
        { s with beast := [], decoded := s.decoded ++ s.stored chunk ended, bodySize := s.bodySize -
          (s.stored chunk ended).length,
                 broken := s.broken || decide (ended = .failed), parked := none,
                   reading := false } { r with op }) := by
      rw [length_eq_zero_iff.1 hempty, append_nil]
      exact h.retryRead hparked _ _ rfl (by rw [hr])
    cases ended with
    | failed => exact hnone .failed nofun ⟨nofun, nofun⟩ (if_pos (.inr rfl))
    | done =>
      dsimp only
      split
      · exact hfull
      · rename_i hempty
        exact hnone .eof nofun ⟨nofun, nofun⟩ (length_eq_zero_iff.1 (not_ne_iff.1 hempty))
    | needBuffer | more =>
      dsimp only
      split
      · exact hfull
      · rename_i hempty
        exact hretry (not_ne_iff.1 hempty)

variable {event : Event}

theorem Inv.next (h : Inv s) (hclear : Clear s event) : Inv (step s event) := by
  cases event with
  | read size => exact h.read hclear
  | stop => exact h.stop
  | cancel => exact h.cancel
  | beastEnded index chunk ended => exact h.beastEnded hclear
  | hop => exact h.hop
  | deliver => exact h.deliver hclear

theorem Inv.initial : Inv {} where
  one := Nat.zero_le 1
  parked := nofun
  reading := rfl
  retry := .inl ⟨rfl, rfl⟩
  fresh := nofun
  posted := nofun
  answered := nofun
  kept := rfl
  abort := nofun
  waits := nofun

/-! ### The converse -/

theorem Inv.read_unclear (h : Inv s) (hclear : ¬ Clear s (.read size)) : ¬ Sound (s.read size) := by
  intro hsound
  refine hclear fun hnone hopen => ?_
  have hidle : s.reading = false := by
    rw [h.reading]
    cases hparked : s.parked with
    | none => rfl
    | some op => exact nomatch hnone.symm.trans (h.parked op hparked).1
  rw [Stream.read, if_neg (by rw [hnone]; decide), Stream.runReadSome] at hsound
  dsimp only at hsound
  rw [if_neg (by rw [hopen]; decide), if_neg (by rw [hidle]; decide)] at hsound
  by_cases habort : s.readAbort = true
  · rw [if_pos habort] at hsound
    have hserves := hsound.serves.2 { op := s.started, code := .aborted } (mem_append_right _ mem_cons_self) rfl
    exact nomatch hopen.symm.trans (hserves.1 rfl)
  · rw [if_neg habort] at hsound
    have hone : (s.beast ++ [Pull.mk s.started s.started size]).length ≤ 1 := hsound.one
    rw [length_append, length_singleton] at hone
    exact ⟨(Bool.not_eq_true _).mp habort, length_eq_zero_iff.1 (Nat.le_zero.1 (Nat.le_of_succ_le_succ hone))⟩

theorem Inv.beastEnded_unclear (h : Inv s) (hclear : ¬ Clear s (.beastEnded index chunk ended)) :
    ¬ Sound (s.beastEnded index chunk ended) := by
  intro hsound
  refine hclear fun hindex hidle => ?_
  have hr : s.beast[index]? = some s.beast[index] := getElem?_eq_getElem hindex
  have hkept := hsound.kept
  unfold Stream.beastEnded at hkept
  rw [hr] at hkept
  dsimp only at hkept
  rw [hidle] at hkept
  exact self_eq_append_right.1 (h.kept.symm.trans hkept)

theorem Inv.deliver_unclear (h : Inv s) (hclear : ¬ Clear s .deliver) : ¬ Sound s.deliver := by
  intro hsound
  refine hclear fun a ha hbytes => by_contra fun hdead => hbytes ?_
  cases hposted : s.posted with
  | nil =>
    rw [hposted] at ha
    cases ha
  | cons b posted =>
    rw [hposted] at ha
    obtain rfl := Option.some.inj ha
    have hkept := hsound.kept
    rw [Stream.deliver, hposted] at hkept
    dsimp only at hkept
    rw [if_neg hdead] at hkept
    have hbefore : s.returned ++ (b.bytes ++ posted.flatMap Answer.bytes) = s.decoded := by
      rw [← flatMap_cons, ← hposted]
      exact h.kept
    have hsame := append_cancel_left (hbefore.trans hkept.symm)
    exact append_left_eq_self.1 hsame

theorem Inv.unclear (h : Inv s) (hclear : ¬ Clear s event) : ¬ Sound (step s event) := by
  cases event with
  | read size => exact h.read_unclear hclear
  | beastEnded index chunk ended => exact h.beastEnded_unclear hclear
  | deliver => exact h.deliver_unclear hclear
  | stop | cancel | hop => exact absurd trivial hclear

/-- **The reads of a body**: in every run, the stream is sound in every state exactly when every step
meets the condition. -/
theorem reads_sound_iff (events : List Event) :
    (∀ pre, pre <+: events → Sound (Runs.run step {} pre)) ↔ Runs.Along step Clear {} events :=
  Runs.forall_prefix_iff_along (P := Inv) (fun _ h =>
    h.sound) (fun _ _ h hclear => h.next hclear) (fun _ _ h hclear => h.unclear hclear)
    Inv.initial events

/-- A read is stopped and the next one started: two Beast reads are out.  Where the first ends in between,
its bytes are lost. -/
theorem stopped_read_goes_on :
    (Runs.run step {} [.read 4, .stop, .read 4]).beast.length = 2 ∧
    (Runs.run step {} [.read 4, .stop, .beastEnded 0 [1, 2] .more]).decoded = [1, 2] ∧
    (Runs.run step {} [.read 4, .stop, .beastEnded 0 [1, 2] .more]).returned = [] ∧
    (Runs.run step {} [.read 4, .stop, .beastEnded 0 [1, 2] .more]).pipeline = [] ∧
    ¬ Sound (Runs.run step {} [.read 4, .stop, .read 4]) ∧
    ¬ Sound (Runs.run step {} [.read 4, .stop, .beastEnded 0 [1, 2] .more]) :=
  ⟨rfl, rfl, rfl, rfl, fun h => absurd h.one (by decide), fun h => absurd h.kept (by decide)⟩

end ClashNative.RequestBodyReads
