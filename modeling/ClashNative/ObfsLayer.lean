import ClashNative.ObfsReads
import ClashNative.SteadyReads
/-!
# ObfsLayer — a record stream over the bytes of the socket

`RecordStream` takes the bytes of the server's stream as the obfs layer brings them.  Here the readers of
the obfs layer are there too, and the socket brings its bytes in pieces of any size (`Layered`).  A piece
either leaves the record stream where it is, or is one step of it (`Sim`): so the reads of a layered
stream return what those of the record stream do.
-/
namespace ClashNative.Shadowsocks

open List

open LegacyStream (ObfsMode)
open SimpleObfs (Turn TlsHead HttpHead Framable httpTurn tlsTurn tlsWant tlsRecord recordHead kReadBuffer)

variable {κ : Type}

/-- `state.wire` is what the socket has not brought; `taken`, what the outstanding reader of the obfs
layer has. -/
structure Layered (κ : Type) where
  state : State κ
  taken : Bytes := []

/-- What happens to a stream that nobody cancels: a read, or what is outstanding completes, with at most
`n + 1` bytes. -/
inductive Calm
  | read (size : Nat)
  | brings (n : Nat)
  deriving DecidableEq, Repr

namespace Layered

def room (mode : ObfsMode) (firstResponse : Bool) (taken : Bytes) : Nat :=
  if mode = .http then kReadBuffer else tlsWant firstResponse taken - taken.length

def turn (mode : ObfsMode) (firstResponse : Bool) (taken : Bytes) : Turn :=
  if mode = .http then httpTurn taken else tlsTurn firstResponse taken

/-- A reader of the obfs layer gets a piece: it posts its next read, or `finish` takes what it gives. -/
def obfsRead (mode : ObfsMode) (firstResponse : Bool) (op : Op) (finish : State κ → Option Bytes → State κ)
    (l : Layered κ) (n : Nat) :
    Layered κ :=
  match l.state.lowerRead (room mode firstResponse l.taken) n with
  | (.error _, s) => ⟨finish s none, []⟩
  | (.ok chunk, s) =>
    match turn mode firstResponse (l.taken ++ chunk) with
    | .more => ⟨s.start op, l.taken ++ chunk⟩
    | .failed => ⟨finish s none, []⟩
    | .done payload => ⟨finish s (some payload), []⟩

variable (r : Reader κ)

def obfsRecordRead (stage : Stage) (size : Nat) (copied : Bytes) (s : State κ) : Option Bytes → State κ
  | none => s.finishRead (.error r.obfsFailure)
  | some payload => { s with initialWire := payload }.readExactTls stage size copied

def complete (l : Layered κ) (n : Nat) : Op → Layered κ
  | .obfsResponse => obfsRead r.mode true .obfsResponse r.obfsResponseRead l n
  | .obfsRecord stage size copied => obfsRead .tls false (.obfsRecord stage size copied)
      (obfsRecordRead r stage size copied) l n
  | .carrier stage size got => ⟨r.carrierRead l.state stage size got n, l.taken⟩
  | .exact stage bytes => ⟨r.received l.state stage bytes, l.taken⟩

def step (l : Layered κ) : Calm → Layered κ
  | .read size => ⟨r.read l.state size, l.taken⟩
  | .brings n =>
    match l.state.ops with
    | [] => l
    | op :: ops => complete r ⟨{ l.state with ops := ops }, l.taken⟩ (n + 1) op

def delivered (l : Layered κ) : Bytes := l.state.delivered

end Layered

/-- **Bytes of a socket** that carry `w` under an obfs layer. -/
inductive Framing (w : Bytes) : ObfsMode → Bytes → Prop
  | none : Framing w .none w
  | http (head : HttpHead) : Framing w .http (head.bytes ++ w)
  | tls (head : TlsHead true) (first : Bytes) (payloads : List Bytes) (hfirst : Framable first)
    (hpayloads : ∀ p ∈ payloads, Framable p)
      (hw : w = first ++ payloads.flatten) : Framing w .tls (head.frame first ++ payloads.flatMap tlsRecord)

/-- **The reads return `P`**: what they have returned is a front of it; no other failure than that of a
read beside another one comes before all of it; and from any state that a run reaches, a read of some size
gets more of it, however the bytes come. -/
structure Returns (r : Reader κ) (P : Bytes) (start : Layered κ) : Prop where
  in_order : ∀ events, (Runs.run (Layered.step r) start events).delivered <+: P
  fails : ∀ events id e, (id, .error e) ∈ (Runs.run (Layered.step r) start events).state.results →
    e = .alreadyStarted ∨ (Runs.run (Layered.step r) start events).delivered = P
  onward : ∀ events, (Runs.run (Layered.step r) start events).delivered ≠ P → ∀ size, 0 < size →
    ∀ pieces : Nat → Nat, ∃ k,
    (Runs.run (Layered.step r) start events).delivered.length <
      (Runs.run (Layered.step r) start (events ++ .read size :: (List.range k).map fun i => .brings
      (pieces i))).delivered.length

/-! ## The simulation -/

def State.on (s : State κ) (w : Bytes) : State κ := { s with wire := w }

def Blind (f : State κ → State κ) : Prop := ∀ s w, f (s.on w) = (f s).on w

structure Reader.Blind (r : Reader κ) : Prop where
  receive : Shadowsocks.Blind r.receive
  receiveSalt : Shadowsocks.Blind r.receiveSalt
  received : ∀ stage bytes, Shadowsocks.Blind fun s => r.received s stage bytes

inductive Carried : ObfsMode → Bool → Bytes → Bytes → Bytes → Prop
  | bare {mode : ObfsMode} (w : Bytes) (hmode : mode ≠ .tls) : Carried mode true [] w w
  | http {taken raw w : Bytes} (head : HttpHead) (hraw : taken ++ raw = head.bytes ++ w)
    (hlt : taken.length < head.bytes.length) :
      Carried .http false taken raw w
  | first {taken raw : Bytes} (head : TlsHead true) (p : Bytes) (ps : List Bytes) (hp : Framable p)
    (hps : ∀ q ∈ ps, Framable q)
      (hraw : taken ++ raw = head.frame p ++ ps.flatMap tlsRecord) (hlt : taken.length < (head.frame p).length) :
      Carried .tls false taken raw (p ++ ps.flatten)
  | records {taken raw : Bytes} (ps : List Bytes) (hps : ∀ q ∈ ps, Framable q)
    (hraw : taken ++ raw = ps.flatMap tlsRecord)
      (hlt : ∀ q ∈ ps.head?, taken.length < (tlsRecord q).length) : Carried .tls true taken raw ps.flatten

/-- **A layered stream goes along** with a record stream. -/
def Sim (mode : ObfsMode) (l : Layered κ) (a : State κ) : Prop :=
  ∃ raw taken, l = ⟨a.on raw, taken⟩ ∧ Carried mode a.obfsResponseReady taken raw a.wire

section Simulation

variable {Ahead : Next κ} {entry : State κ → Stage × Nat} {P : Bytes} {r : Reader κ} {mode : ObfsMode}
    {l : Layered κ} {a : State κ}

/-- **The invariant**: a record stream goes along, or all is over. -/
def LayeredInv (Ahead : Next κ) (entry : State κ → Stage × Nat) (P : Bytes) (mode : ObfsMode)
    (l : Layered κ) : Prop :=
  (∃ a, Sim mode l a ∧ (Free Ahead entry P a ∨ Busy Ahead entry P mode a)) ∨ Over P l.state

def LayeredOnward (Ahead : Next κ) (entry : State κ → Stage × Nat) (P : Bytes) (mode : ObfsMode)
    (toGo d : Nat) (l : Layered κ) : Prop :=
  Over P l.state ∨ ∃ a, Sim mode l a ∧ (Free Ahead entry P a ∧ d < l.delivered.length ∨
    Busy Ahead entry P mode a ∧ l.delivered.length = d ∧ a.toGo + l.state.wire.length < toGo)

theorem Sim.delivered (h : Sim mode l a) : l.delivered = a.delivered := by
  obtain ⟨raw, taken, rfl, -⟩ := h
  rfl

theorem Sim.results (h : Sim mode l a) : l.state.results = a.results := by
  obtain ⟨raw, taken, rfl, -⟩ := h
  rfl

variable {f : State κ → State κ}

theorem Blind.wire (hf : Blind f) (s : State κ) : (f s).wire = s.wire := by
  have heq := congrArg State.wire (hf s s.wire)
  exact heq

theorem Blind.sim (hf : Blind f) (hready : (f a).obfsResponseReady = a.obfsResponseReady) (h : Sim mode l a) :
    Sim mode ⟨f l.state, l.taken⟩ (f a) := by
  obtain ⟨raw, taken, rfl, hcarried⟩ := h
  refine ⟨raw, taken, ?_, ?_⟩
  · rw [hf]
  · rw [hready, hf.wire]
    exact hcarried

theorem readExactTls_blind (stage : Stage) (size : Nat) (copied : Bytes) :
    Blind fun s : State κ => s.readExactTls stage size copied := by
  intro s w
  dsimp only [State.readExactTls, State.on]
  split
  · rfl
  · rfl

theorem readExact_blind (mode : ObfsMode) (stage : Stage) (size : Nat) :
    Blind fun s : State κ => s.readExact mode stage size := by
  intro s w
  dsimp only [State.readExact, State.on]
  split
  · exact readExactTls_blind stage size [] s w
  · split
    · rfl
    · rfl

theorem read_blind (hb : r.Blind) (size : Nat) : Blind fun s => r.read s size := by
  intro s w
  dsimp only [Reader.read, State.on]
  split
  · rfl
  · split
    · rfl
    · split
      · rfl
      · split
        · rfl
        · exact hb.receive (s.park size) w

theorem read_keeps (hr : r.Lawful Ahead entry) (s : State κ) (size : Nat) :
    (r.read s size).obfsResponseReady = s.obfsResponseReady ∧ (r.read s size).ended = s.ended := by
  unfold Reader.read
  split
  · exact ⟨rfl, rfl⟩
  · split
    · exact ⟨rfl, rfl⟩
    · split
      · exact ⟨rfl, rfl⟩
      · split
        · exact ⟨rfl, rfl⟩
        · obtain ⟨op, initialWire, hstart, -⟩ :=
            readExact_starts (s.park size) r.mode (entry (s.park size)).1 (entry (s.park size)).2
          rw [hr.receive, hstart]
          exact ⟨rfl, rfl⟩

variable {rest : Bytes} {s : State κ}

theorem received_ready (hr : r.Prompt Ahead entry) {stage : Stage} {bytes left : Bytes}
    (hahead : Ahead s stage bytes.length (bytes ++ rest) left) (hpending : s.pendingPlaintext = [])
    (hhandler : s.readHandler.isSome = true)
    (hprogress : s.readInProgress = true) :
    (r.received s stage bytes).obfsResponseReady = s.obfsResponseReady := by
  rcases hr.prompt hahead hpending hhandler hprogress with ⟨key, nonce, ready, stage', size', -, -, heq⟩ |
    ⟨key, nonce, ready, p, left', -, -, -, heq⟩
  · obtain ⟨op, initialWire, hstart, -⟩ := readExact_starts (s.turned key nonce ready) r.mode stage' size'
    rw [heq, hstart]
    rfl
  · rw [heq, if_pos hhandler]
    rfl

/-! ### A reader gets a piece -/

theorem lowerRead_piece {room : Nat} (hopen : s.ended = none) (hroom : 0 < room) (hwire : s.wire ≠ [])
    (n : Nat) :
    ∃ chunk raw, s.wire = chunk ++ raw ∧ chunk ≠ [] ∧ chunk.length ≤ room ∧ s.lowerRead room (n + 1) =
    (.ok chunk, s.on raw) := by
  have hne : s.wire.take (min (n + 1) room) ≠ [] := by
    intro hnil
    rcases take_eq_nil_iff.1 hnil with hzero | hempty
    · omega
    · exact hwire hempty
  refine ⟨s.wire.take (min (n + 1) room), s.wire.drop (min (n + 1) room),
    (take_append_drop _ _).symm, hne, ?_, ?_⟩
  · have hle := length_take_le (min (n + 1) room) s.wire
    omega
  · unfold State.lowerRead State.on
    rw [hopen]
    exact if_neg hne

theorem lowerRead_end (hopen : s.ended = none) (hwire : s.wire = []) (room n : Nat) :
    s.lowerRead room n = (.error .eof, { s with ended := some .eof }) := by
  unfold State.lowerRead
  split
  · rename_i e hended
    rw [hopen] at hended
    cases hended
  · rw [if_pos (by rw [hwire, take_nil])]

variable {p : Bytes}

theorem obfsRead_tls {firstResponse : Bool} {head : TlsHead firstResponse} (hmode : mode ≠ .http)
    (hp : Framable p)
    (hopen : l.state.ended = none) (hraw : l.taken ++ l.state.wire = head.frame p ++ rest)
    (hlt : l.taken.length < (head.frame p).length)
    (op : Op) (finish : State κ → Option Bytes → State κ) (n : Nat) :
    ∃ chunk raw, l.state.wire = chunk ++ raw ∧ chunk ≠ [] ∧
      (Layered.obfsRead mode firstResponse op finish l (n + 1) = ⟨(l.state.on raw).start op, l.taken ++ chunk⟩ ∧
          (l.taken ++ chunk).length < (head.frame p).length ∨
        Layered.obfsRead mode firstResponse op finish l (n + 1) = ⟨finish (l.state.on rest) (some p), []⟩ ∧
        raw = rest) := by
  obtain ⟨hmore, hwant⟩ := SimpleObfs.tlsWant_of_append hp hraw hlt
  have hroom : Layered.room mode firstResponse l.taken =
    tlsWant firstResponse l.taken - l.taken.length := if_neg hmode
  have hne : l.state.wire ≠ [] := by
    intro hnil
    have hlength := congrArg List.length hraw
    rw [hnil, append_nil, length_append] at hlength
    omega
  obtain ⟨chunk, raw, hwire, hchunk, hle, hlower⟩ :=
    lowerRead_piece hopen (by omega : 0 < Layered.room mode firstResponse l.taken) hne n
  have hraw' : l.taken ++ chunk ++ raw = head.frame p ++ rest := by rw [append_assoc, ← hwire, hraw]
  have hfits : (l.taken ++ chunk).length ≤ (head.frame p).length := by
    rw [length_append]
    omega
  have hturn : Layered.turn mode firstResponse (l.taken ++ chunk) = tlsTurn firstResponse
    (l.taken ++ chunk) := if_neg hmode
  refine ⟨chunk, raw, hwire, hchunk, ?_⟩
  unfold Layered.obfsRead
  rw [hlower]
  dsimp only
  rw [hturn, SimpleObfs.tlsTurn_of_append hp hraw' hfits]
  by_cases hpart : (l.taken ++ chunk).length < (head.frame p).length
  · rw [if_pos hpart]
    exact .inl ⟨rfl, hpart⟩
  · rw [if_neg hpart]
    obtain ⟨-, rfl⟩ := append_inj hraw' (Nat.le_antisymm hfits (Nat.le_of_not_lt hpart))
    exact .inr ⟨rfl, rfl⟩

variable {w : Bytes}

theorem obfsRead_http {head : HttpHead} (hopen : l.state.ended = none)
    (hraw : l.taken ++ l.state.wire = head.bytes ++ w)
    (hlt : l.taken.length < head.bytes.length) (firstResponse : Bool) (op : Op) (finish : State κ →
      Option Bytes → State κ) (n : Nat) :
    ∃ chunk raw, l.state.wire = chunk ++ raw ∧ chunk ≠ [] ∧
      (Layered.obfsRead .http firstResponse op finish l (n + 1) = ⟨(l.state.on raw).start op, l.taken ++ chunk⟩ ∧
          (l.taken ++ chunk).length < head.bytes.length ∨
        ∃ remainder, Layered.obfsRead .http firstResponse op finish l (n + 1) =
        ⟨finish (l.state.on raw) (some remainder), []⟩ ∧
          w = remainder ++ raw) := by
  have hne : l.state.wire ≠ [] := by
    intro hnil
    have hlength := congrArg List.length hraw
    rw [hnil, append_nil, length_append] at hlength
    omega
  have hroom : 0 < Layered.room .http firstResponse l.taken := Nat.zero_lt_succ _
  obtain ⟨chunk, raw, hwire, hchunk, hle, hlower⟩ := lowerRead_piece hopen hroom hne n
  have hraw' : l.taken ++ chunk ++ raw = head.bytes ++ w := by rw [append_assoc, ← hwire, hraw]
  have hfits : (l.taken ++ chunk).length ≤ SimpleObfs.kMaxResponseHeaderSize := by
    have hsize := head.size
    have hle : chunk.length ≤ kReadBuffer := hle
    rw [length_append]
    omega
  have hturn : Layered.turn .http firstResponse (l.taken ++ chunk) = httpTurn (l.taken ++ chunk) := rfl
  refine ⟨chunk, raw, hwire, hchunk, ?_⟩
  unfold Layered.obfsRead
  rw [hlower]
  dsimp only
  rw [hturn, SimpleObfs.httpTurn_of_append hraw' hfits]
  by_cases hpart : (l.taken ++ chunk).length < head.bytes.length
  · rw [if_pos hpart]
    exact .inl ⟨rfl, hpart⟩
  · rw [if_neg hpart]
    refine .inr ⟨_, rfl, ?_⟩
    have hdrop := congrArg (List.drop head.bytes.length) hraw'
    rw [drop_append_of_le_length (Nat.le_of_not_lt hpart), drop_left] at hdrop
    exact hdrop.symm

/-! ### What is outstanding completes -/

variable {op : Op}

theorem step_brings {ops : List Op} (hop : l.state.ops = op :: ops) (n : Nat) :
    Layered.step r l (.brings n) = Layered.complete r ⟨{ l.state with ops := ops }, l.taken⟩ (n + 1) op := by
  unfold Layered.step
  rw [hop]

theorem complete_alone (hop : a.ops = [op]) (n : Nat) :
    r.step a (.complete 0 n) = r.complete { a with ops := [] } n op := by
  have hget : a.ops[0]? = some op := by
    rw [hop]
    rfl
  rw [Reader.step_complete hget, hop, eraseIdx_cons_zero]

theorem restart (hop : a.ops = [op]) (raw raw' : Bytes) : (({ a with ops := [] }.on raw).on raw').start op =
    a.on raw' := by
  have hsame : { a with ops := [op] } = a := by rw [← hop]
  exact congrArg (fun s : State κ => s.on raw') hsame

theorem obfsResponse_takes (hopen : a.ended = none) (hwire : a.wire = p ++ rest) (hp : r.mode = .tls → p ≠ []) :
    r.obfsResponse a p.length = r.obfsResponseRead (a.on rest) (some p) := by
  unfold Reader.obfsResponse State.on
  rw [hopen, hwire, take_left, drop_left, if_neg]
  rintro (hended | ⟨htls, hnil⟩)
  · cases hended
  · exact hp htls hnil

theorem obfsRecord_takes (hopen : a.ended = none) (hwire : a.wire = p ++ rest) (hp : p ≠ []) (stage : Stage)
    (size : Nat)
    (copied : Bytes) :
    r.obfsRecord a stage size copied p.length = Layered.obfsRecordRead r stage size copied (a.on rest)
    (some p) := by
  have hlower : a.lowerRead p.length p.length = (.ok p, a.on rest) := by
    unfold State.lowerRead State.on
    rw [hopen, hwire, Nat.min_self, take_left, drop_left]
    exact if_neg hp
  unfold Reader.obfsRecord
  rw [hlower]
  rfl

variable {taken raw : Bytes}

theorem Carried.drained (h : Carried mode true taken raw []) : raw = [] := by
  generalize hw : ([] : Bytes) = w at h
  cases h with
  | bare w hmode => rfl
  | records ps hps hraw hlt =>
    cases ps with
    | nil => exact (append_eq_nil_iff.1 hraw).2
    | cons p ps =>
      have hpos := (hps p mem_cons_self).1
      rw [(append_eq_nil_iff.1 hw.symm).1] at hpos
      cases hpos

theorem Sim.over (h : Sim mode l a) (hready : a.obfsResponseReady = true)
    (hover : Over P a) : Over P l.state := by
  obtain ⟨raw, taken, rfl, hcarried⟩ := h
  rw [hready, hover.wire] at hcarried
  have hsame : a.on raw = a := by
    unfold State.on
    rw [hcarried.drained, ← hover.wire]
  rwa [hsame]

variable {toGo d : Nat}

theorem Onward.layered {size : Nat} (h : Onward Ahead entry P mode toGo d a)
    (hsim : a.obfsResponseReady = true → Sim mode l a)
    (hover : Over P a → Over P l.state) (hle : l.state.wire.length ≤ size) :
    LayeredOnward Ahead entry P mode (toGo + size) d l := by
  rcases h with hdone | ⟨hready, hfree | ⟨hbusy, hsame, hlt⟩⟩
  · exact .inl (hover hdone)
  · refine .inr ⟨a, hsim hready, .inl ⟨hfree.1, ?_⟩⟩
    rw [(hsim hready).delivered]
    exact hfree.2
  · refine .inr ⟨a, hsim hready, .inr ⟨hbusy, ?_, by omega⟩⟩
    rw [(hsim hready).delivered]
    exact hsame

theorem Carried.plain (h : Carried mode true taken raw w) (hmode : mode ≠ .tls) : taken = [] ∧ raw = w := by
  cases h with
  | bare w _ => exact ⟨rfl, rfl⟩
  | records ps hps hraw hlt => exact absurd rfl hmode

theorem Carried.unready (h : Carried mode false taken raw w) :
    (mode = .http ∧ ∃ head : HttpHead, taken ++ raw = head.bytes ++ w ∧ taken.length < head.bytes.length) ∨
    (mode = .tls ∧ ∃ (head : TlsHead true) (p : Bytes) (ps : List Bytes), Framable p ∧ (∀ q ∈ ps, Framable q) ∧
      taken ++ raw = head.frame p ++ ps.flatMap tlsRecord ∧ taken.length < (head.frame p).length ∧
      w = p ++ ps.flatten) := by
  cases h with
  | http head hraw hlt => exact .inl ⟨rfl, head, hraw, hlt⟩
  | first head p ps hp hps hraw hlt => exact .inr ⟨rfl, head, p, ps, hp, hps, hraw, hlt, rfl⟩

theorem Carried.framed (h : Carried .tls true taken raw w) : ∃ ps : List Bytes, (∀ q ∈ ps, Framable q) ∧
    taken ++ raw = ps.flatMap tlsRecord ∧ (∀ q ∈ ps.head?, taken.length < (tlsRecord q).length) ∧
    w = ps.flatten := by
  cases h with
  | bare w hmode => exact absurd rfl hmode
  | records ps hps hraw hlt => exact ⟨ps, hps, hraw, hlt, rfl⟩

theorem Carried.fresh {ps : List Bytes} (hps : ∀ q ∈ ps, Framable q) :
    Carried .tls true [] (ps.flatMap tlsRecord) ps.flatten := by
  refine .records ps hps rfl fun q _ => ?_
  rw [SimpleObfs.length_tlsRecord, length_nil]
  omega

theorem carrierRead_wire_le (hb : r.Blind) (stage : Stage) (size : Nat) (got : Bytes) (n : Nat) :
    (r.carrierRead a stage size got n).wire.length ≤ a.wire.length := by
  unfold Reader.carrierRead
  cases hlower : a.lowerRead (size - got.length) n with
  | mk result s =>
    cases result with
    | error e =>
      rw [lowerRead_error hlower]
      exact Nat.le_refl _
    | ok chunk =>
      obtain ⟨-, -, -, wire, hwire, rfl⟩ := lowerRead_ok hlower
      have hle : wire.length ≤ a.wire.length := by
        rw [hwire, length_append]
        omega
      dsimp only
      split
      · rw [(hb.received stage (got ++ chunk)).wire]
        exact hle
      · exact hle

section Completions

variable {op : Op} {raw taken : Bytes} {raw' : Bytes}

theorem stutter_onward {chunk taken' : Bytes} (hraw : raw = chunk ++ raw') (hchunk : chunk ≠ [])
    (hbusy : Busy Ahead entry P mode a) (hop : a.ops = [op])
    (hcarried : Carried mode a.obfsResponseReady taken' raw' a.wire) :
    LayeredOnward Ahead entry P mode (a.toGo + raw.length) a.delivered.length
      ⟨(({ a with ops := [] }.on raw).on raw').start op, taken'⟩ := by
  have hpos := length_pos_iff.2 hchunk
  rw [restart hop]
  refine .inr ⟨a, ⟨raw', taken', rfl, hcarried⟩, .inr ⟨hbusy, rfl, ?_⟩⟩
  show a.toGo + raw'.length < _
  rw [hraw, length_append]
  omega

variable (hr : r.Prompt Ahead entry) (hb : r.Blind) (hbusy : Busy Ahead entry P r.mode a) (hop : a.ops = [op])

include hr hbusy hop

theorem alone_onward {k : Nat} (hk : Brings r.mode a 0 k) :
    Onward Ahead entry P r.mode a.toGo a.delivered.length (r.complete { a with ops := [] } k op) := by
  rw [← complete_alone hop]
  exact complete_onward hr hbusy hk

include hb

variable {size : Nat} {stage : Stage}

theorem carrier_layered {got : Bytes} (heq : op = .carrier stage size got)
    (hcarried : Carried r.mode true taken raw a.wire) (n : Nat) :
    LayeredOnward Ahead entry P r.mode (a.toGo + raw.length) a.delivered.length
      (Layered.complete r ⟨{ a with ops := [] }.on raw, taken⟩ (n + 1) op) := by
  subst heq
  have hmode : r.mode ≠ .tls := hbusy.suits (.carrier stage size got) (by rw [hop]; exact mem_singleton_self _)
  have honward := alone_onward hr hbusy hop (.inl (Nat.succ_pos n))
  obtain ⟨rfl, rfl⟩ := hcarried.plain hmode
  refine honward.layered (fun hready => ⟨_, [], rfl, ?_⟩) id ?_
  · rw [hready]
    exact .bare _ hmode
  · exact carrierRead_wire_le (a := { a with ops := [] }) hb stage size got (n + 1)

omit hr hb in
theorem waits_alone : ∃ left, Core P left a ∧ a.pendingPlaintext = [] ∧ Waits Ahead entry left a op := by
  obtain ⟨left, hcore, hidle | ⟨op', hop', hpending, hwaits⟩⟩ := hbusy.alive
  · exact absurd hidle.1 hbusy.ops
  · rw [hop] at hop'
    obtain rfl := singleton_inj.1 hop'
    exact ⟨left, hcore, hpending, hwaits⟩

theorem exact_layered {bytes : Bytes} (heq : op = .exact stage bytes)
    (hcarried : Carried r.mode a.obfsResponseReady taken raw a.wire) (n : Nat) :
    LayeredOnward Ahead entry P r.mode (a.toGo + raw.length) a.delivered.length
      (Layered.complete r ⟨{ a with ops := [] }.on raw, taken⟩ (n + 1) op) := by
  subst heq
  obtain ⟨left, hcore, hpending, hready, hahead⟩ := waits_alone hbusy hop
  have honward := alone_onward hr hbusy hop (.inl (Nat.succ_pos n))
  have hready' : (r.received { a with ops := [] } stage bytes).obfsResponseReady = a.obfsResponseReady :=
    received_ready hr (s := { a with ops := [] }) (hr.frame (s := a) rfl rfl rfl hahead) hpending
      (hcore.parked.trans hbusy.progress) hbusy.progress
  have hsim : Sim r.mode ⟨r.received ({ a with ops := [] }.on raw) stage bytes, taken⟩
    (r.received { a with ops := [] } stage bytes) :=
    (hb.received stage bytes).sim (l := ⟨{ a with ops := [] }.on raw, taken⟩) hready' ⟨raw, taken, rfl, hcarried⟩
  refine honward.layered (fun _ => hsim) (hsim.over (hready'.trans hready)) ?_
  show (r.received ({ a with ops := [] }.on raw) stage bytes).wire.length ≤ raw.length
  rw [(hb.received stage bytes).wire]
  exact Nat.le_refl _

theorem response_layered (heq : op = .obfsResponse) (hwire : a.wire = p ++ rest) (hp : p ≠ [] ∨ r.mode = .http)
    (hcarried : Carried r.mode true [] raw' rest) (hle : raw'.length ≤ raw.length) :
    LayeredOnward Ahead entry P r.mode (a.toGo + raw.length) a.delivered.length
      ⟨r.obfsResponseRead ({ a with ops := [] }.on raw') (some p), []⟩ := by
  subst heq
  obtain ⟨left, -, -, -, hkey, -, -⟩ := waits_alone hbusy hop
  have hbrings : Brings r.mode a 0 p.length := by
    rcases hp with hne | hhttp
    · exact .inl (length_pos_iff.2 hne)
    · refine .inr ⟨hhttp, ?_⟩
      rw [hop]
      rfl
  have htakes : r.complete { a with ops := [] } p.length .obfsResponse = r.obfsResponseRead
    ({ a with ops := [] }.on rest) (some p) := by
    refine obfsResponse_takes (a := { a with ops := [] }) hbusy.unended hwire fun htls => ?_
    rcases hp with hne | hhttp
    · exact hne
    · rw [htls] at hhttp
      cases hhttp
  have honward := alone_onward hr hbusy hop hbrings
  rw [htakes] at honward
  have hready : (r.obfsResponseRead ({ a with ops := [] }.on rest) (some p)).obfsResponseReady = true := by
    have hsalt := hr.receiveSalt { a with
        ops := [], wire := rest, initialWire := p, obfsResponseReady := true } hkey
    obtain ⟨op, initialWire, hstart, -⟩ :=
      readExact_starts { a with ops := [], wire := rest, initialWire := p, obfsResponseReady := true }
      r.mode _ _
    rw [hstart] at hsalt
    have hfield := congrArg State.obfsResponseReady hsalt
    exact hfield
  have hblind := hb.receiveSalt { a with ops := [], wire := rest, initialWire := p, obfsResponseReady := true }
  have hsim : Sim r.mode ⟨r.obfsResponseRead ({ a with ops := [] }.on raw') (some p), []⟩
      (r.obfsResponseRead ({ a with ops := [] }.on rest) (some p)) := by
    refine ⟨raw', [], ?_, ?_⟩
    · have heq := hblind raw'
      exact congrArg (fun s => (⟨s, []⟩ : Layered κ)) heq
    · rw [hready]
      have hrest := hb.receiveSalt.wire { a with
          ops := [], wire := rest, initialWire := p, obfsResponseReady := true }
      have hrest : (r.obfsResponseRead ({ a with ops := [] }.on rest) (some p)).wire = rest := hrest
      rw [hrest]
      exact hcarried
  refine honward.layered (fun _ => hsim) (hsim.over hready) ?_
  have hraw := hb.receiveSalt.wire { a with
      ops := [], wire := raw', initialWire := p, obfsResponseReady := true }
  exact Nat.le_trans (Nat.le_of_eq (congrArg List.length hraw)) hle

theorem obfsResponse_layered (heq : op = .obfsResponse)
    (hcarried : Carried r.mode a.obfsResponseReady taken raw a.wire) (n : Nat) :
    LayeredOnward Ahead entry P r.mode (a.toGo + raw.length) a.delivered.length
      (Layered.complete r ⟨{ a with ops := [] }.on raw, taken⟩ (n + 1) op) := by
  have hop' := hop
  rw [heq] at hop'
  obtain ⟨left, -, -, hready, -⟩ := waits_alone hbusy hop'
  rw [hready] at hcarried
  subst heq
  rcases hcarried.unready with ⟨hmode, head, hraw, hlt⟩ | ⟨hmode, head, p, ps, hp, hps, hraw, hlt, hw⟩
  · obtain ⟨chunk, raw', hwire, hchunk, ⟨hmore, hpart⟩ | ⟨remainder, hdone, hrest⟩⟩ := obfsRead_http
      (l := ⟨{ a with ops := [] }.on raw, taken⟩) hbusy.unended hraw hlt true .obfsResponse r.obfsResponseRead n
    all_goals have hwire : raw = chunk ++ raw' := hwire
    · unfold Layered.complete
      rw [hmode, hmore]
      refine stutter_onward hwire hchunk (hmode ▸ hbusy) hop ?_
      rw [hready]
      refine .http head ?_ hpart
      rw [append_assoc, ← hwire]
      exact hraw
    · have hle : raw'.length ≤ raw.length := by
        rw [hwire, length_append]
        omega
      have hlayered := response_layered hr hb hbusy hop rfl hrest (.inr hmode)
        (.bare raw' (by rw [hmode]; decide)) hle
      unfold Layered.complete
      rw [hmode, hdone, ← hmode]
      exact hlayered
  · obtain ⟨chunk, raw', hwire, hchunk, ⟨hmore, hpart⟩ | ⟨hdone, hrest⟩⟩ := obfsRead_tls
      (l := ⟨{ a with ops := [] }.on raw, taken⟩)
      (by decide : ObfsMode.tls ≠ .http) hp hbusy.unended hraw hlt .obfsResponse r.obfsResponseRead n
    all_goals have hwire : raw = chunk ++ raw' := hwire
    · unfold Layered.complete
      rw [hmode, hmore]
      refine stutter_onward hwire hchunk (hmode ▸ hbusy) hop ?_
      rw [hready, hw]
      refine .first head p ps hp hps ?_ hpart
      rw [append_assoc, ← hwire]
      exact hraw
    · have hle : (ps.flatMap tlsRecord).length ≤ raw.length := by
        rw [hwire, ← hrest, length_append]
        omega
      have hlayered := response_layered hr hb hbusy hop rfl hw (.inl (length_pos_iff.1 hp.1))
        (by rw [hmode]; exact .fresh hps) hle
      unfold Layered.complete
      rw [hmode, hdone, ← hmode]
      exact hlayered

omit hb in
theorem record_layered {copied : Bytes} {ps : List Bytes} (heq : op = .obfsRecord stage size copied)
    (hwire : a.wire = p ++ ps.flatten) (hp : p ≠ []) (hps : ∀ q ∈ ps, Framable q)
    (hraw' : raw' = ps.flatMap tlsRecord)
    (hle : raw'.length ≤ raw.length) :
    LayeredOnward Ahead entry P r.mode (a.toGo + raw.length) a.delivered.length
      ⟨Layered.obfsRecordRead r stage size copied ({ a with ops := [] }.on raw') (some p), []⟩ := by
  subst heq hraw'
  obtain ⟨left, -, -, hready, -⟩ := waits_alone hbusy hop
  have hmode : r.mode = .tls := hbusy.suits (.obfsRecord stage size copied)
    (by rw [hop]; exact mem_singleton_self _)
  have honward := alone_onward hr hbusy hop (.inl (length_pos_iff.2 hp))
  have htakes : r.complete { a with ops := [] } p.length (.obfsRecord stage size copied) =
      Layered.obfsRecordRead r stage size copied ({ a with ops := [] }.on ps.flatten) (some p) :=
    obfsRecord_takes (a := { a with ops := [] }) hbusy.unended hwire hp stage size copied
  rw [htakes] at honward
  have hblind := readExactTls_blind stage size copied
    ({ a with ops := [], wire := ps.flatten, initialWire := p } : State κ)
  obtain ⟨op, initialWire, hstart, -⟩ :=
    readExactTls_starts ({ a with ops := [], wire := ps.flatten, initialWire := p } : State κ) stage size copied
  have hstart : Layered.obfsRecordRead r stage size copied ({ a with ops := [] }.on ps.flatten) (some p) =
      { a with ops := [], wire := ps.flatten, initialWire := initialWire }.start op := hstart
  have hsim : Sim r.mode ⟨Layered.obfsRecordRead r stage size copied
    ({ a with ops := [] }.on (ps.flatMap tlsRecord)) (some p), []⟩
      (Layered.obfsRecordRead r stage size copied ({ a with ops := [] }.on ps.flatten) (some p)) := by
    refine ⟨ps.flatMap tlsRecord, [], congrArg (fun s => (⟨s, []⟩ : Layered κ)) (hblind _), ?_⟩
    rw [hstart, hmode]
    rw [hready]
    exact .fresh hps
  refine honward.layered (fun _ => hsim) (hsim.over ?_) ?_
  · rw [hstart]
    exact hready
  · have hsame := (readExactTls_blind stage size copied).wire
      ({ a with ops := [], wire := ps.flatMap tlsRecord, initialWire := p } : State κ)
    exact Nat.le_trans (Nat.le_of_eq (congrArg List.length hsame)) hle

omit hb in
theorem record_ends {copied : Bytes} (heq : op = .obfsRecord stage size copied) (hwire : a.wire = []) (n : Nat) :
    LayeredOnward Ahead entry P r.mode (a.toGo + raw.length) a.delivered.length
      (Layered.complete r ⟨{ a with ops := [] }.on [], []⟩ (n + 1) op) := by
  subst heq
  have hmode : r.mode = .tls := hbusy.suits (.obfsRecord stage size copied)
    (by rw [hop]; exact mem_singleton_self _)
  have honward := alone_onward hr hbusy hop (.inl (Nat.succ_pos n))
  have hsame : { a with ops := [] }.on [] = { a with ops := [] } := by
    unfold State.on
    rw [hwire]
  have hend := lowerRead_end (s := { a with ops := [] }) hbusy.unended hwire
  have hrecord : r.complete { a with ops := [] } (n + 1) (.obfsRecord stage size copied) =
      { a with ops := [], ended := some .eof }.finishRead (.error r.obfsFailure) := by
    unfold Reader.complete Reader.obfsRecord
    rw [hend]
  have hboth : Layered.complete r ⟨{ a with ops := [] }.on [], []⟩ (n + 1) (.obfsRecord stage size copied) =
      ⟨r.complete { a with ops := [] } (n + 1) (.obfsRecord stage size copied), []⟩ := by
    rw [hsame, hrecord]
    show Layered.obfsRead .tls false (.obfsRecord stage size copied)
      (Layered.obfsRecordRead r stage size copied) _ (n + 1) = _
    unfold Layered.obfsRead
    rw [hend]
    rfl
  have hnil : (r.complete { a with ops := [] } (n + 1) (.obfsRecord stage size copied)).wire = [] := by
    rw [hrecord]
    exact hwire
  rw [hboth]
  refine honward.layered (fun hready' =>
    ⟨(r.complete { a with ops := [] } (n + 1) (.obfsRecord stage size copied)).wire, [], rfl, ?_⟩) id ?_
  · rw [hready', hmode, hnil]
    have hnone : ∀ q ∈ ([] : List Bytes), Framable q := fun q hq => absurd hq not_mem_nil
    exact .fresh hnone
  · rw [hnil]
    exact Nat.zero_le _

omit hb in
theorem obfsRecord_layered {copied : Bytes} (heq : op = .obfsRecord stage size copied)
    (hcarried : Carried r.mode a.obfsResponseReady taken raw a.wire) (n : Nat) :
    LayeredOnward Ahead entry P r.mode (a.toGo + raw.length) a.delivered.length
      (Layered.complete r ⟨{ a with ops := [] }.on raw, taken⟩ (n + 1) op) := by
  have hop' := hop
  rw [heq] at hop'
  obtain ⟨left, -, -, hready, -⟩ := waits_alone hbusy hop'
  have hmode : r.mode = .tls := hbusy.suits (.obfsRecord stage size copied)
    (by rw [hop']; exact mem_singleton_self _)
  rw [hready, hmode] at hcarried
  obtain ⟨ps, hps, hraw, hlt, hw⟩ := hcarried.framed
  cases ps with
  | nil =>
    obtain ⟨rfl, rfl⟩ := append_eq_nil_iff.1 hraw
    exact record_ends hr hbusy hop heq hw n
  | cons p ps =>
    have hp := hps p mem_cons_self
    obtain ⟨chunk, raw', hwire, hchunk, hpiece⟩ := obfsRead_tls
      (l := ⟨{ a with ops := [] }.on raw, taken⟩) (by decide : ObfsMode.tls ≠ .http) hp hbusy.unended
      (show taken ++ raw = recordHead.frame p ++ ps.flatMap tlsRecord from hraw)
      (show taken.length < (recordHead.frame p).length from hlt p rfl) (.obfsRecord stage size copied)
      (Layered.obfsRecordRead r stage size copied) n
    have hwire : raw = chunk ++ raw' := hwire
    subst heq
    rcases hpiece with ⟨hmore, hpart⟩ | ⟨hdone, hrest⟩
    · have hcomplete : Layered.complete r ⟨{ a with ops := [] }.on raw, taken⟩ (n + 1)
        (.obfsRecord stage size copied) = _ := hmore
      rw [hcomplete]
      refine stutter_onward hwire hchunk hbusy hop ?_
      rw [hready, hmode, hw]
      refine .records (p :: ps) hps ?_ fun q hq => ?_
      · rw [append_assoc, ← hwire]
        exact hraw
      · obtain rfl := Option.some.inj hq
        exact hpart
    · have hcomplete : Layered.complete r ⟨{ a with ops := [] }.on raw, taken⟩ (n + 1)
        (.obfsRecord stage size copied) = _ := hdone
      rw [hcomplete]
      have hle : (ps.flatMap tlsRecord).length ≤ raw.length := by
        rw [hwire, hrest, length_append]
        exact Nat.le_add_left _ _
      exact record_layered hr hbusy hop rfl hw (length_pos_iff.1 hp.1)
        (fun q hq => hps q (mem_cons_of_mem p hq)) rfl hle

theorem brings_busy (h : Sim r.mode l a) (n : Nat) :
    LayeredOnward Ahead entry P r.mode (a.toGo + l.state.wire.length) l.delivered.length
    (Layered.step r l (.brings n)) := by
  obtain ⟨left, -, -, hwaits⟩ := waits_alone hbusy hop
  obtain ⟨raw, taken, rfl, hcarried⟩ := h
  rw [step_brings hop]
  cases op with
  | obfsResponse => exact obfsResponse_layered hr hb hbusy hop rfl hcarried n
  | carrier stage size got =>
    rw [hwaits.1] at hcarried
    exact carrier_layered hr hb hbusy hop rfl hcarried n
  | obfsRecord stage size copied => exact obfsRecord_layered hr hbusy hop rfl hcarried n
  | exact stage bytes => exact exact_layered hr hb hbusy hop rfl hcarried n

end Completions

/-! ### The run -/

theorem LayeredOnward.inv (h : LayeredOnward Ahead entry P mode toGo d l) : LayeredInv Ahead entry P mode l := by
  rcases h with hover | ⟨a, hsim, ⟨hfree, -⟩ | ⟨hbusy, -⟩⟩
  · exact .inr hover
  · exact .inl ⟨a, hsim, .inl hfree⟩
  · exact .inl ⟨a, hsim, .inr hbusy⟩

theorem brings_over (h : Over P l.state) (n : Nat) : Over P (Layered.step r l (.brings n)).state := by
  cases hop : l.state.ops with
  | nil =>
    have hstep : Layered.step r l (.brings n) = l := by
      unfold Layered.step
      rw [hop]
    rwa [hstep]
  | cons op ops =>
    have hnil : ops = [] := by
      have hlone := h.lone
      rw [hop, length_cons] at hlone
      split at hlone
      · exact length_eq_zero_iff.1 (by omega)
      · omega
    subst hnil
    obtain ⟨e, he⟩ := Option.isSome_iff_exists.1 h.dead.ended
    have hlower : ∀ room, State.lowerRead { l.state with ops := [] } room (n + 1) =
      (.error e, { l.state with ops := [] }) := by
      intro room
      unfold State.lowerRead
      rw [he]
    have hcomplete := h.complete (r := r) 0 (n + 1)
    have hstep := complete_alone (r := r) hop (n + 1)
    rw [hstep] at hcomplete
    rw [step_brings hop]
    cases op with
    | carrier stage size got => exact hcomplete
    | exact stage bytes => exact hcomplete
    | obfsResponse =>
      have hfailed : Over P (r.obfsResponse { l.state with ops := [] } (n + 1)) := hcomplete
      have hsame : State.lowerFails { l.state with ops := [] } .eof = { l.state with ops := [] } := by
        unfold State.lowerFails
        rw [he]
        show ({ l.state with ops := [], ended := some e } : State κ) = _
        rw [← he]
      unfold Reader.obfsResponse at hfailed
      rw [if_pos (.inl h.dead.ended), hsame] at hfailed
      show Over P (Layered.obfsRead r.mode true .obfsResponse r.obfsResponseRead _ (n + 1)).state
      unfold Layered.obfsRead
      rw [hlower]
      exact hfailed
    | obfsRecord stage size copied =>
      have hfailed : Over P (r.obfsRecord { l.state with ops := [] } stage size copied (n + 1)) := hcomplete
      unfold Reader.obfsRecord at hfailed
      rw [hlower] at hfailed
      show Over P (Layered.obfsRead .tls false (.obfsRecord stage size copied)
        (Layered.obfsRecordRead r stage size copied) _ (n + 1)).state
      unfold Layered.obfsRead
      rw [hlower]
      exact hfailed

section Run

variable (hr : r.Prompt Ahead entry) (hb : r.Blind)

include hr hb

theorem read_layered (hsim : Sim r.mode l a) (hsteady : Free Ahead entry P a ∨ Busy Ahead entry P r.mode a)
    (size : Nat) :
    ∃ a', Sim r.mode (Layered.step r l (.read size)) a' ∧ (0 < size →
      Free Ahead entry P a' ∧ l.delivered.length < a'.delivered.length ∨
        Busy Ahead entry P r.mode a' ∧ a'.delivered = l.delivered) ∧
        (Free Ahead entry P a' ∨ Busy Ahead entry P r.mode a') := by
  have hopen : a.ended = none := by
    rcases hsteady with hfree | hbusy
    · exact hfree.unended
    · exact hbusy.unended
  have hsteady : Steady Ahead entry P r.mode a := by
    rcases hsteady with hfree | hbusy
    · exact .inl hfree
    · exact .inr (.inl hbusy)
  have hnot : ¬ Over P (r.read a size) := by
    intro hover
    have hended := hover.dead.ended
    rw [(read_keeps hr.toLawful a size).2, hopen] at hended
    cases hended
  refine ⟨r.read a size, (read_blind hb size).sim (read_keeps hr.toLawful a size).1 hsim, fun hsize => ?_, ?_⟩
  · rw [hsim.delivered]
    exact (read_onward hr hsteady hsize).resolve_left hnot
  · rcases read_steady hr hsteady size with hfree | hbusy | hover
    · exact .inl hfree
    · exact .inr hbusy
    · exact absurd hover hnot

theorem step_layered (l : Layered κ) (e : Calm) (h : LayeredInv Ahead entry P r.mode l) :
    LayeredInv Ahead entry P r.mode (Layered.step r l e) := by
  cases e with
  | read size =>
    rcases h with ⟨a, hsim, hsteady⟩ | hover
    · obtain ⟨a', hsim', -, hsteady'⟩ := read_layered hr hb hsim hsteady size
      exact .inl ⟨a', hsim', hsteady'⟩
    · exact .inr (hover.read hr size)
  | brings n =>
    rcases h with ⟨a, hsim, hfree | hbusy⟩ | hover
    · have hops : l.state.ops = [] := by
        obtain ⟨raw, taken, rfl, -⟩ := hsim
        exact hfree.ops
      have hstep : Layered.step r l (.brings n) = l := by
        unfold Layered.step
        rw [hops]
      rw [hstep]
      exact .inl ⟨a, hsim, .inl hfree⟩
    · obtain ⟨left, -, hidle | ⟨op, hop, -⟩⟩ := hbusy.alive
      · exact absurd hidle.1 hbusy.ops
      · exact (brings_busy hr hb hbusy hop hsim n).inv
    · exact .inr (brings_over hover n)

theorem busy_run : ∀ (m : Nat) (l : Layered κ) (a : State κ), Sim r.mode l a → Busy Ahead entry P r.mode a →
    a.toGo + l.state.wire.length < m →
    ∀ pieces : Nat → Nat, ∃ k, (Runs.run (Layered.step r) l
      ((List.range k).map fun i => .brings (pieces i))).delivered = P ∨
      l.delivered.length < (Runs.run (Layered.step r) l
        ((List.range k).map fun i => .brings (pieces i))).delivered.length
  | 0, _, _, _, _, hlt => absurd hlt (Nat.not_lt_zero _)
  | m + 1, l, a, hsim, hbusy, hlt => by
    intro pieces
    obtain ⟨left, -, hidle | ⟨op, hop, -⟩⟩ := hbusy.alive
    · exact absurd hidle.1 hbusy.ops
    · rcases brings_busy hr hb hbusy hop hsim (pieces 0) with hover | ⟨a', hsim',
        ⟨-, hmore⟩ | ⟨hbusy', hsame, hless⟩⟩
      · exact ⟨1, .inl hover.delivered⟩
      · exact ⟨1, .inr hmore⟩
      · obtain ⟨k, hk⟩ := busy_run m _ a' hsim' hbusy' (by omega) fun i => pieces (i + 1)
        refine ⟨k + 1, ?_⟩
        rw [range_succ_eq_map, map_cons, map_map, Runs.run_cons]
        rw [hsame] at hk
        exact hk

omit hr hb in
theorem inv_returned (h : LayeredInv Ahead entry P mode l) :
    l.delivered <+: P ∧ ∀ id e, (id, .error e) ∈ l.state.results → e = .alreadyStarted ∨ l.delivered = P := by
  rcases h with ⟨a, hsim, hsteady⟩ | hover
  · have hsteady : Steady Ahead entry P mode a := by
      rcases hsteady with hfree | hbusy
      · exact .inl hfree
      · exact .inr (.inl hbusy)
    rw [hsim.delivered, hsim.results]
    exact ⟨hsteady.in_order, fun id e he => hsteady.fails he⟩
  · have hsteady : Steady Ahead entry P mode l.state := .inr (.inr hover)
    exact ⟨hsteady.in_order, fun id e he => hsteady.fails he⟩

theorem layered_returns (h : LayeredInv Ahead entry P r.mode l) : Returns r P l := by
  have hrun : ∀ events, LayeredInv Ahead entry P r.mode (Runs.run (Layered.step r) l events) :=
    fun events => Runs.run_induction (step_layered hr hb) events l h
  refine ⟨fun events => (inv_returned (hrun events)).1, fun events => (inv_returned (hrun events)).2,
    fun events hne size hsize pieces => ?_⟩
  have hfront := (inv_returned (hrun events)).1
  have hshort : (Runs.run (Layered.step r) l events).delivered.length < P.length := by
    refine Nat.lt_of_le_of_ne hfront.length_le fun heq => hne (hfront.eq_of_length heq)
  generalize hl' : Runs.run (Layered.step r) l events = l' at hne hshort
  have hinv := hrun events
  rw [hl'] at hinv
  simp only [Runs.run_append, Runs.run_cons, hl']
  rcases hinv with ⟨a, hsim, hsteady⟩ | hover
  · obtain ⟨a', hsim', honward, -⟩ := read_layered hr hb hsim hsteady size
    rcases honward hsize with ⟨-, hmore⟩ | ⟨hbusy, hsame⟩
    · refine ⟨0, ?_⟩
      rw [← hsim'.delivered] at hmore
      exact hmore
    · obtain ⟨k, hk⟩ := busy_run hr hb _ _ a' hsim' hbusy (Nat.lt_succ_self _) pieces
      refine ⟨k, ?_⟩
      rcases hk with hall | hmore
      · rw [hall]
        exact hshort
      · rw [hsim'.delivered, hsame] at hmore
        exact hmore
  · exact absurd hover.delivered hne

omit hr hb in
theorem start_layered (h : Free Ahead entry P s) (hready : s.obfsResponseReady = (mode == .none))
    (hraw : Framing s.wire mode raw) : LayeredInv Ahead entry P mode ⟨s.on raw, []⟩ := by
  refine .inl ⟨s, ⟨raw, [], rfl, ?_⟩, .inl h⟩
  rw [hready]
  generalize s.wire = w at hraw
  cases hraw with
  | none =>
    have hmode : ObfsMode.none ≠ .tls := by decide
    exact .bare _ hmode
  | http head =>
    refine .http head rfl (Nat.pos_of_ne_zero fun hzero => ?_)
    have hended := head.ended
    rw [length_eq_zero_iff.1 hzero] at hended
    cases hended
  | tls head first payloads hfirst hpayloads hw =>
    rw [hw]
    refine .first head first payloads hfirst hpayloads rfl ?_
    rw [SimpleObfs.frame_length, length_nil]
    omega

end Run

end Simulation

end ClashNative.Shadowsocks
