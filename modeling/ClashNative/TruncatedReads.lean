import ClashNative.CancelledReads
import ClashNative.ShadowsocksStream
/-!
# TruncatedReads — where the end of a Shadowsocks stream is told as such

The streams hand the end of file of the lower stream on, wherever in a record it comes; only the payload
records inside of Trojan turn it into an error.
-/
namespace ClashNative.Shadowsocks

open List

open LegacyStream (ObfsMode)

variable {κ : Type}

def State.lowerEnds (s : State κ) (room n : Nat) : Option StreamError :=
  match s.ended with
  | some e => some e
  | none => if s.wire.take (min n room) = [] then some .eof else none

def State.meetsEnd (s : State κ) (n : Nat) : Op → Prop
  | .obfsResponse => s.ended.isSome = true
  | .carrier _ size got => (s.lowerEnds (size - got.length) n).isSome = true
  | .obfsRecord _ _ _ => (s.lowerEnds n n).isSome = true
  | .exact _ _ => False

/-- **What is owed at the end**: the end of file is told where the bytes that have come end with a record,
the read that meets an end gets an error, and no read is left without an answer. -/
structure Truthful (step : State κ → Event → State κ) (boundary : Nat → Prop) (total : Nat)
    (s : State κ) : Prop where
  clean : ∀ id, (id, .error .eof) ∈ s.results → boundary (total - s.wire.length)
  failed : ∀ i n id op, s.ops[i]? = some op → s.readHandler = some id → s.meetsEnd n op →
    ∃ e, (step s (.complete i n)).results = s.results ++ [(id, .error e)]
  answered : s.ops = [] → s.readHandler = none

/-- **The condition**: the lower stream reports its end to a read where the bytes that have come end with
a record; `excused` are the stages that do not hand it on. -/
def EndsWhole (excused : Stage → Prop) (boundary : Nat → Prop) (total : Nat) (s : State κ) : Event → Prop
  | .complete i n => ∀ stage size got, s.ops[i]? = some (.carrier stage size got) → s.readHandler.isSome = true →
    s.lowerEnds (size - got.length) n = some .eof → excused stage ∨ boundary (total - s.wire.length)
  | _ => True

/-! ## What the functions leave -/

/-- The operations of a stream, of the stages it has; from the salt on there is a key. -/
def Fits (known : Stage → Prop) (s : State κ) : Op → Prop
  | .obfsResponse => True
  | .carrier stage _ _ | .obfsRecord stage _ _ | .exact stage _ => known stage ∧
      (stage = .salt ∨ s.readKey.isSome = true)

def Keyed (fits : State κ → Op → Prop) : Prop :=
  ∀ s s' op, (s.readKey.isSome = true → s'.readKey.isSome = true) → fits s op → fits s' op

theorem fits_keyed (known : Stage → Prop) : Keyed (Fits known (κ := κ)) := by
  intro s s' op hkey h
  cases op with
  | obfsResponse => trivial
  | carrier stage size got | obfsRecord stage size got | exact stage bytes => exact ⟨h.1, h.2.imp_right hkey⟩

/-- What a function does that goes on for an operation: it starts another one, or nobody is left to wait;
it does not tell an end of file of its own. -/
structure Settles (fits : State κ → Op → Prop) (s s' : State κ) : Prop where
  wire : s'.wire = s.wire
  ended : s'.ended = s.ended
  key : s.readKey.isSome = true → s'.readKey.isSome = true
  results : ∀ id, (id, .error .eof) ∈ s'.results → (id, .error .eof) ∈ s.results
  ops : s'.ops = s.ops ∧ s'.readHandler = none ∨ ∃ op, fits s' op ∧ s'.ops = s.ops ++ [op]
  parked : s.readHandler.isSome = s.readInProgress → s'.readHandler.isSome = s'.readInProgress

section Functions

variable {fits : State κ → Op → Prop} {known : Stage → Prop} {s s' : State κ}

theorem Settles.from {t : State κ} (h : Settles fits t s') (hwire : t.wire = s.wire) (hended : t.ended = s.ended)
    (hkey : s.readKey.isSome = true → t.readKey.isSome = true) (hresults : t.results = s.results)
    (hops : t.ops = s.ops)
    (hhandler : t.readHandler = s.readHandler) (hprogress : t.readInProgress = s.readInProgress) :
    Settles fits s s' where
  wire := h.wire.trans hwire
  ended := h.ended.trans hended
  key hs := h.key (hkey hs)
  results id hid := hresults ▸ h.results id hid
  ops := hops ▸ h.ops
  parked hs := h.parked (by rw [hhandler, hprogress]; exact hs)

theorem finishRead_settles (s : State κ) {result : Except StreamError Bytes} (hresult : result ≠ .error .eof) :
    Settles fits s (s.finishRead result) := by
  refine ⟨rfl, rfl, fun h => h, fun id hid => ?_, .inl ⟨rfl, rfl⟩, fun _ => rfl⟩
  rcases mem_finishRead hid with hold | hnew
  · exact hold
  · exact absurd hnew.symm hresult

theorem ok_ne_eof (data : Bytes) : (.ok data : Except StreamError Bytes) ≠ .error .eof := fun heq => nomatch heq

theorem copy_settles (s : State κ) : Settles fits s s.copy :=
  (finishRead_settles { s with pendingPlaintext := s.pendingPlaintext.drop s.readBuffer }
    (ok_ne_eof _)).from rfl rfl (fun h => h) rfl rfl rfl rfl

variable {op : Op}

theorem start_settles (hkeyed : Keyed fits) (s : State κ) (hop : fits s op) : Settles fits s (s.start op) :=
  ⟨rfl, rfl, fun h => h, fun _ hid => hid, .inr ⟨op, hkeyed s _ op (fun h => h) hop, rfl⟩, fun h => h⟩

theorem startBehind_settles (hkeyed : Keyed fits) (s : State κ) (initialWire : Bytes) (hop : fits s op) :
    Settles fits s ({ s with initialWire := initialWire }.start op) :=
  ⟨rfl, rfl, fun h => h, fun _ hid => hid, .inr ⟨op, hkeyed s _ op (fun h => h) hop, rfl⟩, fun h => h⟩

variable {size : Nat} {stage : Stage}

theorem readExactTls_settles (s : State κ) {copied : Bytes} (hstage : known stage)
    (hkey : stage = .salt ∨ s.readKey.isSome = true) :
    Settles (Fits known) s (s.readExactTls stage size copied) := by
  unfold State.readExactTls
  dsimp only
  split
  · exact startBehind_settles (fits_keyed known) s _ ⟨hstage, hkey⟩
  · exact startBehind_settles (fits_keyed known) s _ ⟨hstage, hkey⟩

theorem readExact_settles (s : State κ) (mode : ObfsMode) (hstage : known stage)
    (hkey : stage = .salt ∨ s.readKey.isSome = true) : Settles (Fits known) s (s.readExact mode stage size) := by
  unfold State.readExact
  split
  · exact readExactTls_settles s hstage hkey
  · dsimp only
    split
    · exact startBehind_settles (fits_keyed known) s _ ⟨hstage, hkey⟩
    · exact startBehind_settles (fits_keyed known) s _ ⟨hstage, hkey⟩

end Functions

structure Reader.Settling (r : Reader κ) (known : Stage → Prop) : Prop where
  receive : ∀ s, Settles (Fits known) s (r.receive s)
  receiveSalt : ∀ s, Settles (Fits known) s (r.receiveSalt s)
  received : ∀ s stage bytes, known stage → stage = .salt ∨ s.readKey.isSome = true →
    s.readHandler.isSome = s.readInProgress →
    Settles (Fits known) s (r.received s stage bytes)
  failure : r.obfsFailure ≠ .eof

/-! ## Runs -/

structure Owing (fits : State κ → Op → Prop) (boundary : Nat → Prop) (total : Nat) (s : State κ) : Prop where
  parked : s.readHandler.isSome = s.readInProgress
  fits : ∀ op ∈ s.ops, fits s op
  told : ∀ id, (id, .error .eof) ∈ s.results → s.ended.isSome = true ∧ boundary (total - s.wire.length)

structure Settled (fits : State κ → Op → Prop) (boundary : Nat → Prop) (total : Nat) (s : State κ) : Prop extends
    Owing fits boundary total s where
  answered : s.ops = [] → s.readHandler = none

section Runs

variable {fits : State κ → Op → Prop} {boundary : Nat → Prop} {total : Nat} {s s' : State κ}
    (hkeyed : Keyed fits)

include hkeyed

theorem Owing.erase (h : Owing fits boundary total s) (i : Nat) :
    Owing fits boundary total { s with ops := s.ops.eraseIdx i } :=
  { h with fits := fun op hop => hkeyed s _ op (fun h => h) (h.fits op (mem_of_mem_eraseIdx hop)) }

theorem Owing.brought (h : Owing fits boundary total s) (hopen : s.ended = none)
    (hkey : s'.readKey = s.readKey) (hops : s'.ops = s.ops)
    (hparked : s'.readHandler.isSome = s'.readInProgress) (hresults : s'.results = s.results) :
    Owing fits boundary total s' := by
  refine ⟨hparked, fun op hop => hkeyed s s' op (fun hsome => hkey ▸ hsome) (h.fits op (hops ▸ hop)),
    fun id hid => ?_⟩
  have hsome := (h.told id (hresults ▸ hid)).1
  rw [hopen] at hsome
  cases hsome

theorem Settles.settled (h : Settles fits s s') (howing : Owing fits boundary total s) :
    Settled fits boundary total s' := by
  refine ⟨⟨h.parked howing.parked, fun op hop => ?_, fun id hid => ?_⟩, fun hnil => ?_⟩
  · rcases h.ops with ⟨hsame, -⟩ | ⟨op', hfits', hnew⟩
    · rw [hsame] at hop
      exact hkeyed s s' op h.key (howing.fits op hop)
    · rw [hnew] at hop
      rcases mem_append.1 hop with hold | hlast
      · exact hkeyed s s' op h.key (howing.fits op hold)
      · rw [mem_singleton.1 hlast]
        exact hfits'
  · rw [h.ended, h.wire]
    exact howing.told id (h.results id hid)
  · rcases h.ops with ⟨-, hnone⟩ | ⟨op', -, hnew⟩
    · exact hnone
    · rw [hnew] at hnil
      cases (append_eq_nil_iff.1 hnil).2

theorem Settled.results (h : Settled fits boundary total s) (hops : s'.ops = s.ops)
    (hkey : s'.readKey = s.readKey)
    (hwire : s'.wire = s.wire) (hended : s.ended.isSome = true → s'.ended.isSome = true)
    (hparked : s'.readHandler.isSome = s'.readInProgress) (hanswered : s.readHandler = none →
      s'.readHandler = none)
    (hresults : ∀ id, (id, .error .eof) ∈ s'.results →
      (id, .error .eof) ∈ s.results) : Settled fits boundary total s' := by
  refine ⟨⟨hparked, fun op hop => ?_, fun id hid => ?_⟩, fun hnil => hanswered (h.answered (hops ▸ hnil))⟩
  · exact hkeyed s s' op (fun hsome => hkey ▸ hsome) (h.fits op (hops ▸ hop))
  · have htold := h.told id (hresults id hid)
    rw [hwire]
    exact ⟨hended htold.1, htold.2⟩

theorem answer_settled (h : Settled fits boundary total s) {result : Except StreamError Bytes}
    (hresult : result ≠ .error .eof) :
    Settled fits boundary total (s.answer result) := by
  refine h.results hkeyed rfl rfl rfl (fun h => h) h.parked (fun h => h) fun id hid => ?_
  rcases mem_append.1 hid with hold | hnew
  · exact hold
  · exact absurd (Prod.ext_iff.1 (mem_singleton.1 hnew)).2.symm hresult

theorem aborted_settled (h : Settled fits boundary total s) :
    Settled fits boundary total (s.finishRead (.error .operationAborted)) :=
  h.results hkeyed rfl rfl rfl (fun h => h) rfl (fun _ => rfl) fun _ hid =>
  (mem_finishRead hid).resolve_right nofun

theorem lowerFails_settled (h : Settled fits boundary total s) (e : StreamError) :
    Settled fits boundary total (s.lowerFails e) := by
  refine h.results hkeyed rfl rfl rfl (fun hsome => ?_) h.parked (fun h => h) fun _ hid => hid
  obtain ⟨e', he'⟩ := Option.isSome_iff_exists.1 hsome
  unfold State.lowerFails
  rw [he']
  rfl

theorem ended_settled (h : Owing fits boundary total s) {e e' : StreamError}
    (hends : s.readHandler.isSome = true → e' = .eof → boundary (total - s.wire.length)) :
    Settled fits boundary total (({ s with ended := some e } : State κ).finishRead (.error e')) := by
  refine ⟨⟨rfl, fun op hop => hkeyed s _ op (fun h => h) (h.fits op hop), fun id hid => ⟨rfl, ?_⟩⟩, fun _ => rfl⟩
  cases hhandler : s.readHandler with
  | none =>
    rw [hhandler] at hid
    exact (h.told id hid).2
  | some id' =>
    rcases mem_finishRead hid with hold | hnew
    · exact (h.told id hold).2
    · exact hends (by rw [hhandler]; rfl) (Except.error.inj hnew).symm

end Runs

section Ends

variable {s s' : State κ} {e : StreamError} {room n : Nat}

theorem lowerEnds_of_error (h : s.lowerRead room n = (.error e, s')) : s.lowerEnds room n = some e := by
  unfold State.lowerRead at h
  unfold State.lowerEnds
  cases hended : s.ended with
  | some e' =>
    rw [hended] at h
    cases h
    rfl
  | none =>
    rw [hended] at h
    dsimp only at h ⊢
    split at h
    · cases h
      exact if_pos ‹_›
    · cases h

theorem lowerRead_of_ends (h : s.lowerEnds room n = some e) :
    s.lowerRead room n = (.error e, { s with ended := some e }) := by
  unfold State.lowerEnds at h
  unfold State.lowerRead
  cases hended : s.ended with
  | some e' =>
    rw [hended] at h
    cases h
    have hsame : ({ s with ended := some e } : State κ) = s := by rw [← hended]
    rw [hsame]
  | none =>
    rw [hended] at h
    dsimp only at h ⊢
    split at h
    · cases h
      exact if_pos ‹_›
    · cases h

theorem finishRead_of_parked {id : Nat} (h : s.readHandler = some id) (result : Except StreamError Bytes) :
    (s.finishRead result).results = s.results ++ [(id, result)] := by
  unfold State.finishRead
  rw [h]

end Ends

/-! ## The streams over a carrier -/

namespace Reader

variable {known : Stage → Prop} {boundary : Nat → Prop} {total : Nat} {s s' : State κ} {r : Reader κ} {n : Nat}

theorem failed_of_ends (r : Reader κ) {i id : Nat} {op : Op} (hop : s.ops[i]? = some op)
    (hparked : s.readHandler = some id)
    (hends : s.meetsEnd n op) : ∃ e, (r.step s (.complete i n)).results = s.results ++ [(id, .error e)] := by
  rw [step_complete hop]
  cases op with
  | obfsResponse =>
    refine ⟨r.obfsFailure, ?_⟩
    show (r.obfsResponse { s with ops := s.ops.eraseIdx i } n).results = _
    unfold obfsResponse
    have hended : s.ended.isSome = true := hends
    rw [if_pos (.inl hended)]
    exact finishRead_of_parked hparked _
  | carrier stage size got =>
    obtain ⟨e, he⟩ := Option.isSome_iff_exists.1 hends
    refine ⟨e, ?_⟩
    show (r.carrierRead { s with ops := s.ops.eraseIdx i } stage size got n).results = _
    unfold carrierRead
    rw [lowerRead_of_ends (s := { s with ops := s.ops.eraseIdx i }) he]
    exact finishRead_of_parked hparked _
  | obfsRecord stage size copied =>
    obtain ⟨e, he⟩ := Option.isSome_iff_exists.1 hends
    refine ⟨r.obfsFailure, ?_⟩
    show (r.obfsRecord { s with ops := s.ops.eraseIdx i } stage size copied n).results = _
    unfold obfsRecord
    rw [lowerRead_of_ends (s := { s with ops := s.ops.eraseIdx i }) he]
    exact finishRead_of_parked hparked _
  | exact stage bytes => exact hends.elim

theorem truthful_of_settled {fits : State κ → Op → Prop} (h : Settled fits boundary total s) :
    Truthful r.step boundary total s :=
  ⟨fun id hid => (h.told id hid).2, fun _ _ _ _ hop hparked hends => r.failed_of_ends hop hparked hends,
    h.answered⟩

theorem read_settled (hr : r.Settling known) (h : Settled (Fits known) boundary total s) (size : Nat) :
    Settled (Fits known) boundary total (r.read s size) := by
  have hkeyed : Keyed (Fits known) := fits_keyed (κ := κ) known
  unfold read
  split
  · exact answer_settled hkeyed h nofun
  · split
    · exact answer_settled hkeyed h nofun
    · have hparked : Owing (Fits known) boundary total (s.park size) :=
        ⟨rfl, fun op hop => hkeyed s _ op (fun h => h) (h.fits op hop), h.told⟩
      split
      · exact (copy_settles (s.park size)).settled hkeyed hparked
      · split
        · exact (start_settles hkeyed (s.park size)
            (show Fits known (s.park size) .obfsResponse from trivial)).settled hkeyed hparked
        · exact (hr.receive (s.park size)).settled hkeyed hparked

variable (hr : r.Settling known) (h : Owing (Fits known) boundary total s)

include hr h

variable {size : Nat} {stage : Stage}

theorem carrierRead_settled {got : Bytes} (hstage : Fits known s (.carrier stage size got))
    (hends : s.readHandler.isSome = true → s.lowerEnds (size - got.length) n = some .eof →
      boundary (total - s.wire.length)) :
    Settled (Fits known) boundary total (r.carrierRead s stage size got n) := by
  have hkeyed : Keyed (Fits known) := fits_keyed (κ := κ) known
  unfold carrierRead
  split
  · rename_i e s' hlower
    have hends' := lowerEnds_of_error hlower
    rw [lowerRead_error hlower]
    exact ended_settled hkeyed h fun hsome heq => hends hsome (heq ▸ hends')
  · rename_i chunk s' hlower
    obtain ⟨-, -, hnone, wire, -, rfl⟩ := lowerRead_ok hlower
    have hbrought : Owing (Fits known) boundary total
      { s with wire := wire } := h.brought hkeyed hnone rfl rfl h.parked rfl
    split
    · exact (hr.received { s with wire := wire } stage _ hstage.1 hstage.2 h.parked).settled hkeyed hbrought
    · exact (start_settles hkeyed { s with wire := wire }
        (show Fits known { s with wire := wire } (.carrier stage size _) from hstage)).settled
        hkeyed hbrought

theorem obfsRecord_settled {copied : Bytes} (hstage : Fits known s (.obfsRecord stage size copied)) :
    Settled (Fits known) boundary total (r.obfsRecord s stage size copied n) := by
  have hkeyed : Keyed (Fits known) := fits_keyed (κ := κ) known
  unfold obfsRecord
  split
  · rename_i e s' hlower
    rw [lowerRead_error hlower]
    exact ended_settled hkeyed h fun _ heq => absurd heq hr.failure
  · rename_i payload s' hlower
    obtain ⟨-, -, hnone, wire, -, rfl⟩ := lowerRead_ok hlower
    have hbrought : Owing (Fits known) boundary total { s with wire := wire, initialWire := payload } :=
      h.brought hkeyed hnone rfl rfl h.parked rfl
    exact (readExactTls_settles { s with wire := wire, initialWire := payload } hstage.1 hstage.2).settled
      hkeyed hbrought

theorem obfsResponse_settled (n : Nat) : Settled (Fits known) boundary total (r.obfsResponse s n) := by
  have hkeyed : Keyed (Fits known) := fits_keyed (κ := κ) known
  unfold obfsResponse
  split
  · have hended : s.lowerFails .eof = { s with ended := some (s.ended.getD .eof) } := by
      unfold State.lowerFails
      cases s.ended <;> rfl
    rw [hended]
    exact ended_settled hkeyed h fun _ heq => absurd heq hr.failure
  · rename_i hopen
    rw [not_or] at hopen
    have hnone : s.ended = none := by simpa using hopen.1
    have hbrought : Owing (Fits known) boundary total
      { s with wire := s.wire.drop n, initialWire := s.wire.take n, obfsResponseReady := true } :=
      h.brought hkeyed hnone rfl rfl h.parked rfl
    exact (hr.receiveSalt { s with wire := s.wire.drop n, initialWire := s.wire.take n, obfsResponseReady :=
      true }).settled hkeyed hbrought

omit h

theorem step_settled (s : State κ) (e : Event) (h : Settled (Fits known) boundary total s)
    (hends : EndsWhole (fun _ => False) boundary total s e) :
    Settled (Fits known) boundary total (r.step s e) := by
  have hkeyed : Keyed (Fits known) := fits_keyed (κ := κ) known
  cases e with
  | read size => exact read_settled hr h size
  | cancelRead =>
    show Settled (Fits known) boundary total s.cancelRead
    unfold State.cancelRead
    split
    · exact h
    · exact aborted_settled hkeyed h
  | close => exact aborted_settled hkeyed (lowerFails_settled hkeyed h .operationAborted)
  | lowerFails => exact lowerFails_settled hkeyed h .transport
  | complete i n =>
    cases hop : s.ops[i]? with
    | none =>
      rw [step_complete_none hop]
      exact h
    | some op =>
      rw [step_complete hop]
      have howing := h.toOwing.erase hkeyed i
      have hstage := h.fits op (mem_of_getElem? hop)
      cases op with
      | obfsResponse => exact obfsResponse_settled hr howing n
      | carrier stage size got =>
        exact carrierRead_settled hr howing hstage fun hsome heof =>
          (hends stage size got hop hsome heof).resolve_left fun hf => hf
      | obfsRecord stage size copied => exact obfsRecord_settled hr howing hstage
      | exact stage bytes => exact (hr.received { s with ops := s.ops.eraseIdx i }
        stage bytes hstage.1 hstage.2 h.parked).settled hkeyed howing

omit hr

theorem step_truncated (s : State κ) (e : Event) (hends : ¬ EndsWhole (fun _ => False) boundary total s e) :
    ¬ Truthful r.step boundary total (r.step s e) := by
  cases e with
  | complete i n =>
    unfold EndsWhole at hends
    push Not at hends
    obtain ⟨stage, size, got, hop, hparked, heof, -, hnot⟩ := hends
    obtain ⟨id, hid⟩ := Option.isSome_iff_exists.1 hparked
    have hstep : r.step s (.complete i n) =
        ({ s with ops := s.ops.eraseIdx i, ended := some .eof } : State κ).finishRead (.error .eof) := by
      rw [step_complete hop]
      show r.carrierRead { s with ops := s.ops.eraseIdx i } stage size got n = _
      unfold carrierRead
      rw [lowerRead_of_ends (s := { s with ops := s.ops.eraseIdx i }) heof]
    intro htruthful
    rw [hstep] at htruthful
    refine hnot (htruthful.clean id ?_)
    rw [finishRead_of_parked (s := { s with ops := s.ops.eraseIdx i, ended := some .eof }) hid]
    exact mem_append_right _ mem_cons_self
  | read size => exact absurd trivial hends
  | cancelRead => exact absurd trivial hends
  | close => exact absurd trivial hends
  | lowerFails => exact absurd trivial hends

theorem truthful_iff (hr : r.Settling known) (h : Settled (Fits known) boundary total s) (events : List Event) :
    (∀ pre, pre <+: events → Truthful r.step boundary total (Runs.run r.step s pre)) ↔
      Runs.Along r.step (EndsWhole (fun _ => False) boundary total) s events :=
  Runs.forall_prefix_iff_along (P := Settled (Fits known) boundary total) (fun _ hs => truthful_of_settled hs)
    (fun s e hs hends => step_settled hr s e hs hends) (fun s e _ hends => step_truncated s e hends) h events

end Reader

end ClashNative.Shadowsocks
