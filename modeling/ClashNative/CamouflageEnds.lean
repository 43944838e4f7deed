import ClashNative.RestlsPump
import ClashNative.ShadowTlsV3Session
import ClashNative.ShadowTlsStreams
/-!
# CamouflageEnds — where the end of a camouflage stream is told as such

The streams of ResTLS and of Shadow-TLS v2 and v3 hand the end of the lower stream on, wherever in a
record it comes.
-/
namespace ClashNative

open List

open Wire (getU16)

/-- The bytes are whole records, at most `n` of them: each is as long as its header tells. -/
def whole : Nat → List UInt8 → Bool
  | _, [] => true
  | 0, _ :: _ => false
  | n + 1, byte :: bytes =>
    let size := 5 + getU16 ((byte :: bytes).drop 3)
    size ≤ (byte :: bytes).length && whole n ((byte :: bytes).drop size)

/-- **A position between two records** of a stream. -/
def Boundary (stream : List UInt8) (n : Nat) : Prop := whole n (stream.take n) = true

instance (stream : List UInt8) (n : Nat) : Decidable (Boundary stream n) :=
  inferInstanceAs (Decidable (_ = true))

namespace ShadowTls

open ShadowTlsV3 (Bytes Chains HmacSha1)

variable {κ μ : Type}

/-! ## Shadow-TLS -/

def Reads.tells (f : Framing κ) (s : Reads κ) (op : Op) (n : Nat) : Option StreamError :=
  match s.ended with
  | some e => some (f.failure e)
  | none => if s.brings op n = [] then some .eof else none

/-- **What is owed at the end**: the end of file is told where the bytes that have come are whole records,
and a parked read whose lower read brings nothing fails. -/
structure Truthful (k : Kind κ μ) (stream : Bytes) (s : State κ μ) : Prop where
  clean : ∀ answer ∈ s.reads.results, answer.result = .error .eof →
    Boundary stream (stream.length - s.reads.wire.length)
  failed : ∀ i n op id, s.reads.ops[i]? = some op → op.posted = false → s.reads.waiting = some id →
    s.reads.brings op n = [] →
    ∃ e, (step k s (.lowerRead i n)).reads.results = s.reads.results ++ [⟨id, op.owner, .error e⟩]

/-- **The condition**: a read is told the end of file where the bytes that have come are whole records. -/
def EndsWhole (k : Kind κ μ) (stream : Bytes) (s : State κ μ) : Event → Prop
  | .lowerRead i n => ∀ op ∈ s.reads.ops[i]?, op.posted = false → s.reads.handler.isSome = true →
      s.reads.tells k.toFraming op n = some .eof → Boundary stream (stream.length - s.reads.wire.length)
  | _ => True

/-- What a run keeps: besides, an end that was told has come, and no handler stays that was called where
none does. -/
structure Reads.Told (f : Framing κ) (stream : Bytes) (s : Reads κ) : Prop where
  clean : ∀ answer ∈ s.results, answer.result = .error .eof → s.ended.isSome = true ∧
    Boundary stream (stream.length - s.wire.length)
  called : f.shares = false → s.called = none

structure Reads.Mute (f : Framing κ) (s t : Reads κ) : Prop where
  wire : t.wire = s.wire
  ended : s.ended.isSome = true → t.ended.isSome = true
  results : ∀ answer ∈ t.results, answer.result = .error .eof → answer ∈ s.results
  called : f.shares = false → s.called = none → t.called = none

namespace Reads

variable {f : Framing κ} {stream : Bytes} {s t : Reads κ}

theorem Mute.told (h : Mute f s t) (hs : s.Told f stream) : t.Told f stream := by
  refine ⟨fun answer hmem heof => ?_, fun hshares => h.called hshares (hs.called hshares)⟩
  obtain ⟨hended, hboundary⟩ := hs.clean answer (h.results answer hmem heof) heof
  rw [h.wire]
  exact ⟨h.ended hended, hboundary⟩

theorem Mute.trans {u : Reads κ} (h : Mute f s t) (h' : Mute f t u) : Mute f s u :=
  ⟨h'.wire.trans h.wire, fun hended => h'.ended (h.ended hended),
    fun answer hmem heof => h.results answer (h'.results answer hmem heof) heof,
    fun hshares hcalled => h'.called hshares (h.called hshares hcalled)⟩

theorem eof_mem_append {results : List (Answer Bytes)} {last : Answer Bytes} (h : last.result ≠ .error .eof) :
    ∀ answer ∈ results ++ [last], answer.result = .error .eof → answer ∈ results := by
  intro answer hmem heof
  rcases mem_append.1 hmem with hold | hlast
  · exact hold
  · rw [mem_singleton.1 hlast] at heof
    exact absurd heof h

theorem answer_mute (s : Reads κ) (result : Except StreamError Bytes) (h : result ≠ .error .eof) : Mute f s
    (s.answer result) :=
  ⟨rfl, fun hended => hended, eof_mem_append h, fun _ hcalled => hcalled⟩

theorem park_mute (s : Reads κ) (size : Nat) : Mute f s (s.park size) :=
  ⟨rfl, fun hended => hended, fun _ hmem _ => hmem, fun _ _ => rfl⟩

theorem readExact_mute (s : Reads κ) (owner : Nat) (stage : Stage) : Mute f s (s.readExact owner stage) :=
  ⟨rfl, fun hended => hended, fun _ hmem _ => hmem, fun _ hcalled => hcalled⟩

theorem finishRead_mute (s : Reads κ) (origin : Nat) (result : Except StreamError Bytes)
    (h : result ≠ .error .eof) :
    Mute f s (s.finishRead origin result) := by
  refine ⟨rfl, fun hended => hended, ?_, fun _ _ => rfl⟩
  unfold finishRead
  cases s.handler with
  | none => exact fun _ hmem _ => hmem
  | some id => exact eof_mem_append h

theorem copyPending_mute (s : Reads κ) (origin : Nat) : Mute f s (s.copyPending f origin) := by
  unfold copyPending
  cases s.handler with
  | none => exact ⟨rfl, fun hended => hended, fun _ hmem _ => hmem, fun _ hcalled => hcalled⟩
  | some id =>
    dsimp only
    split
    · exact ⟨rfl, fun hended => hended, fun _ hmem _ => hmem, fun _ hcalled => hcalled⟩
    · exact ⟨rfl, fun hended => hended, eof_mem_append nofun, fun hshares _ => by rw [hshares]; rfl⟩

theorem cancelRead_mute (s : Reads κ) : Mute f s s.cancelRead := by
  unfold cancelRead
  cases s.handler with
  | none => exact ⟨rfl, fun hended => hended, fun _ hmem _ => hmem, fun _ hcalled => hcalled⟩
  | some id => exact ⟨rfl, fun hended => hended, eof_mem_append nofun, fun _ _ => rfl⟩

theorem fail_mute (s : Reads κ) : Mute f s s.fail := by
  refine ⟨rfl, fun hended => ?_, fun _ hmem _ => hmem, fun _ hcalled => hcalled⟩
  unfold fail
  cases hs : s.ended with
  | none => rfl
  | some e => rfl

theorem runPosted_mute (s : Reads κ) (i : Nat) : Mute f s (s.runPosted f i) := by
  have herase (kept : κ) (pending : Bytes) : Mute f s { s with ops := s.ops.eraseIdx i, kept, pending } :=
    ⟨rfl, fun hended => hended, fun _ hmem _ => hmem, fun _ hcalled => hcalled⟩
  unfold runPosted
  split
  · exact ⟨rfl, fun hended => hended, fun _ hmem _ => hmem, fun _ hcalled => hcalled⟩
  · split
    · split
      · split
        · exact (herase _ _).trans (readExact_mute _ _ _)
        · exact (herase _ _).trans (finishRead_mute _ _ _ nofun)
      · dsimp only
        split
        · exact (herase _ _).trans (readExact_mute _ _ _)
        · exact (herase _ _).trans (finishRead_mute _ _ _ nofun)
        · exact (herase _ _).trans (copyPending_mute _ _)
    · exact ⟨rfl, fun hended => hended, fun _ hmem _ => hmem, fun _ hcalled => hcalled⟩

theorem readV2_mute (s : Reads Unit) (size : Nat) : Mute framingV2 s (readV2 s size) := by
  unfold readV2
  split
  · exact answer_mute s _ nofun
  · split
    · exact ⟨rfl, fun hended => hended, eof_mem_append nofun, fun _ hcalled => hcalled⟩
    · split
      · exact answer_mute s _ nofun
      · exact (park_mute s size).trans (readExact_mute _ _ _)

theorem readV3_mute (mac : HmacSha1) (s : Reads Chains) (size : Nat) :
    Mute (framingV3 mac) s (readV3 mac s size) := by
  unfold readV3
  split
  · exact answer_mute s _ nofun
  · split
    · exact answer_mute s _ nofun
    · split
      · exact (park_mute s size).trans (copyPending_mute _ _)
      · exact (park_mute s size).trans (readExact_mute _ _ _)

theorem Told.open (h : s.Told f stream) (hended : s.ended = none) (hresults : t.results = s.results)
    (hcalled : t.called = s.called) :
    t.Told f stream := by
  refine ⟨fun answer hmem heof => ?_, fun hshares => hcalled.trans (h.called hshares)⟩
  have hsome := (h.clean answer (hresults ▸ hmem) heof).1
  rw [hended] at hsome
  cases hsome

variable {e : StreamError}

theorem ended_told (h : s.Told f stream) (hended : s.ended.isSome = true) (origin : Nat)
    (hends : s.handler.isSome = true → e = .eof → Boundary stream (stream.length - s.wire.length)) :
    (s.finishRead origin (.error e)).Told f stream := by
  refine ⟨fun answer hmem heof => ?_, fun _ => rfl⟩
  unfold finishRead at hmem
  cases hhandler : s.handler with
  | none =>
    rw [hhandler] at hmem
    exact h.clean answer hmem heof
  | some id =>
    rw [hhandler] at hmem
    rcases mem_append.1 hmem with hold | hlast
    · exact h.clean answer hold heof
    · rw [mem_singleton.1 hlast] at heof
      exact ⟨hended, hends (by rw [hhandler]; rfl) (Except.error.inj heof)⟩

variable {n : Nat} {op : Op}

theorem brings_of_ended (h : s.ended ≠ none) : s.brings op n = [] := by
  exact if_pos (Option.isSome_iff_ne_none.2 h)

variable {i : Nat}

theorem lowerRead_told (h : s.Told f stream) (hends : ∀ op ∈ s.ops[i]?, op.posted = false →
    s.handler.isSome = true →
    s.tells f op n = some .eof → Boundary stream (stream.length - s.wire.length)) :
    (s.lowerRead f i n).Told f stream := by
  unfold lowerRead
  cases hop : s.ops[i]? with
  | none => exact h
  | some op =>
    dsimp only
    cases hposted : op.posted with
    | true => exact h
    | false =>
      rw [if_neg Bool.false_ne_true]
      have hends := hends op hop hposted
      unfold tells at hends
      cases hended : s.ended with
      | some e =>
        rw [hended] at hends
        rw [brings_of_ended (by rw [hended]; exact nofun)]
        exact ended_told (s := { s with ops := s.ops.eraseIdx i, ended := some e })
          ⟨hended ▸ h.clean, h.called⟩ rfl op.owner
          fun hsome heof => hends hsome (congrArg some heof)
      | none =>
        rw [hended] at hends
        dsimp only at hends ⊢
        split
        · exact h.open hended rfl rfl
        · by_cases hdata : s.brings op n = []
          · rw [if_pos hdata, hdata]
            rw [if_pos hdata] at hends
            refine ended_told (s := { s with ops := s.ops.eraseIdx i, ended := some .eof })
              ⟨fun answer hmem heof => ?_, h.called⟩ rfl op.owner
              fun hsome _ => hends hsome rfl
            exact ⟨rfl, (h.clean answer hmem heof).2⟩
          · rw [if_neg hdata]
            exact h.open hended rfl rfl

theorem lowerRead_results (h : s.Told f stream) (hguards : f.guards = true → f.shares = false) {id : Nat}
    (hop : s.ops[i]? = some op)
    (hposted : op.posted = false) (hhandler : s.handler = some id) (htells : s.tells f op n = some e) :
    (s.lowerRead f i n).results = s.results ++ [⟨id, op.owner, .error e⟩] ∧
    (s.lowerRead f i n).wire = s.wire := by
  have hserved (ended : Option StreamError) :
    ({ s with ops := s.ops.eraseIdx i, ended } : Reads κ).handler = some id := hhandler
  unfold lowerRead
  rw [hop]
  dsimp only
  rw [hposted, if_neg Bool.false_ne_true]
  unfold tells at htells
  cases hended : s.ended with
  | some e' =>
    rw [hended] at htells
    cases htells
    rw [brings_of_ended (by rw [hended]; exact nofun)]
    refine ⟨?_, rfl⟩
    unfold finishRead
    rw [length_nil, drop_zero, hserved]
  | none =>
    rw [hended] at htells
    dsimp only at htells ⊢
    by_cases hdata : s.brings op n = []
    · rw [if_pos hdata] at htells
      cases htells
      rw [if_neg fun hguard => ?_, if_pos hdata, hdata]
      · refine ⟨?_, rfl⟩
        unfold finishRead
        rw [length_nil, drop_zero, hserved]
      · unfold handler at hhandler
        rw [show s.waiting = none from hguard.2, h.called (hguards hguard.1)] at hhandler
        cases hhandler
    · rw [if_neg hdata] at htells
      cases htells

end Reads

structure Kind.Mute (k : Kind κ μ) : Prop where
  read : ∀ s size, Reads.Mute k.toFraming s (k.read s size)
  guards : k.guards = true → k.shares = false

theorem kindV2_mute (hash : Bytes) : (kindV2 hash).Mute := ⟨Reads.readV2_mute, nofun⟩

theorem kindV3_mute (mac : HmacSha1) : (kindV3 mac).Mute := ⟨Reads.readV3_mute mac, fun _ => rfl⟩

section Ends

variable {k : Kind κ μ} {stream : Bytes} {s : State κ μ}

theorem truthful_of_told (hk : k.Mute) (h : s.reads.Told k.toFraming stream) : Truthful k stream s := by
  refine ⟨fun answer hmem heof => (h.clean answer hmem heof).2, fun i n op id hop hposted hwaiting hbrings => ?_⟩
  have hhandler : s.reads.handler = some id := by
    unfold Reads.handler
    rw [hwaiting]
    rfl
  obtain ⟨e, he⟩ : ∃ e, s.reads.tells k.toFraming op n = some e := by
    unfold Reads.tells
    cases s.reads.ended with
    | some e => exact ⟨_, rfl⟩
    | none => exact ⟨.eof, if_pos hbrings⟩
  exact ⟨e, (Reads.lowerRead_results h hk.guards hop hposted hhandler he).1⟩

theorem step_told (hk : k.Mute) (s : State κ μ) (event : Event) (h : s.reads.Told k.toFraming stream)
    (hends : EndsWhole k stream s event) :
    (step k s event).reads.Told k.toFraming stream := by
  cases event with
  | read size => exact (hk.read s.reads size).told h
  | cancelRead => exact s.reads.cancelRead_mute.told h
  | lowerRead i n => exact Reads.lowerRead_told h hends
  | posted i => exact (s.reads.runPosted_mute i).told h
  | fail => exact s.reads.fail_mute.told h
  | write buffer => exact h
  | cancelWrite => exact h
  | lowerWritten i error => exact h
  | close =>
    change (close k s).reads.Told k.toFraming stream
    have hfail := s.reads.fail_mute.told h
    unfold close
    split
    · split
      · exact h
      · split
        · exact hfail
        · exact (Reads.finishRead_mute s.reads.fail _ (.error .operationAborted) nofun).told hfail
    · exact hfail

theorem step_truncated (hk : k.Mute) (s : State κ μ) (event : Event) (h : s.reads.Told k.toFraming stream)
    (hnot : ¬ EndsWhole k stream s event) :
    ¬ Truthful k stream (step k s event) := by
  cases event with
  | lowerRead i n =>
    unfold EndsWhole at hnot
    push Not at hnot
    obtain ⟨op, hop, hposted, hsome, heof, hinside⟩ := hnot
    obtain ⟨id, hid⟩ := Option.isSome_iff_exists.1 hsome
    obtain ⟨hresults, hwire⟩ := Reads.lowerRead_results h hk.guards hop hposted hid heof
    intro htruthful
    have hclean := htruthful.clean ⟨id, op.owner, .error .eof⟩ (by
      change _ ∈ (s.reads.lowerRead k.toFraming i n).results
      rw [hresults]
      exact mem_append_right _ mem_cons_self) rfl
    refine hinside ?_
    rw [← hwire]
    exact hclean
  | read size => exact absurd trivial hnot
  | cancelRead => exact absurd trivial hnot
  | posted i => exact absurd trivial hnot
  | fail => exact absurd trivial hnot
  | write buffer => exact absurd trivial hnot
  | cancelWrite => exact absurd trivial hnot
  | lowerWritten i error => exact absurd trivial hnot
  | close => exact absurd trivial hnot

theorem truthful_iff (hk : k.Mute) (h : s.reads.Told k.toFraming stream) (events : List Event) :
    (∀ pre, pre <+: events → Truthful k stream (Runs.run (step k) s pre)) ↔
    Runs.Along (step k) (EndsWhole k stream) s events :=
  Runs.forall_prefix_iff_along (P := fun s : State κ μ => s.reads.Told k.toFraming stream)
    (fun _ hs => truthful_of_told hk hs) (step_told hk)
    (step_truncated hk)
    h events

end Ends

end ShadowTls

namespace Restls.RestlsStream

variable (env : Env) {stream : Bytes} {s t : RestlsStream}

/-! ## ResTLS -/

structure Truthful (env : Env) (stream : Bytes) (s : RestlsStream) : Prop where
  clean : ∀ id, (id, .error .eof) ∈ s.readResults → Boundary stream (stream.length - s.wire.length)
  failed : ∀ n replies id, s.lowerRead.isSome = true → s.readHandler = some id → s.brings n = [] →
    ∃ e, (step env s ⟨.lowerRead n, replies⟩).readResults = s.readResults ++ [(id, .error e)]

def EndsWhole (stream : Bytes) (s : RestlsStream) (event : Event) : Prop :=
  match event.act with
  | .lowerRead n => s.lowerRead.isSome = true → s.readHandler.isSome = true → s.brings n = [] →
    s.lowerEnd = .eof →
      Boundary stream (stream.length - s.wire.length)
  | _ => True

def Told (stream : Bytes) (s : RestlsStream) : Prop :=
  ∀ id, (id, .error .eof) ∈ s.readResults → s.ended.isSome = true ∧
  Boundary stream (stream.length - s.wire.length)

structure Mute (s t : RestlsStream) : Prop where
  wire : t.wire = s.wire
  ended : s.ended.isSome = true → t.ended.isSome = true
  results : ∀ id, (id, .error .eof) ∈ t.readResults → (id, .error .eof) ∈ s.readResults

theorem Mute.refl (s : RestlsStream) : Mute s s := ⟨rfl, fun hended => hended, fun _ hmem => hmem⟩

theorem Mute.trans {u : RestlsStream} (h : Mute s t) (h' : Mute t u) : Mute s u :=
  ⟨h'.wire.trans h.wire, fun hended => h'.ended (h.ended hended),
    fun id hmem => h.results id (h'.results id hmem)⟩

theorem Mute.told (h : Mute s t) (hs : Told stream s) : Told stream t := by
  intro id hmem
  obtain ⟨hended, hboundary⟩ := hs id (h.results id hmem)
  rw [h.wire]
  exact ⟨h.ended hended, hboundary⟩

theorem Unread.mute (h : Unread s t) : Mute s t :=
  ⟨h.wire, fun hended => by rw [h.ended]; exact hended, fun id hmem => by rw [← h.readResults]; exact hmem⟩

theorem eof_mem_append {results : List (Nat × Except StreamError Bytes)}
    {last : Nat × Except StreamError Bytes} (h : last.2 ≠ .error .eof) :
    ∀ id, (id, .error .eof) ∈ results ++ [last] → (id, .error .eof) ∈ results := by
  intro id hmem
  rcases mem_append.1 hmem with hold | hlast
  · exact hold
  · rw [← mem_singleton.1 hlast] at h
    exact absurd rfl h

theorem finishRead_mute (s : RestlsStream) (result : Except StreamError Bytes)
    (h : result ≠ .error .eof) : Mute s (s.finishRead result) := by
  refine ⟨rfl, fun hended => hended, ?_⟩
  unfold finishRead
  cases s.readHandler with
  | none => exact fun _ hmem => hmem
  | some id => exact eof_mem_append h

theorem deliverPending_mute (s : RestlsStream) : Mute s s.deliverPending := by
  have hread := finishRead_mute { s with pendingPlain := s.pendingPlain.drop s.readBuffer }
    (.ok (s.pendingPlain.take s.readBuffer)) nofun
  exact { hread with }

theorem processWire_mute (n : Nat) : ∀ s : RestlsStream, Mute s (processWire env n s).2 := by
  induction n with
  | zero => exact .refl
  | succ n ih =>
    intro s
    unfold processWire
    split
    · exact .refl s
    · rename_i record readWire _
      have hread (decoder : RestlsApplicationCodec) : Mute s { s with readWire, decoder } :=
        ⟨rfl, fun hended => hended, fun _ hmem => hmem⟩
      split
      · exact (hread _).trans (finishRead_mute _ _ (fun heq => by cases heq))
      · rename_i decoded decoder _
        have hrecord : Mute s ({ s with readWire, decoder }.handleRecord env decoded) := by
          have hunread := (handleRecord_unread env { s with readWire, decoder } decoded).mute
          exact { hunread with }
        dsimp only
        split
        · exact hrecord.trans (deliverPending_mute _)
        · exact hrecord.trans (ih _)

theorem pumpRead_mute (s : RestlsStream) : Mute s (s.pumpRead env) := by
  have hwire := processWire_mute env s.readWire.length s
  unfold pumpRead
  split
  · exact .refl s
  · dsimp only
    split
    · exact hwire
    · exact { hwire with }

theorem readImpl_mute (s : RestlsStream) (size : Nat) : Mute s (s.readImpl env size) := by
  unfold readImpl
  split
  · exact ⟨rfl, fun hended => hended, eof_mem_append nofun⟩
  · split
    · exact ⟨rfl, fun hended => hended, eof_mem_append nofun⟩
    · have hparked : Mute s { s with readBuffer := size, readHandler := some s.reads, reads := s.reads + 1 } :=
        ⟨rfl, fun hended => hended, fun _ hmem => hmem⟩
      dsimp only
      split
      · exact hparked.trans (deliverPending_mute _)
      · exact hparked.trans (pumpRead_mute env _)

theorem lowerWritten_mute (s : RestlsStream) (fails : Bool) : Mute s (s.lowerWritten env fails) := by
  unfold lowerWritten
  cases s.inFlight with
  | none => exact .refl s
  | some lower =>
    cases lower with
    | data owner chunk needsResponse wire =>
      cases fails with
      | true =>
        have hfinished := (finishWrite_unread env { s with inFlight := none } (.error .transport)).mute
        exact { hfinished with }
      | false =>
        have hpumped := (pumpWrite_unread env (finishWrite_unread env) { s with
          inFlight := none, pendingWriteOffset := s.pendingWriteOffset + chunk, scriptIndex := s.scriptIndex + 1
          writeWaitingResponse := s.writeWaitingResponse || needsResponse && s.pendingWriteOffset + chunk <
            s.pendingWrite.length }).mute
        exact { hpumped with }
    | control wire =>
      cases fails with
      | true =>
        have hread := finishRead_mute { s with inFlight := none } (.error .transport) nofun
        exact Mute.trans { hread with } (finishWrite_unread env _ _).mute
      | false =>
        have hcontrol := (pumpControlWrite_unread env (finishWrite env) { s with
          inFlight := none, pendingControlResponses := s.pendingControlResponses - 1,
            scriptIndex := s.scriptIndex + 1 }).mute
        exact Mute.trans { hcontrol with } (pumpWrite_unread env (finishWrite_unread env) _).mute

theorem finishRead_results {id : Nat} (hid : s.readHandler = some id) (result : Except StreamError Bytes) :
    (s.finishRead result).readResults = s.readResults ++ [(id, result)] := by
  unfold finishRead
  rw [hid]

variable {n : Nat}

theorem lowerReadDone_ends (h : s.lowerRead.isSome = true) (hbrings : s.brings n = []) :
    ∃ t : RestlsStream, t.readHandler = s.readHandler ∧ t.readResults = s.readResults ∧ t.wire = s.wire ∧
    t.ended.isSome = true ∧
      s.lowerReadDone env n = t.finishRead (.error s.lowerEnd) := by
  obtain ⟨reader, hreader⟩ := Option.isSome_iff_exists.1 h
  unfold lowerReadDone
  rw [hreader]
  dsimp only
  rw [if_pos hbrings]
  cases reader with
  | pump => exact ⟨{ s with lowerRead := none, ended := some s.lowerEnd }, rfl, rfl, rfl, rfl, rfl⟩
  | control =>
    have hunread := finishWrite_unread env { s with lowerRead := none, ended := some s.lowerEnd }
      (.error s.lowerEnd)
    exact ⟨_, hunread.readHandler, hunread.readResults, hunread.wire, by rw [hunread.ended]; rfl, rfl⟩

theorem lowerReadDone_told (h : Told stream s) (hends : s.lowerRead.isSome = true →
    s.readHandler.isSome = true → s.brings n = [] →
    s.lowerEnd = .eof → Boundary stream (stream.length - s.wire.length)) : Told stream
    (s.lowerReadDone env n) := by
  by_cases hlower : s.lowerRead.isSome = true
  · by_cases hbrings : s.brings n = []
    · obtain ⟨t, hhandler, hresults, hwire, hended, heq⟩ := lowerReadDone_ends env hlower hbrings
      rw [heq]
      intro id hmem
      refine ⟨hended, ?_⟩
      change Boundary stream (stream.length - t.wire.length)
      rw [hwire]
      cases hid : s.readHandler with
      | none =>
        unfold finishRead at hmem
        rw [hhandler, hid] at hmem
        exact (h id (hresults ▸ hmem)).2
      | some other =>
        rw [finishRead_results (hhandler.trans hid), hresults] at hmem
        rcases mem_append.1 hmem with hold | hlast
        · exact (h id hold).2
        · have hresult := (Prod.ext_iff.1 (mem_singleton.1 hlast)).2
          exact hends hlower (by rw [hid]; rfl) hbrings (Except.error.inj hresult).symm
    · have hopen := ended_of_brings hbrings
      have hnone : ∀ id, (id, .error .eof) ∉ s.readResults := fun id hmem => by
        have hsome := (h id hmem).1
        rw [hopen] at hsome
        cases hsome
      obtain ⟨reader, hreader⟩ := Option.isSome_iff_exists.1 hlower
      intro id hmem
      refine absurd ?_ (hnone id)
      unfold lowerReadDone at hmem
      rw [hreader] at hmem
      dsimp only at hmem
      rw [if_neg hbrings] at hmem
      cases reader with
      | pump =>
        exact (pumpRead_mute env { s with
          lowerRead := none, wire := s.wire.drop (s.brings n).length,
            readWire := s.readWire ++ s.brings n }).results id hmem
      | control =>
        dsimp only at hmem
        have hwire := processWire_mute env (s.readWire ++ s.brings n).length
          { s with
            lowerRead := none, wire := s.wire.drop (s.brings n).length,
            readWire := s.readWire ++ s.brings n }
        split at hmem
        · rename_i hwaiting
          exact hwire.results id ((ensureControlRead_unread hwaiting).mute.results id hmem)
        · exact hwire.results id hmem
  · have hsame : s.lowerReadDone env n = s := by
      unfold lowerReadDone
      rw [Option.not_isSome_iff_eq_none.1 hlower]
    rw [hsame]
    exact h

theorem truthful_of_told (h : Told stream s) : Truthful env stream s := by
  refine ⟨fun id hmem => (h id hmem).2, fun n replies id hlower hid hbrings => ⟨s.lowerEnd, ?_⟩⟩
  obtain ⟨t, hhandler, hresults, -, -, heq⟩ := lowerReadDone_ends env (s := { s with replies }) hlower hbrings
  change (lowerReadDone env { s with replies } n).readResults = _
  rw [heq, finishRead_results (hhandler.trans hid), hresults]
  rfl

theorem step_told (s : RestlsStream) (event : Event) (h : Told stream s)
    (hends : EndsWhole stream s event) : Told stream (step env s event) := by
  obtain ⟨act, replies⟩ := event
  have hs : Told stream { s with replies } := h
  cases act with
  | read size => exact (readImpl_mute env _ size).told hs
  | cancelRead =>
    change Told stream (cancelRead { s with replies })
    unfold cancelRead
    split
    · exact hs
    · exact (finishRead_mute { s with replies, readBuffer := 0 } (.error .operationAborted) nofun).told h
  | write buffer => exact (writeImpl_unread env (finishWrite_unread env) _ buffer).mute.told hs
  | cancelWrite =>
    change Told stream (cancelWrite { s with replies })
    unfold cancelWrite
    split
    · exact hs
    · exact h
  | lowerRead n => exact lowerReadDone_told env hs hends
  | lowerWritten fails => exact (lowerWritten_mute env _ fails).told hs
  | fail => exact fun id hmem => ⟨fail_ended _, (h id hmem).2⟩
  | close =>
    have hread := finishRead_mute (fail { s with replies }) (.error .operationAborted) nofun
    exact Mute.told (Mute.trans hread (finishWrite_unread env _ _).mute) fun id hmem =>
      ⟨fail_ended _, (h id hmem).2⟩

theorem step_truncated (s : RestlsStream) (event : Event) (_ : Told stream s)
    (hnot : ¬ EndsWhole stream s event) :
    ¬ Truthful env stream (step env s event) := by
  obtain ⟨act, replies⟩ := event
  cases act with
  | lowerRead n =>
    unfold EndsWhole at hnot
    dsimp only at hnot
    push Not at hnot
    obtain ⟨hlower, hparked, hbrings, hend, hinside⟩ := hnot
    obtain ⟨id, hid⟩ := Option.isSome_iff_exists.1 hparked
    obtain ⟨t, hhandler, hresults, hwire, -, heq⟩ :=
      lowerReadDone_ends env (s := { s with replies }) hlower hbrings
    intro htruthful
    have hclean := htruthful.clean id (by
      change _ ∈ (lowerReadDone env { s with replies } n).readResults
      rw [heq, finishRead_results (hhandler.trans hid)]
      refine mem_append_right _ (mem_singleton.2 ?_)
      rw [show lowerEnd { s with replies } = .eof from hend])
    refine hinside ?_
    change Boundary stream (stream.length - (lowerReadDone env { s with replies } n).wire.length) at hclean
    rw [heq] at hclean
    change Boundary stream (stream.length - t.wire.length) at hclean
    rwa [hwire] at hclean
  | read size => exact absurd trivial hnot
  | cancelRead => exact absurd trivial hnot
  | write buffer => exact absurd trivial hnot
  | cancelWrite => exact absurd trivial hnot
  | lowerWritten fails => exact absurd trivial hnot
  | fail => exact absurd trivial hnot
  | close => exact absurd trivial hnot

end Restls.RestlsStream

/-- **The end is told as it is** in every state of a run on the camouflage streams, exactly when every
lower read that tells a read the end of file does so between two records. -/
theorem ends_told_truly_iff (env : Restls.Env) (secret serverRandom : List UInt8) (tls12Gcm : Bool)
    (initialAuthExtra : List UInt8)
    (script : List Restls.RestlsScriptLine) (hash : List UInt8) (mac : ShadowTlsV3.HmacSha1)
    (chains : ShadowTlsV3.Chains)
    (mark pending initialWire wire : List UInt8) (restlsEvents : List Restls.RestlsStream.Event)
    (events : List ShadowTls.Event) :
    let restls := Restls.RestlsStream.opened secret serverRandom tls12Gcm initialAuthExtra script initialWire
      wire
    let v2 := ShadowTls.opened () false [] [] wire
    let v3 := ShadowTls.opened chains mark pending initialWire wire
    ((∀ pre, pre <+: restlsEvents → (Runs.run (Restls.RestlsStream.step env) restls pre).Truthful env
      (initialWire ++ wire)) ↔
        Runs.Along (Restls.RestlsStream.step env) (Restls.RestlsStream.EndsWhole (initialWire ++ wire))
        restls restlsEvents) ∧
      ((∀ pre, pre <+: events → ShadowTls.Truthful (ShadowTls.kindV2 hash) wire
        (Runs.run (ShadowTls.step (ShadowTls.kindV2 hash)) v2 pre)) ↔
        Runs.Along (ShadowTls.step (ShadowTls.kindV2 hash))
        (ShadowTls.EndsWhole (ShadowTls.kindV2 hash) wire) v2 events) ∧
      ((∀ pre, pre <+: events →
          ShadowTls.Truthful (ShadowTls.kindV3 mac) (initialWire ++ wire)
          (Runs.run (ShadowTls.step (ShadowTls.kindV3 mac)) v3 pre)) ↔
        Runs.Along (ShadowTls.step (ShadowTls.kindV3 mac))
          (ShadowTls.EndsWhole (ShadowTls.kindV3 mac) (initialWire ++ wire)) v3 events) := by
  intro restls v2 v3
  refine ⟨?_, ?_, ?_⟩
  · exact Runs.forall_prefix_iff_along (P := Restls.RestlsStream.Told (initialWire ++ wire))
      (fun _ hs => Restls.RestlsStream.truthful_of_told env hs)
      (Restls.RestlsStream.step_told env) (Restls.RestlsStream.step_truncated env)
      (fun _ hmem => absurd hmem not_mem_nil) restlsEvents
  · exact ShadowTls.truthful_iff (ShadowTls.kindV2_mute hash) ⟨fun _ hmem => absurd hmem not_mem_nil,
      fun _ => rfl⟩ events
  · exact ShadowTls.truthful_iff (ShadowTls.kindV3_mute mac) ⟨fun _ hmem => absurd hmem not_mem_nil,
      fun _ => rfl⟩ events

/-- Each of the streams is cut inside of a record, and its read is told the end of file. -/
theorem cut_records_end_cleanly :
    let cut : List UInt8 := [23, 3, 3, 0, 9, 1]
    let restls := Runs.run (Restls.RestlsStream.step ⟨Restls.exampleHash, fun _ => 0⟩)
      (Restls.RestlsStream.opened [9] [5] false [] [] [] cut)
      [⟨.read 4, []⟩, ⟨.lowerRead 100, []⟩, ⟨.lowerRead 100, []⟩]
    let events := [ShadowTls.Event.read 4, .lowerRead 0 5, .posted 0, .lowerRead 0 5, .lowerRead 0 5]
    let v2 := Runs.run (ShadowTls.step (ShadowTls.kindV2 [])) (ShadowTls.opened () false [] [] cut) events
    let v3 := Runs.run (ShadowTls.step (ShadowTls.kindV3 ShadowTlsV3.exampleMac))
      (ShadowTls.opened ⟨[], [7]⟩ [7] [] [] cut) events
    ¬ Boundary cut 6 ∧ restls.readResults = [(0, .error .eof)] ∧
    v2.reads.results.map (·.result) = [.error .eof] ∧
      v3.reads.results.map (·.result) = [.error .eof] := by
  decide +kernel

end ClashNative
