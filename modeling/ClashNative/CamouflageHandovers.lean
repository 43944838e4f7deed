import ClashNative.CamouflageOpens
/-!
# CamouflageHandovers — what an opening hands over

Where an opening succeeds, what the engine has sent is written, and what has come behind its last record
is kept: of JLS and of Shadow-TLS v3 in every run, of ResTLS where the engine sends nothing with the
record that completes the handshake.
-/
namespace ClashNative.Camouflage

open List

open Restls (RestlsStream KeyedHash kTlsRecordHeaderLength)
open ShadowTlsV3 (Chains)

/-! ## The records of the engine -/

theorem records_append (outputs more : List Output) :
    records (outputs ++ more) = records outputs ++ records more := filterMap_append

theorem plaintext_append (outputs more : List Output) :
    plaintext (outputs ++ more) = plaintext outputs ++ plaintext more := flatMap_append

theorem take_drop_length (wire : Bytes) (n : Nat) : wire.take n ++ wire.drop (wire.take n).length = wire := by
  obtain ⟨rest, hrest⟩ := take_prefix n wire
  generalize wire.take n = front at hrest ⊢
  rw [← hrest, drop_left]

namespace Outbox

/-- **What was emitted** is written, on its way, or waits. -/
def emitted (box : Outbox) : List Bytes := box.written ++ box.current.toList ++ box.queue

theorem emitted_push (box : Outbox) (record : Bytes) :
    (box.push record).emitted = box.emitted ++ [record] := (append_assoc _ _ _).symm

theorem emitted_next {box : Outbox} (h : box.current = none) : box.next.emitted = box.emitted := by
  unfold next emitted
  cases hqueue : box.queue with
  | nil => rw [hqueue]
  | cons record queue =>
    rw [h]
    simp

theorem emitted_land (box : Outbox) : box.land.emitted = box.emitted := by
  unfold land emitted
  simp

theorem written_eq_iff (box : Outbox) : box.written = box.emitted ↔ box.current = none ∧ box.queue = [] := by
  unfold emitted
  cases box.current with
  | none => simp
  | some record => simp

end Outbox

/-! ## ResTLS -/

namespace RestlsOpen

variable {σ : Type} (E : Engine σ) (hash : KeyedHash) (options : RestlsOptions) {s : RestlsOpen σ}

/-- **The opening hands over completely**: what the engine has sent is written, in its order, and what the
peer has sent behind the records that the engine was given is left for the stream. -/
def HandsOver (peer : Bytes) (s : RestlsOpen σ) : Prop :=
  ∀ stream, s.result = some (.ok stream) → s.box.written = records s.outputs ∧
  s.consumed.flatten ++ stream.readWire ++ stream.wire = peer

def Exposes (s : RestlsOpen σ) : Prop := s.serverRandom.length = 32 ∧ s.lastClientFinished ≠ []

/-- The records in front do not complete the handshake with something sent: not with the record that
completes it, nor with one before it. -/
def Silent : Nat → RestlsOpen σ → Prop
  | 0, _ => True
  | n + 1, s =>
    match RestlsStream.nextRecord s.tlsInput with
    | none => True
    | some (front, rest) =>
      let (record, t) := s.takeRecord hash options front rest
      match E.receivedData t.engine record with
      | (_, .error _) => True
      | (outputs, .ok engine) =>
        if E.isHandshakeComplete engine then (t.tell outputs).Exposes → t.box.queue = [] ∧ records outputs = []
        else Silent n { t.tell outputs with engine }

/-- **The condition**: the records that a read brings do not complete the handshake with something sent.
-/
def Flushed (s : RestlsOpen σ) (act : Act) : Prop :=
  match act with
  | .lowerRead n =>
    let data := s.wire.take (min n (16 * 1024))
    let t := { s with reading := false, tlsInput := s.tlsInput ++ data, wire := s.wire.drop data.length }
    s.result = none → s.reading = true → data ≠ [] → Silent E hash options t.tlsInput.length t
  | _ => True

structure Going (peer : Bytes) (s : RestlsOpen σ) : Prop where
  emitted : s.box.emitted = records s.outputs
  bytes : s.consumed.flatten ++ s.tlsInput ++ s.wire = peer

structure Inv (peer : Bytes) (s : RestlsOpen σ) : Prop where
  going : s.result = none → Going peer s
  idle : s.result = none → s.reading = true → s.box.current = none ∧ s.box.queue = []
  handsOver : HandsOver peer s

variable {peer : Bytes}

theorem tell_eq (s : RestlsOpen σ) (outputs : List Output) : ∃ last, s.tell outputs = { s with
    outputs := s.outputs ++ outputs, box :=
    { s.box with queue := s.box.queue ++ records outputs }, lastClientFinished := last } := by
  unfold tell
  generalize s.outputs ++ outputs = all
  induction outputs generalizing s with
  | nil => exact ⟨s.lastClientFinished, by rw [foldl_nil, show records [] = [] from rfl, append_nil]⟩
  | cons output outputs ih =>
    cases output with
    | plain bytes => exact ih s
    | record bytes complete =>
      obtain ⟨last, hlast⟩ := ih { s with
        box := s.box.push bytes
        lastClientFinished := if complete then s.lastClientFinished else
          lastFinished bytes.length s.lastClientFinished bytes }
      exact ⟨last, hlast.trans (by simp [Outbox.push, records])⟩

theorem takeRecord_eq (s : RestlsOpen σ) (front rest : Bytes) :
    ∃ serverRandom serverTls12Gcm serverCcsSeen serverAuthUnmasked,
    (s.takeRecord hash options front rest).2 = { s with
      tlsInput := rest, consumed := s.consumed ++ [front], serverRandom, serverTls12Gcm, serverCcsSeen,
      serverAuthUnmasked } := by
  unfold takeRecord rememberServerRandom
  dsimp only
  split
  · exact ⟨_, _, _, _, rfl⟩
  · exact ⟨_, _, _, _, rfl⟩

variable {wire : Bytes}

theorem nextRecord_append {front rest : Bytes} (h : RestlsStream.nextRecord wire = some (front, rest)) :
    front ++ rest = wire := by
  unfold RestlsStream.nextRecord at h
  dsimp only at h
  split at h
  · cases h
  · cases h
    exact take_append_drop _ _

theorem nextRecord_short (h : wire.length < kTlsRecordHeaderLength) : RestlsStream.nextRecord wire = none :=
  if_pos (Or.inl h)

theorem nextRecord_oversize (h : Restls.kMaxTlsRecordPayload < Wire.getU16 (wire.drop 3)) :
    RestlsStream.nextRecord wire = none :=
  if_pos (.inr (.inl h))

theorem handsOver_of_none (h : s.result = none) : HandsOver peer s :=
  fun _ hopened => absurd (h.symm.trans hopened) nofun

theorem handsOver_of_error {e : Error} (h : s.result = some (.error e)) : HandsOver peer s :=
  fun stream hopened => by
  rw [h] at hopened
  cases hopened

theorem finish_error (h : s.result = none) (e : Error) : (s.finish (.error e)).result = some (.error e) := by
  unfold finish
  rw [h]
  rfl

theorem openRestlsStream_spec (hnone : s.result = none) (h : Going peer s) (hcurrent : s.box.current = none) :
    (s.openRestlsStream options).result ≠ none ∧
    (HandsOver peer (s.openRestlsStream options) ↔ (s.Exposes → s.box.queue = [])) := by
  unfold openRestlsStream
  by_cases hexposes : s.Exposes
  · rw [if_neg (not_or.2 ⟨not_not.2 hexposes.1, hexposes.2⟩)]
    unfold finish
    rw [hnone, if_neg (show ¬ (none : Option (Except Error RestlsStream)).isSome = true from Bool.false_ne_true)]
    refine ⟨nofun, fun hover _ => ?_, fun hqueue stream hopened => ?_⟩
    · have hwritten := (hover _ rfl).1.trans h.emitted.symm
      exact ((s.box.written_eq_iff).1 hwritten).2
    · cases hopened
      exact ⟨((s.box.written_eq_iff).2 ⟨hcurrent, hqueue hexposes⟩).trans h.emitted, h.bytes⟩
  · rw [if_pos (by
      unfold Exposes at hexposes
      rwa [not_and_or, not_not] at hexposes)]
    have herror := finish_error hnone ⟨.protocolFraming,
      "ResTLS TLS handshake did not expose ServerHello and Finished records"⟩
    exact ⟨fun heq => absurd (herror.symm.trans heq) nofun, fun _ hyes => absurd hyes hexposes,
      fun _ => handsOver_of_error herror⟩

/-- **`process_tls_records`**: what has come is kept, and where it opens the stream it does so completely
iff the engine is silent. -/
theorem processTlsRecords_spec (n : Nat) :
    ∀ {s : RestlsOpen σ}, s.result = none → Going peer s → s.box.current = none → s.reading = false →
    let t := s.processTlsRecords E hash options n
    (t.result = none → Going peer t ∧ t.box.current = none ∧ t.reading = false) ∧
    (HandsOver peer t ↔ Silent E hash options n s) := by
  induction n with
  | zero => exact fun hnone h hcurrent hreading =>
    ⟨fun _ => ⟨h, hcurrent, hreading⟩, fun _ => trivial, fun _ => handsOver_of_none hnone⟩
  | succ n ih =>
    intro s hnone h hcurrent hreading
    have hsame : (s.result = none → Going peer s ∧ s.box.current = none ∧ s.reading = false) ∧
      (HandsOver peer s ↔ True) :=
      ⟨fun _ => ⟨h, hcurrent, hreading⟩, fun _ => trivial, fun _ => handsOver_of_none hnone⟩
    have hfails {t : RestlsOpen σ} (ht : t.result = none) (e : Error) :
        ((t.finish (.error e)).result = none → Going peer (t.finish (.error e)) ∧
          (t.finish (.error e)).box.current = none ∧
          (t.finish (.error e)).reading = false) ∧ (HandsOver peer (t.finish (.error e)) ↔ True) :=
      ⟨fun heq => absurd ((finish_error ht e).symm.trans heq) nofun, fun _ => trivial,
        fun _ => handsOver_of_error (finish_error ht e)⟩
    unfold processTlsRecords Silent
    by_cases hshort : s.tlsInput.length < kTlsRecordHeaderLength
    · rw [if_pos (.inr hshort), nextRecord_short hshort]
      exact hsame
    · rw [if_neg (by rw [hnone]; exact fun hor => hor.elim Bool.false_ne_true hshort)]
      by_cases hlarge : Restls.kMaxTlsRecordPayload < Wire.getU16 (s.tlsInput.drop 3)
      · rw [if_pos hlarge, nextRecord_oversize hlarge]
        exact hfails hnone _
      · rw [if_neg hlarge]
        cases hrecord : RestlsStream.nextRecord s.tlsInput with
        | none => exact hsame
        | some found =>
          obtain ⟨front, rest⟩ := found
          obtain ⟨serverRandom, serverTls12Gcm, serverCcsSeen, serverAuthUnmasked, htaken⟩ :=
            takeRecord_eq hash options s front rest
          dsimp only
          generalize s.takeRecord hash options front rest = taken at htaken ⊢
          obtain ⟨record, t⟩ := taken
          dsimp only at htaken ⊢
          have ht : t.result = none ∧ Going peer t ∧ t.box.current = none ∧ t.reading = false := by
            rw [htaken]
            refine ⟨hnone, ⟨h.emitted, ?_⟩, hcurrent, hreading⟩
            have hbytes := h.bytes
            rw [← nextRecord_append hrecord] at hbytes
            simpa using hbytes
          obtain ⟨htnone, htgoing, htcurrent, htreading⟩ := ht
          generalize E.receivedData t.engine record = received
          obtain ⟨outputs, result⟩ := received
          obtain ⟨last, htold⟩ := tell_eq t outputs
          cases result with
          | error what =>
            refine hfails ?_ _
            rw [htold]
            exact htnone
          | ok engine =>
            have hu : ({ t.tell outputs with engine } : RestlsOpen σ).result = none ∧
              Going peer { t.tell outputs with engine } ∧
                ({ t.tell outputs with engine } : RestlsOpen σ).box.current = none ∧
                ({ t.tell outputs with engine } : RestlsOpen σ).reading = false := by
              rw [htold]
              refine ⟨htnone, ⟨?_, htgoing.bytes⟩, htcurrent, htreading⟩
              have hemitted := htgoing.emitted
              rw [records_append, ← hemitted]
              exact (append_assoc _ _ _).symm
            obtain ⟨hunone, hugoing, hucurrent, hureading⟩ := hu
            dsimp only
            by_cases hcomplete : E.isHandshakeComplete engine = true
            · rw [if_pos hcomplete, if_pos hcomplete]
              obtain ⟨hsome, hover⟩ := openRestlsStream_spec options hunone hugoing hucurrent
              refine ⟨fun heq => absurd heq hsome, hover.trans ?_⟩
              have hqueue : (t.tell outputs).box.queue = t.box.queue ++ records outputs := by rw [htold]
              have hnil : (t.tell outputs).box.queue = [] ↔ t.box.queue = [] ∧
                records outputs = [] := by rw [hqueue, append_eq_nil_iff]
              exact forall_congr' fun _ => hnil
            · rw [if_neg hcomplete, if_neg hcomplete]
              exact ih hunone hugoing hucurrent hureading

theorem runOpen_inv (h : s.result = none → Going peer s ∧ s.box.current = none ∧ s.reading = false)
    (hover : HandsOver peer s) :
    Inv peer (s.runOpen E) := by
  unfold runOpen
  by_cases hresult : s.result.isSome = true
  · rw [if_pos hresult]
    have hsome := Option.isSome_iff_ne_none.1 hresult
    exact ⟨fun heq => absurd heq hsome, fun heq => absurd heq hsome, hover⟩
  · rw [if_neg hresult]
    have hnone := Option.not_isSome_iff_eq_none.1 hresult
    obtain ⟨hgoing, hcurrent, hreading⟩ := h hnone
    by_cases hqueue : s.box.queue = []
    · rw [if_neg (not_not.2 hqueue)]
      split
      · exact ⟨fun _ => hgoing, fun _ hreads => absurd (hreading.symm.trans hreads) Bool.false_ne_true, hover⟩
      · exact ⟨fun _ => ⟨hgoing.emitted, hgoing.bytes⟩, fun _ _ => ⟨hcurrent, hqueue⟩, handsOver_of_none hnone⟩
    · rw [if_pos hqueue]
      exact ⟨fun _ => ⟨(Outbox.emitted_next hcurrent).trans hgoing.emitted, hgoing.bytes⟩,
        fun _ hreads => absurd (hreading.symm.trans hreads) Bool.false_ne_true, handsOver_of_none hnone⟩

theorem handsOver_runOpen : HandsOver peer (s.runOpen E) ↔ HandsOver peer s := by
  unfold runOpen
  by_cases hresult : s.result.isSome = true
  · rw [if_pos hresult]
  · rw [if_neg hresult]
    have hnone := Option.not_isSome_iff_eq_none.1 hresult
    refine ⟨fun _ => handsOver_of_none hnone, fun h => ?_⟩
    split
    · exact handsOver_of_none hnone
    · split
      · exact h
      · exact handsOver_of_none hnone

theorem Inv.brought (h : Inv peer s) (hnone : s.result = none) (n : Nat) :
    Going peer { s with reading := false, tlsInput :=
      s.tlsInput ++ s.wire.take n, wire := s.wire.drop (s.wire.take n).length } := by
  refine ⟨(h.going hnone).emitted, ?_⟩
  have hbytes := (h.going hnone).bytes
  have hsplit := take_drop_length s.wire n
  rw [← hbytes, ← append_assoc, append_assoc _ (s.wire.take n), hsplit]

theorem Inv.failed (h : s.result = none) (e : Error) : Inv peer (s.finish (.error e)) := by
  have herror := finish_error h e
  exact ⟨fun heq => absurd (herror.symm.trans heq) nofun, fun heq => absurd (herror.symm.trans heq) nofun,
    handsOver_of_error herror⟩

theorem step_spec (s : RestlsOpen σ) (act : Act) (h : Inv peer s) :
    (Flushed E hash options s act → Inv peer (step E hash options s act)) ∧
      (¬ Flushed E hash options s act → ¬ HandsOver peer (step E hash options s act)) := by
  by_cases hresult : s.result.isSome = true
  · have hstays : step E hash options s act = s := if_pos hresult
    rw [hstays]
    refine ⟨fun _ => h, fun hnot => absurd ?_ hnot⟩
    unfold Flushed
    split
    · exact fun hnone => absurd hnone (Option.isSome_iff_ne_none.1 hresult)
    · trivial
  · have hnone := Option.not_isSome_iff_eq_none.1 hresult
    unfold step
    rw [if_neg hresult]
    cases act with
    | lowerWritten failure =>
      refine ⟨fun _ => ?_, fun hnot => absurd trivial hnot⟩
      dsimp only
      split
      · exact h
      · rename_i hcurrent
        cases failure with
        | some failure => exact Inv.failed hnone _
        | none =>
          have hidle : s.reading = false := by
            by_contra hreads
            exact hcurrent (h.idle hnone (eq_true_of_ne_false hreads)).1
          exact runOpen_inv E (fun _ => ⟨⟨(s.box.emitted_land).trans (h.going hnone).emitted,
            (h.going hnone).bytes⟩, rfl, hidle⟩)
            (handsOver_of_none hnone)
    | lowerRead n =>
      dsimp only [Flushed]
      by_cases hreads : s.reading = false
      · rw [if_pos hreads]
        exact ⟨fun _ => h, fun hnot => absurd
          (fun _ hyes => absurd (hreads.symm.trans hyes) Bool.false_ne_true) hnot⟩
      · rw [if_neg hreads]
        by_cases hdata : s.wire.take (min n (16 * 1024)) = []
        · rw [if_pos hdata]
          exact ⟨fun _ => Inv.failed hnone _, fun hnot => absurd (fun _ _ hsome => absurd hdata hsome) hnot⟩
        · rw [if_neg hdata]
          have hcurrent := (h.idle hnone (eq_true_of_ne_false hreads)).1
          have hbrought := h.brought hnone (min n (16 * 1024))
          generalize s.wire.take (min n (16 * 1024)) = data at hbrought hdata ⊢
          obtain ⟨hgoes, hover⟩ := processTlsRecords_spec E hash options (s.tlsInput ++ data).length
            (s := { s with
              reading := false, tlsInput := s.tlsInput ++ data, wire := s.wire.drop data.length })
            hnone hbrought hcurrent rfl
          refine ⟨fun hflushed => runOpen_inv E hgoes
            (hover.2 (hflushed hnone (eq_true_of_ne_false hreads) hdata)), fun hnot => ?_⟩
          rw [handsOver_runOpen, hover]
          exact fun hsilent => hnot fun _ _ _ => hsilent
    | readThrows =>
      exact ⟨fun _ => ⟨fun _ => ⟨(h.going hnone).emitted, (h.going hnone).bytes⟩, nofun,
        handsOver_of_none hnone⟩,
        fun hnot => absurd trivial hnot⟩
    | timeout =>
      refine ⟨fun _ => ?_, fun hnot => absurd trivial hnot⟩
      dsimp only
      split
      · exact Inv.failed hnone _
      · exact h
    | abort => exact ⟨fun _ => Inv.failed hnone _, fun hnot => absurd trivial hnot⟩

theorem start_inv (engine : σ) (hello : List Output) (wire : Bytes) : Inv wire (start E engine hello wire) := by
  unfold start
  obtain ⟨last, htold⟩ := tell_eq ({ engine, wire } : RestlsOpen σ) hello
  rw [htold]
  exact runOpen_inv E (fun _ => ⟨⟨rfl, rfl⟩, rfl, rfl⟩) (handsOver_of_none rfl)

end RestlsOpen
/-! ## JLS -/

namespace JlsOpen

variable {σ : Type} (E : Engine σ) {s : JlsOpen σ} {peer : Bytes}

/-- **The opening hands over completely**: what the engine has sent is written, and the stream has the
engine, what it was told of the peer's plaintext, and what it was not given. -/
def HandsOver (peer : Bytes) (s : JlsOpen σ) : Prop :=
  ∀ stream, s.result = some (.ok stream) → s.box.written = records s.outputs ∧ stream.engine = s.engine ∧
    stream.pendingPlain = plaintext s.outputs ∧ s.told ++ stream.wire = peer

structure Going (peer : Bytes) (s : JlsOpen σ) : Prop where
  emitted : s.box.emitted = records s.outputs
  plain : s.pendingPlain = plaintext s.outputs
  bytes : s.told ++ s.wire = peer

structure Inv (peer : Bytes) (s : JlsOpen σ) : Prop where
  going : s.result = none → Going peer s
  idle : s.result = none → s.reading = true → s.box.current = none ∧ s.handshakeComplete = false
  handsOver : HandsOver peer s

theorem handsOver_of_none (h : s.result = none) : HandsOver peer s :=
  fun _ hopened => absurd (h.symm.trans hopened) nofun

theorem maybeOpen_of_incomplete (h : s.handshakeComplete = false) : s.maybeOpen E = s :=
  if_pos (Or.inr (Or.inl h))

theorem tell_eq (outputs : List Output) (hnone : s.result = none) (h :
    s.handshakeComplete = false) : s.tell E outputs = { s with
    outputs := s.outputs ++ outputs, box := { s.box with queue := s.box.queue ++ records outputs }
    pendingPlain := s.pendingPlain ++ plaintext outputs } := by
  unfold tell
  generalize s.outputs ++ outputs = all
  induction outputs generalizing s with
  | nil => rw [foldl_nil, show records [] = [] from rfl, show plaintext [] = [] from rfl, append_nil, append_nil]
  | cons output outputs ih =>
    rw [foldl_cons]
    cases output with
    | plain bytes =>
      refine (ih (s := { s with pendingPlain := s.pendingPlain ++ bytes }) hnone h).trans ?_
      simp [records, plaintext]
    | record bytes complete =>
      have hone : tellOne E { s with outputs := all } (.record bytes complete) =
        { s with outputs := all, box := s.box.push bytes } := by
        rw [hnone]
        exact maybeOpen_of_incomplete E h
      rw [hone]
      refine (ih (s := { s with box := s.box.push bytes }) hnone h).trans ?_
      simp [records, plaintext, Outbox.push]

theorem Inv.failed (h : s.result = none) (e : Error) : Inv peer (s.finish (.error e)) := by
  have herror : (s.finish (.error e)).result = some (.error e) := by
    unfold finish
    rw [h]
    rfl
  exact ⟨fun heq => absurd (herror.symm.trans heq) nofun, fun heq => absurd (herror.symm.trans heq) nofun,
    fun _ hopened => by rw [herror] at hopened; cases hopened⟩

theorem runOpen_inv (hnone : s.result = none) (h : Going peer s) (hcurrent : s.box.current = none)
    (hreading : s.reading = false) :
    Inv peer (s.runOpen E) := by
  unfold runOpen
  rw [if_neg (by simp [hnone])]
  by_cases hqueue : s.box.queue = []
  · rw [if_neg (not_not.2 hqueue)]
    unfold maybeOpen
    by_cases hstays : s.result.isSome ∨ s.handshakeComplete = false ∨ s.box.queue ≠ []
    · rw [if_pos hstays]
      have hincomplete : s.handshakeComplete = false := by
        rcases hstays with hsome | hincomplete | hwaits
        · exact absurd hnone (Option.isSome_iff_ne_none.1 hsome)
        · exact hincomplete
        · exact absurd hqueue hwaits
      dsimp only
      split
      · exact ⟨fun _ => h, fun _ hreads => absurd (hreading.symm.trans hreads) Bool.false_ne_true,
          handsOver_of_none hnone⟩
      · exact ⟨fun _ => { h with }, fun _ _ => ⟨hcurrent, hincomplete⟩, handsOver_of_none hnone⟩
    · rw [if_neg hstays]
      by_cases hauthenticated : E.authenticated s.engine = false
      · rw [if_pos hauthenticated]
        have hfailed : Inv peer _ := Inv.failed hnone ⟨.authentication,
          "JLS TLS handshake did not authenticate the peer"⟩
        have hsome : (s.finish (.error ⟨.authentication,
          "JLS TLS handshake did not authenticate the peer"⟩)).result.isSome = true := by
          unfold finish
          split
          · assumption
          · rfl
        rw [if_pos (.inl hsome)]
        exact hfailed
      · rw [if_neg hauthenticated]
        refine ⟨nofun, nofun, fun stream hopened => ?_⟩
        cases hopened
        exact ⟨((s.box.written_eq_iff).2 ⟨hcurrent, hqueue⟩).trans h.emitted, rfl, h.plain, h.bytes⟩
  · rw [if_pos hqueue]
    exact ⟨fun _ => { h with emitted := (Outbox.emitted_next hcurrent).trans h.emitted },
      fun _ hreads => absurd (hreading.symm.trans hreads) Bool.false_ne_true, handsOver_of_none hnone⟩

theorem Going.told (h : Going peer s) (hnone : s.result = none) (hincomplete : s.handshakeComplete = false)
    (outputs : List Output) :
    Going peer (s.tell E outputs) := by
  rw [tell_eq E outputs hnone hincomplete]
  refine ⟨?_, ?_, h.bytes⟩
  · have hemitted := h.emitted
    rw [records_append, ← hemitted]
    exact (append_assoc _ _ _).symm
  · rw [plaintext_append, h.plain]

theorem step_inv (s : JlsOpen σ) (act : Act) (h : Inv peer s) : Inv peer (step E s act) := by
  by_cases hresult : s.result.isSome = true
  · have hstays : step E s act = s := if_pos hresult
    rw [hstays]
    exact h
  · have hnone := Option.not_isSome_iff_eq_none.1 hresult
    have hgoing := h.going hnone
    unfold step
    rw [if_neg hresult]
    cases act with
    | lowerWritten failure =>
      dsimp only
      split
      · exact h
      · rename_i hcurrent
        cases failure with
        | some failure => exact Inv.failed hnone _
        | none =>
          have hidle : s.reading = false := by
            by_contra hreads
            exact hcurrent (h.idle hnone (eq_true_of_ne_false hreads)).1
          exact runOpen_inv (s := { s with box := s.box.land }) E hnone
            { hgoing with emitted := (s.box.emitted_land).trans hgoing.emitted } rfl hidle
    | lowerRead n =>
      dsimp only
      by_cases hreads : s.reading = false
      · rw [if_pos hreads]
        exact h
      · rw [if_neg hreads]
        obtain ⟨hcurrent, hincomplete⟩ := h.idle hnone (eq_true_of_ne_false hreads)
        have hsplit := take_drop_length s.wire (min n (16 * 1024))
        generalize s.wire.take (min n (16 * 1024)) = data at hsplit ⊢
        by_cases hdata : data = []
        · rw [if_pos hdata]
          exact Inv.failed hnone _
        · rw [if_neg hdata]
          have hgiven : Going peer { s with
              reading := false, told := s.told ++ data, wire := s.wire.drop data.length } :=
            ⟨hgoing.emitted, hgoing.plain, by
              rw [append_assoc, hsplit]
              exact hgoing.bytes⟩
          generalize E.receivedData s.engine data = received
          obtain ⟨outputs, result⟩ := received
          have htold := hgiven.told E hnone hincomplete outputs
          have hfields := tell_eq (s := { s with
              reading := false, told := s.told ++ data, wire := s.wire.drop data.length }) E outputs hnone
            hincomplete
          have hstill : ∀ t : JlsOpen σ, t = { s with
                reading := false
                told := s.told ++ data
                wire := s.wire.drop data.length
                outputs := s.outputs ++ outputs
                box := { s.box with queue := s.box.queue ++ records outputs }
                pendingPlain := s.pendingPlain ++ plaintext outputs } →
              t.result = none ∧ t.box.current = none ∧ t.reading = false := fun t ht => by
            rw [ht]
            exact ⟨hnone, hcurrent, rfl⟩
          obtain ⟨htnone, htcurrent, htreading⟩ := hstill _ hfields
          cases result with
          | error what => exact Inv.failed htnone _
          | ok engine => exact runOpen_inv E htnone { htold with } htcurrent htreading
    | readThrows =>
      exact ⟨fun _ => { hgoing with }, nofun, handsOver_of_none hnone⟩
    | timeout =>
      dsimp only
      split
      · exact Inv.failed hnone _
      · exact h
    | abort => exact Inv.failed hnone _

theorem start_inv (engine : σ) (hello : List Output) (wire : Bytes) : Inv wire (start E engine hello wire) := by
  unfold start
  have hgoing : Going wire ({ engine, wire } : JlsOpen σ) := ⟨rfl, rfl, rfl⟩
  have hnew := hgoing.told E rfl rfl hello
  have hfields := tell_eq (s := { engine, wire }) E hello rfl rfl
  rw [hfields] at hnew ⊢
  exact runOpen_inv E rfl hnew rfl rfl

end JlsOpen

/-! ## Shadow-TLS v3 -/

namespace ShadowTlsV3Open

variable {σ : Type} (E : Engine σ) (options : ShadowTlsV3Options) {s : ShadowTlsV3Open σ} {peer : Bytes}
    {left : List Output}

/-- **The opening hands over completely**: what the engine has sent is written, and the stream has what it
was told of the peer's plaintext, and what the peer has sent behind the frames that the engine was given.
-/
def HandsOver (peer : Bytes) (s : ShadowTlsV3Open σ) : Prop :=
  ∀ stream, s.result = some (.ok stream) → s.box.written = records s.outputs ∧
  stream.reads.pending = plaintext s.outputs ∧
    s.consumed.flatten ++ stream.reads.initialWire ++ stream.reads.wire = peer

/-- What is kept until the opening ends, in the course of a call of the engine: `left` are what it tells
from here on. -/
structure Going (peer : Bytes) (left : List Output) (s : ShadowTlsV3Open σ) : Prop where
  emitted : s.box.emitted ++ records left = records s.outputs
  plain : s.pendingPlain ++ plaintext left = plaintext s.outputs
  bytes : s.consumed.flatten ++ s.input ++ s.wire = peer
  calls : left = [] ∨ s.handshakeComplete = false

structure Inv (peer : Bytes) (left : List Output) (s : ShadowTlsV3Open σ) : Prop where
  going : s.result = none → Going peer left s
  complete : ∀ stream, s.result = some (.ok stream) → s.handshakeComplete = true
  handsOver : HandsOver peer s

theorem Going.inv (h : Going peer left s) (hnone : s.result = none) : Inv peer left s :=
  ⟨fun _ => h, fun _ hopened => absurd (hnone.symm.trans hopened) nofun,
    fun _ hopened => absurd (hnone.symm.trans hopened) nofun⟩

theorem Inv.of_error {e : Error} (h : s.result = some (.error e)) : Inv peer left s :=
  ⟨fun heq => absurd (h.symm.trans heq) nofun, fun _ hopened => absurd (h.symm.trans hopened) nofun,
    fun _ hopened => absurd (h.symm.trans hopened) nofun⟩

theorem Inv.failed (h : Inv peer left s) (e : Error) : Inv peer left (s.finish (.error e)) := by
  unfold finish
  split
  · exact h
  · exact Inv.of_error rfl

theorem Inv.aside (h : Inv peer left s) (engine : σ) (reading authorized : Bool)
    (serverRandom bridgeChain readKey : Bytes)
    (atOnce : List (Option Bool)) : Inv peer left
    { s with engine, reading, authorized, serverRandom, bridgeChain, readKey, atOnce } :=
  { h with
    going := fun hnone => ⟨(h.going hnone).emitted, (h.going hnone).plain, (h.going hnone).bytes,
      (h.going hnone).calls⟩ }

theorem maybeOpen_inv (h : Inv peer left s) : Inv peer left s.maybeOpen := by
  unfold maybeOpen
  split
  · exact h
  · rename_i hopens
    simp only [not_or, Option.not_isSome_iff_eq_none, not_not] at hopens
    obtain ⟨hnone, hcomplete, -, -, hcurrent, hqueue⟩ := hopens
    obtain ⟨hemitted, hplain, hbytes, hcalls⟩ := h.going hnone
    obtain rfl : left = [] := hcalls.resolve_right hcomplete
    refine ⟨nofun, fun _ _ => eq_true_of_ne_false hcomplete, fun stream hopened => ?_⟩
    cases hopened
    refine ⟨?_, (append_nil s.pendingPlain).symm.trans hplain, hbytes⟩
    exact ((s.box.written_eq_iff).2 ⟨hcurrent, hqueue⟩).trans ((append_nil _).symm.trans hemitted)

theorem startTlsWriteWith_inv (n : Nat) :
    ∀ {s : ShadowTlsV3Open σ}, Inv peer left s → Inv peer left (s.startTlsWriteWith n) := by
  induction n with
  | zero =>
    intro s h
    unfold startTlsWriteWith
    split
    · exact h
    · rename_i hstarts
      simp only [not_or, Option.not_isSome_iff_eq_none] at hstarts
      obtain ⟨hnone, hcurrent, -⟩ := hstarts
      obtain ⟨hemitted, hplain, hbytes, hcalls⟩ := h.going hnone
      exact Going.inv (s := { s with box := s.box.next, atOnce := s.atOnce.tail })
        ⟨(congrArg (· ++ records left) (Outbox.emitted_next hcurrent)).trans hemitted, hplain,
          hbytes, hcalls⟩ hnone
  | succ n ih =>
    intro s h
    unfold startTlsWriteWith
    split
    · exact h
    · rename_i hstarts
      simp only [not_or, Option.not_isSome_iff_eq_none] at hstarts
      obtain ⟨hnone, hcurrent, -⟩ := hstarts
      obtain ⟨hemitted, hplain, hbytes, hcalls⟩ := h.going hnone
      have hnext := (congrArg (· ++ records left) (Outbox.emitted_next hcurrent)).trans hemitted
      split
      · rename_i m fails atOnce hmore hatOnce
        obtain rfl : n = m := Nat.succ.inj hmore
        split
        · unfold finish
          rw [if_neg (by simp [hnone])]
          exact Inv.of_error rfl
        · refine maybeOpen_inv (ih (Going.inv ⟨?_, hplain, hbytes, hcalls⟩ hnone))
          exact (congrArg (· ++ records left) s.box.next.emitted_land).trans hnext
      · exact Going.inv ⟨hnext, hplain, hbytes, hcalls⟩ hnone

theorem startTlsWrite_inv (h : Inv peer left s) : Inv peer left s.startTlsWrite := startTlsWriteWith_inv _ h

theorem tellOne_inv {output : Output} (h : Inv peer (output :: left) s) : Inv peer left (s.tellOne output) := by
  have hincomplete (hnone : s.result = none) : s.handshakeComplete = false :=
    (h.going hnone).calls.resolve_left (cons_ne_nil _ _)
  cases output with
  | plain bytes =>
    refine { h with going := fun hnone => ?_ }
    obtain ⟨hemitted, hplain, hbytes, -⟩ := h.going hnone
    refine ⟨hemitted, ?_, hbytes, .inr (hincomplete hnone)⟩
    change s.pendingPlain ++ bytes ++ plaintext left = plaintext s.outputs
    rw [append_assoc]
    exact hplain
  | record bytes complete =>
    unfold tellOne
    dsimp only
    split
    · rename_i hsome
      exact { h with going := fun hnone => absurd hnone (Option.isSome_iff_ne_none.1 hsome) }
    · rename_i hnot
      have hnone := Option.not_isSome_iff_eq_none.1 hnot
      obtain ⟨hemitted, hplain, hbytes, -⟩ := h.going hnone
      have hpushed : Going peer left { s with box := s.box.push bytes } := by
        refine ⟨?_, hplain, hbytes, .inr (hincomplete hnone)⟩
        rw [Outbox.emitted_push, append_assoc]
        exact hemitted
      exact maybeOpen_inv (startTlsWrite_inv (hpushed.inv hnone))

theorem tell_inv (h : Inv peer [] s) (hincomplete : s.handshakeComplete =
    false) (outputs : List Output) : Inv peer [] (s.tell outputs) := by
  have hnot : ∀ stream, s.result ≠ some (.ok stream) := fun stream hopened =>
    Bool.false_ne_true (hincomplete.symm.trans (h.complete stream hopened))
  have hcalled : Inv peer outputs { s with outputs := s.outputs ++ outputs } := by
    refine ⟨fun hnone => ?_, h.complete, fun stream hopened => absurd hopened (hnot stream)⟩
    obtain ⟨hemitted, hplain, hbytes, -⟩ := h.going hnone
    refine ⟨?_, ?_, hbytes, .inr hincomplete⟩
    · rw [records_append, ← hemitted, show records [] = [] from rfl, append_nil]
    · rw [plaintext_append, ← hplain, show plaintext [] = [] from rfl, append_nil]
  unfold tell
  generalize ({ s with outputs := s.outputs ++ outputs } : ShadowTlsV3Open σ) = t at hcalled
  induction outputs generalizing t with
  | nil => exact hcalled
  | cons output outputs ih => exact ih _ (tellOne_inv hcalled)

theorem rememberServerHello_eq (s : ShadowTlsV3Open σ) (frame : Bytes) : ∃ serverRandom bridgeChain readKey,
    s.rememberServerHello options frame = { s with serverRandom, bridgeChain, readKey } := by
  unfold rememberServerHello
  split
  · exact ⟨_, _, _, rfl⟩
  · exact ⟨_, _, _, rfl⟩

theorem unbridge_eq {t : ShadowTlsV3Open σ} {frame next : Bytes} (h : s.unbridge options frame = .ok (next, t)) :
    ∃ bridgeChain authorized, t = { s with bridgeChain, authorized } := by
  unfold unbridge at h
  split at h
  · split at h
    · cases h
    · split at h
      · cases h
      · cases h
        exact ⟨_, _, rfl⟩
  · cases h
    exact ⟨_, _, rfl⟩

theorem processFrame_inv (h : Inv peer [] s) (hincomplete : s.handshakeComplete = false) (frame : Bytes) :
    Inv peer [] (s.processFrame E options frame).2 := by
  unfold processFrame
  obtain ⟨serverRandom, bridgeChain, readKey, hhello⟩ := rememberServerHello_eq options s frame
  rw [hhello]
  have hremembered := h.aside s.engine s.reading s.authorized serverRandom bridgeChain readKey s.atOnce
  dsimp only
  split
  · exact hremembered
  · rename_i next t hunbridged
    obtain ⟨bridgeChain', authorized, rfl⟩ := unbridge_eq options hunbridged
    have htaken := hremembered.aside s.engine s.reading authorized serverRandom bridgeChain' readKey s.atOnce
    split
    · exact tell_inv htaken hincomplete _
    · rename_i outputs engine hreceived
      have htold := tell_inv htaken hincomplete outputs
      generalize tell _ outputs = u at htold ⊢
      have hgiven := htold.aside engine u.reading u.authorized u.serverRandom u.bridgeChain u.readKey u.atOnce
      split
      · refine maybeOpen_inv ⟨fun hnone => ?_, fun _ _ => rfl, hgiven.handsOver⟩
        obtain ⟨hemitted, hplain, hbytes, -⟩ := hgiven.going hnone
        exact ⟨hemitted, hplain, hbytes, .inl rfl⟩
      · exact hgiven

theorem processInput_inv (n : Nat) : ∀ {s : ShadowTlsV3Open σ}, Inv peer [] s →
    Inv peer [] (s.processInput E options n).2 := by
  induction n with
  | zero => exact fun h => h
  | succ n ih =>
    intro s h
    unfold processInput
    dsimp only
    split
    · exact h
    · rename_i hgoes
      have hincomplete : s.handshakeComplete = false := by
        by_contra hcomplete
        exact hgoes (.inl (eq_true_of_ne_false hcomplete))
      split
      · exact h
      · split
        · exact h
        · have hnot : ∀ stream, s.result ≠ some (.ok stream) := fun stream hopened =>
            Bool.false_ne_true (hincomplete.symm.trans (h.complete stream hopened))
          have hfront : Inv peer [] { s with
              input := s.input.drop (ShadowTlsV3.kTlsHeaderSize + Wire.getU16 (s.input.drop 3))
              consumed := s.consumed ++ [s.input.take
                (ShadowTlsV3.kTlsHeaderSize + Wire.getU16 (s.input.drop 3))] } := by
            refine ⟨fun hnone => ?_, h.complete, fun stream hopened => absurd hopened (hnot stream)⟩
            obtain ⟨hemitted, hplain, hbytes, hcalls⟩ := h.going hnone
            refine ⟨hemitted, hplain, ?_, hcalls⟩
            rw [flatten_append, flatten_singleton, append_assoc s.consumed.flatten, take_append_drop]
            exact hbytes
          have hframe := processFrame_inv E options hfront hincomplete
            (s.input.take (ShadowTlsV3.kTlsHeaderSize + Wire.getU16 (s.input.drop 3)))
          split
          · rename_i what t heq
            rw [heq] at hframe
            exact hframe
          · rename_i t heq
            rw [heq] at hframe
            exact ih hframe

theorem step_inv (s : ShadowTlsV3Open σ)
    (event : Event) (h : Inv peer [] s) : Inv peer [] (step E options s event) := by
  have hat := h.aside s.engine s.reading s.authorized s.serverRandom s.bridgeChain s.readKey event.atOnce
  unfold step
  by_cases hresult : s.result.isSome = true
  · rw [if_pos hresult]
    exact hat
  · rw [if_neg hresult]
    have hnone := Option.not_isSome_iff_eq_none.1 hresult
    obtain ⟨hemitted, hplain, hbytes, hcalls⟩ := hat.going hnone
    have herror (box : Outbox) (reading : Bool) (e : Error) :
        Inv peer [] (finish { s with atOnce := event.atOnce, box, reading } (.error e)) := by
      unfold finish
      rw [if_neg hresult]
      exact Inv.of_error rfl
    cases event.act with
    | lowerWritten failure =>
      dsimp only
      split
      · exact hat
      · cases failure with
        | some failure => exact herror _ s.reading _
        | none =>
          refine maybeOpen_inv (startTlsWrite_inv (Going.inv ⟨?_, hplain, hbytes, hcalls⟩ hnone))
          exact (congrArg (· ++ records []) s.box.emitted_land).trans hemitted
    | lowerRead n =>
      dsimp only
      split
      · exact hat
      · have hsplit := take_drop_length s.wire (min n (16 * 1024))
        generalize s.wire.take (min n (16 * 1024)) = data at hsplit ⊢
        split
        · exact herror s.box false _
        · have hbrought : Inv peer [] { s with
              atOnce := event.atOnce, reading := false, input := s.input ++
                data, wire := s.wire.drop data.length } := by
            refine Going.inv ⟨hemitted, hplain, ?_, hcalls⟩ hnone
            rw [← hbytes, append_assoc, append_assoc, hsplit, append_assoc]
          have hprocessed := processInput_inv E options (s.input ++ data).length hbrought
          split
          · rename_i what t heq
            rw [heq] at hprocessed
            exact hprocessed.failed _
          · rename_i t heq
            rw [heq] at hprocessed
            split
            · exact hprocessed
            · unfold readWire
              split
              · exact hprocessed
              · exact hprocessed.aside t.engine true t.authorized t.serverRandom t.bridgeChain t.readKey t.atOnce
    | readThrows =>
      dsimp only
      split
      · exact hat
      · exact herror s.box false _
    | timeout => exact hat.failed _
    | abort => exact hat.failed _

theorem start_inv (engine : σ) (hello : List Output) (wire : Bytes) (atOnce : List (Option Bool)) :
    Inv wire [] (start engine hello wire atOnce) := by
  unfold start
  have hnew : Inv wire [] ({ engine, wire, atOnce } : ShadowTlsV3Open σ) :=
    Going.inv ⟨rfl, rfl, rfl, .inl rfl⟩ rfl
  have htold := tell_inv hnew rfl hello
  generalize tell _ hello = s at htold ⊢
  refine startTlsWrite_inv ?_
  unfold readWire
  split
  · exact htold
  · exact htold.aside s.engine true s.authorized s.serverRandom s.bridgeChain s.readKey s.atOnce

end ShadowTlsV3Open

/-! ## Runs -/

/-- **Openings hand over completely**, whatever the engine does and however the peer's bytes come: of JLS
and of Shadow-TLS v3 in every run, of ResTLS in the runs that meet the condition. -/
theorem openings_hand_over_iff {σ : Type} (E : Engine σ) (hash : KeyedHash) (options : RestlsOptions)
    (v3Options : ShadowTlsV3Options) (engine : σ)
    (hello : List Output) (wire : Bytes) (acts : List Act) (atOnce : List (Option Bool))
    (events : List ShadowTlsV3Open.Event) :
    let restls := RestlsOpen.start E engine hello wire
    ((∀ pre, pre <+: acts → RestlsOpen.HandsOver wire (Runs.run (RestlsOpen.step E hash options) restls pre)) ↔
        Runs.Along (RestlsOpen.step E hash options) (RestlsOpen.Flushed E hash options) restls acts) ∧
      JlsOpen.HandsOver wire (Runs.run (JlsOpen.step E) (JlsOpen.start E engine hello wire) acts) ∧
      ShadowTlsV3Open.HandsOver wire (Runs.run (ShadowTlsV3Open.step E v3Options)
        (ShadowTlsV3Open.start engine hello wire atOnce) events) := by
  intro restls
  refine ⟨?_, ?_, ?_⟩
  · exact Runs.forall_prefix_iff_along (P := RestlsOpen.Inv wire) (fun _ hs => hs.handsOver)
      (fun s act hs => (RestlsOpen.step_spec E hash options s act hs).1)
      (fun s act hs => (RestlsOpen.step_spec E hash options s act hs).2)
      (RestlsOpen.start_inv E engine hello wire) acts
  · have hrun := Runs.run_induction (P := JlsOpen.Inv wire) (JlsOpen.step_inv E) acts _
      (JlsOpen.start_inv E engine hello wire)
    exact hrun.handsOver
  · have hrun := Runs.run_induction (P := ShadowTlsV3Open.Inv wire [])
      (ShadowTlsV3Open.step_inv E v3Options) events _
      (ShadowTlsV3Open.start_inv engine hello wire atOnce)
    exact hrun.handsOver

/-- The engine sends its Finished with the record that completes the handshake: the stream is opened, and
it is not written. -/
theorem last_flight_is_lost :
    let engine : Engine Bool := {
      receivedData := fun _ _ => ([.record [22, 3, 3, 0, 1, 20] false], .ok true),
        isHandshakeComplete := id, authenticated := id }
    let serverHello : Bytes := [22, 3, 3, 0, 38, 2, 0, 0, 34, 3, 3] ++ List.replicate 32 7
    let step := RestlsOpen.step engine Restls.exampleHash ⟨[9], true, []⟩
    let s := Runs.run step (RestlsOpen.start engine false [.record [22, 3, 3, 0, 1, 1] false] serverHello)
      [.lowerWritten none, .lowerRead 100]
    (s.result.map fun result => result.isOk) = some true ∧ s.box.written = [[22, 3, 3, 0, 1, 1]] ∧
      records s.outputs = [[22, 3, 3, 0, 1, 1], [22, 3, 3, 0, 1, 20]] := by
  decide +kernel

end ClashNative.Camouflage
