import ClashNative.LegacyReads
/-!
# LegacyCancels — reads of a legacy stream that are cancelled

A cancelled read leaves its carrier read behind.  The IV goes on to the cipher; ciphertext that arrives
for nobody is dropped, and the cipher does not see it.
-/
namespace ClashNative.LegacyStream

open Wire List

variable {κ : Type}

inductive CancelEvent
  | run (e : Event)
  | cancelRead
  deriving DecidableEq, Repr

def cancelStep (c : Config κ) (s : State κ) : CancelEvent → State κ
  | .run e => step c s e
  | .cancelRead => s.cancelRead

/-- **What is owed to the readers**: the server's plaintext in order, and all of it before its end. -/
structure Intact (c : Config κ) (server : Server) (s : State κ) : Prop where
  in_order : s.delivered <+: plaintext c server
  whole : (∃ r ∈ s.results, r.2.isEnd = true) → s.delivered = plaintext c server

/-- **The condition**: no obfs layer; a read finds no carrier read of another one; and no ciphertext
arrives for a read that was cancelled. -/
def Served (c : Config κ) (s : State κ) (e : CancelEvent) : Prop :=
  c.obfsMode = .none ∧
    match e with
    | .run (.read room) => s.readInProgress = false → room ≠ 0 → s.lower = [] ∧ s.postedExact = []
    | .run (.complete i) => ∀ room, s.lower[i]? = some (.ciphertext room) → s.readHandler = none →
      room = 0 ∨ s.carrier.bytes = []
    | _ => True

/-! ## A read that is gone -/

section Gone

variable {c : Config κ} {P : List UInt8} {s : State κ}

def Stage.Left (c : Config κ) (P : List UInt8) (s : State κ) : Stage → Prop
  | .idle => False
  | .iv copied => s.lower = [.iv copied c.ivSize] ∧ s.postedExact = [] ∧ s.readCipher = none ∧
      s.initialWire = [] ∧
      copied.length < c.ivSize ∧ Ahead c P copied s
  | .ivPosted bytes => s.lower = [] ∧ s.postedExact = [bytes] ∧ s.readCipher = none ∧ c.cipher.isSome ∧
      bytes.length = c.ivSize ∧
      bytes ++ s.rest = P
  | .ciphertext => (∃ room, s.lower = [.ciphertext room]) ∧ s.postedExact = [] ∧ s.readCipher.isSome ∧
      s.initialWire = []

structure Gone (c : Config κ) (P : List UInt8) (s : State κ) : Prop where
  core : Core c P s
  handler : s.readHandler = none
  free : s.readInProgress = false
  buffer : s.readBuffer = 0
  left : ∃ stage : Stage, stage.Left c P s

theorem Core.cancel (h : Core c P s) {id : Nat} (hid : s.readHandler = some id) :
    Core c P { s with
        readHandler := none, readBuffer := 0, readInProgress := false,
        posted := s.posted ++ [(id, .error .operationAborted)] } where
  ledger i := by
    have hi := h.ledger i
    rw [hid] at hi
    simp only [map_append, count_append, map_cons, map_nil, count_singleton, beq_iff_eq, Option.some.injEq,
      reduceCtorEq, if_false] at hi ⊢
    omega
  quiet p hp := by
    rcases mem_append.1 hp with hp | hp
    · exact h.quiet p hp
    · rw [mem_singleton.1 hp]
      exact ⟨rfl, rfl⟩
  ready := h.ready
  iv_first := h.iv_first
  initial_le := h.initial_le
  carrier_le := h.carrier_le
  ended := h.ended
  deciphered := h.deciphered

theorem cancelRead_gone (h : Inv c P s) : Inv c P s.cancelRead ∨ Gone c P s.cancelRead := by
  obtain ⟨hcore, stage, hstage⟩ := h
  unfold State.cancelRead
  cases hid : s.readHandler with
  | none => exact .inl ⟨hcore, stage, hstage⟩
  | some id =>
    refine .inr ⟨hcore.cancel hid, rfl, rfl, rfl, stage, ?_⟩
    cases stage with
    | idle =>
      have hnone := hstage.2.2.1
      rw [hid] at hnone
      cases hnone
    | iv copied =>
      obtain ⟨hlower, hexact, -, -, hnone, hinitial, hlt, hahead⟩ := hstage
      exact ⟨hlower, hexact, hnone, hinitial, hlt, hahead⟩
    | ivPosted bytes =>
      obtain ⟨hlower, hexact, -, -, hnone, hknown, hlen, hP⟩ := hstage
      exact ⟨hlower, hexact, hnone, hknown, hlen, hP⟩
    | ciphertext =>
      obtain ⟨hlower, hexact, -, -, hcipher, hinitial⟩ := hstage
      exact ⟨⟨_, hlower⟩, hexact, hcipher, hinitial⟩

theorem idle_inv (h : Core c P s) (hrest : AtRest s) (hhandler : s.readHandler = none)
    (hahead : s.readCipher = none → Ahead c P [] s) :
    Inv c P { s with readInProgress := false, readBuffer := 0 } :=
  ⟨{ h with }, .idle, hrest.1, hrest.2, hhandler, rfl, hahead⟩

theorem finishRead_idle (h : Core c P s) (hrest : AtRest s) (hhandler : s.readHandler = none) (r : ReadResult)
    (hahead : s.readCipher = none → Ahead c P [] s) : Inv c P (s.finishRead r) := by
  have hsame : s.finishRead r = { s with readInProgress := false, readBuffer := 0 } := by
    unfold State.finishRead
    rw [hhandler]
  rw [hsame]
  exact idle_inv h hrest hhandler hahead

theorem processPlaintext_idle (h : Core c P s) (hrest : AtRest s) (hhandler : s.readHandler = none)
    (hcipher : s.readCipher.isSome)
    (error : Option ReadError) (data : List UInt8) : Inv c P (State.processPlaintext c s error data) := by
  have hsame : State.processPlaintext c s error data = { s with readInProgress := false, readBuffer := 0 } := by
    unfold State.processPlaintext
    split
    · rfl
    · rename_i id hid
      rw [hhandler] at hid
      cases hid
  rw [hsame]
  refine idle_inv h hrest hhandler fun hnone => ?_
  rw [hnone] at hcipher
  cases hcipher

theorem ivReceived_gone (hmode : c.obfsMode = .none) (h : Core c P s) (hrest : AtRest s) (hhandler :
    s.readHandler = none)
    (hfree : s.readInProgress = false) (hbuffer : s.readBuffer = 0) (hnone : s.readCipher = none)
    (hknown : c.cipher.isSome)
    {iv : List UInt8} (hiv : iv.length = c.ivSize) (hP : iv ++ s.rest = P) :
    Inv c P (State.ivReceived c s iv) ∨ Gone c P (State.ivReceived c s iv) := by
  obtain ⟨cipher, hc⟩ := Option.isSome_iff_exists.1 hknown
  have hcore := h.startCipher hnone hc hiv hP
  unfold State.ivReceived
  rw [hc]
  dsimp only
  unfold State.receivePlaintext
  split
  · -- nothing fits into a buffer of no bytes
    left
    have hsame : ({ s with
        readCipher := some (cipher.init iv)
        initialWire := s.initialWire.drop s.readBuffer } : State κ) =
        { s with readCipher := some (cipher.init iv) } := by
      rw [hbuffer]
      rfl
    rw [hsame]
    exact processPlaintext_idle hcore hrest hhandler rfl none _
  · rename_i hnil
    have hnil : s.initialWire = [] := by simpa using hnil
    rw [if_neg (by rw [hmode]; nofun)]
    right
    refine ⟨{ hcore with },
      hhandler, hfree, hbuffer, .ciphertext, ⟨s.readBuffer, ?_⟩, hrest.2, rfl, hnil⟩
    rw [hrest.1]
    rfl

theorem ivRead_gone (hmode : c.obfsMode = .none) (h : Core c P s) (hrest : AtRest s)
    (hhandler : s.readHandler = none)
    (hfree : s.readInProgress = false) (hbuffer : s.readBuffer = 0) (hnone : s.readCipher = none)
    (hinitial : s.initialWire = [])
    {copied : List UInt8} (hlt : copied.length < c.ivSize) (hahead : Ahead c P copied s) :
    Inv c P (State.ivRead c s copied c.ivSize) ∨ Gone c P (State.ivRead c s copied c.ivSize) := by
  obtain ⟨hnil, hshort, heq⟩ | ⟨chunk, carrier, hcore, ⟨hlen, hP, heq⟩ | ⟨hless, hnow, heq⟩⟩ :=
    ivRead_cases h hnone hinitial hlt hahead
  · rw [heq]
    exact .inl (finishRead_idle h hrest hhandler _ fun _ => .inr ⟨hnil, hshort⟩)
  · rw [heq]
    exact ivReceived_gone hmode hcore hrest hhandler hfree hbuffer hnone
      (ivSize_known (Nat.zero_lt_of_lt hlt)) hlen hP
  · rw [heq]
    refine .inr ⟨{ hcore with }, hhandler, hfree, hbuffer, .iv (copied ++ chunk), ?_, hrest.2, hnone,
      hinitial, hless, hnow⟩
    rw [hrest.1]
    rfl

theorem ciphertextRead_gone (h : Core c P s) (hrest : AtRest s) (hhandler : s.readHandler = none)
    (hcipher : s.readCipher.isSome)
    {room : Nat} (hserved : room = 0 ∨ s.carrier.bytes = []) : Inv c P (State.ciphertextRead c s room) := by
  have hnot : s.readCipher = none → Ahead c P [] s := fun hnone => by rw [hnone] at hcipher; cases hcipher
  unfold State.ciphertextRead
  cases hread : s.carrier.readSome room with
  | none =>
    dsimp only
    split
    · exact processPlaintext_idle h hrest hhandler hcipher _ _
    · exact finishRead_idle h hrest hhandler _ hnot
  | some r =>
    obtain ⟨chunk, carrier⟩ := r
    have hbytes := Segments.readSome_bytes _ _ _ _ hread
    obtain ⟨-, hle⟩ := Segments.readSome_length_le h.carrier_le hread
    have hnil : chunk = [] := by
      rcases hserved with hzero | hempty
      · have hroom := Segments.readSome_le hread
        exact length_eq_zero_iff.1 (by omega)
      · rw [hempty] at hbytes
        exact (append_eq_nil_iff.1 hbytes.symm).1
    rw [hnil, nil_append] at hbytes
    have hsame : s.rest = ({ s with carrier := carrier } : State κ).rest := by
      rw [State.rest, State.rest, hbytes]
    have hcore : Core c P { s with carrier := carrier } := by
      refine { h with carrier_le := hle, ended := fun hr => hsame ▸ h.ended hr, deciphered := ?_ }
      have hd := h.deciphered
      unfold Deciphered at hd ⊢
      rw [← hsame]
      exact hd
    exact processPlaintext_idle hcore hrest hhandler hcipher _ _

theorem gone_step (h : Gone c P s) (e : CancelEvent) (hserved : Served c s e) :
    Inv c P (cancelStep c s e) ∨ Gone c P (cancelStep c s e) := by
  obtain ⟨hmode, hserved⟩ := hserved
  obtain ⟨hcore, hhandler, hfree, hbuffer, stage, hstage⟩ := h
  cases e with
  | cancelRead =>
    show Inv c P s.cancelRead ∨ Gone c P s.cancelRead
    unfold State.cancelRead
    rw [hhandler]
    exact .inr ⟨hcore, hhandler, hfree, hbuffer, stage, hstage⟩
  | run e =>
    show Inv c P (step c s e) ∨ Gone c P (step c s e)
    cases e with
    | read room =>
      unfold step State.read
      dsimp only
      rw [if_neg (by simp [hfree])]
      split
      · exact .inr ⟨hcore.post ⟨rfl, rfl⟩, hhandler, hfree, hbuffer, stage, by cases stage <;> exact hstage⟩
      · rename_i hroom
        obtain ⟨hlower, hexact⟩ := hserved hfree hroom
        cases stage with
        | idle => exact hstage.elim
        | iv copied =>
          have hone := hstage.1
          rw [hlower] at hone
          cases hone
        | ivPosted bytes =>
          have hone := hstage.2.1
          rw [hexact] at hone
          cases hone
        | ciphertext =>
          obtain ⟨room', hroom'⟩ := hstage.1
          rw [hlower] at hroom'
          cases hroom'
    | complete i =>
      have hcore' : Core c P { s with lower := s.lower.eraseIdx i } :=
        { hcore with }
      unfold step
      cases stage with
      | idle => exact hstage.elim
      | iv copied =>
        cases i with
        | zero =>
          obtain ⟨hlower, hexact, hnone, hinitial, hlt, hahead⟩ := hstage
          rw [hlower] at hcore' ⊢
          exact ivRead_gone hmode hcore' ⟨rfl, hexact⟩ hhandler hfree hbuffer hnone hinitial hlt hahead
        | succ i =>
          rw [hstage.1]
          exact .inr ⟨hcore, hhandler, hfree, hbuffer, .iv copied, hstage⟩
      | ivPosted bytes =>
        rw [hstage.1]
        exact .inr ⟨hcore, hhandler, hfree, hbuffer, .ivPosted bytes, hstage⟩
      | ciphertext =>
        obtain ⟨⟨room, hlower⟩, hexact, hcipher, hinitial⟩ := hstage
        cases i with
        | zero =>
          have hnone := hserved room (by rw [hlower]; rfl) hhandler
          rw [hlower] at hcore' ⊢
          exact .inl (ciphertextRead_gone hcore' ⟨rfl, hexact⟩ hhandler hcipher hnone)
        | succ i =>
          rw [hlower]
          exact .inr ⟨hcore, hhandler, hfree, hbuffer, .ciphertext, ⟨room, hlower⟩, hexact, hcipher, hinitial⟩
    | posted =>
      unfold step
      dsimp only
      split
      · exact .inr ⟨hcore, hhandler, hfree, hbuffer, stage, hstage⟩
      · rename_i p rest hp
        exact .inr ⟨hcore.runPosted hp, hhandler, hfree, hbuffer, stage, by cases stage <;> exact hstage⟩
    | postedExact =>
      unfold step
      cases stage with
      | idle => exact hstage.elim
      | iv copied =>
        rw [hstage.2.1]
        exact .inr ⟨hcore, hhandler, hfree, hbuffer, .iv copied, hstage⟩
      | ivPosted bytes =>
        obtain ⟨hlower, hexact, hnone, hknown, hlen, hP⟩ := hstage
        rw [hexact]
        have hcore' : Core c P { s with postedExact := [] } :=
          { hcore with }
        exact ivReceived_gone hmode hcore' ⟨hlower, rfl⟩ hhandler hfree hbuffer hnone hknown hlen hP
      | ciphertext =>
        rw [hstage.2.1]
        exact .inr ⟨hcore, hhandler, hfree, hbuffer, .ciphertext, hstage⟩

theorem cancelStep_inv (s : State κ) (e : CancelEvent) (h : Inv c P s ∨ Gone c P s) (hserved : Served c s e) :
    Inv c P (cancelStep c s e) ∨ Gone c P (cancelStep c s e) := by
  rcases h with hinv | hgone
  · cases e with
    | run e => exact .inl (step_inv hserved.1 hinv e)
    | cancelRead => exact cancelRead_gone hinv
  · exact gone_step hgone e hserved

end Gone

section Reads

variable {c : Config κ} {server : Server} {s : State κ}

theorem intact_of_inv (h : Inv c (payload c.obfsMode server) s ∨ Gone c (payload c.obfsMode server) s) :
    Intact c server s := by
  rcases h with hinv | ⟨hcore, -, -, -, stage, hstage⟩
  · exact ⟨in_order_of_core hinv.1, fun hr => whole_of_inv hinv (hinv.1.ended hr)⟩
  · refine ⟨in_order_of_core hcore, fun hr => whole_of_core hcore (hcore.ended hr) fun hk => ?_⟩
    have hnil := hcore.ended hr
    cases stage with
    | idle => exact hstage.elim
    | iv copied => exact length_of_ahead hnil (Nat.le_of_lt hstage.2.2.2.2.1) hstage.2.2.2.2.2
    | ivPosted bytes => exact length_of_ahead hnil (Nat.le_of_eq hstage.2.2.2.2.1) (.inl hstage.2.2.2.2.2)
    | ciphertext =>
      have hsome := hstage.2.2.1
      rw [hk] at hsome
      cases hsome

theorem intact_of_served (c : Config κ) (server : Server) (before after : List CancelEvent)
    (hserved : Runs.Along (cancelStep c) (Served c) (start c server) (before ++ after)) :
    Intact c server (Runs.run (cancelStep c) (start c server) before) := by
  have hbefore := ((Runs.along_append before after (start c server)).1 hserved).1
  cases before with
  | nil => exact ⟨List.nil_prefix, fun ⟨_, hr, _⟩ => (nomatch hr)⟩
  | cons e before =>
    exact intact_of_inv (Runs.along_induction (P := fun s => Inv c (payload c.obfsMode server) s ∨
      Gone c (payload c.obfsMode server) s)
      cancelStep_inv (e :: before) (start c server) (.inl (start_inv c server hbefore.1.1)) hbefore)

end Reads

end ClashNative.LegacyStream
