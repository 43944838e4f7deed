import ClashNative.LegacyStream
import Mathlib.Data.List.Infix
import Mathlib.Data.List.Nodup
/-!
# LegacyReads — what the reads of a legacy stream deliver

`Sound` is what is owed in every state of a run: one carrier read at most, no cipher before its IV, the
plaintext of the server's stream in order and whole at its end, and every handler called once.  Without an
obfs layer it holds in every run; with one, the first read that wants bytes breaks it.
-/
namespace ClashNative.LegacyStream

open Wire List

variable {κ : Type}

/-! ### What is owed -/

def httpPayload (wire : List UInt8) : List UInt8 :=
  match State.headerEnd wire with
  | none => []
  | some headerEnd => if State.switchingProtocols wire then wire.drop headerEnd else []

/-- The payloads of the whole TLS obfs records, the first one behind the server's handshake. -/
def tlsPayloads : Nat → Bool → List UInt8 → List UInt8
  | 0, _, _ => []
  | n + 1, first, wire =>
    let discard := if first then 105 else 3
    let length := State.readU16 (wire.drop discard)
    if wire.take 3 = (if first then [0x16, 0x03, 0x01] else [0x17, 0x03, 0x03]) ∧ 0 < length ∧
        discard + 2 + length ≤ wire.length then
      (wire.drop (discard + 2)).take length ++ tlsPayloads n false (wire.drop (discard + 2 + length))
    else []

def payload (mode : ObfsMode) (server : Server) : List UInt8 :=
  match mode with
  | .none => server.initialWire ++ server.carrier.bytes
  | .http => httpPayload server.carrier.bytes
  | .tls => tlsPayloads server.carrier.bytes.length true server.carrier.bytes

def plaintext (c : Config κ) (server : Server) : List UInt8 :=
  match c.cipher with
  | none => []
  | some cipher => cipher.decrypt (payload c.obfsMode server)

def ReadResult.isEnd : ReadResult → Bool
  | .error .eof => true
  | .error .carrier => true
  | _ => false

def State.delivered (s : State κ) : List UInt8 := s.results.flatMap (·.2.data)

/-- **What every state of a run owes.**  `answered`: when nothing is outstanding or posted any more, every
handler has been called. -/
structure Sound (c : Config κ) (server : Server) (s : State κ) : Prop where
  one_lower : s.lower.length ≤ 1
  iv_first : s.misuse = false
  in_order : s.delivered <+: plaintext c server
  whole : (∃ r ∈ s.results, r.2.isEnd = true) → s.delivered = plaintext c server
  once : (s.results.map (·.1)).Nodup
  made : ∀ id ∈ s.results.map (·.1), id < s.reads
  answered : s.lower = [] → s.posted = [] → s.postedExact = [] → ∀ id < s.reads, id ∈ s.results.map (·.1)

/-! ## The invariant without obfs -/

def State.rest (s : State κ) : List UInt8 := s.initialWire ++ s.carrier.bytes

def Config.ivSize (c : Config κ) : Nat := c.cipher.elim 0 StreamCipher.ivSize

def Ledger (s : State κ) : Prop :=
  ∀ id, (s.results.map (·.1)).count id + (s.posted.map (·.1)).count id +
  (if s.readHandler = some id then 1 else 0) =
    if id < s.reads then 1 else 0

def Quiet (r : ReadResult) : Prop := r.data = [] ∧ r.isEnd = false

def Deciphered (c : Config κ) (P : List UInt8) (s : State κ) : Prop :=
  match s.readCipher with
  | none => s.delivered = []
  | some k => ∃ cipher iv ct, c.cipher = some cipher ∧ iv.length = cipher.ivSize ∧ P = iv ++ (ct ++ s.rest) ∧
      cipher.update (cipher.init iv) ct = (k, s.delivered)

structure Core (c : Config κ) (P : List UInt8) (s : State κ) : Prop where
  ledger : Ledger s
  quiet : ∀ p ∈ s.posted, Quiet p.2
  ready : s.obfsResponseReady = true
  iv_first : s.misuse = false
  initial_le : s.initialWire.length ≤ intMax
  carrier_le : ∀ p ∈ s.carrier.pieces, p.length ≤ intMax
  ended : (∃ r ∈ s.results, r.2.isEnd = true) → s.rest = []
  deciphered : Deciphered c P s

inductive Stage
  | idle
  | iv (copied : List UInt8)
  | ivPosted (bytes : List UInt8)
  | ciphertext

/-- The IV so far and what is left are the payload, or the stream ended inside the IV. -/
def Ahead (c : Config κ) (P copied : List UInt8) (s : State κ) : Prop :=
  copied ++ s.rest = P ∨ s.rest = [] ∧ P.length < c.ivSize

def Stage.Holds (c : Config κ) (P : List UInt8) (s : State κ) : Stage → Prop
  | .idle => s.lower = [] ∧ s.postedExact = [] ∧ s.readHandler = none ∧ s.readInProgress = false ∧
      (s.readCipher = none → Ahead c P [] s)
  | .iv copied => s.lower = [.iv copied c.ivSize] ∧ s.postedExact = [] ∧ s.readHandler.isSome ∧
      s.readInProgress = true ∧ s.readCipher = none ∧ s.initialWire = [] ∧ copied.length < c.ivSize ∧
      Ahead c P copied s
  | .ivPosted bytes => s.lower = [] ∧ s.postedExact = [bytes] ∧ s.readHandler.isSome ∧ s.readInProgress = true ∧
      s.readCipher = none ∧ c.cipher.isSome ∧ bytes.length = c.ivSize ∧ bytes ++ s.rest = P
  | .ciphertext => s.lower = [.ciphertext s.readBuffer] ∧ s.postedExact = [] ∧ s.readHandler.isSome ∧
      s.readInProgress = true ∧ s.readCipher.isSome ∧ s.initialWire = []

def Inv (c : Config κ) (P : List UInt8) (s : State κ) : Prop := Core c P s ∧ ∃ stage : Stage, stage.Holds c P s

section Moves

variable {c : Config κ} {P : List UInt8} {s : State κ}

theorem delivered_append (results : List (Nat × ReadResult)) (p : Nat × ReadResult) :
    (results ++ [p]).flatMap (·.2.data) = results.flatMap (·.2.data) ++ p.2.data := by simp

theorem made_succ (id n : Nat) :
    (if id < n + 1 then 1 else 0) = (if id < n then 1 else 0) + if n = id then 1 else 0 := by
  by_cases h : n = id
  · simp [h]
  · rw [if_neg h]
    have : id < n + 1 ↔ id < n := by omega
    simp [this]

variable {r : ReadResult}

theorem Core.post (h : Core c P s) (hr : Quiet r) :
    Core c P { s with reads := s.reads + 1, posted := s.posted ++ [(s.reads, r)] } where
  ledger id := by
    have hid := h.ledger id
    simp only [map_append, count_append, map_cons, map_nil, count_singleton, beq_iff_eq,
      made_succ]
    omega
  quiet p hp := by
    rcases mem_append.1 hp with hp | hp
    · exact h.quiet p hp
    · rw [mem_singleton.1 hp]
      exact hr
  ready := h.ready
  iv_first := h.iv_first
  initial_le := h.initial_le
  carrier_le := h.carrier_le
  ended := h.ended
  deciphered := h.deciphered

theorem Core.runPosted (h : Core c P s) {p : Nat × ReadResult} {rest : List (Nat × ReadResult)}
    (hp : s.posted = p :: rest) : Core c P { s with posted := rest, results := s.results ++ [p] } where
  ledger id := by
    have hid := h.ledger id
    rw [hp] at hid
    simp only [map_append, count_append, map_cons, map_nil, count_nil,
      count_cons] at hid ⊢
    omega
  quiet q hq := h.quiet q (by rw [hp]; exact mem_cons_of_mem p hq)
  ready := h.ready
  iv_first := h.iv_first
  initial_le := h.initial_le
  carrier_le := h.carrier_le
  ended := by
    rintro ⟨r, hr, hend⟩
    refine h.ended ⟨r, ?_, hend⟩
    rcases mem_append.1 hr with hr | hr
    · exact hr
    · have hquiet := h.quiet p (by rw [hp]; exact mem_cons_self)
      rw [mem_singleton.1 hr, hquiet.2] at hend
      cases hend
  deciphered := by
    have hdata := (h.quiet p (by rw [hp]; exact mem_cons_self)).1
    have hd := h.deciphered
    unfold Deciphered State.delivered at hd ⊢
    rw [delivered_append, hdata, append_nil]
    exact hd

theorem Core.park (h : Core c P s) (hidle : s.readHandler = none) (room : Nat) :
    Core c P { s with
        reads := s.reads + 1, readInProgress := true, readBuffer := room,
        readHandler := some s.reads } where
  ledger id := by
    have hid := h.ledger id
    rw [hidle] at hid
    simp only [reduceCtorEq, if_false, Option.some.injEq, made_succ] at hid ⊢
    omega
  quiet := h.quiet
  ready := h.ready
  iv_first := h.iv_first
  initial_le := h.initial_le
  carrier_le := h.carrier_le
  ended := h.ended
  deciphered := h.deciphered

theorem Core.finish (h : Core c P s) (hbusy : s.readHandler.isSome) (hdata : r.data = [])
    (hend : r.isEnd = true → s.rest = []) : Core c P (s.finishRead r) := by
  obtain ⟨id, hid⟩ := Option.isSome_iff_exists.1 hbusy
  unfold State.finishRead
  rw [hid]
  exact {
    ledger := fun i => by
      have hi := h.ledger i
      rw [hid] at hi
      simp only [map_append, count_append, map_cons, map_nil, count_singleton, beq_iff_eq,
        Option.some.injEq, reduceCtorEq, if_false] at hi ⊢
      omega
    quiet := h.quiet
    ready := h.ready
    iv_first := h.iv_first
    initial_le := h.initial_le
    carrier_le := h.carrier_le
    ended := by
      rintro ⟨r', hr', hend'⟩
      rcases mem_append.1 hr' with hr' | hr'
      · exact h.ended ⟨r', hr', hend'⟩
      · rw [mem_singleton.1 hr'] at hend'
        exact hend hend'
    deciphered := by
      have hd := h.deciphered
      unfold Deciphered State.delivered at hd ⊢
      rw [delivered_append, hdata, append_nil]
      exact hd }

variable {y : Segments UInt8} {x data : List UInt8}

theorem Core.deliver (h : Core c P s) (hbusy : s.readHandler.isSome) (hcipher : s.readCipher.isSome)
    (hrest : s.rest = data ++ (x ++ y.bytes)) (hx : x.length ≤ intMax)
    (hy : ∀ p ∈ y.pieces, p.length ≤ intMax) (hdata : data.length ≤ intMax) :
    Core c P (State.processPlaintext c { s with initialWire := x, carrier := y } none data) := by
  obtain ⟨id, hid⟩ := Option.isSome_iff_exists.1 hbusy
  obtain ⟨k, hk⟩ := Option.isSome_iff_exists.1 hcipher
  have hd := h.deciphered
  rw [Deciphered, hk] at hd
  obtain ⟨cipher, iv, ct, hc, hiv, hP, hupd⟩ := hd
  unfold State.processPlaintext State.finishRead
  simp only [hid, hk, hc, if_neg (show ¬ intMax < data.length by omega)]
  exact {
    ledger := fun i => by
      have hi := h.ledger i
      rw [hid] at hi
      simp only [map_append, count_append, map_cons, map_nil, count_singleton, beq_iff_eq,
        Option.some.injEq, reduceCtorEq, if_false] at hi ⊢
      omega
    quiet := h.quiet
    ready := h.ready
    iv_first := h.iv_first
    initial_le := hx
    carrier_le := hy
    ended := by
      rintro ⟨r, hr, hend⟩
      rcases mem_append.1 hr with hr | hr
      · have hnil := h.ended ⟨r, hr, hend⟩
        rw [hrest] at hnil
        exact (append_eq_nil_iff.1 hnil).2
      · rw [mem_singleton.1 hr] at hend
        cases hend
    deciphered := by
      refine ⟨cipher, iv, ct ++ data, hc, hiv, ?_, ?_⟩
      · rw [hP, hrest, append_assoc]
        rfl
      · have hk1 : (cipher.update (cipher.init iv) ct).1 = k := by rw [hupd]
        have hk2 : (cipher.update (cipher.init iv) ct).2 = s.delivered := by rw [hupd]
        rw [StreamCipher.update_append, hk1, hk2]
        simp only [State.delivered, delivered_append]
        rfl }

theorem Core.startCipher (h : Core c P s) (hnone : s.readCipher = none) {cipher : StreamCipher κ}
    (hc : c.cipher = some cipher) {iv : List UInt8} (hiv : iv.length = c.ivSize) (hP : iv ++ s.rest = P) :
    Core c P { s with readCipher := some (cipher.init iv) } where
  ledger := h.ledger
  quiet := h.quiet
  ready := h.ready
  iv_first := h.iv_first
  initial_le := h.initial_le
  carrier_le := h.carrier_le
  ended := h.ended
  deciphered := by
    have hd := h.deciphered
    rw [Deciphered, hnone] at hd
    have hsize : c.ivSize = cipher.ivSize := by rw [Config.ivSize, hc]; rfl
    exact ⟨cipher, iv, [], hc, hiv.trans hsize, hP.symm, Prod.ext rfl (Eq.symm hd)⟩

theorem Core.consume (h : Core c P s) (hnone : s.readCipher = none)
    (hrest : s.rest = data ++ (x ++ y.bytes)) (hx : x.length ≤ intMax) (hy : ∀ p ∈ y.pieces, p.length ≤ intMax) :
    Core c P { s with initialWire := x, carrier := y } where
  ledger := h.ledger
  quiet := h.quiet
  ready := h.ready
  iv_first := h.iv_first
  initial_le := hx
  carrier_le := hy
  ended hr := by
    have hnil := h.ended hr
    rw [hrest] at hnil
    exact (append_eq_nil_iff.1 hnil).2
  deciphered := by
    have hd := h.deciphered
    unfold Deciphered at hd ⊢
    rw [hnone] at hd
    rw [hnone]
    exact hd

end Moves

/-! ## The functions of the source -/

section Functions

variable {c : Config κ} {P : List UInt8} {s : State κ}

def AtRest (s : State κ) : Prop := s.lower = [] ∧ s.postedExact = []

theorem finishRead_inv (h : Core c P s) (hrest : AtRest s) (hbusy : s.readHandler.isSome) {r : ReadResult}
    (hdata : r.data = []) (hend : r.isEnd = true → s.rest = []) (hahead : s.readCipher = none → Ahead c P [] s) :
    Inv c P (s.finishRead r) :=
  ⟨h.finish hbusy hdata hend, .idle, hrest.1, hrest.2, rfl, rfl, hahead⟩

theorem deliver_inv (h : Core c P s) (hrest : AtRest s) (hbusy : s.readHandler.isSome)
    (hcipher : s.readCipher.isSome)
    {x data : List UInt8} {y : Segments UInt8} (heq : s.rest = data ++ (x ++ y.bytes)) (hx : x.length ≤ intMax)
    (hy : ∀ p ∈ y.pieces, p.length ≤ intMax) (hdata : data.length ≤ intMax) :
    Inv c P (State.processPlaintext c { s with initialWire := x, carrier := y } none data) := by
  refine ⟨h.deliver hbusy hcipher heq hx hy hdata, .idle, ?_⟩
  obtain ⟨id, hid⟩ := Option.isSome_iff_exists.1 hbusy
  obtain ⟨k, hk⟩ := Option.isSome_iff_exists.1 hcipher
  have hd := h.deciphered
  rw [Deciphered, hk] at hd
  obtain ⟨cipher, -, -, hc, -⟩ := hd
  unfold State.processPlaintext State.finishRead
  simp only [hid, hk, hc, if_neg (show ¬ intMax < data.length by omega)]
  exact ⟨hrest.1, hrest.2, rfl, rfl, nofun⟩

theorem receivePlaintext_inv (hmode : c.obfsMode = .none) (h : Core c P s) (hrest : AtRest s)
    (hbusy : s.readHandler.isSome) (hprogress : s.readInProgress = true) (hcipher : s.readCipher.isSome) :
    Inv c P (State.receivePlaintext c s) := by
  unfold State.receivePlaintext
  split
  · refine deliver_inv h hrest hbusy hcipher ?_ ?_ h.carrier_le ?_
    · rw [State.rest, ← append_assoc, take_append_drop]
    · rw [length_drop]
      have := h.initial_le
      omega
    · exact Nat.le_trans (length_take_le' _ _) h.initial_le
  · rename_i hnil
    rw [if_neg (by rw [hmode]; nofun)]
    refine ⟨{ h with }, .ciphertext,
      ?_, hrest.2, hbusy, hprogress, hcipher, by simpa using hnil⟩
    rw [hrest.1]
    rfl

theorem ivReceived_inv (hmode : c.obfsMode = .none) (h : Core c P s) (hrest : AtRest s)
    (hbusy : s.readHandler.isSome)
    (hprogress : s.readInProgress = true) (hnone : s.readCipher = none)
    (hknown : c.cipher.isSome) {iv : List UInt8}
    (hiv : iv.length = c.ivSize) (hP : iv ++ s.rest = P) : Inv c P (State.ivReceived c s iv) := by
  obtain ⟨cipher, hc⟩ := Option.isSome_iff_exists.1 hknown
  unfold State.ivReceived
  rw [hc]
  exact receivePlaintext_inv hmode (h.startCipher hnone hc hiv hP) hrest hbusy hprogress rfl

theorem receiveIv_inv (hmode : c.obfsMode = .none) (h : Core c P s) (hrest : AtRest s)
    (hbusy : s.readHandler.isSome)
    (hprogress : s.readInProgress = true) (hnone : s.readCipher = none) (hahead : Ahead c P [] s) :
    Inv c P (State.receiveIv c s) := by
  unfold State.receiveIv
  cases hc : c.cipher with
  | none => exact finishRead_inv h hrest hbusy rfl nofun (fun _ => hahead)
  | some cipher =>
    have hsize : c.ivSize = cipher.ivSize := by rw [Config.ivSize, hc]; rfl
    have htake : s.rest = s.initialWire.take cipher.ivSize ++
      (s.initialWire.drop cipher.ivSize ++ s.carrier.bytes) := by
      rw [State.rest, ← append_assoc, take_append_drop]
    have hcore := h.consume hnone htake (by rw [length_drop]; have := h.initial_le; omega) h.carrier_le
    -- the bytes that are there go to the IV, or there are none left and the IV will never be whole
    have hnow : Ahead c P (s.initialWire.take cipher.ivSize)
        { s with initialWire := s.initialWire.drop cipher.ivSize } := by
      rcases hahead with hP | ⟨hnil, hshort⟩
      · exact .inl (htake.symm.trans hP)
      · rw [htake] at hnil
        exact .inr ⟨(append_eq_nil_iff.1 hnil).2, hshort⟩
    dsimp only
    unfold State.readExact
    rw [if_neg (by rw [hmode]; nofun)]
    dsimp only
    split
    · rename_i hlen
      refine ⟨{ hcore with }, .ivPosted (s.initialWire.take cipher.ivSize), hrest.1, ?_, hbusy,
        hprogress, hnone, ?_,
        hlen.trans hsize.symm, ?_⟩
      · rw [hrest.2]
        rfl
      · rw [hc]
        rfl
      · rcases hnow with hP | ⟨hnil, hshort⟩
        · exact hP
        · rcases hahead with hP | ⟨hall, -⟩
          · exact htake.symm.trans hP
          · rw [htake] at hall
            rw [(append_eq_nil_iff.1 hall).1, length_nil] at hlen
            omega
    · rename_i hlen
      have hlt : s.initialWire.length < cipher.ivSize := by
        rw [length_take] at hlen
        omega
      refine ⟨{ hcore with }, .iv (s.initialWire.take cipher.ivSize), ?_, hrest.2, hbusy, hprogress, hnone,
        drop_eq_nil_of_le (by omega), ?_, hnow⟩
      · rw [hrest.1, hsize]
        rfl
      · rw [hsize, length_take]
        omega

theorem ivSize_known (h : 0 < c.ivSize) : c.cipher.isSome := by
  cases hc : c.cipher with
  | some _ => rfl
  | none =>
    rw [Config.ivSize, hc] at h
    exact absurd h (Nat.lt_irrefl 0)

variable {copied : List UInt8}

theorem ivRead_cases (h : Core c P s) (hnone : s.readCipher = none) (hinitial : s.initialWire = [])
    (hlt : copied.length < c.ivSize) (hahead : Ahead c P copied s) :
    (s.rest = [] ∧ P.length < c.ivSize ∧ State.ivRead c s copied c.ivSize = s.finishRead (.error s.ending)) ∨
    ∃ (chunk : List UInt8) (carrier : Segments UInt8), Core c P { s with carrier } ∧
      (((copied ++ chunk).length = c.ivSize ∧ copied ++ chunk ++ State.rest { s with carrier } = P ∧
        State.ivRead c s copied c.ivSize = State.ivReceived c { s with carrier } (copied ++ chunk)) ∨
      ((copied ++ chunk).length < c.ivSize ∧ Ahead c P (copied ++ chunk) { s with carrier } ∧
        State.ivRead c s copied c.ivSize =
        { s with carrier, lower := s.lower ++ [.iv (copied ++ chunk) c.ivSize] })) := by
  unfold State.ivRead
  cases hread : s.carrier.readSome (c.ivSize - copied.length) with
  | none =>
    have hnil : s.rest = [] := by rw [State.rest, hinitial, Segments.readSome_eq_none hread]; rfl
    refine .inl ⟨hnil, ?_, rfl⟩
    rcases hahead with hP | ⟨-, hshort⟩
    · rw [hnil, append_nil] at hP
      rw [← hP]
      exact hlt
    · exact hshort
  | some r =>
    obtain ⟨chunk, carrier⟩ := r
    have hbytes := Segments.readSome_bytes _ _ _ _ hread
    obtain ⟨-, hle⟩ := Segments.readSome_length_le h.carrier_le hread
    have heq : s.rest = chunk ++ (s.initialWire ++ carrier.bytes) := by rw [State.rest, hinitial, hbytes]; rfl
    have hroom := Segments.readSome_le hread
    rw [Ahead, heq, ← append_assoc, append_eq_nil_iff] at hahead
    refine .inr ⟨chunk, carrier, h.consume hnone heq h.initial_le hle, ?_⟩
    by_cases hlen : (copied ++ chunk).length = c.ivSize
    · refine .inl ⟨hlen, ?_, if_pos hlen⟩
      rcases hahead with hP | ⟨⟨hchunk, -⟩, -⟩
      · exact hP
      · rw [hchunk, append_nil] at hlen
        exact absurd hlen (Nat.ne_of_lt hlt)
    · refine .inr ⟨?_, hahead.imp id (And.imp_left And.right), if_neg hlen⟩
      rw [length_append] at hlen ⊢
      omega

theorem ivRead_inv (hmode : c.obfsMode = .none) (h :
    Core c P s) (hrest : AtRest s) (hbusy : s.readHandler.isSome)
    (hprogress : s.readInProgress = true) (hnone : s.readCipher = none) (hinitial : s.initialWire = [])
    (hlt : copied.length < c.ivSize) (hahead : Ahead c P copied s) :
    Inv c P (State.ivRead c s copied c.ivSize) := by
  obtain ⟨hnil, hshort, heq⟩ | ⟨chunk, carrier,
      hcore, ⟨hlen, hP, heq⟩ | ⟨hless, hnow, heq⟩⟩ := ivRead_cases h hnone hinitial hlt hahead
  · rw [heq]
    exact finishRead_inv h hrest hbusy rfl (fun _ => hnil) fun _ => .inr ⟨hnil, hshort⟩
  · rw [heq]
    exact ivReceived_inv hmode hcore hrest hbusy hprogress hnone (ivSize_known (Nat.zero_lt_of_lt hlt)) hlen hP
  · rw [heq]
    refine ⟨{ hcore with }, .iv (copied ++ chunk), ?_, hrest.2, hbusy, hprogress, hnone, hinitial, hless, hnow⟩
    rw [hrest.1]
    rfl

theorem ciphertextRead_inv (h : Core c P s) (hrest : AtRest s) (hbusy : s.readHandler.isSome)
    (hcipher : s.readCipher.isSome) (hinitial : s.initialWire = []) (room : Nat) :
    Inv c P (State.ciphertextRead c s room) := by
  unfold State.ciphertextRead
  cases hread : s.carrier.readSome room with
  | none =>
    have hnil : s.rest = [] := by rw [State.rest, hinitial, Segments.readSome_eq_none hread]; rfl
    have hnot : s.readCipher = none → Ahead c P [] s := fun hnone => by rw [hnone] at hcipher; cases hcipher
    dsimp only
    split
    · obtain ⟨id, hid⟩ := Option.isSome_iff_exists.1 hbusy
      obtain ⟨k, hk⟩ := Option.isSome_iff_exists.1 hcipher
      have hd := h.deciphered
      rw [Deciphered, hk] at hd
      obtain ⟨cipher, -, -, hc, -⟩ := hd
      have hsame : State.processPlaintext c s (some .eof) [] = s.finishRead (.error .eof) := by
        unfold State.processPlaintext State.finishRead
        simp only [hid, hk, hc, StreamCipher.update, length_nil, Nat.not_lt_zero, if_false]
      rw [hsame]
      exact finishRead_inv h hrest hbusy rfl (fun _ => hnil) hnot
    · exact finishRead_inv h hrest hbusy rfl (fun _ => hnil) hnot
  | some r =>
    obtain ⟨chunk, carrier⟩ := r
    have hbytes := Segments.readSome_bytes _ _ _ _ hread
    obtain ⟨hchunk, hle⟩ := Segments.readSome_length_le h.carrier_le hread
    refine deliver_inv h hrest hbusy hcipher ?_ h.initial_le hle hchunk
    rw [State.rest, hinitial, hbytes]
    rfl

theorem step_inv (hmode : c.obfsMode = .none) (h : Inv c P s) (e : Event) : Inv c P (step c s e) := by
  obtain ⟨hcore, stage, hstage⟩ := h
  cases e with
  | read room =>
    unfold step State.read
    dsimp only
    split
    · have hpost := hcore.post (r := .error .alreadyStarted) ⟨rfl, rfl⟩
      exact ⟨hpost, stage, by cases stage <;> exact hstage⟩
    · rename_i hfree
      split
      · have hpost := hcore.post (r := .ok []) ⟨rfl, rfl⟩
        exact ⟨hpost, stage, by cases stage <;> exact hstage⟩
      · have hready := hcore.ready
        rw [if_neg (by rw [hready]; decide)]
        -- a read that is not refused finds the stream at rest
        cases stage with
        | idle =>
          obtain ⟨hlower, hexact, hhandler, -, hahead⟩ := hstage
          have hpark := hcore.park hhandler room
          split
          · rename_i hnone
            have hnone' : s.readCipher = none := by simpa using hnone
            exact receiveIv_inv hmode hpark ⟨hlower, hexact⟩ rfl rfl hnone' (hahead hnone')
          · rename_i hsome
            refine receivePlaintext_inv hmode hpark ⟨hlower, hexact⟩ rfl rfl ?_
            cases hk : s.readCipher with
            | none => rw [hk] at hsome; exact absurd rfl hsome
            | some _ => rfl
        | iv copied => exact absurd hstage.2.2.2.1 hfree
        | ivPosted iv => exact absurd hstage.2.2.2.1 hfree
        | ciphertext => exact absurd hstage.2.2.2.1 hfree
  | complete i =>
    have hcore' : Core c P { s with lower := s.lower.eraseIdx i } :=
      { hcore with }
    unfold step
    cases stage with
    | idle =>
      rw [hstage.1]
      exact ⟨hcore, .idle, hstage⟩
    | iv copied =>
      cases i with
      | zero =>
        obtain ⟨hlower, hexact, hbusy, hprogress, hnone, hinitial, hlt, hahead⟩ := hstage
        rw [hlower] at hcore' ⊢
        exact ivRead_inv hmode hcore' ⟨rfl, hexact⟩ hbusy hprogress hnone hinitial hlt hahead
      | succ i =>
        rw [hstage.1]
        exact ⟨hcore, .iv copied, hstage⟩
    | ivPosted iv =>
      rw [hstage.1]
      exact ⟨hcore, .ivPosted iv, hstage⟩
    | ciphertext =>
      cases i with
      | zero =>
        obtain ⟨hlower, hexact, hbusy, hprogress, hcipher, hinitial⟩ := hstage
        rw [hlower] at hcore' ⊢
        exact ciphertextRead_inv hcore' ⟨rfl, hexact⟩ hbusy hcipher hinitial s.readBuffer
      | succ i =>
        rw [hstage.1]
        exact ⟨hcore, .ciphertext, hstage⟩
  | posted =>
    unfold step
    dsimp only
    split
    · exact ⟨hcore, stage, hstage⟩
    · rename_i p rest hp
      exact ⟨hcore.runPosted hp, stage, by cases stage <;> exact hstage⟩
  | postedExact =>
    unfold step
    cases stage with
    | idle =>
      rw [hstage.2.1]
      exact ⟨hcore, .idle, hstage⟩
    | iv copied =>
      rw [hstage.2.1]
      exact ⟨hcore, .iv copied, hstage⟩
    | ivPosted iv =>
      obtain ⟨hlower, hexact, hbusy, hprogress, hnone, hknown, hlen, hP⟩ := hstage
      rw [hexact]
      have hcore' : Core c P { s with postedExact := [] } :=
        { hcore with }
      exact ivReceived_inv hmode hcore' ⟨hlower, rfl⟩ hbusy hprogress hnone hknown hlen hP
    | ciphertext =>
      rw [hstage.2.1]
      exact ⟨hcore, .ciphertext, hstage⟩

end Functions

/-! ## What follows of it -/

theorem start_inv (c : Config κ) (server : Server) (hmode : c.obfsMode = .none) :
    Inv c (payload c.obfsMode server) (start c server) := by
  rw [hmode]
  refine ⟨⟨fun id => ?_, nofun, ?_, rfl, server.initialWire_le, server.carrier_le, ?_, rfl⟩, .idle, rfl,
    rfl, rfl, rfl,
    fun _ => .inl rfl⟩
  · simp [start]
  · rw [start, hmode]
    rfl
  · rintro ⟨r, hr, -⟩
    cases hr

section Sound

variable {c : Config κ} {server : Server} {s : State κ}

theorem once_of_ledger (h : Ledger s) :
    (s.results.map (·.1)).Nodup ∧ (∀ id ∈ s.results.map (·.1), id < s.reads) ∧
      (s.readHandler = none → s.posted = [] → ∀ id < s.reads, id ∈ s.results.map (·.1)) := by
  refine ⟨nodup_iff_count_le_one.2 fun id => ?_, fun id hid => ?_, fun hidle hposted id hid => ?_⟩
  · have := h id
    split at this <;> split at this <;> omega
  · have := h id
    have hpos := count_pos_iff.2 hid
    by_cases hlt : id < s.reads
    · exact hlt
    · rw [if_neg hlt] at this
      omega
  · have := h id
    rw [hidle, hposted, if_pos hid] at this
    refine count_pos_iff.1 ?_
    simp only [map_nil, count_nil, reduceCtorEq, if_false] at this
    omega

theorem in_order_of_core (h : Core c (payload c.obfsMode server) s) : s.delivered <+: plaintext c server := by
  have hd := h.deciphered
  unfold Deciphered at hd
  unfold plaintext
  cases hk : s.readCipher with
  | none =>
    rw [hk] at hd
    rw [show s.delivered = [] from hd]
    exact nil_prefix
  | some k =>
    rw [hk] at hd
    obtain ⟨cipher, iv, ct, hc, hiv, hP, hupd⟩ := hd
    rw [hc]
    dsimp only
    rw [StreamCipher.decrypt, hP, ← hiv, take_left, drop_left,
      show s.delivered = (cipher.update (cipher.init iv) ct).2 by rw [hupd]]
    exact StreamCipher.update_prefix _ _ _

theorem whole_of_core (hcore : Core c (payload c.obfsMode server) s) (hnil : s.rest = [])
    (hshort : s.readCipher = none → (payload c.obfsMode server).length ≤ c.ivSize) : s.delivered =
    plaintext c server := by
  have hd := hcore.deciphered
  unfold Deciphered at hd
  unfold plaintext
  cases hk : s.readCipher with
  | some k =>
    rw [hk] at hd
    obtain ⟨cipher, iv, ct, hc, hiv, hP, hupd⟩ := hd
    rw [hnil, append_nil] at hP
    rw [hc]
    dsimp only
    rw [StreamCipher.decrypt, hP, ← hiv, take_left, drop_left, hupd]
  | none =>
    rw [hk] at hd
    rw [show s.delivered = [] from hd]
    cases hc : c.cipher with
    | none => rfl
    | some cipher =>
      have hsize : c.ivSize = cipher.ivSize := by rw [Config.ivSize, hc]; rfl
      refine (StreamCipher.decrypt_short ?_).symm
      rw [← hsize]
      exact hshort hk

theorem length_of_ahead (hnil : s.rest = []) {P copied : List UInt8} (hle : copied.length ≤ c.ivSize)
    (h : Ahead c P copied s) :
    P.length ≤ c.ivSize := by
  rcases h with hP | ⟨-, hshort⟩
  · rw [hnil, append_nil] at hP
    rw [← hP]
    exact hle
  · omega

theorem whole_of_inv (h : Inv c (payload c.obfsMode server) s) (hnil : s.rest = []) :
    s.delivered = plaintext c server := by
  obtain ⟨hcore, stage, hstage⟩ := h
  refine whole_of_core hcore hnil fun hk => ?_
  cases stage with
  | idle => exact length_of_ahead hnil (Nat.zero_le _) (hstage.2.2.2.2 hk)
  | iv copied => exact length_of_ahead hnil (Nat.le_of_lt hstage.2.2.2.2.2.2.1) hstage.2.2.2.2.2.2.2
  | ivPosted bytes => exact length_of_ahead hnil (Nat.le_of_eq hstage.2.2.2.2.2.2.1) (.inl hstage.2.2.2.2.2.2.2)
  | ciphertext =>
    have hsome := hstage.2.2.2.2.1
    rw [hk] at hsome
    cases hsome

theorem sound_of_inv (h : Inv c (payload c.obfsMode server) s) : Sound c server s := by
  obtain ⟨honce, hmade, hcalled⟩ := once_of_ledger h.1.ledger
  refine ⟨?_, h.1.iv_first, in_order_of_core h.1, fun hr => whole_of_inv h (h.1.ended hr), honce, hmade, ?_⟩
  · obtain ⟨-, stage, hstage⟩ := h
    cases stage <;> rw [hstage.1] <;> simp
  · intro hlower hposted hexact
    refine hcalled ?_ hposted
    obtain ⟨-, stage, hstage⟩ := h
    cases stage with
    | idle => exact hstage.2.2.1
    | iv copied => rw [hstage.1] at hlower; cases hlower
    | ivPosted bytes => rw [hstage.2.1] at hexact; cases hexact
    | ciphertext => rw [hstage.1] at hlower; cases hlower

end Sound

/-! ## Before the first read that wants bytes -/

structure Unread (c : Config κ) (server : Server) (s : State κ) : Prop where
  ledger : Ledger s
  quiet : ∀ p ∈ s.posted, Quiet p.2
  silent : ∀ p ∈ s.results, Quiet p.2
  iv_first : s.misuse = false
  ready : s.obfsResponseReady = (c.obfsMode == .none)
  idle : s.readHandler = none ∧ s.readInProgress = false ∧ s.readCipher = none
  at_rest : AtRest s

theorem start_unread (c : Config κ) (server : Server) : Unread c server (start c server) :=
  ⟨fun id => by simp [start], nofun, nofun, rfl, rfl, ⟨rfl, rfl, rfl⟩, ⟨rfl, rfl⟩⟩

variable {s : State κ} {server : Server} {c : Config κ}

theorem step_unread (h : Unread c server s) (e : Event)
    (he : ∀ room, e = .read room → room = 0) : Unread c server (step c s e) := by
  obtain ⟨hhandler, hprogress, hcipher⟩ := h.idle
  cases e with
  | read room =>
    have h0 := he room rfl
    unfold step State.read
    dsimp only
    rw [if_neg (by rw [hprogress]; decide), if_pos h0]
    refine { h with ledger := fun id => ?_, quiet := fun p hp => ?_ }
    · have hid := h.ledger id
      simp only [map_append, count_append, map_cons, map_nil, count_singleton, beq_iff_eq,
        made_succ]
      omega
    · rcases mem_append.1 hp with hp | hp
      · exact h.quiet p hp
      · rw [mem_singleton.1 hp]
        exact ⟨rfl, rfl⟩
  | complete i =>
    unfold step
    rw [h.at_rest.1]
    exact h
  | posted =>
    unfold step
    dsimp only
    split
    · exact h
    · rename_i p rest hp
      refine ⟨fun id => ?_, fun q hq => h.quiet q (by rw [hp]; exact mem_cons_of_mem p hq), fun q hq => ?_,
        h.iv_first, h.ready, h.idle, h.at_rest⟩
      · have hid := h.ledger id
        rw [hp] at hid
        simp only [map_append, count_append, map_cons, map_nil, count_nil,
          count_cons] at hid ⊢
        omega
      · rcases mem_append.1 hq with hq | hq
        · exact h.silent q hq
        · rw [mem_singleton.1 hq]
          exact h.quiet p (by rw [hp]; exact mem_cons_self)
  | postedExact =>
    unfold step
    rw [h.at_rest.2]
    exact h

theorem sound_of_unread (h : Unread c server s) : Sound c server s := by
  obtain ⟨honce, hmade, hcalled⟩ := once_of_ledger h.ledger
  have hnone : s.delivered = [] := flatMap_eq_nil_iff.2 fun p hp => (h.silent p hp).1
  refine ⟨by rw [h.at_rest.1]; decide, h.iv_first, by rw [hnone]; exact nil_prefix, ?_, honce, hmade,
    fun _ hposted _ => hcalled h.idle.1 hposted⟩
  rintro ⟨r, hr, hend⟩
  rw [(h.silent r hr).2] at hend
  cases hend

theorem read_unsound (h : Unread c server s)
    (hmode : c.obfsMode ≠ .none) {room : Nat} (hroom : room ≠ 0) : ¬ Sound c server (step c s (.read room)) := by
  obtain ⟨hhandler, hprogress, hcipher⟩ := h.idle
  have hready : s.obfsResponseReady = false := by
    rw [h.ready]
    simpa using hmode
  intro hsound
  have hone := hsound.one_lower
  have hiv := hsound.iv_first
  unfold step State.read at hone hiv
  dsimp only at hone hiv
  rw [if_neg (by rw [hprogress]; decide), if_neg hroom, if_pos (by rw [hready]; rfl)] at hone hiv
  have hlower := h.at_rest.1
  cases hm : c.obfsMode with
  | none => exact hmode hm
  | http =>
    unfold State.receivePlaintext State.receiveObfsResponse at hone hiv
    simp only [hm, if_true, reduceCtorEq, if_false] at hone hiv
    split at hone
    · rename_i hwire
      rw [if_pos hwire] at hiv
      unfold State.processPlaintext at hiv
      simp [hcipher] at hiv
    · simp [hlower] at hone
  | tls =>
    unfold State.receivePlaintext State.receiveObfsResponse at hone hiv
    simp only [hm, if_true, reduceCtorEq, if_false] at hone hiv
    split at hone
    · rename_i hwire
      rw [if_pos hwire] at hiv
      unfold State.processPlaintext at hiv
      simp [hcipher] at hiv
    · simp [hlower] at hone

/-! ## Every run -/

theorem run_inv (server : Server) (hmode : c.obfsMode = .none) (events : List Event) :
    Inv c (payload c.obfsMode server) (Runs.run (step c) (start c server) events) :=
  Runs.run_induction (P := Inv c (payload c.obfsMode server)) (fun _ e h => step_inv hmode h e) events _
    (start_inv c server hmode)

theorem run_unread (c : Config κ) (server : Server) (events : List Event)
    (h : ∀ room, .read room ∈ events → room = 0) :
    Unread c server (Runs.run (step c) (start c server) events) := by
  induction events using List.reverseRecOn with
  | nil => exact start_unread c server
  | append_singleton events e ih =>
    rw [Runs.run_append]
    exact step_unread (ih fun room hr => h room (mem_append_left _ hr)) e
      fun room he => h room (mem_append_right _ (by rw [he]; exact mem_singleton_self _))

/-- **The reads of a run are sound in every state of it exactly when there is no obfs layer or no read
wants bytes.** -/
theorem run_reads_sound_iff (c : Config κ) (server : Server) (events : List Event) :
    (∀ pre, pre <+: events → Sound c server (Runs.run (step c) (start c server) pre)) ↔
      c.obfsMode = .none ∨ ∀ room, .read room ∈ events → room = 0 := by
  constructor
  · intro hsound
    by_cases hmode : c.obfsMode = .none
    · exact .inl hmode
    · refine .inr ?_
      -- along the run: a prefix without such a read stays unread, so the next read of bytes would break it
      induction events using List.reverseRecOn with
      | nil => exact fun _ hr => by cases hr
      | append_singleton events e ih =>
        have hbefore := ih fun pre hpre => hsound pre (hpre.trans (prefix_append _ _))
        intro room hr
        rcases mem_append.1 hr with hr | hr
        · exact hbefore room hr
        · have he := mem_singleton.1 hr
          by_contra hroom
          have hlast := hsound (events ++ [e]) (prefix_refl _)
          rw [Runs.run_append, ← he] at hlast
          exact read_unsound (run_unread c server events hbefore) hmode hroom hlast
  · rintro (hmode | hzero) pre hpre
    · exact sound_of_inv (run_inv server hmode pre)
    · exact sound_of_unread (run_unread c server pre fun room hr => hzero room (hpre.subset hr))

/-- **A read behind an HTTP obfs layer** starts the read of the response and one of the ciphertext, and
when the second one completes first, the cipher is used before there is an IV. -/
theorem read_races_obfs :
    let c : Config Unit := ⟨.http, some ⟨1, fun _ => (), fun _ b => ((), b)⟩⟩
    let server : Server := ⟨[], ⟨[[72, 84]], by decide⟩, false, by decide, by decide⟩
    (Runs.run (step c) (start c server) [.read 16]).lower.length = 2 ∧
    (Runs.run (step c) (start c server) [.read 16, .complete 1]).misuse = true ∧
    ¬ ∀ pre, pre <+: [Event.read 16, .complete 1] → Sound c server (Runs.run (step c) (start c server) pre) := by
  refine ⟨rfl, rfl, fun h => ?_⟩
  have hmisuse := (h _ (prefix_refl _)).iv_first
  cases hmisuse

end ClashNative.LegacyStream
