import ClashNative.RecordStream
import Mathlib.Data.List.Infix
/-!
# RecordStreamReads — reads that are alone on the lower stream lose nothing

A read that was cancelled leaves its reads of the lower stream behind: they go on to the end of the
record, whose plaintext waits for the next read.  That holds as long as no other read of the lower stream
starts before they are through (`Alone`).
-/
namespace ClashNative.Shadowsocks

open List

open LegacyStream (ObfsMode)

variable {κ : Type}

/-- **What is owed to the readers** of a server that sends `P`: its bytes in order; no failure before the
lower stream has ended; and all of them before the end of file, where all has arrived. -/
structure Intact (P : Bytes) (s : State κ) : Prop where
  in_order : s.delivered <+: P
  fails : ∀ id e, (id, .error e) ∈ s.results → e = .operationAborted ∨ e = .alreadyStarted ∨
    s.ended.isSome = true
  whole : ∀ id, (id, .error .eof) ∈ s.results → s.wire = [] → s.delivered = P

/-- **The condition**: a read that wants bytes of the lower stream finds no other read's operation there.
-/
def Alone (s : State κ) : Event → Prop
  | .read size => s.readInProgress = false → size ≠ 0 → s.pendingPlaintext = [] → s.ops = []
  | _ => True

/-! ## The invariant -/

/-- What a stream knows of the records that come: `size` bytes for `stage` are next, `rest` is what has
not been used, `left` what it means. -/
abbrev Next (κ : Type) : Type := State κ → Stage → Nat → Bytes → Bytes → Prop

def State.turned (s : State κ) (key : Option κ) (nonce : Bytes) (ready : Bool) : State κ :=
  { s with readKey := key, readNonce := nonce, responseHeaderReady := ready }

/-- What comes depends on the key, the nonce and the header; `entry` is where a new read starts. -/
structure Framed (Ahead : Next κ) (entry : State κ → Stage × Nat) : Prop where
  frame : ∀ {s s' : State κ} {stage size rest left}, s'.readKey = s.readKey → s'.readNonce = s.readNonce →
    s'.responseHeaderReady = s.responseHeaderReady → Ahead s stage size rest left → Ahead s' stage size rest left
  entry_frame : ∀ {s s' : State κ}, s'.readKey = s.readKey →
    s'.responseHeaderReady = s.responseHeaderReady → entry s' = entry s
  entry_pos : ∀ s, 0 < (entry s).2
  short : ∀ {s stage size rest left}, Ahead s stage size rest left → rest.length < size → rest = [] ∧ left = []

structure Reader.Lawful (r : Reader κ) (Ahead : Next κ) (entry : State κ → Stage × Nat) :
    Prop extends Framed Ahead entry where
  receive : ∀ s, r.receive s = s.readExact r.mode (entry s).1 (entry s).2
  receiveSalt : ∀ s, s.readKey = none → r.receiveSalt s = s.readExact r.mode (entry s).1 (entry s).2
  received : ∀ {s : State κ} {stage bytes rest left}, Ahead s stage bytes.length (bytes ++ rest) left →
    s.pendingPlaintext = [] →
    s.readHandler.isSome = s.readInProgress → ∃ key nonce ready,
      (∃ stage' size', 0 < size' ∧ Ahead (s.turned key nonce ready) stage' size' rest left ∧
        r.received s stage bytes = (s.turned key nonce ready).readExact r.mode stage' size') ∨
      (∃ p left', left = p ++ left' ∧
        Ahead (s.turned key nonce ready) (entry (s.turned key nonce ready)).1
        (entry (s.turned key nonce ready)).2 rest left' ∧
        r.received s stage bytes = if s.readHandler.isSome then
        ({ s.turned key nonce ready with pendingPlaintext := p }).copy
          else { s.turned key nonce ready with pendingPlaintext := p })

def Continues (mode : ObfsMode) (Ahead : Next κ) (s : State κ) (rest left : Bytes) (s' : State κ) : Prop :=
  ∃ key nonce ready stage' size', 0 < size' ∧ Ahead (s.turned key nonce ready) stage' size' rest left ∧
    s' = (s.turned key nonce ready).readExact mode stage' size'

def Feeds (Ahead : Next κ) (entry : State κ → Stage × Nat) (s : State κ) (rest left : Bytes)
    (s' : State κ) : Prop :=
  ∃ key nonce ready p left', p ≠ [] ∧ left = p ++ left' ∧
    Ahead (s.turned key nonce ready) (entry (s.turned key nonce ready)).1
    (entry (s.turned key nonce ready)).2 rest left' ∧
    s' = if s.readHandler.isSome then ({ s.turned key nonce ready with pendingPlaintext := p }).copy
      else { s.turned key nonce ready with pendingPlaintext := p }

/-- **A stream that keeps its promise at once**: a read that waits is not left with nothing. -/
structure Reader.Prompt (r : Reader κ) (Ahead : Next κ) (entry : State κ → Stage × Nat) :
    Prop extends r.Lawful Ahead entry where
  prompt : ∀ {s : State κ} {stage bytes rest left}, Ahead s stage bytes.length (bytes ++ rest) left →
    s.pendingPlaintext = [] →
    s.readHandler.isSome = true → s.readInProgress = true →
    Continues r.mode Ahead s rest left (r.received s stage bytes) ∨
    Feeds Ahead entry s rest left (r.received s stage bytes)

/-- What holds while the records can be read: `left` has not been decrypted. -/
structure Core (P left : Bytes) (s : State κ) : Prop where
  order : s.delivered ++ (s.pendingPlaintext ++ left) = P
  fails : ∀ id e, (id, .error e) ∈ s.results → e = .operationAborted ∨ e = .alreadyStarted ∨
    s.ended.isSome = true
  whole : ∀ id, (id, .error .eof) ∈ s.results → s.ended.isSome = true ∧ (s.wire = [] → s.delivered = P)
  parked : s.readHandler.isSome = s.readInProgress

section Invariant

variable (Ahead : Next κ) (entry : State κ → Stage × Nat)

def Idle (left : Bytes) (s : State κ) : Prop :=
  s.ops = [] ∧ Ahead s (entry s).1 (entry s).2 (s.initialWire ++ s.wire) left ∧
    (s.obfsResponseReady = false → s.initialWire = [] ∧ s.readKey = none)

def Waits (left : Bytes) (s : State κ) : Op → Prop
  | .obfsResponse => s.obfsResponseReady = false ∧ s.readKey = none ∧ s.initialWire = [] ∧
      Ahead s (entry s).1 (entry s).2 s.wire left
  | .carrier stage size got | .obfsRecord stage size got =>
    s.obfsResponseReady = true ∧ s.initialWire = [] ∧ got.length < size ∧ Ahead s stage size (got ++ s.wire) left
  | .exact stage bytes => s.obfsResponseReady = true ∧
      Ahead s stage bytes.length (bytes ++ (s.initialWire ++ s.wire)) left

def Alive (P : Bytes) (s : State κ) : Prop :=
  ∃ left, Core P left s ∧ (Idle Ahead entry left s ∨ ∃ op, s.ops = [op] ∧ s.pendingPlaintext = [] ∧
    Waits Ahead entry left s op)

structure Dead (P : Bytes) (s : State κ) : Prop where
  ended : s.ended.isSome = true
  order : s.delivered <+: P
  whole : s.wire = [] → s.delivered = P
  pending : s.pendingPlaintext = []
  parked : s.readHandler.isSome = s.readInProgress
  drained : s.initialWire = []
  ops : ∀ stage bytes, .exact stage bytes ∉ s.ops

def Inv (P : Bytes) (s : State κ) : Prop := Alive Ahead entry P s ∨ Dead P s

end Invariant

variable {P left : Bytes} {s : State κ} {Ahead : Next κ} {entry : State κ → Stage × Nat}

theorem Inv.intact (h : Inv Ahead entry P s) : Intact P s := by
  rcases h with ⟨left, hcore, -⟩ | hdead
  · exact ⟨⟨_, hcore.order⟩, hcore.fails, fun id hid => (hcore.whole id hid).2⟩
  · exact ⟨hdead.order, fun _ _ _ => .inr (.inr hdead.ended), fun _ _ => hdead.whole⟩

/-- A new stream; without an obfs layer `initial` bytes are there already. -/
theorem opened_inv {mode : LegacyStream.ObfsMode} {nonce wire : Bytes} {initial : Nat}
    (hs : s = {
      initialWire := if mode = .none then wire.take initial else []
      obfsResponseReady := mode == .none
      readNonce := nonce
      wire := if mode = .none then wire.drop initial else wire })
    (hahead : Ahead s (entry s).1 (entry s).2 wire P) : Inv Ahead entry P s := by
  have hall : s.initialWire ++ s.wire = wire := by
    rw [hs]
    dsimp only
    split
    · exact take_append_drop _ _
    · rfl
  rw [← hall] at hahead
  subst hs
  refine .inl ⟨P, ⟨rfl, nofun, nofun, rfl⟩, .inl ⟨rfl, hahead, fun hnot => ⟨if_neg fun hmode => ?_, rfl⟩⟩⟩
  rw [hmode] at hnot
  cases hnot

/-! ## What the results hold -/

theorem delivered_append (results : List (Nat × Except StreamError Bytes)) (p : Nat × Except StreamError Bytes) :
    (results ++ [p]).flatMap (fun r => dataOf r.2) = results.flatMap (fun r => dataOf r.2) ++ dataOf p.2 := by
  rw [flatMap_append, flatMap_singleton]

def Says (s : State κ) (result : Except StreamError Bytes) : Prop :=
  dataOf result = [] ∧ result ≠ .error .eof ∧
    ∀ e, result = .error e → e = .operationAborted ∨ e = .alreadyStarted ∨ s.ended.isSome = true

variable {result : Except StreamError Bytes}

theorem Core.answer (h : Core P left s) (htells : Says s result) : Core P left (s.answer result) where
  order := by
    unfold State.answer State.delivered
    rw [delivered_append, htells.1, append_nil]
    exact h.order
  fails id e he := by
    rcases mem_append.1 he with hold | hnew
    · exact h.fails id e hold
    · exact htells.2.2 e (Prod.ext_iff.1 (mem_singleton.1 hnew)).2.symm
  whole id hid := by
    rcases mem_append.1 hid with hold | hnew
    · have hwhole := h.whole id hold
      refine ⟨hwhole.1, fun hwire => ?_⟩
      unfold State.answer State.delivered
      rw [delivered_append, htells.1, append_nil]
      exact hwhole.2 hwire
    · exact absurd (Prod.ext_iff.1 (mem_singleton.1 hnew)).2.symm htells.2.1
  parked := h.parked

theorem mem_finishRead {p : Nat × Except StreamError Bytes}
    (h : p ∈ (s.finishRead result).results) : p ∈ s.results ∨ p.2 = result := by
  unfold State.finishRead at h
  split at h
  · exact .inl h
  · rcases mem_append.1 h with hold | hnew
    · exact .inl hold
    · rw [mem_singleton.1 hnew]
      exact .inr rfl

theorem delivered_finishRead (s : State κ) (h : dataOf result = []) :
    (s.finishRead result).delivered = s.delivered := by
  unfold State.finishRead State.delivered
  split
  · rfl
  · rw [delivered_append, h, append_nil]

theorem Core.finish (h : Core P left s) (hdata : dataOf result = [])
    (hfails : ∀ e, result = .error e → e = .operationAborted ∨ e = .alreadyStarted ∨ s.ended.isSome = true)
    (hwhole : result = .error .eof → s.ended.isSome = true ∧ (s.wire = [] → s.delivered = P)) :
    Core P left (s.finishRead result) where
  order := by
    rw [delivered_finishRead s hdata]
    exact h.order
  fails id e he := by
    rcases mem_finishRead he with hold | hnew
    · exact h.fails id e hold
    · exact hfails e hnew.symm
  whole id hid := by
    rw [delivered_finishRead s hdata]
    rcases mem_finishRead hid with hold | hnew
    · exact h.whole id hold
    · exact hwhole hnew.symm
  parked := rfl

theorem Core.copy (h : Core P left s) (hparked : s.readHandler.isSome = true) : Core P left s.copy := by
  obtain ⟨id, hid⟩ := Option.isSome_iff_exists.1 hparked
  have hdelivered : s.copy.delivered = s.delivered ++ s.pendingPlaintext.take s.readBuffer := by
    unfold State.copy State.finishRead State.delivered
    simp only [hid, delivered_append]
    rfl
  have horder : s.copy.delivered ++ (s.pendingPlaintext.drop s.readBuffer ++ left) = P := by
    rw [hdelivered, append_assoc, ← append_assoc (s.pendingPlaintext.take _), take_append_drop]
    exact h.order
  have hmem : ∀ p, p ∈ s.copy.results → p ∈ s.results ∨ p.2 = .ok (s.pendingPlaintext.take s.readBuffer) :=
    fun p hp => mem_finishRead hp
  refine ⟨horder, fun id' e he => ?_, fun id' he => ?_, rfl⟩
  · rcases hmem _ he with hold | hnew
    · exact h.fails id' e hold
    · cases hnew
  · rcases hmem _ he with hold | hnew
    · refine ⟨(h.whole id' hold).1, fun hwire => ?_⟩
      have hall := (h.whole id' hold).2 hwire
      have hnil : s.pendingPlaintext ++ left = [] := by
        have horder := h.order
        rw [hall] at horder
        exact self_eq_append_right.1 horder.symm
      rw [hdelivered, hall, (append_eq_nil_iff.1 hnil).1, take_nil, append_nil]
    · cases hnew

theorem Dead.answer (h : Dead P s) (hdata : dataOf result = []) : Dead P (s.answer result) := by
  have hdelivered : (s.answer result).delivered = s.delivered := by
    unfold State.answer State.delivered
    rw [delivered_append, hdata, append_nil]
  exact { h with order := hdelivered ▸ h.order, whole := hdelivered ▸ h.whole }

theorem Dead.finish (h : Dead P s) (hdata : dataOf result = []) : Dead P (s.finishRead result) := by
  have hdelivered : (s.finishRead result).delivered = s.delivered := delivered_finishRead s hdata
  exact { h with order := hdelivered ▸ h.order, whole := hdelivered ▸ h.whole, parked := rfl }

/-! ## The reads of the lower stream -/

variable {room n : Nat} {s' : State κ}

theorem lowerRead_error {e : StreamError} (h : s.lowerRead room n = (.error e, s')) :
    s' = { s with ended := some e } := by
  unfold State.lowerRead at h
  split at h
  · rename_i e' hended
    cases h
    rw [← hended]
  · split at h
    · cases h
      rfl
    · cases h

theorem lowerRead_ok {chunk : Bytes} (h : s.lowerRead room n = (.ok chunk, s')) :
    chunk ≠ [] ∧ chunk.length ≤ room ∧ s.ended = none ∧ ∃ wire, s.wire = chunk ++ wire ∧
    s' = { s with wire := wire } := by
  unfold State.lowerRead at h
  split at h
  · cases h
  · rename_i hended
    split at h
    · cases h
    · rename_i hsome
      cases h
      refine ⟨hsome, ?_, hended, _, (take_append_drop _ _).symm, rfl⟩
      have hle := length_take_le (min n room) s.wire
      omega

section Operations

variable {r : Reader κ}

theorem start_alive (h : Core P left s) (hops : s.ops = []) (hpending : s.pendingPlaintext = []) (op : Op)
    (hwaits : Waits Ahead entry left (s.start op) op) : Alive Ahead entry P (s.start op) :=
  ⟨left, { h with }, .inr ⟨op, by rw [State.start, hops]; rfl, hpending, hwaits⟩⟩

variable {size : Nat} {stage : Stage} {copied : Bytes}

theorem readExactTls_alive (hr : r.Lawful Ahead entry) (h : Core P left s) (hops : s.ops = [])
    (hpending : s.pendingPlaintext = [])
    (hready : s.obfsResponseReady = true) (hcopied : copied.length < size)
    (hahead : Ahead s stage size (copied ++ (s.initialWire ++ s.wire)) left) :
    Alive Ahead entry P (s.readExactTls stage size copied) := by
  have hsplit : copied ++ (s.initialWire ++ s.wire) = copied ++ s.initialWire.take (size - copied.length) ++
      (s.initialWire.drop (size - copied.length) ++ s.wire) := by
    rw [append_assoc, ← append_assoc (List.take _ _), take_append_drop]
  have hcore : Core P left { s with initialWire := s.initialWire.drop (size - copied.length) } := { h with }
  unfold State.readExactTls
  dsimp only
  split
  · rename_i hfull
    refine start_alive hcore hops hpending (.exact _ _) ⟨hready, ?_⟩
    rw [hfull]
    rw [hsplit] at hahead
    exact hr.frame (s := s) rfl rfl rfl hahead
  · rename_i hshort
    have hlen := length_take (i := size - copied.length) (l := s.initialWire)
    rw [length_append] at hshort
    have hdrop : s.initialWire.drop (size - copied.length) = [] := drop_eq_nil_of_le (by omega)
    refine start_alive hcore hops hpending (.obfsRecord _ _ _) ⟨hready, hdrop, ?_, ?_⟩
    · rw [length_append]
      omega
    · rw [hdrop, nil_append] at hsplit
      rw [hsplit] at hahead
      exact hr.frame (s := s) rfl rfl rfl hahead

theorem readExact_alive (hr : r.Lawful Ahead entry) (h : Core P left s) (hops : s.ops = [])
    (hpending : s.pendingPlaintext = [])
    (hready : s.obfsResponseReady = true) (hsize : 0 < size)
    (hahead : Ahead s stage size (s.initialWire ++ s.wire) left) (mode : ObfsMode) :
    Alive Ahead entry P (s.readExact mode stage size) := by
  unfold State.readExact
  split
  · exact readExactTls_alive hr h hops hpending hready hsize hahead
  · have hsplit : s.initialWire ++ s.wire = s.initialWire.take size ++ (s.initialWire.drop size ++ s.wire) := by
      rw [← append_assoc, take_append_drop]
    have hcore : Core P left { s with initialWire := s.initialWire.drop size } := { h with }
    dsimp only
    split
    · rename_i hfull
      refine start_alive hcore hops hpending (.exact _ _) ⟨hready, ?_⟩
      rw [hfull]
      rw [hsplit] at hahead
      exact hr.frame (s := s) rfl rfl rfl hahead
    · rename_i hshort
      have hlen := length_take (i := size) (l := s.initialWire)
      have hdrop : s.initialWire.drop size = [] := drop_eq_nil_of_le (by omega)
      refine start_alive hcore hops hpending (.carrier _ _ _) ⟨hready, hdrop, by omega, ?_⟩
      rw [hdrop, nil_append] at hsplit
      rw [hsplit] at hahead
      exact hr.frame (s := s) rfl rfl rfl hahead

theorem received_alive (hr : r.Lawful Ahead entry) (h : Core P left s) (hops : s.ops = [])
    (hpending : s.pendingPlaintext = [])
    (hready : s.obfsResponseReady = true) {bytes : Bytes}
    (hahead : Ahead s stage bytes.length (bytes ++ (s.initialWire ++ s.wire)) left) :
    Alive Ahead entry P (r.received s stage bytes) := by
  obtain ⟨key, nonce, ready, houtcome⟩ := hr.received hahead hpending h.parked
  have hturned : Core P left (s.turned key nonce ready) := { h with }
  rcases houtcome with ⟨stage', size', hsize, hahead', heq⟩ | ⟨p, left', hleft, hahead', heq⟩
  · rw [heq]
    exact readExact_alive hr hturned hops hpending hready hsize hahead' r.mode
  · have hcore : Core P left' { s.turned key nonce ready with pendingPlaintext := p } := by
      refine { h with order := ?_ }
      have horder := h.order
      rw [hpending, nil_append, hleft] at horder
      exact horder
    have hidle : ∀ (s' : State κ), s'.readKey = key → s'.readNonce = nonce →
      s'.responseHeaderReady = ready → s'.ops = [] →
        s'.initialWire ++ s'.wire = s.initialWire ++ s.wire → s'.obfsResponseReady = true →
        Idle Ahead entry left' s' := by
      intro s' hkey hnonce hheader hops' hwire hready'
      refine ⟨hops', ?_, fun hnot => absurd (hnot.symm.trans hready') Bool.noConfusion⟩
      rw [hr.entry_frame (s := s.turned key nonce ready) hkey hheader, hwire]
      exact hr.frame hkey hnonce hheader hahead'
    rw [heq]
    split
    · rename_i hparked
      exact ⟨left', hcore.copy hparked, .inl (hidle _ rfl rfl rfl hops rfl hready)⟩
    · exact ⟨left', hcore, .inl (hidle _ rfl rfl rfl hops rfl hready)⟩

theorem Core.dead (h : Core P left s) (hdrained : s.initialWire = []) (hops : s.ops = [])
    (hpending : s.pendingPlaintext = [])
    (hended : s.ended.isSome = true) (hleft : s.wire = [] → left = []) : Dead P s := by
  have horder : s.delivered ++ left = P := by
    have horder := h.order
    rwa [hpending, nil_append] at horder
  refine ⟨hended, ⟨_, horder⟩, fun hwire => ?_, hpending, h.parked, hdrained, fun stage bytes hmem => ?_⟩
  · rwa [hleft hwire, append_nil] at horder
  · rw [hops] at hmem
    cases hmem

/-! ## The events -/

variable {s' : State κ}

theorem Idle.frame (hf : Framed Ahead entry) (h : Idle Ahead entry left s) (hkey : s'.readKey = s.readKey)
    (hnonce : s'.readNonce = s.readNonce) (hheader : s'.responseHeaderReady = s.responseHeaderReady)
    (hops : s'.ops = s.ops)
    (hinitial : s'.initialWire = s.initialWire) (hwire : s'.wire = s.wire)
    (hready : s'.obfsResponseReady = s.obfsResponseReady) :
    Idle Ahead entry left s' := by
  refine ⟨hops.trans h.1, ?_, fun hnot => ?_⟩
  · rw [hf.entry_frame hkey hheader, hinitial, hwire]
    exact hf.frame hkey hnonce hheader h.2.1
  · rw [hinitial, hkey]
    exact h.2.2 (hready.symm.trans hnot)

variable {op : Op}

theorem Waits.frame (hf : Framed Ahead entry) (h : Waits Ahead entry left s op) (hkey : s'.readKey = s.readKey)
    (hnonce : s'.readNonce = s.readNonce) (hheader : s'.responseHeaderReady = s.responseHeaderReady)
    (hinitial : s'.initialWire = s.initialWire) (hwire : s'.wire = s.wire)
    (hready : s'.obfsResponseReady = s.obfsResponseReady) :
    Waits Ahead entry left s' op := by
  cases op with
  | obfsResponse =>
    refine ⟨hready.trans h.1, hkey.trans h.2.1, hinitial.trans h.2.2.1, ?_⟩
    rw [hf.entry_frame hkey hheader, hwire]
    exact hf.frame hkey hnonce hheader h.2.2.2
  | carrier stage size got | obfsRecord stage size got =>
    refine ⟨hready.trans h.1, hinitial.trans h.2.1, h.2.2.1, ?_⟩
    rw [hwire]
    exact hf.frame hkey hnonce hheader h.2.2.2
  | exact stage bytes =>
    refine ⟨hready.trans h.1, ?_⟩
    rw [hinitial, hwire]
    exact hf.frame hkey hnonce hheader h.2

theorem Inv.results (hf : Framed Ahead entry) (h : Inv Ahead entry P s) (hcore : ∀ left, Core P left s →
    Core P left s')
    (hdead : Dead P s → Dead P s') (hkey : s'.readKey = s.readKey) (hnonce : s'.readNonce = s.readNonce)
    (hheader : s'.responseHeaderReady = s.responseHeaderReady) (hops : s'.ops = s.ops)
    (hinitial : s'.initialWire = s.initialWire)
    (hwire : s'.wire = s.wire) (hready : s'.obfsResponseReady = s.obfsResponseReady)
    (hpending : s'.pendingPlaintext = s.pendingPlaintext) : Inv Ahead entry P s' := by
  rcases h with ⟨left, hc, hidle | ⟨op, hop, hnil, hwaits⟩⟩ | hd
  · exact .inl ⟨left, hcore left hc, .inl (hidle.frame hf hkey hnonce hheader hops hinitial hwire hready)⟩
  · exact .inl ⟨left, hcore left hc, .inr ⟨op, hops.trans hop, hpending.trans hnil,
      hwaits.frame hf hkey hnonce hheader hinitial hwire hready⟩⟩
  · exact .inr (hdead hd)

theorem answer_inv (hf : Framed Ahead entry) (h : Inv Ahead entry P s) (htells : Says s result) :
    Inv Ahead entry P (s.answer result) :=
  h.results hf (fun _ hc => hc.answer htells) (fun hd => hd.answer htells.1) rfl rfl rfl rfl rfl rfl rfl rfl

theorem aborted_inv (hf : Framed Ahead entry) (h : Inv Ahead entry P s) :
    Inv Ahead entry P (s.finishRead (.error .operationAborted)) := by
  refine h.results hf (fun _ hc => ?_) (fun hd => hd.finish rfl) rfl rfl rfl rfl rfl rfl rfl rfl
  exact hc.finish rfl (fun e he => .inl (Except.error.inj he).symm) nofun

theorem cancelRead_inv (hf : Framed Ahead entry) (h : Inv Ahead entry P s) : Inv Ahead entry P s.cancelRead := by
  unfold State.cancelRead
  split
  · exact h
  · exact aborted_inv hf h

theorem lowerFails_inv (hf : Framed Ahead entry) (h : Inv Ahead entry P s) (e : StreamError) :
    Inv Ahead entry P (s.lowerFails e) := by
  have hended : s.ended.isSome = true → (s.ended.or (some e)).isSome = true := fun hsome => by
    obtain ⟨e', he'⟩ := Option.isSome_iff_exists.1 hsome
    rw [he']
    rfl
  refine h.results hf (fun left hc => ⟨hc.order, fun id e' he' => ?_,
    fun id hid => ⟨hended (hc.whole id hid).1, (hc.whole id hid).2⟩, hc.parked⟩)
    (fun hd => { hd with ended := hended hd.ended }) rfl rfl rfl rfl rfl rfl rfl rfl
  exact (hc.fails id e' he').imp_right fun hor => hor.imp_right hended

theorem close_inv (hf : Framed Ahead entry) (h : Inv Ahead entry P s) : Inv Ahead entry P (Reader.close s) :=
  aborted_inv hf (lowerFails_inv hf h .operationAborted)

theorem readExact_dead (h : Dead P s) (hsize : 0 < size) (mode : ObfsMode) :
    Dead P (s.readExact mode stage size) := by
  have hne : ([] : Bytes).length ≠ size := by
    rw [length_nil]
    omega
  have hstart : ∀ op, (∀ stage bytes, op ≠ .exact stage bytes) → Dead P (s.start op) := fun op hop => by
    refine { h with ops := fun stage bytes hmem => ?_ }
    rcases mem_append.1 hmem with hold | hnew
    · exact h.ops stage bytes hold
    · exact hop stage bytes (mem_singleton.1 hnew).symm
  have hsame : { s with initialWire := [] } = s := by
    rw [← h.drained]
  unfold State.readExact State.readExactTls
  rw [h.drained]
  simp only [take_nil, drop_nil, append_nil, if_neg hne, hsame]
  split
  · exact hstart _ fun _ _ => nofun
  · exact hstart _ fun _ _ => nofun

theorem read_inv (hr : r.Lawful Ahead entry) (h : Inv Ahead entry P s) (size : Nat)
    (halone : Alone s (.read size)) :
    Inv Ahead entry P (r.read s size) := by
  unfold Reader.read
  split
  · exact answer_inv hr.toFramed h ⟨rfl, by decide, fun e he => .inr (.inl (Except.error.inj he).symm)⟩
  · rename_i hfree
    split
    · exact answer_inv hr.toFramed h ⟨rfl, (by intro he; cases he), fun e he => (nomatch he)⟩
    · rename_i hsize
      have hfree : s.readInProgress = false := by simpa using hfree
      rcases h with ⟨left, hc, hchain⟩ | hd
      · have hparked : Core P left (s.park size) := { hc with parked := rfl }
        have hidle : Idle Ahead entry left s := by
          rcases hchain with hidle | ⟨op, hop, hnil, -⟩
          · exact hidle
          · rw [halone hfree hsize hnil] at hop
            cases hop
        have hidle' : Idle Ahead entry left (s.park size) := hidle.frame hr.toFramed rfl rfl rfl rfl rfl rfl rfl
        split
        · exact .inl ⟨left, hparked.copy rfl, .inl (hidle'.frame hr.toFramed rfl rfl rfl rfl rfl rfl rfl)⟩
        · rename_i hpending
          have hpending : s.pendingPlaintext = [] := by simpa using hpending
          split
          · rename_i hnot
            have hnot : s.obfsResponseReady = false := by simpa using hnot
            have hahead := hidle.2.1
            rw [(hidle.2.2 hnot).1, nil_append] at hahead
            have hwaits : Waits Ahead entry left s .obfsResponse :=
              ⟨hnot, (hidle.2.2 hnot).2, (hidle.2.2 hnot).1, hahead⟩
            exact .inl (start_alive hparked hidle.1 hpending .obfsResponse
              (hwaits.frame hr.toFramed rfl rfl rfl rfl rfl rfl))
          · rename_i hready
            have hready : s.obfsResponseReady = true := by simpa using hready
            rw [hr.receive]
            exact .inl (readExact_alive hr hparked hidle.1 hpending hready (hr.entry_pos _) hidle'.2.1 r.mode)
      · have hparked : Dead P (s.park size) := { hd with parked := rfl }
        rw [if_neg (not_not.2 hd.pending)]
        split
        · refine .inr { hd with parked := rfl, ops := fun stage bytes hmem => ?_ }
          rcases mem_append.1 hmem with hold | hnew
          · exact hd.ops stage bytes hold
          · cases mem_singleton.1 hnew
        · rw [hr.receive]
          exact .inr (readExact_dead hparked (hr.entry_pos _) r.mode)

theorem Core.ends (h : Core P left s) (e : StreamError) : Core P left { s with ended := some e } :=
  ⟨h.order, fun _ _ _ => .inr (.inr rfl), fun id hid => ⟨rfl, (h.whole id hid).2⟩, h.parked⟩

theorem obfsResponse_inv (hr : r.Lawful Ahead entry) (h : Core P left s) (hops : s.ops = [])
    (hpending : s.pendingPlaintext = []) (hwaits : Waits Ahead entry left s .obfsResponse) (n : Nat) :
    Inv Ahead entry P (r.obfsResponse s n) := by
  obtain ⟨-, hkey, hinitial, hahead⟩ := hwaits
  unfold Reader.obfsResponse
  split
  · have hfails : (s.lowerFails .eof).ended.isSome = true := by
      unfold State.lowerFails
      cases s.ended <;> rfl
    have hcore : Core P left (s.lowerFails .eof) :=
      ⟨h.order, fun _ _ _ => .inr (.inr hfails), fun id hid => ⟨hfails, (h.whole id hid).2⟩, h.parked⟩
    refine .inr ((hcore.dead hinitial hops hpending hfails fun hwire => ?_).finish rfl)
    have hwire : s.wire = [] := hwire
    exact (hr.short hahead (by rw [hwire]; exact hr.entry_pos s)).2
  · rename_i hopen
    rw [not_or] at hopen
    have hnone : s.ended = none := by simpa using hopen.1
    have hidle : Idle Ahead entry left { s with
        wire := s.wire.drop n, initialWire := s.wire.take n, obfsResponseReady := true } := by
      have hentry : entry { s with
          wire := s.wire.drop n, initialWire := s.wire.take n, obfsResponseReady := true } = entry s :=
        hr.entry_frame rfl rfl
      refine ⟨hops, ?_, nofun⟩
      rw [hentry, take_append_drop]
      exact hr.frame (s := s) rfl rfl rfl hahead
    have hcore : Core P left { s with
        wire := s.wire.drop n, initialWire := s.wire.take n, obfsResponseReady := true } :=
      { h with whole := fun id hid => absurd (h.whole id hid).1 (by rw [hnone]; decide) }
    have heq := hr.receiveSalt { s with
        wire := s.wire.drop n, initialWire := s.wire.take n, obfsResponseReady := true } hkey
    unfold Reader.obfsResponseRead
    dsimp only
    rw [heq]
    exact .inl (readExact_alive hr hcore hops hpending rfl (hr.entry_pos _) hidle.2.1 r.mode)

theorem Core.brought (h : Core P left s) (hnone : s.ended = none)
    (wire : Bytes) : Core P left { s with wire := wire } :=
  { h with whole := fun id hid => absurd (h.whole id hid).1 (by rw [hnone]; decide) }

theorem carrierRead_inv (hr : r.Lawful Ahead entry) (h : Core P left s) (hops : s.ops = [])
    (hpending : s.pendingPlaintext = [])
    {got : Bytes} (hwaits : Waits Ahead entry left s (.carrier stage size got)) (n : Nat) :
    Inv Ahead entry P (r.carrierRead s stage size got n) := by
  obtain ⟨hready, hinitial, hgot, hahead⟩ := hwaits
  unfold Reader.carrierRead
  split
  · rename_i e s' hlower
    rw [lowerRead_error hlower]
    refine .inr (((h.ends e).dead hinitial hops hpending rfl fun hwire => ?_).finish rfl)
    rw [hwire, append_nil] at hahead
    exact (hr.short hahead hgot).2
  · rename_i chunk s' hlower
    obtain ⟨-, hle, hnone, wire, hwire, rfl⟩ := lowerRead_ok hlower
    have hcore := h.brought hnone wire
    rw [hwire, ← append_assoc] at hahead
    split
    · rename_i hfull
      refine .inl (received_alive hr hcore hops hpending hready ?_)
      rw [hfull]
      rw [hinitial, nil_append]
      exact hr.frame (s := s) rfl rfl rfl hahead
    · rename_i hmore
      rw [length_append] at hmore
      refine .inl (start_alive hcore hops hpending (.carrier stage size (got ++ chunk)) ⟨hready,
        hinitial, ?_, ?_⟩)
      · rw [length_append]
        omega
      · exact hr.frame (s := s) rfl rfl rfl hahead

theorem obfsRecord_inv (hr : r.Lawful Ahead entry) (h : Core P left s) (hops : s.ops = [])
    (hpending : s.pendingPlaintext = [])
    (hwaits : Waits Ahead entry left s (.obfsRecord stage size copied)) (n : Nat) :
    Inv Ahead entry P (r.obfsRecord s stage size copied n) := by
  obtain ⟨hready, hinitial, hcopied, hahead⟩ := hwaits
  unfold Reader.obfsRecord
  split
  · rename_i e s' hlower
    rw [lowerRead_error hlower]
    refine .inr (((h.ends e).dead hinitial hops hpending rfl fun hwire => ?_).finish rfl)
    rw [hwire, append_nil] at hahead
    exact (hr.short hahead hcopied).2
  · rename_i payload s' hlower
    obtain ⟨-, -, hnone, wire, hwire, rfl⟩ := lowerRead_ok hlower
    have hcore : Core P left { s with wire := wire, initialWire := payload } :=
      { h with whole := fun id hid => absurd (h.whole id hid).1 (by rw [hnone]; decide) }
    rw [hwire] at hahead
    exact .inl (readExactTls_alive hr hcore hops hpending hready hcopied (hr.frame (s := s) rfl rfl rfl hahead))

theorem complete_alive (hr : r.Lawful Ahead entry) (h : Core P left s) (hops : s.ops = [])
    (hpending : s.pendingPlaintext = [])
    (hwaits : Waits Ahead entry left s op) (n : Nat) : Inv Ahead entry P (r.complete s n op) := by
  cases op with
  | obfsResponse => exact obfsResponse_inv hr h hops hpending hwaits n
  | carrier stage size got => exact carrierRead_inv hr h hops hpending hwaits n
  | obfsRecord stage size copied => exact obfsRecord_inv hr h hops hpending hwaits n
  | exact stage bytes => exact .inl (received_alive hr h hops hpending hwaits.1 hwaits.2)

theorem complete_dead (h : Dead P s) (hop : ∀ stage bytes, op ≠ .exact stage bytes) (n : Nat) : Dead P
    (r.complete s n op) := by
  obtain ⟨e, he⟩ := Option.isSome_iff_exists.1 h.ended
  have hlower : ∀ room, s.lowerRead room n = (.error e, s) := fun room => by
    unfold State.lowerRead
    rw [he]
  cases op with
  | obfsResponse =>
    have hsame : s.lowerFails .eof = s := by
      unfold State.lowerFails
      rw [he]
      show { s with ended := some e } = s
      rw [← he]
    show Dead P (r.obfsResponse s n)
    unfold Reader.obfsResponse
    rw [if_pos (.inl h.ended), hsame]
    exact h.finish rfl
  | carrier stage size got =>
    show Dead P (r.carrierRead s stage size got n)
    unfold Reader.carrierRead
    rw [hlower]
    exact h.finish rfl
  | obfsRecord stage size copied =>
    show Dead P (r.obfsRecord s stage size copied n)
    unfold Reader.obfsRecord
    rw [hlower]
    exact h.finish rfl
  | exact stage bytes => exact absurd rfl (hop stage bytes)

theorem completeAt_inv (hr : r.Lawful Ahead entry) (h : Inv Ahead entry P s) (i n : Nat) :
    Inv Ahead entry P (r.step s (.complete i n)) := by
  cases hop : s.ops[i]? with
  | none =>
    rw [Reader.step_complete_none hop]
    exact h
  | some op =>
    rw [Reader.step_complete hop]
    rcases h with ⟨left, hc, hidle | ⟨op', hops, hpending, hwaits⟩⟩ | hd
    · rw [hidle.1] at hop
      cases hop
    · rw [hops] at hop
      obtain ⟨rfl, rfl⟩ : i = 0 ∧ op' = op := by
        cases i with
        | zero => exact ⟨rfl, Option.some.inj hop⟩
        | succ i => cases hop
      rw [hops]
      exact complete_alive hr (s := { s with ops := [] }) { hc with } rfl hpending
        (hwaits.frame hr.toFramed rfl rfl rfl rfl rfl rfl) n
    · refine .inr (complete_dead (s := { s with ops := s.ops.eraseIdx i }) ?_ (fun stage bytes heq => ?_) n)
      · exact { hd with ops := fun stage bytes hmem => hd.ops stage bytes (mem_of_mem_eraseIdx hmem) }
      · exact hd.ops stage bytes (heq ▸ mem_of_getElem? hop)

theorem step_inv (hr : r.Lawful Ahead entry) (s : State κ) (e : Event) (h : Inv Ahead entry P s)
    (halone : Alone s e) :
    Inv Ahead entry P (r.step s e) := by
  cases e with
  | read size => exact read_inv hr h size halone
  | cancelRead => exact cancelRead_inv hr.toFramed h
  | close => exact close_inv hr.toFramed h
  | lowerFails => exact lowerFails_inv hr.toFramed h .transport
  | complete i n => exact completeAt_inv hr h i n

end Operations

/-! ## The records -/

section Records

variable (method : CipherMethod κ) (key : κ)

def Payloads (payloads : List Bytes) : Prop := ∀ payload ∈ payloads, 0 < payload.length ∧
    payload.length ≤ kMaxChunkPayload

def RecordsAhead (s : State κ) (size : Nat) (rest left : Bytes) : Stage → Prop
  | .length => s.readKey = some key ∧ size = 2 + method.overhead ∧
    ∃ payloads, Payloads payloads ∧ rest = method.records incrementNonce key s.readNonce payloads ∧
    left = payloads.flatten
  | .payload n => s.readKey = some key ∧ size = n + method.overhead ∧
      ∃ payload payloads, Payloads (payload :: payloads) ∧ payload.length = n ∧
    rest = method.encrypt key s.readNonce payload ++ method.records incrementNonce key
    (incrementNonce s.readNonce) payloads ∧
    left = payload ++ payloads.flatten
  | _ => False

variable {method key} {size : Nat} {bytes rest : Bytes} {stage : Stage}

theorem recordsAhead_frame {s' : State κ} (hkey : s'.readKey = s.readKey) (hnonce : s'.readNonce = s.readNonce)
    (h : RecordsAhead method key s size rest left stage) : RecordsAhead method key s' size rest left stage := by
  cases stage with
  | length | payload n =>
    unfold RecordsAhead at h ⊢
    rw [hkey, hnonce]
    exact h
  | salt | responseFixed | responseVariable n => exact h

theorem recordsAhead_short (h : RecordsAhead method key s size rest left stage) (hshort : rest.length < size) :
    rest = [] ∧ left = [] := by
  cases stage with
  | length =>
    obtain ⟨-, rfl, payloads, -, rfl, rfl⟩ := h
    rw [Wire.Aead.records_short hshort]
    exact ⟨rfl, rfl⟩
  | payload n =>
    obtain ⟨-, rfl, payload, payloads, -, rfl, rfl, -⟩ := h
    rw [length_append, method.encrypt_length] at hshort
    omega
  | salt | responseFixed | responseVariable n => exact h.elim

theorem length_whole (h : RecordsAhead method key s bytes.length (bytes ++ rest) left .length) : ∃ n,
    method.decrypt key s.readNonce bytes = some (Wire.putU16 n) ∧ Wire.getU16 (Wire.putU16 n) = n ∧ 0 < n ∧
    n ≤ kMaxChunkPayload ∧
      RecordsAhead method key s.incrementReadNonce (n + method.overhead) rest left (.payload n) := by
  obtain ⟨hkey, hsize, payloads, hpayloads, hrest, hleft⟩ := h
  cases payloads with
  | nil =>
    have hnil := congrArg List.length hrest
    rw [length_append, hsize] at hnil
    simp only [Wire.Aead.records, length_nil] at hnil
    omega
  | cons payload payloads =>
    have hlength := hpayloads payload mem_cons_self
    have hlt : payload.length < 65536 := by
      have hmax : kMaxChunkPayload < 65536 := by decide
      omega
    rw [Wire.Aead.records, Wire.Aead.record, append_assoc] at hrest
    obtain ⟨hbytes, hrest⟩ := append_inj hrest (by rw [hsize, method.encrypt_length, Wire.length_putU16])
    refine ⟨payload.length, ?_, Wire.getU16_putU16 hlt, hlength.1, hlength.2, hkey, rfl, payload, payloads,
      hpayloads, rfl, hrest, ?_⟩
    · rw [hbytes]
      exact method.decrypt_encrypt key s.readNonce _
    · rw [hleft]
      rfl

theorem payload_whole {n : Nat} (h : RecordsAhead method key s bytes.length (bytes ++ rest) left
    (.payload n)) : ∃ payload left',
    method.decrypt key s.readNonce bytes = some payload ∧ payload ≠ [] ∧ left = payload ++ left' ∧
      RecordsAhead method key s.incrementReadNonce (2 + method.overhead) rest left' .length := by
  obtain ⟨hkey, hsize, payload, payloads, hpayloads, hlength, hrest, hleft⟩ := h
  obtain ⟨hbytes, hrest⟩ := append_inj hrest (by rw [hsize, method.encrypt_length, hlength])
  refine ⟨payload, payloads.flatten, ?_, ?_, hleft, hkey, rfl, payloads,
    fun p hp => hpayloads p (mem_cons_of_mem _ hp), hrest, rfl⟩
  · rw [hbytes]
    exact method.decrypt_encrypt key s.readNonce _
  · have hpos := (hpayloads payload mem_cons_self).1
    exact ne_nil_of_length_pos hpos

end Records

theorem Reader.Lawful.intact {r : Reader κ} (hr : r.Lawful Ahead entry) (h : Inv Ahead entry P s)
    (before after : List Event)
    (halone : Runs.Along r.step Alone s (before ++ after)) : Intact P (Runs.run r.step s before) := by
  have hbefore := ((Runs.along_append before after s).1 halone).1
  have hinv := Runs.along_induction (fun s e => step_inv hr s e) before s h hbefore
  exact hinv.intact

end ClashNative.Shadowsocks
