import ClashNative.RecordStream
/-!
# RecordWrites — writes of a Shadowsocks record stream

What `Shadowsocks2022StreamState` (`ss2022_stream.cpp`) and `TrojanSsStreamState` (`ss_stream.cpp`) share
where they write: one parked write, and one write of the lower stream for all of its records.  A write is
known by its place among the calls.
-/
namespace ClashNative.Shadowsocks.Writes

open List

open LegacyStream (ObfsMode)

inductive WriteError
  | transport | fault | operationAborted | alreadyStarted | operationNotSupported | protocolError
  deriving DecidableEq, Repr

structure Sealer where
  overhead : Nat
  encrypt : Bytes → Bytes → Option Bytes
  encrypt_length : ∀ nonce plaintext encrypted, encrypt nonce plaintext = some encrypted →
    encrypted.length = plaintext.length + overhead

/-- A write of the lower stream: for which call, for how many of its bytes, and what it carries. -/
structure LowerWrite where
  id : Nat
  size : Nat
  wire : Bytes
  deriving DecidableEq, Repr

/-- `lowers` are the writes of the lower stream that are outstanding, `results` the handler calls, each
where it is decided; `buffers`, `sent` and `landed` record the calls, the writes of the lower stream and
those that have completed well. -/
structure WriteState where
  writeNonce : Bytes
  saltWritten : Bool := false
  closed : Bool := false
  writeInProgress : Bool := false
  writeHandler : Option Nat := none
  sendSize : Nat := 0
  lowers : List LowerWrite := []
  results : List (Nat × Except WriteError Nat) := []
  buffers : List Bytes := []
  sent : List LowerWrite := []
  landed : List LowerWrite := []
  deriving DecidableEq

/-! ### Records -/

def appendRecord (sealer : Sealer) (nonce payload : Bytes) : Option Bytes × Bytes :=
  let encryptedLength := sealer.encrypt nonce (Wire.putU16 payload.length)
  let encryptedPayload := sealer.encrypt (incrementNonce nonce) payload
  (encryptedLength.bind fun length => encryptedPayload.map fun sealed => length ++ sealed,
    incrementNonce (incrementNonce nonce))

def appendRecords (record : Bytes → Bytes → Option Bytes × Bytes) : Nat → Bytes → Bytes → Option Bytes × Bytes
  | 0, nonce, _ => (some [], nonce)
  | n + 1, nonce, data =>
    if data = [] then (some [], nonce)
    else
      match record nonce (data.take kMaxChunkPayload) with
      | (none, nonce) => (none, nonce)
      | (some head, nonce) =>
        let rest := appendRecords record n nonce (data.drop kMaxChunkPayload)
        (rest.1.map fun tail => head ++ tail, rest.2)

namespace WriteState

/-- `post_write`, `post_write_result`, for a call that is not parked. -/
def post (s : WriteState) (data : Bytes) (result : Except WriteError Nat) : WriteState :=
  { s with results := s.results ++ [(s.buffers.length, result)], buffers := s.buffers ++ [data] }

def startWrite (s : WriteState) (data wire : Bytes) : WriteState :=
  { s with
    writeInProgress := true
    writeHandler := some s.buffers.length
    sendSize := data.length
    lowers := s.lowers ++ [⟨s.buffers.length, data.length, wire⟩]
    buffers := s.buffers ++ [data]
    sent := s.sent ++ [⟨s.buffers.length, data.length, wire⟩] }

def finishWrite (s : WriteState) (result : Except WriteError Nat) : WriteState :=
  { s with
    writeInProgress := false
    writeHandler := none
    results := match s.writeHandler with
      | none => s.results
      | some id => s.results ++ [(id, result)] }

def cancelWrite (s : WriteState) : WriteState :=
  match s.writeHandler with
  | none => s
  | some _ => s.finishWrite (.error .operationAborted)

end WriteState

/-- What the two classes do in their own way: `wire` is what a write hands to the lower stream where no
other is in progress, `size` and `failure` what its completion tells. -/
structure Writer where
  wire : WriteState → Bytes → Option Bytes
  write : WriteState → Bytes → WriteState
  size : WriteState → LowerWrite → Nat
  failure : WriteError → WriteError
  close : WriteState → WriteState

/-- What happens to a stream; a write of the lower stream completes well or with an error. -/
inductive WriteEvent
  | write (data : Bytes)
  | cancelWrite
  | close
  | complete (i : Nat) (error : Option WriteError)
  deriving DecidableEq, Repr

namespace Writer

variable (w : Writer)

def lowerWritten (s : WriteState) (lower : LowerWrite) : Option WriteError → WriteState
  | none => { s with landed := s.landed ++ [lower] }.finishWrite (.ok (w.size s lower))
  | some e => s.finishWrite (.error (w.failure e))

def step (s : WriteState) : WriteEvent → WriteState
  | .write data => w.write s data
  | .cancelWrite => s.cancelWrite
  | .close => w.close s
  | .complete i error =>
    match s.lowers[i]? with
    | none => s
    | some lower => w.lowerWritten { s with lowers := s.lowers.eraseIdx i } lower error

end Writer

/-! ## What is owed to the writes -/

def Carried (w : Writer) (s : WriteState) (lower : LowerWrite) : Prop :=
  ∃ s₀ data, s.buffers[lower.id]? = some data ∧ w.wire s₀ data = some lower.wire ∧ lower.size = data.length

/-- **Writes are answered as they went**: one write of the lower stream at a time, one call of each
handler, a success only behind the lower write of the call's own records. -/
structure Answered (w : Writer) (s : WriteState) : Prop where
  single : s.lowers.length ≤ 1
  once : ∀ id, (s.results.map Prod.fst).count id + (if s.writeHandler = some id then 1 else 0) =
    if id < s.buffers.length then 1 else 0
  served : ∀ id, s.writeHandler = some id → ∃ lower ∈ s.lowers, lower.id = id
  told : ∀ id n, (id, .ok n) ∈ s.results →
    (∃ lower ∈ s.landed, lower.id = id ∧ lower.size = n ∧ Carried w s lower) ∨
    n = 0 ∧ s.buffers[id]? = some [] ∧ ∀ lower ∈ s.sent, lower.id ≠ id

/-- **The condition**: a write that reaches the lower stream finds no write there. -/
def Clear (w : Writer) (s : WriteState) : WriteEvent → Prop
  | .write data => s.writeInProgress = false → (w.wire s data).isSome = true → s.lowers = []
  | _ => True

structure Writer.Lawful (w : Writer) : Prop where
  write : ∀ s data,
    (∃ wire nonce salt, s.writeInProgress = false ∧ w.wire s data = some wire ∧
      w.write s data = { s with writeNonce := nonce, saltWritten := salt }.startWrite data wire) ∨
    ∃ result nonce salt, (s.writeInProgress = false → w.wire s data = none) ∧
      (∀ n, result = .ok n → n = 0 ∧ data = []) ∧
      w.write s data = { s with writeNonce := nonce, saltWritten := salt }.post data result
  size : ∀ s lower, s.sendSize = lower.size → w.size s lower = lower.size
  close : ∀ s, w.close s = s ∨ w.close s = { s with closed := true }.finishWrite (.error .operationAborted)

structure WriteInv (w : Writer) (s : WriteState) : Prop where
  progress : s.writeInProgress = s.writeHandler.isSome
  one : s.lowers = [] ∧ s.writeHandler = none ∨
    ∃ lower, s.lowers = [lower] ∧ lower ∈ s.sent ∧ ∀ id, s.writeHandler = some id → id = lower.id ∧
    s.sendSize = lower.size
  once : ∀ id, (s.results.map Prod.fst).count id + (if s.writeHandler = some id then 1 else 0) =
    if id < s.buffers.length then 1 else 0
  carried : ∀ lower ∈ s.sent, Carried w s lower
  told : ∀ id n, (id, .ok n) ∈ s.results →
    (∃ lower ∈ s.landed, lower.id = id ∧ lower.size = n ∧ Carried w s lower) ∨
    n = 0 ∧ s.buffers[id]? = some [] ∧ ∀ lower ∈ s.sent, lower.id ≠ id

section Runs

variable {w : Writer} {s s' : WriteState}

theorem WriteInv.answered (h : WriteInv w s) : Answered w s := by
  refine ⟨?_, h.once, fun id hid => ?_, h.told⟩
  · rcases h.one with ⟨hnil, -⟩ | ⟨lower, hlower, -⟩
    · rw [hnil]
      exact Nat.zero_le 1
    · rw [hlower]
      exact Nat.le_refl 1
  · rcases h.one with ⟨-, hnone⟩ | ⟨lower, hlower, -, hparked⟩
    · rw [hnone] at hid
      cases hid
    · exact ⟨lower, by rw [hlower]; exact mem_singleton_self lower, (hparked id hid).1.symm⟩

theorem WriteInv.set (h : WriteInv w s) (nonce : Bytes) (salt closed : Bool) :
    WriteInv w { s with writeNonce := nonce, saltWritten := salt, closed := closed } := { h with }

variable {lower : LowerWrite}

theorem Carried.mono (h : Carried w s lower) (hbuffers : s.buffers <+: s'.buffers) : Carried w s' lower := by
  obtain ⟨s₀, data, hdata, hwire, hsize⟩ := h
  obtain ⟨rest, hrest⟩ := hbuffers
  refine ⟨s₀, data, ?_, hwire, hsize⟩
  rw [← hrest, getElem?_append_left (List.getElem?_eq_some_iff.1 hdata).1]
  exact hdata

theorem Carried.lt (h : Carried w s lower) : lower.id < s.buffers.length := by
  obtain ⟨s₀, data, hdata, -⟩ := h
  exact (List.getElem?_eq_some_iff.1 hdata).1

theorem told_mono {id n : Nat} (hbuffers : s.buffers <+: s'.buffers)
    (hlanded : ∀ lower ∈ s.landed, lower ∈ s'.landed)
    (hsent : ∀ lower ∈ s'.sent, lower ∈ s.sent ∨ s.buffers.length ≤ lower.id)
    (h : (∃ lower ∈ s.landed, lower.id = id ∧ lower.size = n ∧ Carried w s lower) ∨
      n = 0 ∧ s.buffers[id]? = some [] ∧ ∀ lower ∈ s.sent, lower.id ≠ id) :
    (∃ lower ∈ s'.landed, lower.id = id ∧ lower.size = n ∧ Carried w s' lower) ∨
      n = 0 ∧ s'.buffers[id]? = some [] ∧ ∀ lower ∈ s'.sent, lower.id ≠ id := by
  rcases h with ⟨lower, hmem, hid, hsize, hcarried⟩ | ⟨hn, hdata, hnot⟩
  · exact .inl ⟨lower, hlanded lower hmem, hid, hsize, hcarried.mono hbuffers⟩
  · have hlt := (List.getElem?_eq_some_iff.1 hdata).1
    obtain ⟨rest, hrest⟩ := hbuffers
    refine .inr ⟨hn, ?_, fun lower hmem hid => ?_⟩
    · rw [← hrest, getElem?_append_left hlt]
      exact hdata
    · rcases hsent lower hmem with hold | hnew
      · exact hnot lower hold hid
      · omega

variable {result : Except WriteError Nat} {data : Bytes}

theorem post_inv (h : WriteInv w s) (hresult : ∀ n, result = .ok n → n = 0 ∧ data = []) :
    WriteInv w (s.post data result) := by
  have hbuffers : s.buffers <+: (s.post data result).buffers := prefix_append s.buffers [data]
  refine ⟨h.progress, h.one, fun id => ?_, fun lower hmem => (h.carried lower hmem).mono hbuffers,
    fun id n hid => ?_⟩
  · have honce := h.once id
    show ((s.results ++ [(s.buffers.length, result)]).map Prod.fst).count id + _ = if id <
      (s.buffers ++ [data]).length then 1 else 0
    rw [map_append, count_append, length_append]
    show (s.results.map Prod.fst).count id + [s.buffers.length].count id +
      (if s.writeHandler = some id then 1 else 0) =
      if id < s.buffers.length + 1 then 1 else 0
    rw [count_singleton]
    by_cases hid : s.buffers.length = id
    · subst hid
      rw [if_neg (Nat.lt_irrefl _)] at honce
      simp only [beq_self_eq_true, if_true, Nat.lt_succ_self]
      omega
    · have hbeq : (s.buffers.length == id) = false := by simpa using hid
      have hlt : (id < s.buffers.length + 1) = (id < s.buffers.length) := by
        rw [eq_iff_iff]
        omega
      simp only [hbeq, hlt]
      exact honce
  · rcases mem_append.1 hid with hold | hnew
    · exact told_mono hbuffers (fun _ hmem => hmem) (fun _ hmem => .inl hmem) (h.told id n hold)
    · obtain ⟨hid, hok⟩ := Prod.ext_iff.1 (mem_singleton.1 hnew)
      obtain ⟨hn, hdata⟩ := hresult n hok.symm
      subst hid hn hdata
      refine .inr ⟨rfl, getElem?_concat_length, fun lower hmem hid => ?_⟩
      exact absurd ((h.carried lower hmem).lt) (by omega)

theorem startWrite_inv (h : WriteInv w s) {wire : Bytes} (hclear : s.lowers = []) {s₀ : WriteState}
    (hwire : w.wire s₀ data = some wire)
    (hfree : s.writeInProgress = false) : WriteInv w (s.startWrite data wire) := by
  have hnone : s.writeHandler = none := by
    have hprogress := h.progress
    rw [hfree] at hprogress
    simpa using hprogress.symm
  have hbuffers : s.buffers <+: (s.startWrite data wire).buffers := prefix_append s.buffers [data]
  refine ⟨rfl, .inr ⟨⟨s.buffers.length, data.length, wire⟩, ?_, mem_append_right _ (mem_singleton_self _),
    fun id hid => ?_⟩,
    fun id => ?_, fun lower hmem => ?_, fun id n hid => ?_⟩
  · show s.lowers ++ [_] = _
    rw [hclear, nil_append]
  · exact ⟨(Option.some.inj hid).symm, rfl⟩
  · have honce := h.once id
    rw [hnone, if_neg (nofun), Nat.add_zero] at honce
    show (s.results.map Prod.fst).count id + (if some s.buffers.length = some id then 1 else 0) =
      if id < (s.buffers ++ [data]).length then 1 else 0
    rw [honce, length_append]
    simp only [Option.some.injEq, length_singleton]
    split <;> split <;> split <;> omega
  · rcases mem_append.1 hmem with hold | hnew
    · exact (h.carried lower hold).mono hbuffers
    · rw [mem_singleton.1 hnew]
      exact ⟨s₀, data, getElem?_concat_length, hwire, rfl⟩
  · refine told_mono hbuffers (fun _ hmem => hmem) (fun lower hmem => ?_) (h.told id n hid)
    rcases mem_append.1 hmem with hold | hnew
    · exact .inl hold
    · rw [mem_singleton.1 hnew]
      exact .inr (Nat.le_refl _)

theorem mem_finishWrite {p : Nat × Except WriteError Nat} (h : p ∈ (s.finishWrite result).results) :
    p ∈ s.results ∨ s.writeHandler = some p.1 ∧ p.2 = result := by
  unfold WriteState.finishWrite at h
  split at h
  · exact .inl h
  · rename_i id hid
    rcases mem_append.1 h with hold | hnew
    · exact .inl hold
    · rw [mem_singleton.1 hnew]
      exact .inr ⟨hid, rfl⟩

theorem once_finishWrite (h : ∀ id, (s.results.map Prod.fst).count id +
    (if s.writeHandler = some id then 1 else 0) =
    if id < s.buffers.length then 1 else 0) (result : Except WriteError Nat) (id : Nat) :
    ((s.finishWrite result).results.map Prod.fst).count id +
    (if (s.finishWrite result).writeHandler = some id then 1 else 0) =
      if id < (s.finishWrite result).buffers.length then 1 else 0 := by
  have honce := h id
  unfold WriteState.finishWrite
  split
  · rename_i hnone
    rw [hnone] at honce
    exact honce
  · rename_i id' hid'
    rw [hid'] at honce
    rw [if_neg (nofun), map_append, count_append, ← honce]
    show _ + [id'].count id + 0 = _
    rw [count_singleton, Nat.add_zero]
    simp only [beq_iff_eq, Option.some.injEq]

theorem fail_inv (h : WriteInv w s) (e : WriteError) : WriteInv w (s.finishWrite (.error e)) := by
  refine ⟨rfl, ?_, once_finishWrite h.once (.error e), h.carried, fun id n hid => ?_⟩
  · rcases h.one with ⟨hnil, -⟩ | ⟨lower, hlower, hsent, -⟩
    · exact .inl ⟨hnil, rfl⟩
    · exact .inr ⟨lower, hlower, hsent, fun id hid => nomatch hid⟩
  · rcases mem_finishWrite hid with hold | ⟨-, hok⟩
    · exact h.told id n hold
    · cases hok

theorem complete_inv (hw : w.Lawful) (h : WriteInv w s) {i : Nat} (hlower : s.lowers[i]? = some lower)
    (error : Option WriteError) : WriteInv w
    (w.lowerWritten { s with lowers := s.lowers.eraseIdx i } lower error) := by
  rcases h.one with ⟨hnil, -⟩ | ⟨lower', hlowers, hsent, hparked⟩
  · rw [hnil] at hlower
    cases hlower
  · obtain ⟨rfl, rfl⟩ : i = 0 ∧ lower' = lower := by
      rw [hlowers] at hlower
      cases i with
      | zero => exact ⟨rfl, Option.some.inj hlower⟩
      | succ i => cases hlower
    have hempty : s.lowers.eraseIdx 0 = [] := by
      rw [hlowers]
      rfl
    cases error with
    | some e =>
      refine ⟨rfl, .inl ⟨hempty, rfl⟩, once_finishWrite (s := { s with lowers := s.lowers.eraseIdx 0 })
        h.once _, h.carried, fun id n hid => ?_⟩
      rcases mem_finishWrite hid with hold | ⟨-, hok⟩
      · exact h.told id n hold
      · cases hok
    | none =>
      refine ⟨rfl, .inl ⟨hempty, rfl⟩,
        once_finishWrite (s := { s with lowers := s.lowers.eraseIdx 0, landed := s.landed ++ [lower'] })
          h.once _, h.carried, fun id n hid => ?_⟩
      rcases mem_finishWrite hid with hold | ⟨hid', hok⟩
      · exact told_mono (prefix_refl s.buffers) (fun _ hmem => mem_append_left _ hmem)
          (fun _ hmem => .inl hmem) (h.told id n hold)
      · obtain ⟨hown, hsize⟩ := hparked id hid'
        refine .inl ⟨lower', mem_append_right _ (mem_singleton_self lower'), hown.symm, ?_,
          h.carried lower' hsent⟩
        rw [Except.ok.inj hok]
        exact (hw.size { s with lowers := s.lowers.eraseIdx 0 } lower' hsize).symm

theorem step_inv (hw : w.Lawful) (s : WriteState) (e : WriteEvent) (h : WriteInv w s)
    (hclear : Clear w s e) : WriteInv w (w.step s e) := by
  cases e with
  | write data =>
    show WriteInv w (w.write s data)
    rcases hw.write s data with ⟨wire, nonce, salt, hfree, hwire, heq⟩ | ⟨result, nonce, salt, -, hresult, heq⟩
    · rw [heq]
      exact startWrite_inv (h.set nonce salt s.closed) (hclear hfree (by rw [hwire]; rfl)) hwire hfree
    · rw [heq]
      exact post_inv (h.set nonce salt s.closed) hresult
  | cancelWrite =>
    show WriteInv w s.cancelWrite
    unfold WriteState.cancelWrite
    split
    · exact h
    · exact fail_inv h .operationAborted
  | close =>
    show WriteInv w (w.close s)
    rcases hw.close s with heq | heq
    · rw [heq]
      exact h
    · rw [heq]
      exact fail_inv (h.set s.writeNonce s.saltWritten true) .operationAborted
  | complete i error =>
    show WriteInv w (match s.lowers[i]? with
      | none => s
      | some lower => w.lowerWritten { s with lowers := s.lowers.eraseIdx i } lower error)
    split
    · exact h
    · exact complete_inv hw h ‹_› error

theorem step_crowded (hw : w.Lawful) (s : WriteState) (e : WriteEvent)
    (hclear : ¬ Clear w s e) : ¬ Answered w (w.step s e) := by
  cases e with
  | write data =>
    unfold Clear at hclear
    push Not at hclear
    obtain ⟨hfree, hsome, hbusy⟩ := hclear
    have hpos : 0 < s.lowers.length := length_pos_of_ne_nil hbusy
    intro hanswered
    have hsingle : (w.write s data).lowers.length ≤ 1 := hanswered.single
    rcases hw.write s data with ⟨wire, nonce, salt, -, -, heq⟩ | ⟨result, nonce, salt, hnone, -⟩
    · rw [heq] at hsingle
      have htwo : (s.lowers ++ [(⟨s.buffers.length, data.length, wire⟩ : LowerWrite)]).length ≤ 1 := hsingle
      rw [length_append, length_singleton] at htwo
      omega
    · rw [hnone hfree] at hsome
      cases hsome
  | cancelWrite => exact absurd trivial hclear
  | close => exact absurd trivial hclear
  | complete i error => exact absurd trivial hclear

/-- **In every state the writes are answered as they went** exactly when every write that reaches the
lower stream finds it free. -/
theorem Writer.Lawful.answered_iff (hw : w.Lawful) (h : WriteInv w s) (events : List WriteEvent) :
    (∀ pre, pre <+: events → Answered w (Runs.run w.step s pre)) ↔ Runs.Along w.step (Clear w) s events :=
  Runs.forall_prefix_iff_along (P := WriteInv w) (fun _ hs => hs.answered) (step_inv hw)
    (fun s e _ hclear => step_crowded hw s e hclear) h events

end Runs

end ClashNative.Shadowsocks.Writes
