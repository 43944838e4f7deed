import ClashNative.SealNonces
import Mathlib.Data.List.Perm.Basic
/-!
# ClassicWrites — writes of a classic AEAD stream

`ShadowsocksStreamHandle::State::write`, `cancel_write` and `run_carrier_write` of
`shadowsocks_outbound.cpp`.  The handler of a write goes on into the task of the carrier write, so
`cancel_write` finds none.
-/
namespace ClashNative.Shadowsocks.ClassicWrites

open List

open Writes (Sealer)

inductive WriteError
  | alreadyStarted | protocolError | operationAborted | transport
  deriving DecidableEq, Repr

/-- A task `run_carrier_write`: for which call, for how many of its bytes, and what it carries. -/
structure CarrierWrite where
  id : Nat
  size : Nat
  wire : Bytes
  deriving DecidableEq, Repr

/-- A call is known by its place among the calls, which `buffers` records.  `results`: the handler calls,
each where it is decided. `pending` are the calls as their callers see them, neither answered nor
cancelled; `contended` those that were made while there was another; `landed` the carrier writes that have
completed well. -/
structure State where
  sealing : Sealing
  writeInProgress : Bool := false
  writeHandler : Option Nat := none
  tasks : List CarrierWrite := []
  results : List (Nat × Except WriteError Nat) := []
  buffers : List Bytes := []
  pending : List Nat := []
  contended : List Nat := []
  landed : List CarrierWrite := []
  deriving DecidableEq

inductive Event
  | write (data : Bytes)
  | cancelWrite
  | complete (i : Nat) (fails : Bool)
  deriving DecidableEq, Repr

namespace State

def call (s : State) (data : Bytes) : State :=
  { s with
    buffers := s.buffers ++ [data]
    contended := if s.pending = [] then s.contended else s.contended ++ [s.buffers.length] }

def answer (s : State) (id : Nat) (result : Except WriteError Nat) : State :=
  { s with results := s.results ++ [(id, result)], pending := s.pending.erase id }

def spawn (s : State) (id size : Nat) (wire : Bytes) : State :=
  { s with writeInProgress := true, writeHandler := none, tasks := s.tasks ++
    [⟨id, size, wire⟩], pending := s.pending ++ [id] }

def cancelWrite (s : State) : State :=
  match s.writeHandler with
  | none => { s with pending := [] }
  | some id => { s with writeHandler := none, writeInProgress := false, pending := [] }.answer id
    (.error .operationAborted)

/-- `run_carrier_write`, behind the write of the carrier. -/
def carrierWritten (s : State) (task : CarrierWrite) (fails : Bool) : State :=
  if fails then { s with writeInProgress := false }.answer task.id (.error .transport)
  else { s with writeInProgress := false, landed := s.landed ++ [task] }.answer task.id (.ok task.size)

end State

section Model

variable (sealer : Sealer)

def write (s : State) (data : Bytes) : State :=
  let id := s.buffers.length
  let called := s.call data
  if s.writeInProgress then called.answer id (.error .alreadyStarted)
  else if data = [] then called.answer id (.ok 0)
  else
    match s.sealing.encodeChunks sealer data.length data with
    | (none, sealing) => { called with sealing := sealing }.answer id (.error .protocolError)
    | (some wire, sealing) => { called with sealing := sealing }.spawn id data.length wire

def step (s : State) : Event → State
  | .write data => write sealer s data
  | .cancelWrite => s.cancelWrite
  | .complete i fails =>
    match s.tasks[i]? with
    | none => s
    | some task => { s with tasks := s.tasks.eraseIdx i }.carrierWritten task fails

/-- The first record under the key carries the destination: `none` where it cannot be sealed. -/
def openStream (nonceSize : Nat) (address : Bytes) : Option Bytes × State :=
  let record := Sealing.appendTcpRecord sealer ⟨List.replicate nonceSize 0, []⟩ address
  (record.1, { sealing := record.2 })

end Model

/-! ## The use of the key -/

section Seals

variable {sealer : Sealer} {first : Bytes} {s : State}

theorem write_counted (h : s.sealing.Counted first) (hof : s.sealing.OfRecords) (data : Bytes) :
    (write sealer s data).sealing.Counted first ∧ (write sealer s data).sealing.OfRecords := by
  unfold write
  split
  · exact ⟨h, hof⟩
  · split
    · exact ⟨h, hof⟩
    · have hcounted := h.encodeChunks sealer data.length data
      have hrecords := hof.encodeChunks sealer data.length data
      split
      · rename_i heq
        rw [heq] at hcounted hrecords
        exact ⟨hcounted, hrecords⟩
      · rename_i heq
        rw [heq] at hcounted hrecords
        exact ⟨hcounted, hrecords⟩

theorem step_counted (s : State) (e : Event) (h : s.sealing.Counted first ∧ s.sealing.OfRecords) :
    (step sealer s e).sealing.Counted first ∧ (step sealer s e).sealing.OfRecords := by
  cases e with
  | write data => exact write_counted h.1 h.2 data
  | cancelWrite =>
    have hsame : s.cancelWrite.sealing = s.sealing := by
      unfold State.cancelWrite
      split <;> rfl
    show s.cancelWrite.sealing.Counted first ∧ s.cancelWrite.sealing.OfRecords
    rw [hsame]
    exact h
  | complete i fails =>
    unfold step
    dsimp only
    split
    · exact h
    · unfold State.carrierWritten
      split
      · exact h
      · exact h

theorem run_counted {nonceSize : Nat} {address : Bytes} (hpos : 1 ≤ address.length)
    (hle : address.length ≤ kMaxChunkPayload)
    (events : List Event) : (Runs.run (step sealer)
      (openStream sealer nonceSize address).2 events).sealing.Counted (List.replicate nonceSize 0) ∧
      (Runs.run (step sealer) (openStream sealer nonceSize address).2 events).sealing.OfRecords :=
  Runs.run_induction step_counted events _
    ⟨(Sealing.Counted.new _).appendTcpRecord sealer address,
      (Sealing.OfRecords.new _).appendTcpRecord sealer hpos hle⟩

end Seals

/-! ## Cancelled writes -/

/-- **What is owed to the writes**: a call is turned away only for one that its caller still waits for, a
success is that of the call's own carrier write, and each call is answered once or on its way. -/
structure Kept (s : State) : Prop where
  accepted : ∀ id, (id, .error .alreadyStarted) ∈ s.results → id ∈ s.contended
  own : ∀ id n, (id, .ok n) ∈ s.results → ∃ data, s.buffers[id]? = some data ∧ n = data.length ∧
    (data ≠ [] → ∃ task ∈ s.landed, task.id = id ∧ task.size = n)
  once : ∀ id, (s.results.map Prod.fst).count id + (s.tasks.map CarrierWrite.id).count id =
    if id < s.buffers.length then 1 else 0

/-- **The condition**: a call that finds no other waiting finds no carrier write on its way, either. -/
def Clear (s : State) : Event → Prop
  | .write _ => s.pending = [] → s.writeInProgress = false
  | _ => True

structure WriteInv (s : State) : Prop extends Kept s where
  handler : s.writeHandler = none
  tasks : ∀ task ∈ s.tasks, ∃ data, s.buffers[task.id]? = some data ∧ task.size = data.length
  contended : ∀ id ∈ s.contended, id < s.buffers.length

section Runs

variable {sealer : Sealer} {s : State} {data : Bytes}

theorem getElem?_push {l : List Bytes} {id : Nat} (h : l[id]? = some data) (more : Bytes) :
    (l ++ [more])[id]? = some data := by
  rw [getElem?_append_left (List.getElem?_eq_some_iff.1 h).1]
  exact h

theorem count_push (l : List Nat) (n id : Nat) (h : l.count id = if id < n then 1 else 0) :
    (l ++ [n]).count id = if id < n + 1 then 1 else 0 := by
  rw [count_append, h, count_singleton]
  by_cases hid : n = id
  · subst hid
    simp
  · have hbeq : (n == id) = false := by simpa using hid
    have hlt : (id < n + 1) = (id < n) := by
      rw [eq_iff_iff]
      omega
    simp only [hbeq, hlt]
    simp

theorem answered_inv (h : WriteInv s) {result : Except WriteError Nat} (sealing : Sealing)
    (hturned : result = .error .alreadyStarted → s.pending ≠ [])
    (hok : ∀ n, result = .ok n → n = 0 ∧ data = []) :
    WriteInv ({ s.call data with sealing := sealing }.answer s.buffers.length result) := by
  have hcontended : ∀ id ∈ s.contended, id ∈ (s.call data).contended := by
    intro id hid
    unfold State.call
    split
    · exact hid
    · exact mem_append_left _ hid
  refine ⟨⟨fun id hid => ?_, fun id n hid => ?_, fun id => ?_⟩, h.handler, fun task hmem => ?_, fun id hid => ?_⟩
  · rcases mem_append.1 hid with hold | hnew
    · exact hcontended id (h.accepted id hold)
    · obtain ⟨rfl, hresult⟩ := Prod.ext_iff.1 (mem_singleton.1 hnew)
      unfold State.call
      rw [if_neg (hturned hresult.symm)]
      exact mem_append_right _ mem_cons_self
  · rcases mem_append.1 hid with hold | hnew
    · obtain ⟨d, hd, hn, hlanded⟩ := h.own id n hold
      exact ⟨d, getElem?_push hd data, hn, hlanded⟩
    · obtain ⟨rfl, hresult⟩ := Prod.ext_iff.1 (mem_singleton.1 hnew)
      obtain ⟨rfl, rfl⟩ := hok n hresult.symm
      exact ⟨[], getElem?_concat_length, rfl, fun hne => absurd rfl hne⟩
  · have honce := h.once id
    show ((s.results ++ [(s.buffers.length, result)]).map Prod.fst).count id +
      (s.tasks.map CarrierWrite.id).count id =
      if id < (s.buffers ++ [data]).length then 1 else 0
    rw [← count_append] at honce ⊢
    rw [map_append, append_assoc, count_append, count_append, length_append] 
    have hpush := count_push _ s.buffers.length id honce
    rw [count_append, count_append] at hpush
    simp only [map_cons, map_nil, length_singleton] at hpush ⊢
    omega
  · obtain ⟨d, hd, hsize⟩ := h.tasks task hmem
    exact ⟨d, getElem?_push hd data, hsize⟩
  · show id < (s.buffers ++ [data]).length
    rw [length_append, length_singleton]
    have hcases : id ∈ s.contended ∨ id = s.buffers.length := by
      unfold State.call at hid
      split at hid
      · exact .inl hid
      · exact (mem_append.1 hid).imp_right mem_singleton.1
    rcases hcases with hold | rfl
    · have := h.contended id hold
      omega
    · omega

theorem spawn_inv (h : WriteInv s) {wire : Bytes} (sealing : Sealing) :
    WriteInv ({ s.call data with sealing := sealing }.spawn s.buffers.length data.length wire) := by
  have hcontended : (s.call data).contended = s.contended ∨
    (s.call data).contended = s.contended ++ [s.buffers.length] := by
    unfold State.call
    split
    · exact .inl rfl
    · exact .inr rfl
  refine ⟨⟨fun id hid => ?_, fun id n hid => ?_, fun id => ?_⟩, rfl, fun task hmem => ?_, fun id hid => ?_⟩
  · have hold := h.accepted id hid
    show id ∈ (s.call data).contended
    rcases hcontended with heq | heq
    · rwa [heq]
    · rw [heq]
      exact mem_append_left _ hold
  · obtain ⟨d, hd, hn, hlanded⟩ := h.own id n hid
    exact ⟨d, getElem?_push hd data, hn, hlanded⟩
  · have honce := h.once id
    let task : CarrierWrite := ⟨s.buffers.length, data.length, wire⟩
    show (s.results.map Prod.fst).count id + ((s.tasks ++ [task]).map CarrierWrite.id).count id = if id <
        (s.buffers ++ [data]).length then 1 else 0
    rw [← count_append] at honce ⊢
    rw [map_append, ← append_assoc, length_append]
    exact count_push _ s.buffers.length id honce
  · rcases mem_append.1 hmem with hold | hnew
    · obtain ⟨d, hd, hsize⟩ := h.tasks task hold
      exact ⟨d, getElem?_push hd data, hsize⟩
    · rw [mem_singleton.1 hnew]
      exact ⟨data, getElem?_concat_length, rfl⟩
  · show id < (s.buffers ++ [data]).length
    rw [length_append, length_singleton]
    change id ∈ (s.call data).contended at hid
    rcases hcontended with heq | heq
    · rw [heq] at hid
      have := h.contended id hid
      omega
    · rw [heq] at hid
      rcases mem_append.1 hid with hold | hnew
      · have := h.contended id hold
        omega
      · rw [mem_singleton.1 hnew]
        omega

theorem write_inv (h : WriteInv s) (data : Bytes) (hclear : s.pending = [] → s.writeInProgress = false) :
    WriteInv (write sealer s data) := by
  unfold write
  split
  · rename_i hbusy
    refine answered_inv h s.sealing (fun _ hnil => ?_) fun n hn => (nomatch hn)
    rw [hclear hnil] at hbusy
    cases hbusy
  · split
    · rename_i hdata
      exact answered_inv h s.sealing (nofun) fun n hn => ⟨(Except.ok.inj hn).symm, hdata⟩
    · split
      · exact answered_inv h _ (nofun) fun n hn => (nomatch hn)
      · exact spawn_inv h _

theorem complete_inv (h : WriteInv s) {i : Nat} {task : CarrierWrite} (htask : s.tasks[i]? = some task)
    (fails : Bool) :
    WriteInv ({ s with tasks := s.tasks.eraseIdx i }.carrierWritten task fails) := by
  obtain ⟨data, hdata, hsize⟩ := h.tasks task (mem_of_getElem? htask)
  have hcount : ∀ id, (s.tasks.map CarrierWrite.id).count id = [task.id].count id +
    ((s.tasks.eraseIdx i).map CarrierWrite.id).count id := by
    intro id
    have hperm := getElem_cons_eraseIdx_perm (List.getElem?_eq_some_iff.1 htask).1
    rw [(List.getElem?_eq_some_iff.1 htask).2] at hperm
    rw [← (hperm.map CarrierWrite.id).count_eq id, map_cons, ← count_append]
    rfl
  have honce : ∀ (result : Except WriteError Nat) id,
    ((s.results ++ [(task.id, result)]).map Prod.fst).count id +
      ((s.tasks.eraseIdx i).map CarrierWrite.id).count id = if id < s.buffers.length then 1 else 0 := by
    intro result id
    rw [← h.once id, hcount id, map_append, count_append, Nat.add_assoc]
    rfl
  have htasks : ∀ task' ∈ s.tasks.eraseIdx i, ∃ data, s.buffers[task'.id]? = some data ∧
    task'.size = data.length :=
    fun task' hmem => h.tasks task' (mem_of_mem_eraseIdx hmem)
  unfold State.carrierWritten
  split
  · refine ⟨⟨fun id hid => ?_, fun id n hid => ?_, honce _⟩, h.handler, htasks, h.contended⟩
    · rcases mem_append.1 hid with hold | hnew
      · exact h.accepted id hold
      · cases mem_singleton.1 hnew
    · rcases mem_append.1 hid with hold | hnew
      · exact h.own id n hold
      · cases mem_singleton.1 hnew
  · refine ⟨⟨fun id hid => ?_, fun id n hid => ?_, honce _⟩, h.handler, htasks, h.contended⟩
    · rcases mem_append.1 hid with hold | hnew
      · exact h.accepted id hold
      · cases mem_singleton.1 hnew
    · rcases mem_append.1 hid with hold | hnew
      · obtain ⟨d, hd, hn, hlanded⟩ := h.own id n hold
        refine ⟨d, hd, hn, fun hne => ?_⟩
        obtain ⟨t, hmem, ht⟩ := hlanded hne
        exact ⟨t, mem_append_left _ hmem, ht⟩
      · cases mem_singleton.1 hnew
        exact ⟨data, hdata, hsize, fun _ => ⟨task, mem_append_right _ mem_cons_self, rfl, rfl⟩⟩

theorem step_inv (s : State) (e : Event) (h : WriteInv s) (hclear : Clear s e) : WriteInv (step sealer s e) := by
  cases e with
  | write data => exact write_inv h data hclear
  | cancelWrite =>
    have heq : s.cancelWrite = { s with pending := [] } := by
      unfold State.cancelWrite
      split
      · rfl
      · rename_i hsome
        rw [h.handler] at hsome
        cases hsome
    show WriteInv s.cancelWrite
    rw [heq]
    exact ⟨{ h with }, h.handler, h.tasks, h.contended⟩
  | complete i fails =>
    unfold step
    dsimp only
    split
    · exact h
    · exact complete_inv h ‹_› fails

theorem step_refused (s : State) (e : Event) (h : WriteInv s) (hclear : ¬ Clear s e) : ¬ Kept
    (step sealer s e) := by
  cases e with
  | write data =>
    obtain ⟨hnil, hbusy⟩ := Classical.not_imp.1 hclear
    intro hkept
    have hbusy : s.writeInProgress = true := by simpa using hbusy
    have heq : step sealer s (.write data) =
      (s.call data).answer s.buffers.length (.error .alreadyStarted) := if_pos hbusy
    rw [heq] at hkept
    have hmem := hkept.accepted s.buffers.length (mem_append_right _ mem_cons_self)
    unfold State.call at hmem
    rw [hnil] at hmem
    exact Nat.lt_irrefl _ (h.contended _ hmem)
  | cancelWrite => exact absurd trivial hclear
  | complete i fails => exact absurd trivial hclear

theorem new_inv (sealing : Sealing) : WriteInv { sealing := sealing } :=
  ⟨⟨nofun, nofun, fun _ => rfl⟩, rfl, nofun, nofun⟩

end Runs

end ClashNative.Shadowsocks.ClassicWrites
