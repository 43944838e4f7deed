import ClashNative.AeadRecords
/-!
# SimpleObfs — TLS application records of simple-obfs

`make_tls_records` of `simple_obfs.cpp`.  `TlsFramed` is what the other side has to find on the
connection: records whose payloads make up a stream.
-/
namespace ClashNative.SimpleObfs

open List

open Wire (putU16 getU16)

abbrev Bytes := List UInt8

def kTlsObfsChunkSize : Nat := 2 ^ 14

def tlsRecord (payload : Bytes) : Bytes := [0x17, 0x03, 0x03] ++ (putU16 payload.length ++ payload)

/-- The loop of `make_tls_records`, over at most `n` bytes. -/
def tlsRecordsFrom : Nat → Bytes → Bytes
  | 0, _ => []
  | n + 1, payload =>
    if payload = [] then []
    else tlsRecord (payload.take kTlsObfsChunkSize) ++ tlsRecordsFrom n (payload.drop kTlsObfsChunkSize)

def makeTlsRecords (payload : Bytes) : Bytes := tlsRecordsFrom payload.length payload

/-- **Well-formed application records** whose payloads make up the stream. -/
def TlsFramed (socket stream : Bytes) : Prop :=
  ∃ payloads : List Bytes, (∀ payload ∈ payloads, 0 < payload.length ∧ payload.length ≤ kTlsObfsChunkSize) ∧
    socket = payloads.flatMap tlsRecord ∧ stream = payloads.flatten

theorem length_tlsRecord (payload : Bytes) : (tlsRecord payload).length = 5 + payload.length := by
  rw [tlsRecord, length_append, length_append, Wire.length_putU16]
  show 3 + (2 + payload.length) = 5 + payload.length
  omega

/-! ### What the records make up -/

theorem TlsFramed.nil : TlsFramed [] [] := ⟨[], fun _ h => absurd h not_mem_nil, rfl, rfl⟩

variable {stream : Bytes} {socket : Bytes}

theorem TlsFramed.append {socket' stream' : Bytes} (h : TlsFramed socket stream)
    (h' : TlsFramed socket' stream') :
    TlsFramed (socket ++ socket') (stream ++ stream') := by
  obtain ⟨payloads, hsizes, rfl, rfl⟩ := h
  obtain ⟨payloads', hsizes', rfl, rfl⟩ := h'
  refine ⟨payloads ++ payloads', fun payload hmem => ?_, (flatMap_append ..).symm, (flatten_append ..).symm⟩
  rcases mem_append.1 hmem with hmem | hmem
  · exact hsizes payload hmem
  · exact hsizes' payload hmem

theorem tlsRecordsFrom_framed : ∀ (n : Nat) (payload : Bytes), payload.length ≤ n →
    TlsFramed (tlsRecordsFrom n payload) payload
  | 0, payload, hn => by
    rw [length_eq_zero_iff.1 (Nat.le_zero.1 hn)]
    exact TlsFramed.nil
  | n + 1, payload, hn => by
    unfold tlsRecordsFrom
    split
    · rename_i hnil
      rw [hnil]
      exact TlsFramed.nil
    · rename_i hne
      have hpos : 0 < payload.length := length_pos_iff.2 hne
      have hchunk : kTlsObfsChunkSize = 16384 := rfl
      have hrest := tlsRecordsFrom_framed n (payload.drop kTlsObfsChunkSize) (by
        rw [length_drop]
        omega)
      have hfirst : TlsFramed (tlsRecord (payload.take kTlsObfsChunkSize)) (payload.take kTlsObfsChunkSize) := by
        refine ⟨[payload.take kTlsObfsChunkSize], fun p hp => ?_, by simp, by simp⟩
        rw [mem_singleton.1 hp, length_take]
        omega
      have h := hfirst.append hrest
      rwa [take_append_drop] at h

theorem makeTlsRecords_framed (payload : Bytes) : TlsFramed (makeTlsRecords payload) payload :=
  tlsRecordsFrom_framed payload.length payload (Nat.le_refl _)

theorem TlsFramed.length (h : TlsFramed socket stream) :
    socket = [] ∧ stream = [] ∨ stream.length < socket.length := by
  obtain ⟨payloads, -, rfl, rfl⟩ := h
  have hlength : (payloads.flatMap tlsRecord).length = payloads.flatten.length + 5 * payloads.length := by
    induction payloads with
    | nil => rfl
    | cons payload payloads ih =>
      rw [flatMap_cons, length_append, ih, length_tlsRecord, flatten_cons, length_append, length_cons]
      omega
  cases payloads with
  | nil => exact .inl ⟨rfl, rfl⟩
  | cons payload payloads =>
    right
    rw [hlength, length_cons]
    omega

theorem not_framed_self (h : stream ≠ []) : ¬ TlsFramed stream stream := by
  intro hframed
  rcases hframed.length with ⟨hnil, -⟩ | hlt
  · exact h hnil
  · exact Nat.lt_irrefl _ hlt

end ClashNative.SimpleObfs
