import ClashNative.RecordWrites
import Mathlib.Algebra.GroupWithZero.Nat
import Mathlib.Data.List.Nodup
import Mathlib.Data.Nat.ModEq
import Mathlib.Logic.Function.Iterate
/-!
# SealNonces — the nonces under one key

`increment_nonce` counts up in as many bytes as a nonce has, the lowest first, and comes round.  `Sealing`
is the use of a key: where its nonce stands, and what it has sealed under which nonce.
-/
namespace ClashNative.Shadowsocks

open List

open Writes (Sealer appendRecord appendRecords)

/-! ### The counter -/

def counter : Bytes → Nat
  | [] => 0
  | byte :: rest => byte.toNat + 256 * counter rest

theorem counter_lt : ∀ nonce : Bytes, counter nonce < 256 ^ nonce.length
  | [] => Nat.one_pos
  | byte :: rest => by
    have hrest := counter_lt rest
    have hbyte := byte.toNat_lt
    rw [counter, length_cons, Nat.pow_succ]
    omega

@[simp] theorem length_incrementNonce : ∀ nonce : Bytes, (incrementNonce nonce).length = nonce.length
  | [] => rfl
  | byte :: rest => by
    rw [incrementNonce]
    split
    · rfl
    · rw [length_cons, length_incrementNonce rest, length_cons]

theorem counter_incrementNonce : ∀ nonce : Bytes, counter (incrementNonce nonce) =
    (counter nonce + 1) % 256 ^ nonce.length
  | [] => (Nat.mod_one _).symm
  | byte :: rest => by
    have hrest := counter_lt rest
    have hbyte := byte.toNat_lt
    have hnext : (byte + 1).toNat = (byte.toNat + 1) % 256 := by simp [UInt8.toNat_add]
    rw [incrementNonce]
    split
    · rename_i hne
      have hlt : byte.toNat + 1 < 256 := by
        by_contra hnot
        refine hne (UInt8.toNat_inj.1 ?_)
        show (byte.toNat + 1) % 256 = 0
        omega
      rw [counter, counter, hnext, Nat.mod_eq_of_lt hlt, length_cons, Nat.pow_succ, Nat.mod_eq_of_lt (by omega)]
      omega
    · rename_i hzero
      have hzero : (byte.toNat + 1) % 256 = 0 := by
        rw [← hnext, not_not.1 hzero]
        rfl
      rw [counter, counter, hnext, hzero, counter_incrementNonce rest, length_cons, Nat.pow_succ,
        Nat.zero_add, Nat.mul_comm _ 256,
        ← Nat.mul_mod_mul_left]
      congr 1
      omega

theorem counter_inj : ∀ {a b : Bytes}, a.length = b.length → counter a = counter b → a = b
  | [], [], _, _ => rfl
  | x :: a, y :: b, hlength, h => by
    have hx := x.toNat_lt
    have hy := y.toNat_lt
    rw [counter, counter] at h
    rw [counter_inj (Nat.succ.inj hlength) (by omega : counter a = counter b),
      UInt8.toNat_inj.1 (by omega : x.toNat = y.toNat)]

theorem length_iterate (n : Nat) (nonce : Bytes) : (incrementNonce^[n] nonce).length = nonce.length := by
  induction n with
  | zero => rfl
  | succ n ih => rw [Function.iterate_succ_apply', length_incrementNonce, ih]

theorem counter_iterate (n : Nat) (nonce : Bytes) :
    counter (incrementNonce^[n] nonce) = (counter nonce + n) % 256 ^ nonce.length := by
  induction n with
  | zero => rw [Function.iterate_zero, id, Nat.add_zero, Nat.mod_eq_of_lt (counter_lt nonce)]
  | succ n ih => rw [Function.iterate_succ_apply', counter_incrementNonce, ih, length_iterate,
    Nat.mod_add_mod, Nat.add_assoc]

theorem iterate_eq_iff {i j : Nat} (nonce : Bytes) :
    incrementNonce^[i] nonce = incrementNonce^[j] nonce ↔ i % 256 ^ nonce.length = j % 256 ^ nonce.length := by
  have hcounter : incrementNonce^[i] nonce = incrementNonce^[j] nonce ↔
      (counter nonce + i) % 256 ^ nonce.length = (counter nonce + j) % 256 ^ nonce.length := by
    rw [← counter_iterate, ← counter_iterate]
    exact ⟨congrArg counter, counter_inj (by rw [length_iterate, length_iterate])⟩
  rw [hcounter]
  exact ⟨fun h => Nat.ModEq.add_left_cancel' (counter nonce) h, fun h => Nat.ModEq.add_left (counter nonce) h⟩

theorem iterate_nodup_iff (n : Nat) (nonce : Bytes) :
    ((List.range n).map fun i => incrementNonce^[i] nonce).Nodup ↔ n ≤ 256 ^ nonce.length := by
  constructor
  · intro h
    by_contra hmore
    have hround := Nat.pow_pos (n := nonce.length) (by decide : 0 < 256)
    have hsame : incrementNonce^[0] nonce = incrementNonce^[256 ^ nonce.length] nonce := by
      rw [iterate_eq_iff, Nat.zero_mod, Nat.mod_self]
    have hzero := inj_on_of_nodup_map h (mem_range.2 (by omega : 0 < n))
      (mem_range.2 (by omega : 256 ^ nonce.length < n)) hsame
    omega
  · intro hn
    refine List.Nodup.map_on (fun i hi j hj h => ?_) nodup_range
    rw [mem_range] at hi hj
    rwa [iterate_eq_iff, Nat.mod_eq_of_lt (by omega), Nat.mod_eq_of_lt (by omega)] at h

/-! ### The use of a key -/

/-- Where the nonce of a key stands; `seals` records the nonce and the plaintext of each `aead_encrypt`.
-/
structure Sealing where
  nonce : Bytes
  seals : List (Bytes × Bytes) := []
  deriving DecidableEq, Repr

namespace Sealing

def encrypt (sealer : Sealer) (s : Sealing) (plaintext : Bytes) : Option Bytes × Sealing :=
  (sealer.encrypt s.nonce plaintext, ⟨incrementNonce s.nonce, s.seals ++ [(s.nonce, plaintext)]⟩)

def Distinct (s : Sealing) : Prop := (s.seals.map Prod.fst).Nodup

def appendTcpRecord (sealer : Sealer) (s : Sealing) (payload : Bytes) : Option Bytes × Sealing :=
  let length := s.encrypt sealer (Wire.putU16 payload.length)
  let sealed := length.2.encrypt sealer payload
  (length.1.bind fun head => sealed.1.map fun tail => head ++ tail, sealed.2)

/-- The loop of `write`, for at most `n` bytes: a record that cannot be sealed ends it. -/
def encodeChunks (sealer : Sealer) : Nat → Sealing → Bytes → Option Bytes × Sealing
  | 0, s, _ => (some [], s)
  | n + 1, s, data =>
    if data = [] then (some [], s)
    else
      match s.appendTcpRecord sealer (data.take kMaxChunkPayload) with
      | (none, s) => (none, s)
      | (some head, s) =>
        let rest := encodeChunks sealer n s (data.drop kMaxChunkPayload)
        (rest.1.map fun tail => head ++ tail, rest.2)

structure Counted (first : Bytes) (s : Sealing) : Prop where
  nonce : s.nonce = incrementNonce^[s.seals.length] first
  seals : s.seals.map Prod.fst = (List.range s.seals.length).map fun i => incrementNonce^[i] first

variable {sealer : Sealer} {first : Bytes} {s : Sealing}

theorem Counted.new (first : Bytes) : Counted first ⟨first, []⟩ := ⟨rfl, rfl⟩

theorem Counted.encrypt (sealer : Sealer) (h : Counted first s) (plaintext : Bytes) :
    Counted first (s.encrypt sealer plaintext).2 := by
  constructor
  · rw [Sealing.encrypt, length_append, h.nonce]
    exact (Function.iterate_succ_apply' _ _ _).symm
  · rw [Sealing.encrypt, map_append, h.seals, length_append, length_singleton, range_succ, map_append]
    rw [h.nonce]
    rfl

theorem Counted.appendTcpRecord (sealer : Sealer) (h : Counted first s) (payload : Bytes) :
    Counted first (s.appendTcpRecord sealer payload).2 :=
  (h.encrypt sealer _).encrypt sealer _

theorem Counted.distinct_iff (h : Counted first s) : s.Distinct ↔ s.seals.length ≤ 256 ^ first.length := by
  rw [Distinct, h.seals]
  exact iterate_nodup_iff _ _

/-- **The seals are those of records**, of 1 to `0x3fff` bytes each. -/
def OfRecords (s : Sealing) : Prop :=
  ∃ payloads : List Bytes, (∀ payload ∈ payloads, 1 ≤ payload.length ∧ payload.length ≤ kMaxChunkPayload) ∧
    s.seals.map Prod.snd = payloads.flatMap fun payload => [Wire.putU16 payload.length, payload]

theorem OfRecords.new (nonce : Bytes) : OfRecords ⟨nonce, []⟩ := ⟨[], fun _ h => (nomatch h), rfl⟩

theorem OfRecords.appendTcpRecord (sealer : Sealer) (h : OfRecords s) {payload : Bytes}
    (hpos : 1 ≤ payload.length)
    (hle : payload.length ≤ kMaxChunkPayload) :
    OfRecords (s.appendTcpRecord sealer payload).2 := by
  obtain ⟨payloads, hsizes, hseals⟩ := h
  refine ⟨payloads ++ [payload], fun p hp => ?_, ?_⟩
  · rcases mem_append.1 hp with hold | hnew
    · exact hsizes p hold
    · rw [mem_singleton.1 hnew]
      exact ⟨hpos, hle⟩
  · rw [flatMap_append, ← hseals]
    simp [Sealing.appendTcpRecord, Sealing.encrypt]

theorem Counted.encodeChunks (sealer : Sealer) : ∀ (n : Nat) {s : Sealing} (data : Bytes), Counted first s →
    Counted first (s.encodeChunks sealer n data).2
  | 0, _, _, h => h
  | n + 1, s, data, h => by
    rw [Sealing.encodeChunks]
    split
    · exact h
    · have hrecord := h.appendTcpRecord sealer (data.take kMaxChunkPayload)
      split
      · rename_i heq
        rwa [heq] at hrecord
      · rename_i heq
        rw [heq] at hrecord
        exact Counted.encodeChunks sealer n _ hrecord

theorem OfRecords.encodeChunks (sealer : Sealer) :
    ∀ (n : Nat) {s : Sealing} (data : Bytes), OfRecords s → OfRecords (s.encodeChunks sealer n data).2
  | 0, _, _, h => h
  | n + 1, s, data, h => by
    rw [Sealing.encodeChunks]
    split
    · exact h
    · rename_i hdata
      have hpos := length_pos_iff.2 hdata
      have hmax : kMaxChunkPayload = 16383 := rfl
      have hlength := length_take (i := kMaxChunkPayload) (l := data)
      have hrecord := h.appendTcpRecord sealer (by omega : 1 ≤ (data.take kMaxChunkPayload).length) (by omega)
      split
      · rename_i heq
        rwa [heq] at hrecord
      · rename_i heq
        rw [heq] at hrecord
        exact OfRecords.encodeChunks sealer n _ hrecord

theorem appendTcpRecord_eq (s : Sealing) (payload : Bytes) :
    ((s.appendTcpRecord sealer payload).1, (s.appendTcpRecord sealer payload).2.nonce) =
    appendRecord sealer s.nonce payload := rfl

theorem encodeChunks_eq : ∀ (n : Nat) (s : Sealing) (data : Bytes), ((s.encodeChunks sealer n data).1,
    (s.encodeChunks sealer n data).2.nonce) =
    appendRecords (appendRecord sealer) n s.nonce data
  | 0, _, _ => rfl
  | n + 1, s, data => by
    rw [Sealing.encodeChunks, appendRecords]
    split
    · rfl
    · rw [← appendTcpRecord_eq s (data.take kMaxChunkPayload)]
      rcases s.appendTcpRecord sealer (data.take kMaxChunkPayload) with ⟨head, s'⟩
      cases head with
      | none => rfl
      | some head =>
        dsimp only
        rw [← encodeChunks_eq n s' (data.drop kMaxChunkPayload)]

theorem encodeChunks_byte (s : Sealing) (sealer : Sealer) (byte : UInt8) :
    (s.encodeChunks sealer 1 [byte]).2.seals.length = s.seals.length + 2 := by
  have hrecord : (s.appendTcpRecord sealer [byte]).2.seals.length = s.seals.length + 2 := by
    simp [Sealing.appendTcpRecord, Sealing.encrypt]
  have hchunk : [byte].take kMaxChunkPayload = [byte] := rfl
  rw [Sealing.encodeChunks, if_neg (cons_ne_nil _ _), hchunk]
  rcases heq : s.appendTcpRecord sealer [byte] with ⟨head, s'⟩
  rw [heq] at hrecord
  cases head with
  | none => exact hrecord
  | some head => exact hrecord

end Sealing

end ClashNative.Shadowsocks
