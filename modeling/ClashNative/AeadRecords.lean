import Mathlib.Data.List.Basic
import Mathlib.Algebra.GroupWithZero.Nat
import Mathlib.Tactic.Common
/-!
# AeadRecords — payloads as pairs of sealed records

A payload goes over the wire as its length in two bytes and then itself, each sealed under a nonce of its
own.  What is left of such a stream either is nothing or starts with a whole length record.
-/
namespace Wire

open List

/-- **An AEAD scheme** with keys `κ`: a tag of `overhead` bytes, and what is sealed is opened by the same
key and nonce. -/
structure Aead (κ : Type) where
  overhead : Nat
  encrypt : κ → List UInt8 → List UInt8 → List UInt8
  decrypt : κ → List UInt8 → List UInt8 → Option (List UInt8)
  encrypt_length : ∀ key nonce plaintext, (encrypt key nonce plaintext).length = plaintext.length + overhead
  decrypt_encrypt : ∀ key nonce plaintext, decrypt key nonce (encrypt key nonce plaintext) = some plaintext

def putU16 (n : Nat) : List UInt8 := [UInt8.ofNat (n / 256), UInt8.ofNat n]

def getU16 (bytes : List UInt8) : Nat := (bytes.getD 0 0).toNat * 256 + (bytes.getD 1 0).toNat

theorem length_putU16 (n : Nat) : (putU16 n).length = 2 := rfl

theorem getU16_putU16_append {n : Nat} (hn : n < 65536) (rest : List UInt8) : getU16 (putU16 n ++ rest) = n := by
  show (UInt8.ofNat (n / 256)).toNat * 256 + (UInt8.ofNat n).toNat = n
  rw [UInt8.toNat_ofNat', UInt8.toNat_ofNat']
  omega

theorem getU16_putU16 {n : Nat} (hn : n < 65536) : getU16 (putU16 n) = n := by
  have h := getU16_putU16_append hn []
  rwa [append_nil] at h

def putU64 (n : UInt64) : List UInt8 := [56, 48, 40, 32, 24, 16, 8, 0].map fun shift =>
    UInt8.ofNat (n.toNat / 2 ^ shift)

def getU64 (bytes : List UInt8) : Nat := bytes.foldl (fun n byte => n * 256 + byte.toNat) 0

theorem length_putU64 (n : UInt64) : (putU64 n).length = 8 := rfl

theorem getU64_putU64 (n : UInt64) : getU64 (putU64 n) = n.toNat := by
  have hlt := n.toNat_lt
  have hfirst : n.toNat / 2 ^ 56 % 2 ^ 8 = n.toNat / 2 ^ 56 := Nat.mod_eq_of_lt (Nat.div_lt_of_lt_mul hlt)
  -- the next byte, behind those before it
  have hstep (k : Nat) : n.toNat / 2 ^ (k + 8) * 256 + n.toNat / 2 ^ k % 2 ^ 8 = n.toNat / 2 ^ k := by
    rw [Nat.pow_add, ← Nat.div_div_eq_div_mul]
    exact Nat.div_add_mod' _ _
  simp only [getU64, putU64, map_cons, map_nil, foldl_cons, foldl_nil, UInt8.toNat_ofNat']
  rw [Nat.zero_mul, Nat.zero_add, hfirst, hstep 48, hstep 40, hstep 32, hstep 24, hstep 16, hstep 8,
    hstep 0, Nat.pow_zero, Nat.div_one]

namespace Aead

variable {κ : Type} (a : Aead κ) (next : List UInt8 → List UInt8) (key : κ)

def record (nonce payload : List UInt8) : List UInt8 :=
  a.encrypt key nonce (putU16 payload.length) ++ a.encrypt key (next nonce) payload

def records : List UInt8 → List (List UInt8) → List UInt8
  | _, [] => []
  | nonce, payload :: rest => a.record next key nonce payload ++ records (next (next nonce)) rest

variable {a next key}

theorem record_length (nonce payload : List UInt8) :
    (a.record next key nonce payload).length = (2 + a.overhead) + (payload.length + a.overhead) := by
  rw [record, length_append, a.encrypt_length, a.encrypt_length, length_putU16]

theorem records_short {nonce : List UInt8} {payloads : List (List UInt8)}
    (h : (a.records next key nonce payloads).length < 2 + a.overhead) : payloads = [] := by
  cases payloads with
  | nil => rfl
  | cons payload rest =>
    rw [records, length_append, record_length] at h
    omega

end Aead

/-! ### A scheme for examples -/

def tagOf (key nonce : List UInt8) : List UInt8 := (nonce ++ (key ++ List.replicate 16 0)).take 16

theorem length_tagOf (key nonce : List UInt8) : (tagOf key nonce).length = 16 := by
  rw [tagOf, length_take, length_append, length_append, length_replicate]
  omega

/-- The scheme that leaves the plaintext as it is and appends the tag. -/
def tagAead : Aead (List UInt8) where
  overhead := 16
  encrypt key nonce plaintext := plaintext ++ tagOf key nonce
  decrypt key nonce encrypted :=
    if encrypted.drop (encrypted.length - 16) = tagOf key nonce then
      some (encrypted.take (encrypted.length - 16)) else none
  encrypt_length key nonce plaintext := by rw [List.length_append, length_tagOf]
  decrypt_encrypt key nonce plaintext := by
    have hlength : (plaintext ++ tagOf key nonce).length - 16 = plaintext.length := by
      rw [List.length_append, length_tagOf]
      omega
    rw [hlength, List.drop_left, List.take_left, if_pos rfl]

end Wire
