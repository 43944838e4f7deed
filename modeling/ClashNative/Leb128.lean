import Mathlib.Algebra.GroupWithZero.Nat
import Mathlib.Data.List.Basic
import Mathlib.Tactic.Common
/-!
# Leb128 — numbers in groups of seven bits

A number as bytes of seven bits each, lowest first; every byte but the last has its high bit set.  `groups
l` is what continues at the front of `l`.  A number has one shortest form (`encode`), and its value does
not depend on how many bytes it was written in.
-/
namespace Leb128

open List

def continues (b : UInt8) : Bool := 128 ≤ b.toNat

def value : List UInt8 → Nat
  | [] => 0
  | b :: bs => b.toNat % 128 + 128 * value bs

def encode : Nat → Nat → List UInt8
  | 0, _ => []
  | turns + 1, n =>
    if n / 128 = 0 then [UInt8.ofNat (n % 128)] else UInt8.ofNat (n % 128 + 128) :: encode turns (n / 128)

def groups (l : List UInt8) : List UInt8 := l.takeWhile continues

theorem toNat_ofNat_lt {n : Nat} (h : n < 256) : (UInt8.ofNat n).toNat = n := by
  exact Nat.mod_eq_of_lt h

theorem value_encode : ∀ (turns n : Nat), n < 128 ^ turns → value (encode turns n) = n
  | 0, n, h => by
    simp only [encode, value]
    omega
  | turns + 1, n, h => by
    rw [encode]
    split
    · rename_i hsmall
      rw [value, value, toNat_ofNat_lt (by omega)]
      omega
    · rw [Nat.pow_succ] at h
      rw [value, toNat_ofNat_lt (by omega), value_encode turns (n / 128) (by omega)]
      omega

theorem encode_shape : ∀ (turns n : Nat), n < 128 ^ (turns + 1) →
    ∃ init last, encode (turns + 1) n = init ++ [last] ∧
    (∀ b ∈ init, continues b = true) ∧ continues last = false ∧ init.length ≤ turns
  | turns, n, h => by
    rw [encode]
    by_cases hsmall : n / 128 = 0
    · refine ⟨[], UInt8.ofNat (n % 128), ?_, fun b hb => absurd hb not_mem_nil, ?_, Nat.zero_le turns⟩
      · rw [if_pos hsmall]
        rfl
      · unfold continues
        rw [toNat_ofNat_lt (by omega)]
        exact decide_eq_false (by omega)
    · rw [if_neg hsmall]
      cases turns with
      | zero => omega
      | succ turns =>
        obtain ⟨init, last, heq, hinit, hlast, hlength⟩ := encode_shape turns (n / 128) (by omega)
        refine ⟨UInt8.ofNat (n % 128 + 128) :: init,
          last, by rw [heq]; rfl, fun b hb => ?_, hlast, by simpa using hlength⟩
        rcases mem_cons.1 hb with rfl | hb
        · unfold continues
          rw [toNat_ofNat_lt (by omega)]
          exact decide_eq_true (by omega)
        · exact hinit b hb

theorem continues_of_mem_groups : ∀ {l : List UInt8} {b : UInt8}, b ∈ groups l → continues b = true
  | [], b, h => by cases h
  | c :: l, b, h => by
    unfold groups at h
    by_cases hc : continues c = true
    · rw [takeWhile_cons_of_pos hc] at h
      rcases mem_cons.1 h with rfl | h
      · exact hc
      · exact continues_of_mem_groups h
    · rw [takeWhile_cons_of_neg hc] at h
      cases h

theorem groups_cases (l : List UInt8) : groups l = l ∨ ∃ last rest, l = groups l ++ last :: rest ∧
    continues last = false := by
  have hsplit := takeWhile_append_dropWhile (p := continues) (l := l)
  cases hdrop : l.dropWhile continues with
  | nil =>
    rw [hdrop, append_nil] at hsplit
    exact .inl hsplit
  | cons last rest =>
    rw [hdrop] at hsplit
    refine .inr ⟨last, rest, hsplit.symm, ?_⟩
    have hhead := head_dropWhile_not (p := continues) (l := l) (by rw [hdrop]; exact cons_ne_nil _ _)
    simpa [hdrop] using hhead

section Split

variable {init rest : List UInt8} {last : UInt8} (hinit : ∀ b ∈ init, continues b = true)
    (hlast : continues last = false)

include hinit hlast

theorem groups_of_split : groups (init ++ last :: rest) = init := by
  unfold groups
  rw [takeWhile_append_of_pos hinit, takeWhile_cons_of_neg (by simp [hlast]), append_nil]

theorem take_of_split : (init ++ last :: rest).take ((groups (init ++ last :: rest)).length + 1) =
    init ++ [last] := by
  rw [groups_of_split hinit hlast, take_append, take_of_length_le (Nat.le_succ _), Nat.add_sub_cancel_left]
  rfl

end Split

end Leb128
