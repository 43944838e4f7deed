import Mathlib.Data.Vector.Basic
import Mathlib.Data.List.Basic
import Mathlib.Tactic.Common
/-!
# Ccm — counter with CBC-MAC, without associated data

RFC 3610 over a block cipher, with tags of `m` bytes and lengths of `l` bytes.  The blocks of a message
are numbered: `a` are the counter blocks, `b` those that the MAC is made of.
-/
namespace Wire

abbrev Block := Vector UInt8 16

namespace Block

/-- The first sixteen bytes, with zeros where there are less. -/
def ofBytes (bytes : List UInt8) : Block := Vector.ofFn fun i => bytes.getD i 0

def xor (a b : Block) : Block := Vector.zipWith (· ^^^ ·) a b

theorem getD_ofBytes (bytes : List UInt8) {i : Nat} (hi : i < 16) :
    (ofBytes bytes).toList.getD i 0 = bytes.getD i 0 := by
  simp [ofBytes, List.getD_eq_getElem?_getD, hi]

end Block

structure Ccm where
  cipher : Block → Block
  m : Nat
  l : Nat
  nonce : List UInt8

namespace Ccm

def bigEndian : Nat → Nat → List UInt8
  | 0, _ => []
  | l + 1, n => UInt8.ofNat (n / 256 ^ l) :: bigEndian l n

variable (c : Ccm)

def a (n : Nat) : Block := Block.ofBytes (UInt8.ofNat (c.l - 1) :: (c.nonce ++ bigEndian c.l n))

def s (n : Nat) : Block := c.cipher (c.a n)

def b₀ (length : Nat) : Block :=
  Block.ofBytes (UInt8.ofNat (8 * ((c.m - 2) / 2) + (c.l - 1)) :: (c.nonce ++ bigEndian c.l length))

def blocks (message : List UInt8) : Nat := (message.length + 15) / 16

/-- `B_{n + 1}`: the bytes of the message from `16 * n` on. -/
def b (message : List UInt8) (n : Nat) : Block := Block.ofBytes (message.drop (16 * n))

/-- One block of the CBC-MAC: from `X_n` and `B_n` to `X_{n + 1}`. -/
def absorb (x block : Block) : Block := c.cipher (x.xor block)

def mac (x : Block) (message : List UInt8) : Block :=
  ((List.range (blocks message)).map (b message)).foldl c.absorb x

def t (message : List UInt8) : Block := c.mac (c.cipher (c.b₀ message.length)) message

/-- The message with the key stream from `S_{n + 1}` on. -/
def mask (n : Nat) (message : List UInt8) : List UInt8 :=
  message.mapIdx fun j byte => byte ^^^ (c.s (n + j / 16 + 1)).toList.getD (j % 16) 0

def u (message : List UInt8) : List UInt8 := ((c.t message).xor (c.s 0)).toList.take c.m

def sealed (message : List UInt8) : List UInt8 := c.mask 0 message ++ c.u message

variable {c}

@[simp] theorem length_mask (n : Nat) (message : List UInt8) :
    (c.mask n message).length = message.length := by simp [mask]

@[simp] theorem mask_nil (n : Nat) : c.mask n [] = [] := by simp [mask]

@[simp] theorem mac_nil (x : Block) : c.mac x [] = x := by simp [mac, blocks]

@[simp] theorem mask_mask (n : Nat) (message : List UInt8) : c.mask n (c.mask n message) = message := by
  unfold mask
  rw [List.mapIdx_mapIdx]
  refine List.ext_getElem (by simp) fun i _ _ => ?_
  rw [List.getElem_mapIdx, Function.comp_apply, UInt8.xor_assoc, UInt8.xor_self, UInt8.xor_zero]

theorem mask_step (n : Nat) (message : List UInt8) : c.mask n message =
    ((message.take 16).mapIdx fun j byte => byte ^^^ (c.s (n + 1)).toList.getD j 0) ++ c.mask (n + 1)
    (message.drop 16) := by
  have hsplit : c.mask n message = c.mask n (message.take 16 ++ message.drop 16) := by rw [List.take_append_drop]
  rw [hsplit]
  unfold mask
  rw [List.mapIdx_append]
  have hhead : ∀ j < (message.take 16).length, j < 16 :=
    fun j hj => Nat.lt_of_lt_of_le hj (by rw [List.length_take]; omega)
  refine congrArg₂ (· ++ ·) (List.mapIdx_eq_mapIdx_iff.2 fun j hj => ?_)
    (List.mapIdx_eq_mapIdx_iff.2 fun j hj => ?_)
  · rw [Nat.div_eq_of_lt (hhead j hj), Nat.mod_eq_of_lt (hhead j hj), Nat.add_zero]
  · -- behind a block that is not whole there is nothing
    have hfull : (message.take 16).length = 16 := by
      rw [List.length_drop] at hj
      rw [List.length_take]
      omega
    rw [hfull, Nat.add_mod_right, Nat.add_div_right _ (by decide), ← Nat.add_assoc, Nat.add_right_comm n 1]

theorem mac_step (x : Block) {message : List UInt8} (h : message ≠ []) :
    c.mac x message = c.mac (c.absorb x (Block.ofBytes message)) (message.drop 16) := by
  have hpos := List.length_pos_iff.2 h
  have hblocks : blocks message = blocks (message.drop 16) + 1 := by
    unfold blocks
    rw [List.length_drop]
    omega
  have hnext : (b message ∘ Nat.succ) = b (message.drop 16) := by
    funext n
    rw [Function.comp_apply, b, b, List.drop_drop, Nat.succ_eq_add_one, Nat.mul_add, Nat.add_comm]
  unfold mac
  rw [hblocks, List.range_succ_eq_map, List.map_cons, List.foldl_cons, List.map_map, hnext]
  rfl

theorem length_sealed (hm : c.m = 16) (message : List UInt8) :
    (c.sealed message).length = message.length + 16 := by
  simp [sealed, u, hm]

end Ccm
end Wire
