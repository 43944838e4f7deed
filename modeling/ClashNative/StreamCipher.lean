import Mathlib.Data.List.Basic
import Mathlib.Tactic.Common
/-!
# StreamCipher — ciphers that turn one byte into one byte

A stream cipher is a state that each byte moves on.  So one `update` over two chunks is the two updates
one after the other, and a longer input never changes what a shorter one gave.
-/
namespace Wire

/-- **A stream cipher** with states `κ`: the state that an IV gives, and what one byte does. -/
structure StreamCipher (κ : Type) where
  ivSize : Nat
  init : List UInt8 → κ
  step : κ → UInt8 → κ × UInt8

namespace StreamCipher

variable {κ : Type} (c : StreamCipher κ)

def update (k : κ) : List UInt8 → κ × List UInt8
  | [] => (k, [])
  | b :: bs => ((update (c.step k b).1 bs).1, (c.step k b).2 :: (update (c.step k b).1 bs).2)

def decrypt (payload : List UInt8) : List UInt8 :=
  (c.update (c.init (payload.take c.ivSize)) (payload.drop c.ivSize)).2

variable {c}

theorem update_append : ∀ (k : κ) (a b : List UInt8),
    c.update k (a ++ b) = ((c.update (c.update k a).1 b).1, (c.update k a).2 ++ (c.update (c.update k a).1 b).2)
  | _, [], _ => rfl
  | k, x :: a, b => by rw [List.cons_append, update, update, update_append _ a b]; rfl

theorem update_prefix (k : κ) (a b : List UInt8) : (c.update k a).2 <+: (c.update k (a ++ b)).2 := by
  rw [update_append]
  exact List.prefix_append _ _

theorem decrypt_short {payload : List UInt8} (h : payload.length ≤ c.ivSize) : c.decrypt payload = [] := by
  rw [decrypt, List.drop_eq_nil_of_le h]
  rfl

end StreamCipher

end Wire
