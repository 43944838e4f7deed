import Mathlib.Data.List.Infix
import Mathlib.Algebra.GroupWithZero.Nat
import Mathlib.Algebra.Group.Int.Defs
/-!
# SendWindow — a window over counters that wrap

A sender counts the bytes that it has put on the wire, its peer reports how many it has consumed and how
large its window is. All three are 32-bit counters: what is in flight is their difference modulo 2^32.
-/
namespace SendWindow

inductive Entry
  | sent (count : Nat)
  | update (consumed window : UInt32)
  deriving DecidableEq, Repr

def total : List Entry → Nat
  | [] => 0
  | .sent count :: rest => total rest + count
  | .update .. :: rest => total rest

def reported (initial : UInt32 × UInt32) : List Entry → UInt32 × UInt32
  | [] => initial
  | .sent _ :: rest => reported initial rest
  | .update consumed window :: _ => (consumed, window)

/-- **At every sending** what is in flight, modulo 2^32, is at most the window last reported. -/
def Respected (initial : UInt32 × UInt32) : List Entry → Prop
  | [] => True
  | .sent count :: rest =>
    (((total rest + count : Nat) : Int) - (reported initial rest).1.toNat) % 2 ^ 32 ≤
    (reported initial rest).2.toNat ∧
      Respected initial rest
  | .update .. :: rest => Respected initial rest

structure Counters where
  sent : UInt32 := 0
  consumed : UInt32 := 0
  window : UInt32
  deriving DecidableEq, Repr

namespace Counters

def inFlight (c : Counters) : UInt32 := c.sent - c.consumed

def Shut (c : Counters) : Prop := c.window ≤ c.inFlight

instance (c : Counters) : Decidable c.Shut := inferInstanceAs (Decidable (_ ≤ _))

def room (c : Counters) : Nat := (c.window - c.inFlight).toNat

def send (c : Counters) (count : Nat) : Counters := { c with sent := c.sent + UInt32.ofNat count }

def update (c : Counters) (consumed window : UInt32) : Counters :=
  { c with consumed := consumed, window := window }

structure Of (initial : UInt32 × UInt32) (c : Counters) (history : List Entry) : Prop where
  sent : c.sent = UInt32.ofNat (total history)
  reported : (c.consumed, c.window) = reported initial history
  respected : Respected initial history

variable {initial : UInt32 × UInt32} {c : Counters} {history : List Entry}

theorem Of.start (window : UInt32) : Of (0, window) ⟨0, 0, window⟩ [] := ⟨rfl, rfl, trivial⟩

theorem Of.update (h : Of initial c history) (consumed window : UInt32) :
    Of initial (c.update consumed window) (.update consumed window :: history) :=
  { h with reported := rfl }

theorem room_pos (h : ¬ c.Shut) : 0 < c.room := by
  unfold Shut at h
  unfold room
  rw [UInt32.not_le, UInt32.lt_iff_toNat_lt] at h
  rw [UInt32.toNat_sub_of_le _ _ (UInt32.le_iff_toNat_le.2 (Nat.le_of_lt h))]
  omega

theorem Of.inFlight (h : Of initial c history) :
    ((total history : Int) - c.consumed.toNat) % 2 ^ 32 = c.inFlight.toNat := by
  have hconsumed := c.consumed.toNat_lt
  unfold Counters.inFlight
  rw [h.sent, UInt32.toNat_sub, UInt32.toNat_ofNat']
  omega

theorem Of.shut_iff (h : Of initial c history) :
    c.Shut ↔ (c.window.toNat : Int) ≤ ((total history : Int) - c.consumed.toNat) % 2 ^ 32 := by
  rw [h.inFlight]
  unfold Shut
  rw [UInt32.le_iff_toNat_le]
  omega

theorem Of.send (h : Of initial c history) (hopen : ¬ c.Shut) {count : Nat} (hcount : count ≤ c.room) :
    Of initial (c.send count) (.sent count :: history) := by
  have hflight := h.inFlight
  obtain ⟨hconsumed, hwindow⟩ := Prod.ext_iff.1 h.reported
  dsimp only at hconsumed hwindow
  refine ⟨?_, h.reported, ?_, h.respected⟩
  · unfold Counters.send total
    rw [h.sent, UInt32.ofNat_add]
  · unfold Shut at hopen
    rw [UInt32.not_le, UInt32.lt_iff_toNat_lt] at hopen
    unfold room at hcount
    rw [UInt32.toNat_sub_of_le _ _ (UInt32.le_iff_toNat_le.2 (Nat.le_of_lt hopen))] at hcount
    rw [← hconsumed, ← hwindow]
    omega

end Counters
end SendWindow
