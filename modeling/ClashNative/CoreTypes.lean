import Mathlib.Tactic.Common
/-!
# CoreTypes — errors and destinations

The vocabulary the components share: `core::ErrorCode`, `core::Error` and `core::Destination`.
-/
namespace ClashNative

open List

/-- The error kinds of `core/error.hpp`, in its order. -/
inductive ErrorCode
  | cancelled | resolution | endpointConnection | carrierHandshake | authentication | protocolFraming
  | timeout | rejected | unsupported | configuration | transportIo
  deriving DecidableEq, Repr

/-- `core::Error`: its kind and its context.  The system error it was caused by decides nothing here. -/
structure Error where
  code : ErrorCode
  context : String
  deriving DecidableEq, Repr

def toLower (c : UInt8) : UInt8 := if 65 ≤ c ∧ c ≤ 90 then c + 32 else c

theorem toLower_toLower (c : UInt8) : toLower (toLower c) = toLower c := by
  by_cases hupper : 65 ≤ c ∧ c ≤ 90
  · have hfirst : toLower c = c + 32 := if_pos hupper
    have hnot : ¬ (65 ≤ c + 32 ∧ c + 32 ≤ 90) := by
      simp only [UInt8.le_iff_toNat_le, UInt8.toNat_add, UInt8.reduceToNat] at hupper ⊢
      omega
    rw [hfirst, toLower, if_neg hnot]
  · have hfirst : toLower c = c := if_neg hupper
    rw [hfirst, hfirst]

theorem not_mem_splitOn (sep : UInt8) : ∀ text label : List UInt8, label ∈ text.splitOn sep → sep ∉ label
  | [], label, h => by
    rw [splitOn_nil, mem_singleton] at h
    rw [h]
    exact not_mem_nil
  | b :: text, label, h => by
    rw [splitOn_cons_eq_if_modifyHead] at h
    split at h
    · rcases mem_cons.1 h with rfl | h
      · exact not_mem_nil
      · exact not_mem_splitOn sep text label h
    · rename_i hne
      cases hsplit : text.splitOn sep with
      | nil => exact absurd hsplit (splitOn_ne_nil sep text)
      | cons first rest =>
        rw [hsplit, modifyHead_cons] at h
        have ih := not_mem_splitOn sep text
        rw [hsplit] at ih
        rcases mem_cons.1 h with rfl | h
        · rw [mem_cons, not_or]
          exact ⟨fun heq => hne (beq_iff_eq.2 heq.symm), ih first mem_cons_self⟩
        · exact ih label (mem_cons_of_mem _ h)

/-- `core::Destination`: a host by name or an IPv4 address, and a port. -/
inductive Destination
  | domain (host : List UInt8) (port : UInt16)
  | address (bytes : Fin 4 → UInt8) (port : UInt16)

end ClashNative
