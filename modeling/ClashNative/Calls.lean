import Mathlib.Data.List.Induction
import Mathlib.Data.List.Nodup
import Mathlib.Algebra.Group.Nat.Defs
import Mathlib.Tactic.Common
/-!
# Calls — calls that are answered once, and what each of them has contributed

Calls are known by their place among the calls.  A call is answered at once, or waits and is answered
later: `Once` counts that.  What calls contribute to an output one after another is the parts of the calls
in their order.
-/
namespace Calls

open List

/-! ## Answers -/

def Once (answered : List Nat) (waiting : Option Nat) (calls : Nat) : Prop :=
  ∀ id, answered.count id + (if waiting = some id then 1 else 0) = if id < calls then 1 else 0

section Once

variable {answered : List Nat} {waiting : Option Nat} {calls : Nat}

theorem Once.fresh (h : Once answered waiting calls) : answered.count calls = 0 ∧ waiting ≠ some calls := by
  have hcount := h calls
  rw [if_neg (Nat.lt_irrefl calls)] at hcount
  refine ⟨by omega, fun heq => ?_⟩
  rw [if_pos heq] at hcount
  omega

theorem Once.answer (h : Once answered waiting calls) : Once (answered ++ [calls]) waiting (calls + 1) := by
  intro id
  have hold := h id
  obtain ⟨hnone, hwaiting⟩ := h.fresh
  rw [count_append, count_singleton]
  by_cases hid : id = calls
  · subst hid
    rw [hnone, if_neg hwaiting, if_pos (Nat.lt_succ_self _)]
    simp
  · have hne : (calls == id) = false := by simpa using Ne.symm hid
    have hlt : id < calls + 1 ↔ id < calls := ⟨fun h => by omega, fun h => by omega⟩
    simp only [hne, hlt, Bool.false_eq_true, if_false]
    exact hold

theorem Once.park (h : Once answered none calls) : Once answered (some calls) (calls + 1) := by
  intro id
  have hold := h id
  by_cases hid : id = calls
  · subst hid
    rw [h.fresh.1, if_pos rfl, if_pos (Nat.lt_succ_self _)]
  · have hlt : id < calls + 1 ↔ id < calls := ⟨fun h => by omega, fun h => by omega⟩
    rw [if_neg fun heq => hid (Option.some.inj heq).symm]
    simp only [hlt]
    exact hold

theorem Once.finish {id : Nat} (h : Once answered (some id) calls) : Once (answered ++ [id]) none calls := by
  intro other
  have hold := h other
  by_cases hid : id = other
  · subst hid
    simpa using hold
  · rw [if_neg fun heq => hid (Option.some.inj heq)] at hold
    simpa [hid] using hold

end Once

/-! ## Contributions -/

section Parts

variable {β : Type} {sent : List (Nat × List β)} {n : Nat}

def part (sent : List (Nat × List β)) (id : Nat) : List β :=
  (sent.filter fun entry => entry.1 = id).flatMap Prod.snd

theorem part_concat (sent : List (Nat × List β)) (id other : Nat) (data : List β) :
    part (sent ++ [(id, data)]) other = if id = other then part sent other ++ data else part sent other := by
  unfold part
  rw [filter_append, flatMap_append]
  by_cases hid : id = other
  · rw [if_pos hid, filter_cons_of_pos (by simpa using hid), filter_nil, flatMap_cons, flatMap_nil, append_nil]
  · rw [if_neg hid, filter_cons_of_neg (by simpa using hid), filter_nil, flatMap_nil, append_nil]

variable {id : Nat}

theorem part_of_not_mem (h : ∀ entry ∈ sent, entry.1 ≠ id) : part sent id = [] := by
  have hnone : (sent.filter fun entry => entry.1 = id) = [] :=
    filter_eq_nil_iff.2 fun entry hentry => by simpa using h entry hentry
  unfold part
  rw [hnone]
  rfl

theorem flatMap_range_part (hid : id < n) (hlast : ∀ entry ∈ sent, entry.1 ≤ id) :
    (List.range n).flatMap (part sent) = (List.range id).flatMap (part sent) ++ part sent id := by
  induction n with
  | zero => omega
  | succ n ih =>
    rw [range_succ, flatMap_append, flatMap_cons, flatMap_nil, append_nil]
    by_cases hlt : id < n
    · have hnone : part sent n = [] := part_of_not_mem fun entry hentry => by
        have hle := hlast entry hentry
        omega
      rw [ih hlt, hnone, append_nil]
    · rw [show id = n by omega]

theorem flatMap_part (horder : sent.Pairwise fun a b => a.1 ≤ b.1) (hcalls : ∀ entry ∈ sent, entry.1 < n) :
    (List.range n).flatMap (part sent) = sent.flatMap Prod.snd := by
  induction sent using List.reverseRecOn with
  | nil => exact flatMap_eq_nil_iff.2 fun id _ => rfl
  | append_singleton sent last ih =>
    obtain ⟨id, data⟩ := last
    obtain ⟨hfront, -, hle⟩ := pairwise_append.1 horder
    have hlast : ∀ entry ∈ sent, entry.1 ≤ id := fun entry hentry => hle entry hentry _ mem_cons_self
    have hlast' : ∀ entry ∈ sent ++ [(id, data)], entry.1 ≤ id := fun entry hentry => by
      rcases mem_append.1 hentry with hold | hnew
      · exact hlast entry hold
      · obtain rfl := mem_singleton.1 hnew
        exact Nat.le_refl id
    have hid := hcalls (id, data) (mem_append_right _ mem_cons_self)
    have hrest := ih hfront fun entry hentry => hcalls entry (mem_append_left _ hentry)
    rw [flatMap_range_part hid hlast] at hrest
    have hsame : (List.range id).flatMap (part (sent ++ [(id, data)])) = (List.range id).flatMap (part sent) :=
      flatMap_congr fun other hother => by
        rw [part_concat, if_neg (Nat.ne_of_gt (mem_range.1 hother))]
    rw [flatMap_range_part hid hlast', hsame, part_concat, if_pos rfl, ← append_assoc, hrest,
      flatMap_append, flatMap_cons,
      flatMap_nil, append_nil]

end Parts

end Calls
