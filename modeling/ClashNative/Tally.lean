import Mathlib.Data.List.Perm.Basic
import Mathlib.Data.List.AList
import Mathlib.Tactic.Common
import Mathlib.Algebra.GroupWithZero.Nat
/-!
# Tally — counting what a state holds

An object that must be in exactly one place is counted: the sum of its counts over all places does not
change when it moves.  These are the counts of the moves a step makes.
-/
namespace Tally

open List

variable {α β : Type} {a : α} {i : Nat} {l : List α}

theorem countP_eraseIdx (p : α → Bool) (h : l[i]? = some a) :
    l.countP p = (l.eraseIdx i).countP p + if p a then 1 else 0 := by
  obtain ⟨hi, ha⟩ := List.getElem?_eq_some_iff.1 h
  rw [← (getElem_cons_eraseIdx_perm hi).countP_eq p, countP_cons, ha]

variable {b : α}

theorem mem_or_mem_eraseIdx (h : l[i]? = some a) (hb : b ∈ l) :
    b = a ∨ b ∈ l.eraseIdx i := by
  obtain ⟨hi, ha⟩ := List.getElem?_eq_some_iff.1 h
  rw [← (getElem_cons_eraseIdx_perm hi).mem_iff, mem_cons, ha] at hb
  exact hb

theorem sum_map_set (f : α → Nat) : ∀ {l : List α} {i : Nat} {a b : α}, l[i]? = some a →
    ((l.set i b).map f).sum + f a = (l.map f).sum + f b
  | [], i, a, b, h => by simp at h
  | x :: l, 0, a, b, h => by
    simp only [getElem?_cons_zero, Option.some.injEq] at h
    subst h
    simp only [set_cons_zero, map_cons, sum_cons]
    omega
  | x :: l, i + 1, a, b, h => by
    have ih := sum_map_set f (b := b) (getElem?_cons_succ ▸ h)
    simp only [set_cons_succ, map_cons, sum_cons]
    omega

theorem le_sum_map (f : α → Nat) : ∀ {l : List α} {a : α}, a ∈ l → f a ≤ (l.map f).sum
  | x :: l, a, h => by
    simp only [map_cons, sum_cons]
    rcases mem_cons.1 h with rfl | h
    · omega
    · have := le_sum_map f h
      omega

variable {j : Nat}

theorem getElem?_set_cases (h : (l.set i b)[j]? = some a) :
    (i = j ∧ a = b) ∨ (i ≠ j ∧ l[j]? = some a) := by
  rw [getElem?_set] at h
  by_cases hij : i = j
  · rw [if_pos hij] at h
    split at h
    · exact .inl ⟨hij, (Option.some.inj h).symm⟩
    · cases h
  · rw [if_neg hij] at h
    exact .inr ⟨hij, h⟩

theorem exists_getElem?_set_iff (h : l[i]? = some a) (Q : α → Prop) (hQ : Q b ↔ Q a)
    (j : Nat) : (∃ x, (l.set i b)[j]? = some x ∧ Q x) ↔ ∃ x, l[j]? = some x ∧ Q x := by
  constructor
  · rintro ⟨x, hx, hq⟩
    rcases getElem?_set_cases hx with ⟨rfl, rfl⟩ | ⟨_, hx⟩
    · exact ⟨a, h, hQ.1 hq⟩
    · exact ⟨x, hx, hq⟩
  · rintro ⟨x, hx, hq⟩
    by_cases hij : i = j
    · subst hij
      rw [h] at hx
      cases hx
      exact ⟨b, getElem?_set_self (List.getElem?_eq_some_iff.1 h).1, hQ.2 hq⟩
    · exact ⟨x, by rw [getElem?_set_ne hij, hx], hq⟩

theorem getElem?_concat_cases (h : (l ++ [b])[j]? = some a) :
    l[j]? = some a ∨ (j = l.length ∧ a = b) := by
  by_cases hj : j < l.length
  · rw [getElem?_append_left hj] at h
    exact .inl h
  · rw [getElem?_append_right (Nat.le_of_not_lt hj)] at h
    by_cases hz : j - l.length = 0
    · rw [hz, getElem?_cons_zero] at h
      exact .inr ⟨by omega, (Option.some.inj h).symm⟩
    · obtain ⟨n, hn⟩ := Nat.exists_eq_succ_of_ne_zero hz
      simp [hn] at h

variable {γ : Type}

theorem lookup_foldl_erase [DecidableEq α] (f : β → α) (k : α) :
    ∀ (l : List β) (t : AList (fun _ : α => γ)),
      (l.foldl (fun t b => t.erase (f b)) t).lookup k = if k ∈ l.map f then none else t.lookup k
  | [], t => by simp
  | b :: l, t => by
    rw [foldl_cons, lookup_foldl_erase f k l]
    by_cases hk : k ∈ l.map f
    · simp [hk]
    · by_cases hb : k = f b
      · subst hb; simp
      · rw [if_neg hk, AList.lookup_erase_ne hb, if_neg]
        simp only [map_cons, mem_cons, not_or]
        exact ⟨hb, hk⟩

theorem length_entries_erase [DecidableEq α] {t : AList (fun _ : α => γ)} {k : α} {v : γ}
    (h : t.lookup k = some v) : (t.erase k).entries.length + 1 = t.entries.length := by
  have hkeys : ∀ t : AList (fun _ : α => γ), t.keys.length = t.entries.length := fun t => length_map _
  have hmem : k ∈ t.keys := AList.mem_keys.1 (AList.lookup_isSome.1 (by rw [h]; rfl))
  rw [← hkeys, ← hkeys, AList.keys_erase, length_erase_of_mem hmem]
  have := length_pos_of_mem hmem
  omega

end Tally
