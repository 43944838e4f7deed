import Mathlib.Data.List.AList
import Mathlib.Tactic.Common
/-!
# PairedMaps — two finite maps that are inverse to each other

A store that finds a record by its name and a name by the record's address keeps two maps, `m` from names
to records and `m'` from addresses to names.  They are `Paired` when each leads back to where the other
came from.
-/
namespace PairedMaps

open List

variable {α β ε : Type} [DecidableEq α] [DecidableEq β]

/-- **The maps are inverse to each other**; `addr` is a record's address. -/
structure Paired (addr : ε → β) (m : AList fun _ : α => ε) (m' : AList fun _ : β => α) : Prop where
  there : ∀ {a : α} {e : ε}, m.lookup a = some e → m'.lookup (addr e) = some a
  back : ∀ {b : β} {a : α}, m'.lookup b = some a → ∃ e, m.lookup a = some e ∧ addr e = b

namespace Paired

variable {addr : ε → β} {m : AList fun _ : α => ε} {m' : AList fun _ : β => α} {a a' : α} {e e' : ε}

theorem empty : Paired addr (∅ : AList fun _ : α => ε) (∅ : AList fun _ : β => α) := by
  constructor <;> simp

theorem name_unique (h : Paired addr m m') (ha : m.lookup a = some e) (ha' : m.lookup a' = some e')
    (haddr : addr e = addr e') : a = a' := by
  have hback := h.there ha
  rw [haddr, h.there ha'] at hback
  exact (Option.some.inj hback).symm

theorem insert (h : Paired addr m m') (ha : m.lookup a = none) (hfree : m'.lookup (addr e) = none) :
    Paired addr (m.insert a e) (m'.insert (addr e) a) := by
  constructor
  · intro x y hx
    by_cases hxa : x = a
    · subst hxa
      rw [AList.lookup_insert, Option.some.injEq] at hx
      rw [← hx, AList.lookup_insert]
    · rw [AList.lookup_insert_ne hxa] at hx
      have hne : addr y ≠ addr e := by
        intro heq
        have hy := h.there hx
        rw [heq, hfree] at hy
        cases hy
      rw [AList.lookup_insert_ne hne]
      exact h.there hx
  · intro b x hb
    by_cases hbe : b = addr e
    · subst hbe
      rw [AList.lookup_insert, Option.some.injEq] at hb
      subst hb
      exact ⟨e, AList.lookup_insert m, rfl⟩
    · rw [AList.lookup_insert_ne hbe] at hb
      obtain ⟨y, hy, hyb⟩ := h.back hb
      have hne : x ≠ a := by
        rintro rfl
        rw [ha] at hy
        cases hy
      exact ⟨y, by rw [AList.lookup_insert_ne hne]; exact hy, hyb⟩

theorem erase (h : Paired addr m m') (ha : m.lookup a = some e) :
    Paired addr (m.erase a) (m'.erase (addr e)) := by
  constructor
  · intro x y hx
    by_cases hxa : x = a
    · subst hxa
      rw [AList.lookup_erase] at hx
      cases hx
    · rw [AList.lookup_erase_ne hxa] at hx
      have hne : addr y ≠ addr e := fun heq => hxa (h.name_unique hx ha heq)
      rw [AList.lookup_erase_ne hne]
      exact h.there hx
  · intro b x hb
    by_cases hbe : b = addr e
    · subst hbe
      rw [AList.lookup_erase] at hb
      cases hb
    · rw [AList.lookup_erase_ne hbe] at hb
      obtain ⟨y, hy, hyb⟩ := h.back hb
      have hne : x ≠ a := by
        rintro rfl
        rw [ha, Option.some.injEq] at hy
        exact hbe (by rw [← hyb, ← hy])
      exact ⟨y, by rw [AList.lookup_erase_ne hne]; exact hy, hyb⟩

theorem keys_subset (h : Paired addr m m') : m'.keys ⊆ m.entries.map (fun x => addr x.2) := by
  intro b hb
  obtain ⟨a, ha⟩ := Option.isSome_iff_exists.1 (AList.lookup_isSome.2 (AList.mem_keys.2 hb))
  obtain ⟨e, he, haddr⟩ := h.back ha
  exact mem_map.2 ⟨⟨a, e⟩, AList.mem_lookup_iff.1 he, haddr⟩

theorem keys_length_le (h : Paired addr m m') : m'.keys.length ≤ m.entries.length := by
  have hle := (subperm_of_subset m'.keys_nodup h.keys_subset).length_le
  rwa [length_map] at hle

theorem length_eq (h : Paired addr m m') : m'.entries.length = m.entries.length := by
  apply Nat.le_antisymm
  · have hle := h.keys_length_le
    rwa [AList.keys, List.keys, length_map] at hle
  · have hsub : m.keys ⊆ m'.entries.map (fun x => x.2) := by
      intro a ha
      obtain ⟨e, he⟩ := Option.isSome_iff_exists.1 (AList.lookup_isSome.2 (AList.mem_keys.2 ha))
      exact mem_map.2 ⟨⟨addr e, a⟩, AList.mem_lookup_iff.1 (h.there he), rfl⟩
    have hle := (subperm_of_subset m.keys_nodup hsub).length_le
    rwa [AList.keys, List.keys, length_map, length_map] at hle

end Paired

/-! ## Erasing while going through a map -/

theorem lookup_erase_foldl {σ : Type} (maps : σ → AList fun _ : α => ε) (keep : ε → Bool)
    (f : σ → (_ : α) × ε → σ) (hkeep : ∀ s x, keep x.2 = true → maps (f s x) = maps s)
    (herase : ∀ s x, keep x.2 = false → maps (f s x) = (maps s).erase x.1) :
    ∀ (l : List ((_ : α) × ε)) (s : σ) (a : α), (∀ x ∈ l, (maps s).lookup x.1 = some x.2) → l.NodupKeys →
      (maps (l.foldl f s)).lookup a =
        if a ∈ l.keys then ((maps s).lookup a).filter keep else (maps s).lookup a
  | [], s, a, _, _ => rfl
  | x :: l, s, a, hl, hnodup => by
    rw [nodupKeys_cons] at hnodup
    have hx := hl x mem_cons_self
    have hfold : ∀ y ∈ l, (maps (f s x)).lookup y.1 = some y.2 := by
      intro y hy
      have hne : y.1 ≠ x.1 := fun heq => hnodup.1 (heq ▸ mem_keys_of_mem hy)
      cases hk : keep x.2 with
      | true => rw [hkeep s x hk]; exact hl y (mem_cons_of_mem _ hy)
      | false => rw [herase s x hk, AList.lookup_erase_ne hne]; exact hl y (mem_cons_of_mem _ hy)
    rw [foldl_cons, lookup_erase_foldl maps keep f hkeep herase l (f s x) a hfold hnodup.2, keys_cons]
    by_cases ha : a = x.1
    · subst ha
      rw [if_neg hnodup.1, if_pos mem_cons_self, hx]
      cases hk : keep x.2 with
      | true => rw [hkeep s x hk, hx, Option.filter_some, hk, if_pos rfl]
      | false => rw [herase s x hk, AList.lookup_erase, Option.filter_some, hk]; rfl
    · have hsame : (maps (f s x)).lookup a = (maps s).lookup a := by
        cases hk : keep x.2 with
        | true => rw [hkeep s x hk]
        | false => rw [herase s x hk, AList.lookup_erase_ne ha]
      rw [hsame]
      simp only [mem_cons, ha, false_or]

end PairedMaps
