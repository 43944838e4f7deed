import Mathlib.Algebra.BigOperators.Fin
/-!
# Interleavings — one list out of a family of lists

`Interleaving l srcs`: the elements of `l` can be dealt out to the sequences `srcs`, so that each of them
is there whole and in its order.
-/
namespace Interleavings

open List

variable {ι α β : Type} [DecidableEq ι]

def entries (i : ι) (tags : List (ι × α)) : List α := (tags.filter fun x => x.1 = i).map Prod.snd

/-- **`l` is an interleaving of the sequences `srcs`.** -/
def Interleaving (l : List α) (srcs : ι → List α) : Prop :=
  ∃ tags : List (ι × α), tags.map Prod.snd = l ∧ ∀ i, entries i tags = srcs i

theorem entries_append (i : ι) (tags tags' : List (ι × α)) :
    entries i (tags ++ tags') = entries i tags ++ entries i tags' := by
  unfold entries
  rw [filter_append, map_append]

theorem entries_cons (i : ι) (x : ι × α) (tags : List (ι × α)) :
    entries i (x :: tags) = (if x.1 = i then [x.2] else []) ++ entries i tags := by
  by_cases h : x.1 = i
  · simp [entries, h]
  · simp [entries, h]

namespace Interleaving

variable {l l' : List α} {srcs : ι → List α}

theorem nil : Interleaving ([] : List α) fun _ : ι => [] := ⟨[], rfl, fun _ => rfl⟩

theorem snoc (h : Interleaving l srcs) (i : ι) (v : α) :
    Interleaving (l ++ [v]) (Function.update srcs i (srcs i ++ [v])) := by
  obtain ⟨tags, rfl, htags⟩ := h
  refine ⟨tags ++ [(i, v)], by simp, fun j => ?_⟩
  rw [entries_append, htags, entries_cons]
  by_cases hij : i = j
  · subst hij
    simp [entries]
  · rw [if_neg hij, Function.update_of_ne (Ne.symm hij)]
    simp [entries]

theorem filterMap (h : Interleaving l srcs) (f : α → Option β) : Interleaving (l.filterMap f) fun i =>
    (srcs i).filterMap f := by
  obtain ⟨tags, rfl, htags⟩ := h
  refine ⟨tags.filterMap fun x => (f x.2).map (x.1, ·), ?_, fun i => ?_⟩
  · rw [map_filterMap, filterMap_map]
    congr 1
    funext x
    cases hx : f x.2 with
    | none => simp [hx]
    | some b => simp [hx]
  · dsimp only
    rw [← htags i]
    clear htags
    induction tags with
    | nil => rfl
    | cons x tags ih =>
      rw [entries_cons, filterMap_append, ← ih]
      cases hx : f x.2 with
      | none =>
        rw [filterMap_cons_none (by simp [hx])]
        by_cases hi : x.1 = i
        · simp [hi, hx]
        · simp [hi]
      | some b =>
        rw [filterMap_cons_some (by simp [hx]; rfl), entries_cons]
        by_cases hi : x.1 = i
        · simp [hi, hx]
        · simp [hi]

theorem countP [Fintype ι] (h : Interleaving l srcs) (p : α → Bool) : l.countP p = ∑ i, (srcs i).countP p := by
  obtain ⟨tags, rfl, htags⟩ := h
  have hsum : ∑ i, (srcs i).countP p = ∑ i, (entries i tags).countP p :=
    Finset.sum_congr rfl fun i _ => by rw [htags]
  rw [hsum]
  clear hsum htags
  induction tags with
  | nil => simp [entries]
  | cons x tags ih =>
    have hone : ∑ i, (if x.1 = i then [x.2] else []).countP p = [x.2].countP p := by
      rw [Finset.sum_eq_single x.1 (fun i _ hi => by rw [if_neg (Ne.symm hi), countP_nil])
        (fun hx => absurd (Finset.mem_univ _) hx),
        if_pos rfl]
    simp only [entries_cons, countP_append, Finset.sum_add_distrib]
    rw [hone, ← ih, map_cons, ← singleton_append, countP_append]

theorem suffix_eq_nil {e : α} (h : Interleaving (l ++ l') srcs) (hend : ∀ i, ∃ xs, srcs i = xs ++ [e])
    (he : e ∉ l') : l' = [] := by
  obtain ⟨tags, hmap, htags⟩ := h
  obtain ⟨first, rest, rfl, hfirst, hrest⟩ := map_eq_append_iff.1 hmap
  cases rest with
  | nil => exact hrest.symm
  | cons x rest =>
    obtain ⟨xs, hxs⟩ := hend x.1
    have hne : entries x.1 (x :: rest) ≠ [] := by
      rw [entries_cons, if_pos rfl]
      exact cons_ne_nil _ _
    have hall := htags x.1
    rw [entries_append, hxs] at hall
    have hlast : (entries x.1 (x :: rest)).getLast hne = e := by
      have := congrArg List.getLast? hall
      rw [getLast?_append_of_ne_nil _ hne, getLast?_eq_some_getLast hne, getLast?_concat] at this
      exact Option.some.inj this
    have hmem : e ∈ entries x.1 (x :: rest) := hlast ▸ getLast_mem hne
    obtain ⟨y, hy, rfl⟩ := mem_map.1 hmem
    refine absurd ?_ he
    rw [← hrest]
    exact mem_map_of_mem (mem_of_mem_filter hy)

theorem eq_nil [IsEmpty ι] (h : Interleaving l srcs) : l = [] := by
  obtain ⟨tags, rfl, -⟩ := h
  cases tags with
  | nil => rfl
  | cons x tags => exact (IsEmpty.false x.1).elim

end Interleaving

end Interleavings
