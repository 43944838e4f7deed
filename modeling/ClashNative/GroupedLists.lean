import Mathlib.Data.List.Induction
import Mathlib.Data.List.Nodup
import Mathlib.Tactic.Common
/-!
# GroupedLists — a list brought together by a key

A list is grouped when what has one key stands together, the groups in the order in which their keys came
up and each group in the order of the list.  What is put behind a list stays behind it exactly as long as
it only goes on with the key that came up last, or brings a new one.
-/
namespace Grouped

open List

variable {α κ : Type} [DecidableEq κ] (key : α → κ)

def keys (l : List α) : List κ := l.foldl (fun seen a => if key a ∈ seen then seen else seen ++ [key a]) []

def group (l : List α) (k : κ) : List α := l.filter (key · = k)

def grouped (l : List α) : List α := (keys key l).flatMap (group key l)

/-- **What follows comes in turn**: each key is a new one, or the one that came up last. -/
def InTurn (first rest : List α) : Prop := ∀ front a back, rest = front ++ a :: back →
  key a ∉ keys key (first ++ front) ∨ (keys key (first ++ front)).getLast? = some (key a)

variable {key}

theorem keys_concat (l : List α) (a : α) :
    keys key (l ++ [a]) = if key a ∈ keys key l then keys key l else keys key l ++ [key a] := by
  unfold keys
  rw [foldl_append, foldl_cons, foldl_nil]

variable {k : κ}

theorem mem_keys (l : List α) : k ∈ keys key l ↔ ∃ a ∈ l, key a = k := by
  induction l using List.reverseRecOn with
  | nil => simp [keys]
  | append_singleton l a ih =>
    rw [keys_concat]
    by_cases ha : key a ∈ keys key l
    · rw [if_pos ha, ih]
      constructor
      · rintro ⟨b, hb, hk⟩
        exact ⟨b, mem_append_left _ hb, hk⟩
      · rintro ⟨b, hb, rfl⟩
        rcases mem_append.1 hb with hb | hb
        · exact ⟨b, hb, rfl⟩
        · obtain rfl := mem_singleton.1 hb
          exact ih.1 ha
    · rw [if_neg ha, mem_append, ih, mem_singleton]
      simp only [mem_append, mem_singleton]
      constructor
      · rintro (⟨b, hb, hk⟩ | rfl)
        · exact ⟨b, .inl hb, hk⟩
        · exact ⟨a, .inr rfl, rfl⟩
      · rintro ⟨b, hb | rfl, hk⟩
        · exact .inl ⟨b, hb, hk⟩
        · exact .inr hk.symm

theorem nodup_keys (key : α → κ) (l : List α) : (keys key l).Nodup := by
  induction l using List.reverseRecOn with
  | nil => exact nodup_nil
  | append_singleton l a ih =>
    rw [keys_concat]
    by_cases ha : key a ∈ keys key l
    · rwa [if_pos ha]
    · rw [if_neg ha]
      exact nodup_append.2 ⟨ih, nodup_singleton _, fun x hx y hy => by
        rw [mem_singleton.1 hy]
        exact fun h => ha (h ▸ hx)⟩

theorem keys_prefix (key : α → κ) (l more : List α) : keys key l <+: keys key (l ++ more) := by
  induction more using List.reverseRecOn with
  | nil => simp
  | append_singleton more a ih =>
    rw [← append_assoc, keys_concat]
    by_cases ha : key a ∈ keys key (l ++ more)
    · rwa [if_pos ha]
    · rw [if_neg ha]
      exact ih.trans (prefix_append _ _)

variable {a : α} {l : List α}

theorem mem_group : a ∈ group key l k ↔ a ∈ l ∧ key a = k := by
  unfold group
  rw [mem_filter, decide_eq_true_eq]

theorem group_concat (l : List α) (a : α) (k : κ) :
    group key (l ++ [a]) k = if key a = k then group key l k ++ [a] else group key l k := by
  unfold group
  rw [filter_append]
  by_cases hk : key a = k
  · rw [if_pos hk, filter_cons_of_pos (by simpa using hk), filter_nil]
  · rw [if_neg hk, filter_cons_of_neg (by simpa using hk), filter_nil, append_nil]

variable {ks : List κ}

theorem flatMap_group_concat (h : key a ∉ ks) :
    ks.flatMap (group key (l ++ [a])) = ks.flatMap (group key l) := by
  refine flatMap_congr fun k hk => ?_
  rw [group_concat, if_neg fun heq : key a = k => h (heq ▸ hk)]

theorem mem_flatMap_group (h : a ∈ ks.flatMap (group key l)) : a ∈ l ∧ key a ∈ ks := by
  obtain ⟨k, hk, ha⟩ := mem_flatMap.1 h
  obtain ⟨hmem, rfl⟩ := mem_group.1 ha
  exact ⟨hmem, hk⟩

theorem mem_grouped : a ∈ grouped key l ↔ a ∈ l :=
  ⟨fun h => (mem_flatMap_group h).1, fun h => mem_flatMap.2 ⟨key a,
    (mem_keys l).2 ⟨a, h, rfl⟩, mem_group.2 ⟨h, rfl⟩⟩⟩

theorem grouped_new (h : key a ∉ keys key l) : grouped key (l ++ [a]) = grouped key l ++ [a] := by
  have hnone : group key l (key a) = [] :=
    filter_eq_nil_iff.2 fun b hb hkey => h ((mem_keys l).2 ⟨b, hb, by simpa using hkey⟩)
  unfold grouped
  rw [keys_concat, if_neg h, flatMap_append, flatMap_group_concat h, flatMap_cons, flatMap_nil,
    group_concat, if_pos rfl, hnone,
    nil_append, append_nil]

theorem grouped_beside {before behind : List κ} (h : keys key l = before ++ key a :: behind) :
    ∃ front last, key last = key a ∧ grouped key l = front ++ last :: behind.flatMap (group key l) ∧
      grouped key (l ++ [a]) = front ++ last :: a :: behind.flatMap (group key l) := by
  have hnodup := nodup_keys key l
  rw [h] at hnodup
  have hbefore : key a ∉ before := fun hk => (nodup_append.1 hnodup).2.2 _ hk _ mem_cons_self rfl
  have hbehind : key a ∉ behind := (nodup_cons.1 (nodup_append.1 hnodup).2.1).1
  obtain ⟨b, hb, hkey⟩ := (mem_keys l).1 (h ▸ mem_append_right before mem_cons_self)
  obtain ⟨members, last, hgroup⟩ := eq_nil_or_concat'  (group key l (key a)) |>.resolve_left
    (ne_nil_of_mem (mem_group.2 ⟨hb, hkey⟩))
  have hlast : key last = key a := (mem_group.1 (hgroup ▸ mem_append_right members mem_cons_self)).2
  refine ⟨before.flatMap (group key l) ++ members, last, hlast, ?_, ?_⟩
  · unfold grouped
    rw [h, flatMap_append, flatMap_cons, hgroup]
    simp only [append_assoc, singleton_append]
  · unfold grouped
    rw [keys_concat, if_pos (by rw [h]; exact mem_append_right before mem_cons_self), h,
      flatMap_append, flatMap_cons,
      flatMap_group_concat hbefore, flatMap_group_concat hbehind, group_concat, if_pos rfl, hgroup]
    simp only [append_assoc, cons_append, nil_append]

/-! ### What is put behind a list -/

theorem grouped_concat (h : key a ∉ keys key l ∨ (keys key l).getLast? = some (key a)) :
    grouped key (l ++ [a]) = grouped key l ++ [a] := by
  rcases h with h | h
  · exact grouped_new h
  · obtain ⟨before, hkeys⟩ := getLast?_eq_some_iff.1 h
    obtain ⟨front, last, -, hfirst, hsecond⟩ := grouped_beside hkeys
    rw [hfirst, hsecond, flatMap_nil]
    simp

variable {first rest : List α}

theorem InTurn.grouped_append (h : InTurn key first rest) :
    grouped key (first ++ rest) = grouped key first ++ rest := by
  induction rest using List.reverseRecOn with
  | nil => rw [append_nil, append_nil]
  | append_singleton rest a ih =>
    have hrest : InTurn key first rest :=
      fun front b back heq => h front b (back ++ [a]) (by rw [heq, append_assoc, cons_append])
    rw [← append_assoc, grouped_concat (h rest a [] rfl), ih hrest, append_assoc]

theorem length_grouped (l : List α) : (grouped key l).length = l.length := by
  induction l using List.reverseRecOn with
  | nil => rfl
  | append_singleton l a ih =>
    by_cases ha : key a ∈ keys key l
    · obtain ⟨before, behind, hkeys⟩ := append_of_mem ha
      obtain ⟨front, last, -, hfirst, hsecond⟩ := grouped_beside hkeys
      rw [hfirst] at ih
      rw [hsecond, length_append, length_append, ← ih]
      simp only [length_append, length_cons, length_nil]
      omega
    · rw [grouped_new ha, length_append, ih, length_append]

theorem length_group_le (hk : k ∈ ks) : (group key l k).length ≤
    (group key (ks.flatMap (group key l)) k).length := by
  have hsub : (group key l k).Sublist (ks.flatMap (group key l)) := by
    obtain ⟨before, behind, rfl⟩ := append_of_mem hk
    rw [flatMap_append, flatMap_cons]
    exact (sublist_append_left _ _).trans (sublist_append_right _ _)
  have hself : group key (group key l k) k = group key l k :=
    filter_eq_self.2 fun a ha => by simpa using (mem_group.1 ha).2
  calc (group key l k).length = (group key (group key l k) k).length := by rw [hself]
    _ ≤ (group key (ks.flatMap (group key l)) k).length := (hsub.filter _).length_le

theorem inTurn_of_drop (h : (grouped key (first ++ rest)).drop first.length = rest) : InTurn key first rest := by
  intro front a back hrest
  by_contra hnot
  rw [not_or, not_not] at hnot
  obtain ⟨ha, hlast⟩ := hnot
  obtain ⟨before, behind, hkeys⟩ := append_of_mem ha
  obtain ⟨k, hk⟩ : ∃ k, k ∈ behind := by
    apply exists_mem_of_ne_nil
    rintro rfl
    exact hlast (by rw [hkeys, getLast?_concat])
  -- the keys up to the one of `a`, and those behind it
  obtain ⟨more, hmore⟩ := keys_prefix key (first ++ front) (a :: back)
  rw [hkeys, append_assoc first, ← hrest] at hmore
  have hall : keys key (first ++ rest) = (before ++ [key a]) ++ (behind ++ more) := by
    rw [← hmore]
    simp
  have hapart := (nodup_append.1 (hall ▸ nodup_keys key (first ++ rest))).2.2
  have hgrouped : grouped key (first ++ rest) =
      (before ++ [key a]).flatMap (group key (first ++ rest)) ++
      (behind ++ more).flatMap (group key (first ++ rest)) := by
    conv_lhs => unfold grouped
    rw [hall, flatMap_append]
  generalize hP : (before ++ [key a]).flatMap (group key (first ++ rest)) = P at hgrouped
  generalize hQ : (behind ++ more).flatMap (group key (first ++ rest)) = Q at hgrouped
  have hkeyP : ∀ b ∈ P, key b ∈ before ++ [key a] := fun b hb => (mem_flatMap_group (hP ▸ hb)).2
  have hkeyQ : ∀ b ∈ Q, key b ∈ behind ++ more := fun b hb => (mem_flatMap_group (hQ ▸ hb)).2
  have haQ : a ∉ Q := fun hmem => hapart _ (mem_append_right _ mem_cons_self) _ (hkeyQ a hmem) rfl
  rw [hgrouped, drop_append] at h
  -- `a` is passed over with nothing of what stands behind its group
  have hshort : first.length < P.length := by
    by_contra hlong
    rw [drop_eq_nil_of_le (Nat.le_of_not_lt hlong), nil_append] at h
    exact haQ (mem_of_mem_drop (h ▸ hrest ▸ mem_append_right front mem_cons_self))
  rw [Nat.sub_eq_zero_of_le (Nat.le_of_lt hshort), drop_zero] at h
  -- so the list before had none of the keys behind
  have hnone : group key first k = [] := by
    have hle : (group key (first ++ rest) k).length ≤ (group key rest k).length := by
      calc (group key (first ++ rest) k).length ≤ (group key Q k).length :=
        hQ ▸ length_group_le (mem_append_left more hk)
        _ ≤ (group key rest k).length := by
          rw [← h]
          exact ((sublist_append_right _ _).filter _).length_le
    unfold group at hle ⊢
    rw [filter_append, length_append] at hle
    exact length_eq_zero_iff.1 (by omega)
  obtain ⟨b, hb, rfl⟩ := (mem_keys (first ++ front)).1 (hkeys ▸ mem_append_right before (mem_cons_of_mem _ hk))
  have hfront : b ∈ front := (mem_append.1 hb).resolve_left fun hfirst => by
    have hmem : b ∈ group key first (key b) := mem_group.2 ⟨hfirst, rfl⟩
    rw [hnone] at hmem
    cases hmem
  -- and in the rest the one of such a key comes before `a`
  rw [hrest] at h
  rcases append_eq_append_iff.1 h with ⟨c, hc, hbehind⟩ | ⟨c, hc, hfront'⟩
  · exact haQ (hbehind ▸ mem_append_right c mem_cons_self)
  · have hmem : b ∈ P := mem_of_mem_drop (hc ▸ mem_append_left c hfront)
    exact hapart _ (hkeyP b hmem) _ (mem_append_left more hk) rfl

end Grouped
