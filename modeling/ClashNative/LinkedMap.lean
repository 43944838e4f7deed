import Mathlib.Data.List.AList
import Mathlib.Tactic.Common
/-!
# LinkedMap — a map whose entries point into a list of its keys, most recently used first

An entry names a node of the list and the node names the entry's key (`Linked`).  `Ordered` says that the
keys of the list stand in the order of their last uses.
-/
namespace LinkedMap

open List

variable {κ ε : Type} [DecidableEq κ]

/-! ## The order of last uses -/

def MoreRecent (uses : List κ) (a b : κ) : Prop := uses.idxOf a < uses.idxOf b

/-- **Each key was used more recently than those behind it.** -/
def Ordered (uses keys : List κ) : Prop := keys.Pairwise (MoreRecent uses)

namespace Ordered

variable {uses keys keys' : List κ} {k : κ}

theorem nil (uses : List κ) : Ordered uses [] := List.Pairwise.nil

theorem sublist (h : Ordered uses keys) (hsub : List.Sublist keys' keys) : Ordered uses keys' :=
  List.Pairwise.sublist hsub h

theorem use (h : Ordered uses keys) (hk : k ∉ keys) : Ordered (k :: uses) (k :: keys) := by
  have hne : ∀ a ∈ keys, k ≠ a := fun a ha heq => hk (heq ▸ ha)
  refine pairwise_cons.2 ⟨fun a ha => ?_, List.Pairwise.imp_of_mem (fun {a b} ha hb hlt => ?_) h⟩
  · rw [MoreRecent, idxOf_cons_self, idxOf_cons_ne _ (hne a ha)]
    exact Nat.succ_pos _
  · rw [MoreRecent, idxOf_cons_ne _ (hne a ha), idxOf_cons_ne _ (hne b hb)]
    exact Nat.succ_lt_succ hlt

theorem last (h : Ordered uses (keys ++ [k])) {a : κ} (ha : a ∈ keys) : MoreRecent uses a k :=
  (pairwise_append.1 h).2.2 a ha k (mem_singleton_self k)

end Ordered

/-! ## The map and the list -/

/-- **The map and the list agree**: each entry's node is its key's, and each node's key is in the map. -/
structure Linked (node : ε → Nat) (m : AList fun _ : κ => ε) (l : List (Nat × κ)) : Prop where
  nodes : (l.map Prod.fst).Nodup
  keys : (l.map Prod.snd).Nodup
  there : ∀ {k : κ} {e : ε}, m.lookup k = some e → (node e, k) ∈ l
  back : ∀ {n : Nat} {k : κ}, (n, k) ∈ l → ∃ e, m.lookup k = some e ∧ node e = n

namespace Linked

variable {node : ε → Nat} {m : AList fun _ : κ => ε} {l : List (Nat × κ)} {k : κ} {e : ε} {n : Nat}

theorem empty : Linked node (∅ : AList fun _ : κ => ε) [] := by
  constructor <;> simp

theorem mem_keys (h : Linked node m l) {a : κ} : a ∈ m.keys ↔ a ∈ l.map Prod.snd := by
  rw [← AList.mem_keys, ← AList.lookup_isSome, Option.isSome_iff_exists]
  constructor
  · rintro ⟨e, he⟩
    exact mem_map.2 ⟨_, h.there he, rfl⟩
  · intro ha
    obtain ⟨⟨n, a⟩, hna, rfl⟩ := mem_map.1 ha
    obtain ⟨e, he, -⟩ := h.back hna
    exact ⟨e, he⟩

theorem length_eq (h : Linked node m l) : m.keys.length = l.length := by
  have hperm : m.keys.Perm (l.map Prod.snd) :=
    (perm_ext_iff_of_nodup m.keys_nodup h.keys).2 fun _ => h.mem_keys
  rw [hperm.length_eq, length_map]

theorem key_unique (h : Linked node m l) {a b : κ} (ha : (n, a) ∈ l) (hb : (n, b) ∈ l) : a = b := by
  have hinj := inj_on_of_nodup_map h.nodes ha hb rfl
  exact congrArg Prod.snd hinj

theorem node_unique (h : Linked node m l) {a b : Nat} (ha : (a, k) ∈ l) (hb : (b, k) ∈ l) : a = b := by
  have hinj := inj_on_of_nodup_map h.keys ha hb rfl
  exact congrArg Prod.fst hinj

theorem drop (h : Linked node m l) (he : m.lookup k = some e) :
    Linked node (m.erase k) (l.filter fun x => x.1 != node e) := by
  have hsub : List.Sublist (l.filter fun x => x.1 != node e) l := filter_sublist
  refine ⟨h.nodes.sublist (hsub.map _), h.keys.sublist (hsub.map _), fun {a x} hx => ?_, fun {n a} hna => ?_⟩
  · by_cases ha : a = k
    · rw [ha, AList.lookup_erase] at hx
      cases hx
    · rw [AList.lookup_erase_ne ha] at hx
      have hne : node x ≠ node e := fun heq => ha (h.key_unique (h.there hx) (heq ▸ h.there he))
      exact mem_filter.2 ⟨h.there hx, by simpa using hne⟩
  · rw [mem_filter] at hna
    obtain ⟨x, hx, hnode⟩ := h.back hna.1
    have hne : a ≠ k := by
      rintro rfl
      rw [he, Option.some.injEq] at hx
      subst hx
      simp [hnode] at hna
    exact ⟨x, by rw [AList.lookup_erase_ne hne]; exact hx, hnode⟩

theorem filter_node (h : Linked node m l) (he : m.lookup k = some e) :
    k ∉ (l.filter fun x => x.1 != node e).map Prod.snd := by
  intro hk
  obtain ⟨⟨n, k'⟩, hn, heq⟩ := mem_map.1 hk
  subst heq
  rw [mem_filter] at hn
  have hsame := h.node_unique hn.1 (h.there he)
  simp [hsame] at hn

theorem filter_self (h : Linked node m l) (he : m.lookup k = some e) :
    (l.filter fun x => x.1 == node e) = [(node e, k)] := by
  have hmem : ∀ x, x ∈ (l.filter fun x => x.1 == node e) ↔ x = (node e, k) := by
    rintro ⟨n, a⟩
    rw [mem_filter]
    constructor
    · rintro ⟨hna, hn⟩
      have hn : n = node e := by simpa using hn
      subst hn
      rw [h.key_unique hna (h.there he)]
    · rintro heq
      cases heq
      exact ⟨h.there he, by simp⟩
  have hnodup : (l.filter fun x => x.1 == node e).Nodup := (List.Nodup.of_map _ h.nodes).filter _
  have hperm : (l.filter fun x => x.1 == node e).Perm [(node e, k)] :=
    (perm_ext_iff_of_nodup hnodup (nodup_singleton _)).2 fun x => by rw [hmem, mem_singleton]
  exact perm_singleton.1 hperm

theorem splice (h : Linked node m l) (n : Nat) :
    Linked node m ((l.filter fun x => x.1 == n) ++ l.filter fun x => x.1 != n) := by
  have hperm : ((l.filter fun x => x.1 == n) ++ l.filter fun x => x.1 != n).Perm l := by
    have hnot := filter_append_perm (fun x : Nat × κ => x.1 == n) l
    simpa [bne] using hnot
  refine ⟨((hperm.map _).nodup_iff).2 h.nodes, ((hperm.map _).nodup_iff).2 h.keys, fun hx => ?_, fun hna => ?_⟩
  · exact hperm.mem_iff.2 (h.there hx)
  · exact h.back (hperm.mem_iff.1 hna)

theorem push (h : Linked node m l) (hk : m.lookup k = none) (hn : node e ∉ l.map Prod.fst) :
    Linked node (m.insert k e) ((node e, k) :: l) := by
  have hk' : k ∉ l.map Prod.snd := by
    rw [← h.mem_keys, ← AList.mem_keys, ← AList.lookup_isSome, hk]
    exact Bool.false_ne_true
  refine ⟨nodup_cons.2 ⟨hn, h.nodes⟩, nodup_cons.2 ⟨hk', h.keys⟩, fun {a x} hx => ?_, fun {n a} hna => ?_⟩
  · by_cases ha : a = k
    · subst ha
      rw [AList.lookup_insert, Option.some.injEq] at hx
      rw [hx]
      exact mem_cons_self
    · rw [AList.lookup_insert_ne ha] at hx
      exact mem_cons_of_mem _ (h.there hx)
  · rcases mem_cons.1 hna with heq | hna
    · cases heq
      exact ⟨e, AList.lookup_insert m, rfl⟩
    · obtain ⟨x, hx, hnode⟩ := h.back hna
      have hne : a ≠ k := fun heq => hk' (heq ▸ mem_map.2 ⟨_, hna, rfl⟩)
      exact ⟨x, by rw [AList.lookup_insert_ne hne]; exact hx, hnode⟩

theorem popLast {x : Nat × κ} (h : Linked node m (l ++ [x])) : Linked node (m.erase x.2) l := by
  obtain ⟨e, he, hnode⟩ := h.back (mem_append_right l (mem_singleton_self x))
  have hdrop := h.drop he
  have hfilter : ((l ++ [x]).filter fun y => y.1 != node e) = l := by
    rw [filter_append, hnode]
    have hlast : ([x].filter fun y => y.1 != x.1) = [] := by simp
    rw [hlast, append_nil, filter_eq_self]
    intro y hy
    have hne : y.1 ≠ x.1 := by
      have hnodes := h.nodes
      rw [map_append, nodup_append] at hnodes
      exact hnodes.2.2 y.1 (mem_map_of_mem hy) x.1 (by simp)
    simpa using hne
  rwa [hfilter] at hdrop

end Linked

end LinkedMap
