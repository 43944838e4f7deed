import ClashNative.Tally
/-!
# ParkedList — the operations that wait, by their places in a list

Operations live in a list; those that wait are linked into a queue of their places.  `Parks queued queue
ops` says that the queue holds exactly the operations that are `queued`, each once; its lemmas are the
moves that a channel makes.
-/
namespace ParkedList

open List

variable {ω : Type}

/-- **The queue holds exactly the queued operations**, each once. -/
structure Parks (queued : ω → Prop) (queue : List Nat) (ops : List ω) : Prop where
  mem_iff : ∀ i, i ∈ queue ↔ ∃ w, ops[i]? = some w ∧ queued w
  nodup : queue.Nodup

def modifyAll (f : ω → ω) (queue : List Nat) (ops : List ω) : List ω :=
  queue.foldl (fun ops i => ops.modify i f) ops

theorem getElem?_modifyAll (f : ω → ω) {queue : List Nat} (hn : queue.Nodup) (i : Nat) (ops : List ω) :
    (modifyAll f queue ops)[i]? = (ops[i]?).map fun w => if i ∈ queue then f w else w := by
  induction queue generalizing ops with
  | nil => simp [modifyAll]
  | cons j queue ih =>
    have hj := nodup_cons.1 hn
    have hstep : modifyAll f (j :: queue) ops = modifyAll f queue (ops.modify j f) := rfl
    rw [hstep, ih hj.2, getElem?_modify]
    cases ops[i]? with
    | none => rfl
    | some w =>
      by_cases hji : j = i
      · subst hji
        simp [hj.1]
      · by_cases hi : i ∈ queue <;> simp [hji, Ne.symm hji, hi]

namespace Parks

variable {queued : ω → Prop} {queue : List Nat} {ops : List ω} {i : Nat} {w w' : ω}

theorem empty (queued : ω → Prop) : Parks queued [] [] := ⟨fun i => by simp, nodup_nil⟩

theorem queued_of_mem (h : Parks queued queue ops) (hw : ops[i]? = some w) (hi : i ∈ queue) : queued w := by
  obtain ⟨v, hv, hq⟩ := (h.mem_iff i).1 hi
  exact Option.some.inj (hv.symm.trans hw) ▸ hq

theorem mem_of_queued (h : Parks queued queue ops) (hw : ops[i]? = some w) (hq : queued w) : i ∈ queue :=
  (h.mem_iff i).2 ⟨w, hw, hq⟩

theorem add (h : Parks queued queue ops) (hq : ¬queued w) : Parks queued queue (ops ++ [w]) := by
  refine ⟨fun i => ?_, h.nodup⟩
  rw [h.mem_iff]
  constructor
  · rintro ⟨v, hv, hqv⟩
    exact ⟨v, by rw [getElem?_append_left (List.getElem?_eq_some_iff.1 hv).1, hv], hqv⟩
  · rintro ⟨v, hv, hqv⟩
    rcases Tally.getElem?_concat_cases hv with hv | ⟨-, rfl⟩
    · exact ⟨v, hv, hqv⟩
    · exact absurd hqv hq

theorem rewrite (h : Parks queued queue ops) (hw : ops[i]? = some w) (hq : queued w' ↔ queued w) :
    Parks queued queue (ops.set i w') :=
  ⟨fun j => (h.mem_iff j).trans (Tally.exists_getElem?_set_iff hw queued hq j).symm, h.nodup⟩

theorem park (h : Parks queued queue ops) (hw : ops[i]? = some w) (hq : ¬queued w) (hq' : queued w') :
    Parks queued (queue ++ [i]) (ops.set i w') := by
  have hi := (List.getElem?_eq_some_iff.1 hw).1
  have hni : i ∉ queue := fun hm => hq (h.queued_of_mem hw hm)
  refine ⟨fun j => ?_, nodup_append.2 ⟨h.nodup, nodup_singleton i, fun a ha b hb hab => ?_⟩⟩
  · rw [mem_append, mem_singleton, h.mem_iff]
    by_cases hj : j = i
    · subst hj
      exact ⟨fun _ => ⟨w', getElem?_set_self hi, hq'⟩, fun _ => .inr rfl⟩
    · rw [getElem?_set_ne (Ne.symm hj)]
      exact or_iff_left hj
  · rw [mem_singleton] at hb
    exact hni (hb ▸ hab ▸ ha)

theorem unpark (h : Parks queued queue ops) (hw : ops[i]? = some w) (hq' : ¬queued w') :
    Parks queued (queue.erase i) (ops.set i w') := by
  have hi := (List.getElem?_eq_some_iff.1 hw).1
  refine ⟨fun j => ?_, h.nodup.erase i⟩
  rw [h.nodup.mem_erase_iff, h.mem_iff]
  by_cases hj : j = i
  · subst hj
    simp [getElem?_set_self hi, hq']
  · rw [getElem?_set_ne (Ne.symm hj)]
    exact and_iff_right hj

theorem clear (h : Parks queued queue ops) {f : ω → ω} (hf : ∀ w, ¬queued (f w)) :
    Parks queued [] (modifyAll f queue ops) := by
  refine ⟨fun i => ⟨fun hi => absurd hi not_mem_nil, fun ⟨w, hw, hq⟩ => ?_⟩, nodup_nil⟩
  rw [getElem?_modifyAll f h.nodup] at hw
  obtain ⟨v, hv, rfl⟩ := Option.map_eq_some_iff.1 hw
  split at hq
  · exact absurd hq (hf v)
  · rename_i hi
    exact absurd (h.mem_of_queued hv hq) hi

end Parks
end ParkedList
