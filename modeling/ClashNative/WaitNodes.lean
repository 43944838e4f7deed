import ClashNative.Tally
/-!
# WaitNodes — operations that wait in a queue and complete once

An operation is started once; it may park in a queue; it leaves the queue at a stage that says who took it
out, and whoever took it out owes it its completion.  `NodesOk hand P R queue nodes` is the invariant of a
list of such operations: the queue holds exactly the parked ones, one operation may be in the `hand` of
the code that runs, and every other has no outcome or exactly one, which agrees with `P` and has a reason
`R` in the operation itself.
-/
namespace WaitNodes

open List

inductive Stage
  | kInit | kQueued | kClaimed | kClosed | kStopped | kGone
  deriving DecidableEq, Repr

/-- **A node** with completions of type `ρ`.  `owed` is the completion that has been decided and not fired
yet. -/
structure Node (ρ : Type) where
  attached : Bool := true
  stage : Stage := .kInit
  stopRequested : Bool := false
  started : Bool := false
  destroyed : Bool := false
  owed : Option ρ := none
  completions : List ρ := []

variable {ρ : Type}

namespace Node

def outcome (n : Node ρ) : List ρ := n.completions ++ n.owed.toList

def start (n : Node ρ) : Node ρ := { n with started := true }
def leave (st : Stage) (n : Node ρ) : Node ρ := { n with stage := st }
def owe (r : ρ) (n : Node ρ) : Node ρ := { n with owed := some r }
def requestStop (n : Node ρ) : Node ρ := { n with stopRequested := true }
def destroy (n : Node ρ) : Node ρ := { n with destroyed := true }

def complete (n : Node ρ) : Node ρ := { n with owed := none, completions := n.completions ++ n.owed.toList }

@[simp] theorem outcome_complete (n : Node ρ) : n.complete.outcome = n.outcome := by simp [outcome, complete]

end Node

/-- **A node is in order**: `P` says what the rest of the state must know of it, for no outcome and for an
outcome, and `R` why it has the outcome. -/
inductive NodeOk (hand : Prop) (P : Option ρ → Prop) (R : Node ρ → ρ → Prop) (n : Node ρ) : Prop
  | fresh (hstart : n.started = false) (hstage : n.stage = .kInit) (hout : n.outcome = []) (hP : P none)
    (hh : ¬ hand)
  | parked (hstart : n.started = true) (hstage : n.stage = .kQueued) (hout : n.outcome = [])
    (hP : P none) (hh : ¬ hand)
  | withdrawn (hstart : n.started = true) (hstage : n.stage = .kGone) (hout : n.outcome = []) (hP : P none)
      (hh : ¬ hand)
  | inHand (hstart : n.started = true) (hq : n.stage ≠ .kQueued) (hg : n.stage ≠ .kGone) (hout : n.outcome = [])
      (hh : hand)
  | done (hstart : n.started = true) (hq : n.stage ≠ .kQueued) (hg : n.stage ≠ .kGone) (r : ρ)
    (hout : n.outcome = [r])
      (hP : P (some r)) (hh : ¬ hand) (hR : R n r)

structure NodesOk (hand : Option Nat) (P : Nat → Option ρ → Prop) (R : Node ρ → ρ → Prop) (queue : List Nat)
    (nodes : List (Node ρ)) : Prop where
  ok : ∀ (i : Nat) (n : Node ρ), nodes[i]? = some n → NodeOk (hand = some i) (P i) R n
  queued_iff : ∀ i, i ∈ queue ↔ ∃ n, nodes[i]? = some n ∧ n.stage = .kQueued
  nodup : queue.Nodup

variable {n : Node ρ} {R : Node ρ → ρ → Prop} {P : Option ρ → Prop} {hand : Prop}

theorem NodeOk.congr {hand' : Prop} {P' : Option ρ → Prop} {R' : Node ρ → ρ → Prop}
    (h : NodeOk hand P R n) (hh : hand' ↔ hand) (hP : ∀ r, P r → P' r) (hR : ∀ r, R n r → R' n r) :
    NodeOk hand' P' R' n := by
  cases h with
  | fresh h1 h2 h3 h4 h5 => exact .fresh h1 h2 h3 (hP _ h4) (mt hh.1 h5)
  | parked h1 h2 h3 h4 h5 => exact .parked h1 h2 h3 (hP _ h4) (mt hh.1 h5)
  | withdrawn h1 h2 h3 h4 h5 => exact .withdrawn h1 h2 h3 (hP _ h4) (mt hh.1 h5)
  | inHand h1 h2 h3 h4 h5 => exact .inHand h1 h2 h3 h4 (hh.2 h5)
  | done h1 h2 h3 r h4 h5 h6 h7 => exact .done h1 h2 h3 r h4 (hP _ h5) (mt hh.1 h6) (hR _ h7)

theorem NodeOk.neutral {n' : Node ρ}
    (h : NodeOk hand P R n) (hstart : n'.started = n.started) (hstage : n'.stage = n.stage)
    (hout : n'.outcome = n.outcome) (hR : ∀ r, R n r → R n' r) : NodeOk hand P R n' := by
  cases h with
  | fresh h1 h2 h3 h4 h5 => exact .fresh (hstart.trans h1) (hstage.trans h2) (hout.trans h3) h4 h5
  | parked h1 h2 h3 h4 h5 => exact .parked (hstart.trans h1) (hstage.trans h2) (hout.trans h3) h4 h5
  | withdrawn h1 h2 h3 h4 h5 => exact .withdrawn (hstart.trans h1) (hstage.trans h2) (hout.trans h3) h4 h5
  | inHand h1 h2 h3 h4 h5 =>
    exact .inHand (hstart.trans h1) (hstage ▸ h2) (hstage ▸ h3) (hout.trans h4) h5
  | done h1 h2 h3 r h4 h5 h6 h7 =>
    exact .done (hstart.trans h1) (hstage ▸ h2) (hstage ▸ h3) r (hout.trans h4) h5 h6 (hR r h7)

theorem NodeOk.told (h : NodeOk hand P R n) (hh : ¬ hand) :
    (n.outcome = [] ∧ P none) ∨ ∃ r, n.outcome = [r] ∧ n.stage ≠ .kGone ∧ P (some r) ∧ R n r := by
  cases h with
  | fresh _ _ h3 h4 _ => exact .inl ⟨h3, h4⟩
  | parked _ _ h3 h4 _ => exact .inl ⟨h3, h4⟩
  | withdrawn _ _ h3 h4 _ => exact .inl ⟨h3, h4⟩
  | inHand _ _ _ _ h5 => exact absurd h5 hh
  | done _ _ h3 r h4 h5 _ h7 => exact .inr ⟨r, h4, h3, h5, h7⟩

namespace NodesOk

variable {hand : Option Nat} {P P' : Nat → Option ρ → Prop} {R R' : Node ρ → ρ → Prop} {queue : List Nat}
  {nodes : List (Node ρ)} {i : Nat}

theorem empty (P : Nat → Option ρ → Prop) (R : Node ρ → ρ → Prop) : NodesOk none P R [] [] :=
  ⟨fun i n h => by simp at h, fun i => by simp, nodup_nil⟩

variable {n : Node ρ}

theorem modify_cases {f : Node ρ → Node ρ} {j : Nat} (h : (nodes.modify i f)[j]? = some n) :
    (i = j ∧ ∃ n', nodes[i]? = some n' ∧ n = f n') ∨ (i ≠ j ∧ nodes[j]? = some n) := by
  by_cases hij : i = j
  · subst hij
    rw [getElem?_modify_eq] at h
    obtain ⟨n', hn', rfl⟩ := Option.map_eq_some_iff.1 h
    exact .inl ⟨rfl, n', hn', rfl⟩
  · rw [getElem?_modify_ne f nodes hij] at h
    exact .inr ⟨hij, h⟩

theorem agree (h : NodesOk hand P R queue nodes)
    (hP : ∀ j, hand ≠ some j → j < nodes.length → ∀ r, P j r → P' j r) (hR : ∀ n r, R n r → R' n r) :
    NodesOk hand P' R' queue nodes := by
  refine { h with ok := fun j n hn => ?_ }
  have hj := h.ok j n hn
  by_cases hh : hand = some j
  · cases hj with
    | inHand h1 h2 h3 h4 h5 => exact .inHand h1 h2 h3 h4 h5
    | fresh h1 h2 h3 h4 h5 => exact absurd hh h5
    | parked h1 h2 h3 h4 h5 => exact absurd hh h5
    | withdrawn h1 h2 h3 h4 h5 => exact absurd hh h5
    | done h1 h2 h3 r h4 h5 h6 => exact absurd hh h6
  · exact hj.congr Iff.rfl (hP j hh (List.getElem?_eq_some_iff.1 hn).1) (hR n)

theorem neutral (h : NodesOk hand P R queue nodes) (i : Nat) (f : Node ρ → Node ρ)
    (hf : ∀ n, (f n).started = n.started ∧ (f n).stage = n.stage ∧ (f n).outcome = n.outcome)
    (hR : ∀ n r, R n r → R (f n) r) :
    NodesOk hand P R queue (nodes.modify i f) := by
  refine ⟨fun j n hn => ?_, fun j => ?_, h.nodup⟩
  · rcases modify_cases hn with ⟨rfl, n', hn', rfl⟩ | ⟨_, hn'⟩
    · exact (h.ok _ n' hn').neutral (hf n').1 (hf n').2.1 (hf n').2.2 (hR n')
    · exact h.ok j n hn'
  · rw [h.queued_iff]
    constructor
    · rintro ⟨n, hn, hq⟩
      by_cases hij : i = j
      · subst hij
        exact ⟨f n, by rw [getElem?_modify_eq, hn]; rfl, (hf n).2.1.trans hq⟩
      · exact ⟨n, by rw [getElem?_modify_ne f nodes hij, hn], hq⟩
    · rintro ⟨n, hn, hq⟩
      rcases modify_cases hn with ⟨rfl, n', hn', rfl⟩ | ⟨_, hn'⟩
      · exact ⟨n', hn', (hf n').2.1.symm.trans hq⟩
      · exact ⟨n, hn', hq⟩

theorem add (h : NodesOk hand P R queue nodes) (n : Node ρ) (hstart : n.started = false)
    (hstage : n.stage = .kInit)
    (hout : n.outcome = []) (hP : P nodes.length none) (hh : hand ≠ some nodes.length) :
    NodesOk hand P R queue (nodes ++ [n]) := by
  refine ⟨fun j n' hn' => ?_, fun j => ?_, h.nodup⟩
  · rcases Tally.getElem?_concat_cases hn' with hn' | ⟨rfl, rfl⟩
    · exact h.ok j n' hn'
    · exact .fresh hstart hstage hout hP hh
  · rw [h.queued_iff]
    constructor
    · rintro ⟨n', hn', hq⟩
      exact ⟨n', by rw [getElem?_append_left (List.getElem?_eq_some_iff.1 hn').1, hn'], hq⟩
    · rintro ⟨n', hn', hq⟩
      rcases Tally.getElem?_concat_cases hn' with hn' | ⟨rfl, rfl⟩
      · exact ⟨n', hn', hq⟩
      · rw [hstage] at hq
        cases hq

theorem of_fresh (h : NodesOk hand P R queue nodes) (hn : nodes[i]? = some n) (hs : n.started = false) :
    n.stage = .kInit ∧ n.outcome = [] ∧ P i none := by
  cases h.ok i n hn with
  | fresh h1 h2 h3 h4 h5 => exact ⟨h2, h3, h4⟩
  | parked h1 _ _ _ _ => rw [hs] at h1; cases h1
  | withdrawn h1 _ _ _ _ => rw [hs] at h1; cases h1
  | inHand h1 _ _ _ _ => rw [hs] at h1; cases h1
  | done h1 _ _ _ _ _ _ => rw [hs] at h1; cases h1

theorem of_parked (h : NodesOk hand P R queue nodes) (hn : nodes[i]? = some n) (hq : n.stage = .kQueued) :
    n.started = true ∧ n.outcome = [] ∧ P i none := by
  cases h.ok i n hn with
  | fresh h1 h2 h3 h4 h5 => rw [hq] at h2; cases h2
  | parked h1 h2 h3 h4 h5 => exact ⟨h1, h3, h4⟩
  | withdrawn h1 h2 h3 h4 h5 => rw [hq] at h2; cases h2
  | inHand h1 h2 h3 h4 h5 => exact absurd hq h2
  | done h1 h2 h3 r h4 h5 h6 => exact absurd hq h2

theorem begin_ (h : NodesOk none P R queue nodes) (hn : nodes[i]? = some n) (hs : n.started = false) :
    NodesOk (some i) P R queue (nodes.modify i Node.start) := by
  obtain ⟨hstage, hout, _⟩ := h.of_fresh hn hs
  refine ⟨fun j n' hn' => ?_, fun j => ?_, h.nodup⟩
  · rcases modify_cases hn' with ⟨rfl, n'', hn'', rfl⟩ | ⟨hij, hn'⟩
    · rw [hn] at hn''
      cases hn''
      refine .inHand rfl ?_ ?_ hout rfl
      · exact fun hq => by rw [Node.start, hstage] at hq; cases hq
      · exact fun hq => by rw [Node.start, hstage] at hq; cases hq
    · exact (h.ok j n' hn').congr (by simp [hij]) (fun _ hr => hr) fun _ hr => hr
  · rw [h.queued_iff]
    constructor
    · rintro ⟨n', hn', hq⟩
      by_cases hij : i = j
      · subst hij
        rw [hn] at hn'
        cases hn'
        rw [hstage] at hq
        cases hq
      · exact ⟨n', by rw [getElem?_modify_ne _ nodes hij, hn'], hq⟩
    · rintro ⟨n', hn', hq⟩
      rcases modify_cases hn' with ⟨rfl, n'', hn'', rfl⟩ | ⟨_, hn'⟩
      · exact ⟨n'', hn'', hq⟩
      · exact ⟨n', hn', hq⟩

theorem park (h : NodesOk (some i) P R queue nodes) (hi : i < nodes.length) (hP : P i none) :
    NodesOk none P R (queue ++ [i]) (nodes.modify i (Node.leave .kQueued)) := by
  obtain ⟨n, hn⟩ : ∃ n, nodes[i]? = some n := ⟨_, getElem?_eq_getElem hi⟩
  have hhand : n.started = true ∧ n.stage ≠ .kQueued ∧ n.outcome = [] := by
    cases h.ok i n hn with
    | inHand h1 h2 h3 h4 h5 => exact ⟨h1, h2, h4⟩
    | fresh h1 h2 h3 h4 h5 => exact absurd rfl h5
    | parked h1 h2 h3 h4 h5 => exact absurd rfl h5
    | withdrawn h1 h2 h3 h4 h5 => exact absurd rfl h5
    | done h1 h2 h3 r h4 h5 h6 => exact absurd rfl h6
  refine ⟨fun j n' hn' => ?_, fun j => ?_, ?_⟩
  · rcases modify_cases hn' with ⟨rfl, n'', hn'', rfl⟩ | ⟨hij, hn'⟩
    · rw [hn] at hn''
      cases hn''
      exact .parked hhand.1 rfl hhand.2.2 hP nofun
    · exact (h.ok j n' hn').congr (by simp [hij]) (fun _ hr => hr) fun _ hr => hr
  · rw [mem_append, mem_singleton, h.queued_iff]
    constructor
    · rintro (⟨n', hn', hq⟩ | rfl)
      · by_cases hij : i = j
        · subst hij
          exact ⟨_, by rw [getElem?_modify_eq, hn]; rfl, rfl⟩
        · exact ⟨n', by rw [getElem?_modify_ne _ nodes hij, hn'], hq⟩
      · exact ⟨_, by rw [getElem?_modify_eq, hn]; rfl, rfl⟩
    · rintro ⟨n', hn', hq⟩
      rcases modify_cases hn' with ⟨rfl, _⟩ | ⟨_, hn'⟩
      · exact .inr rfl
      · exact .inl ⟨n', hn', hq⟩
  · rw [nodup_append]
    refine ⟨h.nodup, nodup_singleton _, fun a ha b hb hab => ?_⟩
    rw [mem_singleton.1 hb] at hab
    obtain ⟨n', hn', hq⟩ := (h.queued_iff a).1 ha
    rw [hab, hn] at hn'
    cases hn'
    exact hhand.2.1 hq

variable {st : Stage}

theorem queued_iff_erase (h : NodesOk hand P R queue nodes) (hst : st ≠ .kQueued) (j : Nat) :
    j ∈ queue.erase i ↔ ∃ n, (nodes.modify i (Node.leave st))[j]? = some n ∧ n.stage = .kQueued := by
  constructor
  · intro hj
    have hij : i ≠ j := by
      rintro rfl
      exact h.nodup.not_mem_erase hj
    obtain ⟨n, hn, hq⟩ := (h.queued_iff j).1 (mem_of_mem_erase hj)
    exact ⟨n, by rw [getElem?_modify_ne _ nodes hij, hn], hq⟩
  · rintro ⟨n, hn, hq⟩
    rcases modify_cases hn with ⟨rfl, n', _, rfl⟩ | ⟨hij, hn⟩
    · exact absurd hq hst
    · exact (mem_erase_of_ne (Ne.symm hij)).2 ((h.queued_iff j).2 ⟨n, hn, hq⟩)

theorem unlink (h : NodesOk none P R queue nodes) (hi : i ∈ queue) (hst : st ≠ .kQueued)
    (hg : st ≠ .kGone) : NodesOk (some i) P R (queue.erase i) (nodes.modify i (Node.leave st)) ∧ P i none := by
  obtain ⟨n, hn, hq⟩ := (h.queued_iff i).1 hi
  obtain ⟨hstart, hout, hP⟩ := h.of_parked hn hq
  refine ⟨⟨fun j n' hn' => ?_, h.queued_iff_erase hst, h.nodup.erase i⟩, hP⟩
  rcases modify_cases hn' with ⟨rfl, n'', hn'', rfl⟩ | ⟨hij, hn'⟩
  · rw [hn] at hn''
    cases hn''
    exact .inHand hstart hst hg hout rfl
  · exact (h.ok j n' hn').congr (by simp [hij]) (fun _ hr => hr) fun _ hr => hr

theorem withdraw (h : NodesOk none P R queue nodes) (hi : i ∈ queue) :
    NodesOk none P R (queue.erase i) (nodes.modify i (Node.leave .kGone)) := by
  obtain ⟨n, hn, hq⟩ := (h.queued_iff i).1 hi
  obtain ⟨hstart, hout, hP⟩ := h.of_parked hn hq
  refine ⟨fun j n' hn' => ?_, h.queued_iff_erase nofun, h.nodup.erase i⟩
  rcases modify_cases hn' with ⟨rfl, n'', hn'', rfl⟩ | ⟨_, hn'⟩
  · rw [hn] at hn''
    cases hn''
    exact .withdrawn hstart rfl hout hP nofun
  · exact h.ok j n' hn'

theorem finish (h : NodesOk (some i) P R queue nodes) (r : ρ) (hP : P i (some r))
    (hR : ∀ n, nodes[i]? = some n → R (n.owe r) r) : NodesOk none P R queue (nodes.modify i (Node.owe r)) := by
  refine ⟨fun j n' hn' => ?_, fun j => ?_, h.nodup⟩
  · rcases modify_cases hn' with ⟨rfl, n, hn, rfl⟩ | ⟨hij, hn'⟩
    · cases h.ok _ n hn with
      | inHand h1 h2 h3 h4 h5 =>
        refine .done h1 h2 h3 r ?_ hP nofun (hR n hn)
        have hc : n.completions = [] := (append_eq_nil_iff.1 h4).1
        simp [Node.outcome, Node.owe, hc]
      | fresh h1 h2 h3 h4 h5 => exact absurd rfl h5
      | parked h1 h2 h3 h4 h5 => exact absurd rfl h5
      | withdrawn h1 h2 h3 h4 h5 => exact absurd rfl h5
      | done h1 h2 h3 r h4 h5 h6 => exact absurd rfl h6
    · exact (h.ok j n' hn').congr (by simp [hij]) (fun _ hr => hr) fun _ hr => hr
  · rw [h.queued_iff]
    constructor
    · rintro ⟨n, hn, hq⟩
      by_cases hij : i = j
      · subst hij
        exact ⟨n.owe r, by rw [getElem?_modify_eq, hn]; rfl, hq⟩
      · exact ⟨n, by rw [getElem?_modify_ne _ nodes hij, hn], hq⟩
    · rintro ⟨n, hn, hq⟩
      rcases modify_cases hn with ⟨rfl, n', hn', rfl⟩ | ⟨_, hn'⟩
      · exact ⟨n', hn', hq⟩
      · exact ⟨n, hn', hq⟩

end NodesOk

end WaitNodes
