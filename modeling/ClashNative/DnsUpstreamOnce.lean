import ClashNative.DnsUpstreamGroup
import Mathlib.Data.List.Nodup
/-!
# DnsUpstreamOnce — each exchange's handler is called once

An operation is done or waits for a member, except the one whose task is running: that one is `running`,
and every way out of the task either waits again or finishes it.  The one way that does neither is a
member that reports `cancelled`.
-/
namespace ClashNative.Dns.UpstreamGroup

open List

/-- **What every state of a run owes**: no handler is called twice or without an exchange, and an exchange
whose handler was not called waits for a member's exchange that has not ended. -/
structure CalledOnce (s : State) : Prop where
  once : (s.results.map (·.1)).Nodup
  made : ∀ o ∈ s.results.map (·.1), o < s.ops.length
  pending : ∀ o op, s.ops[o]? = some op → o ∈ s.results.map (·.1) ∨ op.awaiting.isSome

/-- The member's exchange was stopped or reports an error of kind `cancelled`. -/
def MemberOutcome.reportsCancelled (outcome : MemberOutcome) : Bool :=
  match outcome.result with
  | .ok _ => false
  | .error e => e.code == .cancelled

/-- **No member reports `cancelled` to an operation that is not completed.** -/
def Spared (s : State) : Event → Prop
  | .outcome o outcome =>
    outcome.reportsCancelled = true → ∀ op ∈ s.ops[o]?, op.awaiting.isSome = true → op.completed = true
  | _ => True

/-! ## The invariant -/

/-- Each handler call belongs to a completed operation, and an operation that is not completed waits for a
member, unless its task is `running` now. -/
structure Inv (running : Option Nat) (s : State) : Prop where
  ledger : ∀ o, (s.results.map (·.1)).count o = if s.ops[o]?.any Operation.completed then 1 else 0
  waits : ∀ o op, s.ops[o]? = some op → op.completed = false → op.awaiting.isSome ∨ running = some o

section Moves

variable {c : Config} {running : Option Nat} {s : State}

theorem Inv.congr (h : Inv running s) {s' : State} (hops : s'.ops = s.ops) (hresults : s'.results = s.results) :
    Inv running s' :=
  ⟨by rw [hops, hresults]; exact h.ledger, by rw [hops]; exact h.waits⟩

theorem Inv.now (h : Inv running s) : Inv running (s.now c).2 := h.congr rfl rfl

theorem Inv.relax (h : Inv none s) (o : Nat) : Inv (some o) s :=
  ⟨h.ledger, fun i op hi hc => (h.waits i op hi hc).imp_right nofun⟩

variable {o : Nat}

theorem Inv.settle (h : Inv (some o) s)
    (ho : ∀ op, s.ops[o]? = some op → op.completed = false → op.awaiting.isSome) : Inv none s := by
  refine ⟨h.ledger, fun i op hi hc => ?_⟩
  rcases h.waits i op hi hc with hw | hr
  · exact .inl hw
  · cases hr
    exact .inl (ho op hi hc)

theorem modifyOp_getElem? (s : State) (o : Nat) (f : Operation → Operation) (i : Nat) :
    (s.modifyOp o f).ops[i]? = if i = o then (s.ops[i]?).map f else s.ops[i]? := by
  rw [State.modifyOp, getElem?_modify]
  by_cases h : i = o
  · simp [h]
  · have hne : ¬ o = i := fun hc => h hc.symm
    simp [h, hne]

theorem Inv.modify (h : Inv (some o) s) (f : Operation → Operation)
    (hf : ∀ op, (f op).completed = op.completed) : Inv (some o) (s.modifyOp o f) := by
  refine ⟨fun i => ?_, fun i op hi hc => ?_⟩
  · have hany : (if i = o then (s.ops[i]?).map f else s.ops[i]?).any Operation.completed =
        (s.ops[i]?).any Operation.completed := by
      split
      · cases s.ops[i]? with
        | none => rfl
        | some op => exact hf op
      · rfl
    rw [modifyOp_getElem?, hany]
    exact h.ledger i
  · rw [modifyOp_getElem?] at hi
    split at hi
    · rename_i hio
      exact .inr (congrArg some hio.symm)
    · exact h.waits i op hi hc

theorem recordFailure_frame (c : Config) (s : State) (i : Nat) (e : Error) :
    (s.recordFailure c i e).ops = s.ops ∧ (s.recordFailure c i e).results = s.results := by
  unfold State.recordFailure
  split <;> exact ⟨rfl, rfl⟩

theorem recordSuccess_frame (s : State) (i : Nat) :
    (s.recordSuccess i).ops = s.ops ∧ (s.recordSuccess i).results = s.results := by
  unfold State.recordSuccess
  split <;> exact ⟨rfl, rfl⟩

theorem selectMember_frame (c : Config) (s : State) (start : Nat) (attempted : List Bool) :
    (s.selectMember c start attempted).2.ops = s.ops ∧
    (s.selectMember c start attempted).2.results = s.results := by
  unfold State.selectMember
  split
  · exact ⟨rfl, rfl⟩
  · dsimp only
    split <;> exact ⟨rfl, rfl⟩

theorem nextStartIndex_frame (c : Config) (s : State) :
    (s.nextStartIndex c).2.ops = s.ops ∧ (s.nextStartIndex c).2.results = s.results := by
  unfold State.nextStartIndex
  split <;> exact ⟨rfl, rfl⟩

theorem Inv.finish (h : Inv running s) (o : Nat) (result : Result) :
    Inv running (s.finish o result) ∧ ∀ op, (s.finish o result).ops[o]? = some op → op.completed = true := by
  unfold State.finish
  split
  · rename_i ho
    exact ⟨h, fun op hop => by rw [ho] at hop; cases hop⟩
  · rename_i op hop
    split
    · rename_i hc
      refine ⟨h, fun op' hop' => ?_⟩
      rw [hop, Option.some.injEq] at hop'
      exact hop' ▸ hc
    · rename_i hc
      have hget : ∀ i, ({ (s.modifyOp o (fun op => { op with completed := true })) with
          operations := s.operations.erase o, results := s.results ++ [(o, result)] } : State).ops[i]? =
          if i = o then (s.ops[i]?).map (fun op => { op with completed := true }) else s.ops[i]? :=
        fun i => modifyOp_getElem? s o _ i
      refine ⟨⟨fun i => ?_, fun i op' hi hc' => ?_⟩, fun op' hop' => ?_⟩
      · rw [hget]
        have hi := h.ledger i
        simp only [map_append, map_cons, map_nil, count_append, count_singleton, beq_iff_eq, hi]
        by_cases hio : i = o
        · subst hio
          simp [hop, hc]
        · have hne : ¬ o = i := fun hoi => hio hoi.symm
          simp [hio, hne]
      · rw [hget] at hi
        split at hi
        · rename_i hio
          rw [hio, hop, Option.map_some, Option.some.injEq] at hi
          rw [← hi] at hc'
          cases hc'
        · exact h.waits i op' hi hc'
      · rw [hget, if_pos rfl, hop, Option.map_some, Option.some.injEq] at hop'
        rw [← hop']

theorem Inv.finishRunning (h : Inv (some o) s) (result : Result) : Inv none (s.finish o result) := by
  obtain ⟨hinv, hdone⟩ := h.finish o result
  refine hinv.settle fun op hop hc => ?_
  rw [hdone op hop] at hc
  cases hc

theorem Inv.memberFinished (h : Inv (some o) s) (index : Nat) (result : Result) :
    Inv none (s.memberFinished c o index result) := by
  unfold State.memberFinished
  cases result with
  | ok packet =>
    dsimp only
    split
    · have hm := h.modify (fun op => { op with lastError := some retryable }) (fun _ => rfl)
      obtain ⟨hops, hresults⟩ := recordFailure_frame c
        (s.modifyOp o fun op => { op with lastError := some retryable })
        index retryable
      exact (hm.congr hops hresults).finishRunning _
    · obtain ⟨hops, hresults⟩ := recordSuccess_frame s index
      exact (h.congr hops hresults).finishRunning _
  | error e =>
    have hm := h.modify (fun op => { op with lastError := some e }) (fun _ => rfl)
    obtain ⟨hops, hresults⟩ := recordFailure_frame c
      (s.modifyOp o fun op => { op with lastError := some e }) index e
    exact (hm.congr hops hresults).finishRunning _

theorem Inv.advance (h : Inv (some o) s) (index : Nat) : Inv none (s.advance c o index) := by
  unfold State.advance
  split
  · rename_i ho
    exact h.settle fun op hop _ => by rw [ho] at hop; cases hop
  · rename_i op hop
    split
    · rename_i hc
      refine h.settle fun op' hop' hc' => ?_
      rw [hop, Option.some.injEq] at hop'
      rw [← hop', hc] at hc'
      cases hc'
    · have hnow := h.now (c := c)
      dsimp only
      split
      · exact hnow.memberFinished _ _
      · obtain ⟨hops, hresults⟩ := selectMember_frame c (s.now c).2 index op.attempted
        split
        · rename_i s' hsel
          rw [hsel] at hops hresults
          exact (hnow.congr hops hresults).finishRunning _
        · rename_i i s' hsel
          rw [hsel] at hops hresults
          refine Inv.settle (o := o) ?_ fun op' hop' _ => ?_
          · exact (hnow.congr hops hresults).now.modify _ fun _ => rfl
          · rw [modifyOp_getElem?, if_pos rfl] at hop'
            obtain ⟨op'', -, rfl⟩ := Option.map_eq_some_iff.1 hop'
            rfl

theorem Inv.startOp (h : Inv (some o) s) : Inv none (s.startOp c o) := by
  unfold State.startOp
  split
  · exact h.finishRunning _
  · have hm := h.modify (fun op => { op with attempted := List.replicate c.members false }) (fun _ => rfl)
    obtain ⟨hops, hresults⟩ := nextStartIndex_frame c
      (s.modifyOp o (fun op => { op with attempted := List.replicate c.members false }))
    exact (hm.congr hops hresults).advance _

theorem Inv.push (h : Inv none s) (op : Operation) (hop : op.completed = false) (operations : List Nat) :
    Inv (some s.ops.length) { s with ops := s.ops ++ [op], operations := operations } := by
  refine ⟨fun i => ?_, fun i op' hi hc => ?_⟩
  · have hi := h.ledger i
    rw [hi]
    by_cases hlt : i < s.ops.length
    · rw [getElem?_append_left hlt]
    · rw [getElem?_append_right (by omega), getElem?_eq_none (by omega : s.ops.length ≤ i)]
      by_cases h0 : i - s.ops.length = 0
      · simp [h0, hop]
      · obtain ⟨k, hk⟩ := Nat.exists_eq_succ_of_ne_zero h0
        simp [hk]
  · dsimp only at hi
    by_cases hlt : i < s.ops.length
    · rw [getElem?_append_left hlt] at hi
      exact (h.waits i op' hi hc).imp_right nofun
    · have := (List.getElem?_eq_some_iff.1 hi).1
      rw [length_append, length_singleton] at this
      exact .inr (congrArg some (by omega))

theorem Inv.cancelAll (h : Inv none s) (os : List Nat) : Inv none (os.foldl State.cancelOp s) := by
  induction os generalizing s with
  | nil => exact h
  | cons o os ih => exact ih (h.finish o _).1

end Moves

/-! ## Steps and runs -/

variable {s : State}

theorem resume_inv {c : Config} (h : Inv none s) (o : Nat) (outcome : MemberOutcome)
    (hspared : Spared s (.outcome o outcome)) : Inv none (s.resume c o outcome) := by
  unfold State.resume
  split
  · exact h
  · rename_i op hop
    split
    · exact h
    · rename_i hawaiting
      have hm := (h.relax o).modify (fun op => { op with awaiting := none }) (fun _ => rfl)
      dsimp only
      split
      · rename_i hc
        refine hm.settle fun op' hop' hc' => ?_
        rw [modifyOp_getElem?, if_pos rfl, hop, Option.map_some, Option.some.injEq] at hop'
        rw [← hop'] at hc'
        rw [hc] at hc'
        cases hc'
      · rename_i hc
        have hok : outcome.reportsCancelled = false := by
          cases hr : outcome.reportsCancelled with
          | false => rfl
          | true =>
            refine absurd (hspared hr op (Option.mem_def.2 hop) ?_) hc
            cases ha : op.awaiting with
            | none => rw [ha] at hawaiting; exact absurd rfl hawaiting
            | some _ => rfl
        unfold MemberOutcome.reportsCancelled at hok
        split
        · rename_i packet hresult
          split
          · exact (hm.congr (recordSuccess_frame _ _).1 (recordSuccess_frame _ _).2).finishRunning _
          · have hm' := hm.modify (fun op => { op with lastError := some retryable }) (fun _ => rfl)
            have hf := hm'.congr (recordFailure_frame c _ op.currentIndex retryable).1
              (recordFailure_frame c _ op.currentIndex retryable).2
            split
            · exact hf.now.advance _
            · exact hf.now.finishRunning _
        · rename_i e hresult
          rw [hresult] at hok
          have hcode : ¬ e.code = .cancelled := by simpa using hok
          rw [if_neg hcode]
          have hm' := hm.modify (fun op => { op with lastError := some e }) (fun _ => rfl)
          have hf := hm'.congr (recordFailure_frame c _ op.currentIndex e).1
            (recordFailure_frame c _ op.currentIndex e).2
          simp only [ne_eq, hcode, not_false_eq_true, if_true]
          split
          · exact hf.now.advance _
          · exact hf.now.finishRunning _

theorem step_inv (c : Config) (s : State) (e : Event) (h : Inv none s) (hspared : Spared s e) :
    Inv none (step c s e) := by
  cases e with
  | exchange query deadline =>
    have hpush := h.push { query, deadline } rfl (s.ops.length :: s.operations)
    simp only [step, State.exchange]
    split
    · exact hpush.finishRunning _
    · exact hpush.startOp
  | outcome o outcome => exact resume_inv h o outcome hspared
  | cancel o =>
    have herase : Inv none { s with operations := s.operations.erase o } := h.congr rfl rfl
    exact (herase.finish o _).1
  | stop =>
    simp only [step, State.stop]
    split
    · exact h
    · have hstopped : Inv none { s with stopped := true, operations := [] } := h.congr rfl rfl
      exact hstopped.cancelAll _

theorem calledOnce_of_inv (h : Inv none s) : CalledOnce s := by
  have hcompleted : ∀ o, o ∈ s.results.map (·.1) ↔ s.ops[o]?.any Operation.completed = true := by
    intro o
    rw [← count_pos_iff, h.ledger o]
    split
    · rename_i hc
      simp [hc]
    · rename_i hc
      simp [hc]
  refine ⟨nodup_iff_count_le_one.2 fun o => ?_, fun o ho => ?_, fun o op hop => ?_⟩
  · rw [h.ledger o]
    split <;> omega
  · by_contra hlt
    rw [hcompleted, getElem?_eq_none (by omega)] at ho
    cases ho
  · cases hc : op.completed with
    | true =>
      refine .inl ((hcompleted o).2 ?_)
      rw [hop]
      exact hc
    | false => exact .inr ((h.waits o op hop hc).resolve_right nofun)

theorem not_calledOnce_of_cancelled (c : Config) (s : State) (e : Event) (h : Inv none s) (hnot : ¬ Spared s e) :
    ¬ CalledOnce (step c s e) := by
  cases e with
  | outcome o outcome =>
    unfold Spared at hnot
    push Not at hnot
    obtain ⟨hr, op, hop, hawaiting, hc⟩ := hnot
    have hop' : s.ops[o]? = some op := Option.mem_def.1 hop
    have hc' : op.completed = false := by simpa using hc
    have hstep : step c s (.outcome o outcome) = s.modifyOp o (fun op => { op with awaiting := none }) := by
      simp only [step, State.resume, hop']
      rw [if_neg (by simpa [Option.isSome_iff_ne_none] using hawaiting), if_neg (by simp [hc'])]
      unfold MemberOutcome.reportsCancelled at hr
      split
      · rename_i packet hresult
        rw [hresult] at hr
        cases hr
      · rename_i e hresult
        rw [hresult] at hr
        rw [if_pos (by simpa using hr)]
    rw [hstep]
    intro honce
    have hget : (s.modifyOp o (fun op => { op with awaiting := none })).ops[o]? =
      some { op with awaiting := none } := by
      rw [modifyOp_getElem?, if_pos rfl, hop']
      rfl
    rcases honce.pending o _ hget with hmem | hsome
    · have hcount := h.ledger o
      rw [hop', Option.any_some, hc'] at hcount
      exact absurd (count_pos_iff.2 hmem) (by show ¬ 0 < (s.results.map (·.1)).count o; rw [hcount]; decide)
    · cases hsome
  | exchange query deadline => exact absurd trivial hnot
  | cancel o => exact absurd trivial hnot
  | stop => exact absurd trivial hnot

theorem start_inv (c : Config) : Inv none (start c) := ⟨fun _ => by simp [start], nofun⟩

/-- **Each exchange's handler is called once in every run, exactly as long as no member reports
`cancelled` to an exchange that is not completed.** -/
theorem run_exchanges_once_iff (c : Config) (events : List Event) :
    (∀ pre, pre <+: events → CalledOnce (Runs.run (step c) (start c) pre)) ↔
      Runs.Along (step c) Spared (start c) events :=
  Runs.forall_prefix_iff_along (P := Inv none) (fun _ => calledOnce_of_inv) (step_inv c)
    (not_calledOnce_of_cancelled c) (start_inv c) events

/-- **A group of one member whose exchange reports `cancelled`**: nothing was cancelled outside, and the
exchange is never answered. -/
theorem member_cancels_exchange :
    ¬ ∀ pre, pre <+: [Event.exchange ⟨[], 0, 0, 0, [], [], []⟩ 1000,
      .outcome 0 (.error ⟨.cancelled, "dial cancelled"⟩)] →
      CalledOnce (Runs.run (step ⟨1, .sequential, fun n => n⟩) (start ⟨1, .sequential, fun n => n⟩) pre) := by
  intro h
  have hpending := (h _ (prefix_refl _)).pending 0
  have hop := hpending _ rfl
  revert hop
  decide

end ClashNative.Dns.UpstreamGroup
