import ClashNative.DnsQueryLedger
/-!
# DnsQueryOnce — every query is answered once

What keeps a live operation from being forgotten (`Pending`): its exchange runs, or its result is posted;
and once `stop()` has been dispatched, no operation is live after `stop_on_owner`.
-/
namespace ClashNative.Dns.QueryService

open List

variable (config : DnsResolverConfig) {hand : List (RequestId × UInt16)} {s s' s'' : State}

/-! ## What is pending -/

/-- **Every live operation has its result coming**, and none is live once a dispatched stop has run. -/
structure Pending (s : State) : Prop where
  live : ∀ o op, s.ops[o]? = some op → op.completed = false → op.running = true ∨ ∃ r, .finish o r ∈ s.tasks
  stop : s.stopCall = .dispatched → .stopOnOwner ∈ s.tasks ∨ ∀ op ∈ s.ops, op.completed = true

/-- **What the owner's functions do to operations and tasks**: tasks are added, operations complete, and
one that starts runs its exchange. -/
structure Later (s s' : State) : Prop where
  tasks : ∀ t ∈ s.tasks, t ∈ s'.tasks
  stopCall : s'.stopCall = s.stopCall
  ops : ∀ (o : OpId) (op' : Operation), s'.ops[o]? = some op' → op'.completed = false →
    (∃ op : Operation, s.ops[o]? = some op ∧ op.completed = false ∧ op.running = op'.running) ∨
      (op'.running = true ∧ s.stopped = false)

theorem Later.refl (s : State) : Later s s :=
  ⟨fun _ ht => ht, rfl, fun _ op hop hlive => .inl ⟨op, hop, hlive, rfl⟩⟩

theorem Later.trans (h : Later s s') (h' : Later s' s'') : Later s s'' := by
  refine ⟨fun t ht => h'.tasks t (h.tasks t ht), h'.stopCall.trans h.stopCall, fun o op'' hop'' hlive'' => ?_⟩
  rcases h'.ops o op'' hop'' hlive'' with ⟨op', hop', hlive', hrun'⟩ | ⟨hrun, hstop⟩
  · rcases h.ops o op' hop' hlive' with ⟨op, hop, hlive, hrun⟩ | ⟨hrun, hstop⟩
    · exact .inl ⟨op, hop, hlive, hrun.trans hrun'⟩
    · exact .inr ⟨hrun' ▸ hrun, hstop⟩
  · refine .inr ⟨hrun, ?_⟩
    unfold State.stopped at hstop ⊢
    rwa [h.stopCall] at hstop

theorem Pending.later (h : Pending s) (hl : Later s s') : Pending s' := by
  constructor
  · intro o op' hop' hlive'
    rcases hl.ops o op' hop' hlive' with ⟨op, hop, hlive, hrun⟩ | ⟨hrun, _⟩
    · rcases h.live o op hop hlive with hr | ⟨r, hr⟩
      · exact .inl (hrun ▸ hr)
      · exact .inr ⟨r, hl.tasks _ hr⟩
    · exact .inl hrun
  · intro hstop
    rw [hl.stopCall] at hstop
    rcases h.stop hstop with ht | hdone
    · exact .inl (hl.tasks _ ht)
    · refine .inr fun op' hop' => ?_
      obtain ⟨o, ho⟩ := mem_iff_getElem?.1 hop'
      cases hlive' : op'.completed with
      | true => rfl
      | false =>
        rcases hl.ops o op' ho hlive' with ⟨op, hop, hlive, _⟩ | ⟨_, hnot⟩
        · rw [hdone op (mem_of_getElem? hop)] at hlive
          cases hlive
        · simp [State.stopped, hstop] at hnot

theorem later_push (s : State) (ts : List Task) : Later s { s with tasks := s.tasks ++ ts } :=
  ⟨fun _ ht => mem_append_left _ ht, rfl, fun _ op hop hlive => .inl ⟨op, hop, hlive, rfl⟩⟩

variable {o : OpId}

theorem later_set {op op' : Operation} (hop : s.ops[o]? = some op)
    (hc : op'.completed = false → op.completed = false) (hr : op'.running = op.running)
    (hs : s'.ops = s.ops.set o op') (ht : s'.tasks = s.tasks) (hst : s'.stopCall = s.stopCall) : Later s s' := by
  refine ⟨fun t h => ht ▸ h, hst, fun o' op'' hop'' hlive => ?_⟩
  rw [hs] at hop''
  rcases Tally.getElem?_set_cases hop'' with ⟨rfl, rfl⟩ | ⟨_, hop''⟩
  · exact .inl ⟨op, hop, hc hlive, hr.symm⟩
  · exact .inl ⟨op'', hop'', hlive, rfl⟩

theorem finish_later (h : Inv hand s) (o : OpId) (result : Result) : Later s (finish config s o result) := by
  rcases finish_cases config h o result with ⟨heq, _⟩ | ⟨op, cache, lru, n, posted, hop, hlive, _, heq⟩
  · rw [heq]
    exact Later.refl s
  · rw [heq]
    refine ⟨fun t ht => mem_append_left _ ht, rfl, fun o' op' hop' hlive' => ?_⟩
    rcases Tally.getElem?_set_cases hop' with ⟨rfl, rfl⟩ | ⟨_, hop'⟩
    · cases hlive'
    · exact .inl ⟨op', hop', hlive', rfl⟩

theorem cancelOnOwner_later (h : Inv hand s) (id : RequestId) : Later s (cancelOnOwner config s id) := by
  unfold cancelOnOwner
  cases hreq : s.requests.lookup id with
  | none => exact Later.refl s
  | some o =>
    obtain ⟨op, hop, hlive, _⟩ := (h.requests_iff _ _).1 hreq
    dsimp only
    rw [hop]
    dsimp only
    cases hw : op.waiters.find? (fun w => w.id == id) with
    | none => exact ⟨fun _ ht => ht, rfl, fun _ op hop hlive => .inl ⟨op, hop, hlive, rfl⟩⟩
    | some w =>
      have hpost := (h.leave hop hreq hw).post (a := .error cancelledError) (fun p hp => by cases hp)
      have hset : Later s { s with
          requests := s.requests.erase id,
          ops := s.ops.set o { op with waiters := op.waiters.eraseP (fun w => w.id == id) } } := by
        refine later_set hop ?_ ?_ rfl rfl rfl
        · exact fun hc => hc
        · rfl
      have hlater := hset.trans (later_push _ [.deliver id (.error cancelledError)])
      dsimp only
      split
      · exact hlater.trans (finish_later config hpost o _)
      · exact hlater

theorem lookupOrStart_later (hstop : s.stopped = false) (id : RequestId) (packet : DnsPacket)
    (upstream : List UInt8)
    (key : Key) : Later s (lookupOrStart s id packet upstream key) := by
  have hrest : ∀ s', s'.stopped = false → Later s' (joinOrStart s' id packet upstream key) := by
    intro s' hs'
    unfold joinOrStart
    split
    · split
      · exact Later.refl s'
      · rename_i hop
        refine later_set hop ?_ ?_ rfl rfl rfl
        · exact fun hc => hc
        · rfl
    · refine ⟨fun _ ht => ht, rfl, fun o op' hop' hlive' => ?_⟩
      rcases Tally.getElem?_concat_cases hop' with hop' | ⟨_, rfl⟩
      · exact .inl ⟨op', hop', hlive', rfl⟩
      · exact .inr ⟨rfl, hs'⟩
  unfold lookupOrStart
  cases hcache : s.cache.lookup key with
  | none => exact hrest s hstop
  | some entry =>
    dsimp only
    by_cases hexp : entry.expires > s.now
    · rw [if_pos hexp]
      exact ⟨fun _ ht => mem_append_left _ ht, rfl, fun _ op hop hlive => .inl ⟨op, hop, hlive, rfl⟩⟩
    · rw [if_neg hexp]
      have hdrop : Later s (dropEntry s key entry) :=
        ⟨fun _ ht => ht, rfl, fun _ op hop hlive => .inl ⟨op, hop, hlive, rfl⟩⟩
      exact hdrop.trans (hrest (dropEntry s key entry) hstop)

theorem queryOnOwner_later (id : RequestId) (packet : DnsPacket) :
    Later s (queryOnOwner config s id packet) := by
  unfold queryOnOwner
  split
  · exact later_push s _
  · rename_i hstop
    split
    · split
      · exact later_push s _
      · dsimp only
        split
        · exact later_push s _
        · exact lookupOrStart_later (by simpa using hstop) id _ _ _
    · exact later_push s _

variable {i : Nat}

theorem Pending.pop (h : Pending s) {t : Task} (hi : s.tasks[i]? = some t) (hf : ∀ o r, t ≠ .finish o r)
    (hs : t ≠ .stopOnOwner) : Pending { s with tasks := s.tasks.eraseIdx i } := by
  constructor
  · intro o op hop hlive
    rcases h.live o op hop hlive with hr | ⟨r, hr⟩
    · exact .inl hr
    · rcases Tally.mem_or_mem_eraseIdx hi hr with heq | hr
      · exact absurd heq.symm (hf o r)
      · exact .inr ⟨r, hr⟩
  · intro hstop
    rcases h.stop hstop with ht | hdone
    · rcases Tally.mem_or_mem_eraseIdx hi ht with heq | ht
      · exact absurd heq.symm hs
      · exact .inl ht
    · exact .inr hdone

theorem Pending.popFinish (h : Pending s) (hinv : Inv hand s) {result : Result}
    (hi : s.tasks[i]? = some (.finish o result)) :
    Pending (finish config { s with tasks := s.tasks.eraseIdx i } o result) := by
  have hpop : Inv hand { s with tasks := s.tasks.eraseIdx i } := hinv.pop hi fun _ => rfl
  have hlater := finish_later config hpop o result
  have hgone : ∀ op, (finish config { s with tasks := s.tasks.eraseIdx i } o result).ops[o]? = some op →
      op.completed = true := by
    intro op hop
    rcases finish_cases config hpop o result with ⟨heq, hdone⟩ | ⟨op', _, _, _, _, hop', _, _, heq⟩
    · rw [heq] at hop
      exact hdone op hop
    · rw [heq] at hop
      rcases Tally.getElem?_set_cases hop with ⟨_, rfl⟩ | ⟨hne, _⟩
      · rfl
      · exact absurd rfl hne
  have hkeep : ∀ t ∈ s.tasks, (∀ r, t ≠ .finish o r) →
      t ∈ (finish config { s with tasks := s.tasks.eraseIdx i } o result).tasks := by
    intro t ht hne
    rcases Tally.mem_or_mem_eraseIdx hi ht with heq | ht
    · exact absurd heq (hne result)
    · exact hlater.tasks t ht
  constructor
  · intro o' op' hop' hlive'
    have hne : o' ≠ o := by
      rintro rfl
      rw [hgone op' hop'] at hlive'
      cases hlive'
    rcases hlater.ops o' op' hop' hlive' with ⟨op, hop, hlive, hrun⟩ | ⟨hrun, _⟩
    · rcases h.live o' op hop hlive with hr | ⟨r, hr⟩
      · exact .inl (hrun ▸ hr)
      · exact .inr ⟨r, hkeep _ hr fun r' heq => hne (Task.finish.inj heq).1⟩
    · exact .inl hrun
  · intro hstop
    rw [hlater.stopCall] at hstop
    rcases h.stop hstop with ht | hdone
    · exact .inl (hkeep _ ht fun r heq => by cases heq)
    · refine .inr fun op' hop' => ?_
      obtain ⟨o', ho'⟩ := mem_iff_getElem?.1 hop'
      cases hlive' : op'.completed with
      | true => rfl
      | false =>
        rcases hlater.ops o' op' ho' hlive' with ⟨op, hop, hlive, _⟩ | ⟨_, hnot⟩
        · rw [hdone op (mem_of_getElem? hop)] at hlive
          cases hlive
        · rw [State.stopped, show ({ s with tasks := s.tasks.eraseIdx i } : State).stopCall =
            .dispatched from hstop] at hnot
          cases hnot

theorem Pending.ofStopped (h : Inv hand s) : Pending (stopOnOwner config s) := by
  have hdone := (stopOnOwner_inv config h).2
  refine ⟨fun o op hop hlive => ?_, fun _ => .inr hdone⟩
  rw [hdone op (mem_of_getElem? hop)] at hlive
  cases hlive

theorem step_pending (s : State) (e : Event) (hinv : Inv [] s) (h : Pending s) : Pending (step config s e) := by
  cases e with
  | query packet running =>
    have hsub : Pending { s with
        nextRequestId := s.nextRequestId + 1, submitted := s.submitted ++ [(s.nextRequestId, packet)] } :=
      ⟨h.live, h.stop⟩
    unfold step
    dsimp only
    split
    · exact hsub.later (later_push _ _)
    · exact hsub.later (queryOnOwner_later config _ _)
  | cancel id running =>
    unfold step
    dsimp only
    split
    · exact h.later (later_push _ _)
    · exact h.later (cancelOnOwner_later config hinv id)
  | stop =>
    unfold step
    dsimp only
    split
    · exact h
    · exact ⟨h.live, fun hd => by cases hd⟩
  | closeGate running =>
    unfold step
    dsimp only
    split
    · split
      · exact ⟨fun o op hop hlive => (h.live o op hop hlive).imp_right fun ⟨r, hr⟩ => ⟨r, mem_append_left _ hr⟩,
          fun _ => .inl (mem_append_right _ mem_cons_self)⟩
      · exact Pending.ofStopped config (hinv.flags_irrelevant .dispatched s.now)
    · exact h
  | clearCache running =>
    unfold step
    dsimp only
    split
    · exact h.later (later_push _ _)
    · exact ⟨h.live, h.stop⟩
  | exchangeDone o result =>
    unfold step
    dsimp only
    split
    · rename_i op hop
      split
      · constructor
        · intro o' op' hop' hlive'
          rcases Tally.getElem?_set_cases hop' with ⟨rfl, _⟩ | ⟨_, hop'⟩
          · exact .inr ⟨result, mem_append_right _ mem_cons_self⟩
          · exact (h.live o' op' hop' hlive').imp_right fun ⟨r, hr⟩ => ⟨r, mem_append_left _ hr⟩
        · intro hstop
          rcases h.stop hstop with ht | hdone
          · exact .inl (mem_append_left _ ht)
          · refine .inr fun op' hop' => ?_
            rcases mem_or_eq_of_mem_set hop' with hop' | rfl
            · exact hdone op' hop'
            · exact hdone op (mem_of_getElem? hop)
      · exact h
    · exact h
  | runTask i =>
    unfold step
    dsimp only
    cases hi : s.tasks[i]? with
    | none => exact h
    | some t =>
      cases t with
      | query id packet =>
        have hp := h.pop hi (fun o r heq => by cases heq) (fun heq => by cases heq)
        unfold runTask
        dsimp only
        split
        · exact hp.later (queryOnOwner_later config _ _)
        · exact hp.later (later_push _ _)
      | cancel id =>
        have hp := h.pop hi (fun o r heq => by cases heq) (fun heq => by cases heq)
        unfold runTask
        dsimp only
        split
        · exact hp.later (cancelOnOwner_later config (hinv.pop hi fun _ => rfl) id)
        · exact hp
      | finish o result => exact h.popFinish config hinv hi
      | deliver id result =>
        have hp := h.pop hi (fun o r heq => by cases heq) (fun heq => by cases heq)
        exact ⟨hp.live, hp.stop⟩
      | stopOnOwner => exact Pending.ofStopped config (hinv.pop hi fun _ => rfl)
      | clearCache =>
        have hp := h.pop hi (fun o r heq => by cases heq) (fun heq => by cases heq)
        unfold runTask
        dsimp only
        split
        · exact ⟨hp.live, hp.stop⟩
        · exact hp
  | tick elapsed => exact ⟨h.live, h.stop⟩

/-! ## The contract -/

/-- How often the handler of query `id` has been invoked. -/
def handlerCalls (s : State) (id : RequestId) : Nat := (s.delivered.map (·.1)).count id

def Live (s : State) (o : OpId) (op : Operation) : Prop := s.ops[o]? = some op ∧ op.completed = false

/-- **Nothing is left to happen**: every posted task has run and, unless the service has been stopped, no
exchange is still running. -/
def Settled (s : State) : Prop :=
  s.tasks = [] ∧ (s.stopCall = .dispatched ∨ ∀ op ∈ s.ops, op.running = false)

structure Contract (s : State) : Prop where
  /-- a submitted query is held in one place, so its handler has been invoked at most once -/
  once : ∀ q ∈ s.submitted, held s q.1 = 1
  /-- and exactly once when nothing is left to happen -/
  answered : Settled s → ∀ q ∈ s.submitted, handlerCalls s q.1 = 1
  /-- no handler is invoked for a query that was not submitted -/
  unasked : ∀ id, id ∉ s.submitted.map (·.1) → handlerCalls s id = 0
  one_operation : ∀ o₁ o₂ op₁ op₂, Live s o₁ op₁ → Live s o₂ op₂ → op₁.key = op₂.key → o₁ = o₂
  in_flight : ∀ k o, s.inFlight.lookup k = some o ↔ ∃ op, Live s o op ∧ op.key = k
  requests : ∀ id o, s.requests.lookup id = some o ↔ ∃ op, Live s o op ∧ id ∈ op.waiters.map (·.id)
  waiters_nodup : ∀ op ∈ s.ops, (op.waiters.map (·.id)).Nodup
  own_id : ∀ id packet, (id, .ok packet) ∈ s.delivered → ∃ q, (id, q) ∈ s.submitted ∧ Carries packet q.id

theorem contract_of_inv (h : Inv [] s) (hp : Pending s) : Contract s where
  once q hq := by
    have := h.ledger q.1
    rw [count_eq_one_of_mem h.submitted_nodup (mem_map_of_mem hq)] at this
    simpa using this
  answered hset q hq := by
    have hled := h.ledger q.1
    rw [count_eq_one_of_mem h.submitted_nodup (mem_map_of_mem hq)] at hled
    have hdone : ∀ op ∈ s.ops, op.completed = true := by
      intro op hop
      cases hlive : op.completed with
      | true => rfl
      | false =>
        obtain ⟨o, ho⟩ := mem_iff_getElem?.1 hop
        rcases hset.2 with hstop | hrun
        · rcases hp.stop hstop with ht | hdone
          · rw [hset.1] at ht
            cases ht
          · rw [hdone op hop] at hlive
            cases hlive
        · rcases hp.live o op ho hlive with hr | ⟨r, hr⟩
          · rw [hrun op hop] at hr
            cases hr
          · rw [hset.1] at hr
            cases hr
    have hzero : (s.ops.map (Operation.waits q.1)).sum = 0 := by
      rw [List.sum_eq_zero_iff_forall_eq_nat]
      intro n hn
      obtain ⟨op, hop, rfl⟩ := mem_map.1 hn
      unfold Operation.waits
      rw [h.completed_empty op hop (hdone op hop)]
      rfl
    unfold held at hled
    rw [hset.1, hzero] at hled
    simpa [handlerCalls] using hled
  unasked id hid := by
    have hled := h.ledger id
    rw [count_eq_zero.2 hid] at hled
    unfold held at hled
    unfold handlerCalls
    omega
  one_operation o₁ o₂ op₁ op₂ h₁ h₂ hkey := by
    have hk₁ := (h.inFlight_iff op₁.key o₁).2 ⟨op₁, h₁.1, h₁.2, rfl⟩
    have hk₂ := (h.inFlight_iff op₁.key o₂).2 ⟨op₂, h₂.1, h₂.2, hkey.symm⟩
    rw [hk₁] at hk₂
    exact Option.some.inj hk₂
  in_flight k o := by
    rw [h.inFlight_iff]
    simp only [Live, and_assoc]
  requests id o := by
    rw [h.requests_iff]
    simp only [Live, and_assoc]
  waiters_nodup _ hop := h.waiters_nodup hop
  own_id id packet hd := by
    obtain ⟨rid, ⟨q, hq, rfl⟩, hc⟩ := h.delivered_own (id, .ok packet) hd packet rfl
    exact ⟨q, hq, hc⟩

/-- **Every run of the service meets its contract.** -/
theorem run_query_contract (l : List Event) : Contract (Runs.run (step config) {} l) := by
  have hrun := Runs.run_induction (P := fun s => Inv [] s ∧ Pending s)
    (fun s e h => ⟨step_inv config s e h.1, step_pending config s e h.1 h.2⟩) l {}
    ⟨inv_init, ⟨fun o op hop => by simp at hop, fun hd => by cases hd⟩⟩
  exact contract_of_inv hrun.1 hrun.2

end ClashNative.Dns.QueryService
