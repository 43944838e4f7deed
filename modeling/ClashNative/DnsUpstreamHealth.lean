import ClashNative.DnsUpstreamOnce
/-!
# DnsUpstreamHealth — failures are recorded for the members that failed

The books of a run: which members were attempted for which exchange, and which of these attempts failed or
succeeded.  The members' health is what the books say, unless the deadline has passed when the loop looks
at the clock: then it records a failure without an attempt.
-/
namespace ClashNative.Dns.UpstreamGroup

open List

/-- Whether an attempt failed, or succeeded; a cancelled one did neither. -/
def MemberOutcome.failed (outcome : MemberOutcome) : Option Bool :=
  match outcome.result with
  | .ok packet => some (shouldRetryResponse packet)
  | .error e => if e.code = .cancelled then none else some true

/-- The attempts of a run, by exchange and member, and those that failed or succeeded. -/
structure Books where
  attempts : List (Nat × Nat) := []
  ended : List ((Nat × Nat) × Bool) := []

/-- The attempt that an event begins: the exchange that it is about waits for a member behind it. -/
def begun (s' : State) (o : Nat) : List (Nat × Nat) :=
  match s'.ops[o]?.bind Operation.awaiting with
  | none => []
  | some request => [(o, request.index)]

/-- The attempt that an event ends, of an exchange that is not completed. -/
def ending (s : State) (o : Nat) (outcome : MemberOutcome) : List ((Nat × Nat) × Bool) :=
  match s.ops[o]?.filter (fun op => !op.completed) |>.bind Operation.awaiting, outcome.failed with
  | some request, some failed => [((o, request.index), failed)]
  | _, _ => []

def Books.observe (b : Books) (s s' : State) : Event → Books
  | .exchange _ _ => { b with attempts := b.attempts ++ begun s' s.ops.length }
  | .outcome o outcome => ⟨b.attempts ++ begun s' o, b.ended ++ ending s o outcome⟩
  | _ => b

def observe (c : Config) (sb : State × Books) (e : Event) : State × Books :=
  (step c sb.1 e, sb.2.observe sb.1 (step c sb.1 e) e)

def MemberHealth.failure (health : MemberHealth) (now : Int) : MemberHealth :=
  ⟨min (health.consecutiveFailures + 1) 8,
    now + min kHealthBackoffMaximum (kHealthBackoffBase * 2 ^ (min (health.consecutiveFailures + 1) 8 - 1))⟩

/-- **Health by the books**: each failed attempt is recorded once, at some time, and each that succeeded
clears its member's failures. -/
inductive Recorded (first : List MemberHealth) : List ((Nat × Nat) × Bool) → List MemberHealth → Prop
  | nil : Recorded first [] first
  | failure {ended : List ((Nat × Nat) × Bool)} {health : List MemberHealth} (o i : Nat) (now : Int) :
    Recorded first ended health →
      Recorded first (ended ++ [((o, i), true)]) (health.set i ((health.getD i {}).failure now))
  | success {ended : List ((Nat × Nat) × Bool)} {health : List MemberHealth} (o i : Nat) :
    Recorded first ended health →
      Recorded first (ended ++ [((o, i), false)]) (health.set i {})

/-- **The health accounts are right**: no member is attempted twice for an exchange, an attempt ends once,
and health is by these books. -/
structure Accounted (c : Config) (s : State) (b : Books) : Prop where
  once : b.attempts.Nodup
  ends : (b.ended.map Prod.fst).Nodup
  made : b.ended.map Prod.fst ⊆ b.attempts
  health : Recorded (List.replicate c.members {}) b.ended s.memberHealth

/-- **The loop meets its deadline at its end only**: it has not passed when an exchange starts, nor does
it pass between the two looks at the clock behind a failed attempt. -/
def Punctual (c : Config) (s : State) : Event → Prop
  | .exchange _ deadline => s.stopped = false → c.members ≠ 0 → c.clock s.clockReads < deadline
  | .outcome o outcome => ∀ op ∈ s.ops[o]?, op.completed = false → op.awaiting.isSome = true →
      outcome.failed = some true →
      (∀ packet, outcome = .response packet → op.attempted.any (!·) = true) →
      c.clock (s.clockReads + 1) < op.deadline →
        c.clock (s.clockReads + 2) < op.deadline
  | _ => True

/-! ## What a step leaves of an exchange -/

def State.view (s : State) (o : Nat) : Option (List Bool × Nat × Option MemberRequest) :=
  (s.ops[o]?).map fun op => (op.attempted, op.currentIndex, op.awaiting)

section Moves

variable {c : Config} {s : State} {s' : State}

theorem view_congr (h : s'.ops = s.ops) : s'.view = s.view := by
  funext o
  rw [State.view, State.view, h]

theorem view_modifyOp (s : State) (o : Nat) (f : Operation → Operation)
    (hf : ∀ op, ((f op).attempted, (f op).currentIndex, (f op).awaiting) =
      (op.attempted, op.currentIndex, op.awaiting)) :
    (s.modifyOp o f).view = s.view := by
  funext i
  rw [State.view, State.view, modifyOp_getElem?]
  split
  · rw [Option.map_map]
    exact Option.map_congr fun op _ => hf op
  · rfl

variable {op : Operation} {o : Nat}

theorem view_modifyOp_at (hop : s.ops[o]? = some op) (f : Operation → Operation) :
    (s.modifyOp o f).view = Function.update s.view o (some ((f op).attempted, (f op).currentIndex,
      (f op).awaiting)) := by
  funext i
  rw [Function.update_apply, State.view, modifyOp_getElem?]
  split
  · rename_i hi
    rw [hi, hop]
    rfl
  · rfl

theorem finish_view (s : State) (o : Nat) (result : Result) : (s.finish o result).view = s.view ∧
    (s.finish o result).memberHealth = s.memberHealth := by
  unfold State.finish
  split
  · exact ⟨rfl, rfl⟩
  · split
    · exact ⟨rfl, rfl⟩
    · exact ⟨view_modifyOp s o _ fun _ => rfl, rfl⟩

theorem recordFailure_spec (c : Config) {i : Nat} {e : Error} (hi : i < s.memberHealth.length)
    (he : e.code ≠ .cancelled) :
    (s.recordFailure c i e).memberHealth = s.memberHealth.set i
    ((s.memberHealth.getD i {}).failure (c.clock s.clockReads)) ∧
      (s.recordFailure c i e).clockReads = s.clockReads + 1 := by
  unfold State.recordFailure
  rw [if_neg (fun h => h.elim (Nat.not_le.2 hi) he)]
  exact ⟨rfl, rfl⟩

theorem nextStartIndex_same (c : Config) (s : State) :
    (s.nextStartIndex c).2.memberHealth = s.memberHealth ∧ (s.nextStartIndex c).2.clockReads = s.clockReads := by
  unfold State.nextStartIndex
  split <;> exact ⟨rfl, rfl⟩

theorem selectMember_health (c : Config) (s : State) (start : Nat) (attempted : List Bool) :
    (s.selectMember c start attempted).2.memberHealth = s.memberHealth := by
  unfold State.selectMember
  split
  · rfl
  · dsimp only
    split <;> rfl

theorem selectMember_some {start : Nat} {attempted : List Bool} {i : Nat}
    (h : s.selectMember c start attempted = (some i, s')) :
    i < c.members ∧ attempted.getD i true = false := by
  unfold State.selectMember at h
  split at h
  · cases h
  · rename_i hmembers
    have horder : ∀ j ∈ (List.range c.members).map fun offset =>
      (start % c.members + offset) % c.members, j < c.members := by
      intro j hj
      obtain ⟨offset, -, rfl⟩ := mem_map.1 hj
      exact Nat.mod_lt _ (Nat.pos_of_ne_zero hmembers)
    dsimp only at h
    split at h
    · rename_i j hj
      cases h
      have hnot := find?_some hj
      rw [Bool.and_eq_true, Bool.not_eq_true'] at hnot
      exact ⟨horder _ (mem_of_find?_eq_some hj), hnot.1⟩
    · rw [Prod.mk.injEq] at h
      obtain ⟨hj, rfl⟩ := h
      have hnot := find?_some hj
      rw [Bool.not_eq_true'] at hnot
      exact ⟨horder _ (mem_of_find?_eq_some hj), hnot⟩

/-- **The loop goes on**: it ends, or attempts a member that was not attempted. -/
def Goes (c : Config) (s s' : State) (o : Nat) (attempted : List Bool) : Prop :=
  s'.memberHealth = s.memberHealth ∧
  (s'.view = s.view ∨ ∃ request : MemberRequest, request.index < c.members ∧
    attempted.getD request.index true = false ∧
    s'.view = Function.update s.view o (some (attempted.set request.index true, request.index, some request)))

theorem advance_goes (hop : s.ops[o]? = some op) (htime : c.clock s.clockReads < op.deadline) (index : Nat) :
    Goes c s (s.advance c o index) o op.attempted := by
  unfold State.advance
  rw [hop]
  dsimp only
  split
  · exact ⟨rfl, .inl rfl⟩
  · split
    · rename_i hle
      exact absurd htime (Int.not_lt.2 hle)
    · obtain ⟨hops, -⟩ := selectMember_frame c (s.now c).2 index op.attempted
      have hhealth := selectMember_health c (s.now c).2 index op.attempted
      split
      · rename_i s' hsel
        rw [hsel] at hops hhealth
        obtain ⟨hview, hsame⟩ := finish_view s' o (.error (op.lastError.getD noAvailable))
        exact ⟨hsame.trans hhealth, .inl (hview.trans (view_congr hops))⟩
      · rename_i i s' hsel
        obtain ⟨hi, hnot⟩ := selectMember_some hsel
        rw [hsel] at hops hhealth
        have hop' : ((s'.now c).2).ops[o]? = some op := by rw [State.now, hops]; exact hop
        refine ⟨hhealth, .inr ⟨⟨i, op.query, ?_⟩, hi, hnot, (view_modifyOp_at hop' _).trans ?_⟩⟩
        rotate_left 1
        rw [view_congr (show ((s'.now c).2).ops = s.ops from hops)]

end Moves

/-! ## The books -/

/-- **What the books know**: an attempted member is marked, and the attempt that is waited for has not
ended. -/
structure Kept (c : Config) (s : State) (b : Books) : Prop where
  accounted : Accounted c s b
  attempted : ∀ o i, (o, i) ∈ b.attempts ↔ ∃ v, s.view o = some v ∧ v.1.getD i false = true
  awaited : ∀ o v request, s.view o = some v → v.2.2 = some request → request.index = v.2.1 ∧
    request.index < c.members ∧
    (o, request.index) ∈ b.attempts ∧ (o, request.index) ∉ b.ended.map Prod.fst

section Keeping

variable {c : Config} {s s' : State} {b : Books} {ended : List ((Nat × Nat) × Bool)} {health : List MemberHealth}

theorem Recorded.length {first : List MemberHealth} (h : Recorded first ended health) :
    health.length = first.length := by
  induction h with
  | nil => rfl
  | failure _ _ _ _ ih => rw [length_set, ih]
  | success _ _ _ ih => rw [length_set, ih]

theorem Recorded.failures_le {members : Nat}
    (h : Recorded (List.replicate members {}) ended health) (i : Nat) :
    (health.getD i {}).consecutiveFailures ≤ ended.length := by
  induction h with
  | nil =>
    rw [getD_eq_getElem?_getD, getElem?_replicate]
    split <;> exact Nat.le_refl 0
  | failure o j now _ ih =>
    rw [length_append, length_singleton, getD_eq_getElem?_getD, getElem?_set]
    rw [getD_eq_getElem?_getD] at ih
    split
    · rename_i hj
      rw [← hj] at ih
      split
      · rw [Option.getD_some, MemberHealth.failure, getD_eq_getElem?_getD]
        exact Nat.le_trans (Nat.min_le_left _ _) (Nat.succ_le_succ ih)
      · exact Nat.zero_le _
    · exact Nat.le_succ_of_le ih
  | success o j _ ih =>
    rw [length_append, length_singleton, getD_eq_getElem?_getD, getElem?_set]
    rw [getD_eq_getElem?_getD] at ih
    split
    · split <;> exact Nat.zero_le _
    · exact Nat.le_succ_of_le ih

theorem Kept.same (h : Kept c s b) (hview : s'.view = s.view) (hhealth : s'.memberHealth = s.memberHealth) :
    Kept c s' b :=
  ⟨⟨h.accounted.once, h.accounted.ends, h.accounted.made, by rw [hhealth]; exact h.accounted.health⟩,
    by rw [hview]; exact h.attempted, by rw [hview]; exact h.awaited⟩

theorem begun_view (s : State) (o : Nat) : begun s o = match (s.view o).bind (·.2.2) with
    | none => []
    | some request => [(o, request.index)] := by
  unfold begun State.view
  cases s.ops[o]? <;> rfl

variable {attempted : List Bool} {o k : Nat}

theorem Kept.idle (h : Kept c s b) (hview : s'.view = Function.update s.view o (some (attempted, k, none)))
    (hattempted : ∀ i, (o, i) ∈ b.attempts ↔ attempted.getD i false = true)
    (haccounted : Accounted c s' ⟨b.attempts, ended⟩)
    (hended : ∀ key ∈ ended.map Prod.fst, key ∈ b.ended.map Prod.fst ∨ key.1 = o) :
    Kept c s' ⟨b.attempts, ended⟩ := by
  refine ⟨haccounted, fun p i => ?_, fun p v request hv hrequest => ?_⟩
  · rw [hview, Function.update_apply]
    split
    · rename_i hp
      rw [hp, hattempted]
      simp
    · exact h.attempted p i
  · rw [hview, Function.update_apply] at hv
    split at hv
    · cases hv
      cases hrequest
    · rename_i hp
      obtain ⟨hindex, hlt, hmem, hnot⟩ := h.awaited p v request hv hrequest
      exact ⟨hindex, hlt, hmem, fun hin => (hended _ hin).elim hnot hp⟩

theorem Kept.goes (h : Kept c s b) (ho : s.view o = some (attempted, k, none))
    (hgoes : Goes c s s' o attempted) : Kept c s' { b with attempts := b.attempts ++ begun s' o } := by
  obtain ⟨hhealth, hview | ⟨request, hi, hnot, hview⟩⟩ := hgoes
  · have hbegun : begun s' o = [] := by rw [begun_view, hview, ho]; rfl
    rw [hbegun, append_nil]
    exact h.same hview hhealth
  · have hbegun : begun s' o = [(o, request.index)] := by rw [begun_view, hview, Function.update_self]; rfl
    have hlength : request.index < attempted.length := by
      by_contra hge
      rw [getD_eq_getElem?_getD, getElem?_eq_none (Nat.not_lt.1 hge)] at hnot
      cases hnot
    have hnew : (o, request.index) ∉ b.attempts := by
      rw [h.attempted, ho]
      rintro ⟨v, hv, htrue⟩
      cases hv
      rw [getD_eq_getElem?_getD, getElem?_eq_getElem hlength, Option.getD_some] at hnot htrue
      rw [hnot] at htrue
      cases htrue
    have hmarks : ∀ i, (attempted.set request.index true).getD i false = true ↔ i = request.index ∨
      attempted.getD i false = true := by
      intro i
      rw [getD_eq_getElem?_getD, getElem?_set, getD_eq_getElem?_getD]
      by_cases hir : request.index = i
      · simp [hir, hir ▸ hlength]
      · simp [hir, Ne.symm hir]
    rw [hbegun]
    refine ⟨⟨?_, h.accounted.ends, fun key hkey => mem_append_left _
      (h.accounted.made hkey), by rw [hhealth]; exact h.accounted.health⟩,
      fun p i => ?_, fun p v r hv hr => ?_⟩
    · exact nodup_append.2 ⟨h.accounted.once, nodup_singleton _,
        fun x hx y hy hxy => hnew (mem_singleton.1 hy ▸ hxy ▸ hx)⟩
    · rw [mem_append, mem_singleton, h.attempted, hview, Function.update_apply, Prod.mk.injEq]
      split
      · rename_i hp
        simp only [hp, ho, Option.some.injEq, exists_eq_left', hmarks, true_and]
        exact or_comm
      · rename_i hp
        simp [hp]
    · rw [hview, Function.update_apply] at hv
      split at hv
      · rename_i hp
        cases hv
        cases hr
        rw [hp]
        exact ⟨rfl, hi, mem_append_right _ (mem_singleton_self _), fun hin => hnew (h.accounted.made hin)⟩
      · obtain ⟨hindex, hlt, hmem, hended⟩ := h.awaited p v r hv hr
        exact ⟨hindex, hlt, mem_append_left _ hmem, hended⟩

theorem Kept.ends (h : Kept c s b) {request : MemberRequest}
    (ho : s.view o = some (attempted, k, some request))
    (hview : s'.view = Function.update s.view o (some (attempted, k, none)))
    (hkeys : ended.map Prod.fst = [] ∨ ended.map Prod.fst = [(o, request.index)])
    (hhealth : Recorded (List.replicate c.members {}) (b.ended ++ ended) s'.memberHealth) : Kept c s'
    { b with ended := b.ended ++ ended } := by
  obtain ⟨-, -, hmem, hnot⟩ := h.awaited o _ request ho rfl
  refine h.idle hview (fun i => ?_) ⟨h.accounted.once, ?_, ?_, hhealth⟩ fun key hkey => ?_
  · rw [h.attempted, ho]
    simp
  · rw [map_append]
    rcases hkeys with hkeys | hkeys <;> rw [hkeys]
    · rw [append_nil]
      exact h.accounted.ends
    · exact nodup_append.2 ⟨h.accounted.ends, nodup_singleton _,
        fun x hx y hy hxy => hnot (mem_singleton.1 hy ▸ hxy ▸ hx)⟩
  · rw [map_append]
    refine fun key hkey => (mem_append.1 hkey).elim (fun hold => h.accounted.made hold) fun hnew => ?_
    rcases hkeys with hkeys | hkeys <;> rw [hkeys] at hnew
    · cases hnew
    · exact mem_singleton.1 hnew ▸ hmem
  · rw [map_append] at hkey
    refine (mem_append.1 hkey).imp_right fun hnew => ?_
    rcases hkeys with hkeys | hkeys <;> rw [hkeys] at hnew
    · cases hnew
    · rw [mem_singleton.1 hnew]

end Keeping

/-! ## Steps and runs -/

section Steps

variable {c : Config} {s : State} {b : Books} {o : Nat} {attempted : List Bool} {k : Nat}

theorem begun_idle (h : s.view o = some (attempted, k, none)) : begun s o = [] := by
  rw [begun_view, h]
  rfl

variable {op : Operation}

theorem Kept.advance (h : Kept c s b) (hop : s.ops[o]? = some op) (hawaiting : op.awaiting = none)
    (htime : c.clock s.clockReads < op.deadline) (index : Nat) :
    Kept c (s.advance c o index) { b with attempts := b.attempts ++ begun (s.advance c o index) o } := by
  have hview : s.view o = some (op.attempted, op.currentIndex, none) := by rw [State.view, hop, ← hawaiting]; rfl
  exact h.goes hview (advance_goes hop htime index)

theorem Kept.finish (h : Kept c s b) (hview : s.view o = some (attempted, k, none)) (result : Result) :
    Kept c (s.finish o result) { b with attempts := b.attempts ++ begun (s.finish o result) o } := by
  obtain ⟨hsame, hhealth⟩ := finish_view s o result
  rw [begun_idle (by rw [hsame, hview]), append_nil]
  exact h.same hsame hhealth

theorem Kept.push (h : Kept c s b) (hop : op.awaiting = none)
    (hall : ∀ i, op.attempted.getD i false = false) {s' : State}
    (hops : s'.ops = s.ops ++ [op]) (hhealth : s'.memberHealth = s.memberHealth) : Kept c s' b := by
  have hfresh : s.view s.ops.length = none := by rw [State.view, getElem?_eq_none (Nat.le_refl _)]; rfl
  have hview : s'.view = Function.update s.view s.ops.length (some (op.attempted, op.currentIndex, none)) := by
    funext o
    rw [Function.update_apply, State.view, State.view, hops]
    split
    · rename_i ho
      rw [ho, getElem?_concat_length, ← hop]
      rfl
    · rename_i ho
      rcases Nat.lt_or_ge o s.ops.length with hlt | hge
      · rw [getElem?_append_left hlt]
      · rw [getElem?_eq_none hge, getElem?_eq_none (by rw [length_append, length_singleton]; omega)]
  refine h.idle hview (fun i => ?_) ⟨h.accounted.once, h.accounted.ends,
    h.accounted.made, by rw [hhealth]; exact h.accounted.health⟩
    fun key hkey => .inl hkey
  rw [h.attempted, hfresh, hall]
  simp

theorem startOp_kept (h : Kept c s b) (hop : s.ops[o]? = some op) (hawaiting : op.awaiting = none)
    (hnone : ∀ i, (o, i) ∉ b.attempts) (htime : c.members ≠ 0 → c.clock s.clockReads < op.deadline) :
    Kept c (s.startOp c o) { b with attempts := b.attempts ++ begun (s.startOp c o) o } := by
  have hview : s.view o = some (op.attempted, op.currentIndex, none) := by rw [State.view, hop, ← hawaiting]; rfl
  unfold State.startOp
  split
  · exact h.finish hview _
  · rename_i hmembers
    generalize hmarked : s.modifyOp o (fun op => { op with attempted := List.replicate c.members false }) = s'
    have hop' : s'.ops[o]? = some { op with attempted := List.replicate c.members false } := by
      rw [← hmarked, modifyOp_getElem?, if_pos rfl, hop]
      rfl
    have hview' : s'.view = Function.update s.view o
      (some (List.replicate c.members false, op.currentIndex, none)) := by
      rw [← hmarked, view_modifyOp_at hop, hawaiting]
    have hhealth : s'.memberHealth = s.memberHealth := by rw [← hmarked]; rfl
    have hkept : Kept c s' b := by
      refine h.idle hview' (fun i => iff_of_false (hnone i) ?_)
        ⟨h.accounted.once, h.accounted.ends, h.accounted.made, by rw [hhealth]; exact h.accounted.health⟩
        fun key hkey => .inl hkey
      rw [getD_eq_getElem?_getD, getElem?_replicate]
      split <;> exact Bool.false_ne_true
    have hclock : s'.clockReads = s.clockReads := by rw [← hmarked]; rfl
    obtain ⟨hops, -⟩ := nextStartIndex_frame c s'
    obtain ⟨hsame, hreads⟩ := nextStartIndex_same c s'
    rw [← hops] at hop'
    exact (hkept.same (view_congr hops) hsame).advance hop' hawaiting
      (by rw [hreads, hclock]; exact htime hmembers) _

theorem exchange_kept (h : Kept c s b) (query : DnsPacket) (deadline : Int) (hp : Punctual c
    s (.exchange query deadline)) :
    Kept c (s.exchange c query deadline)
    (b.observe s (s.exchange c query deadline) (.exchange query deadline)) := by
  have hpush : ∀ s' : State, s'.ops = s.ops ++ [({ query, deadline } : Operation)] →
    s'.memberHealth = s.memberHealth →
      Kept c s' b ∧ s'.ops[s.ops.length]? = some { query, deadline } := fun s' hops hhealth =>
    ⟨h.push rfl (fun i => by simp) hops hhealth, by rw [hops]; exact getElem?_concat_length⟩
  simp only [State.exchange, Books.observe]
  split
  · obtain ⟨hkept, hop⟩ := hpush { s with ops := s.ops ++ [{ query, deadline }], operations :=
      s.ops.length :: s.operations } rfl rfl
    exact hkept.finish (show _ = some ([], 0, none) by rw [State.view, hop]; rfl) _
  · rename_i hstopped
    obtain ⟨hkept, hop⟩ := hpush { s with ops := s.ops ++ [{ query, deadline }], operations :=
      s.ops.length :: s.operations } rfl rfl
    refine startOp_kept hkept hop rfl (fun i hi => ?_) (hp (by simpa using hstopped))
    obtain ⟨v, hv, -⟩ := (h.attempted _ i).1 hi
    rw [State.view, getElem?_eq_none (Nat.le_refl _)] at hv
    cases hv

variable {request : MemberRequest}

theorem record_kept {e : Error} (h : Kept c s b) (hop : s.ops[o]? = some op)
    (hawaiting : op.awaiting = some request) (he : e.code ≠ .cancelled) : ∃ s' op',
      s' = ((s.modifyOp o fun op => { op with awaiting := none }).modifyOp o
      fun op => { op with lastError := some e }).recordFailure c op.currentIndex e ∧
      Kept c s' { b with ended := b.ended ++ [((o, request.index), true)] } ∧ s'.ops[o]? = some op' ∧
        op'.awaiting = none ∧
      op'.deadline = op.deadline ∧ s'.clockReads = s.clockReads + 1 := by
  have hview : s.view o = some (op.attempted, op.currentIndex, some request) :=
    by rw [State.view, hop, ← hawaiting]; rfl
  obtain ⟨hindex, hlt, -, -⟩ := h.awaited o _ request hview rfl
  have hlength : op.currentIndex < s.memberHealth.length := by
    rw [h.accounted.health.length, length_replicate, ← show request.index = op.currentIndex from hindex]
    exact hlt
  obtain ⟨hhealth, hclock⟩ := @recordFailure_spec
    ((s.modifyOp o fun op => { op with awaiting := none }).modifyOp o
    fun op => { op with lastError := some e }) c op.currentIndex e hlength he
  refine ⟨_, { op with awaiting := none, lastError := some e }, rfl, h.ends hview ?_ (.inr rfl) ?_, ?_, rfl,
    rfl, hclock⟩
  · rw [view_congr (recordFailure_frame c _ op.currentIndex e).1,
      view_modifyOp _ o (fun op => { op with lastError := some e }) fun _ => rfl,
      view_modifyOp_at hop]
  · rw [hhealth, ← show request.index = op.currentIndex from hindex]
    exact .failure o request.index _ h.accounted.health
  · rw [(recordFailure_frame c _ op.currentIndex e).1, modifyOp_getElem?, if_pos rfl, modifyOp_getElem?,
      if_pos rfl, hop]
    rfl

theorem ending_eq (hop : s.ops[o]? = some op) (hawaiting : op.awaiting = some request)
    (hc : op.completed = false) (outcome : MemberOutcome) : ending s o outcome = match outcome.failed with
      | some failed => [((o, request.index), failed)]
      | none => [] := by
  unfold ending
  rw [hop, Option.filter_some_pos (by simp [hc]), Option.bind_some, hawaiting]
  cases outcome.failed <;> rfl

theorem resume_kept (h : Kept c s b) (o : Nat) (outcome : MemberOutcome)
    (hp : Punctual c s (.outcome o outcome)) :
    Kept c (s.resume c o outcome) (b.observe s (s.resume c o outcome) (.outcome o outcome)) := by
  have hquiet : begun s o = [] → ending s o outcome = [] →
    Kept c s ⟨b.attempts ++ begun s o, b.ended ++ ending s o outcome⟩ := by
    intro hbegun hending
    rw [hbegun, hending, append_nil, append_nil]
    exact h
  have hnow : ∀ (s' : State) (b' : Books), Kept c s' b' → Kept c (s'.now c).2 b' :=
    fun s' b' h' => h'.same rfl rfl
  unfold State.resume Books.observe
  cases hop : s.ops[o]? with
  | none => exact hquiet (by rw [begun, hop]; rfl) (by rw [ending, hop]; rfl)
  | some op =>
    dsimp only
    cases hawaiting : op.awaiting with
    | none =>
      refine hquiet (by rw [begun, hop, Option.bind_some, hawaiting]) ?_
      rw [ending, hop]
      cases hc : op.completed with
      | true => rw [Option.filter_some_neg (by simp [hc])]; rfl
      | false => rw [Option.filter_some_pos (by simp [hc]), Option.bind_some, hawaiting]
    | some request =>
      have hview : s.view o = some (op.attempted, op.currentIndex, some request) :=
        by rw [State.view, hop, ← hawaiting]; rfl
      obtain ⟨hindex, -, -, -⟩ := h.awaited o _ request hview rfl
      have hidle : (s.modifyOp o fun op => { op with awaiting := none }).view =
          Function.update s.view o (some (op.attempted, op.currentIndex, none)) := view_modifyOp_at hop _
      have hat : (s.modifyOp o fun op => { op with awaiting := none }).view o = some (op.attempted,
        op.currentIndex, none) := by
        rw [hidle, Function.update_self]
      -- the attempt is over and says nothing of its member
      have hsilent : ending s o outcome = [] → Kept c (s.modifyOp o fun op => { op with awaiting := none })
          ⟨b.attempts ++ begun (s.modifyOp o fun op => { op with awaiting := none }) o,
            b.ended ++ ending s o outcome⟩ := by
        intro hending
        rw [begun_idle hat, hending, append_nil]
        exact h.ends hview hidle (.inl rfl) (by rw [append_nil]; exact h.accounted.health)
      rw [if_neg (by simp)]
      split
      · rename_i hc
        exact hsilent (by rw [ending, hop, Option.filter_some_neg (by simp [hc])]; rfl)
      · rename_i hc
        rw [ending_eq hop hawaiting (by simpa using hc)] at hsilent ⊢
        cases hresult : outcome.result with
        | ok packet =>
          have hfailed : outcome.failed = some (shouldRetryResponse packet) :=
            by rw [MemberOutcome.failed, hresult]
          dsimp only
          rw [hfailed]
          split
          · rename_i hgood
            have hgood : shouldRetryResponse packet = false := by simpa using hgood
            rw [hgood]
            have hsuccess : ((s.modifyOp o fun op => { op with awaiting := none }).recordSuccess
              op.currentIndex).memberHealth =
                s.memberHealth.set request.index {} := by
              unfold State.recordSuccess
              rw [show op.currentIndex = request.index from hindex.symm]
              split
              · rename_i hle
                exact (set_eq_of_length_le hle).symm
              · rfl
            have hsame := view_congr (recordSuccess_frame
              (s.modifyOp o fun op => { op with awaiting := none }) op.currentIndex).1
            refine (h.ends hview (hsame.trans hidle) (.inr rfl) ?_).finish (by rw [hsame, hat]) _
            rw [hsuccess]
            exact .success o request.index h.accounted.health
          · rename_i hretry
            have hretry : shouldRetryResponse packet = true := by simpa using hretry
            rw [hretry]
            obtain ⟨s', op', hs', hkept, hop', hnone, hdeadline, hclock⟩ :=
              @record_kept c s b o op request retryable h hop hawaiting (by decide)
            rw [← hs']
            split
            · rename_i htime
              have hlater := hp op hop (by simpa using hc) (by rw [hawaiting]; rfl)
                (by rw [hfailed, hretry]) (fun _ _ => htime.2)
                (by rw [← hclock]; exact htime.1)
              refine (hnow s' _ hkept).advance hop' hnone ?_ _
              rw [hdeadline, State.now, hclock]
              exact hlater
            · exact (hnow s' _ hkept).finish
                (show (s'.now c).2.view o = some (op'.attempted, op'.currentIndex, none) by
                rw [State.view, State.now, hop', ← hnone]; rfl) _
        | error e =>
          dsimp only
          split
          · rename_i hcode
            have hfailed : outcome.failed = none := by rw [MemberOutcome.failed, hresult]; exact if_pos hcode
            rw [hfailed] at hsilent ⊢
            exact hsilent rfl
          · rename_i hcode
            have hfailed : outcome.failed =
              some true := by rw [MemberOutcome.failed, hresult]; exact if_neg hcode
            rw [hfailed]
            obtain ⟨s', op', hs', hkept, hop', hnone, hdeadline, hclock⟩ :=
              @record_kept c s b o op request e h hop hawaiting hcode
            rw [← hs']
            split
            · rename_i htime
              have hlater := hp op hop (by simpa using hc) (by rw [hawaiting]; rfl) hfailed
                (fun packet heq => by rw [heq] at hresult; cases hresult) (by rw [← hclock]; exact htime)
              refine (hnow s' _ hkept).advance hop' hnone ?_ _
              rw [hdeadline, State.now, hclock]
              exact hlater
            · exact (hnow s' _ hkept).finish
                (show (s'.now c).2.view o = some (op'.attempted, op'.currentIndex, none) by
                rw [State.view, State.now, hop', ← hnone]; rfl) _

theorem step_kept (h : Kept c s b) (e : Event) (hp : Punctual c s e) :
    Kept c (step c s e) (b.observe s (step c s e) e) := by
  cases e with
  | exchange query deadline => exact exchange_kept h query deadline hp
  | outcome o outcome => exact resume_kept h o outcome hp
  | cancel o =>
    obtain ⟨hview, hhealth⟩ := finish_view { s with operations := s.operations.erase o } o
      (.error exchangeCancelled)
    exact h.same hview hhealth
  | stop =>
    have hall : ∀ (os : List Nat) (s' : State), Kept c s' b → Kept c (os.foldl State.cancelOp s') b := by
      intro os
      induction os with
      | nil => exact fun s' h' => h'
      | cons o os ih =>
        intro s' h'
        obtain ⟨hview, hhealth⟩ := finish_view s' o (.error exchangeCancelled)
        exact ih _ (h'.same hview hhealth)
    show Kept c s.stop b
    unfold State.stop
    split
    · exact h
    · exact hall _ _ (h.same rfl rfl)

theorem run_kept : ∀ (events : List Event) {s : State} {b : Books}, Kept c s b →
    Runs.Along (step c) (Punctual c) s events →
    (Runs.run (observe c) (s, b) events).1 = Runs.run (step c) s events ∧
      Kept c (Runs.run (observe c) (s, b) events).1 (Runs.run (observe c) (s, b) events).2
  | [], _, _, h, _ => ⟨rfl, h⟩
  | e :: events, _, _, h, hp => run_kept events (step_kept h e hp.1) hp.2

theorem start_kept (c : Config) : Kept c (start c) {} :=
  ⟨⟨nodup_nil, nodup_nil, fun _ h => h, .nil⟩,
    fun o i => by simp [State.view, start], fun o v request hv => by cases hv⟩

end Steps

/-- **A failure is recorded once for each attempt that failed**, and for nothing else, in every run in
which the loop does not meet its deadline at its head. -/
theorem health_accounted (c : Config) (events : List Event)
    (h : Runs.Along (step c) (Punctual c) (start c) events) :
    Accounted c (Runs.run (step c) (start c) events) (Runs.run (observe c) (start c, {}) events).2 := by
  obtain ⟨hrun, hkept⟩ := run_kept events (start_kept c) h
  rw [← hrun]
  exact hkept.accounted

def anyQuery : DnsPacket := { wire := [] }

def ticking (members : Nat) : Config := ⟨members, .sequential, fun n => n⟩

theorem failed_then_next_accounted :
    Accounted (ticking 2) (Runs.run (step (ticking 2)) (start (ticking 2)) [.exchange anyQuery 100,
      .outcome 0 .unknown])
      (Runs.run (observe (ticking 2)) (start (ticking 2), {}) [.exchange anyQuery 100, .outcome 0 .unknown]).2 :=
  health_accounted (ticking 2) [.exchange anyQuery 100, .outcome 0 .unknown]
    ⟨fun _ _ => by decide, fun op hop _ _ _ _ _ => by cases hop; decide, trivial⟩

/-- **A failure without an attempt**: the deadline has passed when the exchange starts, and the first
member is blamed.  Behind an attempt that failed it is blamed again. -/
theorem blamed_at_the_deadline :
    ¬ Accounted (ticking 1) (Runs.run (step (ticking 1)) (start (ticking 1)) [.exchange anyQuery 0])
      (Runs.run (observe (ticking 1)) (start (ticking 1), {}) [.exchange anyQuery 0]).2 ∧
    ¬ Accounted (ticking 2) (Runs.run (step (ticking 2)) (start (ticking 2)) [.exchange anyQuery 5,
      .outcome 0 .unknown])
      (Runs.run (observe (ticking 2)) (start (ticking 2), {}) [.exchange anyQuery 5,
        .outcome 0 .unknown]).2 := by
  exact ⟨fun h => absurd (h.health.failures_le 0) (by decide),
    fun h => absurd (h.health.failures_le 0) (by decide)⟩

end ClashNative.Dns.UpstreamGroup
