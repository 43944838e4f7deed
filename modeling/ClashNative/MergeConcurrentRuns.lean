import ClashNative.MergeConcurrentBooks
/-!
# MergeConcurrentRuns — the threads of the merge along its runs

Of an outstanding pull one thread holds the rest, or the mark that a thread will read, or the receive in
the channel (`Token`); every other thread is out of `pull` or on its way out.  Of an answered pull all
threads are.
-/
namespace ClashNative.Async.MergeConcurrent

open Interleavings Runs List

variable {n : Nat} {T : Type}

/-! ## Who goes on with the pull -/

/-- A thread that is still in `pull` without being the one that goes on with it. -/
def Pc.Framed (p : Pc T) : Prop := p = .leave ∨ p = .check

def Pc.Stale (p : Pc T) : Prop := p = .idle ∨ p.Framed

def Pc.holds : Pc T → Bool
  | .loop | .pulled _ _ | .mark _ => true
  | _ => false

variable {p : Pc T}

theorem Pc.not_stale (h : p.holds = true) : ¬ p.Stale := by
  rintro (rfl | rfl | rfl)
  · cases h
  · cases h
  · cases h

theorem Pc.Stale.slot? (h : p.Stale) : p.slot? = none := by
  rcases h with rfl | rfl | rfl
  · rfl
  · rfl
  · rfl

/-- **Where the rest of an outstanding pull is**: with one thread, in the mark that a thread will read, or
in the channel. -/
inductive Token (pc : Thread n → Pc T) (repeat_ : Bool) : (parked : Bool) → (holder : Option (Thread n)) → Prop
  | loop (t : Thread n) (hpc : pc t = .loop) : Token pc repeat_ false (some t)
  | mark (t : Thread n) (hpc : pc t = .mark true) (hr : repeat_ = false) : Token pc repeat_ false (some t)
  | again (hr : repeat_ = true) (hu : ∃ u, (pc u).Framed) : Token pc repeat_ false none
  | parked (hr : repeat_ = false) : Token pc repeat_ true none
  | handed (d : Fin n) (j : Nat) (slot : Option T) (hpc : pc (some d) = .pulled j slot) (hr : repeat_ = false) :
      Token pc repeat_ false (some (some d))
  | marking (d : Thread n) (hpc : pc d = .mark false) (hr : repeat_ = false) (hu : ∃ u, (pc u).Framed) :
      Token pc repeat_ false (some d)

structure Phase (s : State n T) (parked : Bool) (holder : Option (Thread n)) : Prop where
  stale : ∀ t, holder ≠ some t → (s.pc t).Stale
  token : Token s.pc s.repeat_ parked holder
  opened : s.inFrame = true → ∃ t, s.pc t = .leave ∨ s.pc t = .mark true

section
variable {s : State n T} {t : Thread n} {p : Pc T} {parked : Bool} {holder : Option (Thread n)}

theorem goto_self (s : State n T) (t : Thread n) (p : Pc T) : (s.goto t p).pc t = p := Function.update_self ..

theorem goto_of_ne {u : Thread n} (hu : u ≠ t) : (s.goto t p).pc u = s.pc u := Function.update_of_ne hu ..

theorem goto_stale {holder' : Option (Thread n)} (h : ∀ u, holder ≠ some u →
    (s.pc u).Stale) (hp : holder' ≠ some t → p.Stale)
    (hh : ∀ u, u ≠ t → holder' ≠ some u → holder ≠ some u) :
    ∀ u, holder' ≠ some u → ((s.goto t p).pc u).Stale := by
  intro u hu
  by_cases hut : u = t
  · subst hut
    rw [goto_self]
    exact hp hu
  · rw [goto_of_ne hut]
    exact h u (hh u hut hu)

theorem goto_out (h : ∀ u, some t ≠ some u → (s.pc u).Stale) (hp : p.Stale) (u : Thread n) :
    ((s.goto t p).pc u).Stale := by
  by_cases hut : u = t
  · rw [hut, goto_self]
    exact hp
  · rw [goto_of_ne hut]
    exact h u fun heq => hut (Option.some.inj heq).symm

theorem exists_goto {Q : Pc T → Prop} (h : ∃ u, Q (s.pc u)) (ht : Q (s.pc t) → ∃ u, Q ((s.goto t p).pc u)) :
    ∃ u, Q ((s.goto t p).pc u) := by
  obtain ⟨u, hu⟩ := h
  by_cases hut : u = t
  · exact ht (hut ▸ hu)
  · exact ⟨u, by rwa [goto_of_ne hut]⟩

theorem Token.goto (h : Token s.pc s.repeat_ parked holder) (ht : holder ≠ some t)
    (hu : (s.repeat_ = true ∨ ∃ d, s.pc d = .mark false) → (s.pc t).Framed → ∃ u, ((s.goto t p).pc u).Framed) :
    Token (s.goto t p).pc s.repeat_ parked holder := by
  have hpc : ∀ {u}, holder = some u → (s.goto t p).pc u = s.pc u :=
    fun {u} heq => goto_of_ne fun hut => ht (hut ▸ heq)
  cases h with
  | loop t' h1 => exact .loop t' ((hpc rfl).trans h1)
  | mark t' h1 hr => exact .mark t' ((hpc rfl).trans h1) hr
  | again hr h1 => exact .again hr (exists_goto h1 (hu (.inl hr)))
  | parked hr => exact .parked hr
  | handed d j slot h1 hr => exact .handed d j slot ((hpc rfl).trans h1) hr
  | marking d h1 hr h2 => exact .marking d ((hpc rfl).trans h1) hr (exists_goto h2 (hu (.inr ⟨d, h1⟩)))

theorem Phase.not_holder (h : Phase s parked holder) (hp : (s.pc t).Framed ∨ s.pc t = .idle) :
    holder ≠ some t := by
  intro heq
  subst heq
  have hpc : ∀ q : Pc T, s.pc t = q → q = .leave ∨ q = .check ∨ q = .idle := fun q hq => by
    rw [← hq]
    rcases hp with (h1 | h1) | h1
    · exact .inl h1
    · exact .inr (.inl h1)
    · exact .inr (.inr h1)
  cases h.token with
  | loop _ h1 => rcases hpc _ h1 with h2 | h2 | h2 <;> cases h2
  | mark _ h1 _ => rcases hpc _ h1 with h2 | h2 | h2 <;> cases h2
  | handed d j slot h1 _ => rcases hpc _ h1 with h2 | h2 | h2 <;> cases h2
  | marking _ h1 _ _ => rcases hpc _ h1 with h2 | h2 | h2 <;> cases h2

theorem Phase.leave (h : Phase s parked holder) (hpc : s.pc t = .leave) :
    Phase { s.goto t .check with inFrame := false } parked holder := by
  have ht := h.not_holder (.inl (.inl hpc))
  refine ⟨goto_stale h.stale (fun _ => .inr (.inr rfl)) fun _ _ hu => hu,
    h.token.goto ht fun _ _ => ⟨t, ?_⟩, nofun⟩
  rw [goto_self]
  exact .inr rfl

theorem opened_goto (h : Phase s parked holder) (hpc : s.pc t = .check) :
    (s.goto t p).inFrame = true → ∃ u, (s.goto t p).pc u = .leave ∨ (s.goto t p).pc u = .mark true := by
  intro hopen
  refine exists_goto (Q := fun q => q = .leave ∨ q = .mark true) (h.opened hopen) fun hq => ?_
  rw [hpc] at hq
  rcases hq with hq | hq
  · cases hq
  · cases hq

theorem Phase.exit (h : Phase s parked holder) (hpc : s.pc t = .check) (hr : s.repeat_ = false)
    (hlast : (∃ d, s.pc d = .mark false) → ∃ u, u ≠ t ∧ (s.pc u).Framed) :
    Phase (s.goto t .idle) parked holder := by
  have ht := h.not_holder (.inl (.inr hpc))
  refine ⟨goto_stale h.stale (fun _ => .inl rfl) fun _ _ hu => hu, h.token.goto ht ?_, opened_goto h hpc⟩
  rintro (hr' | hd) -
  · rw [hr] at hr'
    cases hr'
  · obtain ⟨u, hu, hframed⟩ := hlast hd
    exact ⟨u, by rwa [goto_of_ne hu]⟩

theorem Phase.again (h : Phase s parked holder) (hpc : s.pc t = .check) (hr : s.repeat_ = true)
    (halone : ∀ u, s.pc u ≠ .loop) :
    parked = false ∧ Phase (s.goto t .loop) false (some t) := by
  have htoken : parked = false ∧ holder = none := by
    cases h.token with
    | loop t' h1 => exact absurd h1 (halone t')
    | again _ _ => exact ⟨rfl, rfl⟩
    | mark _ _ hr' => rw [hr] at hr'; cases hr'
    | parked hr' => rw [hr] at hr'; cases hr'
    | handed _ _ _ _ hr' => rw [hr] at hr'; cases hr'
    | marking _ _ hr' _ => rw [hr] at hr'; cases hr'
  obtain ⟨rfl, rfl⟩ := htoken
  refine ⟨rfl, goto_stale h.stale (fun hne => absurd rfl hne) nofun, .loop t (goto_self ..), opened_goto h hpc⟩

end

/-! ## The invariant -/

/-- **The invariant of the merge**, with what its channel shows. -/
structure Inv (s : State n T) (buffer : List (Option T)) (parked : Bool) : Prop where
  channel : Shows s.channel buffer parked (decide (n = 0))
  waiting : parked = true → buffer = [] ∧ 0 < n
  book : Book s.pending s.sent s.results s.consumed
  phase : s.pulling = true → ∃ holder, Phase s parked holder
  rest : s.pulling = false → parked = false ∧ s.repeat_ = false ∧ ∀ t, (s.pc t).Stale
  gone : s.held = false → s.pulling = false ∧ ∀ t, s.pc t = .idle
  live : s.pulling = true → s.told = true → n = 0
  answers : s.results.length + s.pulling.toNat = s.pulls

section
variable {s : State n T} {t : Thread n} {buffer : List (Option T)} {parked : Bool} {holder : Option (Thread n)}

theorem pending_eq (hch : s.channel.buffer = buffer) (hslots : ∀ i, (s.pc (some i)).slot? = none) :
    s.pending = buffer := by
  rw [State.pending, hch, filterMap_eq_nil_iff.2 fun i _ => hslots i, nil_append]

theorem pending_cons (hch : s.channel.buffer = buffer) (d : Fin n) (slot : Option T)
    (hd : (s.pc (some d)).slot? = some slot)
    (hslots : ∀ i, i ≠ d → (s.pc (some i)).slot? = none) : s.pending = slot :: buffer := by
  obtain ⟨before, after, hsplit⟩ := append_of_mem (mem_finRange d)
  have hnodup := nodup_finRange n
  rw [hsplit] at hnodup
  have hbefore : before.filterMap (fun i => (s.pc (some i)).slot?) = [] := filterMap_eq_nil_iff.2 fun i hi =>
    hslots i fun heq => (nodup_append.1 hnodup).2.2 i hi d mem_cons_self heq
  have hafter : after.filterMap (fun i => (s.pc (some i)).slot?) = [] := filterMap_eq_nil_iff.2 fun i hi =>
    hslots i fun heq => (nodup_cons.1 (nodup_append.1 hnodup).2.1).1 (heq ▸ hi)
  rw [State.pending, hch, hsplit, filterMap_append, hbefore, filterMap_cons, hafter, hd]
  rfl

variable {p : Pc T}

theorem goto_slot? (h : ∀ u, some t ≠ some u → (s.pc u).Stale) (hp : p.slot? = none) (u : Thread n) :
    ((s.goto t p).pc u).slot? = none := by
  by_cases hut : u = t
  · rw [hut, goto_self]
    exact hp
  · rw [goto_of_ne hut]
    exact (h u fun heq => hut (Option.some.inj heq).symm).slot?

theorem held_of_pulling (h : Inv s buffer parked) (hpull : s.pulling = true) : s.held = true := by
  by_contra hheld
  rw [(h.gone (Bool.eq_false_of_not_eq_true hheld)).1] at hpull
  cases hpull

variable {inline : Bool}

theorem inv_complete {r : Mpsc.RecvResult T} (hch : Shows s.channel buffer false (decide (n = 0)))
    (hbook : Book buffer s.sent (s.results ++ [r]) s.consumed) (hstale : ∀ u, some t ≠ some u → (s.pc u).Stale)
    (hr : s.repeat_ = false) (hheld : s.held = true) (hans : s.results.length + 1 = s.pulls) :
    Inv (s.complete t inline r) buffer false where
  channel := hch
  waiting hp := by cases hp
  book := by
    have hback : (if inline then .leave else .idle : Pc T).slot? = none := by
      cases inline with
      | true => rfl
      | false => rfl
    rw [pending_eq (s := s.complete t inline r) hch.buffer_eq fun i => goto_slot?
      (s := { s with results := _ }) hstale hback (some i)]
    exact hbook
  phase hp := by cases hp
  rest _ := by
    refine ⟨rfl, hr, goto_out (s := { s with results := _ }) hstale ?_⟩
    cases inline with
    | true => exact .inr (.inl rfl)
    | false => exact .inl rfl
  gone hgone := by
    rw [show s.held = false from hgone] at hheld
    cases hheld
  live hp := by cases hp
  answers := length_append.trans hans

theorem inv_going (holder : Option (Thread n)) (hch : Shows s.channel buffer parked (decide (n = 0)))
    (hwait : parked = true → buffer = [] ∧ 0 < n)
    (hbook : Book buffer s.sent s.results s.consumed) (hslots : ∀ u, (s.pc u).slot? = none)
    (hphase : Phase s parked holder)
    (hpull : s.pulling = true) (hheld : s.held = true) (hlive : s.told = true → n = 0)
    (hans : s.results.length + 1 = s.pulls) :
    Inv s buffer parked where
  channel := hch
  waiting := hwait
  book := by rw [pending_eq hch.buffer_eq fun i => hslots (some i)]; exact hbook
  phase _ := ⟨holder, hphase⟩
  rest hrest := by rw [hpull] at hrest; cases hrest
  gone hgone := by rw [hheld] at hgone; cases hgone
  live _ := hlive
  answers := by rw [hpull]; exact hans

/-! ## What a step keeps -/

theorem inv_goto (hch : Shows s.channel buffer false (decide (n = 0)))
    (hbook : Book buffer s.sent s.results s.consumed)
    (hstale : ∀ u, some t ≠ some u → (s.pc u).Stale) (hp : p.slot? = none)
    (htoken : Token (s.goto t p).pc s.repeat_ false (some t))
    (hopened : s.inFrame = true → ∃ u, (s.goto t p).pc u = .leave ∨ (s.goto t p).pc u = .mark true)
    (hpull : s.pulling = true) (hheld : s.held = true) (hlive : s.told = true → n = 0)
    (hans : s.results.length + 1 = s.pulls) :
    Inv (s.goto t p) buffer false :=
  inv_going (some t) hch (fun hp => by cases hp) hbook (goto_slot? hstale hp)
    ⟨goto_stale hstale (fun hne => absurd rfl hne) fun _ _ hu => hu, htoken, hopened⟩ hpull hheld hlive hans

variable {slot : Option T}

theorem inv_onPulled (hch : Shows s.channel buffer false (decide (n = 0)))
    (hbook : Book (slot :: buffer) s.sent s.results s.consumed) (hstale : ∀ u, some t ≠ some u →
      (s.pc u).Stale) (hr : s.repeat_ = false)
    (hopen : s.inFrame = true → inline = true ∨ ∃ u, u ≠ t ∧ s.pc u = .leave)
    (hpull : s.pulling = true) (hheld : s.held = true) (hlive : s.told = true → n = 0)
    (hans : s.results.length + 1 = s.pulls) :
    Inv (s.onPulled t inline (.value (some slot))) buffer false := by
  cases slot with
  | some v => exact inv_complete hch hbook.deliver hstale hr hheld hans
  | none =>
    simp only [State.onPulled]
    by_cases hlast : n ≤ s.consumed + 1
    · rw [if_pos hlast]
      exact inv_complete (s := { s with consumed := s.consumed + 1 }) hch (hbook.last hlast) hstale hr hheld hans
    · rw [if_neg hlast]
      by_cases hframe : s.inFrame = true
      · rw [if_pos hframe]
        refine inv_goto (s := { s with consumed := s.consumed + 1 }) hch (hbook.skip hlast) hstale rfl ?_
          (fun _ => ?_) hpull
          hheld hlive hans
        · cases inline with
          | true => exact .mark t (goto_self ..) hr
          | false =>
            obtain ⟨u, hut, hu⟩ := (hopen hframe).resolve_left Bool.false_ne_true
            exact .marking t (goto_self ..) hr ⟨u, by rw [goto_of_ne hut]; exact .inl hu⟩
        · cases inline with
          | true => exact ⟨t, .inr (goto_self ..)⟩
          | false =>
            obtain ⟨u, hut, hu⟩ := (hopen hframe).resolve_left Bool.false_ne_true
            exact ⟨u, .inl (by rw [goto_of_ne hut]; exact hu)⟩
      · rw [if_neg hframe]
        exact inv_goto (s := { s with consumed := s.consumed + 1 }) hch (hbook.skip hlast) hstale rfl
          (.loop t (goto_self ..))
          (fun hopen' => absurd hopen' hframe) hpull hheld hlive hans

theorem inv_round (h : Inv s buffer false) (hpull : s.pulling = true) (hstale : ∀ u, some t ≠ some u →
    (s.pc u).Stale) (hpc : s.pc t = .loop) :
    ∃ buffer' parked', Inv (s.round t) buffer' parked' := by
  have hans : s.results.length + 1 = s.pulls := by
    rw [← h.answers, hpull]
    rfl
  have hheld := held_of_pulling h hpull
  have hslots : ∀ i, (s.pc (some i)).slot? = none := fun i => by
    by_cases hi : some i = t
    · rw [hi, hpc]
      rfl
    · exact (hstale (some i) fun heq => hi (Option.some.inj heq).symm).slot?
  have hbook := h.book
  rw [pending_eq h.channel.buffer_eq hslots] at hbook
  unfold State.round
  dsimp only
  cases hbuffer : buffer with
  | cons slot rest =>
    rw [hbuffer] at hbook
    obtain ⟨hch, hresult⟩ := (hbuffer ▸ h.channel).restart_front
    rw [hresult]
    exact ⟨rest, false, inv_onPulled (s := { s with repeat_ := false, inFrame := true, channel := _ })
      (hch.completeRecv _) hbook hstale rfl
      (fun _ => .inl rfl) hpull hheld (h.live hpull) hans⟩
  | nil =>
    rw [hbuffer] at hbook
    obtain ⟨hch, hresult⟩ := (hbuffer ▸ h.channel).restart_nil
    rw [hresult]
    by_cases hn : n = 0
    · rw [if_pos (decide_eq_true hn)]
      rw [decide_eq_true hn] at hch
      refine ⟨[], false, inv_complete (s := { s with repeat_ := false, inFrame := true, channel := _ }) ?_
        (hbook.closed hn)
        hstale rfl hheld hans⟩
      rw [decide_eq_true hn]
      exact hch.completeRecv _
    · rw [if_neg (by simp [decide_eq_false hn])]
      rw [decide_eq_false hn] at hch
      refine ⟨[], true, inv_going (s := State.goto
        { s with repeat_ := false, inFrame := true, channel := _ } t .leave) none ?_
        (fun _ => ⟨rfl, Nat.pos_of_ne_zero hn⟩) hbook (goto_slot? hstale rfl) ⟨?_, .parked rfl, ?_⟩ hpull
        hheld (h.live hpull) hans⟩
      · rw [decide_eq_false hn]
        exact hch
      · exact goto_stale hstale (fun _ => .inr (.inl rfl)) fun u hut _ heq => hut (Option.some.inj heq).symm
      · exact fun _ => ⟨t, .inl (goto_self ..)⟩

variable {s' : State n T}

theorem inv_moved {parked' : Bool} {holder' : Option (Thread n)} (h : Inv s buffer parked)
    (hpull : s.pulling = true)
    (hphase : Phase s' parked' holder') (hparked : parked' = parked) (hpending : s'.pending = s.pending)
    (heq : s' = { s with pc := s'.pc, inFrame := s'.inFrame, repeat_ := s'.repeat_ }) :
    Inv s' buffer parked' := by
  subst hparked
  rw [heq] at hphase hpending ⊢
  exact {
    channel := h.channel
    waiting := h.waiting
    book := by rw [hpending]; exact h.book
    phase := fun _ => ⟨holder', hphase⟩
    rest := fun hrest => by rw [hpull] at hrest; cases hrest
    gone := fun hgone => by rw [held_of_pulling h hpull] at hgone; cases hgone
    live := h.live
    answers := h.answers }

theorem pending_goto (hp : p.slot? = (s.pc t).slot?) : (s.goto t p).pending = s.pending := by
  have hslot : ∀ i, ((s.goto t p).pc (some i)).slot? = (s.pc (some i)).slot? := fun i => by
    by_cases hi : some i = t
    · subst hi
      rw [goto_self, hp]
    · rw [goto_of_ne hi]
  rw [State.pending, funext hslot]
  rfl

theorem Phase.holds (h : Phase s parked holder) (hpc : s.pc t = p) (hp : p.holds = true) : holder = some t ∧
    parked = false := by
  have heq : holder = some t := by
    by_contra hne
    exact Pc.not_stale hp (hpc ▸ h.stale t hne)
  refine ⟨heq, ?_⟩
  subst heq
  cases h.token with
  | loop => rfl
  | mark => rfl
  | handed => rfl
  | marking => rfl

theorem Phase.marked (h : Phase s parked (some t)) (hpc : s.pc t = .mark inline) :
    Phase { s.goto t (if inline then .leave else .idle) with repeat_ := true } false none := by
  have hstale : ∀ p : Pc T, p.Stale → ∀ u, none ≠ some u → ((s.goto t p).pc u).Stale :=
    fun p hp u _ => goto_out h.stale hp u
  cases inline with
  | true => exact ⟨hstale _ (.inr (.inl rfl)), .again rfl ⟨t, .inl (goto_self ..)⟩,
    fun _ => ⟨t, .inl (goto_self ..)⟩⟩
  | false =>
    refine ⟨hstale _ (.inl rfl), .again rfl ?_, fun hopen => ?_⟩
    · cases h.token with
      | loop _ h1 => rw [hpc] at h1; cases h1
      | mark _ h1 _ => rw [hpc] at h1; cases h1
      | handed _ _ _ h1 _ => rw [hpc] at h1; cases h1
      | marking _ _ _ hu =>
        refine exists_goto hu fun hframed => ?_
        rw [hpc] at hframed
        rcases hframed with hq | hq
        · cases hq
        · cases hq
    · refine exists_goto (Q := fun q => q = .leave ∨ q = .mark true) (h.opened hopen) fun hq => ?_
      rw [hpc] at hq
      rcases hq with hq | hq
      · cases hq
      · cases hq

variable {j : Nat}

theorem inv_pulled (h : Inv s buffer false) (hpull : s.pulling = true) (hphase : Phase s false (some t))
    (hpc : s.pc t = .pulled j slot) :
    Inv (State.onPulled { s with channel := Mpsc.step s.channel (.completeRecv j) } t false
      (.value (some slot))) buffer false := by
  have hans : s.results.length + 1 = s.pulls := by
    rw [← h.answers, hpull]
    rfl
  have hheld := held_of_pulling h hpull
  have hstale := hphase.stale
  have hopened := hphase.opened
  cases hphase.token with
  | loop _ h1 => rw [hpc] at h1; cases h1
  | mark _ h1 _ => rw [hpc] at h1; cases h1
  | marking _ h1 _ _ => rw [hpc] at h1; cases h1
  | handed d _ _ _ hr =>
    have hbook := h.book
    rw [pending_cons h.channel.buffer_eq d slot (by rw [hpc]; rfl)
      fun i hi => (hstale (some i) fun heq => hi (Option.some.inj (Option.some.inj heq)).symm).slot?] at hbook
    refine inv_onPulled (s := { s with channel := Mpsc.step s.channel (.completeRecv j) })
      (h.channel.completeRecv j) hbook hstale hr ?_ hpull
      hheld (h.live hpull) hans
    intro hopen
    obtain ⟨u, hu⟩ := hopened hopen
    have hut : u ≠ some d := by
      rintro rfl
      rw [hpc] at hu
      rcases hu with hu | hu
      · cases hu
      · cases hu
    refine .inr ⟨u, hut, hu.resolve_right fun hmark => ?_⟩
    exact Pc.not_stale (p := .mark true) rfl (hmark ▸ hstale u fun heq => hut (Option.some.inj heq).symm)

theorem pulling_of_holds (h : Inv s buffer parked) (hpc : (s.pc t).holds = true) : s.pulling = true := by
  by_contra hrest
  exact Pc.not_stale hpc ((h.rest (Bool.eq_false_of_not_eq_true hrest)).2.2 t)

/-- A thread that is still in the operation of an answered pull comes out. -/
theorem inv_out (h : Inv s buffer parked) (hrest : s.pulling = false) (hpc : (s.pc t).Framed) (hp : p.Stale)
    (hpending : s'.pending = s.pending) (heq : s' = { s.goto t p with inFrame := s'.inFrame }) :
    Inv s' buffer parked := by
  obtain ⟨hparked, hr, hstale⟩ := h.rest hrest
  rw [heq] at hpending ⊢
  exact {
    channel := h.channel
    waiting := h.waiting
    book := by rw [hpending]; exact h.book
    phase := fun hpull => by rw [show s.pulling = true from hpull] at hrest; cases hrest
    rest := fun _ => ⟨hparked, hr, goto_out (fun u _ => hstale u) hp⟩
    gone := fun hgone => by
      rw [(h.gone hgone).2 t] at hpc
      rcases hpc with hpc | hpc
      · cases hpc
      · cases hpc
    live := h.live
    answers := h.answers }

theorem inv_advance (h : Inv s buffer parked) (hsafe : Orderly s (.run t)) :
    ∃ buffer' parked', Inv (s.advance t) buffer' parked' := by
  unfold State.advance
  cases hpc : s.pc t with
  | idle => exact ⟨buffer, parked, h⟩
  | loop =>
    have hpull := pulling_of_holds h (t := t) (by rw [hpc]; rfl)
    obtain ⟨holder, hphase⟩ := h.phase hpull
    obtain ⟨rfl, rfl⟩ := hphase.holds hpc rfl
    exact inv_round h hpull hphase.stale hpc
  | leave =>
    have hpending := pending_goto (s := s) (t := t) (p := .check) (by rw [hpc]; rfl)
    cases hpull : s.pulling with
    | true =>
      obtain ⟨holder, hphase⟩ := h.phase hpull
      exact ⟨buffer, parked, inv_moved h hpull (hphase.leave hpc) rfl hpending rfl⟩
    | false => exact ⟨buffer, parked, inv_out h hpull (.inl hpc) (.inr (.inr rfl)) hpending rfl⟩
  | check =>
    cases hr : s.repeat_ with
    | true =>
      have hpull : s.pulling = true := by
        by_contra hrest
        rw [(h.rest (Bool.eq_false_of_not_eq_true hrest)).2.1] at hr
        cases hr
      obtain ⟨holder, hphase⟩ := h.phase hpull
      have halone : ∀ u, s.pc u ≠ .loop := by
        have hcheck := hsafe hpc
        rwa [if_pos hr] at hcheck
      obtain ⟨hparked, hagain⟩ := hphase.again hpc hr halone
      exact ⟨buffer, false, inv_moved h hpull hagain hparked.symm (pending_goto (by rw [hpc]; rfl)) rfl⟩
    | false =>
      have hlast := hsafe hpc
      rw [if_neg (by simp [hr])] at hlast
      have hpending := pending_goto (s := s) (t := t) (p := .idle) (by rw [hpc]; rfl)
      cases hpull : s.pulling with
      | true =>
        obtain ⟨holder, hphase⟩ := h.phase hpull
        exact ⟨buffer, parked, inv_moved h hpull (hphase.exit hpc hr hlast) rfl hpending rfl⟩
      | false => exact ⟨buffer, parked, inv_out h hpull (.inr hpc) (.inl rfl) hpending rfl⟩
  | pulled j slot =>
    have hpull := pulling_of_holds h (t := t) (by rw [hpc]; rfl)
    obtain ⟨holder, hphase⟩ := h.phase hpull
    obtain ⟨rfl, rfl⟩ := hphase.holds hpc rfl
    exact ⟨buffer, false, inv_pulled h hpull hphase hpc⟩
  | mark inline =>
    have hpull := pulling_of_holds h (t := t) (by rw [hpc]; rfl)
    obtain ⟨holder, hphase⟩ := h.phase hpull
    obtain ⟨rfl, rfl⟩ := hphase.holds hpc rfl
    refine ⟨buffer, false, inv_moved h hpull (hphase.marked hpc) rfl ?_ rfl⟩
    refine pending_goto (s := s) ?_
    rw [hpc]
    cases inline with
    | true => rfl
    | false => rfl

variable {i : Fin n}

theorem idle_of_reading (h : s.reading i = true) : s.pc (some i) = .idle ∧ s.ended i = false := by
  unfold State.reading at h
  split at h
  · exact ⟨by assumption, Bool.not_eq_true' _ ▸ h⟩
  · cases h

variable {ended : Fin n → Bool} {produced : Fin n → List T}

theorem inv_queued (h : Inv s buffer false) (hn : decide (n = 0) = false)
    (hbook : Book (s.pending ++ [slot]) (State.sent { s with produced := produced, ended := ended })
      s.results s.consumed) :
    Inv { s with produced := produced, ended := ended, channel := Mpsc.step s.channel (.trySend slot) }
      (buffer ++ [slot]) false := by
  have hch := (hn ▸ h.channel : Shows s.channel buffer false false).trySend_free slot
  refine ⟨?_, nofun, ?_, fun hp => ?_, h.rest, h.gone, h.live, h.answers⟩
  · rw [hn]
    exact hch
  · rw [State.pending, h.channel.buffer_eq, append_assoc] at hbook
    rw [State.pending, hch.buffer_eq]
    exact hbook
  · obtain ⟨holder, hphase⟩ := h.phase hp
    exact ⟨holder, hphase.stale, hphase.token, hphase.opened⟩

theorem inv_handed (h : Inv s buffer true)
    (hn : decide (n = 0) = false) (hi : s.pc (some i) = .idle)
    (hbook : Book (s.pending ++ [slot]) (State.sent { s with produced := produced, ended := ended })
      s.results s.consumed) :
    Inv (State.goto { s with
        produced := produced, ended := ended,
        channel := Mpsc.step s.channel (.trySend slot) } (some i) (.pulled j slot))
      [] false := by
  obtain ⟨rfl, -⟩ := h.waiting rfl
  have hpull : s.pulling = true := by
    by_contra hrest
    cases (h.rest (Bool.eq_false_of_not_eq_true hrest)).1
  obtain ⟨holder, hphase⟩ := h.phase hpull
  have htoken : holder = none ∧ s.repeat_ = false := by
    cases hphase.token with
    | parked hr => exact ⟨rfl, hr⟩
  obtain ⟨rfl, hr⟩ := htoken
  have hstale : ∀ u, (s.pc u).Stale := fun u => hphase.stale u nofun
  have hch := (hn ▸ h.channel : Shows s.channel [] true false).trySend_parked slot
  refine ⟨?_, nofun, ?_, fun _ => ⟨some (some i), ?_, .handed i j slot (goto_self ..) hr, fun hopen => ?_⟩,
    fun hrest => ?_, fun hgone => ?_, h.live, h.answers⟩
  · rw [hn]
    exact hch
  · rw [pending_eq h.channel.buffer_eq fun u => (hstale (some u)).slot?] at hbook
    rw [pending_cons hch.buffer_eq i slot (by rw [goto_self]; rfl) fun u hu => ?_]
    · exact hbook
    · rw [goto_of_ne fun heq => hu (Option.some.inj heq)]
      exact (hstale (some u)).slot?
  · exact goto_stale (fun u (_ : none ≠ some u) => hstale u)
      (fun hne => absurd rfl hne) fun u _ _ heq => (by cases heq)
  · refine exists_goto (Q := fun q => q = .leave ∨ q = .mark true) (hphase.opened hopen) fun hq => ?_
    have hpc : s.pc (some i) = .leave ∨ s.pc (some i) = .mark true := hq
    rw [hi] at hpc
    rcases hpc with hpc | hpc
    · cases hpc
    · cases hpc
  · rw [show s.pulling = false from hrest] at hpull
    cases hpull
  · rw [(h.gone hgone).1] at hpull
    cases hpull

theorem inv_send (h : Inv s buffer parked)
    (hi : s.pc (some i) = .idle)
    (hsent : State.sent { s with produced := produced, ended := ended }
      = Function.update s.sent i (s.sent i ++ [slot])) :
    ∃ buffer' parked',
      Inv (State.send { s with produced := produced, ended := ended } i slot) buffer' parked' := by
  have hn : decide (n = 0) = false := decide_eq_false fun hn => absurd i.isLt (by omega)
  have hbook := h.book.send i slot
  rw [← hsent] at hbook
  have hparked := h.channel.parked_eq
  unfold State.send
  dsimp only
  cases hslot : s.channel.recvSlot with
  | none =>
    rw [hslot] at hparked
    subst hparked
    exact ⟨_, _, inv_queued h hn hbook⟩
  | some j =>
    rw [hslot] at hparked
    subst hparked
    exact ⟨_, _, inv_handed h hn hi hbook⟩

theorem sent_yield (s : State n T) (hi : s.ended i = false) (v : T) :
    State.sent { s with produced := Function.update s.produced i (s.produced i ++ [v]), ended := s.ended } =
      Function.update s.sent i (s.sent i ++ [some v]) := by
  funext u
  by_cases hu : u = i
  · subst hu
    simp [State.sent, hi]
  · simp [State.sent, Function.update_of_ne hu]

theorem sent_finish (s : State n T) (hi : s.ended i = false) :
    State.sent { s with produced := s.produced, ended := Function.update s.ended i true } =
    Function.update s.sent i (s.sent i ++ [none]) := by
  funext u
  by_cases hu : u = i
  · subst hu
    simp [State.sent, hi]
  · simp [State.sent, Function.update_of_ne hu]

theorem inv_pull (h : Inv s buffer parked)
    (hsafe : Orderly s .pull) : ∃ buffer' parked', Inv (step s .pull) buffer' parked' := by
  simp only [step]
  by_cases hpull : s.pulling = true
  · rw [if_pos hpull]
    exact ⟨buffer, parked, h⟩
  · rw [if_neg hpull]
    have hrest := Bool.eq_false_of_not_eq_true hpull
    obtain ⟨hidle, htold⟩ := hsafe hrest
    obtain ⟨rfl, -, hstale⟩ := h.rest hrest
    have hbook := h.book
    rw [pending_eq h.channel.buffer_eq fun i => (hstale (some i)).slot?] at hbook
    have hans := h.answers
    rw [hrest] at hans
    refine ⟨buffer, false, inv_goto (t := none) (p := .loop)
      (s := { s with pulling := true, held := true, pulls := s.pulls + 1, inFrame := false, repeat_ :=
        false }) h.channel hbook
      (fun u _ => hstale u) rfl (.loop none (goto_self ..)) (nofun) rfl rfl htold ?_⟩
    exact congrArg (· + 1) hans

theorem inv_drop (h : Inv s buffer parked) (hsafe : Orderly s .drop) : Inv (step s .drop) buffer parked := by
  simp only [step]
  by_cases hpull : s.pulling = true
  · rw [if_pos hpull]
    exact h
  · rw [if_neg hpull]
    have hrest := Bool.eq_false_of_not_eq_true hpull
    exact { h with
      phase := fun hpull' => absurd hpull' hpull
      gone := fun _ => ⟨hrest, hsafe hrest⟩ }

theorem inv_step {e : Event n T} (h : Inv s buffer parked) (hsafe : Orderly s e) : ∃ buffer' parked', Inv
    (step s e) buffer' parked' := by
  cases e with
  | yield i v =>
    simp only [step]
    split
    · rename_i hread
      obtain ⟨hi, hended⟩ := idle_of_reading hread
      exact inv_send h hi (sent_yield s hended v)
    · exact ⟨buffer, parked, h⟩
  | finish i =>
    simp only [step]
    split
    · rename_i hread
      obtain ⟨hi, hended⟩ := idle_of_reading hread
      exact inv_send h hi (sent_finish s hended)
    · exact ⟨buffer, parked, h⟩
  | pull => exact inv_pull h hsafe
  | drop => exact ⟨buffer, parked, inv_drop h hsafe⟩
  | run t => exact inv_advance h hsafe

theorem shows_init (n : Nat) (T : Type) : Shows (init n T).channel [] false (decide (n = 0)) := by
  by_cases hn : n = 0
  · rw [init, if_pos hn, decide_eq_true hn]
    exact ⟨rfl, rfl, rfl, rfl⟩
  · rw [init, if_neg hn, decide_eq_false hn]
    exact ⟨rfl, rfl, rfl, rfl⟩

theorem inv_init (n : Nat) (T : Type) : Inv (init n T) [] false where
  channel := shows_init n T
  waiting hp := by cases hp
  book := by
    rw [pending_eq (shows_init n T).buffer_eq fun _ => rfl]
    refine ⟨⟨[], Interleaving.nil, rfl, rfl⟩, fun hn => ⟨nofun, fun hle => ?_⟩,
      fun r hr => absurd hr not_mem_nil⟩
    exact absurd hn (Nat.not_lt.2 hle)
  phase hp := by cases hp
  rest _ := ⟨rfl, rfl, fun _ => .inl rfl⟩
  gone _ := ⟨rfl, fun _ => rfl⟩
  live hp := by cases hp
  answers := rfl

/-! ## Threads come to rest -/

theorem sum_goto (pc : Thread n → Pc T) (t : Thread n) (p : Pc T) (r : Bool) :
    ∑ u, (Function.update pc t p u).work n r + (pc t).work n r = ∑ u, (pc u).work n r + p.work n r := by
  rw [← Finset.add_sum_erase Finset.univ _ (Finset.mem_univ t),
    ← Finset.add_sum_erase Finset.univ (fun u => (pc u).work n r) (Finset.mem_univ t),
    Function.update_self]
  have hrest : ∑ u ∈ Finset.univ.erase t, (Function.update pc t p u).work n r = ∑ u ∈ Finset.univ.erase t,
    (pc u).work n r :=
    Finset.sum_congr rfl fun u hu => by rw [Function.update_of_ne (Finset.ne_of_mem_erase hu)]
  omega

theorem work_false_le (n : Nat) (p : Pc T) (r : Bool) : p.work n false ≤ p.work n r := by
  cases p with
  | leave => simp [Pc.work]
  | check => simp [Pc.work]
  | idle => exact Nat.le.refl
  | loop => exact Nat.le.refl
  | pulled j slot => exact Nat.le.refl
  | mark inline => exact Nat.le.refl

theorem work_true_le (n : Nat) (p : Pc T) (r : Bool) : p.work n true ≤ p.work n r + 3 := by
  cases p with
  | leave => simp [Pc.work]
  | check => simp [Pc.work]
  | idle => exact Nat.zero_le _
  | loop => exact Nat.le_add_right _ _
  | pulled j slot => exact Nat.le_add_right _ _
  | mark inline => exact Nat.le_add_right _ _

theorem sum_false_le (pc : Thread n → Pc T) (r : Bool) : ∑ u, (pc u).work n false ≤ ∑ u, (pc u).work n r :=
  Finset.sum_le_sum fun u _ => work_false_le n (pc u) r

theorem sum_true_le (pc : Thread n → Pc T) (r : Bool) :
    ∑ u, (pc u).work n true ≤ ∑ u, (pc u).work n r + 3 * (n + 1) := by
  have hle : ∑ u, (pc u).work n true ≤ ∑ u, ((pc u).work n r + 3) := Finset.sum_le_sum fun u _ =>
    work_true_le n (pc u) r
  rw [Finset.sum_add_distrib, Finset.sum_const, Finset.card_univ, Fintype.card_option,
    Fintype.card_fin, smul_eq_mul] at hle
  omega

theorem work_le_sum (s : State n T) (t : Thread n) :
    (s.pc t).work n s.repeat_ ≤ ∑ u, (s.pc u).work n s.repeat_ :=
  Finset.single_le_sum (f := fun u => (s.pc u).work n s.repeat_) (fun _ _ => Nat.zero_le _) (Finset.mem_univ t)

theorem work_goto (s : State n T) (t : Thread n) (p : Pc T) :
    (s.goto t p).work + (s.pc t).work n s.repeat_ = s.work + p.work n s.repeat_ := by
  have hsum := sum_goto s.pc t p s.repeat_
  unfold State.work
  rw [Nat.add_assoc, Nat.add_assoc]
  exact congrArg _ hsum

theorem work_complete (s : State n T) (t : Thread n) (inline : Bool) (r : Mpsc.RecvResult T) :
    (s.complete t inline r).work + (s.pc t).work n s.repeat_ ≤ s.work + (2 + 3 * s.repeat_.toNat) := by
  have hgoto := work_goto { s with pulling := false, results := s.results ++ [r] } t
    (if inline then .leave else .idle)
  have hback : (if inline then .leave else .idle : Pc T).work n s.repeat_ ≤ 2 + 3 * s.repeat_.toNat := by
    cases inline with
    | true => exact Nat.le_refl _
    | false => exact Nat.zero_le _
  exact (hgoto.trans_le (Nat.add_le_add_left hback _))

theorem work_onPulled (s : State n T) {slot : Option (Option T)} {k : Nat}
    (hk : s.work + (3 * n + 10) < k + (s.pc t).work n s.repeat_) :
    (s.onPulled t inline (.value slot)).work < k := by
  have hcomplete : ∀ consumed r, (State.complete { s with consumed := consumed } t inline r).work <
    k := fun consumed r => by
    have hle := work_complete { s with consumed := consumed } t inline r
    have hbit := Bool.toNat_le s.repeat_
    change _ + (s.pc t).work n s.repeat_ ≤ s.work + (2 + 3 * s.repeat_.toNat) at hle
    omega
  match slot with
  | none => exact hcomplete s.consumed (.value none)
  | some (some v) => exact hcomplete s.consumed (.value (some v))
  | some none =>
    simp only [State.onPulled]
    split
    · exact hcomplete (s.consumed + 1) (.value none)
    · split
      · have hgoto := work_goto { s with consumed := s.consumed + 1 } t (.mark inline)
        have hmark : (Pc.mark inline : Pc T).work n s.repeat_ = 3 * n + 10 := rfl
        change _ + (s.pc t).work n s.repeat_ = s.work + (Pc.mark inline : Pc T).work n s.repeat_ at hgoto
        omega
      · have hgoto := work_goto { s with consumed := s.consumed + 1 } t .loop
        have hloop : (Pc.loop : Pc T).work n s.repeat_ = 3 := rfl
        change _ + (s.pc t).work n s.repeat_ = s.work + (Pc.loop : Pc T).work n s.repeat_ at hgoto
        omega

theorem work_round (h : Inv s buffer false) (hpc : s.pc t = .loop) : (s.round t).work < s.work := by
  have hfalse := sum_false_le s.pc s.repeat_
  have hloop : ∀ r, (s.pc t).work n r = 3 := fun r => by rw [hpc]; rfl
  have hwork : s.work = (3 * n + 10) * buffer.length + ∑ u, (s.pc u).work n s.repeat_ := by
    rw [State.work, h.channel.buffer_eq]
  unfold State.round
  dsimp only
  cases hbuffer : buffer with
  | cons slot rest =>
    obtain ⟨hch, hresult⟩ := (hbuffer ▸ h.channel).restart_front
    rw [hresult]
    refine work_onPulled _ ?_
    rw [hwork, hbuffer, State.work, (hch.completeRecv _).buffer_eq, hloop, length_cons, Nat.mul_succ]
    dsimp only
    omega
  | nil =>
    obtain ⟨hch, hresult⟩ := (hbuffer ▸ h.channel).restart_nil
    rw [hresult]
    have hlt : 0 < ∑ u, (s.pc u).work n s.repeat_ := by
      have hle := work_le_sum s t
      rw [hloop] at hle
      omega
    by_cases hn : n = 0
    · rw [if_pos (decide_eq_true hn)]
      have hshown := hch.completeRecv ((restart s.channel).recvs.length - 1)
      dsimp only [State.onPulled]
      generalize Mpsc.step (restart s.channel) (.completeRecv ((restart s.channel).recvs.length - 1)) =
        c at hshown ⊢
      have hclosed : State.work { s with repeat_ := false, inFrame := true, channel := c } =
          ∑ u, (s.pc u).work n false := by
        rw [State.work]
        rw [hshown.buffer_eq]
        exact Nat.zero_add _
      have hle := work_complete { s with repeat_ := false, inFrame := true, channel := c } t true (.value none)
      change _ + (s.pc t).work n false ≤ _ + 2 at hle
      rw [hloop, hclosed] at hle
      omega
    · rw [if_neg (by simp [decide_eq_false hn])]
      have hgoto := work_goto { s with repeat_ := false, inFrame := true, channel := restart s.channel } t .leave
      have hparked : State.work { s with repeat_ := false, inFrame := true, channel := restart s.channel } =
        ∑ u, (s.pc u).work n false := by
        rw [State.work]
        rw [hch.buffer_eq]
        exact Nat.zero_add _
      change _ + (s.pc t).work n false = _ + 2 at hgoto
      rw [hloop] at hgoto
      dsimp only
      omega

theorem work_advance (h : Inv s buffer parked) (hidle : s.pc t ≠ .idle) : (s.advance t).work < s.work := by
  unfold State.advance
  cases hpc : s.pc t with
  | idle => exact absurd hpc hidle
  | loop =>
    obtain ⟨holder, hphase⟩ := h.phase (pulling_of_holds h (t := t) (by rw [hpc]; rfl))
    obtain ⟨rfl, rfl⟩ := hphase.holds hpc rfl
    exact work_round h hpc
  | leave =>
    have hgoto := work_goto s t .check
    rw [hpc] at hgoto
    change (s.goto t .check).work < s.work
    simp only [Pc.work] at hgoto
    omega
  | check =>
    dsimp only
    cases hr : s.repeat_ with
    | true =>
      have hgoto := work_goto s t .loop
      rw [hpc, hr] at hgoto
      simp only [Pc.work, Bool.toNat_true] at hgoto
      rw [if_pos rfl]
      omega
    | false =>
      have hgoto := work_goto s t .idle
      rw [hpc, hr] at hgoto
      simp only [Pc.work, Bool.toNat_false] at hgoto
      rw [if_neg Bool.false_ne_true]
      omega
  | pulled j slot =>
    refine work_onPulled _ ?_
    rw [hpc]
    exact Nat.add_lt_add_left (Nat.lt_succ_self _) _
  | mark inline =>
    have htrue := sum_true_le s.pc s.repeat_
    have hgoto := work_goto { s with repeat_ := true } t (if inline then .leave else .idle)
    have hwork : State.work { s with repeat_ := true } + ∑ u, (s.pc u).work n s.repeat_ = s.work + ∑ u,
      (s.pc u).work n true := by
      unfold State.work
      dsimp only
      omega
    have hnext : (if inline then Pc.leave else Pc.idle : Pc T).work n true ≤ 5 := by
      cases inline with
      | true => exact Nat.le.refl
      | false => exact Nat.zero_le _
    change (State.goto { s with repeat_ := true } t (if inline then .leave else .idle)).work < s.work
    rw [hpc] at hgoto
    change _ + (3 * n + 10) = _ + (if inline then Pc.leave else Pc.idle : Pc T).work n true at hgoto
    omega

/-! ## What the consumer may expect -/

theorem Phase.parked_of_idle (h : Phase s parked holder) (hidle : ∀ t, s.pc t = .idle) : parked = true := by
  cases h.token with
  | parked _ => rfl
  | loop t h1 => rw [hidle t] at h1; cases h1
  | mark t h1 _ => rw [hidle t] at h1; cases h1
  | handed d _ _ h1 _ => rw [hidle (some d)] at h1; cases h1
  | marking d h1 _ _ => rw [hidle d] at h1; cases h1
  | again _ hu =>
    obtain ⟨u, h1 | h1⟩ := hu
    · rw [hidle u] at h1
      cases h1
    · rw [hidle u] at h1
      cases h1

theorem Inv.merged (h : Inv s buffer parked) : Merged s where
  interleaved := h.book.interleaved
  end_told := h.book.end_told
  waits hpull hidle := by
    obtain ⟨holder, hphase⟩ := h.phase hpull
    obtain ⟨hbuffer, hn⟩ := h.waiting (hphase.parked_of_idle hidle)
    have hpending : s.pending = [] := by
      rw [pending_eq h.channel.buffer_eq fun i => by rw [hidle]; rfl]
      exact hbuffer
    have hconsumed : ¬ n ≤ s.consumed :=
      fun hle => absurd (h.live hpull ((h.book.counted hn).2 hle)) (Nat.ne_of_gt hn)
    exact ⟨hpending, h.book.waits_for (Nat.lt_of_not_le hconsumed) hpending⟩
  settles _ hidle := work_advance h hidle
  answers := ⟨h.answers, h.book.values⟩
  gone := h.gone

end

/-- **The merge of any sources**: in a run whose threads do not run into each other, every state is as the
merge promises. -/
theorem merged_along (n : Nat) (T : Type) (es : List (Event n T)) (h : Along step Orderly (init n T) es) :
    ∀ pre, pre <+: es → Merged (run step (init n T) pre) := by
  rintro pre ⟨post, rfl⟩
  obtain ⟨buffer, parked, hinv⟩ := along_induction (P := fun s => ∃ buffer parked, Inv s buffer parked)
    (fun s e hs hsafe => by obtain ⟨buffer, parked, hs⟩ := hs; exact inv_step hs hsafe) pre (init n T) ⟨[],
      false, inv_init n T⟩
    ((along_append pre post _).1 h).1
  exact hinv.merged

/-- A driver takes the pull past the end of its source, to an item of the other one, and leaves the
answered pull only then; the consumer finds the last end. -/
theorem merged_along_two : Merged (run step (init 2 Nat) [.pull, .run none, .run none, .run none, .finish 0,
    .run (some 0), .run (some 0),
    .yield 1 5, .run (some 1), .run (some 0), .run (some 0), .drop, .finish 1, .pull, .run none, .run none,
    .run none, .drop]) :=
  merged_along 2 Nat _ (by decide) _ (prefix_refl _)

/-- **A lost wake-up**: the driver of the first end finds `in_frame_` set, and the thread that parked the
receive has read `repeat_` when it is set; what the other source gives stays in the channel.  And a pull
after the end waits for ever. -/
theorem not_merged : ¬ Merged (run step (init 2 Nat) [.pull, .run none, .finish 0, .run (some 0), .run none,
    .run none, .run (some 0),
      .yield 1 5, .finish 1]) ∧
    ¬ Merged (run step (init 1 Nat) [.finish 0, .pull, .run none, .run none, .run none, .drop, .pull,
      .run none, .run none, .run none]) := by
  refine ⟨fun h => ?_, fun h => ?_⟩
  · exact absurd (h.waits rfl (by decide)).1 (by decide)
  · exact absurd (h.waits rfl (by decide)).2 (by decide)

end ClashNative.Async.MergeConcurrent
