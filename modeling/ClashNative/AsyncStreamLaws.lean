import ClashNative.AsyncStreams
/-!
# AsyncStreamLaws — what the operators make of a list

`Lawful S rest`: in every state, `rest` is the list that is still to come of the stream, and pulls take it
from its head. Each operator turns it into its list function's result, a stop that loses nothing included.
-/
namespace ClashNative.Async

open List

variable {α β τ : Type}

/-- **A stream that delivers a list.**  A completed pull takes the first of the rest, or finds that there
is none; one that is stopped and lost nothing leaves the rest as it was; and a long enough one completes.
-/
structure Lawful (S : AsyncStream α) (rest : S.State → List α) : Prop where
  value : ∀ (s : S.State) (k : Nat) (v : Option α) (s' : S.State) (left : Fin k),
    S.pull s k = .value v s' left → v = (rest s).head? ∧ rest s' = (rest s).tail
  stopped : ∀ (s : S.State) (k : Nat) (s' : S.State), S.pull s k = .stopped s' false → rest s' = rest s
  next : ∀ s, (S.next s).2 = false → rest (S.next s).1 = rest s
  completes : ∀ s, ∃ (n : Nat) (v : Option α) (s' : S.State), ∀ k, n ≤ k →
    ∃ left : Fin k, S.pull s k = .value v s' left ∧ k ≤ left + n

theorem source_lawful (values : List α) : Lawful (sourceStream values) id where
  value s k v s' left h := by
    cases k with
    | zero => exact left.elim0
    | succ k =>
      cases h
      exact ⟨rfl, rfl⟩
  stopped s k s' h := by
    cases k with
    | zero => cases h; rfl
    | succ k => cases h
  next _ _ := rfl
  completes s := by
    refine ⟨1, s.head?, s.tail, fun k hk => ?_⟩
    obtain ⟨k, rfl⟩ := Nat.exists_eq_succ_of_ne_zero (Nat.ne_zero_of_lt hk)
    exact ⟨Fin.last k, rfl, Nat.le_refl _⟩

/-! ### One pull of the upstream -/

/-- **What a transform makes of the upstream's rest**, from its fields. -/
structure Transforms (enter : τ → Option τ) (charged : τ → Bool) (func : τ → α → τ × Option β)
    (result : τ → List α → List β) : Prop where
  idle : ∀ t l, enter t = none → result t l = []
  nil : ∀ t, result t [] = []
  cons : ∀ t t' a l, enter t = some t' →
    (func t' a).2 = (result t (a :: l)).head? ∧ result (func t' a).1 l = (result t (a :: l)).tail
  kept : ∀ t t' l, enter t = some t' → charged t = false → result t' l = result t l

section

variable {up : AsyncStream α} {fields : τ} {enter : τ → Option τ} {charged : τ → Bool}
  {func : τ → α → τ × Option β} {result : τ → List α → List β} {rest : up.State → List α} {s : up.State} {t : τ}

theorem transform_pull_some {t' : τ} (h : enter t = some t') (k : Nat) :
    (transformSender up fields enter charged func).pull (t, s) (k + 1) =
      match up.pull s k with
      | .value none s left => .value none (t', s) left.castSucc
      | .value (some a) s left => .value (func t' a).2 ((func t' a).1, s) left.castSucc
      | .stopped s spent => .stopped (t', s) (charged t || spent) := by
  cases hpull : up.pull s k with
  | value v s left => cases v <;> simp only [transformSender, h, hpull]
  | stopped s spent => simp only [transformSender, h, hpull]

theorem transform_pull_none (h : enter t = none) (k : Nat) :
    (transformSender up fields enter charged func).pull (t, s) (k + 1) = .value none (t, s) (Fin.last k) := by
  simp only [transformSender, h]

theorem transform_next (hup : Lawful up rest) (h : Transforms enter charged func result) (st : τ × up.State)
    (hspent : ((transformSender up fields enter charged func).next st).2 = false) :
    result ((transformSender up fields enter charged func).next st).1.1
        (rest ((transformSender up fields enter charged func).next st).1.2) = result st.1 (rest st.2) := by
  obtain ⟨t, s⟩ := st
  cases he : enter t with
  | none => simp only [transformSender, he]
  | some t' =>
    simp only [transformSender, he, Bool.or_eq_false_iff] at hspent ⊢
    rw [hup.next s hspent.2, h.kept t t' _ he hspent.1]

theorem transform_stopped_zero (st : τ × up.State) : (transformSender up fields enter charged func).pull st 0 =
    .stopped ((transformSender up fields enter charged func).next st).1
      ((transformSender up fields enter charged func).next st).2 := by
  cases he : enter st.1 <;> simp only [transformSender, he]

theorem transform_lawful (result : τ → List α → List β) (hup : Lawful up rest)
    (h : Transforms enter charged func result) :
    Lawful (transformSender up fields enter charged func) fun st => result st.1 (rest st.2) where
  value := by
    rintro ⟨t, s⟩ k v st' left hp
    cases k with
    | zero => exact left.elim0
    | succ k =>
      cases he : enter t with
      | none =>
        rw [transform_pull_none he] at hp
        cases hp
        rw [h.idle t _ he]
        exact ⟨rfl, rfl⟩
      | some t' =>
        rw [transform_pull_some he] at hp
        cases hu : up.pull s k with
        | stopped s' spent => rw [hu] at hp; cases hp
        | value w s' left' =>
          obtain ⟨hhead, htail⟩ := hup.value s k w s' left' hu
          rw [hu] at hp
          cases w with
          | none =>
            cases hp
            have hnil : rest s = [] := head?_eq_none_iff.1 hhead.symm
            rw [htail, hnil, h.nil]
            exact ⟨rfl, h.nil t'⟩
          | some a =>
            cases hp
            obtain ⟨l, hl⟩ := head?_eq_some_iff.1 hhead.symm
            rw [htail, hl]
            exact h.cons t t' a l he
  stopped := by
    rintro ⟨t, s⟩ k st' hp
    cases k with
    | zero =>
      rw [transform_stopped_zero] at hp
      injection hp with hst hspent
      rw [← hst]
      exact transform_next hup h (t, s) hspent
    | succ k =>
      cases he : enter t with
      | none => rw [transform_pull_none he] at hp; cases hp
      | some t' =>
        rw [transform_pull_some he] at hp
        cases hu : up.pull s k with
        | value w s' left' => rw [hu] at hp; cases w <;> cases hp
        | stopped s' spent =>
          rw [hu] at hp
          injection hp with hst hspent
          rw [Bool.or_eq_false_iff] at hspent
          obtain ⟨hcharged, rfl⟩ := hspent
          rw [← hst, hup.stopped s k s' hu]
          exact h.kept t t' _ he hcharged
  next st := transform_next hup h st
  completes := by
    rintro ⟨t, s⟩
    cases he : enter t with
    | none =>
      refine ⟨1, none, (t, s), fun k hk => ?_⟩
      obtain ⟨k, rfl⟩ := Nat.exists_eq_succ_of_ne_zero (Nat.ne_zero_of_lt hk)
      exact ⟨Fin.last k, transform_pull_none he k, Nat.le_refl _⟩
    | some t' =>
      obtain ⟨n, w, s', hu⟩ := hup.completes s
      have hlong : ∀ k, n + 1 ≤ k → ∃ j, k = j + 1 ∧ n ≤ j := fun k hk =>
        ⟨k - 1, by omega, by omega⟩
      cases w with
      | none =>
        refine ⟨n + 1, none, (t', s'), fun k hk => ?_⟩
        obtain ⟨j, rfl, hj⟩ := hlong k hk
        obtain ⟨left, hleft, hle⟩ := hu j hj
        refine ⟨left.castSucc, ?_, Nat.succ_le_succ hle⟩
        rw [transform_pull_some he, hleft]
      | some a =>
        refine ⟨n + 1, (func t' a).2, ((func t' a).1, s'), fun k hk => ?_⟩
        obtain ⟨j, rfl, hj⟩ := hlong k hk
        obtain ⟨left, hleft, hle⟩ := hu j hj
        refine ⟨left.castSucc, ?_, Nat.succ_le_succ hle⟩
        rw [transform_pull_some he, hleft]

end

variable {up : AsyncStream α} {rest : up.State → List α}

theorem map_lawful (hup : Lawful up rest) (func : α → β) :
    Lawful (mapStream up func) fun st => (rest st.2).map func :=
  transform_lawful (fun _ l => l.map func) hup {
    idle := nofun
    nil := fun _ => rfl
    cons := fun _ _ _ _ _ => ⟨rfl, rfl⟩
    kept := fun _ _ _ _ _ => rfl }

theorem take_lawful (hup : Lawful up rest) (count : Nat) :
    Lawful (takeStream up count) fun st => (rest st.2).take st.1 :=
  transform_lawful (fun remaining l => l.take remaining) hup {
    idle := fun remaining l he => by
      have hzero : remaining = 0 := by
        by_contra hpos
        simp [Nat.pos_of_ne_zero hpos] at he
      rw [hzero]
      rfl
    nil := fun _ => take_nil
    cons := fun remaining t' a l he => by
      split at he
      · rename_i hpos
        obtain ⟨n, rfl⟩ := Nat.exists_eq_succ_of_ne_zero (Nat.ne_of_gt hpos)
        cases he
        exact ⟨rfl, rfl⟩
      · cases he
    kept := fun remaining t' l he hc => by
      rw [if_neg (of_decide_eq_false hc)] at he
      cases he }

theorem takeWhile_lawful (hup : Lawful up rest) (func : α → Bool) :
    Lawful (takeWhileStream up func) fun st => if st.1 = true then [] else (rest st.2).takeWhile func :=
  transform_lawful (fun done l => if done = true then [] else l.takeWhile func) hup {
    idle := fun done l he => by
      cases done with
      | true => rfl
      | false => cases he
    nil := fun done => by cases done <;> rfl
    cons := fun done t' a l he => by
      cases done with
      | true => cases he
      | false =>
        cases he
        by_cases ha : func a = true
        · simp [ha]
        · simp [ha]
    kept := fun done t' l he _ => by
      cases done with
      | true => cases he
      | false => cases he; rfl }

theorem scan_lawful (hup : Lawful up rest) (acc : β) (func : β → α → β) :
    Lawful (scanStream up acc func) fun st => ((rest st.2).scanl func st.1).tail :=
  transform_lawful (fun acc l => (l.scanl func acc).tail) hup {
    idle := nofun
    nil := fun _ => by rw [scanl_nil]; rfl
    cons := fun acc t' a l he => by
      cases he
      rw [scanl_cons, tail_cons]
      cases l with
      | nil => exact ⟨by rw [scanl_nil]; rfl, by rw [scanl_nil]⟩
      | cons b l => exact ⟨by rw [scanl_cons]; rfl, by rw [scanl_cons]⟩
    kept := fun _ _ _ he _ => by cases he; rfl }

/-! ### Pulls until the step delivers -/

/-- **What a repeated step makes of the upstream's rest.** -/
structure Repeats (step : τ → α → τ × Option (Option β)) (result : τ → List α → List β) : Prop where
  nil : ∀ t, result t [] = []
  again : ∀ t a l, (step t a).2 = none → result (step t a).1 l = result t (a :: l)
  deliver : ∀ t a l v, (step t a).2 = some v → v = (result t (a :: l)).head? ∧ result (step t a).1 l =
    (result t (a :: l)).tail

section

variable {up : AsyncStream α} {fields : τ} {step : τ → α → τ × Option (Option β)} {result : τ → List α → List β}
  {rest : up.State → List α}

theorem repeatPull_value (hup : Lawful up rest) (h : Repeats step result) (k : Nat) :
    ∀ (t : τ) (s : up.State) (v : Option β) (st' : τ × up.State) (left : Fin k),
      repeatPull up step k t s = .value v st' left →
      v = (result t (rest s)).head? ∧ result st'.1 (rest st'.2) = (result t (rest s)).tail := by
  induction k using Nat.strongRecOn with
  | ind k ih =>
    intro t s v st' left hp
    rw [repeatPull] at hp
    cases hu : up.pull s k with
    | stopped s' spent => rw [hu] at hp; cases hp
    | value w s' left' =>
      obtain ⟨hhead, htail⟩ := hup.value s k w s' left' hu
      rw [hu] at hp
      cases w with
      | none =>
        cases hp
        have hnil : rest s = [] := head?_eq_none_iff.1 hhead.symm
        rw [htail, hnil, h.nil]
        exact ⟨rfl, h.nil t⟩
      | some a =>
        obtain ⟨l, hl⟩ := head?_eq_some_iff.1 hhead.symm
        rw [hl, tail_cons] at htail
        dsimp only at hp
        cases hstep : (step t a).2 with
        | none =>
          rw [hstep] at hp
          obtain ⟨left'', hagain⟩ := Pull.weaken_eq_value hp
          have := ih left' left'.isLt _ _ _ _ _ hagain
          rw [htail, h.again t a l hstep] at this
          rw [hl]
          exact this
        | some v' =>
          rw [hstep] at hp
          cases hp
          rw [hl, htail]
          exact h.deliver t a l v hstep

theorem repeatPull_stopped (hup : Lawful up rest) (h : Repeats step result) (k : Nat) :
    ∀ (t : τ) (s : up.State) (st' : τ × up.State), repeatPull up step k t s = .stopped st' false →
      result st'.1 (rest st'.2) = result t (rest s) := by
  induction k using Nat.strongRecOn with
  | ind k ih =>
    intro t s st' hp
    rw [repeatPull] at hp
    cases hu : up.pull s k with
    | stopped s' spent =>
      rw [hu] at hp
      cases hp
      rw [hup.stopped s k s' hu]
    | value w s' left' =>
      obtain ⟨hhead, htail⟩ := hup.value s k w s' left' hu
      rw [hu] at hp
      cases w with
      | none => cases hp
      | some a =>
        obtain ⟨l, hl⟩ := head?_eq_some_iff.1 hhead.symm
        dsimp only at hp
        cases hstep : (step t a).2 with
        | none =>
          rw [hstep] at hp
          rw [ih left' left'.isLt _ _ _ (Pull.weaken_eq_stopped hp), htail, hl]
          exact h.again t a l hstep
        | some v' => rw [hstep] at hp; cases hp

theorem repeatPull_completes (hup : Lawful up rest) (step : τ → α → τ × Option (Option β)) (l : List α) :
    ∀ (t : τ) (s : up.State), rest s = l → ∃ (n : Nat) (v : Option β) (st' : τ × up.State), ∀ k, n ≤ k →
      ∃ left : Fin k, repeatPull up step k t s = .value v st' left ∧ k ≤ left + n := by
  induction l with
  | nil =>
    intro t s hl
    obtain ⟨n, w, s', hu⟩ := hup.completes s
    refine ⟨n, none, (t, s'), fun k hk => ?_⟩
    obtain ⟨left, hleft, hle⟩ := hu k hk
    refine ⟨left, ?_, hle⟩
    have hw : w = none := by
      rw [(hup.value s k w s' left hleft).1, hl]
      rfl
    rw [repeatPull, hleft, hw]
  | cons a l ih =>
    intro t s hl
    obtain ⟨n, w, s', hu⟩ := hup.completes s
    obtain ⟨left₀, hleft₀, _⟩ := hu n (Nat.le_refl n)
    obtain ⟨hhead, htail⟩ := hup.value s n w s' left₀ hleft₀
    rw [hl] at hhead htail
    subst hhead
    cases hstep : (step t a).2 with
    | some v =>
      refine ⟨n, v, ((step t a).1, s'), fun k hk => ?_⟩
      obtain ⟨left, hleft, hle⟩ := hu k hk
      refine ⟨left, ?_, hle⟩
      rw [repeatPull, hleft]
      simp only [head?_cons, hstep]
    | none =>
      obtain ⟨n', v, st', hagain⟩ := ih (step t a).1 s' htail
      refine ⟨n + n', v, st', fun k hk => ?_⟩
      obtain ⟨left, hleft, hle⟩ := hu k (by omega)
      obtain ⟨left', hleft', hle'⟩ := hagain left (by omega)
      refine ⟨left'.castLE left.is_le', ?_, ?_⟩
      · rw [repeatPull, hleft]
        simp only [head?_cons, hstep, hleft']
        rfl
      · rw [Fin.val_castLE]
        omega

theorem repeat_lawful (result : τ → List α → List β) (hup : Lawful up rest) (h : Repeats step result) :
    Lawful (repeatSender up fields step) fun st => result st.1 (rest st.2) where
  value st k v st' left hp := by
    cases k with
    | zero => exact left.elim0
    | succ k =>
      obtain ⟨left', hp⟩ := Pull.weaken_eq_value hp
      exact repeatPull_value hup h k st.1 st.2 v st' left' hp
  stopped st k st' hp := by
    cases k with
    | zero => cases hp; rfl
    | succ k => exact repeatPull_stopped hup h k st.1 st.2 st' (Pull.weaken_eq_stopped hp)
  next _ _ := rfl
  completes st := by
    obtain ⟨n, v, st', hn⟩ := repeatPull_completes hup step (rest st.2) st.1 st.2 rfl
    refine ⟨n + 1, v, st', fun k hk => ?_⟩
    obtain ⟨k, rfl⟩ := Nat.exists_eq_succ_of_ne_zero (Nat.ne_zero_of_lt hk)
    obtain ⟨left, hleft, hle⟩ := hn k (Nat.le_of_succ_le_succ hk)
    refine ⟨left.castLE k.le_succ, ?_, Nat.succ_le_succ hle⟩
    exact congrArg (Pull.weaken k.le_succ) hleft

end

theorem filter_lawful (hup : Lawful up rest) (func : α → Bool) :
    Lawful (filterStream up func) fun st => (rest st.2).filter func :=
  repeat_lawful (fun _ l => l.filter func) hup {
    nil := fun _ => rfl
    again := fun t a l ha => by
      by_cases hf : func a = true
      · simp [hf] at ha
      · rw [filter_cons_of_neg hf]
    deliver := fun t a l v ha => by
      by_cases hf : func a = true
      · simp only [hf, if_true, Option.some.injEq] at ha
        rw [filter_cons_of_pos hf]
        exact ⟨ha.symm, rfl⟩
      · simp [hf] at ha }

theorem skip_lawful (hup : Lawful up rest) (count : Nat) :
    Lawful (skipStream up count) fun st => (rest st.2).drop st.1 :=
  repeat_lawful (fun remaining l => l.drop remaining) hup {
    nil := fun _ => drop_nil
    again := fun remaining a l ha => by
      cases remaining with
      | zero => cases ha
      | succ n => rfl
    deliver := fun remaining a l v ha => by
      cases remaining with
      | zero => cases ha; exact ⟨rfl, rfl⟩
      | succ n => cases ha }

theorem skipWhile_lawful (hup : Lawful up rest) (func : α → Bool) :
    Lawful (skipWhileStream up func) fun st => if st.1 = true then (rest st.2).dropWhile func else rest st.2 :=
  repeat_lawful (fun skipping l => if skipping = true then l.dropWhile func else l) hup {
    nil := fun skipping => by cases skipping <;> rfl
    again := fun skipping a l ha => by
      by_cases hf : (skipping && func a) = true
      · rw [Bool.and_eq_true] at hf
        simp [hf.1, hf.2]
      · simp [hf] at ha
    deliver := fun skipping a l v ha => by
      by_cases hf : (skipping && func a) = true
      · simp [hf] at ha
      · rw [if_neg hf] at ha ⊢
        cases ha
        cases skipping with
        | false => exact ⟨rfl, rfl⟩
        | true =>
          have ha : func a = false := by simpa using hf
          simp [ha] }

/-! ### Inner streams -/

section

variable {up : AsyncStream α} {func : α → AsyncStream β} {rest : up.State →
    List α} {inner : ∀ a, (func a).State → List β}

def currentRest (inner : ∀ a, (func a).State → List β) : Option (Σ a, (func a).State) → List β
  | none => []
  | some ⟨a, c⟩ => inner a c

/-- **What is still to come of a `flat_map`**: the rest of the current stream, and all of those that the
upstream's rest will give. -/
def flatRest (rest : up.State → List α) (inner : ∀ a, (func a).State → List β)
    (st : up.State × Option (Σ a, (func a).State)) : List β :=
  currentRest inner st.2 ++ (rest st.1).flatMap fun a => inner a (func a).init

theorem flatPull_value (hup : Lawful up rest) (hinner : ∀ a, Lawful (func a) (inner a)) (k : Nat) :
    ∀ (s : up.State) (current : Option (Σ a, (func a).State)) (v : Option β) (st' : up.State × Option (Σ a,
      (func a).State))
      (left : Fin k), flatPull up func k s current = .value v st' left →
      v = (flatRest rest inner (s, current)).head? ∧ flatRest rest inner st' =
      (flatRest rest inner (s, current)).tail := by
  induction k using Nat.strongRecOn with
  | ind k ih =>
    intro s current v st' left hp
    cases current with
    | none =>
      rw [flatPull] at hp
      cases hu : up.pull s k with
      | stopped s' spent => rw [hu] at hp; cases hp
      | value w s' left' =>
        obtain ⟨hhead, htail⟩ := hup.value s k w s' left' hu
        rw [hu] at hp
        cases w with
        | none =>
          cases hp
          have hnil : rest s = [] := head?_eq_none_iff.1 hhead.symm
          simp only [flatRest, currentRest, htail, hnil]
          exact ⟨rfl, rfl⟩
        | some a =>
          obtain ⟨l, hl⟩ := head?_eq_some_iff.1 hhead.symm
          rw [hl, tail_cons] at htail
          obtain ⟨left'', hnext⟩ := Pull.weaken_eq_value hp
          have hih := ih left' left'.isLt _ _ _ _ _ hnext
          have heq : flatRest rest inner (s', some ⟨a, (func a).init⟩) = flatRest rest inner (s, none) := by
            simp only [flatRest, currentRest, htail, hl, flatMap_cons, nil_append]
          rw [heq] at hih
          exact hih
    | some current =>
      obtain ⟨a, c⟩ := current
      rw [flatPull] at hp
      cases hu : (func a).pull c k with
      | stopped c' spent => rw [hu] at hp; cases hp
      | value w c' left' =>
        obtain ⟨hhead, htail⟩ := (hinner a).value c k w c' left' hu
        rw [hu] at hp
        cases w with
        | none =>
          have hnil : inner a c = [] := head?_eq_none_iff.1 hhead.symm
          obtain ⟨left'', hnext⟩ := Pull.weaken_eq_value hp
          have hih := ih left' left'.isLt _ _ _ _ _ hnext
          have heq : flatRest rest inner (s, none) = flatRest rest inner (s, some ⟨a, c⟩) := by
            simp only [flatRest, currentRest, hnil]
          rw [heq] at hih
          exact hih
        | some b =>
          cases hp
          obtain ⟨l, hl⟩ := head?_eq_some_iff.1 hhead.symm
          simp only [flatRest, currentRest, htail, hl, cons_append]
          exact ⟨rfl, rfl⟩

theorem flatPull_stopped (hup : Lawful up rest) (hinner : ∀ a, Lawful (func a) (inner a)) (k : Nat) :
    ∀ (s : up.State) (current : Option (Σ a, (func a).State)) (st' : up.State × Option (Σ a, (func a).State)),
      flatPull up func k s current = .stopped st' false →
      flatRest rest inner st' = flatRest rest inner (s, current) := by
  induction k using Nat.strongRecOn with
  | ind k ih =>
    intro s current st' hp
    cases current with
    | none =>
      rw [flatPull] at hp
      cases hu : up.pull s k with
      | stopped s' spent =>
        rw [hu] at hp
        cases hp
        simp only [flatRest, hup.stopped s k s' hu]
      | value w s' left' =>
        obtain ⟨hhead, htail⟩ := hup.value s k w s' left' hu
        rw [hu] at hp
        cases w with
        | none => cases hp
        | some a =>
          obtain ⟨l, hl⟩ := head?_eq_some_iff.1 hhead.symm
          rw [hl, tail_cons] at htail
          rw [ih left' left'.isLt _ _ _ (Pull.weaken_eq_stopped hp)]
          simp only [flatRest, currentRest, htail, hl, flatMap_cons, nil_append]
    | some current =>
      obtain ⟨a, c⟩ := current
      rw [flatPull] at hp
      cases hu : (func a).pull c k with
      | stopped c' spent =>
        rw [hu] at hp
        cases hp
        simp only [flatRest, currentRest, (hinner a).stopped c k c' hu]
      | value w c' left' =>
        obtain ⟨hhead, htail⟩ := (hinner a).value c k w c' left' hu
        rw [hu] at hp
        cases w with
        | none =>
          have hnil : inner a c = [] := head?_eq_none_iff.1 hhead.symm
          rw [ih left' left'.isLt _ _ _ (Pull.weaken_eq_stopped hp)]
          simp only [flatRest, currentRest, hnil]
        | some b => cases hp

def FlatCompletes (up : AsyncStream α) (func : α → AsyncStream β) (s : up.State) (current : Option (Σ a,
    (func a).State)) :
    Prop :=
  ∃ (n : Nat) (v : Option β) (st' : up.State × Option (Σ a, (func a).State)), ∀ k, n ≤ k →
    ∃ left : Fin k, flatPull up func k s current = .value v st' left ∧ k ≤ left + n

theorem flatCompletes_some (hinner : ∀ a, Lawful (func a) (inner a)) {s : up.State}
    (h : FlatCompletes up func s none)
    (a : α) (c : (func a).State) : FlatCompletes up func s (some ⟨a, c⟩) := by
  obtain ⟨n, w, c', hu⟩ := (hinner a).completes c
  cases w with
  | some b =>
    refine ⟨n, some b, (s, some ⟨a, c'⟩), fun k hk => ?_⟩
    obtain ⟨left, hleft, hle⟩ := hu k hk
    exact ⟨left, by rw [flatPull, hleft], hle⟩
  | none =>
    obtain ⟨n', v, st', hn⟩ := h
    refine ⟨n + n', v, st', fun k hk => ?_⟩
    obtain ⟨left, hleft, hle⟩ := hu k (by omega)
    obtain ⟨left', hleft', hle'⟩ := hn left (by omega)
    refine ⟨left'.castLE left.is_le', ?_, ?_⟩
    · rw [flatPull, hleft]
      exact congrArg (Pull.weaken left.is_le') hleft'
    · rw [Fin.val_castLE]
      omega

theorem flatCompletes_none (hup : Lawful up rest) (hinner : ∀ a, Lawful (func a) (inner a)) (l : List α) :
    ∀ s : up.State, rest s = l → FlatCompletes up func s none := by
  induction l with
  | nil =>
    intro s hl
    obtain ⟨n, w, s', hu⟩ := hup.completes s
    refine ⟨n, none, (s', none), fun k hk => ?_⟩
    obtain ⟨left, hleft, hle⟩ := hu k hk
    have hw : w = none := by
      rw [(hup.value s k w s' left hleft).1, hl]
      rfl
    exact ⟨left, by rw [flatPull, hleft, hw], hle⟩
  | cons a l ih =>
    intro s hl
    obtain ⟨n, w, s', hu⟩ := hup.completes s
    obtain ⟨left₀, hleft₀, _⟩ := hu n (Nat.le_refl n)
    obtain ⟨hhead, htail⟩ := hup.value s n w s' left₀ hleft₀
    rw [hl] at hhead htail
    obtain ⟨n', v, st', hn⟩ := flatCompletes_some hinner (ih s' htail) a (func a).init
    refine ⟨n + n', v, st', fun k hk => ?_⟩
    obtain ⟨left, hleft, hle⟩ := hu k (by omega)
    obtain ⟨left', hleft', hle'⟩ := hn left (by omega)
    refine ⟨left'.castLE left.is_le', ?_, ?_⟩
    · rw [flatPull, hleft, hhead]
      exact congrArg (Pull.weaken left.is_le') hleft'
    · rw [Fin.val_castLE]
      omega

theorem flatMap_lawful (hup : Lawful up rest) (hinner : ∀ a, Lawful (func a) (inner a)) :
    Lawful (flatMapStream up func) (flatRest rest inner) where
  value st k v st' left hp := by
    cases k with
    | zero => exact left.elim0
    | succ k =>
      obtain ⟨left', hp⟩ := Pull.weaken_eq_value hp
      exact flatPull_value hup hinner k st.1 st.2 v st' left' hp
  stopped st k st' hp := by
    cases k with
    | zero => cases hp; rfl
    | succ k => exact flatPull_stopped hup hinner k st.1 st.2 st' (Pull.weaken_eq_stopped hp)
  next _ _ := rfl
  completes := by
    rintro ⟨s, current⟩
    have h : FlatCompletes up func s current := by
      cases current with
      | none => exact flatCompletes_none hup hinner (rest s) s rfl
      | some current => exact flatCompletes_some hinner (flatCompletes_none hup hinner
          (rest s) s rfl) current.1 current.2
    obtain ⟨n, v, st', hn⟩ := h
    refine ⟨n + 1, v, st', fun k hk => ?_⟩
    obtain ⟨k, rfl⟩ := Nat.exists_eq_succ_of_ne_zero (Nat.ne_zero_of_lt hk)
    obtain ⟨left, hleft, hle⟩ := hn k (Nat.le_of_succ_le_succ hk)
    refine ⟨left.castLE k.le_succ, ?_, Nat.succ_le_succ hle⟩
    exact congrArg (Pull.weaken k.le_succ) hleft

end

/-! ### Two upstreams -/

section

variable {first : AsyncStream α} {second : AsyncStream β} {rest₁ : first.State →
    List α} {rest₂ : second.State → List β}

theorem zip_value (h₁ : Lawful first rest₁) (h₂ : Lawful second rest₂) (k : Nat)
    (st : first.State × second.State)
    (v : Option (α × β)) (st' : first.State × second.State) (left : Fin (k + 1))
    (hp : (zipStream first second).pull st (k + 1) = .value v st' left) :
    v = ((rest₁ st.1).zip (rest₂ st.2)).head? ∧
      (rest₁ st'.1).zip (rest₂ st'.2) = ((rest₁ st.1).zip (rest₂ st.2)).tail := by
  simp only [zipStream] at hp
  cases hu : first.pull st.1 k with
  | stopped a spent => rw [hu] at hp; cases hp
  | value w a left₁ =>
    obtain ⟨hhead, htail⟩ := h₁.value st.1 k w a left₁ hu
    rw [hu] at hp
    cases w with
    | none =>
      cases hp
      have hnil : rest₁ st.1 = [] := head?_eq_none_iff.1 hhead.symm
      rw [htail, hnil]
      exact ⟨rfl, rfl⟩
    | some x =>
      obtain ⟨l, hl⟩ := head?_eq_some_iff.1 hhead.symm
      dsimp only at hp
      cases hu₂ : second.pull st.2 left₁ with
      | stopped b spent => rw [hu₂] at hp; cases hp
      | value w₂ b left₂ =>
        obtain ⟨hhead₂, htail₂⟩ := h₂.value st.2 left₁ w₂ b left₂ hu₂
        rw [hu₂] at hp
        cases w₂ with
        | none =>
          cases hp
          have hnil : rest₂ st.2 = [] := head?_eq_none_iff.1 hhead₂.symm
          simp only [htail₂, hnil, tail_nil, zip_nil_right]
          exact ⟨rfl, trivial⟩
        | some y =>
          cases hp
          obtain ⟨l₂, hl₂⟩ := head?_eq_some_iff.1 hhead₂.symm
          simp only [htail, hl, htail₂, hl₂]
          exact ⟨rfl, rfl⟩

theorem zip_stopped (h₁ : Lawful first rest₁) (k : Nat) (st st' : first.State × second.State)
    (hp : (zipStream first second).pull st (k + 1) = .stopped st' false) :
    (rest₁ st'.1).zip (rest₂ st'.2) = (rest₁ st.1).zip (rest₂ st.2) := by
  simp only [zipStream] at hp
  cases hu : first.pull st.1 k with
  | stopped a spent =>
    rw [hu] at hp
    cases hp
    simp only [h₁.stopped st.1 k a hu]
  | value w a left₁ =>
    rw [hu] at hp
    cases w with
    | none => cases hp
    | some x =>
      -- with the first item in hand a stop is not free
      dsimp only at hp
      cases hu₂ : second.pull st.2 left₁ with
      | stopped b spent => rw [hu₂] at hp; cases hp
      | value w₂ b left₂ => rw [hu₂] at hp; cases w₂ <;> cases hp

theorem zip_completes (h₁ : Lawful first rest₁) (h₂ : Lawful second rest₂) (st : first.State × second.State) :
    ∃ (n : Nat) (v : Option (α × β)) (st' : first.State × second.State), ∀ k, n ≤ k →
      ∃ left : Fin k, (zipStream first second).pull st k = .value v st' left ∧ k ≤ left + n := by
  obtain ⟨n₁, w₁, a, hu₁⟩ := h₁.completes st.1
  cases w₁ with
  | none =>
    refine ⟨n₁ + 1, none, (a, st.2), fun k hk => ?_⟩
    obtain ⟨k, rfl⟩ := Nat.exists_eq_succ_of_ne_zero (Nat.ne_zero_of_lt hk)
    obtain ⟨left, hleft, hle⟩ := hu₁ k (Nat.le_of_succ_le_succ hk)
    refine ⟨left.castSucc, ?_, Nat.succ_le_succ hle⟩
    simp only [zipStream, hleft]
  | some x =>
    obtain ⟨n₂, w₂, b, hu₂⟩ := h₂.completes st.2
    refine ⟨n₁ + n₂ + 1, w₂.map (x, ·), (a, b), fun k hk => ?_⟩
    obtain ⟨k, rfl⟩ := Nat.exists_eq_succ_of_ne_zero (Nat.ne_zero_of_lt hk)
    obtain ⟨left₁, hleft₁, hle₁⟩ := hu₁ k (by omega)
    obtain ⟨left₂, hleft₂, hle₂⟩ := hu₂ left₁ (by omega)
    refine ⟨left₂.castLE (Nat.le_succ_of_le left₁.is_le'), ?_, ?_⟩
    · cases w₂ <;> simp only [zipStream, hleft₁, hleft₂] <;> rfl
    · rw [Fin.val_castLE]
      omega

theorem zip_lawful (h₁ : Lawful first rest₁) (h₂ : Lawful second rest₂) :
    Lawful (zipStream first second) fun st => (rest₁ st.1).zip (rest₂ st.2) where
  value st k v st' left hp := by
    cases k with
    | zero => exact left.elim0
    | succ k => exact zip_value h₁ h₂ k st v st' left hp
  stopped st k st' hp := by
    cases k with
    | zero => cases hp; rfl
    | succ k => exact zip_stopped h₁ k st st' hp
  next _ _ := rfl
  completes := zip_completes h₁ h₂

end

end ClashNative.Async
