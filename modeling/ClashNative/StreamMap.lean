import ClashNative.Runs
import ClashNative.Tally
/-!
# StreamMap — one pull on every source, one winner

`StreamMap` of `async_stream.hpp`.  A `next()` starts a pull on every source; the first value or error
decides it, and so does the last of the ends.  The decider takes the other pulls out of the shared state,
destroys them and completes the receiver: until it has, another thread may still complete one of them.
-/
namespace ClashNative.StreamMap

open List

variable {α : Type}

structure Entry (α : Type) where
  key : String
  items : List α
  deriving DecidableEq, Repr

structure Sources (α : Type) where
  entries : List (Entry α)
  keys : (entries.map Entry.key).Nodup

namespace Sources

def empty : Sources α := ⟨[], List.nodup_nil⟩

def remove (m : Sources α) (key : String) : Sources α where
  entries := m.entries.filter fun e => e.key ≠ key
  keys := List.Nodup.sublist (List.Sublist.map _ List.filter_sublist) m.keys

/-- `insert`: what was registered under the key goes. -/
def insert (m : Sources α) (key : String) (items : List α) : Sources α where
  entries := (m.remove key).entries ++ [⟨key, items⟩]
  keys := by
    rw [List.map_append]
    refine List.nodup_append.2 ⟨(m.remove key).keys, List.nodup_singleton key, ?_⟩
    intro k hk k' hk' hkk'
    obtain ⟨e, he, rfl⟩ := List.mem_map.1 hk
    have hne : e.key ≠ key := by simpa using (List.mem_filter.1 he).2
    rw [List.map_cons, List.map_nil, List.mem_singleton] at hk'
    exact hne (hkk'.trans hk')

end Sources

inductive Result (α : Type)
  | value (key : String) (item : α)
  | ended
  | error
  | stopped
  deriving DecidableEq, Repr

inductive Outcome
  | value
  | ended
  | error
  | stopped
  deriving DecidableEq, Repr

/-- **A `next()` that is outstanding.**  `loop` are the entries that `start()` has not got to, and
`admitted` says that it has looked at the outcome for the first of them; `result` is what it was decided
to, and `losers` are the pulls that the decider took. -/
structure Round (α : Type) where
  total : Nat
  loop : List Nat
  admitted : Bool := false
  finished : Nat := 0
  pending : List Nat := []
  result : Option (Result α) := none
  losers : List Nat := []
  deriving DecidableEq, Repr

namespace Round

/-- The claim: the outcome, and the pulls that are still pending go to the decider. -/
def decide (r : Round α) (result : Result α) : Round α :=
  { r with result := some result, losers := r.pending, pending := [] }

/-- `on_value`, of the pull on `i`, with what it delivers. -/
def onValue (r : Round α) (i : Nat) (item : Option (String × α)) : Round α :=
  let r := { r with pending := r.pending.erase i }
  match item with
  | some (key, a) => r.decide (.value key a)
  | none =>
    let r := { r with finished := r.finished + 1 }
    if r.total ≤ r.finished then r.decide .ended else r

def onError (r : Round α) (i : Nat) : Round α := { r with pending := r.pending.erase i }.decide .error

def onStopped (r : Round α) (i : Nat) : Round α := { r with pending := r.pending.erase i }

end Round

/-- The map and its consumer.  `orphans` are pulls that no decider knows; `calls` counts the `next()`s,
and `results` are what the completed ones gave. -/
structure State (α : Type) where
  entries : List (Entry α)
  round : Option (Round α) := none
  orphans : List Nat := []
  calls : Nat := 0
  results : List (Result α) := []
  deriving DecidableEq, Repr

namespace State

def next (s : State α) : State α :=
  match s.round with
  | some _ => s
  | none =>
    let s := { s with calls := s.calls + 1 }
    if s.entries = [] then { s with results := s.results ++ [.ended] }
    else { s with round := some { total := s.entries.length, loop := List.range s.entries.length } }

/-- The loop of `start()` looks at the outcome, for its next entry. -/
def check (s : State α) : State α :=
  match s.round with
  | none => s
  | some r =>
    if r.result.isSome then { s with round := some { r with loop := [], admitted := false } }
    else if r.loop = [] then s
    else { s with round := some { r with admitted := true } }

def startPull (s : State α) : State α :=
  match s.round with
  | none => s
  | some r =>
    match r.loop with
    | [] => s
    | i :: loop =>
      if r.admitted = false then s
      else if r.result.isSome then
        { s with round := some { r with loop, admitted := false }, orphans := i :: s.orphans }
      else { s with round := some { r with loop, admitted := false, pending := r.pending ++ [i] } }

/-- Whether the pull on the source `i` can complete so, with the item that it takes and the sources behind
it. -/
def pulled (s : State α) (i : Nat) (o : Outcome) : Option (Option (String × α) × List (Entry α)) :=
  match s.entries[i]? with
  | none => none
  | some e =>
    match o, e.items with
    | .value, [] => none
    | .value, a :: items => some (some (e.key, a), s.entries.set i { e with items })
    | .ended, [] => some (none, s.entries)
    | .ended, _ :: _ => none
    | .error, _ => some (none, s.entries)
    | .stopped, _ => some (none, s.entries)

def Stray (s : State α) (i : Nat) : Prop := i ∈ s.orphans ∨ ∃ r ∈ s.round, i ∈ r.losers

instance (s : State α) (i : Nat) : Decidable (s.Stray i) := inferInstanceAs (Decidable (_ ∨ _))

/-- A pull completes; a stray one finds the outcome decided, and what it took goes with it. -/
def complete (s : State α) (i : Nat) (o : Outcome) : State α :=
  match s.pulled i o with
  | none => s
  | some (item, entries) =>
    if s.Stray i then { s with entries, orphans := s.orphans.erase i }
    else
      match s.round with
      | none => s
      | some r =>
        if r.result.isSome ∨ i ∉ r.pending then s
        else
          match o with
          | .value | .ended => { s with entries, round := some (r.onValue i item) }
          | .error => { s with round := some (r.onError i) }
          | .stopped => { s with round := some (r.onStopped i) }

def stop (s : State α) : State α :=
  match s.round with
  | none => s
  | some r => if r.result.isSome then s else { s with round := some (r.decide .stopped) }

/-- The decider destroys the losers and completes the receiver; an entry that was let in is started all
the same. -/
def deliver (s : State α) : State α :=
  match s.round with
  | none => s
  | some r =>
    match r.result with
    | none => s
    | some result =>
      { s with
        round := none
        results := s.results ++ [result]
        orphans := if r.admitted then r.loop.take 1 ++ s.orphans else s.orphans }

end State

inductive Event
  | next
  | check
  | startPull
  | complete (i : Nat) (o : Outcome)
  | stop
  | deliver
  deriving DecidableEq, Repr

def step (s : State α) : Event → State α
  | .next => s.next
  | .check => s.check
  | .startPull => s.startPull
  | .complete i o => s.complete i o
  | .stop => s.stop
  | .deliver => s.deliver

/-- **A pull of every source's that the map can count**: none completes for a decider that has taken it,
no outcome is decided between the look at it and the start of a pull, and the last pull of a `next()` does
not end, or get stopped, on one of which some were stopped. -/
def Calm (s : State α) : Event → Prop
  | .complete i o =>
    ¬ s.Stray i ∧ ∀ r ∈ s.round, (o = .value ∨ o = .error → r.admitted = false) ∧
      (o = .ended ∨ o = .stopped → i ∈ r.pending → r.pending.erase i = [] → r.loop = [] →
        o = .ended ∧ r.total ≤ r.finished + 1)
  | .stop => ∀ r ∈ s.round, r.admitted = false
  | _ => True

instance (s : State α) : (e : Event) → Decidable (Calm s e)
  | .complete _ _ => inferInstanceAs (Decidable (_ ∧ _))
  | .stop => inferInstanceAs (Decidable (∀ r ∈ s.round, r.admitted = false))
  | .next | .check | .startPull | .deliver => .isTrue trivial

/-! ### The invariant -/

def valuesOf (key : String) (results : List (Result α)) : List α :=
  results.filterMap fun
    | .value k a => if k = key then some a else none
    | _ => none

def State.told (s : State α) : List (Result α) := s.results ++ (s.round.bind Round.result).toList

/-- **A racing `next()`.**  Some entry or pull is still open; and `finished` counts sources that have
ended. -/
structure Racing (entries : List (Entry α)) (r : Round α) : Prop where
  waiting : r.loop ≠ [] ∨ r.pending ≠ []
  nodup : (r.pending ++ r.loop).Nodup
  total : r.total = entries.length
  losers : r.losers = []
  looped : ∀ j ∈ r.loop, j < entries.length
  admitted : r.admitted = true → r.loop ≠ []
  counted : ∃ ended : List Nat, ended.Nodup ∧ ended.length = r.finished ∧
    ∀ i ∈ ended, i ∉ r.pending ∧ i ∉ r.loop ∧ ∃ e, entries[i]? = some e ∧ e.items = []

structure Inv (m : Sources α) (s : State α) : Prop where
  once : s.results.length + (if s.round.isSome then 1 else 0) = s.calls
  orphans : s.orphans = []
  racing : ∀ r ∈ s.round, r.result = none → Racing s.entries r
  decided : ∀ r ∈ s.round, r.result.isSome → r.admitted = false ∧ r.pending = []
  length : s.entries.length = m.entries.length
  conserved : ∀ (i : Nat) (e₀ e : Entry α), m.entries[i]? = some e₀ → s.entries[i]? = some e →
    e.key = e₀.key ∧ valuesOf e₀.key s.told ++ e.items = e₀.items
  exhausted : Result.ended ∈ s.told → ∀ e ∈ s.entries, e.items = []

theorem init_inv (m : Sources α) : Inv m { entries := m.entries } where
  once := rfl
  orphans := rfl
  racing := nofun
  decided := nofun
  length := rfl
  conserved i e₀ e he₀ he := by
    rw [he₀] at he
    cases he
    exact ⟨rfl, rfl⟩
  exhausted h := absurd h not_mem_nil

variable {m : Sources α} {s : State α}

theorem valuesOf_append (key : String) (l l' : List (Result α)) :
    valuesOf key (l ++ l') = valuesOf key l ++ valuesOf key l' := filterMap_append

theorem valuesOf_value_self (key : String) (a : α) : valuesOf key [.value key a] = [a] := by
  simp [valuesOf]

theorem valuesOf_value_ne {key k : String} (h : k ≠ key) (a : α) : valuesOf key [.value k a] = [] := by
  simp [valuesOf, h]

variable {i : Nat} {ended : List Nat}

theorem mem_of_nodup_of_length {n : Nat} (hnodup : ended.Nodup) (hlen : n ≤ ended.length)
    (hlt : ∀ j ∈ ended, j < n) (hi : i < n) : i ∈ ended := by
  have hsub : ended ⊆ List.range n := fun j hj => mem_range.2 (hlt j hj)
  have hperm := (subperm_of_subset hnodup hsub).perm_of_length_le (by rw [length_range]; exact hlen)
  exact hperm.mem_iff.2 (mem_range.2 hi)

variable {entries : List (Entry α)}

theorem Racing.all_ended (hnodup : ended.Nodup)
    (hlen : entries.length ≤ ended.length) (hended : ∀ i ∈ ended, ∃ e, entries[i]? = some e ∧ e.items = []) :
    ∀ e ∈ entries, e.items = [] := by
  intro e he
  obtain ⟨i, hi, hie⟩ := getElem_of_mem he
  have hmem := mem_of_nodup_of_length hnodup hlen
    (fun j hj => by
      obtain ⟨e', he', _⟩ := hended j hj
      exact (List.getElem?_eq_some_iff.1 he').1) hi
  obtain ⟨e', he', hitems⟩ := hended i hmem
  rw [getElem?_eq_getElem hi, hie] at he'
  cases he'
  exact hitems

/-! ### The steps -/

theorem Inv.next (h : Inv m s) : Inv m s.next := by
  unfold State.next
  cases hr : s.round with
  | some r => exact h
  | none =>
    have honce := h.once
    rw [hr] at honce
    have htold : s.told = s.results := by
      unfold State.told
      rw [hr]
      exact append_nil _
    dsimp only
    split
    · rename_i hnil
      exact { h with
        once := by
          rw [length_append, ← honce]
          rfl
        racing := nofun
        decided := nofun
        conserved := fun i e₀ e _ he => by
          rw [hnil] at he
          cases he
        exhausted := fun _ e he => by
          rw [hnil] at he
          cases he }
    · rename_i hne
      have hlen : 0 < s.entries.length := length_pos_iff.2 hne
      exact { h with
        once := by
          rw [← honce]
          rfl
        racing := fun r hr' _ => by
          cases hr'
          exact {
            waiting := .inl fun hnil => by
              have hlen' := congrArg List.length hnil
              rw [length_range, length_nil] at hlen'
              omega
            nodup := nodup_range
            total := rfl
            losers := rfl
            looped := fun j hj => mem_range.1 hj
            admitted := nofun
            counted := ⟨[], nodup_nil, rfl, nofun⟩ }
        decided := fun r hr' hres => by
          cases hr'
          cases hres
        conserved := fun i e₀ e he₀ he => by
          have hc := h.conserved i e₀ e he₀ he
          rw [htold] at hc
          exact ⟨hc.1, (congrArg (valuesOf e₀.key · ++ e.items) (append_nil s.results)).trans hc.2⟩
        exhausted := fun hm e he => by
          refine h.exhausted ?_ e he
          rw [htold]
          exact (append_nil s.results) ▸ hm }

variable {r r' : Round α}

theorem Inv.setRound (h : Inv m s) (hr : s.round = some r) (hresult : r'.result = r.result)
    (hracing : r'.result = none → Racing s.entries r')
    (hdecided : r'.result.isSome → r'.admitted = false ∧
      r'.pending = []) : Inv m { s with round := some r' } := by
  have htold : State.told { s with round := some r' } = s.told := by
    unfold State.told
    rw [hr]
    show s.results ++ r'.result.toList = s.results ++ r.result.toList
    rw [hresult]
  have honce := h.once
  rw [hr] at honce
  exact { h with
    once := honce
    racing := fun r'' hr'' hn => by cases hr''; exact hracing hn
    decided := fun r'' hr'' hs => by cases hr''; exact hdecided hs
    conserved := fun i e₀ e he₀ he => by rw [htold]; exact h.conserved i e₀ e he₀ he
    exhausted := fun hm => by rw [htold] at hm; exact h.exhausted hm }

theorem Inv.check (h : Inv m s) : Inv m s.check := by
  unfold State.check
  split
  · exact h
  · rename_i r hr
    split
    · rename_i hs
      exact h.setRound hr rfl (fun hn => absurd hs (by rw [Option.not_isSome_iff_eq_none]; exact hn))
        fun _ => ⟨rfl, (h.decided r hr hs).2⟩
    · rename_i hn
      have hn : r.result = none := Option.not_isSome_iff_eq_none.1 hn
      split
      · exact h
      · rename_i hl
        have hracing := h.racing r hr hn
        exact h.setRound hr rfl (fun _ => { hracing with admitted := fun _ => hl }) fun hs => by
          have hs' : r.result.isSome = true := hs
          rw [hn] at hs'
          cases hs'

theorem Inv.startPull (h : Inv m s) : Inv m s.startPull := by
  unfold State.startPull
  split
  · exact h
  · rename_i r hr
    split
    · exact h
    · rename_i i loop hl
      split
      · exact h
      · rename_i ha
        split
        · rename_i hs
          exact absurd (h.decided r hr hs).1 ha
        · rename_i hn
          have hn : r.result = none := Option.not_isSome_iff_eq_none.1 hn
          have hracing := h.racing r hr hn
          have hperm : (r.pending ++ [i] ++ loop).Nodup := by
            have hnodup := hracing.nodup
            rw [hl] at hnodup
            rw [append_assoc]
            exact hnodup
          obtain ⟨ended, hnodup, hlen, hended⟩ := hracing.counted
          refine h.setRound hr rfl (fun _ => ?_) fun hs => ?_
          · exact {
              waiting := .inr (append_ne_nil_of_right_ne_nil _ (cons_ne_nil i []))
              nodup := hperm
              total := hracing.total
              losers := hracing.losers
              looped := fun j hj => hracing.looped j (by rw [hl]; exact mem_cons_of_mem i hj)
              admitted := nofun
              counted := by
                refine ⟨ended, hnodup, hlen, fun j hj => ?_⟩
                obtain ⟨hp, hnl, he⟩ := hended j hj
                rw [hl, mem_cons, not_or] at hnl
                refine ⟨fun hmem => ?_, hnl.2, he⟩
                rcases mem_append.1 hmem with hmem | hmem
                · exact hp hmem
                · exact hnl.1 (mem_singleton.1 hmem) }
          · have hs' : r.result.isSome = true := hs
            rw [hn] at hs'
            cases hs'

variable {result : Result α}

theorem Inv.decide (h : Inv m s) (hr : s.round = some r)
    (hn : r.result = none) (hresult : r'.result = some result) (hadmitted : r'.admitted = false)
    (hpending : r'.pending = [])
    (hlen : entries.length = s.entries.length)
    (hconserved : ∀ (i : Nat) (e : Entry α) (e' : Entry α), s.entries[i]? = some e → entries[i]? = some e' →
      e'.key = e.key ∧ valuesOf e.key [result] ++ e'.items = e.items)
    (hexhausted : result = .ended → ∀ e ∈ entries, e.items = [])
    (hpopped : (∀ e ∈ s.entries, e.items = []) → ∀ e ∈ entries, e.items = []) :
    Inv m { s with entries, round := some r' } := by
  have htold : State.told { s with entries, round := some r' } = s.told ++ [result] := by
    unfold State.told
    rw [hr]
    show s.results ++ r'.result.toList = (s.results ++ r.result.toList) ++ [result]
    rw [hresult, hn]
    simp
  have honce := h.once
  rw [hr] at honce
  exact {
    once := honce
    orphans := h.orphans
    racing := fun r'' hr'' hn' => by cases hr''; rw [hresult] at hn'; cases hn'
    decided := fun r'' hr'' _ => by cases hr''; exact ⟨hadmitted, hpending⟩
    length := hlen.trans h.length
    conserved := fun i e₀ e' he₀ he' => by
      have hi : i < m.entries.length := (List.getElem?_eq_some_iff.1 he₀).1
      have hi' : i < s.entries.length := by rw [h.length]; exact hi
      have he := getElem?_eq_getElem hi'
      obtain ⟨hkey, hitems⟩ := h.conserved i e₀ _ he₀ he
      obtain ⟨hkey', hitems'⟩ := hconserved i _ e' he he'
      refine ⟨hkey'.trans hkey, ?_⟩
      rw [htold, valuesOf_append, append_assoc, ← hkey, hitems', hkey]
      exact hitems
    exhausted := fun hm => by
      rw [htold, mem_append, mem_singleton] at hm
      rcases hm with hm | hm
      · exact hpopped (h.exhausted hm)
      · exact hexhausted hm.symm }

variable {e : Entry α}

theorem Inv.key_ne (h : Inv m s) {j : Nat} {e' : Entry α} (he : s.entries[i]? = some e)
    (he' : s.entries[j]? = some e')
    (hij : i ≠ j) : e.key ≠ e'.key := by
  have hi : i < m.entries.length := by rw [← h.length]; exact (List.getElem?_eq_some_iff.1 he).1
  have hj : j < m.entries.length := by rw [← h.length]; exact (List.getElem?_eq_some_iff.1 he').1
  intro hkey
  rw [(h.conserved i _ e (getElem?_eq_getElem hi) he).1,
    (h.conserved j _ e' (getElem?_eq_getElem hj) he').1] at hkey
  refine hij ((getElem?_inj (by rw [length_map]; exact hi) m.keys).1 ?_)
  rw [getElem?_map, getElem?_map, getElem?_eq_getElem hi, getElem?_eq_getElem hj, Option.map_some,
    Option.map_some, hkey]

theorem Inv.decide_same (h : Inv m s) (hr : s.round = some r) (hn : r.result = none)
    (hresult : r'.result = some result) (hadmitted : r'.admitted = false) (hpending : r'.pending = [])
    (hvalue : ∀ key, valuesOf key [result] = []) (hexhausted : result = .ended → ∀ e ∈ s.entries, e.items = []) :
    Inv m { s with round := some r' } :=
  h.decide hr hn hresult hadmitted hpending rfl
    (fun i e e' he he' => by
      rw [he] at he'
      cases he'
      rw [hvalue]
      exact ⟨rfl, rfl⟩) hexhausted fun hall => hall

theorem Inv.stop (h : Inv m s) (hc : Calm s .stop) : Inv m s.stop := by
  unfold State.stop
  split
  · exact h
  · rename_i r hr
    split
    · exact h
    · rename_i hn
      exact h.decide_same hr (Option.not_isSome_iff_eq_none.1 hn) rfl (hc r hr) rfl (fun _ => rfl) nofun

theorem Inv.deliver (h : Inv m s) : Inv m s.deliver := by
  unfold State.deliver
  split
  · exact h
  · rename_i r hr
    split
    · exact h
    · rename_i result hres
      have ha : r.admitted = false := (h.decided r hr (by rw [hres]; rfl)).1
      have htold : s.told = s.results ++ [result] := by
        unfold State.told
        rw [hr]
        show s.results ++ r.result.toList = _
        rw [hres]
        rfl
      have honce := h.once
      rw [hr] at honce
      exact {
        once := by
          rw [length_append, ← honce]
          rfl
        orphans := by
          rw [ha]
          exact h.orphans
        racing := nofun
        decided := nofun
        length := h.length
        conserved := fun i e₀ e he₀ he => by
          have hc := h.conserved i e₀ e he₀ he
          rw [htold] at hc
          exact ⟨hc.1, (congrArg (valuesOf e₀.key · ++ e.items) (append_nil _)).trans hc.2⟩
        exhausted := fun hm => h.exhausted (by
          rw [htold]
          exact (append_nil (s.results ++ [result])) ▸ hm) }

/-! ### A pull completes -/

variable {o : Outcome}

theorem pulled_eq_some {item : Option (String × α)}
    (hp : s.pulled i o = some (item, entries)) : ∃ e, s.entries[i]? = some e ∧
      match o with
      | .value => ∃ a items, e.items = a :: items ∧ item = some (e.key, a) ∧
          entries = s.entries.set i { e with items }
      | .ended => e.items = [] ∧ item = none ∧ entries = s.entries
      | .error | .stopped => item = none ∧ entries = s.entries := by
  unfold State.pulled at hp
  split at hp
  · cases hp
  · rename_i e he
    refine ⟨e, he, ?_⟩
    cases o with
    | value =>
      cases hitems : e.items with
      | nil => rw [hitems] at hp; cases hp
      | cons a items =>
        rw [hitems] at hp
        cases hp
        exact ⟨a, items, rfl, rfl, rfl⟩
    | ended =>
      cases hitems : e.items with
      | nil =>
        rw [hitems] at hp
        cases hp
        exact ⟨rfl, rfl, rfl⟩
      | cons a items => rw [hitems] at hp; cases hp
    | error =>
      cases hp
      exact ⟨rfl, rfl⟩
    | stopped =>
      cases hp
      exact ⟨rfl, rfl⟩

theorem Racing.erase (h : Racing entries r) (i : Nat)
    (hwaiting : r.loop ≠ [] ∨ r.pending.erase i ≠ []) : Racing entries
    { r with pending := r.pending.erase i } where
  waiting := hwaiting
  nodup := h.nodup.sublist (List.Sublist.append (erase_sublist) (List.Sublist.refl r.loop))
  total := h.total
  losers := h.losers
  looped := h.looped
  admitted := h.admitted
  counted := by
    obtain ⟨ended, hnodup, hlen, hended⟩ := h.counted
    refine ⟨ended, hnodup, hlen, fun j hj => ?_⟩
    obtain ⟨hp, hl, he⟩ := hended j hj
    exact ⟨fun hmem => hp (mem_of_mem_erase hmem), hl, he⟩

theorem Racing.count (h : Racing entries r) (hi : i ∈ r.pending)
    (he : entries[i]? = some e) (hitems : e.items = []) :
    ∃ ended : List Nat, ended.Nodup ∧ ended.length = r.finished + 1 ∧
      ∀ j ∈ ended, j ∉ r.pending.erase i ∧ j ∉ r.loop ∧ ∃ e', entries[j]? = some e' ∧ e'.items = [] := by
  obtain ⟨ended, hnodup, hlen, hended⟩ := h.counted
  obtain ⟨hpn, _, hdisj⟩ := nodup_append.1 h.nodup
  refine ⟨i :: ended, nodup_cons.2 ⟨fun hmem => (hended i hmem).1 hi, hnodup⟩, ?_, fun j hj => ?_⟩
  · rw [length_cons, hlen]
  · rcases mem_cons.1 hj with rfl | hj
    · exact ⟨hpn.not_mem_erase, fun hl => hdisj j hi j hl rfl, e, he, hitems⟩
    · obtain ⟨hp, hl, he'⟩ := hended j hj
      exact ⟨fun hmem => hp (mem_of_mem_erase hmem), hl, he'⟩

theorem Inv.complete (h : Inv m s) (hc : Calm s (.complete i o)) : Inv m (s.complete i o) := by
  unfold State.complete
  split
  · exact h
  · rename_i item entries hp
    obtain ⟨hstray, hcalm⟩ := hc
    rw [if_neg hstray]
    obtain ⟨e, he, hpulled⟩ := pulled_eq_some hp
    split
    · exact h
    · rename_i r hr
      split
      · exact h
      · rename_i hout
        rw [not_or, not_not] at hout
        obtain ⟨hn, hi⟩ := hout
        have hn : r.result = none := Option.not_isSome_iff_eq_none.1 hn
        have hracing := h.racing r hr hn
        have hcalm := hcalm r hr
        cases o with
        | value =>
          obtain ⟨a, items, hitems, rfl, rfl⟩ := hpulled
          refine h.decide hr hn rfl (hcalm.1 (.inl rfl)) rfl length_set
            (fun j e₁ e₂ he₁ he₂ => ?_) nofun fun hall => ?_
          · by_cases hij : i = j
            · subst hij
              rw [he] at he₁
              cases he₁
              rw [getElem?_set_self (List.getElem?_eq_some_iff.1 he).1] at he₂
              cases he₂
              refine ⟨rfl, ?_⟩
              rw [valuesOf_value_self, hitems]
              rfl
            · rw [getElem?_set_ne hij, he₁] at he₂
              cases he₂
              rw [valuesOf_value_ne (h.key_ne he he₁ hij)]
              exact ⟨rfl, rfl⟩
          · have hnil := hall e (mem_of_getElem? he)
            rw [hitems] at hnil
            cases hnil
        | ended =>
          obtain ⟨hitems, rfl, rfl⟩ := hpulled
          obtain ⟨ended, hnodup, hlen, hended⟩ := hracing.count hi he hitems
          unfold Round.onValue
          dsimp only
          split
          · rename_i htotal
            -- an entry that is let in is one that has not ended
            have hadmitted : r.admitted = false := by
              by_contra ha
              rw [Bool.not_eq_false] at ha
              obtain ⟨j, hj⟩ := exists_mem_of_ne_nil _ (hracing.admitted ha)
              refine (hended j ?_).2.1 hj
              refine mem_of_nodup_of_length hnodup ?_ (fun j' hj' => ?_) (hracing.looped j hj)
              · rw [hlen, ← hracing.total]
                exact htotal
              · obtain ⟨e', he', _⟩ := (hended j' hj').2.2
                exact (List.getElem?_eq_some_iff.1 he').1
            refine h.decide_same hr hn rfl hadmitted rfl (fun _ => rfl) fun _ => ?_
            refine Racing.all_ended hnodup ?_ fun j hj => (hended j hj).2.2
            rw [hlen, ← hracing.total]
            exact htotal
          · rename_i htotal
            have hwaiting : r.loop ≠ [] ∨ r.pending.erase i ≠ [] := by
              by_contra hnone
              rw [not_or, not_not, not_not] at hnone
              exact htotal (hcalm.2 (.inl rfl) hi hnone.2 hnone.1).2
            refine h.setRound hr rfl (fun _ => ?_) fun hs => ?_
            · exact { hracing.erase i hwaiting with counted := ⟨ended, hnodup, hlen, hended⟩ }
            · have hs' : r.result.isSome = true := hs
              rw [hn] at hs'
              cases hs'
        | error =>
          exact h.decide_same hr hn rfl (hcalm.1 (.inr rfl)) rfl (fun _ => rfl) nofun
        | stopped =>
          have hwaiting : r.loop ≠ [] ∨ r.pending.erase i ≠ [] := by
            by_contra hnone
            rw [not_or, not_not, not_not] at hnone
            cases (hcalm.2 (.inr rfl) hi hnone.2 hnone.1).1
          refine h.setRound hr rfl (fun _ => hracing.erase i hwaiting) fun hs => ?_
          have hs' : r.result.isSome = true := hs
          rw [hn] at hs'
          cases hs'

/-! ### Runs -/

theorem step_inv {e : Event} (h : Inv m s) (hc : Calm s e) : Inv m (step s e) := by
  cases e with
  | next => exact h.next
  | check => exact h.check
  | startPull => exact h.startPull
  | complete i o => exact h.complete hc
  | stop => exact h.stop hc
  | deliver => exact h.deliver

/-- **What holds of the map.**  `once`: every `next()` has completed once, but for the one that is
outstanding. `waiting`: that one is decided, or its `start()` still runs, or some source's pull is
outstanding for it.  `conserved`: what was delivered under a source's key, and then what the source still
has, are its items in order.  `exhausted`: the end is told when no source has an item. -/
structure Sound (m : Sources α) (s : State α) : Prop where
  once : s.results.length + (if s.round.isSome then 1 else 0) = s.calls
  waiting : ∀ r ∈ s.round, r.result = none → r.loop ≠ [] ∨ r.pending ≠ []
  conserved : ∀ (i : Nat) (e₀ e : Entry α), m.entries[i]? = some e₀ → s.entries[i]? = some e →
    valuesOf e₀.key s.told ++ e.items = e₀.items
  exhausted : Result.ended ∈ s.told → ∀ e ∈ s.entries, e.items = []

theorem Inv.sound (h : Inv m s) : Sound m s where
  once := h.once
  waiting r hr hn := (h.racing r hr hn).waiting
  conserved i e₀ e he₀ he := (h.conserved i e₀ e he₀ he).2
  exhausted := h.exhausted

/-- **Every item is delivered once, in its source's order**, and every `next()` completes once, in every
run of pulls that the map can count. -/
theorem stream_map_sound (m : Sources α) (l : List Event) (h : Runs.Along step Calm { entries := m.entries } l) :
    Sound m (Runs.run step { entries := m.entries } l) :=
  (Runs.along_induction (P := Inv m) (fun _ _ => step_inv) l _ (init_inv m) h).sound

def twoSources : Sources Nat := (Sources.empty.insert "a" [1]).insert "b" [2]

def threePulls : List Event :=
  [.next, .check, .startPull, .check, .startPull, .complete 1 .value, .deliver,
    .next, .check, .startPull, .check, .startPull, .complete 0 .value, .deliver,
    .next, .check, .startPull, .check, .startPull, .complete 0 .ended, .complete 1 .ended, .deliver]

theorem stream_map_sound_two :
    Sound twoSources (Runs.run step { entries := twoSources.entries } threePulls) ∧
      (Runs.run step { entries := twoSources.entries } threePulls).results =
      [.value "b" 2, .value "a" 1, .ended] :=
  ⟨stream_map_sound twoSources threePulls (by decide +kernel), by decide +kernel⟩

/-- **A stopped pull is not counted**: the other one ends, and the `next()` is never decided.  And a pull
that completes behind the winner's claim loses its item. -/
theorem stopped_hangs_and_loser_drops :
    ¬ (∀ (m : Sources Nat) (l : List Event), ∀ r ∈ (Runs.run step { entries := m.entries } l).round,
        r.result = none → r.loop ≠ [] ∨ r.pending ≠ []) ∧
      ¬ (∀ (m : Sources Nat) (l : List Event) (i : Nat) (e₀ e : Entry Nat), m.entries[i]? = some e₀ →
        (Runs.run step { entries := m.entries } l).entries[i]? = some e →
          valuesOf e₀.key (Runs.run step { entries := m.entries } l).told ++ e.items = e₀.items) := by
  refine ⟨fun h => ?_, fun h => ?_⟩
  · have hround := h ((Sources.empty.insert "a" []).insert "b" [])
      [.next, .check, .startPull, .check, .startPull, .complete 0 .stopped, .complete 1 .ended]
      { total := 2, loop := [], finished := 1 } (by decide +kernel)
    exact (hround rfl).elim (fun hl => hl rfl) fun hp => hp rfl
  · have hlost := h twoSources
      [.next, .check, .startPull, .check, .startPull, .complete 0 .value, .complete 1 .value, .deliver] 1
      ⟨"b", [2]⟩ ⟨"b", []⟩ (by decide +kernel) (by decide +kernel)
    exact absurd hlost (by decide +kernel)

end ClashNative.StreamMap
