import ClashNative.AsyncStreamLaws
import ClashNative.Runs
/-!
# AsyncPipelines — pipelines agree with the list functions

Every pipeline that the operators build delivers its list function's result, and the end from then on,
whatever pulls are stopped in between that lose nothing.  `take` and `zip` are where one does: `take`
counts a pull that is then stopped, and `zip` drops the first item when the second one's pull is stopped.
-/
namespace ClashNative.Async

open Runs List

variable {α β : Type}

/-! ### Pipelines -/

/-- **A pipeline**: how streams are built from sources by the operators. -/
inductive Pipeline : Type → Type 1
  | source {α : Type} (values : List α) : Pipeline α
  | map {α β : Type} (func : α → β) (up : Pipeline α) : Pipeline β
  | filter {α : Type} (func : α → Bool) (up : Pipeline α) : Pipeline α
  | take {α : Type} (count : Nat) (up : Pipeline α) : Pipeline α
  | takeWhile {α : Type} (func : α → Bool) (up : Pipeline α) : Pipeline α
  | skip {α : Type} (count : Nat) (up : Pipeline α) : Pipeline α
  | skipWhile {α : Type} (func : α → Bool) (up : Pipeline α) : Pipeline α
  | scan {α β : Type} (acc : β) (func : β → α → β) (up : Pipeline α) : Pipeline β
  | flatMap {α β : Type} (func : α → Pipeline β) (up : Pipeline α) : Pipeline β
  | zip {α β : Type} (first : Pipeline α) (second : Pipeline β) : Pipeline (α × β)

namespace Pipeline

def stream {α : Type} : Pipeline α → AsyncStream α
  | source values => sourceStream values
  | map func up => mapStream up.stream func
  | filter func up => filterStream up.stream func
  | take count up => takeStream up.stream count
  | takeWhile func up => takeWhileStream up.stream func
  | skip count up => skipStream up.stream count
  | skipWhile func up => skipWhileStream up.stream func
  | scan acc func up => scanStream up.stream acc func
  | flatMap func up => flatMapStream up.stream fun a => (func a).stream
  | zip first second => zipStream first.stream second.stream

def list {α : Type} : Pipeline α → List α
  | source values => values
  | map func up => up.list.map func
  | filter func up => up.list.filter func
  | take count up => up.list.take count
  | takeWhile func up => up.list.takeWhile func
  | skip count up => up.list.drop count
  | skipWhile func up => up.list.dropWhile func
  | scan acc func up => (up.list.scanl func acc).tail
  | flatMap func up => up.list.flatMap fun a => (func a).list
  | zip first second => first.list.zip second.list

theorem stream_lawful (p : Pipeline α) :
    ∃ rest : p.stream.State → List α, Lawful p.stream rest ∧ rest p.stream.init = p.list := by
  induction p with
  | source values => exact ⟨id, source_lawful values, rfl⟩
  | map func up ih =>
    obtain ⟨rest, h, hinit⟩ := ih
    exact ⟨_, map_lawful h func, congrArg (List.map func) hinit⟩
  | filter func up ih =>
    obtain ⟨rest, h, hinit⟩ := ih
    exact ⟨_, filter_lawful h func, congrArg (List.filter func) hinit⟩
  | take count up ih =>
    obtain ⟨rest, h, hinit⟩ := ih
    exact ⟨_, take_lawful h count, congrArg (List.take count) hinit⟩
  | takeWhile func up ih =>
    obtain ⟨rest, h, hinit⟩ := ih
    exact ⟨_, takeWhile_lawful h func, congrArg (List.takeWhile func) hinit⟩
  | skip count up ih =>
    obtain ⟨rest, h, hinit⟩ := ih
    exact ⟨_, skip_lawful h count, congrArg (List.drop count) hinit⟩
  | skipWhile func up ih =>
    obtain ⟨rest, h, hinit⟩ := ih
    exact ⟨_, skipWhile_lawful h func, congrArg (List.dropWhile func) hinit⟩
  | scan acc func up ih =>
    obtain ⟨rest, h, hinit⟩ := ih
    exact ⟨_, scan_lawful h acc func, congrArg (fun l => (List.scanl func acc l).tail) hinit⟩
  | flatMap func up ihf ih =>
    obtain ⟨rest, h, hinit⟩ := ih
    choose inner hinner hinnerInit using ihf
    refine ⟨_, flatMap_lawful h hinner, ?_⟩
    show [] ++ (rest up.stream.init).flatMap (fun a => inner a (func a).stream.init) = _
    simp only [hinit, hinnerInit, nil_append, list]
  | zip first second ih₁ ih₂ =>
    obtain ⟨rest₁, h₁, hinit₁⟩ := ih₁
    obtain ⟨rest₂, h₂, hinit₂⟩ := ih₂
    exact ⟨_, zip_lawful h₁ h₂, congrArg₂ List.zip hinit₁ hinit₂⟩

end Pipeline

/-! ### A consumer's pulls -/

structure Consumer (S : AsyncStream α) where
  state : S.State
  delivered : List (Option α) := []

/-- **One pull**, that is stopped after `k` points if it has not completed. -/
def pullOnce (S : AsyncStream α) (c : Consumer S) (k : Nat) : Consumer S :=
  match S.pull c.state k with
  | .value v s _ => { state := s, delivered := c.delivered ++ [v] }
  | .stopped s _ => { c with state := s }

/-- **A pull that loses nothing**: it completes, or no `take` had counted it and no `zip` held an item. -/
def Unspent (S : AsyncStream α) (c : Consumer S) (k : Nat) : Prop := (S.pull c.state k).spent = false

instance (S : AsyncStream α) (c : Consumer S) (k : Nat) : Decidable (Unspent S c k) :=
  inferInstanceAs (Decidable (_ = false))

/-- **What has been delivered**: the list, one item a pull, and the end from then on. -/
def Delivers (S : AsyncStream α) (l : List α) (c : Consumer S) : Prop :=
  (∀ (i : Nat) (v : Option α), c.delivered[i]? = some v → v = l[i]?) ∧
    ∃ n, ∀ k, n ≤ k → ∃ left : Fin k, ∃ s, S.pull c.state k = .value l[c.delivered.length]? s left

structure Consumed {S : AsyncStream α} (rest : S.State → List α) (l : List α) (c : Consumer S) : Prop where
  delivered : ∀ (i : Nat) (v : Option α), c.delivered[i]? = some v → v = l[i]?
  rest_eq : rest c.state = l.drop c.delivered.length

theorem pullOnce_consumed {S : AsyncStream α} {rest : S.State → List α}
    (hS : Lawful S rest) {l : List α} {c : Consumer S}
    (h : Consumed rest l c) {k : Nat} (hk : Unspent S c k) : Consumed rest l (pullOnce S c k) := by
  unfold pullOnce
  cases hp : S.pull c.state k with
  | stopped s spent =>
    have hspent : spent = false := by
      unfold Unspent at hk
      rw [hp] at hk
      exact hk
    subst hspent
    exact ⟨h.delivered, (hS.stopped c.state k s hp).trans h.rest_eq⟩
  | value v s left =>
    obtain ⟨hv, hrest⟩ := hS.value c.state k v s left hp
    rw [h.rest_eq] at hv hrest
    refine ⟨fun i w hi => ?_, ?_⟩
    · dsimp only at hi
      rw [getElem?_append] at hi
      split at hi
      · exact h.delivered i w hi
      · rename_i hlt
        have hi0 : i - c.delivered.length = 0 := by
          have := (List.getElem?_eq_some_iff.1 hi).1
          simpa using this
        have hieq : i = c.delivered.length := by omega
        rw [hi0, getElem?_cons_zero, Option.some.injEq] at hi
        rw [← hi, hv, head?_drop, hieq]
    · rw [hrest, tail_drop, length_append, length_singleton]

/-- **Pipelines agree with the list functions**: whatever pulls are stopped, as long as these lose
nothing, the `i`-th completed pull delivers the `i`-th item of the list, or the end if there is none, and
a pull that goes on long enough completes. -/
theorem pipeline_delivers (p : Pipeline α) (pulls : List Nat)
    (h : Along (pullOnce p.stream) (Unspent p.stream) { state := p.stream.init } pulls) :
    Delivers p.stream p.list (run (pullOnce p.stream) { state := p.stream.init } pulls) := by
  obtain ⟨rest, hS, hinit⟩ := p.stream_lawful
  have hstart : Consumed rest p.list { state := p.stream.init } :=
    { delivered := fun i v hi => by
        cases hi
      rest_eq := hinit }
  have hend : Consumed rest p.list (run (pullOnce p.stream) { state := p.stream.init } pulls) :=
    along_induction (P := Consumed rest p.list) (fun _ _ hc hk => pullOnce_consumed hS hc hk) pulls _ hstart h
  refine ⟨hend.delivered, ?_⟩
  obtain ⟨n, v, s', hn⟩ := hS.completes (run (pullOnce p.stream) { state := p.stream.init } pulls).state
  refine ⟨n, fun k hk => ?_⟩
  obtain ⟨left, hleft, _⟩ := hn k hk
  refine ⟨left, s', ?_⟩
  rw [hleft, (hS.value _ k v s' left hleft).1, hend.rest_eq, head?_drop]

/-- A pull is stopped at its start, and one behind the first source's start. -/
theorem pipeline_delivers_stopped :
    Delivers (Pipeline.zip (.source [1, 2]) (.map (· + 1) (.source [5, 6]))).stream [(1, 6), (2, 7)]
      (run (pullOnce (Pipeline.zip (.source [1, 2]) (.map (· + 1) (.source [5, 6]))).stream)
        { state := (Pipeline.zip (.source [1, 2]) (.map (· + 1) (.source [5, 6]))).stream.init } [0, 1, 9]) :=
  pipeline_delivers (Pipeline.zip (.source [1, 2]) (.map (· + 1) (.source [5, 6]))) [0, 1, 9] (by decide)

/-- **A stopped pull of a `take` costs an item**, and one of a `zip` the item that it held. -/
theorem stopped_pulls_lose_items :
    ¬ (∀ (p : Pipeline Nat) (pulls : List Nat) (i : Nat) (v : Option Nat),
        (run (pullOnce p.stream) { state := p.stream.init } pulls).delivered[i]? = some v → v = p.list[i]?) ∧
      ¬ (∀ (p : Pipeline (Nat × Nat)) (pulls : List Nat) (i : Nat) (v : Option (Nat × Nat)),
        (run (pullOnce p.stream) { state := p.stream.init } pulls).delivered[i]? = some v → v = p.list[i]?) := by
  refine ⟨fun h => ?_, fun h => ?_⟩
  · exact absurd (h (.take 2 (.source [1, 2, 3])) [0, 9, 9] 1 none (by rfl)) (by decide)
  · exact absurd (h (.zip (.source [1, 2]) (.source [5, 6])) [2, 9] 0 (some (2, 5)) (by rfl)) (by decide)

end ClashNative.Async
