import ClashNative.MergeConcurrent
import Mathlib.Algebra.Order.BigOperators.Group.Finset
import Mathlib.Data.List.ReduceOption
/-!
# MergeConcurrentBooks — what the merge has sent, taken and delivered

`Shows` is an unbounded channel as a pull sees it: what it holds, whether a receive is parked, whether it
is closed.  `Book` says that what was taken from the channel, with what is on its way, is an interleaving
of what the drivers sent: the items of each source, then its end.  So with the last end taken nothing is
left to take.
-/
namespace ClashNative.Async.MergeConcurrent

open Interleavings Runs List

/-! ## The channel, with one receive at a time -/

section
variable {α : Type}

structure Shows (c : Mpsc.State α) (buffer : List α) (parked closed : Bool) : Prop where
  unbounded : c.capacity = none
  buffer_eq : c.buffer = buffer
  parked_eq : c.recvSlot.isSome = parked
  closed_eq : c.closed = closed

namespace Shows

variable {c : Mpsc.State α} {buffer : List α} {parked closed : Bool}

theorem trySend_parked (h : Shows c buffer true false) (v : α) :
    Shows (Mpsc.step c (.trySend v)) buffer false false := by
  obtain ⟨j, hj⟩ := Option.isSome_iff_exists.1 h.parked_eq
  have hstep : Mpsc.step c (.trySend v) =
      Mpsc.State.handOver { c with trySent := c.trySent ++ [v] } j (.trySend c.trySent.length) v := by
    simp only [Mpsc.step, Mpsc.State.trySend, h.closed_eq, hj]
    rfl
  rw [hstep]
  exact { h with parked_eq := rfl }

theorem trySend_free (h : Shows c buffer false false) (v : α) :
    Shows (Mpsc.step c (.trySend v)) (buffer ++ [v]) false false := by
  have hslot : c.recvSlot = none := Option.isSome_eq_false_iff.1 h.parked_eq |> Option.isNone_iff_eq_none.1
  have hstep : Mpsc.step c (.trySend v) =
      Mpsc.State.push { c with trySent := c.trySent ++ [v] } (.trySend c.trySent.length) v := by
    simp only [Mpsc.step, Mpsc.State.trySend, h.closed_eq, hslot, Mpsc.State.hasRoom, h.unbounded]
    rfl
  rw [hstep]
  exact { h with buffer_eq := by rw [← h.buffer_eq]; rfl }

theorem updRecv (h : Shows c buffer parked closed) (j : Nat) (f : WaitNodes.Node (Mpsc.RecvResult α) →
    WaitNodes.Node (Mpsc.RecvResult α)) :
    Shows (c.updRecv j f) buffer parked closed := { h with }

theorem completeRecv (h : Shows c buffer parked closed) (j : Nat) :
    Shows (Mpsc.step c (.completeRecv j)) buffer parked closed :=
  h.updRecv j _

theorem destroyRecv (h : Shows c buffer false closed) (j : Nat) :
    Shows (c.destroyRecv j) buffer false closed ∧ (c.destroyRecv j).recvs.length = c.recvs.length := by
  unfold Mpsc.State.destroyRecv
  split
  · exact ⟨h, rfl⟩
  · split
    · exact ⟨h, rfl⟩
    · split
      · refine ⟨{ h with parked_eq := rfl }, ?_⟩
        simp [Mpsc.State.updRecv, Mpsc.State.clearSlot]
      · exact ⟨h.updRecv j _, by simp [Mpsc.State.updRecv]⟩

theorem restart_eq (h : Shows c buffer false closed) : ∃ c' : Mpsc.State α, Shows c' buffer false closed ∧
    c'.recvs.length = c.recvs.length + 1 ∧ (c'.recvs[c.recvs.length]?.map (·.owed)) = some none ∧
    restart c = c'.runRecv c.recvs.length {} := by
  obtain ⟨hshows, hlen⟩ := h.destroyRecv (c.recvs.length - 1)
  generalize hd : c.destroyRecv (c.recvs.length - 1) = d at hshows hlen
  refine ⟨Mpsc.State.updRecv { d with recvs := d.recvs ++ [{}] } c.recvs.length WaitNodes.Node.start,
    ?_, ?_, ?_, ?_⟩
  · exact { hshows with }
  · simp [Mpsc.State.updRecv, hlen]
  · simp [Mpsc.State.updRecv, ← hlen, WaitNodes.Node.start]
  · simp only [restart, run_cons, run_nil, Mpsc.step, hd, Mpsc.State.startRecv]
    rw [← hlen, getElem?_concat_length]
    rfl

theorem inlineResult_owe {j : Nat} (hj : c.recvs.length = j + 1) (r : Mpsc.RecvResult α) :
    inlineResult (c.oweRecv j r) = some r := by
  rw [inlineResult, getLast?_eq_getElem?]
  simp [Mpsc.State.oweRecv, Mpsc.State.updRecv, hj, WaitNodes.Node.owe]

theorem oweRecv (h : Shows c buffer parked closed) (j : Nat) (r : Mpsc.RecvResult α) :
    Shows (c.oweRecv j r) buffer parked closed :=
  h.updRecv j _

theorem restart_front {x : α} (h : Shows c (x :: buffer) false closed) :
    Shows (restart c) buffer false closed ∧ inlineResult (restart c) = some (.value (some x)) := by
  obtain ⟨c', hc', hlen, -, hrun⟩ := h.restart_eq
  have htake : c'.takeFront (.recv c.recvs.length) =
      (some x, { c' with buffer := buffer, delivered := c'.delivered ++ [(.recv c.recvs.length, x)] }) := by
    simp only [Mpsc.State.takeFront, Mpsc.State.waitHead, hc'.unbounded, hc'.buffer_eq, Option.isSome_none,
      Bool.false_eq_true, if_false]
  rw [hrun]
  simp only [Mpsc.State.runRecv, htake, Bool.not_true, Bool.false_eq_true, if_false]
  have htaken : Shows { c' with buffer := buffer, delivered := c'.delivered ++ [(.recv c.recvs.length, x)] }
    buffer false closed :=
    { hc' with buffer_eq := rfl }
  exact ⟨htaken.oweRecv _ _, inlineResult_owe hlen _⟩

theorem restart_nil (h : Shows c [] false closed) :
    Shows (restart c) [] (!closed) closed ∧ inlineResult (restart c) = if closed then
    some (.value none) else none := by
  obtain ⟨c', hc', hlen, howed, hrun⟩ := h.restart_eq
  have hslot : c'.recvSlot = none := Option.isNone_iff_eq_none.1 (Option.isSome_eq_false_iff.1 hc'.parked_eq)
  have htake : c'.takeFront (.recv c.recvs.length) = (none, c') := by
    simp only [Mpsc.State.takeFront, Mpsc.State.waitHead, hc'.unbounded, hc'.buffer_eq, Option.isSome_none,
      Bool.false_eq_true, if_false]
  rw [hrun]
  simp only [Mpsc.State.runRecv, htake, hc'.closed_eq, hslot, Bool.not_true, Bool.false_eq_true, if_false]
  cases closed with
  | true => exact ⟨hc'.oweRecv _ _, inlineResult_owe hlen _⟩
  | false =>
    refine ⟨{ hc' with parked_eq := rfl }, ?_⟩
    obtain ⟨node, hnode, hnone⟩ := Option.map_eq_some_iff.1 howed
    have hlast := (List.getElem?_eq_some_iff.1 hnode).2
    rw [inlineResult, getLast?_eq_getElem?]
    simp [Mpsc.State.updRecv, hlen, WaitNodes.Node.leave, hlast, hnone]

end Shows
end

variable {n : Nat} {T : Type}

/-! ## What is on its way -/

def State.sent (s : State n T) (i : Fin n) : List (Option T) :=
  (s.produced i).map some ++ if s.ended i then [none] else []

/-- **The books of the merge**: what has been taken from the channel, with what is pending, is what was
sent. -/
structure Book (pending : List (Option T)) (sent : Fin n → List (Option T))
    (results : List (Mpsc.RecvResult T)) (consumed : Nat) :
    Prop where
  history : ∃ took, Interleaving (took ++ pending) sent ∧ took.reduceOption = results.filterMap item ∧
    took.countP Option.isNone = consumed
  counted : 0 < n → (results.any isEnd = true ↔ n ≤ consumed)
  values : ∀ r ∈ results, ∃ v, r = .value v

namespace Book

variable {pending : List (Option T)} {sent : Fin n → List (Option T)} {results : List (Mpsc.RecvResult T)}
    {consumed : Nat}

theorem send (h : Book pending sent results consumed) (i : Fin n) (slot : Option T) :
    Book (pending ++ [slot]) (Function.update sent i (sent i ++ [slot])) results consumed where
  history := by
    obtain ⟨took, hmix, htook⟩ := h.history
    refine ⟨took, ?_, htook⟩
    rw [← append_assoc]
    exact hmix.snoc i slot
  counted := h.counted
  values := h.values

theorem values_append (h : Book pending sent results consumed) (v : Option T) :
    ∀ r ∈ results ++ [.value v], ∃ v, r = .value v := by
  intro r hr
  rcases mem_append.1 hr with hold | hnew
  · exact h.values r hold
  · exact ⟨v, mem_singleton.1 hnew⟩

theorem deliver {v : T} (h : Book (some v :: pending) sent results consumed) :
    Book pending sent (results ++ [.value (some v)]) consumed where
  history := by
    obtain ⟨took, hmix, hitems, hcount⟩ := h.history
    refine ⟨took ++ [some v], ?_, ?_, ?_⟩
    · rw [append_assoc]
      exact hmix
    · rw [reduceOption_append, hitems, filterMap_append]
      rfl
    · rw [countP_append, hcount]
      rfl
  counted := by simpa [isEnd] using h.counted
  values := h.values_append _

theorem history_skip (h : Book (none :: pending) sent results consumed) :
    ∃ took, Interleaving (took ++ pending) sent ∧
    took.reduceOption = results.filterMap item ∧ took.countP Option.isNone = consumed + 1 := by
  obtain ⟨took, hmix, hitems, hcount⟩ := h.history
  refine ⟨took ++ [none], ?_, ?_, ?_⟩
  · rw [append_assoc]
    exact hmix
  · rw [reduceOption_append, hitems]
    exact append_nil _
  · rw [countP_append, hcount]
    rfl

theorem skip (h : Book (none :: pending) sent results consumed) (hmore : ¬ n ≤ consumed + 1) :
    Book pending sent results (consumed + 1) where
  history := h.history_skip
  counted hn := by
    rw [h.counted hn]
    omega
  values := h.values

theorem last (h : Book (none :: pending) sent results consumed) (hlast : n ≤ consumed + 1) :
    Book pending sent (results ++ [.value none]) (consumed + 1) where
  history := by
    obtain ⟨took, hmix, hitems, hcount⟩ := h.history_skip
    refine ⟨took, hmix, ?_, hcount⟩
    rw [hitems, filterMap_append]
    exact (append_nil _).symm
  counted _ := by simp [isEnd, hlast]
  values := h.values_append _

theorem closed (h : Book pending sent results consumed) (hn : n = 0) :
    Book pending sent (results ++ [.value none]) consumed where
  history := by
    obtain ⟨took, hmix, hitems, hcount⟩ := h.history
    refine ⟨took, hmix, ?_, hcount⟩
    rw [hitems, filterMap_append]
    exact (append_nil _).symm
  counted hpos := absurd hn (Nat.ne_of_gt hpos)
  values := h.values_append _

end Book

/-! ## What the books say -/

section
variable {s : State n T}

theorem sum_one (n : Nat) : ∑ _i : Fin n, 1 = n := by
  rw [Finset.sum_const, Finset.card_univ, Fintype.card_fin, smul_eq_mul, Nat.mul_one]

theorem sum_toNat_le (b : Fin n → Bool) : ∑ i, (b i).toNat ≤ n := by
  have hle : ∑ i, (b i).toNat ≤ ∑ _i : Fin n, 1 := Finset.sum_le_sum fun i _ => Bool.toNat_le _
  rwa [sum_one] at hle

theorem sum_toNat_lt {b : Fin n → Bool} {i : Fin n} (hi : b i = false) : ∑ i, (b i).toNat < n := by
  have hlt : ∑ i, (b i).toNat < ∑ _i : Fin n, 1 :=
    Finset.sum_lt_sum (fun i _ => Bool.toNat_le _) ⟨i, Finset.mem_univ i, by rw [hi]; exact Nat.one_pos⟩
  rwa [sum_one] at hlt

theorem countP_sent (s : State n T) (i : Fin n) : (s.sent i).countP Option.isNone = (s.ended i).toNat := by
  have hitems : ((s.produced i).map some).countP Option.isNone = 0 := by
    simp
  rw [State.sent, countP_append, hitems]
  cases s.ended i with
  | true => rfl
  | false => rfl

theorem reduceOption_sent (s : State n T) (i : Fin n) : (s.sent i).reduceOption = s.produced i := by
  have hitems : ((s.produced i).map some).reduceOption = s.produced i := by
    rw [List.reduceOption, filterMap_map]
    exact filterMap_some
  rw [State.sent, reduceOption_append, hitems]
  cases s.ended i with
  | true => exact append_nil _
  | false => exact append_nil _

variable (h : Book s.pending s.sent s.results s.consumed)
include h

theorem Book.interleaved : Interleaving (s.received ++ s.pending.reduceOption) s.produced := by
  obtain ⟨took, hmix, hitems, -⟩ := h.history
  have hall := hmix.filterMap id
  rw [filterMap_append] at hall
  rw [State.received, ← hitems, ← funext (reduceOption_sent s)]
  exact hall

theorem Book.count_ends : s.consumed + s.pending.countP Option.isNone = ∑ i, (s.ended i).toNat := by
  obtain ⟨took, hmix, -, hcount⟩ := h.history
  have hall := hmix.countP Option.isNone
  rw [countP_append, hcount] at hall
  rw [hall]
  exact Finset.sum_congr rfl fun i _ => countP_sent s i

theorem Book.end_told (htold : s.told = true) : (∀ i, s.ended i = true) ∧ s.pending = [] := by
  obtain ⟨took, hmix, -, -⟩ := h.history
  rcases Nat.eq_zero_or_pos n with hn | hn
  · have : IsEmpty (Fin n) := ⟨fun i => absurd i.isLt (by omega)⟩
    exact ⟨fun i => this.elim i, (append_eq_nil_iff.1 hmix.eq_nil).2⟩
  · have hconsumed := (h.counted hn).1 htold
    have hcount := h.count_ends
    have hle := sum_toNat_le s.ended
    have hended : ∀ i, s.ended i = true := by
      intro i
      by_contra hi
      have hlt := sum_toNat_lt (Bool.eq_false_of_not_eq_true hi)
      omega
    refine ⟨hended, hmix.suffix_eq_nil (e := none)
      (fun i => ⟨(s.produced i).map some, by simp [State.sent, hended i]⟩) fun hmem => ?_⟩
    have hpos : 0 < s.pending.countP Option.isNone := countP_pos_iff.2 ⟨none, hmem, rfl⟩
    omega

theorem Book.waits_for (hconsumed : s.consumed < n) (hpending : s.pending = []) : ∃ i, s.ended i = false := by
  by_contra hnone
  have hended : ∀ i, s.ended i = true := fun i => by
    by_contra hi
    exact hnone ⟨i, Bool.eq_false_of_not_eq_true hi⟩
  have hcount := h.count_ends
  simp only [hpending, hended, Bool.toNat_true, sum_one, countP_nil] at hcount
  omega

end

end ClashNative.Async.MergeConcurrent
