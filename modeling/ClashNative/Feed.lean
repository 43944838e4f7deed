import Mathlib.Data.List.Basic
import Mathlib.Tactic.Common
/-!
# Feed — a parser over a buffer that grows

A `Feed` appends what arrives to its buffer and takes one frame at a time off the front.  Its one law is
that a frame that can be taken now is taken the same way when more is behind it.  Then what it has parsed
depends on the bytes and not on the pieces they came in.
-/
namespace Wire

/-- **A parser fed piece by piece**: `step` takes one frame off the buffer (`none`: more is needed, or it
has stopped), `append` is an arrival, `size` bounds the steps that are left. -/
structure Feed (α σ : Type) where
  step : σ → Option σ
  append : σ → List α → σ
  size : σ → Nat
  size_step : ∀ {s s' : σ}, step s = some s' → size s' < size s
  step_append : ∀ {s s' : σ} (c : List α), step s = some s' → step (append s c) = some (append s' c)
  append_nil : ∀ s : σ, append s [] = s
  append_append : ∀ (s : σ) (c d : List α), append (append s c) d = append s (c ++ d)

namespace Feed

variable {α σ : Type} (F : Feed α σ)

def drainN : Nat → σ → σ
  | 0, s => s
  | n + 1, s =>
    match F.step s with
    | none => s
    | some s' => drainN n s'

def drain (s : σ) : σ := F.drainN (F.size s) s

def feed (s : σ) (l : List (List α)) : σ := l.foldl (fun s c => F.drain (F.append s c)) s

variable {F} {s : σ}

theorem drainN_stuck (h : F.step s = none) (n : Nat) : F.drainN n s = s := by
  cases n with
  | zero => rfl
  | succ n => rw [drainN, h]

theorem drainN_of_le : ∀ (n : Nat) (s : σ), F.size s ≤ n → F.drainN n s = F.drain s
  | n, s, hn => by
    cases hs : F.step s with
    | none => rw [drain, drainN_stuck hs, drainN_stuck hs]
    | some s' =>
      have hlt := F.size_step hs
      obtain ⟨m, hm⟩ : ∃ m, F.size s = m + 1 := ⟨F.size s - 1, by omega⟩
      cases n with
      | zero => omega
      | succ n =>
        rw [drain, hm, drainN, drainN, hs]
        dsimp only
        rw [drainN_of_le n s' (by omega), drainN_of_le m s' (by omega)]

theorem drain_stuck (h : F.step s = none) : F.drain s = s := drainN_stuck h _

theorem drain_step {s' : σ} (h : F.step s = some s') : F.drain s = F.drain s' := by
  have hlt := F.size_step h
  rw [← drainN_of_le (F.size s + 1) s (by omega), drainN, h]
  exact drainN_of_le _ _ (by omega)

theorem drain_induction {P : σ → Prop} (hstep : ∀ s s', F.step s = some s' → P s → P s') (s : σ) (h : P s) :
    P (F.drain s) := by
  induction hn : F.size s using Nat.strongRecOn generalizing s with
  | _ n ih =>
    cases hs : F.step s with
    | none => rwa [drain_stuck hs]
    | some s' =>
      rw [drain_step hs]
      exact ih _ (hn ▸ F.size_step hs) s' (hstep s s' hs h) rfl

theorem drain_append (c : List α) (s : σ) : F.drain (F.append (F.drain s) c) = F.drain (F.append s c) := by
  induction hn : F.size s using Nat.strongRecOn generalizing s with
  | _ n ih =>
    cases hs : F.step s with
    | none => rw [drain_stuck hs]
    | some s' =>
      rw [drain_step hs, ih _ (hn ▸ F.size_step hs) s' rfl, drain_step (F.step_append c hs)]

theorem feed_eq : ∀ (l : List (List α)) (s : σ), F.feed (F.drain s) l = F.drain (F.append s l.flatten)
  | [], s => by rw [List.flatten_nil, F.append_nil]; rfl
  | c :: l, s => by
    rw [List.flatten_cons, ← F.append_append, ← feed_eq l]
    change F.feed (F.drain (F.append (F.drain s) c)) l = _
    rw [drain_append]

end Feed

end Wire
