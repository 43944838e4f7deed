import Mathlib.Data.List.Basic
import Mathlib.Tactic.Common
/-!
# Runs — total step functions and what holds along their runs

A component is a step function `step : σ → α → σ`; an event that cannot happen in a state leaves it as it
is, so every list of events is a run.  `run_induction` is the invariant rule over all runs; `Along step C
s l` says that the condition `C` holds of every step of a run, and `along_induction` is the invariant rule
over those.
-/
namespace Runs

open List

variable {σ α : Type}

def run (step : σ → α → σ) (s : σ) (l : List α) : σ := l.foldl step s

@[simp] theorem run_nil (step : σ → α → σ) (s : σ) : run step s [] = s := rfl

@[simp] theorem run_cons (step : σ → α → σ) (s : σ) (a : α) (l : List α) :
    run step s (a :: l) = run step (step s a) l := rfl

theorem run_append (step : σ → α → σ) (s : σ) (l l' : List α) :
    run step s (l ++ l') = run step (run step s l) l' := foldl_append

variable {P : σ → Prop} {step : σ → α → σ}

theorem run_induction (hstep : ∀ s a, P s → P (step s a)) :
    ∀ (l : List α) (s : σ), P s → P (run step s l)
  | [], _, h => h
  | a :: l, s, h => run_induction hstep l (step s a) (hstep s a h)

/-- **The condition `C` holds of every step of the run**: of each event, in the state before it. -/
def Along (step : σ → α → σ) (C : σ → α → Prop) : σ → List α → Prop
  | _, [] => True
  | s, a :: l => C s a ∧ Along step C (step s a) l

instance Along.decidable (step : σ → α → σ) (C : σ → α → Prop) [∀ s a, Decidable (C s a)] :
    ∀ (s : σ) (l : List α), Decidable (Along step C s l)
  | _, [] => inferInstanceAs (Decidable True)
  | s, a :: l => @instDecidableAnd _ _ _ (Along.decidable step C (step s a) l)

variable {C : σ → α → Prop}

theorem along_induction
    (hstep : ∀ s a, P s → C s a → P (step s a)) :
    ∀ (l : List α) (s : σ), P s → Along step C s l → P (run step s l)
  | [], _, h, _ => h
  | a :: l, s, h, hc => along_induction hstep l (step s a) (hstep s a h hc.1) hc.2

theorem along_append : ∀ (l l' : List α) (s : σ),
    Along step C s (l ++ l') ↔ Along step C s l ∧ Along step C (run step s l) l'
  | [], l', s => by simp only [nil_append, Along, true_and, run_nil]
  | a :: l, l', s => by
    rw [cons_append, Along, Along, along_append l l', and_assoc]
    rfl

variable {s : σ} {Q : σ → Prop}

/-- **A property of every state of a run that a step under `D` keeps exactly under `C`** holds all along a
run under `D` exactly when `C` does. -/
theorem forall_prefix_iff_along_of {D : σ → α → Prop} (hQ : ∀ s, P s → Q s)
    (hstep : ∀ s a, P s → D s a → C s a → P (step s a)) (hback : ∀ s a, P s → D s a → ¬ C s a → ¬ Q (step s a))
    (hs : P s) {l : List α} (hD : Along step D s l) :
    (∀ pre, pre <+: l → Q (run step s pre)) ↔ Along step C s l := by
  induction l generalizing s with
  | nil =>
    refine ⟨fun _ => trivial, fun _ pre hpre => ?_⟩
    rw [prefix_nil.1 hpre]
    exact hQ s hs
  | cons a l ih =>
    constructor
    · intro h
      have hC : C s a := by
        by_contra hnot
        exact hback s a hs hD.1 hnot (h [a] (prefix_append [a] l))
      exact ⟨hC, (ih (hstep s a hs hD.1 hC) hD.2).1 fun pre hpre => h (a :: pre) ((prefix_cons_inj a).2 hpre)⟩
    · rintro ⟨hC, hl⟩ pre hpre
      cases pre with
      | nil => exact hQ s hs
      | cons b pre =>
        obtain ⟨rfl, hrest⟩ := cons_prefix_cons.1 hpre
        exact (ih (hstep s b hs hD.1 hC) hD.2).2 hl pre hrest

theorem along_true (step : σ → α → σ) : ∀ (l : List α) (s : σ), Along step (fun _ _ => True) s l
  | [], _ => trivial
  | a :: l, s => ⟨trivial, along_true step l (step s a)⟩

theorem forall_prefix_iff_along (hQ : ∀ s, P s → Q s)
    (hstep : ∀ s a, P s → C s a → P (step s a)) (hback : ∀ s a, P s → ¬ C s a → ¬ Q (step s a)) (hs : P s)
    (l : List α) : (∀ pre, pre <+: l → Q (run step s pre)) ↔ Along step C s l :=
  forall_prefix_iff_along_of hQ (fun s a hP _ => hstep s a hP) (fun s a hP _ => hback s a hP) hs
  (along_true step l s)

end Runs
