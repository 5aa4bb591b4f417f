import Mathlib.Algebra.Order.Ring.Nat
import Mathlib.Data.List.Basic
import Mathlib.Tactic.Common

/-!
# Runs of a state machine

A run performs a list of steps from a start state, as `List.foldl` does. An invariant of
one step is an invariant of every run, a reflexive and transitive relation kept by one step
relates any earlier state of a run to any later one, and the second rule may use an
invariant. `runSteps` runs a machine some of whose steps are not enabled; its rule is
relative to a condition on the steps taken.
-/

namespace TulyaStore.Lib

section Runs

variable {σ α : Type} {step : σ → α → σ} {I : σ → Prop} {R : σ → σ → Prop}

theorem run_invariant (hStep : ∀ s x, I s → I (step s x)) {s : σ} (h : I s) (xs : List α) :
    I (xs.foldl step s) := by
  induction xs generalizing s with
  | nil => exact h
  | cons x xs ih => exact ih (hStep s x h)

theorem run_related (hRefl : ∀ s, R s s) (hTrans : ∀ s t u, R s t → R t u → R s u)
    (hInv : ∀ s x, I s → I (step s x)) (hStep : ∀ s x, I s → R s (step s x)) {s : σ}
    (h : I s) (xs : List α) : R s (xs.foldl step s) := by
  induction xs generalizing s with
  | nil => exact hRefl s
  | cons x xs ih => exact hTrans _ _ _ (hStep s x h) (ih (hInv s x h))

end Runs

/-! ## Partial steps -/

section PartialRuns

variable {σ α : Type} {step : σ → α → Option σ} {I : σ → Prop} {C : σ → α → Prop}

/-- The state after the steps, when each of them is enabled. -/
def runSteps (step : σ → α → Option σ) : σ → List α → Option σ
  | s, [] => some s
  | s, x :: xs => (step s x).bind (fun t => runSteps step t xs)

/-- Every step the run takes meets `C` in the state it is taken from. -/
def StepsMeet (step : σ → α → Option σ) (C : σ → α → Prop) : σ → List α → Prop
  | _, [] => True
  | s, x :: xs => C s x ∧ ∀ t, step s x = some t → StepsMeet step C t xs

/-- Whether all steps meet a decidable condition can be computed along the run. -/
instance [∀ s x, Decidable (C s x)] : (s : σ) → (xs : List α) → Decidable (StepsMeet step C s xs)
  | _, [] => .isTrue trivial
  | s, x :: xs =>
    match hStep : step s x with
    | none => decidable_of_iff (C s x) (by simp [StepsMeet, hStep])
    | some t =>
      have : Decidable (StepsMeet step C t xs) := instDecidableStepsMeet t xs
      decidable_of_iff (C s x ∧ StepsMeet step C t xs) (by simp [StepsMeet, hStep])

theorem runSteps_invariant (hStep : ∀ s x t, I s → C s x → step s x = some t → I t) {s t : σ}
    (h : I s) {xs : List α} (hMeet : StepsMeet step C s xs) (hRun : runSteps step s xs = some t) :
    I t := by
  induction xs generalizing s with
  | nil =>
    have hEnd : s = t := by simpa [runSteps] using hRun
    exact hEnd ▸ h
  | cons x xs ih =>
    obtain ⟨u, hu, hRest⟩ := Option.bind_eq_some_iff.mp hRun
    exact ih (hStep s x u h hMeet.1 hu) (hMeet.2 u hu) hRest

/-- What every enabled step keeps holds at the end of a run. -/
theorem runSteps_keeps (hStep : ∀ s x t, I s → step s x = some t → I t) {s t : σ} (h : I s)
    {xs : List α} (hRun : runSteps step s xs = some t) : I t := by
  induction xs generalizing s with
  | nil =>
    have hEnd : s = t := by simpa [runSteps] using hRun
    exact hEnd ▸ h
  | cons x xs ih =>
    obtain ⟨u, hu, hRest⟩ := Option.bind_eq_some_iff.mp hRun
    exact ih (hStep s x u h hu) hRest

/-- A property that a step keeps exactly when it meets `C` holds at the end of a run exactly
when it held at the start and every step met `C`. -/
theorem runSteps_iff {Q : σ → Prop} (hInv : ∀ s x t, I s → step s x = some t → I t)
    (hStep : ∀ s x t, I s → step s x = some t → (Q t ↔ Q s ∧ C s x)) {s t : σ} (h : I s)
    {xs : List α} (hRun : runSteps step s xs = some t) :
    Q t ↔ Q s ∧ StepsMeet step C s xs := by
  induction xs generalizing s with
  | nil =>
    have hEnd : s = t := by simpa [runSteps] using hRun
    simp [hEnd, StepsMeet]
  | cons x xs ih =>
    obtain ⟨u, hu, hRest⟩ := Option.bind_eq_some_iff.mp hRun
    have hMeet : StepsMeet step C s (x :: xs) ↔ C s x ∧ StepsMeet step C u xs := by
      simp [StepsMeet, hu]
    rw [ih (hInv s x u h hu) hRest, hStep s x u h hu, hMeet, and_assoc]

end PartialRuns

end TulyaStore.Lib
