import Mathlib.Data.List.Basic
import Mathlib.Tactic.Common

/-!
# Traces of transition systems

`Traces Step s events t` says that the labelled system `Step` goes from `s` to `t` with the given
events. An invariant of one step holds along a trace, a relation of one step that is reflexive and
transitive relates its two ends, and a forward simulation maps every trace of one system to a trace
of another with the same events.
-/

namespace TulyaStore.Lib

inductive Traces {σ ε : Type} (Step : σ → ε → σ → Prop) : σ → List ε → σ → Prop where
  | nil (s : σ) : Traces Step s [] s
  | cons {s t u : σ} {event : ε} {events : List ε} (hStep : Step s event t)
      (hRest : Traces Step t events u) : Traces Step s (event :: events) u

namespace Traces

variable {σ τ ε : Type} {Step : σ → ε → σ → Prop} {Abstract : τ → ε → τ → Prop} {s t u : σ}
  {events more : List ε}

theorem single {event : ε} (h : Step s event t) : Traces Step s [event] t := .cons h (.nil t)

theorem append (h : Traces Step s events t) (hMore : Traces Step t more u) :
    Traces Step s (events ++ more) u := by
  induction h with
  | nil s => exact hMore
  | cons hStep _ ih => exact .cons hStep (ih hMore)

/-- A trace can be cut between any two of its events. -/
theorem cut (h : Traces Step s (events ++ more) u) :
    ∃ t, Traces Step s events t ∧ Traces Step t more u := by
  induction events generalizing s with
  | nil => exact ⟨s, .nil s, h⟩
  | cons event events ih =>
    cases h with
    | cons hStep hRest =>
      obtain ⟨t, hFirst, hSecond⟩ := ih hRest
      exact ⟨t, .cons hStep hFirst, hSecond⟩

theorem invariant {I : σ → Prop} (hKeep : ∀ s event t, I s → Step s event t → I t)
    (h : Traces Step s events t) (hStart : I s) : I t := by
  induction h with
  | nil s => exact hStart
  | cons hStep _ ih => exact ih (hKeep _ _ _ hStart hStep)

/-- What a step does to an older state, it does to the oldest. -/
theorem related {I : σ → Prop} {R : σ → σ → Prop} (hRefl : ∀ s, R s s)
    (hTrans : ∀ s t u, R s t → R t u → R s u) (hKeep : ∀ s event t, I s → Step s event t → I t)
    (hStep : ∀ s event t, I s → Step s event t → R s t) (h : Traces Step s events t)
    (hStart : I s) : R s t := by
  induction h with
  | nil s => exact hRefl s
  | cons hFirst _ ih =>
    exact hTrans _ _ _ (hStep _ _ _ hStart hFirst) (ih (hKeep _ _ _ hStart hFirst))

/-- A forward simulation. -/
theorem simulate {R : σ → τ → Prop}
    (hSim : ∀ s m event t, R s m → Step s event t → ∃ m', Abstract m event m' ∧ R t m')
    (h : Traces Step s events t) {m : τ} (hStart : R s m) :
    ∃ m', Traces Abstract m events m' ∧ R t m' := by
  induction h generalizing m with
  | nil s => exact ⟨m, .nil m, hStart⟩
  | cons hStep _ ih =>
    obtain ⟨m', hFirst, hNext⟩ := hSim _ _ _ _ hStart hStep
    obtain ⟨m'', hRest, hEnd⟩ := ih hNext
    exact ⟨m'', .cons hFirst hRest, hEnd⟩

end Traces

end TulyaStore.Lib
