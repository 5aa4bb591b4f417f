import Mathlib.Algebra.Order.Ring.Nat
import Mathlib.Tactic.Common

/-!
# Outcomes of computations with a state and an error

A computation of `EStateM ε σ` keeps its state also when it fails, so a specification has
two halves: `Q` for a result with its final state and `E` for an error with the state it
leaves behind. `Post x s Q E` says that the run of `x` from `s` meets them, and the rules
below follow the way computations are put together.

`Keeps R x` is the special case of a relation between the first and the last state that
holds whatever the outcome; it needs no knowledge of the start state.
-/

namespace TulyaStore.Lib

variable {ε σ α β : Type}

/-- The run of `x` from `s` ends in a result within `Q` or in an error within `E`. -/
def Post (x : EStateM ε σ α) (s : σ) (Q : α → σ → Prop) (E : ε → σ → Prop) : Prop :=
  match x s with
  | .ok a s' => Q a s'
  | .error e s' => E e s'

/-- A computation that does not touch the state: its value, or its error. -/
def attempt (x : Except ε α) : EStateM ε σ α := fun s =>
  match x with
  | .ok a => .ok a s
  | .error e => .error e s

/-- Whether a run ended in a result that meets `p`. -/
def yields (p : α → σ → Bool) : EStateM.Result ε σ α → Bool
  | .ok a s => p a s
  | .error _ _ => false

/-- The state a run ends in, whatever its outcome. -/
def finalState (x : EStateM ε σ α) (s : σ) : σ :=
  match x s with
  | .ok _ s' => s'
  | .error _ s' => s'

section Rules

variable {x : EStateM ε σ α} {f : α → EStateM ε σ β} {s : σ}
  {Q : α → σ → Prop} {E : ε → σ → Prop}

theorem post_pure {a : α} (h : Q a s) : Post (pure a) s Q E := h

theorem post_bind {R : β → σ → Prop} (hx : Post x s Q E)
    (hf : ∀ a s', Q a s' → Post (f a) s' R E) : Post (x >>= f) s R E := by
  unfold Post at *
  change match EStateM.bind x f s with
    | .ok a s' => R a s'
    | .error e s' => E e s'
  unfold EStateM.bind
  cases hRun : x s with
  | ok a s' =>
    rw [hRun] at hx
    exact hf a s' hx
  | error e s' =>
    rw [hRun] at hx
    exact hx

theorem post_mono {Q' : α → σ → Prop} {E' : ε → σ → Prop} (h : Post x s Q E)
    (hQ : ∀ a s', Q a s' → Q' a s') (hE : ∀ e s', E e s' → E' e s') : Post x s Q' E' := by
  unfold Post at *
  cases hRun : x s with
  | ok a s' =>
    rw [hRun] at h
    exact hQ a s' h
  | error e s' =>
    rw [hRun] at h
    exact hE e s' h

theorem post_attempt {y : Except ε α} (hOk : ∀ a, y = .ok a → Q a s)
    (hErr : ∀ e, y = .error e → E e s) : Post (attempt y) s Q E := by
  cases y with
  | ok a => exact hOk a rfl
  | error e => exact hErr e rfl

theorem post_attempt_ok {y : Except ε α} {a : α} (h : y = .ok a) (hQ : Q a s) :
    Post (attempt y) s Q E := by
  subst h
  exact hQ

theorem post_modify {g : σ → σ} {Q : PUnit → σ → Prop} (h : Q PUnit.unit (g s)) :
    Post (modify g) s Q E := h

theorem post_ok {a : α} {s' : σ} (h : Post x s Q E) (hRun : x s = .ok a s') : Q a s' := by
  unfold Post at h
  rw [hRun] at h
  exact h

theorem post_error {e : ε} {s' : σ} (h : Post x s Q E) (hRun : x s = .error e s') : E e s' := by
  unfold Post at h
  rw [hRun] at h
  exact h

theorem post_any (x : EStateM ε σ α) (s : σ) : Post x s (fun _ _ => True) (fun _ _ => True) := by
  unfold Post
  cases x s <;> trivial

theorem bind_run_ok {a : α} {s' : σ} (h : x s = .ok a s') : (x >>= f) s = f a s' := by
  change EStateM.bind x f s = _
  rw [EStateM.bind, h]

theorem bind_run_error {e : ε} {s' : σ} (h : x s = .error e s') :
    (x >>= f) s = .error e s' := by
  change EStateM.bind x f s = _
  rw [EStateM.bind, h]

theorem bind_run_eq_ok {b : β} {s' : σ} :
    (x >>= f) s = .ok b s' ↔ ∃ a t, x s = .ok a t ∧ f a t = .ok b s' := by
  change EStateM.bind x f s = .ok b s' ↔ _
  unfold EStateM.bind
  cases x s <;> simp

theorem pure_run_eq_ok {a b : α} {s s' : σ} :
    (pure a : EStateM ε σ α) s = .ok b s' ↔ a = b ∧ s = s' := by
  simp [pure, EStateM.pure]

theorem attempt_run_eq_ok {y : Except ε α} {b : α} {s s' : σ} :
    attempt y s = .ok b s' ↔ y = .ok b ∧ s = s' := by
  cases y <;> simp [attempt]

theorem attempt_bind_ok {y : Except ε α} {a : α} (h : y = .ok a) :
    (attempt y >>= f) s = f a s := by
  subst h
  rfl

theorem attempt_bind_error {y : Except ε α} {e : ε} (h : y = .error e) :
    (attempt y >>= f) s = .error e s := by
  subst h
  rfl

end Rules

/-! ## Relations between the first and the last state -/

/-- A result of `x` leaves a state related by `R` to the one it started from, an error one
related by `E`. -/
def Leads (R E : σ → σ → Prop) (x : EStateM ε σ α) : Prop :=
  ∀ s, Post x s (fun _ s' => R s s') (fun _ s' => E s s')

section LeadsRules

variable {R E : σ → σ → Prop} {x : EStateM ε σ α}

theorem leads_pure (hRefl : ∀ s, R s s) (a : α) : Leads R E (pure a : EStateM ε σ α) := hRefl

theorem leads_throw (hStop : ∀ s, E s s) (e : ε) : Leads R E (throw e : EStateM ε σ α) := hStop

theorem leads_attempt (hRefl : ∀ s, R s s) (hStop : ∀ s, E s s) (y : Except ε α) :
    Leads R E (attempt y : EStateM ε σ α) := by
  intro s
  exact post_attempt (fun _ _ => hRefl s) (fun _ _ => hStop s)

theorem leads_bind (hTrans : ∀ s t u, R s t → R t u → R s u)
    (hAfter : ∀ s t u, R s t → E t u → E s u) {f : α → EStateM ε σ β} (hx : Leads R E x)
    (hf : ∀ a, Leads R E (f a)) : Leads R E (x >>= f) := by
  intro s
  refine post_bind (hx s) ?_
  intro a s' hFirst
  refine post_mono (hf a s') ?_ ?_
  · intro b u hRest
    exact hTrans s s' u hFirst hRest
  · intro e u hRest
    exact hAfter s s' u hFirst hRest

end LeadsRules

/-! ## Relations kept by every outcome -/

/-- Every outcome of `x` leaves a state related by `R` to the one it started from. -/
def Keeps (R : σ → σ → Prop) (x : EStateM ε σ α) : Prop :=
  ∀ s, Post x s (fun _ s' => R s s') (fun _ s' => R s s')

section KeepsRules

variable {R : σ → σ → Prop} {x : EStateM ε σ α}

theorem keeps_pure (hRefl : ∀ s, R s s) (a : α) : Keeps R (pure a : EStateM ε σ α) := hRefl

theorem keeps_throw (hRefl : ∀ s, R s s) (e : ε) : Keeps R (throw e : EStateM ε σ α) := hRefl

theorem keeps_attempt (hRefl : ∀ s, R s s) (y : Except ε α) :
    Keeps R (attempt y : EStateM ε σ α) := by
  intro s
  exact post_attempt (fun _ _ => hRefl s) (fun _ _ => hRefl s)

theorem keeps_bind (hTrans : ∀ s t u, R s t → R t u → R s u) {f : α → EStateM ε σ β}
    (hx : Keeps R x) (hf : ∀ a, Keeps R (f a)) : Keeps R (x >>= f) := by
  intro s
  have hFirst := hx s
  unfold Post at hFirst ⊢
  change match EStateM.bind x f s with
    | .ok a s' => R s s'
    | .error e s' => R s s'
  unfold EStateM.bind
  cases hRun : x s with
  | ok a s' =>
    rw [hRun] at hFirst
    have hRest := hf a s'
    unfold Post at hRest
    cases hNext : f a s' with
    | ok b u =>
      rw [hNext] at hRest
      simpa only [hNext] using hTrans s s' u hFirst hRest
    | error e u =>
      rw [hNext] at hRest
      simpa only [hNext] using hTrans s s' u hFirst hRest
  | error e s' =>
    rw [hRun] at hFirst
    exact hFirst

theorem Keeps.finalState {s : σ} (h : Keeps R x) : R s (finalState x s) := by
  have hs := h s
  unfold Post at hs
  unfold Lib.finalState
  cases hRun : x s with
  | ok a s' => rw [hRun] at hs; exact hs
  | error e s' => rw [hRun] at hs; exact hs

end KeepsRules

end TulyaStore.Lib
