import TulyaStore.Lib.Bytes
import TulyaStore.Lib.Check
import TulyaStore.Lib.Machine
import TulyaStore.Lib.Outcome

/-!
# Capacity requests and panics

A decoder reserves space for its tables before it fills them, and a slice, an index or a sum that is
not checked panics. A `Decoder` keeps both apart from the errors it returns: the capacities it asked
for are its state, and it stops with an error or with a panic. `Within limit x y` says that `x`
returns what `y` does, does not panic and asks for no capacity above `limit`.
-/

namespace TulyaStore.Lib

/-- Why a decoder stops: an error it returns, or a panic. -/
inductive Stop (ε : Type) where
  | error (e : ε)
  | panic
deriving DecidableEq, Repr

/-- A decoder with the capacities it has asked for. -/
abbrev Decoder (ε α : Type) := EStateM (Stop ε) (List Nat) α

variable {ε ε' α β : Type}

namespace Decoder

/-- A part that reserves nothing and checks everything. -/
def lift (x : Except ε α) : Decoder ε α := attempt (mapErr Stop.error x)

/-- `Vec::with_capacity`, `try_reserve_exact` -/
def reserve (n : Nat) : Decoder ε Unit := modify (· ++ [n])

/-- What panics when there is no such value: a slice, an element, a sum. -/
def orPanic (x : Option α) : Decoder ε α :=
  match x with
  | some a => pure a
  | none => throw .panic

/-- `a - b` on unsigned integers. -/
def sub (a b : Nat) : Decoder ε Nat := orPanic (if b ≤ a then some (a - b) else none)

/-- `a + b` on `usize`. -/
def add (a b : Nat) : Decoder ε Nat := orPanic (checkedAdd 64 a b)

/-- The same decoder with its errors rewritten. -/
def mapErr (f : ε → ε') (x : Decoder ε α) : Decoder ε' α := fun asked =>
  match x asked with
  | .ok a asked => .ok a asked
  | .error (.error e) asked => .error (.error (f e)) asked
  | .error .panic asked => .error .panic asked

end Decoder

open Decoder

/-! ## Parts that reserve nothing -/

section Lift

variable {x : Except ε α} {f : α → Except ε β}

theorem lift_bind : lift (x >>= f) = lift x >>= fun a => lift (f a) := by
  cases x <;> rfl

/-- Behind a part that reserves nothing the rest may use what it returned. -/
theorem lift_bind_congr {rest rest' : α → Decoder ε β} (h : ∀ a, x = .ok a → rest a = rest' a) :
    (lift x >>= rest) = lift x >>= rest' := by
  cases x with
  | ok a => exact h a rfl
  | error e => rfl

/-- A run behind a part that reserves nothing. -/
theorem lift_bind_run {a : α} {rest : α → Decoder ε β} {asked : List Nat} (h : x = .ok a) :
    (lift x >>= rest) asked = rest a asked := by
  subst h
  rfl

theorem lift_pure (a : α) : lift (pure a : Except ε α) = pure a := rfl

theorem lift_ok (a : α) : lift (.ok a : Except ε α) = pure a := rfl

theorem mapErr_lift (g : ε → ε') : (lift x).mapErr g = lift (Lib.mapErr g x) := by
  cases x <;> rfl

theorem lift_foldlM {γ : Type} {step : β → γ → Except ε β} {step' : β → γ → Decoder ε β}
    {xs : List γ} {b : β} (h : ∀ b c, step' b c = lift (step b c)) :
    xs.foldlM step' b = lift (xs.foldlM step b) := by
  induction xs generalizing b with
  | nil => rfl
  | cons c xs ih =>
    rw [List.foldlM_cons, List.foldlM_cons, lift_bind, h]
    simp only [ih]

theorem lift_forM {γ : Type} {step : γ → Except ε PUnit} {step' : γ → Decoder ε PUnit} {xs : List γ}
    (h : ∀ c, step' c = lift (step c)) : xs.forM step' = lift (xs.forM step) := by
  induction xs with
  | nil => rfl
  | cons c xs ih =>
    change (step' c >>= fun _ => xs.forM step') = lift (step c >>= fun _ => xs.forM step)
    rw [lift_bind, h, ih]

theorem orPanic_some {o : Option α} {a : α} (h : o = some a) :
    (orPanic o : Decoder ε α) = pure a := by
  subst h
  rfl

theorem sub_of_le {a b : Nat} (h : b ≤ a) : (sub a b : Decoder ε Nat) = pure (a - b) :=
  orPanic_some (if_pos h)

theorem add_of_lt {a b : Nat} (h : a + b < width 64) : (add a b : Decoder ε Nat) = pure (a + b) :=
  orPanic_some (if_pos h)

end Lift

/-! ## Bounded requests -/

/-- A run that returns what `y` does, with the capacities asked for on the way. -/
def answer (y : Except ε α) (asked : List Nat) : EStateM.Result (Stop ε) (List Nat) α :=
  match y with
  | .ok a => .ok a asked
  | .error e => .error (.error e) asked

/-- `x` returns what `y` does, without a panic and without a request above `limit`. -/
def Within (limit : Nat) (x : Decoder ε α) (y : Except ε α) : Prop :=
  ∀ asked, ∃ more, (∀ n ∈ more, n ≤ limit) ∧ x asked = answer y (asked ++ more)

section Within

variable {limit : Nat} {x : Decoder ε α} {y : Except ε α} {f : α → Decoder ε β}
  {g : α → Except ε β}

theorem within_lift (y : Except ε α) : Within limit (lift y) y := by
  intro asked
  refine ⟨[], fun n h => absurd h List.not_mem_nil, ?_⟩
  cases y with
  | ok a => exact congrArg _ (List.append_nil asked).symm
  | error e => exact congrArg _ (List.append_nil asked).symm

theorem within_pure (a : α) : Within limit (pure a : Decoder ε α) (pure a) := within_lift (.ok a)

theorem within_bind (hx : Within limit x y) (hf : ∀ a, y = .ok a → Within limit (f a) (g a)) :
    Within limit (x >>= f) (y >>= g) := by
  intro asked
  obtain ⟨more, hMore, hRun⟩ := hx asked
  cases y with
  | error e => exact ⟨more, hMore, bind_run_error hRun⟩
  | ok a =>
    obtain ⟨rest, hRest, hNext⟩ := hf a rfl (asked ++ more)
    refine ⟨more ++ rest, fun n hMem => ?_, ?_⟩
    · rcases List.mem_append.mp hMem with h | h
      · exact hMore n h
      · exact hRest n h
    · rw [← List.append_assoc]
      exact (bind_run_ok hRun).trans hNext

/-- A request within the limit leaves the outcome to what follows. -/
theorem within_reserve_bind {n : Nat} {rest : Unit → Decoder ε α} (h : n ≤ limit)
    (hRest : Within limit (rest ()) y) : Within limit (reserve n >>= rest) y := by
  intro asked
  obtain ⟨more, hMore, hRun⟩ := hRest (asked ++ [n])
  refine ⟨n :: more, fun m hMem => ?_, ?_⟩
  · rcases List.mem_cons.mp hMem with rfl | hMem
    · exact h
    · exact hMore m hMem
  · rw [List.append_cons]
    exact hRun

theorem within_mapErr (h : ε → ε') (hx : Within limit x y) :
    Within limit (x.mapErr h) (Lib.mapErr h y) := by
  intro asked
  obtain ⟨more, hMore, hRun⟩ := hx asked
  refine ⟨more, hMore, ?_⟩
  unfold Decoder.mapErr
  rw [hRun]
  cases y <;> rfl

theorem Within.mono {limit' : Nat} (hx : Within limit x y) (h : limit ≤ limit') :
    Within limit' x y := by
  intro asked
  obtain ⟨more, hMore, hRun⟩ := hx asked
  exact ⟨more, fun n hMem => (hMore n hMem).trans h, hRun⟩

/-- A run whose only request is above the limit. -/
theorem not_within_of_request {n : Nat} {stop : Stop ε} (h : limit < n)
    (hRun : x [] = .error stop [n]) : ¬ Within limit x y := by
  intro hx
  obtain ⟨more, hMore, hSame⟩ := hx []
  rw [hRun] at hSame
  cases y with
  | ok a => cases hSame
  | error e =>
    obtain ⟨-, rfl⟩ := EStateM.Result.error.inj hSame
    have := hMore n (List.mem_singleton_self n)
    omega

end Within

end TulyaStore.Lib
