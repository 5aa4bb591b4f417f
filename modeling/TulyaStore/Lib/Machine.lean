import Mathlib.Algebra.Order.Ring.Nat
import Mathlib.Tactic.Common

/-!
# Machine integers as bounded naturals

A fixed-width unsigned value is a natural number, and the operations that can leave the
width say so in their result: `checkedAdd` and `checkedMul` return `none`,
`saturatingAdd` stops at the top value. `okOr` turns an absent result into an error
value, which is how a fallible step consumes it.
-/

namespace TulyaStore.Lib

/-- The number of values of an unsigned integer of `w` bits. -/
def width (w : Nat) : Nat := 2 ^ w

/-- The largest value of an unsigned integer of `w` bits. -/
def maxValue (w : Nat) : Nat := 2 ^ w - 1

/-- `n` as an unsigned integer of `w` bits, when it is one. -/
def tryFrom (w n : Nat) : Option Nat := if n < width w then some n else none

def checkedAdd (w a b : Nat) : Option Nat := tryFrom w (a + b)

def checkedMul (w a b : Nat) : Option Nat := tryFrom w (a * b)

def saturatingAdd (w a b : Nat) : Nat := min (a + b) (maxValue w)

/-- The distance between two naturals. -/
def absDiff (a b : Nat) : Nat := (a - b) + (b - a)

/-- An absent value is the error `e`. -/
def okOr {ε α : Type} (x : Option α) (e : ε) : Except ε α :=
  match x with
  | some a => .ok a
  | none => .error e

@[simp] theorem okOr_some {ε α : Type} (a : α) (e : ε) : okOr (some a) e = .ok a := rfl

@[simp] theorem okOr_none {ε α : Type} (e : ε) : okOr (none : Option α) e = .error e := rfl

theorem okOr_eq_ok {ε α : Type} {x : Option α} {e : ε} {a : α} :
    okOr x e = .ok a ↔ x = some a := by
  cases x <;> simp [okOr]

theorem okOr_eq_error {ε α : Type} {x : Option α} {e d : ε} :
    okOr x e = .error d ↔ x = none ∧ e = d := by
  cases x <;> simp [okOr]

theorem tryFrom_eq_some {w n m : Nat} : tryFrom w n = some m ↔ n < width w ∧ m = n := by
  unfold tryFrom
  split <;> rename_i h <;> simp [h, eq_comm]

theorem tryFrom_of_lt {w n : Nat} (h : n < width w) : tryFrom w n = some n := by
  simp [tryFrom, h]

theorem tryFrom_of_le {w n : Nat} (h : width w ≤ n) : tryFrom w n = none := by
  simp [tryFrom, Nat.not_lt.mpr h]

theorem checkedAdd_of_lt {w a b : Nat} (h : a + b < width w) : checkedAdd w a b = some (a + b) :=
  tryFrom_of_lt h

theorem checkedAdd_of_le {w a b : Nat} (h : width w ≤ a + b) : checkedAdd w a b = none :=
  tryFrom_of_le h

theorem checkedAdd_eq_some {w a b c : Nat} :
    checkedAdd w a b = some c ↔ a + b < width w ∧ c = a + b :=
  tryFrom_eq_some

theorem absDiff_le_iff {a b k : Nat} : absDiff a b ≤ k ↔ a ≤ b + k ∧ b ≤ a + k := by
  unfold absDiff
  omega

end TulyaStore.Lib
