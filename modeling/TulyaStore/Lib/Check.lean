import TulyaStore.Lib.Machine

/-!
# Chains of checks

A validating function runs one check after the other and returns the error of the first
that fails. `failIf` is one check; `bind_eq_ok` and `failIf_eq_ok` turn the success of a
whole chain into the conjunction of what was checked, and `bind_eq_error` finds the check
that stopped it.
-/

namespace TulyaStore.Lib

variable {ε ε' α β : Type}

/-- Stop with `e` when the condition holds. -/
def failIf (c : Prop) [Decidable c] (e : ε) : Except ε Unit :=
  if c then .error e else .ok ()

section Chains

variable {c : Prop} [Decidable c] {e : ε}

@[simp] theorem failIf_eq_ok {u : Unit} : failIf c e = .ok u ↔ ¬ c := by
  unfold failIf
  split <;> simp_all

theorem failIf_pos (h : c) : failIf c e = .error e := by simp [failIf, h]

theorem failIf_neg (h : ¬ c) : failIf c e = .ok () := by simp [failIf, h]

theorem bind_eq_ok {x : Except ε α} {f : α → Except ε β} {b : β} :
    (x >>= f) = .ok b ↔ ∃ a, x = .ok a ∧ f a = .ok b := by
  cases x <;> simp [bind, Except.bind]

theorem bind_eq_error {x : Except ε α} {f : α → Except ε β} {d : ε} :
    (x >>= f) = .error d ↔ x = .error d ∨ ∃ a, x = .ok a ∧ f a = .error d := by
  cases x <;> simp [bind, Except.bind]

@[simp] theorem ok_bind (a : α) (f : α → Except ε β) : ((.ok a : Except ε α) >>= f) = f a := rfl

@[simp] theorem error_bind (d : ε) (f : α → Except ε β) :
    ((.error d : Except ε α) >>= f) = .error d := rfl

theorem pure_eq_ok {a b : α} : (pure a : Except ε α) = .ok b ↔ a = b := by
  simp [pure, Except.pure]

theorem exists_ok_of_isSome {x : Except ε α} (h : x.toOption.isSome = true) : ∃ a, x = .ok a := by
  cases x with
  | ok a => exact ⟨a, rfl⟩
  | error e => cases h

theorem ok_ne_error {a : α} {d : ε} : (.ok a : Except ε α) ≠ .error d := by
  intro h
  cases h

theorem failIf_ne_error {d : ε} (h : e ≠ d) : failIf c e ≠ .error d := by
  intro hError
  unfold failIf at hError
  split at hError
  · exact h (Except.error.inj hError)
  · cases hError

/-- A chain avoids an error that its links avoid. -/
theorem bind_ne_error {x : Except ε α} {f : α → Except ε β} {d : ε} (hx : x ≠ .error d)
    (hf : ∀ a, x = .ok a → f a ≠ .error d) : (x >>= f) ≠ .error d := by
  intro h
  rcases bind_eq_error.mp h with h | ⟨a, hOk, h⟩
  · exact hx h
  · exact hf a hOk h

theorem failIf_eq_error {d : ε} : failIf c e = .error d ↔ c ∧ e = d := by
  unfold failIf
  split <;> simp_all

/-- A row of checks passes when each of them does. -/
theorem forM_eq_ok {xs : List α} {f : α → Except ε PUnit} (h : ∀ x ∈ xs, f x = .ok ()) :
    xs.forM f = .ok () := by
  induction xs with
  | nil => rfl
  | cons x xs ih =>
    change (f x >>= fun _ => xs.forM f) = .ok ()
    rw [h x (by simp), ok_bind]
    exact ih fun y hy => h y (by simp [hy])

theorem eq_ok_of_forM {xs : List α} {f : α → Except ε PUnit} {u : PUnit} (h : xs.forM f = .ok u)
    {x : α} (hMem : x ∈ xs) : f x = .ok () := by
  induction xs with
  | nil => exact absurd hMem List.not_mem_nil
  | cons y xs ih =>
    change (f y >>= fun _ => xs.forM f) = .ok u at h
    obtain ⟨_, hHead, hRest⟩ := bind_eq_ok.mp h
    rcases List.mem_cons.mp hMem with rfl | hMem
    · exact hHead
    · exact ih hRest hMem

theorem forM_ne_error {xs : List α} {f : α → Except ε Unit} {d : ε}
    (h : ∀ x, f x ≠ .error d) : xs.forM f ≠ .error d := by
  induction xs with
  | nil => exact fun h => nomatch h
  | cons x xs ih =>
    change (f x >>= fun _ => xs.forM f) ≠ .error d
    exact bind_ne_error (h x) fun _ _ => ih

end Chains

/-- The same result with its error rewritten. -/
def mapErr (f : ε → ε') (x : Except ε α) : Except ε' α :=
  match x with
  | .ok a => .ok a
  | .error e => .error (f e)

@[simp] theorem mapErr_ok (f : ε → ε') (a : α) : mapErr f (.ok a : Except ε α) = .ok a := rfl

@[simp] theorem mapErr_error (f : ε → ε') (e : ε) :
    mapErr f (.error e : Except ε α) = .error (f e) := rfl

theorem mapErr_eq_error {f : ε → ε'} {x : Except ε α} {d : ε'} :
    mapErr f x = .error d ↔ ∃ e, x = .error e ∧ f e = d := by
  cases x <;> simp [mapErr]

theorem mapErr_ne_error {f : ε → ε'} {x : Except ε α} {d : ε'} (h : ∀ e, f e ≠ d) :
    mapErr f x ≠ .error d := by
  intro hErr
  obtain ⟨e, -, he⟩ := mapErr_eq_error.mp hErr
  exact h e he

theorem mapErr_eq_ok {f : ε → ε'} {x : Except ε α} {a : α} : mapErr f x = .ok a ↔ x = .ok a := by
  cases x <;> simp [mapErr]

end TulyaStore.Lib
