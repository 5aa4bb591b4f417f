import Mathlib.Data.List.Forall2
import Mathlib.Data.List.Induction
import TulyaStore.Lib.Check

/-!
# Loops over lists

A loop over a list is reasoned about by what holds before its turn `i`: the rules take a
property of the turn and the state, kept by each turn, to the end of the loop.
-/

namespace TulyaStore.Lib

variable {ε α β : Type}

theorem foldl_indexed {f : β → α → β} {P : Nat → β → Prop} {l : List α}
    (hTurn : ∀ (i : Nat) (x : α) t, l[i]? = some x → P i t → P (i + 1) (f t x)) {t : β}
    (h : P 0 t) : P l.length (l.foldl f t) := by
  induction l using List.reverseRecOn with
  | nil => exact h
  | append_singleton xs x ih =>
    have hBefore : P xs.length (xs.foldl f t) := by
      refine ih fun i y u hGet => hTurn i y u ?_
      obtain ⟨hLt, -⟩ := List.getElem?_eq_some_iff.mp hGet
      rwa [List.getElem?_append_left hLt]
    rw [List.foldl_append, List.length_append]
    exact hTurn xs.length x _ (by simp) hBefore

/-- A loop whose turns may fail, but do not. -/
theorem foldlM_indexed {f : β → α → Except ε β} {P : Nat → β → Prop} {l : List α}
    (hTurn : ∀ (i : Nat) (x : α) t, l[i]? = some x → P i t → ∃ t', f t x = .ok t' ∧ P (i + 1) t')
    {t : β} (h : P 0 t) : ∃ t', l.foldlM f t = .ok t' ∧ P l.length t' := by
  induction l using List.reverseRecOn with
  | nil => exact ⟨t, rfl, h⟩
  | append_singleton xs x ih =>
    obtain ⟨u, hRun, hBefore⟩ := ih fun i y u hGet => hTurn i y u (by
      obtain ⟨hLt, -⟩ := List.getElem?_eq_some_iff.mp hGet
      rwa [List.getElem?_append_left hLt])
    obtain ⟨t', hLast, hAfter⟩ := hTurn xs.length x u (by simp) hBefore
    refine ⟨t', ?_, by rwa [List.length_append]⟩
    rw [List.foldlM_append, hRun, ok_bind, List.foldlM_cons, hLast, ok_bind]
    rfl

/-- A loop avoids an error that its turns avoid. -/
theorem foldlM_ne_error {f : β → α → Except ε β} {xs : List α} {d : ε}
    (h : ∀ t x, f t x ≠ .error d) {t : β} : xs.foldlM f t ≠ .error d := by
  induction xs generalizing t with
  | nil => exact fun h => nomatch h
  | cons x xs ih =>
    rw [List.foldlM_cons]
    exact bind_ne_error (h t x) fun _ _ => ih

/-- What every successful turn keeps holds after a successful loop. -/
theorem foldlM_invariant {f : β → α → Except ε β} {P : Nat → β → Prop} {xs : List α}
    (hTurn : ∀ (i : Nat) (x : α) t t', xs[i]? = some x → P i t → f t x = .ok t' → P (i + 1) t')
    {t t' : β} (h : P 0 t) (hRun : xs.foldlM f t = .ok t') : P xs.length t' := by
  induction xs using List.reverseRecOn generalizing t' with
  | nil =>
    cases hRun
    exact h
  | append_singleton xs x ih =>
    rw [List.foldlM_append] at hRun
    obtain ⟨u, hFirst, hRun⟩ := bind_eq_ok.mp hRun
    rw [List.foldlM_cons] at hRun
    obtain ⟨t'', hLast, hRun⟩ := bind_eq_ok.mp hRun
    cases hRun
    rw [List.length_append]
    refine hTurn xs.length x u t' (by simp) (ih (fun i y u u' hGet => hTurn i y u u' ?_) hFirst) hLast
    obtain ⟨hLt, -⟩ := List.getElem?_eq_some_iff.mp hGet
    rwa [List.getElem?_append_left hLt]

/-- The results of a loop that collects them, one for each element. -/
theorem mapM_eq_ok {f : α → Except ε β} {xs : List α} {ys : List β} :
    xs.mapM f = .ok ys ↔ List.Forall₂ (fun x y => f x = .ok y) xs ys := by
  induction xs generalizing ys with
  | nil => rw [List.mapM_nil, pure_eq_ok, List.forall₂_nil_left_iff, eq_comm]
  | cons x xs ih =>
    rw [List.mapM_cons]
    simp only [bind_eq_ok, pure_eq_ok, ih, List.forall₂_cons_left_iff]
    constructor
    · rintro ⟨y, hHead, rest, hRest, rfl⟩
      exact ⟨y, rest, hHead, hRest, rfl⟩
    · rintro ⟨y, rest, hHead, hRest, rfl⟩
      exact ⟨y, hHead, rest, hRest, rfl⟩

/-- The element at an index of the second list belongs to one of the first. -/
theorem forall₂_getElem? {R : α → β → Prop} {xs : List α} {ys : List β}
    (h : List.Forall₂ R xs ys) {i : Nat} {y : β} (hGet : ys[i]? = some y) :
    ∃ x, xs[i]? = some x ∧ R x y := by
  induction h generalizing i with
  | nil => cases hGet
  | @cons x y' xs ys hHead _ ih =>
    cases i with
    | zero =>
      cases hGet
      exact ⟨x, rfl, hHead⟩
    | succ i => exact ih hGet

/-- When no element is dropped, the positions of a filtered list are those of its source. -/
theorem getElem?_filterMap {f : α → Option β} {xs : List α} (h : ∀ x ∈ xs, (f x).isSome) (i : Nat) :
    (xs.filterMap f)[i]? = xs[i]?.bind f := by
  induction xs generalizing i with
  | nil => rfl
  | cons x xs ih =>
    obtain ⟨y, hSome⟩ := Option.isSome_iff_exists.mp (h x List.mem_cons_self)
    rw [List.filterMap_cons_some hSome]
    cases i with
    | zero => exact hSome.symm
    | succ i => exact ih (fun z hMem => h z (List.mem_cons_of_mem _ hMem)) i

theorem length_filterMap {f : α → Option β} {xs : List α} (h : ∀ x ∈ xs, (f x).isSome) :
    (xs.filterMap f).length = xs.length := by
  induction xs with
  | nil => rfl
  | cons x xs ih =>
    obtain ⟨y, hSome⟩ := Option.isSome_iff_exists.mp (h x List.mem_cons_self)
    rw [List.filterMap_cons_some hSome, List.length_cons, List.length_cons,
      ih fun z hMem => h z (List.mem_cons_of_mem _ hMem)]

/-! ## Loops with an index -/

theorem forall_getElem?_cons {P : Nat → α → Prop} {x : α} {xs : List α} {k : Nat} :
    (∀ i y, (x :: xs)[i]? = some y → P (k + i) y) ↔
      P k x ∧ ∀ i y, xs[i]? = some y → P (k + 1 + i) y := by
  constructor
  · intro h
    refine ⟨h 0 x rfl, fun i y hGet => ?_⟩
    rw [Nat.add_right_comm, Nat.add_assoc]
    exact h (i + 1) y hGet
  · rintro ⟨hHead, hRest⟩ i y hGet
    cases i with
    | zero =>
      cases hGet
      exact hHead
    | succ i =>
      rw [Nat.add_comm i 1, ← Nat.add_assoc]
      exact hRest i y hGet

/-- A loop that checks each element and appends what it contributes. -/
theorem foldlM_collect_eq_ok {f : List β → α × Nat → Except ε (List β)} {Ok : Nat → α → Prop}
    {g : α → List β}
    (hTurn : ∀ acc x i acc', f acc (x, i) = .ok acc' ↔ Ok i x ∧ acc' = acc ++ g x) {xs : List α}
    {k : Nat} {acc acc' : List β} :
    (xs.zipIdx k).foldlM f acc = .ok acc' ↔
      (∀ i x, xs[i]? = some x → Ok (k + i) x) ∧ acc' = acc ++ xs.flatMap g := by
  induction xs generalizing k acc with
  | nil =>
    rw [List.zipIdx_nil, List.foldlM_nil, pure_eq_ok, eq_comm]
    simp
  | cons x xs ih =>
    rw [List.zipIdx_cons, List.foldlM_cons, forall_getElem?_cons, List.flatMap_cons,
      ← List.append_assoc]
    simp only [bind_eq_ok, hTurn, ih]
    constructor
    · rintro ⟨_, ⟨hHead, rfl⟩, hRest, rfl⟩
      exact ⟨⟨hHead, hRest⟩, rfl⟩
    · rintro ⟨⟨hHead, hRest⟩, rfl⟩
      exact ⟨_, ⟨hHead, rfl⟩, hRest, rfl⟩

theorem forM_zipIdx_eq_ok {f : α × Nat → Except ε PUnit} {xs : List α} {k : Nat} {u : PUnit} :
    (xs.zipIdx k).forM f = .ok u ↔ ∀ i x, xs[i]? = some x → f (x, k + i) = .ok () := by
  induction xs generalizing k with
  | nil =>
    change (.ok () : Except ε PUnit) = .ok u ↔ _
    simp
  | cons x xs ih =>
    rw [List.zipIdx_cons]
    change (f (x, k) >>= fun _ => (xs.zipIdx (k + 1)).forM f) = .ok u ↔ _
    rw [forall_getElem?_cons (P := fun i y => f (y, i) = .ok ()), bind_eq_ok]
    simp only [ih]
    constructor
    · rintro ⟨_, hHead, hRest⟩
      exact ⟨hHead, hRest⟩
    · rintro ⟨hHead, hRest⟩
      exact ⟨(), hHead, hRest⟩

theorem zip_map_self {α β : Type} (f : α → β) (xs : List α) :
    xs.zip (xs.map f) = xs.map fun x => (x, f x) := by
  induction xs with
  | nil => rfl
  | cons x xs ih => simp only [List.map_cons, List.zip_cons_cons, ih]

end TulyaStore.Lib
