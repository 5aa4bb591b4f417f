import Mathlib.Algebra.Order.Ring.Nat
import Mathlib.Data.List.Induction
import Mathlib.Data.List.Perm.Subperm
import Mathlib.Logic.Relation
import Mathlib.Tactic.Common

/-!
# Marking what a work list reaches

`Reaches next seeds x` says that `x` is a seed or follows from one along `next`. A traversal
with a work list moves one element at a time from `work` to `done` and claims the successors
that were not claimed before. `Marking` is its invariant, and once the work list is empty
`done` lists exactly what the seeds reach. `claim` keeps the claimed and the waiting elements.
-/

namespace TulyaStore.Lib

variable {α : Type} {next : α → α → Prop} {seeds : List α}

/-- `x` is reached from one of the seeds. -/
def Reaches (next : α → α → Prop) (seeds : List α) (x : α) : Prop :=
  ∃ s ∈ seeds, Relation.ReflTransGen next s x

theorem Reaches.seed {s : α} (h : s ∈ seeds) : Reaches next seeds s := ⟨s, h, .refl⟩

theorem Reaches.step {x y : α} (h : Reaches next seeds x) (hNext : next x y) :
    Reaches next seeds y := by
  obtain ⟨s, hSeed, hPath⟩ := h
  exact ⟨s, hSeed, hPath.tail hNext⟩

/-- What holds of the seeds and is handed on by `next` holds of everything reached. -/
theorem Reaches.induction {P : α → Prop} (hSeed : ∀ s ∈ seeds, P s)
    (hStep : ∀ x y, P x → next x y → P y) {x : α} (h : Reaches next seeds x) : P x := by
  obtain ⟨s, hMem, hPath⟩ := h
  induction hPath with
  | refl => exact hSeed s hMem
  | tail _ hNext ih => exact hStep _ _ ih hNext

/-- The invariant of a traversal: what was visited, and what is claimed and waits. -/
structure Marking (next : α → α → Prop) (seeds done work : List α) : Prop where
  nodup : (done ++ work).Nodup
  reached : ∀ x ∈ done ++ work, Reaches next seeds x
  seeded : ∀ s ∈ seeds, s ∈ done ++ work
  closed : ∀ x ∈ done, ∀ y, next x y → y ∈ done ++ work

namespace Marking

theorem start {work : List α} (hNodup : work.Nodup) (hSeeds : ∀ x, x ∈ work ↔ x ∈ seeds) :
    Marking next seeds [] work where
  nodup := hNodup
  reached x hMem := .seed ((hSeeds x).mp hMem)
  seeded s hMem := (hSeeds s).mpr hMem
  closed _ hMem := absurd hMem List.not_mem_nil

/-- A visit: the new work list has the old one and the successors of `x`, each once. -/
theorem visit {done work work' : List α} {x : α} (h : Marking next seeds done (x :: work))
    (hNodup : (done ++ x :: work').Nodup)
    (hWork : ∀ y, y ∈ done ++ x :: work' ↔ y ∈ done ++ x :: work ∨ next x y) :
    Marking next seeds (done ++ [x]) work' := by
  have hAssoc : done ++ [x] ++ work' = done ++ x :: work' := by simp
  refine ⟨?_, ?_, ?_, ?_⟩
  · rwa [hAssoc]
  · intro y hMem
    rw [hAssoc, hWork] at hMem
    rcases hMem with hOld | hNext
    · exact h.reached y hOld
    · exact (h.reached x (by simp)).step hNext
  · intro s hSeed
    rw [hAssoc, hWork]
    exact Or.inl (h.seeded s hSeed)
  · intro z hMem y hNext
    rw [hAssoc, hWork]
    rcases List.mem_append.mp hMem with hOld | hLast
    · exact Or.inl (h.closed z hOld y hNext)
    · rw [List.mem_singleton.mp hLast] at hNext
      exact Or.inr hNext

/-- With nothing left to visit, the visited elements are those the seeds reach. -/
theorem complete {done : List α} (h : Marking next seeds done []) (x : α) :
    x ∈ done ↔ Reaches next seeds x := by
  constructor
  · intro hMem
    exact h.reached x (by simpa using hMem)
  · intro hReached
    refine hReached.induction (fun s hSeed => by simpa using h.seeded s hSeed) ?_
    intro y z hMem hNext
    simpa using h.closed y hMem z hNext

/-- There are no more turns than elements below a bound on what is reached. -/
theorem length_le {done work : List Nat} {next : Nat → Nat → Prop} {seeds : List Nat}
    (h : Marking next seeds done work) {n : Nat} (hBound : ∀ x, Reaches next seeds x → x < n) :
    done.length + work.length ≤ n := by
  have hSubset : done ++ work ⊆ List.range n := fun x hMem =>
    List.mem_range.mpr (hBound x (h.reached x hMem))
  have hLe := (h.nodup.subperm hSubset).length_le
  rwa [List.length_range, List.length_append] at hLe

end Marking

/-! ## Claims -/

section Claim

variable [DecidableEq α]

/-- A first claim puts the element on both lists, the claimed and the waiting. -/
def claim (x : α) (marks : List α × List α) : List α × List α :=
  if x ∈ marks.1 then marks else (x :: marks.1, x :: marks.2)

/-- The claimed elements are the visited and the waiting ones, each once, and a claim adds `x`. -/
theorem claim_spec {marks : List α × List α} {front : List α}
    (hPerm : marks.1.Perm (front ++ marks.2)) (hNodup : (front ++ marks.2).Nodup) (x : α) :
    (claim x marks).1.Perm (front ++ (claim x marks).2) ∧ (front ++ (claim x marks).2).Nodup ∧
      ∀ y, y ∈ front ++ (claim x marks).2 ↔ y ∈ front ++ marks.2 ∨ y = x := by
  unfold claim
  split
  case isTrue hOld =>
    refine ⟨hPerm, hNodup, fun y => ⟨Or.inl, ?_⟩⟩
    rintro (hMem | rfl)
    · exact hMem
    · exact hPerm.mem_iff.mp hOld
  case isFalse hNew =>
    have hMiddle : (front ++ x :: marks.2).Perm (x :: (front ++ marks.2)) := List.perm_middle
    refine ⟨(hPerm.cons x).trans hMiddle.symm, hMiddle.nodup_iff.mpr ?_, fun y => ?_⟩
    · exact List.nodup_cons.mpr ⟨fun hMem => hNew (hPerm.mem_iff.mpr hMem), hNodup⟩
    · rw [hMiddle.mem_iff, List.mem_cons, or_comm]

/-- Claims from an empty start list the claimed elements once each. -/
theorem foldl_claim_spec (xs : List α) :
    (xs.foldl (fun marks x => claim x marks) ([], [])).1.Perm
        (xs.foldl (fun marks x => claim x marks) ([], [])).2 ∧
      (xs.foldl (fun marks x => claim x marks) ([], [])).2.Nodup ∧
      ∀ y, y ∈ (xs.foldl (fun marks x => claim x marks) ([], [])).2 ↔ y ∈ xs := by
  induction xs using List.reverseRecOn with
  | nil => exact ⟨.nil, List.nodup_nil, fun _ => Iff.rfl⟩
  | append_singleton xs x ih =>
    obtain ⟨hPerm, hNodup, hMem⟩ := ih
    have hFront (marks : List α × List α) (h : marks.1.Perm marks.2) :
      marks.1.Perm ([] ++ marks.2) := h
    obtain ⟨hPerm', hNodup', hMem'⟩ := claim_spec (hFront _ hPerm) hNodup x
    simp only [List.nil_append] at hPerm' hNodup' hMem'
    rw [List.foldl_append, List.foldl_cons, List.foldl_nil]
    refine ⟨hPerm', hNodup', fun y => ?_⟩
    rw [hMem' y, hMem y, List.mem_append, List.mem_singleton]

end Claim

end TulyaStore.Lib
