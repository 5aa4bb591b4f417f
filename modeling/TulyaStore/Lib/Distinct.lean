import TulyaStore.Lib.Folds
import TulyaStore.Lib.KeyMap

/-!
# Tables filled without duplicates

A loop that enters every element under its key and refuses a key it has seen accepts exactly the
lists with distinct keys, and leaves the map of all of them (`foldlM_insert_eq_ok`).
-/

namespace TulyaStore.Lib

open KeyMap

theorem take_zipIdx {α : Type} (xs : List α) (i k : Nat) :
    (xs.zipIdx k).take i = (xs.take i).zipIdx k := by
  induction xs generalizing i k with
  | nil => simp
  | cons x xs ih =>
    cases i with
    | zero => rfl
    | succ i => rw [List.zipIdx_cons, List.take_succ_cons, ih, List.take_succ_cons, List.zipIdx_cons]

variable {ε K V α : Type} [LinearOrder K]

theorem KeyMap.get_insertAll_eq_none {m : KeyMap K V} {l : List (K × V)} {k : K} :
    (m.insertAll l).get k = none ↔ m.get k = none ∧ k ∉ l.map Prod.fst := by
  induction l generalizing m with
  | nil => simp [insertAll]
  | cons e l ih =>
    change ((m.insert e.1 e.2).insertAll l).get k = none ↔ _
    rw [ih, get_insert, List.map_cons, List.mem_cons, not_or, ← and_assoc]
    refine and_congr_left fun _ => ?_
    split
    case isTrue h => simp [h]
    case isFalse h => simp [h]

theorem KeyMap.containsKey_insertAll_empty {l : List (K × V)} {k : K} :
    ((empty : KeyMap K V).insertAll l).containsKey k = true ↔ k ∈ l.map Prod.fst := by
  rw [← Bool.not_eq_false, containsKey_eq_false, get_insertAll_eq_none]
  simp

variable {f : KeyMap K V → α → Except ε (KeyMap K V)} {key : α → K} {val : α → V}
  {Ok : KeyMap K V → α → Prop}

/-- A loop that enters every element under a key of its own. -/
theorem foldlM_insert_eq_ok
    (hTurn : ∀ m x m', f m x = .ok m' ↔
      Ok m x ∧ m.containsKey (key x) = false ∧ m' = m.insert (key x) (val x))
    {xs : List α} {m m' : KeyMap K V} :
    xs.foldlM f m = .ok m' ↔
      ((∀ i x, xs[i]? = some x → Ok (m.insertAll ((xs.take i).map fun y => (key y, val y))) x) ∧
        (xs.map key).Nodup ∧ ∀ x ∈ xs, m.containsKey (key x) = false) ∧
      m' = m.insertAll (xs.map fun y => (key y, val y)) := by
  induction xs generalizing m with
  | nil =>
    rw [List.foldlM_nil, pure_eq_ok, eq_comm]
    simp [insertAll]
  | cons x xs ih =>
    rw [List.foldlM_cons]
    simp only [bind_eq_ok, hTurn, ih]
    have hShift : ∀ i, m.insertAll (((x :: xs).take (i + 1)).map fun y => (key y, val y)) =
        (m.insert (key x) (val x)).insertAll ((xs.take i).map fun y => (key y, val y)) :=
      fun _ => rfl
    have hKeys : (∀ y ∈ xs, (m.insert (key x) (val x)).containsKey (key y) = false) ↔
        key x ∉ xs.map key ∧ ∀ y ∈ xs, m.containsKey (key y) = false := by
      simp only [containsKey_eq_false, get_insert, List.mem_map, not_exists, not_and,
        ← forall₂_and]
      refine forall₂_congr fun y _ => ?_
      split
      case isTrue h => simp [h]
      case isFalse h => simp [h]
    constructor
    · rintro ⟨_, ⟨hHead, hNew, rfl⟩, ⟨hRest, hDistinct, hFree⟩, rfl⟩
      obtain ⟨hOther, hOld⟩ := hKeys.mp hFree
      refine ⟨⟨fun i y hGet => ?_, List.nodup_cons.mpr ⟨hOther, hDistinct⟩, ?_⟩, rfl⟩
      · cases i with
        | zero =>
          cases hGet
          exact hHead
        | succ i =>
          rw [hShift]
          exact hRest i y hGet
      · intro y hMem
        obtain rfl | hMem := List.mem_cons.mp hMem
        · exact hNew
        · exact hOld y hMem
    · rintro ⟨⟨hAll, hDistinct, hFree⟩, rfl⟩
      obtain ⟨hOther, hRest⟩ := List.nodup_cons.mp hDistinct
      refine ⟨_, ⟨hAll 0 x rfl, hFree x List.mem_cons_self, rfl⟩,
        ⟨fun i y hGet => hAll (i + 1) y hGet, hRest,
          hKeys.mpr ⟨hOther, fun y hMem => hFree y (List.mem_cons_of_mem _ hMem)⟩⟩, rfl⟩

end TulyaStore.Lib
