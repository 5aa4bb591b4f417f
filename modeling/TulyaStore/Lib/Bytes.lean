import Mathlib.Algebra.Order.Ring.Nat
import Mathlib.Data.List.Basic
import Mathlib.Data.List.Lex
import Mathlib.Tactic.Common

/-!
# Byte strings and little-endian fields

`leBytes n v` writes `v` into `n` bytes, least significant first, and `leValue` reads any
byte string back. `slice` is the checked range access of a byte string: it is defined
exactly on the ranges inside the string, and it does not see bytes appended behind them.
-/

namespace TulyaStore.Lib

abbrev Bytes := List UInt8

/-- Bytes in their numeric order, which orders byte strings lexicographically. -/
instance byteOrder : LinearOrder UInt8 where
  le_refl := UInt8.le_refl
  le_trans := fun _ _ _ => UInt8.le_trans
  lt_iff_le_not_ge := fun a b => by
    rw [UInt8.lt_iff_toNat_lt, UInt8.le_iff_toNat_le, UInt8.le_iff_toNat_le]
    omega
  le_antisymm := fun _ _ => UInt8.le_antisymm
  le_total := UInt8.le_total
  toDecidableLE := inferInstance

/-- Byte strings are looked up in lists of byte strings by their equality. -/
instance lawfulBytes : LawfulBEq (List UInt8) := inferInstance

/-- The bytes of an ASCII text. -/
def ascii (s : String) : Bytes := s.toList.map (fun c => UInt8.ofNat c.toNat)

def leBytes : Nat → Nat → Bytes
  | 0, _ => []
  | n + 1, v => UInt8.ofNat (v % 256) :: leBytes n (v / 256)

def leValue : Bytes → Nat
  | [] => 0
  | b :: bs => b.toNat + 256 * leValue bs

@[simp] theorem length_leBytes (n v : Nat) : (leBytes n v).length = n := by
  induction n generalizing v with
  | zero => rfl
  | succ n ih => simp [leBytes, ih]

theorem leValue_leBytes {n v : Nat} (h : v < 256 ^ n) : leValue (leBytes n v) = v := by
  induction n generalizing v with
  | zero => simp at h; simp [leBytes, leValue, h]
  | succ n ih =>
    have hQuot : v / 256 < 256 ^ n := by
      rw [Nat.div_lt_iff_lt_mul (by decide)]
      simpa [Nat.pow_succ] using h
    have hByte : (UInt8.ofNat (v % 256)).toNat = v % 256 := by
      simp [UInt8.toNat_ofNat']
    simp only [leBytes, leValue, ih hQuot, hByte]
    omega

theorem leValue_lt (bs : Bytes) : leValue bs < 256 ^ bs.length := by
  induction bs with
  | nil => simp [leValue]
  | cons b bs ih =>
    have hb : b.toNat < 256 := b.toNat_lt
    simp only [leValue, List.length_cons, Nat.pow_succ]
    omega

theorem leBytes_leValue (bs : Bytes) : leBytes bs.length (leValue bs) = bs := by
  induction bs with
  | nil => rfl
  | cons b bs ih =>
    have hb : b.toNat < 256 := b.toNat_lt
    have hMod : (b.toNat + 256 * leValue bs) % 256 = b.toNat := by omega
    have hDiv : (b.toNat + 256 * leValue bs) / 256 = leValue bs := by omega
    simp only [List.length_cons, leBytes, leValue, hMod, hDiv, ih, UInt8.ofNat_toNat]

theorem leBytes_injective {n v w : Nat} (hv : v < 256 ^ n) (hw : w < 256 ^ n)
    (h : leBytes n v = leBytes n w) : v = w := by
  rw [← leValue_leBytes hv, h, leValue_leBytes hw]

/-! ## Checked ranges -/

/-- The bytes from `start` up to `stop`, when that is a range of the string. -/
def slice {α : Type} (bs : List α) (start stop : Nat) : Option (List α) :=
  if start ≤ stop ∧ stop ≤ bs.length then some ((bs.drop start).take (stop - start)) else none

section Slice

variable {α : Type} {bs cs xs : List α} {start stop : Nat}

theorem slice_eq_some : slice bs start stop = some xs ↔
    start ≤ stop ∧ stop ≤ bs.length ∧ (bs.drop start).take (stop - start) = xs := by
  unfold slice
  split <;> rename_i h
  · simp [h.1, h.2]
  · simp only [reduceCtorEq, false_iff, not_and]
    intro h1 h2
    exact (h ⟨h1, h2⟩).elim

theorem length_of_slice (h : slice bs start stop = some xs) : xs.length = stop - start := by
  obtain ⟨_, h2, rfl⟩ := slice_eq_some.mp h
  simp only [List.length_take, List.length_drop]
  omega

theorem slice_append (h : slice bs start stop = some xs) :
    slice (bs ++ cs) start stop = some xs := by
  obtain ⟨h1, h2, h3⟩ := slice_eq_some.mp h
  refine slice_eq_some.mpr ⟨h1, by simp; omega, ?_⟩
  rw [List.drop_append_of_le_length (by omega), List.take_append_of_le_length, h3]
  rw [List.length_drop]
  omega

/-- The bytes just appended are the last range. -/
theorem slice_append_self : slice (bs ++ xs) bs.length (bs.length + xs.length) = some xs := by
  refine slice_eq_some.mpr ⟨by omega, by simp, ?_⟩
  simp

/-- A range inside a range. -/
theorem slice_slice {a b : Nat} (h : slice bs start stop = some xs) (hab : a ≤ b)
    (hb : b ≤ xs.length) :
    slice bs (start + a) (start + b) = some ((xs.drop a).take (b - a)) := by
  have hLen := length_of_slice h
  obtain ⟨h1, h2, rfl⟩ := slice_eq_some.mp h
  refine slice_eq_some.mpr ⟨by omega, by omega, ?_⟩
  rw [List.drop_take, List.take_take, List.drop_drop]
  congr 1
  omega

/-- Two adjacent ranges are one. -/
theorem slice_concat {mid : Nat} {ys : List α} (h : slice bs start mid = some xs)
    (h' : slice bs mid stop = some ys) : slice bs start stop = some (xs ++ ys) := by
  obtain ⟨h1, h2, rfl⟩ := slice_eq_some.mp h
  obtain ⟨h3, h4, rfl⟩ := slice_eq_some.mp h'
  refine slice_eq_some.mpr ⟨by omega, h4, ?_⟩
  have hLen : stop - start = (mid - start) + (stop - mid) := by omega
  have hDrop : bs.drop mid = (bs.drop start).drop (mid - start) := by
    rw [List.drop_drop]
    congr 1
    omega
  rw [hLen, List.take_add, hDrop]

/-- A range read byte by byte. -/
theorem slice_eq_map (d : α) (h : slice bs start stop = some xs) :
    xs = (List.range' start (stop - start)).map (fun i => bs.getD i d) := by
  obtain ⟨h1, h2, rfl⟩ := slice_eq_some.mp h
  apply List.ext_getElem
  · simp only [List.length_take, List.length_drop, List.length_map, List.length_range']
    omega
  · intro i hi hi'
    simp only [List.length_take, List.length_drop] at hi
    rw [List.getElem_take, List.getElem_drop, List.getElem_map, List.getElem_range',
      List.getD_eq_getElem?_getD, List.getElem?_eq_getElem (by omega), Option.getD_some]
    congr 1
    omega

end Slice

/-! ## Chunks -/

/-- At most `steps` consecutive pieces of `k` elements. -/
def chunkSteps {α : Type} (k : Nat) : Nat → List α → List (List α)
  | 0, _ => []
  | _ + 1, [] => []
  | steps + 1, x :: xs => (x :: xs).take k :: chunkSteps k steps ((x :: xs).drop k)

/-- The list cut into pieces of `k` elements, the last one possibly shorter. -/
def chunks {α : Type} (k : Nat) (xs : List α) : List (List α) := chunkSteps k xs.length xs

section Chunks

variable {α : Type} {k : Nat}

theorem flatten_chunkSteps (hk : 0 < k) {steps : Nat} {xs : List α} (h : xs.length ≤ steps) :
    (chunkSteps k steps xs).flatten = xs := by
  induction steps generalizing xs with
  | zero =>
    have : xs = [] := List.length_eq_zero_iff.mp (by omega)
    subst this
    rfl
  | succ steps ih =>
    cases xs with
    | nil => rfl
    | cons x xs =>
      simp only [chunkSteps, List.flatten_cons]
      rw [ih (by simp only [List.length_drop, List.length_cons] at *; omega),
        List.take_append_drop]

theorem flatten_chunks (hk : 0 < k) (xs : List α) : (chunks k xs).flatten = xs :=
  flatten_chunkSteps hk (Nat.le_refl _)

theorem length_of_mem_chunkSteps (hk : 0 < k) {steps : Nat} {xs c : List α}
    (h : c ∈ chunkSteps k steps xs) : 1 ≤ c.length ∧ c.length ≤ k := by
  induction steps generalizing xs with
  | zero => simp [chunkSteps] at h
  | succ steps ih =>
    cases xs with
    | nil => simp [chunkSteps] at h
    | cons x xs =>
      rcases List.mem_cons.mp h with rfl | h
      · simp only [List.length_take, List.length_cons]
        omega
      · exact ih h

theorem length_of_mem_chunks (hk : 0 < k) {xs c : List α} (h : c ∈ chunks k xs) :
    1 ≤ c.length ∧ c.length ≤ k :=
  length_of_mem_chunkSteps hk h

theorem chunks_ne_nil (hk : 0 < k) {xs : List α} (h : xs ≠ []) : chunks k xs ≠ [] := by
  intro hNil
  have hFlat := flatten_chunks hk xs
  rw [hNil] at hFlat
  exact h hFlat.symm

theorem length_chunkSteps_le (hk : 0 < k) (steps : Nat) (xs : List α) :
    (chunkSteps k steps xs).length ≤ xs.length / k + 1 := by
  induction steps generalizing xs with
  | zero => simp [chunkSteps]
  | succ steps ih =>
    cases xs with
    | nil => simp [chunkSteps]
    | cons x xs =>
      have hRest := ih ((x :: xs).drop k)
      rw [List.length_drop] at hRest
      rw [chunkSteps, List.length_cons]
      by_cases hLong : k ≤ (x :: xs).length
      · have hDiv : ((x :: xs).length - k) / k + 1 = (x :: xs).length / k := by
          rw [← Nat.add_div_right _ hk, Nat.sub_add_cancel hLong]
        omega
      · have hDrop : (x :: xs).drop k = [] := List.drop_of_length_le (by omega)
        rw [hDrop]
        cases steps <;> simp [chunkSteps]

/-- The number of pieces. -/
theorem length_chunks_le (hk : 0 < k) (xs : List α) : (chunks k xs).length ≤ xs.length / k + 1 :=
  length_chunkSteps_le hk _ _

end Chunks

end TulyaStore.Lib
