import Mathlib.Algebra.Order.Ring.Nat
import Mathlib.Data.Nat.Fib.Basic
import Mathlib.Tactic.Common

/-!
# Height-balanced ropes

A rope is a binary tree whose leaves carry the elements. `join` concatenates two balanced
ropes by descending the higher one and repairing the height with `rebalance`; `splitAt`
cuts a rope at a position with the help of `join`; `joinLevel` builds one rope from a row
of ropes by pairing neighbours.

* `rebalance_balanced`, `rebalance_height`: one rotation repairs a height difference of
  at most two.
* `join_balanced`, `join_height`: joining keeps balance, for any two heights.
* `toList_join`, `splitAt_toList`, `toList_joinLevel`: what the results hold.
* `fib_le_length`: a balanced rope of height `h` has at least `fib (h + 1)` elements.
-/

namespace TulyaStore.Lib

inductive Rope (α : Type) where
  | leaf (xs : List α)
  | node (left right : Rope α)

namespace Rope

variable {α : Type}

def height : Rope α → Nat
  | leaf _ => 1
  | node l r => max l.height r.height + 1

def toList : Rope α → List α
  | leaf xs => xs
  | node l r => l.toList ++ r.toList

def length (t : Rope α) : Nat := t.toList.length

/-- Sibling heights differ by at most one. -/
def Balanced : Rope α → Prop
  | leaf _ => True
  | node l r =>
      (l.height ≤ r.height + 1 ∧ r.height ≤ l.height + 1) ∧ l.Balanced ∧ r.Balanced

/-- Every leaf holds between one and `k` elements. -/
def Chunked (k : Nat) : Rope α → Prop
  | leaf xs => 1 ≤ xs.length ∧ xs.length ≤ k
  | node l r => l.Chunked k ∧ r.Chunked k

@[simp] theorem height_leaf (xs : List α) : (leaf xs).height = 1 := rfl

@[simp] theorem height_node (l r : Rope α) :
    (node l r).height = max l.height r.height + 1 := rfl

theorem balanced_node {l r : Rope α} : (node l r).Balanced ↔
    (l.height ≤ r.height + 1 ∧ r.height ≤ l.height + 1) ∧ l.Balanced ∧ r.Balanced := Iff.rfl

@[simp] theorem toList_leaf (xs : List α) : (leaf xs).toList = xs := rfl

@[simp] theorem toList_node (l r : Rope α) : (node l r).toList = l.toList ++ r.toList := rfl

@[simp] theorem length_leaf (xs : List α) : (leaf xs).length = xs.length := rfl

@[simp] theorem length_node (l r : Rope α) : (node l r).length = l.length + r.length := by
  simp [length]

theorem height_pos (t : Rope α) : 1 ≤ t.height := by
  cases t <;> simp

theorem length_pos {k : Nat} {t : Rope α} (h : t.Chunked k) : 1 ≤ t.length := by
  induction t with
  | leaf xs => exact h.1
  | node l r ihl ihr =>
    have := ihl h.1
    rw [length_node]
    omega

/-! ## Rotations -/

/-- One node over `l` and `r`, after a single or double rotation when their heights differ
by more than one. -/
def rebalance (l r : Rope α) : Rope α :=
  if l.height ≤ r.height + 1 ∧ r.height ≤ l.height + 1 then node l r
  else if r.height < l.height then
    match l with
    | leaf _ => node l r
    | node ll lr =>
      if lr.height ≤ ll.height then node ll (node lr r)
      else
        match lr with
        | leaf _ => node l r
        | node ml mr => node (node ll ml) (node mr r)
  else
    match r with
    | leaf _ => node l r
    | node rl rr =>
      if rl.height ≤ rr.height then node (node l rl) rr
      else
        match rl with
        | leaf _ => node l r
        | node ml mr => node (node l ml) (node mr rr)

theorem toList_rebalance (l r : Rope α) : (rebalance l r).toList = l.toList ++ r.toList := by
  unfold rebalance
  split
  · rfl
  · split
    · split
      · rfl
      · split
        · simp
        · split <;> simp
    · split
      · rfl
      · split
        · simp
        · split <;> simp

theorem rebalance_chunked {k : Nat} {l r : Rope α} (hl : l.Chunked k) (hr : r.Chunked k) :
    (rebalance l r).Chunked k := by
  unfold rebalance
  split
  · exact ⟨hl, hr⟩
  · split
    · split
      · exact ⟨hl, hr⟩
      · split
        · exact ⟨hl.1, hl.2, hr⟩
        · split
          · exact ⟨hl, hr⟩
          · exact ⟨⟨hl.1, hl.2.1⟩, hl.2.2, hr⟩
    · split
      · exact ⟨hl, hr⟩
      · split
        · exact ⟨⟨hl, hr.1⟩, hr.2⟩
        · split
          · exact ⟨hl, hr⟩
          · exact ⟨⟨hl, hr.1.1⟩, hr.1.2, hr.2⟩

theorem rebalance_of_near {l r : Rope α}
    (h : l.height ≤ r.height + 1 ∧ r.height ≤ l.height + 1) : rebalance l r = node l r := by
  unfold rebalance
  rw [if_pos h]

/-- A height difference of at most two is repaired, and the height grows by at most one. -/
theorem rebalance_spec {l r : Rope α} (hl : l.Balanced) (hr : r.Balanced)
    (hlr : l.height ≤ r.height + 2) (hrl : r.height ≤ l.height + 2) :
    (rebalance l r).Balanced ∧ max l.height r.height ≤ (rebalance l r).height ∧
      (rebalance l r).height ≤ max l.height r.height + 1 := by
  unfold rebalance
  split
  · rename_i h
    exact ⟨⟨h, hl, hr⟩, by simp, by simp⟩
  · rename_i hNot
    split
    · rename_i hHigh
      cases l with
      | leaf xs => have := r.height_pos; simp at hHigh; omega
      | node ll lr =>
        obtain ⟨hHeights, hll, hlr'⟩ := hl
        simp only [height_node] at *
        split
        · simp only [balanced_node, height_node, hll, hlr', hr, and_true]
          grind
        · cases lr with
          | leaf xs => have := ll.height_pos; simp at *; omega
          | node ml mr =>
            obtain ⟨hMiddle, hml, hmr⟩ := hlr'
            simp only [height_node] at *
            simp only [balanced_node, height_node, hll, hml, hmr, hr, and_true]
            grind
    · rename_i hHigh
      cases r with
      | leaf xs => have := l.height_pos; simp at *; omega
      | node rl rr =>
        obtain ⟨hHeights, hrl', hrr⟩ := hr
        simp only [height_node] at *
        split
        · simp only [balanced_node, height_node, hl, hrl', hrr, and_true]
          grind
        · cases rl with
          | leaf xs => have := rr.height_pos; simp at *; omega
          | node ml mr =>
            obtain ⟨hMiddle, hml, hmr⟩ := hrl'
            simp only [height_node] at *
            simp only [balanced_node, height_node, hl, hml, hmr, hrr, and_true]
            grind

/-! ## Joining -/

/-- Concatenation of two ropes. The higher rope is taken apart along its inner spine until
the heights match, and every node of the spine is rebuilt by `rebalance`. -/
def join (l r : Rope α) : Rope α :=
  if r.height + 1 < l.height then
    match l with
    | leaf _ => node l r
    | node ll lr => rebalance ll (join lr r)
  else if l.height + 1 < r.height then
    match r with
    | leaf _ => node l r
    | node rl rr => rebalance (join l rl) rr
  else node l r
termination_by sizeOf l + sizeOf r

theorem join_left {ll lr r : Rope α} (h : r.height + 1 < (node ll lr).height) :
    join (node ll lr) r = rebalance ll (join lr r) := by
  rw [join.eq_def, if_pos h]

theorem join_right {l rl rr : Rope α} (h : l.height + 1 < (node rl rr).height) :
    join l (node rl rr) = rebalance (join l rl) rr := by
  rw [join.eq_def, if_neg (by omega), if_pos h]

theorem join_near {l r : Rope α} (hl : ¬ r.height + 1 < l.height) (hr : ¬ l.height + 1 < r.height) :
    join l r = node l r := by
  rw [join.eq_def, if_neg hl, if_neg hr]

theorem toList_join (l r : Rope α) : (join l r).toList = l.toList ++ r.toList := by
  fun_induction join l r with
  | case1 => rfl
  | case2 r ll lr _ ih => simp [toList_rebalance, ih]
  | case3 => rfl
  | case4 l rl rr _ _ ih => simp [toList_rebalance, ih]
  | case5 => rfl

@[simp] theorem length_join (l r : Rope α) : (join l r).length = l.length + r.length := by
  simp [length, toList_join]

theorem join_chunked {k : Nat} {l r : Rope α} (hl : l.Chunked k) (hr : r.Chunked k) :
    (join l r).Chunked k := by
  fun_induction join l r with
  | case1 => exact ⟨hl, hr⟩
  | case2 r ll lr _ ih => exact rebalance_chunked hl.1 (ih hl.2 hr)
  | case3 => exact ⟨hl, hr⟩
  | case4 l rl rr _ _ ih => exact rebalance_chunked (ih hl hr.1) hr.2
  | case5 => exact ⟨hl, hr⟩

/-- Joining keeps balance and adds at most one level over the higher rope. -/
theorem join_spec {l r : Rope α} (hl : l.Balanced) (hr : r.Balanced) :
    (join l r).Balanced ∧ max l.height r.height ≤ (join l r).height ∧
      (join l r).height ≤ max l.height r.height + 1 := by
  fun_induction join l r with
  | case1 r xs h => simp at h
  | case2 r ll lr h ih =>
    obtain ⟨hHeights, hll, hlr⟩ := hl
    obtain ⟨hJoin, hLow, hUp⟩ := ih hlr hr
    simp only [height_node] at h ⊢
    obtain ⟨hBal, hLow', hUp'⟩ := rebalance_spec hll hJoin (by omega) (by omega)
    -- a rotation that does not happen leaves a node one level above its children
    by_cases hNear : ll.height ≤ (join lr r).height + 1 ∧ (join lr r).height ≤ ll.height + 1
    · rw [rebalance_of_near hNear] at hBal ⊢
      simp only [height_node]
      exact ⟨hBal, by grind, by grind⟩
    · exact ⟨hBal, by grind, by grind⟩
  | case3 l xs _ h => simp at h
  | case4 l rl rr _ h ih =>
    obtain ⟨hHeights, hrl, hrr⟩ := hr
    obtain ⟨hJoin, hLow, hUp⟩ := ih hl hrl
    simp only [height_node] at *
    obtain ⟨hBal, hLow', hUp'⟩ := rebalance_spec hJoin hrr (by omega) (by omega)
    by_cases hNear : (join l rl).height ≤ rr.height + 1 ∧ rr.height ≤ (join l rl).height + 1
    · rw [rebalance_of_near hNear] at hBal ⊢
      simp only [height_node]
      exact ⟨hBal, by grind, by grind⟩
    · exact ⟨hBal, by grind, by grind⟩
  | case5 l r h h' => exact ⟨⟨⟨by omega, by omega⟩, hl, hr⟩, by simp, by simp⟩

theorem join_balanced {l r : Rope α} (hl : l.Balanced) (hr : r.Balanced) : (join l r).Balanced :=
  (join_spec hl hr).1

/-! ## Optional ropes

The empty sequence has no rope, so operations whose result may be empty work on `Option`. -/

/-- The elements of a rope that may be missing. -/
def elements : Option (Rope α) → List α
  | none => []
  | some t => t.toList

/-- A missing rope is fine; a present one is balanced with leaves of at most `k`. -/
def Sound (k : Nat) (o : Option (Rope α)) : Prop := ∀ t, o = some t → t.Balanced ∧ t.Chunked k

@[simp] theorem elements_none : elements (none : Option (Rope α)) = [] := rfl

@[simp] theorem elements_some (t : Rope α) : elements (some t) = t.toList := rfl

theorem sound_none {k : Nat} : Sound k (none : Option (Rope α)) := by
  intro t h
  cases h

theorem sound_some {k : Nat} {t : Rope α} : Sound k (some t) ↔ t.Balanced ∧ t.Chunked k := by
  simp [Sound]

def joinOption : Option (Rope α) → Option (Rope α) → Option (Rope α)
  | none, r => r
  | l, none => l
  | some l, some r => some (join l r)

theorem elements_joinOption (l r : Option (Rope α)) :
    elements (joinOption l r) = elements l ++ elements r := by
  cases l <;> cases r <;> simp [joinOption, toList_join]

theorem joinOption_sound {k : Nat} {l r : Option (Rope α)} (hl : Sound k l) (hr : Sound k r) :
    Sound k (joinOption l r) := by
  cases l with
  | none => exact hr
  | some l =>
    cases r with
    | none => exact hl
    | some r =>
      rw [sound_some] at hl hr
      exact sound_some.mpr ⟨join_balanced hl.1 hr.1, join_chunked hl.2 hr.2⟩

/-! ## Splitting -/

/-- The rope of the first `k` elements and the rope of the rest. -/
def splitAt (t : Rope α) (k : Nat) : Option (Rope α) × Option (Rope α) :=
  if k = 0 then (none, some t)
  else if k = t.length then (some t, none)
  else
    match t with
    | leaf xs => (some (leaf (xs.take k)), some (leaf (xs.drop k)))
    | node l r =>
      if k < l.length then
        ((splitAt l k).1, joinOption (splitAt l k).2 (some r))
      else if k = l.length then (some l, some r)
      else (joinOption (some l) (splitAt r (k - l.length)).1, (splitAt r (k - l.length)).2)

theorem splitAt_zero (t : Rope α) : splitAt t 0 = (none, some t) := by
  rw [splitAt.eq_def, if_pos rfl]

theorem splitAt_length {t : Rope α} (h : t.length ≠ 0) : splitAt t t.length = (some t, none) := by
  rw [splitAt.eq_def, if_neg h, if_pos rfl]

section Inside

variable {k : Nat}

theorem splitAt_leaf {xs : List α} (h0 : k ≠ 0) (hk : k ≠ xs.length) :
    splitAt (leaf xs) k = (some (leaf (xs.take k)), some (leaf (xs.drop k))) := by
  rw [splitAt.eq_def, if_neg h0, length_leaf, if_neg hk]

theorem splitAt_node {l r : Rope α} (h0 : k ≠ 0) (hk : k ≠ (node l r).length) :
    splitAt (node l r) k =
      if k < l.length then ((splitAt l k).1, joinOption (splitAt l k).2 (some r))
      else if k = l.length then (some l, some r)
      else (joinOption (some l) (splitAt r (k - l.length)).1, (splitAt r (k - l.length)).2) := by
  rw [splitAt.eq_def, if_neg h0, if_neg hk]

end Inside

theorem splitAt_elements (t : Rope α) {k : Nat} (hk : k ≤ t.length) :
    elements (splitAt t k).1 = t.toList.take k ∧ elements (splitAt t k).2 = t.toList.drop k := by
  fun_induction splitAt t k with
  | case1 t => simp
  | case2 t => simp [length]
  | case3 => simp
  | case4 k _ l r hLess _ ih =>
    obtain ⟨hFirst, hSecond⟩ := ih (by omega)
    rw [elements_joinOption, hFirst, hSecond]
    simp only [toList_node, elements_some]
    exact ⟨(List.take_append_of_le_length hLess.le).symm,
      (List.drop_append_of_le_length hLess.le).symm⟩
  | case5 l r => simp [length]
  | case6 k _ l r hNotLess hNe _ ih =>
    rw [length_node] at hk
    obtain ⟨hFirst, hSecond⟩ := ih (by omega)
    have hLe : l.toList.length ≤ k := Nat.le_of_not_lt hNotLess
    rw [elements_joinOption, hFirst, hSecond]
    simp only [toList_node, elements_some, List.take_append, List.drop_append,
      List.take_of_length_le hLe, List.drop_of_length_le hLe, List.nil_append, length, and_self]

theorem splitAt_sound {m : Nat} {t : Rope α} {k : Nat} (hBal : t.Balanced) (hChunk : t.Chunked m)
    (hk : k ≤ t.length) : Sound m (splitAt t k).1 ∧ Sound m (splitAt t k).2 := by
  fun_induction splitAt t k with
  | case1 t => exact ⟨sound_none, sound_some.mpr ⟨hBal, hChunk⟩⟩
  | case2 t => exact ⟨sound_some.mpr ⟨hBal, hChunk⟩, sound_none⟩
  | case3 k h0 xs hLen =>
    have hBoth : xs.length ≤ m := hChunk.2
    simp only [length_leaf] at hLen hk
    refine ⟨sound_some.mpr ⟨trivial, ?_⟩, sound_some.mpr ⟨trivial, ?_⟩⟩ <;>
      simp only [Chunked, List.length_take, List.length_drop] <;> omega
  | case4 k _ l r hLess _ ih =>
    obtain ⟨hFirst, hSecond⟩ := ih hBal.2.1 hChunk.1 (by omega)
    exact ⟨hFirst, joinOption_sound hSecond (sound_some.mpr ⟨hBal.2.2, hChunk.2⟩)⟩
  | case5 l r =>
    exact ⟨sound_some.mpr ⟨hBal.2.1, hChunk.1⟩, sound_some.mpr ⟨hBal.2.2, hChunk.2⟩⟩
  | case6 k _ l r hNotLess hNe _ ih =>
    rw [length_node] at hk
    obtain ⟨hFirst, hSecond⟩ := ih hBal.2.2 hChunk.2 (by omega)
    exact ⟨joinOption_sound (sound_some.mpr ⟨hBal.2.1, hChunk.1⟩) hFirst, hSecond⟩

/-! ## Building from a row -/

/-- One round of pairing: neighbours are joined, an odd last rope stays. -/
def pairLevel : List (Rope α) → List (Rope α)
  | a :: b :: rest => join a b :: pairLevel rest
  | rest => rest

theorem length_pairLevel_le (level : List (Rope α)) :
    2 * (pairLevel level).length ≤ level.length + 1 := by
  fun_induction pairLevel level with
  | case1 a b rest ih => simp only [List.length_cons]; omega
  | case2 rest h =>
    match rest, h with
    | [], _ => simp
    | [a], _ => simp
    | a :: b :: rest, h => exact (h a b rest rfl).elim

theorem toList_pairLevel (level : List (Rope α)) :
    (pairLevel level).flatMap toList = level.flatMap toList := by
  fun_induction pairLevel level with
  | case1 a b rest ih => simp [toList_join, ih]
  | case2 => rfl

theorem pairLevel_forall {P : Rope α → Prop} (hJoin : ∀ a b, P a → P b → P (join a b))
    {level : List (Rope α)} (h : ∀ t ∈ level, P t) : ∀ t ∈ pairLevel level, P t := by
  fun_induction pairLevel level with
  | case1 a b rest ih =>
    intro t ht
    rcases List.mem_cons.mp ht with rfl | ht
    · exact hJoin a b (h a (by simp)) (h b (by simp))
    · exact ih (fun u hu => h u (by simp [hu])) t ht
  | case2 => exact h

theorem pairLevel_ne_nil {level : List (Rope α)} (h : level ≠ []) : pairLevel level ≠ [] := by
  fun_cases pairLevel level with
  | case1 => simp
  | case2 => exact h

/-- Pairing rounds until one rope is left. -/
def joinLevel (level : List (Rope α)) : Option (Rope α) :=
  if 1 < level.length then joinLevel (pairLevel level) else level.getLast?
termination_by level.length
decreasing_by
  have := length_pairLevel_le level
  omega

theorem joinLevel_spec {k : Nat} {level : List (Rope α)} (hNe : level ≠ [])
    (h : ∀ t ∈ level, t.Balanced ∧ t.Chunked k) :
    ∃ t, joinLevel level = some t ∧ t.Balanced ∧ t.Chunked k ∧
      t.toList = level.flatMap toList := by
  fun_induction joinLevel level with
  | case1 level hLen ih =>
    obtain ⟨t, hJoin, hBal, hChunk, hList⟩ := ih (pairLevel_ne_nil hNe)
      (pairLevel_forall (fun a b ha hb =>
        ⟨join_balanced ha.1 hb.1, join_chunked ha.2 hb.2⟩) h)
    exact ⟨t, hJoin, hBal, hChunk, hList.trans (toList_pairLevel level)⟩
  | case2 level hLen =>
    obtain ⟨t, rfl⟩ : ∃ t, level = [t] := by
      have := List.length_pos_of_ne_nil hNe
      exact List.length_eq_one_iff.mp (by omega)
    exact ⟨t, rfl, (h t (by simp)).1, (h t (by simp)).2, by simp⟩

/-! ## The height of a balanced rope -/

/-- The number of leaves. -/
def leafCount : Rope α → Nat
  | leaf _ => 1
  | node l r => leafCount l + leafCount r

theorem leafCount_le_length {k : Nat} {t : Rope α} (hChunk : t.Chunked k) :
    t.leafCount ≤ t.length := by
  induction t with
  | leaf xs => exact hChunk.1
  | node l r ihl ihr =>
    have hLeft := ihl hChunk.1
    have hRight := ihr hChunk.2
    rw [length_node, leafCount]
    omega

theorem fib_le_leafCount {t : Rope α} (hBal : t.Balanced) :
    Nat.fib (t.height + 1) ≤ t.leafCount := by
  induction t with
  | leaf xs => simp [leafCount]
  | node l r ihl ihr =>
    obtain ⟨hHeights, hl, hr⟩ := hBal
    have hLeft := ihl hl
    have hRight := ihr hr
    rw [leafCount, height_node, Nat.fib_add_two]
    -- the higher child has one level less than the node, the lower at most two less
    rcases le_total l.height r.height with hle | hle
    · rw [max_eq_right hle]
      have : Nat.fib r.height ≤ Nat.fib (l.height + 1) := Nat.fib_mono hHeights.2
      omega
    · rw [max_eq_left hle]
      have : Nat.fib l.height ≤ Nat.fib (r.height + 1) := Nat.fib_mono hHeights.1
      omega

theorem fib_le_length {k : Nat} {t : Rope α} (hBal : t.Balanced) (hChunk : t.Chunked k) :
    Nat.fib (t.height + 1) ≤ t.length :=
  (fib_le_leafCount hBal).trans (leafCount_le_length hChunk)

/-- A balanced rope shorter than `fib (n + 1)` has height below `n`. -/
theorem height_lt_of_length_lt {k n : Nat} {t : Rope α} (hBal : t.Balanced)
    (hChunk : t.Chunked k) (hLen : t.length < Nat.fib (n + 1)) : t.height < n := by
  by_contra hNot
  have hFib := fib_le_length hBal hChunk
  have hMono : Nat.fib (n + 1) ≤ Nat.fib (t.height + 1) := Nat.fib_mono (by omega)
  omega

end Rope

end TulyaStore.Lib
