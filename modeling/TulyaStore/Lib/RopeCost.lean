import Mathlib.Data.Nat.Log
import TulyaStore.Lib.Machine
import TulyaStore.Lib.Rope

/-!
# What rope operations build

The number of tree nodes that the rope operations make, and the leaves they move. A join
costs the difference of the heights, once for each level it descends. The joins of a split
run on the way back up, where every piece joins a subtree at most one level lower and the
result is at least as high as both: the differences telescope into the heights of the two
parts, and a split costs a multiple of the height of the rope (`splitCost_le`). The same
argument, over the last rope of a row, bounds the joins that build a rope from a row of
leaves (`levelCost_le`).

Operations keep the leaves and their order; a split only cuts the leaf the position lies in
(`splitAt_leaves`).
-/

namespace TulyaStore.Lib.Rope

variable {α : Type}

/-! ## Joining -/

/-- The nodes a join makes at most: three for each level it descends, and one. -/
def joinCost (l r : Rope α) : Nat := 3 * absDiff l.height r.height + 1

theorem joinCost_left {ll lr r : Rope α} (hBal : (node ll lr).Balanced)
    (h : r.height + 1 < (node ll lr).height) :
    joinCost lr r + 3 ≤ joinCost (node ll lr) r := by
  obtain ⟨hNear, -, -⟩ := hBal
  rw [height_node] at h
  simp only [joinCost, absDiff, height_node]
  omega

theorem joinCost_right {l rl rr : Rope α} (hBal : (node rl rr).Balanced)
    (h : l.height + 1 < (node rl rr).height) :
    joinCost l rl + 3 ≤ joinCost l (node rl rr) := by
  obtain ⟨hNear, -, -⟩ := hBal
  rw [height_node] at h
  simp only [joinCost, absDiff, height_node]
  omega

/-- The height of a rope that may be missing. -/
def levels : Option (Rope α) → Nat
  | none => 0
  | some t => t.height

@[simp] theorem levels_none : levels (none : Option (Rope α)) = 0 := rfl

@[simp] theorem levels_some (t : Rope α) : levels (some t) = t.height := rfl

def joinOptionCost : Option (Rope α) → Option (Rope α) → Nat
  | some l, some r => joinCost l r
  | _, _ => 0

/-- A join of sound ropes is as high as the higher one, or one level higher. -/
theorem joinOption_levels {k : Nat} {l r : Option (Rope α)} (hl : Sound k l) (hr : Sound k r) :
    levels l ≤ levels (joinOption l r) ∧ levels r ≤ levels (joinOption l r) ∧
      levels (joinOption l r) ≤ max (levels l) (levels r) + 1 := by
  cases l with
  | none => simp [joinOption]
  | some l =>
    cases r with
    | none => simp [joinOption]
    | some r =>
      obtain ⟨-, hLow, hUp⟩ := join_spec (sound_some.mp hl).1 (sound_some.mp hr).1
      simp only [joinOption, levels_some]
      omega

theorem joinOptionCost_le (l r : Option (Rope α)) :
    joinOptionCost l r ≤ 3 * max (levels l) (levels r) + 1 := by
  cases l <;> cases r <;> simp only [joinOptionCost, joinCost, absDiff, levels_some] <;> omega

/-! ## Splitting -/

/-- The nodes a split makes at most: the two parts of the leaf, and the joins. -/
def splitCost (t : Rope α) (k : Nat) : Nat :=
  if k = 0 then 0
  else if k = t.length then 0
  else
    match t with
    | leaf _ => 2
    | node l r =>
      if k < l.length then splitCost l k + joinOptionCost (splitAt l k).2 (some r)
      else if k = l.length then 0
      else splitCost r (k - l.length) + joinOptionCost (some l) (splitAt r (k - l.length)).1

theorem splitCost_zero (t : Rope α) : splitCost t 0 = 0 := by
  rw [splitCost.eq_def, if_pos rfl]

theorem splitCost_length (t : Rope α) : splitCost t t.length = 0 := by
  rw [splitCost.eq_def, if_pos rfl, ite_self]

theorem splitCost_leaf {xs : List α} {k : Nat} (h0 : k ≠ 0) (hk : k ≠ xs.length) :
    splitCost (leaf xs) k = 2 := by
  rw [splitCost.eq_def, if_neg h0, length_leaf, if_neg hk]

theorem splitCost_node {l r : Rope α} {k : Nat} (h0 : k ≠ 0) (hk : k ≠ (node l r).length) :
    splitCost (node l r) k =
      if k < l.length then splitCost l k + joinOptionCost (splitAt l k).2 (some r)
      else if k = l.length then 0
      else splitCost r (k - l.length) + joinOptionCost (some l) (splitAt r (k - l.length)).1 := by
  rw [splitCost.eq_def, if_neg h0, if_neg hk]

/-- The parts of a split are no higher than the rope. -/
theorem splitAt_levels {m : Nat} {t : Rope α} {k : Nat} (hBal : t.Balanced) (hChunk : t.Chunked m)
    (hk : k ≤ t.length) :
    levels (splitAt t k).1 ≤ t.height ∧ levels (splitAt t k).2 ≤ t.height := by
  fun_induction splitAt t k with
  | case1 t => simp
  | case2 t => simp
  | case3 => simp
  | case4 k _ l r hLess _ ih =>
    obtain ⟨hFirst, hSecond⟩ := ih hBal.2.1 hChunk.1 (by omega)
    obtain ⟨-, hNear⟩ := splitAt_sound hBal.2.1 hChunk.1 hLess.le
    obtain ⟨-, -, hUp⟩ := joinOption_levels hNear (sound_some.mpr ⟨hBal.2.2, hChunk.2⟩)
    rw [levels_some] at hUp
    rw [height_node]
    dsimp only
    omega
  | case5 l r =>
    simp only [levels_some, height_node]
    omega
  | case6 k _ l r hNotLess hNe _ ih =>
    rw [length_node] at hk
    obtain ⟨hFirst, hSecond⟩ := ih hBal.2.2 hChunk.2 (by omega)
    obtain ⟨hNear, -⟩ := splitAt_sound hBal.2.2 hChunk.2 (show k - l.length ≤ r.length by omega)
    obtain ⟨-, -, hUp⟩ := joinOption_levels (sound_some.mpr ⟨hBal.2.1, hChunk.1⟩) hNear
    rw [levels_some] at hUp
    rw [height_node]
    dsimp only
    omega

/-- A piece of a subtree joined with its sibling: the difference of the heights is paid by the
height the result has over the piece. -/
theorem joinOptionCost_right {m : Nat} {near : Option (Rope α)} {r : Rope α}
    (hNear : Sound m near) (hr : r.Balanced ∧ r.Chunked m) (hHeight : levels near ≤ r.height + 1) :
    joinOptionCost near (some r) + 3 * levels near ≤
      3 * levels (joinOption near (some r)) + 4 := by
  cases near with
  | none => simp [joinOptionCost]
  | some near =>
    obtain ⟨hLow, hLow', -⟩ := joinOption_levels hNear (sound_some.mpr hr)
    simp only [joinOptionCost, joinCost, absDiff, levels_some] at *
    omega

theorem joinOptionCost_left {m : Nat} {near : Option (Rope α)} {l : Rope α}
    (hl : l.Balanced ∧ l.Chunked m) (hNear : Sound m near) (hHeight : levels near ≤ l.height + 1) :
    joinOptionCost (some l) near + 3 * levels near ≤
      3 * levels (joinOption (some l) near) + 4 := by
  cases near with
  | none => simp [joinOptionCost]
  | some near =>
    obtain ⟨hLow, hLow', -⟩ := joinOption_levels (sound_some.mpr hl) hNear
    simp only [joinOptionCost, joinCost, absDiff, levels_some] at *
    omega

/-- The joins of a split telescope: they are paid by the heights of the two parts, and a
constant for each level. -/
theorem splitCost_telescope {m : Nat} {t : Rope α} {k : Nat} (hBal : t.Balanced)
    (hChunk : t.Chunked m) (hk : k ≤ t.length) :
    splitCost t k ≤
      3 * (levels (splitAt t k).1 + levels (splitAt t k).2) + 4 * t.height := by
  fun_induction splitAt t k with
  | case1 t => simp [splitCost_zero]
  | case2 t h0 => simp [splitCost_length]
  | case3 k h0 xs hLen =>
    have hCost : splitCost (leaf xs) k = 2 := splitCost_leaf h0 hLen
    rw [hCost, height_leaf]
    omega
  | case4 k h0 l r hLess hLen ih =>
    have hCost := ih hBal.2.1 hChunk.1 hLess.le
    obtain ⟨-, hNear⟩ := splitAt_sound hBal.2.1 hChunk.1 hLess.le
    obtain ⟨-, hNearHeight⟩ := splitAt_levels hBal.2.1 hChunk.1 hLess.le
    have hHeights := hBal.1
    have hJoin := joinOptionCost_right hNear ⟨hBal.2.2, hChunk.2⟩ (by omega)
    rw [splitCost_node h0 hLen, if_pos hLess, height_node]
    dsimp only
    omega
  | case5 l r h0 _ hLen =>
    rw [splitCost_node h0 hLen, if_neg (Nat.lt_irrefl _), if_pos rfl]
    exact Nat.zero_le _
  | case6 k h0 l r hNotLess hNe hLen ih =>
    rw [length_node] at hk
    have hLe : k - l.length ≤ r.length := by omega
    have hCost := ih hBal.2.2 hChunk.2 hLe
    obtain ⟨hNear, -⟩ := splitAt_sound hBal.2.2 hChunk.2 hLe
    obtain ⟨hNearHeight, -⟩ := splitAt_levels hBal.2.2 hChunk.2 hLe
    have hHeights := hBal.1
    have hJoin := joinOptionCost_left ⟨hBal.2.1, hChunk.1⟩ hNear (by omega)
    rw [splitCost_node h0 hLen, if_neg hNotLess, if_neg hNe, height_node]
    dsimp only
    omega

theorem splitCost_le {m : Nat} {t : Rope α} {k : Nat} (hBal : t.Balanced) (hChunk : t.Chunked m)
    (hk : k ≤ t.length) : splitCost t k ≤ 10 * t.height := by
  have hCost := splitCost_telescope hBal hChunk hk
  obtain ⟨hFirst, hSecond⟩ := splitAt_levels hBal hChunk hk
  omega

/-! ## Building from a row -/

/-- The nodes one round of pairing makes at most. -/
def pairCost : List (Rope α) → Nat
  | a :: b :: rest => joinCost a b + pairCost rest
  | _ => 0

/-- The nodes all rounds make at most. -/
def levelCost (level : List (Rope α)) : Nat :=
  if 1 < level.length then pairCost level + levelCost (pairLevel level) else 0
termination_by level.length
decreasing_by
  have := length_pairLevel_le level
  omega

/-- All ropes of the row have height `f`, except that the last one may be lower. -/
def Ranked (f : Nat) : List (Rope α) → Prop
  | [] => True
  | [t] => t.height ≤ f
  | t :: u :: rest => t.height = f ∧ Ranked f (u :: rest)

theorem ranked_cons {f : Nat} {t : Rope α} {row : List (Rope α)} (hNe : row ≠ []) :
    Ranked f (t :: row) ↔ t.height = f ∧ Ranked f row := by
  cases row with
  | nil => exact absurd rfl hNe
  | cons u rest => rfl

theorem ranked_leaves (pieces : List (List α)) : Ranked 1 (pieces.map leaf) := by
  induction pieces with
  | nil => trivial
  | cons xs rest ih =>
    cases rest with
    | nil => exact le_rfl
    | cons ys rest => exact ⟨rfl, ih⟩

/-- One round: the row is ranked one level higher, and the height the last rope gains pays for
its join. -/
theorem pairLevel_ranked {f : Nat} {level : List (Rope α)} (hRank : Ranked f level)
    (hBal : ∀ t ∈ level, t.Balanced) :
    Ranked (f + 1) (pairLevel level) ∧
      pairCost level + 3 * levels level.getLast? + (pairLevel level).length ≤
        level.length + 3 * levels (pairLevel level).getLast? := by
  fun_induction pairLevel level with
  | case1 a b rest ih =>
    have ha : a.Balanced := hBal a (by simp)
    have hb : b.Balanced := hBal b (by simp)
    obtain ⟨hHeight, hRest⟩ := hRank
    obtain ⟨-, hLow, hUp⟩ := join_spec ha hb
    by_cases hNil : rest = []
    · subst hNil
      have hLast : b.height ≤ f := hRest
      have hJoined : (join a b).height ≤ f + 1 := by omega
      refine ⟨hJoined, ?_⟩
      simp only [pairCost, joinCost, absDiff, pairLevel, List.getLast?_cons_cons,
        List.getLast?_singleton, levels_some, List.length_cons, List.length_nil]
      omega
    · obtain ⟨hLast, hRanked⟩ := (ranked_cons hNil).mp hRest
      obtain ⟨hNext, hCost⟩ := ih hRanked (fun t ht => hBal t (by simp [ht]))
      have hNode : join a b = node a b := join_near (by omega) (by omega)
      have hNextNe : pairLevel rest ≠ [] := pairLevel_ne_nil hNil
      refine ⟨(ranked_cons hNextNe).mpr ⟨?_, hNext⟩, ?_⟩
      · rw [hNode, height_node, hHeight, hLast, max_self]
      · have hJoinCost : joinCost a b = 1 := by
          simp only [joinCost, absDiff]
          omega
        have hTail : (a :: b :: rest).getLast? = rest.getLast? := by
          obtain ⟨c, rest', rfl⟩ := List.exists_cons_of_ne_nil hNil
          simp [List.getLast?_cons_cons]
        have hTail' : (join a b :: pairLevel rest).getLast? = (pairLevel rest).getLast? := by
          obtain ⟨c, rest', hEq⟩ := List.exists_cons_of_ne_nil hNextNe
          rw [hEq, List.getLast?_cons_cons]
        rw [hTail, hTail', pairCost, hJoinCost]
        simp only [List.length_cons]
        omega
  | case2 rest hShort =>
    match rest, hShort with
    | [], _ => exact ⟨trivial, by simp [pairCost]⟩
    | [t], _ => exact ⟨Nat.le_succ_of_le hRank, by simp [pairCost, Nat.add_comm]⟩
    | a :: b :: rest, hShort => exact (hShort a b rest rfl).elim

/-- The joins of all rounds are paid by the ropes they remove from the row and by the height of
the result, which is logarithmic in the row. -/
theorem levelCost_telescope {f : Nat} {level : List (Rope α)} (hRank : Ranked f level)
    (hBal : ∀ t ∈ level, t.Balanced) (hNe : level ≠ []) :
    levelCost level + 3 * levels level.getLast? + 1 ≤
        level.length + 3 * levels (joinLevel level) ∧
      levels (joinLevel level) ≤ f + Nat.clog 2 level.length := by
  fun_induction joinLevel level generalizing f with
  | case1 level hLen ih =>
    obtain ⟨hNext, hCost⟩ := pairLevel_ranked hRank hBal
    obtain ⟨hTotal, hHeight⟩ := ih hNext
      (pairLevel_forall (fun a b ha hb => join_balanced ha hb) hBal) (pairLevel_ne_nil hNe)
    have hShrinks := length_pairLevel_le level
    have hLog : Nat.clog 2 (pairLevel level).length + 1 ≤ Nat.clog 2 level.length := by
      rw [Nat.clog_of_two_le (by omega) (show 2 ≤ level.length by omega)]
      exact Nat.succ_le_succ (Nat.clog_mono_right 2 (by omega))
    rw [levelCost.eq_def, if_pos hLen]
    omega
  | case2 level hLen =>
    obtain ⟨t, rfl⟩ : ∃ t, level = [t] := by
      have := List.length_pos_of_ne_nil hNe
      exact List.length_eq_one_iff.mp (by omega)
    have hHeight : t.height ≤ f := hRank
    rw [levelCost.eq_def, if_neg hLen]
    simp only [List.getLast?_singleton, levels_some, List.length_singleton]
    omega

/-- A row of `m` leaves takes `m - 1` joins, which together cost at most `m - 1` and three for
each level of the result. -/
theorem levelCost_le {pieces : List (List α)} (hNe : pieces ≠ []) :
    levelCost (pieces.map leaf) + 1 ≤ pieces.length + 3 * Nat.clog 2 pieces.length ∧
      levels (joinLevel (pieces.map leaf)) ≤ 1 + Nat.clog 2 pieces.length := by
  have hRowNe : pieces.map leaf ≠ [] := by simpa using hNe
  have hBal : ∀ t ∈ pieces.map leaf, t.Balanced := by
    intro t ht
    obtain ⟨xs, -, rfl⟩ := List.mem_map.mp ht
    trivial
  obtain ⟨hCost, hHeight⟩ := levelCost_telescope (ranked_leaves pieces) hBal hRowNe
  have hLast : levels (pieces.map leaf).getLast? = 1 := by
    rw [List.getLast?_map]
    cases hGet : pieces.getLast? with
    | none => exact absurd (List.getLast?_eq_none_iff.mp hGet) hNe
    | some xs => rfl
  rw [List.length_map] at hCost hHeight
  omega

/-! ## Leaves -/

/-- The leaves from left to right. -/
def leaves : Rope α → List (List α)
  | leaf xs => [xs]
  | node l r => l.leaves ++ r.leaves

theorem leaves_rebalance (l r : Rope α) : (rebalance l r).leaves = l.leaves ++ r.leaves := by
  unfold rebalance
  split
  · rfl
  · split
    · split
      · rfl
      · split
        · simp [leaves]
        · split <;> simp [leaves]
    · split
      · rfl
      · split
        · simp [leaves]
        · split <;> simp [leaves]

theorem leaves_join (l r : Rope α) : (join l r).leaves = l.leaves ++ r.leaves := by
  fun_induction join l r with
  | case1 => rfl
  | case2 r ll lr _ ih => simp [leaves_rebalance, ih, leaves]
  | case3 => rfl
  | case4 l rl rr _ _ ih => simp [leaves_rebalance, ih, leaves]
  | case5 => rfl

theorem flatten_leaves (t : Rope α) : t.leaves.flatten = t.toList := by
  induction t with
  | leaf xs => simp [leaves]
  | node l r ihl ihr => simp [leaves, ihl, ihr]

theorem length_le_of_mem_leaves {m : Nat} {t : Rope α} (h : t.Chunked m) :
    ∀ xs ∈ t.leaves, xs.length ≤ m := by
  induction t with
  | leaf ys =>
    intro xs hMem
    rw [leaves, List.mem_singleton] at hMem
    rw [hMem]
    exact h.2
  | node l r ihl ihr =>
    intro xs hMem
    rcases List.mem_append.mp hMem with hLeft | hRight
    · exact ihl h.1 xs hLeft
    · exact ihr h.2 xs hRight

/-- The leaves of a rope that may be missing. -/
def rows : Option (Rope α) → List (List α)
  | none => []
  | some t => t.leaves

theorem rows_joinOption (l r : Option (Rope α)) :
    rows (joinOption l r) = rows l ++ rows r := by
  cases l <;> cases r <;> simp [joinOption, rows, leaves_join]

theorem flatten_rows (o : Option (Rope α)) : (rows o).flatten = elements o := by
  cases o with
  | none => rfl
  | some t => exact flatten_leaves t

/-- The position lies inside the row `xs`, not at its border. -/
def Straddles (table : List (List α)) (k : Nat) (xs : List α) : Prop :=
  ∃ before after, table = before ++ xs :: after ∧ before.flatten.length < k ∧
    k < before.flatten.length + xs.length

theorem Straddles.mem {table : List (List α)} {k : Nat} {xs : List α} (h : Straddles table k xs) :
    xs ∈ table := by
  obtain ⟨before, after, hTable, -, -⟩ := h
  rw [hTable]
  simp

/-- The leaf a split cuts in two; none when the position is at a border. -/
def cutLeaf (t : Rope α) (k : Nat) : List α :=
  if k = 0 then []
  else if k = t.length then []
  else
    match t with
    | leaf xs => xs
    | node l r =>
      if k < l.length then cutLeaf l k
      else if k = l.length then []
      else cutLeaf r (k - l.length)

theorem cutLeaf_zero (t : Rope α) : cutLeaf t 0 = [] := by
  rw [cutLeaf.eq_def, if_pos rfl]

theorem cutLeaf_length (t : Rope α) : cutLeaf t t.length = [] := by
  rw [cutLeaf.eq_def, if_pos rfl, ite_self]

theorem cutLeaf_leaf {xs : List α} {k : Nat} (h0 : k ≠ 0) (hk : k ≠ xs.length) :
    cutLeaf (leaf xs) k = xs := by
  rw [cutLeaf.eq_def, if_neg h0, length_leaf, if_neg hk]

theorem cutLeaf_node {l r : Rope α} {k : Nat} (h0 : k ≠ 0) (hk : k ≠ (node l r).length) :
    cutLeaf (node l r) k =
      if k < l.length then cutLeaf l k
      else if k = l.length then []
      else cutLeaf r (k - l.length) := by
  rw [cutLeaf.eq_def, if_neg h0, if_neg hk]

/-- What a split does to the leaves: it passes them on as they are, or it cuts one. -/
inductive Cut (table left right : List (List α)) (k : Nat) (xs : List α) : Prop where
  | border (hNone : xs = []) (hTable : table = left ++ right)
  | inside (before after : List (List α)) (hTable : table = before ++ xs :: after)
      (hLow : before.flatten.length < k) (hHigh : k < before.flatten.length + xs.length)
      (hLeft : left = before ++ [xs.take (k - before.flatten.length)])
      (hRight : right = xs.drop (k - before.flatten.length) :: after)

theorem Cut.extend_right {table left right : List (List α)} {k : Nat} {xs : List α}
    (h : Cut table left right k xs) (more : List (List α)) :
    Cut (table ++ more) left (right ++ more) k xs := by
  cases h with
  | border hNone hTable => exact .border hNone (by rw [hTable, List.append_assoc])
  | inside before after hTable hLow hHigh hLeft hRight =>
    refine .inside before (after ++ more) ?_ hLow hHigh hLeft ?_
    · rw [hTable, List.append_assoc, List.cons_append]
    · rw [hRight, List.cons_append]

theorem Cut.extend_left {table left right : List (List α)} {k : Nat} {xs : List α}
    (h : Cut table left right k xs) (less : List (List α)) :
    Cut (less ++ table) (less ++ left) right (less.flatten.length + k) xs := by
  cases h with
  | border hNone hTable => exact .border hNone (by rw [hTable, List.append_assoc])
  | inside before after hTable hLow hHigh hLeft hRight =>
    have hLen : (less ++ before).flatten.length = less.flatten.length + before.flatten.length := by
      rw [List.flatten_append, List.length_append]
    have hAt : less.flatten.length + k - (less ++ before).flatten.length =
        k - before.flatten.length := by omega
    refine .inside (less ++ before) after ?_ (by omega) (by omega) ?_ ?_
    · rw [hTable, List.append_assoc]
    · rw [hAt, hLeft, List.append_assoc]
    · rw [hAt, hRight]

/-- A split cuts the leaf the position lies in and no other. -/
theorem splitAt_leaves (t : Rope α) {k : Nat} (hk : k ≤ t.length) :
    Cut t.leaves (rows (splitAt t k).1) (rows (splitAt t k).2) k (cutLeaf t k) := by
  fun_induction splitAt t k with
  | case1 t => exact .border (cutLeaf_zero t) rfl
  | case2 t => exact .border (cutLeaf_length t) (List.append_nil _).symm
  | case3 k h0 xs hLen =>
    have hCut : cutLeaf (leaf xs) k = xs := cutLeaf_leaf h0 hLen
    rw [hCut]
    rw [length_leaf] at hk hLen
    refine .inside [] [] rfl ?_ ?_ rfl rfl
    · exact Nat.pos_of_ne_zero h0
    · simpa using Nat.lt_of_le_of_ne hk hLen
  | case4 k h0 l r hLess hLen ih =>
    rw [cutLeaf_node h0 hLen, if_pos hLess, rows_joinOption]
    exact (ih hLess.le).extend_right r.leaves
  | case5 l r h0 _ hLen =>
    rw [cutLeaf_node h0 hLen, if_neg (Nat.lt_irrefl _), if_pos rfl]
    exact .border rfl rfl
  | case6 k h0 l r hNotLess hNe hLen ih =>
    rw [length_node] at hk
    rw [cutLeaf_node h0 hLen, if_neg hNotLess, if_neg hNe, rows_joinOption]
    have hCut := (ih (by omega)).extend_left l.leaves
    have hAt : l.leaves.flatten.length + (k - l.length) = k := by
      rw [flatten_leaves]
      change l.length + (k - l.length) = k
      omega
    rw [hAt] at hCut
    exact hCut

theorem Cut.straddles {table left right : List (List α)} {k : Nat} {xs : List α}
    (h : Cut table left right k xs) : xs = [] ∨ Straddles table k xs := by
  cases h with
  | border hNone _ => exact .inl hNone
  | inside before after hTable hLow hHigh _ _ => exact .inr ⟨before, after, hTable, hLow, hHigh⟩

/-- A row the second part of a cut is straddled at is the end of a row of the whole. -/
theorem Cut.straddles_right {table left right : List (List α)} {k d : Nat} {xs ys : List α}
    (h : Cut table left right k xs) (hLeft : left.flatten.length = k)
    (hAt : Straddles right d ys) : ∃ zs, Straddles table (k + d) zs ∧ ys <:+ zs := by
  obtain ⟨before', after', hRows, hLow', hHigh'⟩ := hAt
  cases h with
  | border _ hTable =>
    refine ⟨ys, ⟨left ++ before', after', ?_, ?_, ?_⟩, List.suffix_rfl⟩
    · rw [hTable, hRows, List.append_assoc]
    · rw [List.flatten_append, List.length_append]
      omega
    · rw [List.flatten_append, List.length_append]
      omega
  | inside before after hTable hLow hHigh _ hRight =>
    rw [hRight] at hRows
    cases before' with
    | nil =>
      obtain ⟨rfl, rfl⟩ := List.cons.inj hRows
      simp only [List.flatten_nil, List.length_nil, List.length_drop, Nat.zero_add] at hLow' hHigh'
      exact ⟨xs, ⟨before, after, hTable, by omega, by omega⟩, List.drop_suffix _ _⟩
    | cons zs before'' =>
      obtain ⟨rfl, rfl⟩ := List.cons.inj hRows
      simp only [List.flatten_cons, List.length_append, List.length_drop] at hLow' hHigh'
      refine ⟨ys, ⟨before ++ xs :: before'', after', ?_, ?_, ?_⟩, List.suffix_rfl⟩
      · rw [hTable, List.append_assoc, List.cons_append]
        rfl
      · simp only [List.flatten_append, List.flatten_cons, List.length_append]
        omega
      · simp only [List.flatten_append, List.flatten_cons, List.length_append]
        omega

end TulyaStore.Lib.Rope
