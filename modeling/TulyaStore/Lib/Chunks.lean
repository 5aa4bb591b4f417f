import TulyaStore.Lib.Fields

/-!
# A list in pieces of one width

A list is cut into complete pieces of width `w` and what is left over. Complete pieces with a
shorter rest can only be those of the list (`chunksExact_eq`), so appending to the list fills the
rest first.
-/

namespace TulyaStore.Lib

variable {α : Type} {w : Nat}

/-- What is left behind the complete pieces. -/
def remainder (w : Nat) (xs : List α) : List α := xs.drop (xs.length / w * w)

/-- The pieces of a list, the last of which may be short. -/
def pieces (w : Nat) (xs : List α) : List (List α) :=
  chunksExact w xs ++ if (remainder w xs).isEmpty then [] else [remainder w xs]

theorem length_remainder (w : Nat) (xs : List α) : (remainder w xs).length = xs.length % w := by
  have hDiv := Nat.div_add_mod' xs.length w
  rw [remainder, List.length_drop]
  omega

theorem length_remainder_lt (hw : 0 < w) (xs : List α) : (remainder w xs).length < w := by
  rw [length_remainder]
  exact Nat.mod_lt _ hw

theorem take_mul_flatten (hw : 0 < w) (xs : List α) :
    (chunksExact w xs).flatten = xs.take (xs.length / w * w) := by
  have hLe : xs.length / w * w ≤ xs.length := Nat.div_mul_le_self _ _
  have hLen : (xs.take (xs.length / w * w)).length = xs.length / w * w := List.length_take_of_le hLe
  have hSame : chunksExact w xs = chunksExact w (xs.take (xs.length / w * w)) := by
    rw [chunksExact, chunksExact, hLen, Nat.mul_div_cancel _ hw]
    refine List.map_congr_left fun i hi => ?_
    have hi : i + 1 ≤ xs.length / w := List.mem_range.mp hi
    have hMul : (i + 1) * w ≤ xs.length / w * w := Nat.mul_le_mul_right w hi
    rw [Nat.succ_mul] at hMul
    rw [List.drop_take, List.take_take, Nat.min_eq_left (by omega)]
  rw [hSame, flatten_chunksExact hw]
  exact ⟨xs.length / w, by rw [hLen, Nat.mul_comm]⟩

/-- The pieces and the rest are the list. -/
theorem flatten_append_remainder (hw : 0 < w) (xs : List α) :
    (chunksExact w xs).flatten ++ remainder w xs = xs := by
  rw [take_mul_flatten hw, remainder, List.take_append_drop]

theorem flatten_pieces (hw : 0 < w) (xs : List α) : (pieces w xs).flatten = xs := by
  rw [pieces, List.flatten_append]
  by_cases hEmpty : (remainder w xs).isEmpty
  · have hNil : remainder w xs = [] := List.isEmpty_iff.mp hEmpty
    have hAll := flatten_append_remainder hw xs
    rw [hNil] at hAll
    rw [if_pos hEmpty]
    exact hAll
  · rw [if_neg hEmpty, List.flatten_singleton]
    exact flatten_append_remainder hw xs

/-- Complete pieces with a shorter rest are the pieces of what they make up. -/
theorem chunksExact_eq (hw : 0 < w) {raws : List (List α)} (h : ∀ raw ∈ raws, raw.length = w)
    {rest : List α} (hRest : rest.length < w) :
    chunksExact w (raws.flatten ++ rest) = raws ∧ remainder w (raws.flatten ++ rest) = rest := by
  have hLen := length_flatten_records h
  have hDiv : (raws.flatten ++ rest).length / w = raws.length := by
    rw [List.length_append, hLen, Nat.mul_comm, Nat.mul_add_div hw, Nat.div_eq_of_lt hRest,
      Nat.add_zero]
  have hSame : chunksExact w (raws.flatten ++ rest) = chunksExact w raws.flatten := by
    rw [chunksExact, chunksExact, hDiv, hLen, Nat.mul_div_cancel _ hw]
    refine List.map_congr_left fun i hi => ?_
    have hMul : (i + 1) * w ≤ raws.length * w := Nat.mul_le_mul_right w (List.mem_range.mp hi)
    rw [Nat.succ_mul] at hMul
    rw [List.drop_append_of_le_length (by omega), List.take_append_of_le_length]
    rw [List.length_drop]
    omega
  refine ⟨hSame.trans (chunksExact_flatten hw h), ?_⟩
  rw [remainder, hDiv, ← hLen, List.drop_left]

/-- The pieces of a longer list begin with the pieces of the shorter one. -/
theorem chunksExact_isInitial (hw : 0 < w) {xs ys : List α} (h : xs <+: ys) :
    chunksExact w xs <+: chunksExact w ys := by
  obtain ⟨zs, rfl⟩ := h
  refine ⟨chunksExact w (remainder w xs ++ zs), ?_⟩
  have hSplit : xs ++ zs = (chunksExact w xs ++ chunksExact w (remainder w xs ++ zs)).flatten ++
      remainder w (remainder w xs ++ zs) := by
    rw [List.flatten_append, List.append_assoc, flatten_append_remainder hw (remainder w xs ++ zs),
      ← List.append_assoc, flatten_append_remainder hw]
  rw [hSplit]
  refine (chunksExact_eq hw (fun raw hRaw => ?_) (length_remainder_lt hw _)).1.symm
  rcases List.mem_append.mp hRaw with hRaw | hRaw
  · exact length_of_mem_chunksExact hRaw
  · exact length_of_mem_chunksExact hRaw

theorem chunksExact_isInitial_pieces (w : Nat) (xs : List α) :
    chunksExact w xs <+: pieces w xs :=
  List.prefix_append _ _

/-- The piece at a position. -/
theorem getElem?_pieces (hw : 0 < w) {xs : List α} {i : Nat} (h : i * w < xs.length) :
    (pieces w xs)[i]? = some ((xs.drop (i * w)).take w) := by
  have hCount : (chunksExact w xs).length = xs.length / w := length_chunksExact xs
  have hDiv := Nat.div_add_mod' xs.length w
  have hLe : i ≤ xs.length / w := by
    rw [Nat.le_div_iff_mul_le hw]
    exact h.le
  rcases Nat.lt_or_eq_of_le hLe with hIn | rfl
  · rw [pieces, List.getElem?_append_left (by omega), chunksExact, List.getElem?_map,
      List.getElem?_range hIn, Option.map_some]
  · have hRest : ¬ (remainder w xs).isEmpty := by
      intro hEmpty
      have hZero := length_remainder w xs
      rw [List.isEmpty_iff.mp hEmpty, List.length_nil] at hZero
      omega
    have hShort := length_remainder_lt hw xs
    rw [remainder] at hShort
    rw [pieces, if_neg hRest, List.getElem?_append_right (by omega), hCount, Nat.sub_self,
      List.getElem?_cons_zero, remainder, List.take_of_length_le hShort.le]

end TulyaStore.Lib
