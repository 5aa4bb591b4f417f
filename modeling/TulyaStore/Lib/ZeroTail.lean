import TulyaStore.Lib.Bytes

/-!
# Cut strings with zeros behind the cut

What a preallocated file holds after a write that stopped early: the bytes up to the cut and then
zeros. `slice_padded` reads a range that reaches behind the cut, `slice_padded_front` one that does
not, and a little-endian field that was cut has not grown (`leValue_padded_take_le`).
-/

namespace TulyaStore.Lib

/-- The bytes of a cut string with zeros behind it. -/
def padded (cut : Bytes) (zeros : Nat) : Bytes := cut ++ List.replicate zeros 0

variable {cut whole : Bytes} {zeros a b : Nat}

@[simp] theorem length_padded : (padded cut zeros).length = cut.length + zeros := by simp [padded]

@[simp] theorem padded_zero : padded cut 0 = cut := List.append_nil cut

@[simp] theorem padded_nil : padded [] zeros = List.replicate zeros 0 := rfl

theorem drop_padded : (padded cut zeros).drop a = padded (cut.drop a) (zeros - (a - cut.length)) := by
  rw [padded, List.drop_append, List.drop_replicate, padded]

/-- In front of the cut nothing has changed. -/
theorem slice_padded_front (h : cut <+: whole) (hEnd : b ≤ cut.length) :
    slice (padded cut zeros) a b = slice whole a b := by
  obtain ⟨rest, rfl⟩ := h
  have hSame : ∀ tail, slice (cut ++ tail) a b = slice cut a b := by
    intro tail
    cases hSlice : slice cut a b with
    | some part => exact slice_append hSlice
    | none =>
      unfold slice at hSlice ⊢
      split at hSlice
      case isTrue => cases hSlice
      case isFalse hRange =>
        rw [if_neg]
        rintro ⟨hLe, -⟩
        exact hRange ⟨hLe, hEnd⟩
  rw [padded, hSame, hSame]

/-- A range that ends behind the cut. -/
theorem slice_padded (cut : Bytes) (zeros : Nat) (hLe : a ≤ b) (hEnd : b ≤ cut.length + zeros)
    (hCut : cut.length ≤ b) :
    slice (padded cut zeros) a b = some (padded (cut.drop a) (b - max a cut.length)) := by
  refine slice_eq_some.mpr ⟨hLe, length_padded ▸ hEnd, ?_⟩
  rw [drop_padded, padded, List.take_append, List.take_replicate, padded, List.length_drop,
    List.take_of_length_le (by rw [List.length_drop]; omega)]
  congr 2
  omega

/-- A range behind the cut. -/
theorem slice_padded_behind (cut : Bytes) (zeros : Nat) (hLe : a ≤ b)
    (hEnd : b ≤ cut.length + zeros) (hCut : cut.length ≤ a) :
    slice (padded cut zeros) a b = some (List.replicate (b - a) 0) := by
  rw [slice_padded _ _ hLe hEnd (hCut.trans hLe), List.drop_of_length_le hCut, padded_nil,
    Nat.max_eq_left hCut]

/-- The byte at the cut is zero when there is one. -/
theorem getElem?_padded_length (cut : Bytes) (h : 0 < zeros) : (padded cut zeros)[cut.length]? = some 0 := by
  rw [padded, List.getElem?_append_right le_rfl, Nat.sub_self, List.getElem?_replicate, if_pos h]

theorem leValue_append_zeros (bytes : Bytes) (zeros : Nat) :
    leValue (bytes ++ List.replicate zeros 0) = leValue bytes := by
  induction bytes with
  | nil =>
    induction zeros with
    | zero => rfl
    | succ zeros ih =>
      rw [List.nil_append] at ih ⊢
      change (0 : UInt8).toNat + 256 * leValue (List.replicate zeros 0) = 0
      rw [ih]
      rfl
  | cons byte bytes ih => rw [List.cons_append, leValue, leValue, ih]

theorem leValue_take_le (bytes : Bytes) (n : Nat) : leValue (bytes.take n) ≤ leValue bytes := by
  induction bytes generalizing n with
  | nil => simp
  | cons byte bytes ih =>
    cases n with
    | zero => exact Nat.zero_le _
    | succ n =>
      rw [List.take_succ_cons, leValue, leValue]
      have := ih n
      omega

/-- A field that was cut reads as no more than it was. -/
theorem leValue_padded_take_le (bytes : Bytes) (n zeros : Nat) :
    leValue (padded (bytes.take n) zeros) ≤ leValue bytes := by
  rw [padded, leValue_append_zeros]
  exact leValue_take_le bytes n

end TulyaStore.Lib
