import TulyaStore.Lib.Bytes

/-!
# Fields of fixed layouts

A record is a concatenation of little-endian fields and byte sections. `readLe w data off`
reads the field of `w` bytes at `off`; the rules below skip what stands in front of it
(`readLe_skip`) until the field is the head of what is left (`readLe_here`). `slice_at` does
the same for a section.
-/

namespace TulyaStore.Lib

/-- The little-endian value of the `w` bytes at `off`. -/
def readLe (w : Nat) (data : Bytes) (off : Nat) : Option Nat :=
  (slice data off (off + w)).map leValue

section Sections

variable {α : Type}

theorem slice_skip (xs ys : List α) (a b : Nat) :
    slice (xs ++ ys) (xs.length + a) (xs.length + b) = slice ys a b := by
  unfold slice
  have hIff : (xs.length + a ≤ xs.length + b ∧ xs.length + b ≤ (xs ++ ys).length) ↔
      (a ≤ b ∧ b ≤ ys.length) := by
    simp only [List.length_append]
    omega
  simp only [hIff]
  have hDrop : (xs ++ ys).drop (xs.length + a) = ys.drop a := by
    rw [List.drop_append, List.drop_eq_nil_of_le (by omega)]
    simp
  rw [hDrop, Nat.add_sub_add_left]

/-- A section that starts after `pre` and is followed by anything. -/
theorem slice_at {pre mid post : List α} {a b : Nat} (ha : a = pre.length)
    (hb : b = pre.length + mid.length) : slice (pre ++ (mid ++ post)) a b = some mid := by
  have hSkip := slice_skip pre (mid ++ post) 0 mid.length
  have hHere : slice (mid ++ post) 0 mid.length = some mid := by
    refine slice_eq_some.mpr ⟨by omega, by simp, ?_⟩
    simp
  rw [ha, hb, ← hHere, ← hSkip, Nat.add_zero]

theorem slice_all (xs : List α) : slice xs 0 xs.length = some xs := by
  refine slice_eq_some.mpr ⟨by omega, le_rfl, ?_⟩
  simp

end Sections

theorem readLe_skip {w off : Nat} (xs ys : Bytes) (h : xs.length ≤ off) :
    readLe w (xs ++ ys) off = readLe w ys (off - xs.length) := by
  have hOff : off = xs.length + (off - xs.length) := by omega
  have hEnd : off + w = xs.length + (off - xs.length + w) := by omega
  unfold readLe
  rw [hEnd]
  nth_rewrite 1 [hOff]
  rw [slice_skip]

theorem readLe_leBytes_skip {w off : Nat} (k v : Nat) (ys : Bytes) (h : k ≤ off) :
    readLe w (leBytes k v ++ ys) off = readLe w ys (off - k) := by
  have hLen : (leBytes k v).length ≤ off := by simpa using h
  rw [readLe_skip _ _ hLen, length_leBytes]

theorem readLe_here {w v : Nat} (ys : Bytes) (h : v < 256 ^ w) :
    readLe w (leBytes w v ++ ys) 0 = some v := by
  have hSlice : slice (leBytes w v ++ ys) 0 (0 + w) = some (leBytes w v) := by
    have hAt : slice ([] ++ (leBytes w v ++ ys)) 0 w = some (leBytes w v) :=
      slice_at rfl (by simp)
    simpa using hAt
  rw [readLe, hSlice, Option.map_some, leValue_leBytes h]

theorem readLe_last {w v : Nat} (h : v < 256 ^ w) : readLe w (leBytes w v) 0 = some v := by
  have hHere := readLe_here [] h
  rwa [List.append_nil] at hHere

theorem readLe_append {w off v : Nat} {xs ys : Bytes} (h : readLe w xs off = some v) :
    readLe w (xs ++ ys) off = some v := by
  unfold readLe at h ⊢
  obtain ⟨s, hs, hv⟩ := Option.map_eq_some_iff.mp h
  rw [slice_append hs, Option.map_some, hv]

theorem readLe_lt {w off v : Nat} {xs : Bytes} (h : readLe w xs off = some v) : v < 256 ^ w := by
  obtain ⟨s, hs, hv⟩ := Option.map_eq_some_iff.mp h
  have hLen := length_of_slice hs
  have hLt := leValue_lt s
  rw [hLen, hv] at hLt
  simpa using hLt

/-! ## Fixed arrays -/

/-- The bytes as an array of length `n`, when they have that length. -/
def asArray (n : Nat) (bytes : Bytes) : Option (Vector UInt8 n) :=
  if h : bytes.toArray.size = n then some ⟨bytes.toArray, h⟩ else none

/-- The array of `n` bytes at `off`. -/
def readArray (n : Nat) (data : Bytes) (off : Nat) : Option (Vector UInt8 n) :=
  (slice data off (off + n)).bind (asArray n)

theorem asArray_toList {n : Nat} (v : Vector UInt8 n) : asArray n v.toList = some v := by
  have hSize : v.toList.toArray.size = n := by simp
  rw [asArray, dif_pos hSize]
  congr 1

theorem readArray_at {n a : Nat} {pre post : Bytes} (v : Vector UInt8 n) (ha : a = pre.length) :
    readArray n (pre ++ (v.toList ++ post)) a = some v := by
  have hSlice : slice (pre ++ (v.toList ++ post)) a (a + n) = some v.toList :=
    slice_at ha (by simp [ha])
  rw [readArray, hSlice, Option.bind_some, asArray_toList]

/-! ## Records of one width -/

section Records

variable {α : Type} {w : Nat}

/-- The complete pieces of `w` elements (`chunks_exact`). -/
def chunksExact (w : Nat) (data : List α) : List (List α) :=
  (List.range (data.length / w)).map (fun i => (data.drop (i * w)).take w)

theorem length_flatten_records {xs : List (List α)} (h : ∀ x ∈ xs, x.length = w) :
    xs.flatten.length = xs.length * w := by
  induction xs with
  | nil => simp
  | cons x xs ih =>
    rw [List.flatten_cons, List.length_append, h x (by simp),
      ih (fun y hy => h y (List.mem_cons_of_mem x hy)), List.length_cons, Nat.succ_mul, Nat.add_comm]

/-- The record at a position of a table. -/
theorem slice_record {xs : List (List α)} (h : ∀ x ∈ xs, x.length = w) {i : Nat} {x : List α}
    (hx : xs[i]? = some x) (post : List α) :
    slice (xs.flatten ++ post) (i * w) (i * w + w) = some x := by
  induction xs generalizing i with
  | nil => simp at hx
  | cons y xs ih =>
    have hy : y.length = w := h y (by simp)
    cases i with
    | zero =>
      obtain rfl : y = x := by simpa using hx
      have hAt : slice ([] ++ (y ++ (xs.flatten ++ post))) (0 * w) (0 * w + w) = some y :=
        slice_at (by simp) (by simp [hy])
      simpa [List.append_assoc] using hAt
    | succ i =>
      have hRest := ih (fun z hz => h z (List.mem_cons_of_mem y hz)) (by simpa using hx)
      have hStart : (i + 1) * w = y.length + i * w := by rw [hy, Nat.succ_mul, Nat.add_comm]
      have hStop : (i + 1) * w + w = y.length + (i * w + w) := by omega
      rw [hStop, hStart, List.flatten_cons, List.append_assoc, slice_skip]
      exact hRest

theorem chunksExact_flatten (hw : 0 < w) {xs : List (List α)} (h : ∀ x ∈ xs, x.length = w) :
    chunksExact w xs.flatten = xs := by
  have hLen : xs.flatten.length / w = xs.length := by
    rw [length_flatten_records h, Nat.mul_div_cancel _ hw]
  apply List.ext_getElem?
  intro i
  by_cases hi : i < xs.length
  · have hx : xs[i]? = some xs[i] := List.getElem?_eq_getElem hi
    obtain ⟨_, _, hSlice⟩ := slice_eq_some.mp (slice_record h hx [])
    simp only [List.append_nil, Nat.add_sub_cancel_left] at hSlice
    rw [chunksExact, List.getElem?_map, List.getElem?_range (by omega), hx]
    simpa using hSlice
  · rw [List.getElem?_eq_none (Nat.le_of_not_lt hi), List.getElem?_eq_none]
    simp only [chunksExact, List.length_map, List.length_range]
    omega

theorem length_of_mem_chunksExact {data x : List α} (h : x ∈ chunksExact w data) :
    x.length = w := by
  obtain ⟨i, hi, rfl⟩ := List.mem_map.mp h
  have hLt : i < data.length / w := List.mem_range.mp hi
  have hMul : (i + 1) * w ≤ data.length :=
    (Nat.mul_le_mul_right w hLt).trans (Nat.div_mul_le_self _ _)
  rw [Nat.succ_mul] at hMul
  simp only [List.length_take, List.length_drop]
  omega

theorem length_chunksExact (data : List α) : (chunksExact w data).length = data.length / w := by
  simp [chunksExact]

/-- A table of complete records is its records. -/
theorem flatten_chunksExact (hw : 0 < w) {data : List α} (h : w ∣ data.length) :
    (chunksExact w data).flatten = data := by
  obtain ⟨n, hn⟩ := h
  induction n generalizing data with
  | zero =>
    have hNil : data = [] := List.length_eq_zero_iff.mp (by simpa using hn)
    simp [hNil, chunksExact]
  | succ n ih =>
    have hDrop : (data.drop w).length = w * n := by
      rw [List.length_drop, hn, Nat.mul_succ, Nat.add_sub_cancel]
    have hSplit : chunksExact w data = data.take w :: chunksExact w (data.drop w) := by
      have hCount : data.length / w = n + 1 := by rw [hn, Nat.mul_div_cancel_left _ hw]
      have hCount' : (data.drop w).length / w = n := by rw [hDrop, Nat.mul_div_cancel_left _ hw]
      rw [chunksExact, chunksExact, hCount, hCount', List.range_succ_eq_map, List.map_cons,
        List.map_map]
      refine congrArg₂ _ (by simp) (List.map_congr_left ?_)
      intro i _
      simp only [Function.comp, List.drop_drop, Nat.succ_mul, Nat.succ_eq_add_one,
        Nat.add_comm]
    rw [hSplit, List.flatten_cons, ih hDrop, List.take_append_drop]

end Records

end TulyaStore.Lib
