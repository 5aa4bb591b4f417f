import Mathlib.Data.List.Chain
import TulyaStore.Lib.Layout

/-!
# Tables of framed records

Records that carry their own length are read one behind the other: the length is read first, then
the record behind it. A table may have to be ordered (`readOrdered`) and may end with the bytes
instead of after a number of records (`readWhile`). Both loops accept exactly the tables whose
records are in order (`readOrdered_eq_ok`, `readWhile_eq_ok`).
-/

namespace TulyaStore.Lib

variable {ε α : Type}

/-- One round over framed records. `recordLen` reads the length of the record at a cursor. -/
def framedStep (recordLen : Nat → Except ε Nat) (overflow truncated : ε)
    (decode : Bytes → Except ε α) (bytes : Bytes) (cursor : Nat) : Except ε (α × Nat) := do
  let len ← recordLen cursor
  let stop ← okOr (checkedAdd 64 cursor len) overflow
  let part ← okOr (slice bytes cursor stop) truncated
  let record ← decode part
  return (record, stop)

/-- The loop over `count` records, each checked against the one in front of it. -/
def readOrdered (step : Nat → Except ε (α × Nat)) (check : Option α → α → Except ε Unit) :
    Nat → Option α → Nat → Except ε (List α × Nat)
  | 0, _, cursor => .ok ([], cursor)
  | count + 1, previous, cursor => do
    let (record, stop) ← step cursor
    check previous record
    let (records, stop) ← readOrdered step check count (some record) stop
    return (record :: records, stop)

/-- The loop over the records up to `limit`. `diverged` is the result when the fuel runs out. -/
def readWhile (step : Nat → Except ε (α × Nat)) (check : Option α → α → Except ε Unit)
    (limit : Nat) (diverged : ε) : Nat → Option α → Nat → Except ε (List α)
  | 0, _, cursor => if cursor < limit then .error diverged else .ok []
  | fuel + 1, previous, cursor =>
    if cursor < limit then do
      let (record, stop) ← step cursor
      check previous record
      let records ← readWhile step check limit diverged fuel (some record) stop
      return record :: records
    else .ok []

section Errors

variable {step : Nat → Except ε (α × Nat)} {check : Option α → α → Except ε Unit} {d : ε}

theorem framedStep_ne_error {recordLen : Nat → Except ε Nat} {overflow truncated : ε}
    {decode : Bytes → Except ε α} {bytes : Bytes} {cursor : Nat}
    (hLen : recordLen cursor ≠ .error d) (hOverflow : overflow ≠ d) (hTruncated : truncated ≠ d)
    (hDecode : ∀ part, decode part ≠ .error d) :
    framedStep recordLen overflow truncated decode bytes cursor ≠ .error d := by
  refine bind_ne_error hLen fun _ _ => ?_
  refine bind_ne_error (fun h => hOverflow (okOr_eq_error.mp h).2) fun _ _ => ?_
  refine bind_ne_error (fun h => hTruncated (okOr_eq_error.mp h).2) fun part _ => ?_
  exact bind_ne_error (hDecode part) fun _ _ h => nomatch h

/-- A framed record ends behind the cursor. -/
theorem framedStep_advances {recordLen : Nat → Except ε Nat} {overflow truncated : ε}
    {decode : Bytes → Except ε α} {bytes : Bytes} {cursor stop : Nat} {record : α}
    (hPos : ∀ len, recordLen cursor = .ok len → 1 ≤ len)
    (h : framedStep recordLen overflow truncated decode bytes cursor = .ok (record, stop)) :
    cursor < stop := by
  simp only [framedStep, bind_eq_ok, okOr_eq_ok, checkedAdd_eq_some, pure_eq_ok,
    Prod.mk.injEq] at h
  obtain ⟨len, hLen, _, ⟨-, rfl⟩, -, -, -, -, -, rfl⟩ := h
  have := hPos len hLen
  omega

theorem readOrdered_ne_error (hStep : ∀ cursor, step cursor ≠ .error d)
    (hCheck : ∀ previous record, check previous record ≠ .error d) {count cursor : Nat}
    {previous : Option α} : readOrdered step check count previous cursor ≠ .error d := by
  induction count generalizing previous cursor with
  | zero => exact fun h => nomatch h
  | succ count ih =>
    refine bind_ne_error (hStep cursor) fun read _ => ?_
    exact bind_ne_error (hCheck previous read.1) fun _ _ =>
      bind_ne_error ih fun _ _ h => nomatch h

/-- When every record advances the cursor, as much fuel as there are bytes is enough. -/
theorem readWhile_ne_error {limit fuel cursor : Nat} {previous : Option α}
    (hStep : ∀ cursor, step cursor ≠ .error d)
    (hAdvance : ∀ cursor record stop, step cursor = .ok (record, stop) → cursor < stop)
    (hCheck : ∀ previous record, check previous record ≠ .error d) (hFuel : limit ≤ cursor + fuel) :
    readWhile step check limit d fuel previous cursor ≠ .error d := by
  induction fuel generalizing previous cursor with
  | zero =>
    have hStop : ¬ cursor < limit := by omega
    rw [readWhile, if_neg hStop]
    exact fun h => nomatch h
  | succ fuel ih =>
    rw [readWhile]
    by_cases hInside : cursor < limit
    · rw [if_pos hInside]
      refine bind_ne_error (hStep cursor) fun ⟨record, stop⟩ hRead => ?_
      have hNext := hAdvance cursor record stop hRead
      refine bind_ne_error (hCheck previous record) fun _ _ => ?_
      exact bind_ne_error (ih (by omega)) fun _ _ h => nomatch h
    · rw [if_neg hInside]
      exact fun h => nomatch h

end Errors

variable {bytes : Bytes} {Enc : α → Bytes → Prop}

/-- A record whose length stands behind its first four bytes. -/
def Framed (part : Bytes) : Prop :=
  slice part 4 8 = some (leBytes 4 part.length) ∧ part.length < width 32

theorem Framed.pos {part : Bytes} (h : Framed part) : 8 ≤ part.length :=
  (slice_eq_some.mp h.1).2.1

theorem framedStep_reads {recordLen : Nat → Except ε Nat} {decode : Bytes → Except ε α}
    {overflow truncated : ε} (hBytes : bytes.length < width 64)
    (hLen : ∀ cursor len, recordLen cursor = .ok len ↔
      slice bytes (cursor + 4) (cursor + 8) = some (leBytes 4 len) ∧ len < width 32 ∧ 1 ≤ len)
    (hDecode : ∀ part record, decode part = .ok record ↔ Enc record part)
    (hFramed : ∀ part record, Enc record part → Framed part) :
    ReadsAt (fun _ => Enc) (fun _ => framedStep recordLen overflow truncated decode bytes) bytes := by
  intro index cursor record stop
  simp only [framedStep, bind_eq_ok, okOr_eq_ok, checkedAdd_eq_some, hLen, hDecode, pure_eq_ok,
    Prod.mk.injEq]
  constructor
  · rintro ⟨len, -, _, ⟨-, rfl⟩, part, hSlice, _, hRecord, rfl, rfl⟩
    have hPart : part.length = len := by rw [length_of_slice hSlice, Nat.add_sub_cancel_left]
    rw [← hPart] at hSlice
    exact ⟨part, hRecord, hSlice, by rw [hPart]⟩
  · rintro ⟨part, hRecord, hSlice, rfl⟩
    obtain ⟨hField, hLt⟩ := hFramed part record hRecord
    have hPos := (hFramed part record hRecord).pos
    have hInside := (slice_eq_some.mp hSlice).2.1
    have hAt := slice_slice hSlice (by decide : 4 ≤ 8) (by omega)
    have hLength : slice bytes (cursor + 4) (cursor + 8) = some (leBytes 4 part.length) := by
      rw [hAt, (slice_eq_some.mp hField).2.2]
    exact ⟨_, ⟨hLength, hLt, by omega⟩, _, ⟨by omega, rfl⟩, part, hSlice, _, hRecord, rfl,
      rfl⟩

section Ordered

variable {step : Nat → Except ε (α × Nat)} {check : Option α → α → Except ε Unit}
  {R : α → α → Prop}

theorem isChain_toList_cons {previous : Option α} {record : α} {records : List α} :
    List.IsChain R (previous.toList ++ record :: records) ↔
      (∀ p ∈ previous, R p record) ∧ List.IsChain R (record :: records) := by
  cases previous with
  | none => simp
  | some p => simp [List.isChain_cons_cons]

/-- The ordered loop accepts the tables of the plain loop whose records are in order. -/
theorem readOrdered_eq_ok
    (hCheck : ∀ previous record, check previous record = .ok () ↔ ∀ p ∈ previous, R p record)
    {count cursor stop : Nat} (index : Nat) {previous : Option α} {records : List α} :
    readOrdered step check count previous cursor = .ok (records, stop) ↔
      readRecords (fun _ => step) count index cursor = .ok (records, stop) ∧
        List.IsChain R (previous.toList ++ records) := by
  induction count generalizing index previous cursor records stop with
  | zero =>
    simp only [readOrdered, readRecords, Except.ok.injEq, Prod.mk.injEq]
    constructor
    · rintro ⟨rfl, rfl⟩
      exact ⟨⟨rfl, rfl⟩, by cases previous <;> simp⟩
    · exact fun h => h.1
  | succ count ih =>
    simp only [readOrdered, readRecords, bind_eq_ok, pure_eq_ok, Prod.mk.injEq]
    constructor
    · rintro ⟨⟨record, middle⟩, hStep, _, hOrder, ⟨rest, last⟩, hRest, rfl, rfl⟩
      obtain ⟨hRead, hChain⟩ := (ih (index + 1)).mp hRest
      exact ⟨⟨_, hStep, _, hRead, rfl, rfl⟩,
        isChain_toList_cons.mpr ⟨(hCheck _ _).mp hOrder, hChain⟩⟩
    · rintro ⟨⟨⟨record, middle⟩, hStep, ⟨rest, last⟩, hRead, rfl, rfl⟩, hChain⟩
      obtain ⟨hOrder, hTail⟩ := isChain_toList_cons.mp hChain
      exact ⟨_, hStep, (), (hCheck _ _).mpr hOrder, _, (ih (index + 1)).mpr ⟨hRead, hTail⟩, rfl, rfl⟩

theorem nil_eq_iff_isChain {previous : Option α} {records : List α} :
    [] = records ↔ records = [] ∧ List.IsChain R (previous.toList ++ records) := by
  constructor
  · rintro rfl
    exact ⟨rfl, by cases previous <;> simp⟩
  · exact fun h => h.1.symm

/-- Behind the last byte there is no record. -/
theorem table_at_end (hPos : ∀ record part, Enc record part → 0 < part.length) {index : Nat}
    {records : List α} :
    (∃ part, Table (fun _ => Enc) index records part ∧
      slice bytes bytes.length bytes.length = some part) ↔ records = [] := by
  have hEmpty : slice bytes bytes.length bytes.length = some [] :=
    slice_eq_some.mpr ⟨Nat.le_refl _, Nat.le_refl _, by simp⟩
  rw [hEmpty]
  constructor
  · rintro ⟨_, hTable, ⟨⟩⟩
    cases records with
    | nil => rfl
    | cons record records =>
      obtain ⟨head, tail, hHead, -, hParts⟩ := hTable
      have hHeadPos := hPos _ _ hHead
      rw [(List.append_eq_nil_iff.mp hParts.symm).1] at hHeadPos
      exact absurd hHeadPos (Nat.lt_irrefl 0)
  · rintro rfl
    exact ⟨[], rfl, rfl⟩

/-- The loop to the end of the bytes accepts the tables that fill them and are in order. -/
theorem readWhile_eq_ok {diverged : ε} (hStep : ReadsAt (fun _ => Enc) (fun _ => step) bytes)
    (hPos : ∀ record part, Enc record part → 0 < part.length)
    (hCheck : ∀ previous record, check previous record = .ok () ↔ ∀ p ∈ previous, R p record)
    {fuel cursor : Nat} (index : Nat) (hCursor : cursor ≤ bytes.length)
    (hFuel : bytes.length - cursor ≤ fuel) {previous : Option α} {records : List α} :
    readWhile step check bytes.length diverged fuel previous cursor = .ok records ↔
      (∃ part, Table (fun _ => Enc) index records part ∧
        slice bytes cursor bytes.length = some part) ∧
      List.IsChain R (previous.toList ++ records) := by
  induction fuel generalizing index cursor previous records with
  | zero =>
    have hAll : cursor = bytes.length := by omega
    rw [readWhile, if_neg (by omega), hAll, table_at_end hPos, Except.ok.injEq]
    exact nil_eq_iff_isChain
  | succ fuel ih =>
    rw [readWhile]
    split
    case isFalse hNot =>
      have hAll : cursor = bytes.length := by omega
      rw [hAll, table_at_end hPos, Except.ok.injEq]
      exact nil_eq_iff_isChain
    case isTrue hLt =>
      simp only [bind_eq_ok, pure_eq_ok]
      constructor
      · rintro ⟨⟨record, stop⟩, hRead, _, hOrder, rest, hRest, rfl⟩
        obtain ⟨head, hHead, hSlice, rfl⟩ := (hStep index _ _ _).mp hRead
        have hHeadPos := hPos _ _ hHead
        obtain ⟨⟨tail, hTail, hTailSlice⟩, hChain⟩ := (ih (index + 1)
          (slice_eq_some.mp hSlice).2.1 (by omega)).mp hRest
        exact ⟨⟨head ++ tail, ⟨head, tail, hHead, hTail, rfl⟩, slice_concat hSlice hTailSlice⟩,
          isChain_toList_cons.mpr ⟨(hCheck _ _).mp hOrder, hChain⟩⟩
      · rintro ⟨⟨part, hTable, hSlice⟩, hChain⟩
        have hPart : part.length = bytes.length - cursor := length_of_slice hSlice
        cases records with
        | nil =>
          rw [show part = [] from hTable, List.length_nil] at hPart
          omega
        | cons record records =>
          obtain ⟨head, tail, hHead, hTail, rfl⟩ := hTable
          have hHeadPos := hPos _ _ hHead
          rw [List.length_append] at hPart
          have hWhole : slice bytes cursor (cursor + (head ++ tail).length) = some (head ++ tail) := by
            rw [List.length_append, hPart, Nat.add_sub_cancel' hCursor]
            exact hSlice
          obtain ⟨hSliceHead, hSliceTail⟩ := slice_append_eq_some.mp hWhole
          have hStop : cursor + head.length + tail.length = bytes.length := by omega
          rw [hStop] at hSliceTail
          obtain ⟨hOrder, hRestChain⟩ := isChain_toList_cons.mp hChain
          exact ⟨_, (hStep index _ _ _).mpr ⟨head, hHead, hSliceHead, rfl⟩, (),
            (hCheck _ _).mpr hOrder, records, (ih (index + 1) (slice_eq_some.mp hSliceHead).2.1
              (by omega)).mpr ⟨⟨tail, hTail, hSliceTail⟩, hRestChain⟩, rfl⟩

end Ordered

end TulyaStore.Lib
