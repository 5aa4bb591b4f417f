import TulyaStore.Lib.Check
import TulyaStore.Lib.Fields
import TulyaStore.Lib.Folds

/-!
# Layouts

A record is laid out when its parts stand one behind the other at the offsets a reader uses.
`laid_iff` says that this is nothing else than the record being the concatenation of the parts,
so what a reader learns from its reads is what a writer has to write. The field readers are
stated as slices for this: `readLe_eq_some`, `readArray_eq_some` and `getElem?_eq_slice`.

`readRecords` is the loop that reads a table of records, and `Table` what it has read. The table is
read back as a whole when every record is (`readRecords_eq_ok`).
-/

namespace TulyaStore.Lib

/-- The parts stand one behind the other from `off` to the end of the bytes. -/
def Laid (bytes : Bytes) : Nat → List Bytes → Prop
  | off, [] => off = bytes.length
  | off, part :: parts =>
    slice bytes off (off + part.length) = some part ∧ Laid bytes (off + part.length) parts

theorem laid_iff_drop {bytes : Bytes} {off : Nat} {parts : List Bytes} :
    Laid bytes off parts ↔ off ≤ bytes.length ∧ bytes.drop off = parts.flatten := by
  induction parts generalizing off with
  | nil =>
    rw [Laid, List.flatten_nil, List.drop_eq_nil_iff]
    omega
  | cons part parts ih =>
    rw [Laid, ih, slice_eq_some, List.flatten_cons, Nat.add_sub_cancel_left]
    constructor
    · rintro ⟨⟨-, -, hPart⟩, hEnd, hRest⟩
      refine ⟨by omega, ?_⟩
      rw [← List.take_append_drop part.length (bytes.drop off), List.drop_drop, hPart, hRest]
    · rintro ⟨hOff, hDrop⟩
      have hLen : bytes.length - off = part.length + parts.flatten.length := by
        rw [← List.length_drop, hDrop, List.length_append]
      refine ⟨⟨Nat.le_add_right _ _, by omega, ?_⟩, by omega, ?_⟩
      · rw [hDrop, List.take_left]
      · rw [← List.drop_drop, hDrop, List.drop_left]

/-- Parts that stand one behind the other from the start are the whole record. -/
theorem laid_iff {bytes : Bytes} {parts : List Bytes} :
    Laid bytes 0 parts ↔ bytes = parts.flatten := by
  rw [laid_iff_drop, List.drop_zero]
  exact and_iff_right (Nat.zero_le _)

/-! ## Reads as slices -/

theorem readLe_eq_some {w off v : Nat} {bytes : Bytes} :
    readLe w bytes off = some v ↔
      slice bytes off (off + w) = some (leBytes w v) ∧ v < 256 ^ w := by
  constructor
  · intro h
    have hLt := readLe_lt h
    obtain ⟨part, hPart, rfl⟩ := Option.map_eq_some_iff.mp h
    have hLen : part.length = w := by
      rw [length_of_slice hPart, Nat.add_sub_cancel_left]
    refine ⟨?_, hLt⟩
    rw [← hLen, leBytes_leValue, hLen, hPart]
  · rintro ⟨hPart, hLt⟩
    rw [readLe, hPart, Option.map_some, leValue_leBytes hLt]

theorem asArray_eq_some {n : Nat} {bytes : Bytes} {v : Vector UInt8 n} :
    asArray n bytes = some v ↔ bytes = v.toList := by
  constructor
  · intro h
    unfold asArray at h
    split at h
    · cases h
      rfl
    · cases h
  · rintro rfl
    exact asArray_toList v

theorem readArray_eq_some {n off : Nat} {bytes : Bytes} {v : Vector UInt8 n} :
    readArray n bytes off = some v ↔ slice bytes off (off + n) = some v.toList := by
  rw [readArray, Option.bind_eq_some_iff]
  constructor
  · rintro ⟨part, hPart, hArray⟩
    rw [hPart, asArray_eq_some.mp hArray]
  · intro h
    exact ⟨_, h, asArray_toList v⟩

theorem getElem?_eq_slice {bytes : Bytes} {i : Nat} {b : UInt8} :
    bytes[i]? = some b ↔ slice bytes i (i + 1) = some [b] := by
  rw [slice_eq_some, Nat.add_sub_cancel_left, List.getElem?_eq_some_iff]
  constructor
  · rintro ⟨hLt, rfl⟩
    exact ⟨Nat.le_succ i, hLt, by rw [List.take_one, List.head?_drop, List.getElem?_eq_getElem hLt]; rfl⟩
  · rintro ⟨-, hLt, hTake⟩
    refine ⟨hLt, ?_⟩
    rw [List.take_one, List.head?_drop, List.getElem?_eq_getElem hLt] at hTake
    simpa using hTake

theorem slice_append_eq_some {α : Type} {bs xs ys : List α} {start : Nat} :
    slice bs start (start + (xs ++ ys).length) = some (xs ++ ys) ↔
      slice bs start (start + xs.length) = some xs ∧
        slice bs (start + xs.length) (start + xs.length + ys.length) = some ys := by
  rw [List.length_append, ← Nat.add_assoc]
  constructor
  · intro h
    have hFirst := slice_slice h (Nat.zero_le xs.length) (by simp)
    have hSecond := slice_slice h (Nat.le_add_right xs.length ys.length) (by simp)
    rw [← Nat.add_assoc] at hSecond
    exact ⟨by simpa using hFirst, by simpa using hSecond⟩
  · rintro ⟨hFirst, hSecond⟩
    exact slice_concat hFirst hSecond

/-! ## Tables -/

section Tables

variable {ε α : Type}

/-- The records from `cursor` on, `count` of them. `step` reads the record with an index at a
cursor and gives the cursor behind it. -/
def readRecords (step : Nat → Nat → Except ε (α × Nat)) :
    Nat → Nat → Nat → Except ε (List α × Nat)
  | 0, _, cursor => .ok ([], cursor)
  | count + 1, index, cursor => do
    let (record, stop) ← step index cursor
    let (records, stop) ← readRecords step count (index + 1) stop
    return (record :: records, stop)

theorem readRecords_ne_error {step : Nat → Nat → Except ε (α × Nat)} {d : ε}
    (h : ∀ index cursor, step index cursor ≠ .error d) {count index cursor : Nat} :
    readRecords step count index cursor ≠ .error d := by
  induction count generalizing index cursor with
  | zero => exact fun h => nomatch h
  | succ count ih =>
    refine bind_ne_error (h index cursor) fun _ _ => bind_ne_error ih fun _ _ => ?_
    exact fun h => nomatch h

/-- The bytes are those of the records, one behind the other, with indices from `index` on. -/
def Table (Enc : Nat → α → Bytes → Prop) : Nat → List α → Bytes → Prop
  | _, [], bytes => bytes = []
  | index, record :: records, bytes =>
    ∃ part rest, Enc index record part ∧ Table Enc (index + 1) records rest ∧ bytes = part ++ rest

variable {Enc : Nat → α → Bytes → Prop} {step : Nat → Nat → Except ε (α × Nat)} {bytes : Bytes}

/-- What one round reads at a cursor. -/
def ReadsAt (Enc : Nat → α → Bytes → Prop) (step : Nat → Nat → Except ε (α × Nat))
    (bytes : Bytes) : Prop :=
  ∀ index cursor record stop, step index cursor = .ok (record, stop) ↔
    ∃ part, Enc index record part ∧ slice bytes cursor (cursor + part.length) = some part ∧
      stop = cursor + part.length

theorem readRecords_eq_ok (hStep : ReadsAt Enc step bytes) {count index cursor stop : Nat}
    {records : List α} (hCursor : cursor ≤ bytes.length) :
    readRecords step count index cursor = .ok (records, stop) ↔
      records.length = count ∧ ∃ part, Table Enc index records part ∧
        slice bytes cursor (cursor + part.length) = some part ∧ stop = cursor + part.length := by
  induction count generalizing index cursor records stop with
  | zero =>
    rw [readRecords, List.length_eq_zero_iff]
    constructor
    · intro h
      cases h
      exact ⟨rfl, [], rfl, slice_eq_some.mpr ⟨Nat.le_refl _, hCursor, by simp⟩, rfl⟩
    · rintro ⟨rfl, part, rfl, -, rfl⟩
      rfl
  | succ count ih =>
    rw [readRecords, bind_eq_ok]
    constructor
    · rintro ⟨⟨record, middle⟩, hHead, h⟩
      obtain ⟨⟨rest, last⟩, hRest, h⟩ := bind_eq_ok.mp h
      cases h
      obtain ⟨part, hPart, hSlice, rfl⟩ := (hStep _ _ _ _).mp hHead
      obtain ⟨rfl, tail, hTail, hSliceTail, rfl⟩ := (ih (slice_eq_some.mp hSlice).2.1).mp hRest
      refine ⟨rfl, part ++ tail, ⟨part, tail, hPart, hTail, rfl⟩,
        slice_append_eq_some.mpr ⟨hSlice, hSliceTail⟩, ?_⟩
      rw [List.length_append, Nat.add_assoc]
    · rintro ⟨hCount, part, hTable, hSlice, rfl⟩
      cases records with
      | nil => cases hCount
      | cons record records =>
        obtain ⟨head, tail, hHead, hTail, rfl⟩ := hTable
        obtain ⟨hSliceHead, hSliceTail⟩ := slice_append_eq_some.mp hSlice
        refine ⟨(record, cursor + head.length),
          (hStep _ _ _ _).mpr ⟨head, hHead, hSliceHead, rfl⟩, ?_⟩
        have hRest := (ih (slice_eq_some.mp hSliceHead).2.1).mpr
          ⟨Nat.succ.inj hCount, tail, hTail, hSliceTail, rfl⟩
        dsimp only
        rw [hRest, ok_bind, List.length_append, Nat.add_assoc]
        rfl

/-- A table whose records have one encoding. -/
theorem table_iff {P : Nat → α → Prop} {encode : α → Bytes} {index : Nat} {records : List α} :
    Table (fun i record part => P i record ∧ part = encode record) index records bytes ↔
      (∀ i record, records[i]? = some record → P (index + i) record) ∧
        bytes = (records.map encode).flatten := by
  induction records generalizing index bytes with
  | nil => simp [Table]
  | cons record records ih =>
    rw [Table, forall_getElem?_cons, List.map_cons, List.flatten_cons]
    simp only [ih]
    constructor
    · rintro ⟨_, _, ⟨hHead, rfl⟩, ⟨hRest, rfl⟩, rfl⟩
      exact ⟨⟨hHead, hRest⟩, rfl⟩
    · rintro ⟨⟨hHead, hRest⟩, rfl⟩
      exact ⟨_, _, ⟨hHead, rfl⟩, ⟨hRest, rfl⟩, rfl⟩

/-- One round over records of `w` bytes. `decoder` makes the reader of the record with an index. -/
def fixedStep (w : Nat) (decoder : Nat → Except ε (Bytes → Except ε α)) (overflow truncated : ε)
    (bytes : Bytes) (index cursor : Nat) : Except ε (α × Nat) := do
  let stop ← okOr (checkedAdd 64 cursor w) overflow
  let decode ← decoder index
  let part ← okOr (slice bytes cursor stop) truncated
  let record ← decode part
  return (record, stop)

theorem fixedStep_reads {w : Nat} {decoder : Nat → Except ε (Bytes → Except ε α)}
    {overflow truncated : ε} (hBytes : bytes.length < width 64)
    (hDecode : ∀ index part record, (∃ decode, decoder index = .ok decode ∧
      part.length = w ∧ decode part = .ok record) ↔ Enc index record part) :
    ReadsAt Enc (fixedStep w decoder overflow truncated bytes) bytes := by
  intro index cursor record stop
  simp only [fixedStep, bind_eq_ok, okOr_eq_ok, checkedAdd_eq_some, pure_eq_ok, Prod.mk.injEq]
  constructor
  · rintro ⟨_, ⟨-, rfl⟩, decode, hDecoder, part, hSlice, _, hRecord, rfl, rfl⟩
    have hLen : part.length = w := by rw [length_of_slice hSlice, Nat.add_sub_cancel_left]
    exact ⟨part, (hDecode _ _ _).mp ⟨decode, hDecoder, hLen, hRecord⟩, by rw [hLen, hSlice],
      by rw [hLen]⟩
  · rintro ⟨part, hPart, hSlice, rfl⟩
    obtain ⟨decode, hDecoder, rfl, hRecord⟩ := (hDecode _ _ _).mpr hPart
    have hInside := (slice_eq_some.mp hSlice).2.1
    exact ⟨_, ⟨by omega, rfl⟩, decode, hDecoder, part, hSlice, _, hRecord, rfl, rfl⟩

end Tables

end TulyaStore.Lib
