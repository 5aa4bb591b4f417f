import TulyaStore.History.Snapshot

/-!
# Reading back what was encoded

The decoders of log records and of snapshots walk over their bytes with a cursor. `Takes` says
that a reader standing in front of a field takes exactly the field and returns its value. The
rules follow the readers: one for each kind of field, and `Takes.bind` for one reader after
another.
-/

namespace TulyaStore.History

open Lib Sequence

/-- In front of `field`, with `rest` behind it, the reader moves over the field and returns
`a`. -/
def Takes {α : Type} (whole : Bytes) (x : StateT LogCursor (Except HistoryError) α)
    (field rest : Bytes) (a : α) : Prop :=
  ∀ before, whole = before ++ (field ++ rest) →
    x ⟨whole, before.length⟩ = .ok (a, ⟨whole, before.length + field.length⟩)

namespace Takes

variable {α β : Type} {whole field field' rest : Bytes} {a : α} {b : β}
  {x : StateT LogCursor (Except HistoryError) α}
  {f : α → StateT LogCursor (Except HistoryError) β}

theorem pure (rest : Bytes) (a : α) : Takes whole (Pure.pure a) [] rest a := fun _ _ => rfl

theorem bind (hx : Takes whole x field (field' ++ rest) a) (hf : Takes whole (f a) field' rest b) :
    Takes whole (x >>= f) (field ++ field') rest b := by
  intro before hWhole
  have hFirst := hx before (by rw [hWhole, List.append_assoc])
  have hSecond := hf (before ++ field) (by
    rw [hWhole]
    simp only [List.append_assoc])
  change (x ⟨whole, before.length⟩ >>= fun p => f p.1 p.2) = _
  rw [hFirst, ok_bind]
  rw [List.length_append] at hSecond
  rw [hSecond, List.length_append, Nat.add_assoc]

/-- A first reader that takes nothing. -/
theorem bind_nil (hx : Takes whole x [] (field ++ rest) a) (hf : Takes whole (f a) field rest b) :
    Takes whole (x >>= f) field rest b := hx.bind hf

/-- The last reader of a chain. -/
theorem bind_last (hx : Takes whole x field rest a) (hf : Takes whole (f a) [] rest b) :
    Takes whole (x >>= f) field rest b := by
  have h : Takes whole (x >>= f) (field ++ []) rest b := Takes.bind hx hf
  rwa [List.append_nil] at h

theorem lift {y : Except HistoryError α} (h : y = .ok a) (rest : Bytes) :
    Takes whole (liftM y) [] rest a := by
  subst h
  exact fun _ _ => rfl

theorem check {c : Prop} [Decidable c] {e : HistoryError}
    {f : Unit → StateT LogCursor (Except HistoryError) β} (h : ¬ c)
    (hf : Takes whole (f ()) field rest b) :
    Takes whole (liftM (failIf c e) >>= f) field rest b :=
  (lift (failIf_neg h) _).bind_nil hf

theorem get {f : LogCursor → StateT LogCursor (Except HistoryError) β}
    (hf : ∀ pos, Takes whole (f ⟨whole, pos⟩) field rest b) :
    Takes whole (MonadState.get >>= f) field rest b :=
  fun before hWhole => hf before.length before hWhole

end Takes

/-! ## The fields -/

section Fields

variable {whole : Bytes}

theorem slice_of_takes {before field rest : Bytes} (h : whole = before ++ (field ++ rest)) :
    slice whole before.length (before.length + field.length) = some field := by
  rw [h]
  exact slice_at rfl rfl

theorem stop_of_takes {before field rest : Bytes} (hSize : whole.length < width 64)
    (h : whole = before ++ (field ++ rest)) :
    checkedAdd 64 before.length field.length = some (before.length + field.length) := by
  refine checkedAdd_eq_some.mpr ⟨?_, rfl⟩
  rw [h] at hSize
  simp only [List.length_append] at hSize
  omega

/-- A little-endian number behind its reader. -/
theorem Takes.number {x : StateT LogCursor (Except HistoryError) Bytes} {w n : Nat} {rest : Bytes}
    (hTake : Takes whole x (leBytes w n) rest (leBytes w n)) (hFits : n < 256 ^ w) :
    Takes whole (x >>= fun bytes => Pure.pure (leValue bytes)) (leBytes w n) rest n := by
  refine hTake.bind_last ?_
  rw [leValue_leBytes hFits]
  exact Takes.pure _ _

namespace LogCursor

theorem takes_take (hSize : whole.length < width 64) (field rest : Bytes) :
    Takes whole (take field.length) field rest field := by
  intro before hWhole
  simp only [take, stop_of_takes hSize hWhole, okOr_some, ok_bind, slice_of_takes hWhole]
  rfl

theorem takes_u64 (hSize : whole.length < width 64) {n : Nat} (hFits : n < width 64)
    (rest : Bytes) : Takes whole takeU64 (leBytes 8 n) rest n := by
  have hTake := takes_take hSize (leBytes 8 n) rest
  rw [length_leBytes] at hTake
  exact hTake.number hFits

theorem takes_byte (hSize : whole.length < width 64) (byte : UInt8) (rest : Bytes) :
    Takes whole takeByte [byte] rest byte :=
  (takes_take hSize [byte] rest).bind_last (Takes.pure _ _)

theorem takes_bytes (hSize : whole.length < width 64) {field : Bytes}
    (hFits : field.length < width 64) (rest : Bytes) :
    Takes whole (takeBytes field.length) field rest field := by
  refine (Takes.lift (a := field.length) ?_ _).bind_nil (takes_take hSize field rest)
  rw [tryFrom_of_lt hFits, okOr_some]

theorem takes_array (hSize : whole.length < width 64) {n : Nat} (array : Vector UInt8 n)
    (rest : Bytes) : Takes whole (takeArray n) array.toList rest array := by
  have hTake := takes_take hSize array.toList rest
  rw [Vector.length_toList] at hTake
  refine hTake.bind_last (Takes.lift ?_ _)
  rw [asArray_toList, okOr_some]

end LogCursor

namespace SnapshotCursor

theorem takes_take (hSize : whole.length < width 64) (field rest : Bytes) :
    Takes whole (take field.length) field rest field := by
  intro before hWhole
  simp only [take, stop_of_takes hSize hWhole, okOr_some, ok_bind, slice_of_takes hWhole]
  rfl

theorem takes_u64 (hSize : whole.length < width 64) {n : Nat} (hFits : n < width 64)
    (rest : Bytes) : Takes whole takeU64 (leBytes 8 n) rest n := by
  have hTake := takes_take hSize (leBytes 8 n) rest
  rw [length_leBytes] at hTake
  exact hTake.number hFits

theorem takes_u32 (hSize : whole.length < width 64) {n : Nat} (hFits : n < width 32)
    (rest : Bytes) : Takes whole takeU32 (leBytes 4 n) rest n := by
  have hTake := takes_take hSize (leBytes 4 n) rest
  rw [length_leBytes] at hTake
  exact hTake.number hFits

theorem takes_byte (hSize : whole.length < width 64) (byte : UInt8) (rest : Bytes) :
    Takes whole takeByte [byte] rest byte :=
  (takes_take hSize [byte] rest).bind_last (Takes.pure _ _)

theorem takes_array (hSize : whole.length < width 64) {n : Nat} (array : Vector UInt8 n)
    (rest : Bytes) : Takes whole (takeArray n) array.toList rest array := by
  have hTake := takes_take hSize array.toList rest
  rw [Vector.length_toList] at hTake
  refine hTake.bind_last (Takes.lift ?_ _)
  rw [asArray_toList, okOr_some]

/-- A count is accepted in front of as many bytes. -/
theorem takes_count (hSize : whole.length < width 64) {n : Nat} {rest : Bytes}
    (hRest : n ≤ rest.length) (message : String) :
    Takes whole (boundedCount message) (leBytes 8 n) rest n := by
  intro before hWhole
  have hLen := congrArg List.length hWhole
  simp only [List.length_append, length_leBytes] at hLen
  have hNumber : takeU64 ⟨whole, before.length⟩ = .ok (n, ⟨whole, before.length + 8⟩) := by
    have h := takes_u64 hSize (n := n) (by omega) rest before hWhole
    rwa [length_leBytes] at h
  change (takeU64 ⟨whole, before.length⟩ >>= fun p =>
    (liftM (failIf (p.1 > p.2.bytes.length - p.2.pos) (HistoryError.invalid message)) >>=
      fun _ => Pure.pure p.1 : SnapshotReader Nat) p.2) = _
  rw [hNumber, ok_bind, length_leBytes]
  have hCheck : ¬ n > whole.length - (before.length + 8) := by omega
  have hDone : Takes whole (liftM (failIf (n > whole.length - (before.length + 8))
      (HistoryError.invalid message)) >>= fun _ => Pure.pure n) [] rest n :=
    Takes.check hCheck (Takes.pure _ _)
  have hAt := hDone (before ++ leBytes 8 n) (by rw [hWhole]; simp)
  simpa using hAt

theorem takes_requestId (hSize : whole.length < width 64) {requestId : Bytes}
    (hBounds : Snapshot.checkRequestBounds requestId = .ok ()) (rest : Bytes) :
    Takes whole takeRequestId (putBytes requestId) rest requestId := by
  have hNot : ¬ (requestId.isEmpty ∨ requestId.length > maxHistoryRequestIdBytes) :=
    failIf_eq_ok.mp hBounds
  have hLen : requestId.length ≤ 4096 := by
    have := not_or.mp hNot
    exact Nat.not_lt.mp this.2
  have hFits : requestId.length < width 64 := hLen.trans_lt (by decide)
  refine (takes_u64 hSize hFits _).bind (Takes.check ?_ (takes_take hSize requestId rest))
  rw [List.isEmpty_iff_length_eq_zero] at hNot
  exact hNot

end SnapshotCursor

end Fields

end TulyaStore.History
