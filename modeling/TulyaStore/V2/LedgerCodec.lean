import TulyaStore.V2.SnapshotValid

/-!
# Ledger records read back

The records of active and retired requests and of deleted checkpoints. Each carries its length
behind its magic, as the records of checkpoints do, which is how they are found in a snapshot.
-/

namespace TulyaStore.V2

open Lib Sequence
open Checkpoint (utf8 fromUtf8_eq_some)

@[simp] theorem length_v2ActiveRequestMagic : v2ActiveRequestMagic.length = 4 := by decide

@[simp] theorem length_v2RetiredRequestMagic : v2RetiredRequestMagic.length = 4 := by decide

@[simp] theorem length_v2DeletedCheckpointMagic : v2DeletedCheckpointMagic.length = 4 := by decide

section Ledgers

variable {bytes : Bytes}

/-! ## Active requests -/

def activeRequestBytes (record : V2ActiveRequestRecord) : Bytes :=
  v2ActiveRequestMagic ++ leBytes 4 (v2ActiveRequestPrefixSize + record.requestId.length) ++
    leBytes 8 record.checkpointOrdinal ++ leBytes 4 record.requestId.length ++ leBytes 4 0 ++
    record.operationDigest.toList ++ record.requestId

theorem length_activeRequestBytes (record : V2ActiveRequestRecord) :
    (activeRequestBytes record).length = 56 + record.requestId.length := by
  simp [activeRequestBytes, ← Nat.add_assoc]

theorem encodeActiveRequest_eq_ok {record : V2ActiveRequestRecord} :
    encodeActiveRequest record = .ok bytes ↔
      LedgerIdOk record.requestId ∧ bytes = activeRequestBytes record := by
  have hMax : v2MaxRequestIdBytes = 4096 := rfl
  have hPrefix : v2ActiveRequestPrefixSize = 56 := rfl
  have hWidth : width 32 = 4294967296 := by decide
  have hWidth64 : width 64 = 18446744073709551616 := by decide
  simp only [encodeActiveRequest, bind_eq_ok, validateLedgerRequestId_eq_ok, okOr_eq_ok,
    checkedAdd_eq_some, tryFrom_eq_some, pure_eq_ok, exists_const]
  constructor
  · rintro ⟨hId, _, ⟨-, rfl⟩, _, ⟨-, rfl⟩, _, ⟨-, rfl⟩, rfl⟩
    exact ⟨hId, rfl⟩
  · rintro ⟨hId, rfl⟩
    have hLen := hId.2
    exact ⟨hId, _, ⟨by omega, rfl⟩, _, ⟨by omega, rfl⟩, _, ⟨by omega, rfl⟩, rfl⟩

theorem laid_activeRequestBytes {record : V2ActiveRequestRecord} :
    bytes = activeRequestBytes record ↔
      slice bytes 0 4 = some v2ActiveRequestMagic ∧
      slice bytes 4 8 = some (leBytes 4 (v2ActiveRequestPrefixSize + record.requestId.length)) ∧
      slice bytes 8 16 = some (leBytes 8 record.checkpointOrdinal) ∧
      slice bytes 16 20 = some (leBytes 4 record.requestId.length) ∧
      slice bytes 20 24 = some (leBytes 4 0) ∧ slice bytes 24 56 = some record.operationDigest.toList ∧
      slice bytes 56 (56 + record.requestId.length) = some record.requestId ∧
      56 + record.requestId.length = bytes.length := by
  have hParts : activeRequestBytes record = [v2ActiveRequestMagic,
      leBytes 4 (v2ActiveRequestPrefixSize + record.requestId.length),
      leBytes 8 record.checkpointOrdinal, leBytes 4 record.requestId.length, leBytes 4 0,
      record.operationDigest.toList, record.requestId].flatten := by simp [activeRequestBytes]
  rw [hParts, ← laid_iff]
  simp only [Laid, length_v2ActiveRequestMagic, length_leBytes, Vector.length_toList, Nat.reduceAdd]

theorem drop_of_slice {start : Nat} {part : Bytes} (h : slice bytes start (start + part.length) =
    some part) (hAll : start + part.length = bytes.length) : bytes.drop start = part := by
  rw [← (slice_eq_some.mp h).2.2, List.take_of_length_le]
  rw [List.length_drop]
  omega

theorem decodeActiveRequest_eq_ok {record : V2ActiveRequestRecord} :
    decodeActiveRequest bytes = .ok record ↔
      record.checkpointOrdinal < width 64 ∧ LedgerIdOk record.requestId ∧
        bytes = activeRequestBytes record := by
  have hMax : v2MaxRequestIdBytes = 4096 := rfl
  have hPrefix : v2ActiveRequestPrefixSize = 56 := rfl
  have hWidth64 : width 64 = 256 ^ 8 := by decide
  rw [laid_activeRequestBytes]
  simp only [decodeActiveRequest, V2ActiveRequestRecord.new, bind_eq_ok, failIf_eq_ok, okOr_eq_ok,
    readLe_eq_some, readArray_eq_some, checkedAdd_eq_some, not_not, validateLedgerRequestId_eq_ok,
    pure_eq_ok, exists_const, Nat.reduceAdd]
  rw [hPrefix]
  constructor
  · rintro ⟨-, hMagic, recordLen, ⟨hRecordLen, -⟩, hWhole, ordinal, ⟨hOrdinal, hOrdinalLt⟩, requestLen,
      ⟨hRequestLen, -⟩, flags, ⟨hFlags, -⟩, hFlagsZero, digest, hDigest, expected, ⟨-, hExpected⟩,
      hEnd, hId, hRecord⟩
    have hIdLen : (bytes.drop 56).length = requestLen := by
      rw [List.length_drop]
      omega
    rw [hFlagsZero] at hFlags
    rw [hWhole, ← hEnd, hExpected, ← hIdLen] at hRecordLen
    rw [← hIdLen] at hRequestLen
    rw [← hRecord]
    exact ⟨by dsimp only; omega, hId, hMagic, hRecordLen, hOrdinal, hRequestLen, hFlags, hDigest,
      slice_eq_some.mpr ⟨Nat.le_add_right _ _, by dsimp only; omega, by simp⟩,
      by dsimp only; omega⟩
  · rintro ⟨hOrdinalLt, hId, hMagic, hRecordLen, hOrdinal, hRequestLen, hFlags, hDigest, hRequest,
      hEnd⟩
    have hLen := hId.2
    have hDrop := drop_of_slice hRequest hEnd
    rw [hDrop]
    exact ⟨by omega, hMagic, _, ⟨hRecordLen, by omega⟩, by omega, _, ⟨hOrdinal, by omega⟩, _,
      ⟨hRequestLen, by omega⟩, _, ⟨hFlags, by decide⟩, rfl, _, hDigest, _, ⟨by omega, rfl⟩, hEnd, hId,
      rfl⟩

/-! ## Retired requests -/

def retiredRequestBytes (record : V2RetiredRequestRecord) : Bytes :=
  v2RetiredRequestMagic ++ leBytes 4 (v2RetiredRequestPrefixSize + record.requestId.length) ++
    leBytes 4 record.requestId.length ++ leBytes 4 0 ++ record.operationDigest.toList ++
    record.requestId

theorem length_retiredRequestBytes (record : V2RetiredRequestRecord) :
    (retiredRequestBytes record).length = 48 + record.requestId.length := by
  simp [retiredRequestBytes, ← Nat.add_assoc]

theorem encodeRetiredRequest_eq_ok {record : V2RetiredRequestRecord} :
    encodeRetiredRequest record = .ok bytes ↔
      LedgerIdOk record.requestId ∧ bytes = retiredRequestBytes record := by
  have hMax : v2MaxRequestIdBytes = 4096 := rfl
  have hPrefix : v2RetiredRequestPrefixSize = 48 := rfl
  have hWidth : width 32 = 4294967296 := by decide
  have hWidth64 : width 64 = 18446744073709551616 := by decide
  simp only [encodeRetiredRequest, bind_eq_ok, validateLedgerRequestId_eq_ok, okOr_eq_ok,
    checkedAdd_eq_some, tryFrom_eq_some, pure_eq_ok, exists_const]
  constructor
  · rintro ⟨hId, _, ⟨-, rfl⟩, _, ⟨-, rfl⟩, _, ⟨-, rfl⟩, rfl⟩
    exact ⟨hId, rfl⟩
  · rintro ⟨hId, rfl⟩
    have hLen := hId.2
    exact ⟨hId, _, ⟨by omega, rfl⟩, _, ⟨by omega, rfl⟩, _, ⟨by omega, rfl⟩, rfl⟩

theorem laid_retiredRequestBytes {record : V2RetiredRequestRecord} :
    bytes = retiredRequestBytes record ↔
      slice bytes 0 4 = some v2RetiredRequestMagic ∧
      slice bytes 4 8 = some (leBytes 4 (v2RetiredRequestPrefixSize + record.requestId.length)) ∧
      slice bytes 8 12 = some (leBytes 4 record.requestId.length) ∧
      slice bytes 12 16 = some (leBytes 4 0) ∧ slice bytes 16 48 = some record.operationDigest.toList ∧
      slice bytes 48 (48 + record.requestId.length) = some record.requestId ∧
      48 + record.requestId.length = bytes.length := by
  have hParts : retiredRequestBytes record = [v2RetiredRequestMagic,
      leBytes 4 (v2RetiredRequestPrefixSize + record.requestId.length),
      leBytes 4 record.requestId.length, leBytes 4 0, record.operationDigest.toList,
      record.requestId].flatten := by simp [retiredRequestBytes]
  rw [hParts, ← laid_iff]
  simp only [Laid, length_v2RetiredRequestMagic, length_leBytes, Vector.length_toList, Nat.reduceAdd]

theorem decodeRetiredRequest_eq_ok {record : V2RetiredRequestRecord} :
    decodeRetiredRequest bytes = .ok record ↔
      LedgerIdOk record.requestId ∧ bytes = retiredRequestBytes record := by
  have hMax : v2MaxRequestIdBytes = 4096 := rfl
  have hPrefix : v2RetiredRequestPrefixSize = 48 := rfl
  have hWidth64 : width 64 = 256 ^ 8 := by decide
  rw [laid_retiredRequestBytes]
  simp only [decodeRetiredRequest, V2RetiredRequestRecord.new, bind_eq_ok, failIf_eq_ok, okOr_eq_ok,
    readLe_eq_some, readArray_eq_some, checkedAdd_eq_some, not_not, validateLedgerRequestId_eq_ok,
    pure_eq_ok, exists_const, Nat.reduceAdd]
  rw [hPrefix]
  constructor
  · rintro ⟨-, hMagic, recordLen, ⟨hRecordLen, -⟩, hWhole, requestLen, ⟨hRequestLen, -⟩, flags,
      ⟨hFlags, -⟩, hFlagsZero, digest, hDigest, expected, ⟨-, hExpected⟩, hEnd, hId, hRecord⟩
    have hIdLen : (bytes.drop 48).length = requestLen := by
      rw [List.length_drop]
      omega
    rw [hFlagsZero] at hFlags
    rw [hWhole, ← hEnd, hExpected, ← hIdLen] at hRecordLen
    rw [← hIdLen] at hRequestLen
    rw [← hRecord]
    exact ⟨hId, hMagic, hRecordLen, hRequestLen, hFlags, hDigest,
      slice_eq_some.mpr ⟨Nat.le_add_right _ _, by dsimp only; omega, by simp⟩,
      by dsimp only; omega⟩
  · rintro ⟨hId, hMagic, hRecordLen, hRequestLen, hFlags, hDigest, hRequest, hEnd⟩
    have hLen := hId.2
    have hDrop := drop_of_slice hRequest hEnd
    rw [hDrop]
    exact ⟨by omega, hMagic, _, ⟨hRecordLen, by omega⟩, by omega, _, ⟨hRequestLen, by omega⟩, _,
      ⟨hFlags, by decide⟩, rfl, _, hDigest, _, ⟨by omega, rfl⟩, hEnd, hId, rfl⟩

/-! ## Deleted checkpoints -/

def deletedCheckpointBytes (record : V2DeletedCheckpointRecord) : Bytes :=
  v2DeletedCheckpointMagic ++ leBytes 4 (v2DeletedCheckpointPrefixSize +
    (utf8 record.threadId).length + (utf8 record.checkpointId).length) ++
    leBytes 4 (utf8 record.threadId).length ++ leBytes 4 (utf8 record.checkpointId).length ++
    utf8 record.threadId ++ utf8 record.checkpointId

theorem length_deletedCheckpointBytes (record : V2DeletedCheckpointRecord) :
    (deletedCheckpointBytes record).length =
      16 + (utf8 record.threadId).length + (utf8 record.checkpointId).length := by
  simp [deletedCheckpointBytes, ← Nat.add_assoc]

theorem encodeDeletedCheckpoint_eq_ok {record : V2DeletedCheckpointRecord} :
    encodeDeletedCheckpoint record = .ok bytes ↔
      (IdentifierOk record.threadId ∧ IdentifierOk record.checkpointId) ∧
        bytes = deletedCheckpointBytes record := by
  have hMax : v2MaxIdentifierBytes = 4096 := rfl
  have hPrefix : v2DeletedCheckpointPrefixSize = 16 := rfl
  have hWidth : width 32 = 4294967296 := by decide
  have hWidth64 : width 64 = 18446744073709551616 := by decide
  simp only [encodeDeletedCheckpoint, bind_eq_ok, validateLedgerIdentifier_eq_ok, okOr_eq_ok,
    checkedAdd_eq_some, tryFrom_eq_some, pure_eq_ok, exists_const]
  constructor
  · rintro ⟨hThread, hCheckpoint, _, ⟨-, rfl⟩, _, ⟨-, rfl⟩, _, ⟨-, rfl⟩, _, ⟨-, rfl⟩, _, ⟨-, rfl⟩, rfl⟩
    exact ⟨⟨hThread, hCheckpoint⟩, rfl⟩
  · rintro ⟨⟨hThread, hCheckpoint⟩, rfl⟩
    have hThreadLen := hThread.2
    have hCheckpointLen := hCheckpoint.2
    exact ⟨hThread, hCheckpoint, _, ⟨by omega, rfl⟩, _, ⟨by omega, rfl⟩, _, ⟨by omega, rfl⟩, _,
      ⟨by omega, rfl⟩, _, ⟨by omega, rfl⟩, rfl⟩

theorem laid_deletedCheckpointBytes {record : V2DeletedCheckpointRecord} :
    bytes = deletedCheckpointBytes record ↔
      slice bytes 0 4 = some v2DeletedCheckpointMagic ∧
      slice bytes 4 8 = some (leBytes 4 (v2DeletedCheckpointPrefixSize +
        (utf8 record.threadId).length + (utf8 record.checkpointId).length)) ∧
      slice bytes 8 12 = some (leBytes 4 (utf8 record.threadId).length) ∧
      slice bytes 12 16 = some (leBytes 4 (utf8 record.checkpointId).length) ∧
      slice bytes 16 (16 + (utf8 record.threadId).length) = some (utf8 record.threadId) ∧
      slice bytes (16 + (utf8 record.threadId).length)
        (16 + (utf8 record.threadId).length + (utf8 record.checkpointId).length) =
          some (utf8 record.checkpointId) ∧
      16 + (utf8 record.threadId).length + (utf8 record.checkpointId).length = bytes.length := by
  have hParts : deletedCheckpointBytes record = [v2DeletedCheckpointMagic,
      leBytes 4 (v2DeletedCheckpointPrefixSize + (utf8 record.threadId).length +
        (utf8 record.checkpointId).length), leBytes 4 (utf8 record.threadId).length,
      leBytes 4 (utf8 record.checkpointId).length, utf8 record.threadId,
      utf8 record.checkpointId].flatten := by simp [deletedCheckpointBytes]
  rw [hParts, ← laid_iff]
  simp only [Laid, length_v2DeletedCheckpointMagic, length_leBytes, Nat.reduceAdd]

theorem decodeDeletedCheckpoint_eq_ok {record : V2DeletedCheckpointRecord} :
    decodeDeletedCheckpoint bytes = .ok record ↔
      (IdentifierOk record.threadId ∧ IdentifierOk record.checkpointId) ∧
        bytes = deletedCheckpointBytes record := by
  have hMax : v2MaxIdentifierBytes = 4096 := rfl
  have hPrefix : v2DeletedCheckpointPrefixSize = 16 := rfl
  have hWidth64 : width 64 = 256 ^ 8 := by decide
  rw [laid_deletedCheckpointBytes]
  simp only [decodeDeletedCheckpoint, V2DeletedCheckpointRecord.new, bind_eq_ok, failIf_eq_ok,
    okOr_eq_ok, readLe_eq_some, checkedAdd_eq_some, not_not, not_or, validateLedgerIdentifier_eq_ok,
    fromUtf8_eq_some, pure_eq_ok, exists_const, Nat.reduceAdd]
  rw [hPrefix]
  constructor
  · rintro ⟨-, hMagic, recordLen, ⟨hRecordLen, -⟩, hWhole, threadLen, ⟨hThreadLen, -⟩, checkpointLen,
      ⟨hCheckpointLen, -⟩, -, -, threadEnd, ⟨-, hThreadEnd⟩, checkpointEnd, ⟨-, hCheckpointEnd⟩, hEnd,
      threadBytes, hThread, thread, hThreadText, idBytes, hId, id, hIdText, hThreadOk, hIdOk, hRecord⟩
    rw [hThreadText] at hThread
    rw [hIdText] at hId
    have hThreadSame : (utf8 thread).length = threadLen := by
      rw [length_of_slice hThread, hThreadEnd, Nat.add_sub_cancel_left]
    have hIdSame : (utf8 id).length = checkpointLen := by
      rw [length_of_slice hId, hCheckpointEnd, Nat.add_sub_cancel_left]
    rw [← hRecord]
    rw [hCheckpointEnd, hThreadEnd, ← hThreadSame, ← hIdSame] at hId hEnd
    rw [hThreadEnd, ← hThreadSame] at hThread
    rw [hWhole, ← hEnd] at hRecordLen
    rw [← hThreadSame] at hThreadLen
    rw [← hIdSame] at hCheckpointLen
    exact ⟨⟨hThreadOk, hIdOk⟩, hMagic, hRecordLen, hThreadLen, hCheckpointLen, hThread, hId, hEnd⟩
  · rintro ⟨⟨hThreadOk, hIdOk⟩, hMagic, hRecordLen, hThreadLen, hIdLen, hThread, hId, hEnd⟩
    have hThreadMax := hThreadOk.2
    have hIdMax := hIdOk.2
    have hThreadPos := List.length_pos_of_ne_nil hThreadOk.1
    have hIdPos := List.length_pos_of_ne_nil hIdOk.1
    exact ⟨by omega, hMagic, _, ⟨hRecordLen, by omega⟩, by omega, _, ⟨hThreadLen, by omega⟩, _,
      ⟨hIdLen, by omega⟩, ⟨by omega, by omega⟩, ⟨by omega, by omega⟩, _, ⟨by omega, rfl⟩, _,
      ⟨by omega, rfl⟩, hEnd, _, hThread, _, rfl, _, hId, _, rfl, hThreadOk, hIdOk, rfl⟩

/-! ## Frames -/

theorem framed_activeRequestBytes {record : V2ActiveRequestRecord}
    (h : LedgerIdOk record.requestId) : Framed (activeRequestBytes record) := by
  have hMax : v2MaxRequestIdBytes = 4096 := rfl
  have hWidth : width 32 = 4294967296 := by decide
  have hLen := h.2
  refine ⟨?_, ?_⟩
  · rw [length_activeRequestBytes]
    exact (laid_activeRequestBytes.mp rfl).2.1
  · rw [length_activeRequestBytes]
    omega

theorem framed_retiredRequestBytes {record : V2RetiredRequestRecord}
    (h : LedgerIdOk record.requestId) : Framed (retiredRequestBytes record) := by
  have hMax : v2MaxRequestIdBytes = 4096 := rfl
  have hWidth : width 32 = 4294967296 := by decide
  have hLen := h.2
  refine ⟨?_, ?_⟩
  · rw [length_retiredRequestBytes]
    exact (laid_retiredRequestBytes.mp rfl).2.1
  · rw [length_retiredRequestBytes]
    omega

theorem framed_deletedCheckpointBytes {record : V2DeletedCheckpointRecord}
    (hThread : IdentifierOk record.threadId) (hId : IdentifierOk record.checkpointId) :
    Framed (deletedCheckpointBytes record) := by
  have hMax : v2MaxIdentifierBytes = 4096 := rfl
  have hWidth : width 32 = 4294967296 := by decide
  have hThreadLen := hThread.2
  have hIdLen := hId.2
  refine ⟨?_, ?_⟩
  · rw [length_deletedCheckpointBytes]
    exact (laid_deletedCheckpointBytes.mp rfl).2.1
  · rw [length_deletedCheckpointBytes]
    omega

theorem framed_canonicalCheckpoint {checkpoint : V2CheckpointRecord} (h : checkpoint.Valid) :
    Framed (canonicalCheckpoint checkpoint) := by
  have hMax : v2MaxIdentifierBytes = 4096 := rfl
  have hPrefix : v2CheckpointPrefixSize = 88 := rfl
  have hWidth : width 32 = 4294967296 := by decide
  have hThreadLen := h.threadId.2
  have hIdLen := h.checkpointId.2
  have hParentLen := length_parentBytes_le h.parent
  refine ⟨?_, ?_⟩
  · rw [canonicalCheckpoint, length_checkpointBytes]
    exact (laid_checkpointBytes.mp rfl).2.1
  · rw [canonicalCheckpoint, length_checkpointBytes]
    omega

end Ledgers

end TulyaStore.V2
