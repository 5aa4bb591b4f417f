import TulyaStore.V2.Commit
import TulyaStore.V2.TransactionCodec

/-!
# Commits read back

The decoder of `T2C2` finds the base in the inner bytes and then accepts exactly what the encoder
writes over that base (`decodeV2Commit_eq_ok`).
-/

namespace TulyaStore.V2

open Lib Sequence
open Checkpoint (utf8)

@[simp] theorem length_v2CommitMagic : v2CommitMagic.length = 4 := by decide

/-- A request identity is neither empty nor too long. -/
def RequestIdOk (requestId : Option Bytes) : Prop :=
  ∀ request ∈ requestId, request ≠ [] ∧ request.length ≤ v2MaxRequestIdBytes

theorem validateRequestId_eq_ok {requestId : Option Bytes} {u : Unit} :
    validateRequestId requestId = .ok u ↔ RequestIdOk requestId := by
  simp only [validateRequestId, failIf_eq_ok, not_exists, not_and, not_or, gt_iff_lt, Nat.not_lt,
    RequestIdOk, ne_eq]

theorem RequestIdOk.length_le {requestId : Option Bytes} (h : RequestIdOk requestId) :
    (requestId.getD []).length ≤ v2MaxRequestIdBytes := by
  cases requestId with
  | none => exact Nat.zero_le _
  | some request => exact (h request rfl).2

theorem RequestIdOk.getD_eq_nil {requestId : Option Bytes} (h : RequestIdOk requestId) :
    requestId.getD [] = [] ↔ requestId = none := by
  cases requestId with
  | none => simp
  | some request => simpa using (h request rfl).1

theorem validateV2CheckpointRecord_eq_ok {record : V2CheckpointRecord} {u : Unit} :
    validateV2CheckpointRecord record = .ok u ↔ record.Valid := by
  simp only [validateV2CheckpointRecord, bind_eq_ok, checkpointEncodingGeometry_eq_ok, pure_eq_ok,
    exists_eq_right, and_true]

/-! ## The bytes of a commit -/

/-- The field with its length in front, as it is hashed. -/
def prefixed (field : Bytes) : Bytes := leBytes 4 field.length ++ field

theorem lenPrefixed_eq_ok {field bytes : Bytes} :
    lenPrefixed field = .ok bytes ↔ field.length < width 32 ∧ bytes = prefixed field := by
  simp only [lenPrefixed, bind_eq_ok, okOr_eq_ok, tryFrom_eq_some, pure_eq_ok]
  constructor
  · rintro ⟨_, ⟨hLt, rfl⟩, rfl⟩
    exact ⟨hLt, rfl⟩
  · rintro ⟨hLt, rfl⟩
    exact ⟨_, ⟨hLt, rfl⟩, rfl⟩

section Codec

variable (sha256 : Bytes → Digest)

/-- The digest of the logical operation that publishes a checkpoint. -/
def operationDigestOf (checkpoint : V2CheckpointRecord) : Digest :=
  sha256 (v2OperationDomain ++ leBytes 4 v2CommitSchema ++ leBytes 4 checkpoint.checkpointNo ++
    prefixed (utf8 checkpoint.threadId) ++ prefixed (utf8 checkpoint.checkpointId) ++
    prefixed (parentBytes checkpoint.parentCheckpointId) ++ leBytes 8 checkpoint.state.logicalLen ++
    checkpoint.state.commitment.toList)

/-- The operation digest a commit carries. -/
def commitOperation (requestId : Option Bytes) (checkpoint : V2CheckpointRecord) : Digest :=
  match requestId with
  | some _ => operationDigestOf sha256 checkpoint
  | none => zeroDigest

def commitBody (base : V2WalGeometry) (transaction : V2WalTransaction) (requestId : Option Bytes) :
    Bytes :=
  walBytes sha256 base transaction ++ requestId.getD []

def commitHead (base : V2WalGeometry) (transaction : V2WalTransaction) (requestId : Option Bytes) :
    Bytes :=
  commitPrefix (v2CommitHeaderSize + (commitBody sha256 base transaction requestId).length)
    (walBytes sha256 base transaction).length (requestId.getD []).length
    (commitOperation sha256 requestId transaction.checkpoint)

def commitDigestOf (base : V2WalGeometry) (transaction : V2WalTransaction)
    (requestId : Option Bytes) : Digest :=
  commitDigest sha256 (commitHead sha256 base transaction requestId)
    (commitBody sha256 base transaction requestId)

def commitBytes (base : V2WalGeometry) (transaction : V2WalTransaction) (requestId : Option Bytes) :
    Bytes :=
  commitHead sha256 base transaction requestId ++
    (commitDigestOf sha256 base transaction requestId).toList ++
      commitBody sha256 base transaction requestId

end Codec

@[simp] theorem length_commitPrefix (total wal request : Nat) (digest : Digest) :
    (commitPrefix total wal request digest).length = 56 := by
  simp [commitPrefix]

section Codec

variable {sha256 : Bytes → Digest} {base next : V2WalGeometry} {transaction : V2WalTransaction}
  {requestId : Option Bytes} {bytes : Bytes}

theorem length_commitBytes :
    (commitBytes sha256 base transaction requestId).length =
      v2CommitHeaderSize + (commitBody sha256 base transaction requestId).length := by
  simp [commitBytes, commitHead, v2CommitHeaderSize, ← Nat.add_assoc]

theorem checkpointOperationDigest_eq_ok {checkpoint : V2CheckpointRecord} {digest : Digest} :
    checkpointOperationDigest sha256 checkpoint = .ok digest ↔
      checkpoint.Valid ∧ digest = operationDigestOf sha256 checkpoint := by
  have hMax : v2MaxIdentifierBytes = 4096 := rfl
  have hWidth : width 32 = 4294967296 := by decide
  simp only [checkpointOperationDigest, bind_eq_ok, mapErr_eq_ok, validateV2CheckpointRecord_eq_ok,
    lenPrefixed_eq_ok, pure_eq_ok, exists_const]
  constructor
  · rintro ⟨hValid, thread, ⟨-, rfl⟩, id, ⟨-, rfl⟩, parent, ⟨-, rfl⟩, rfl⟩
    exact ⟨hValid, rfl⟩
  · rintro ⟨hValid, rfl⟩
    have hThread := hValid.threadId.2
    have hCheckpoint := hValid.checkpointId.2
    have hParent := length_parentBytes_le hValid.parent
    exact ⟨hValid, _, ⟨by omega, rfl⟩, _, ⟨by omega, rfl⟩, _, ⟨by omega, rfl⟩, rfl⟩

theorem requestOperationDigest_eq_ok {checkpoint : V2CheckpointRecord} (hValid : checkpoint.Valid)
    {digest : Digest} :
    requestOperationDigest sha256 requestId checkpoint = .ok digest ↔
      digest = commitOperation sha256 requestId checkpoint := by
  cases requestId with
  | none => exact ⟨fun h => (Except.ok.inj h).symm, fun h => congrArg _ h.symm⟩
  | some request =>
    rw [requestOperationDigest, checkpointOperationDigest_eq_ok, commitOperation]
    exact and_iff_right hValid

/-! ## The encoder -/

/-- The encoder writes `commitBytes` for every valid transaction that is not too long. -/
theorem encodeV2Commit_eq_ok :
    encodeV2Commit sha256 base transaction requestId = .ok bytes ↔
      RequestIdOk requestId ∧ (∃ next, ValidTransaction sha256 base next transaction) ∧
        v2CommitHeaderSize + (commitBody sha256 base transaction requestId).length < width 32 ∧
        bytes = commitBytes sha256 base transaction requestId := by
  have hWidth : width 32 < width 64 := by decide
  have hBody : (commitBody sha256 base transaction requestId).length =
      (walBytes sha256 base transaction).length + (requestId.getD []).length :=
    List.length_append
  have hWal := length_walBytes sha256 base transaction
  simp only [encodeV2Commit, bind_eq_ok, validateRequestId_eq_ok, mapErr_eq_ok,
    encodeV2WalTransaction_eq_ok, okOr_eq_ok, tryFrom_eq_some, checkedAdd_eq_some, failIf_eq_ok,
    not_not, pure_eq_ok, exists_const]
  constructor
  · rintro ⟨hRequest, wal, ⟨⟨next, hValid⟩, -, rfl⟩, digest, hDigest, requestLen, ⟨-, hRequestLen⟩,
      walLen, ⟨-, hWalLen⟩, withWal, ⟨-, hWithWal⟩, total, ⟨-, hTotal⟩, totalLen,
      ⟨hTotalLt, hTotalLen⟩, -, hBytes⟩
    rw [requestOperationDigest_eq_ok hValid.checkpoint.valid] at hDigest
    have hLen : total = v2CommitHeaderSize + (commitBody sha256 base transaction requestId).length := by
      omega
    rw [hTotalLen, hLen, hRequestLen, hWalLen, hDigest] at hBytes
    exact ⟨hRequest, ⟨next, hValid⟩, by omega, hBytes.symm⟩
  · rintro ⟨hRequest, ⟨next, hValid⟩, hTotal, rfl⟩
    refine ⟨hRequest, _, ⟨⟨next, hValid⟩, by omega, rfl⟩, _,
      (requestOperationDigest_eq_ok hValid.checkpoint.valid).mpr rfl, _, ⟨by omega, rfl⟩, _,
      ⟨by omega, rfl⟩, _, ⟨by omega, rfl⟩, _, ⟨by omega, rfl⟩, _, ⟨by omega, rfl⟩, ?_, ?_⟩
    · change v2CommitHeaderSize + (commitBody sha256 base transaction requestId).length = _
      omega
    · rw [commitBytes, commitDigestOf, commitHead, hBody, Nat.add_assoc]
      rfl

/-! ## The decoder -/

theorem laid_commitHeader (total : Nat) (header : V2CommitHeader) (body : Bytes) :
    bytes = commitPrefix total header.walLen header.requestLen header.operationDigest ++
        header.commitDigest.toList ++ body ↔
      slice bytes 0 4 = some v2CommitMagic ∧ slice bytes 4 8 = some (leBytes 4 total) ∧
      slice bytes 8 12 = some (leBytes 4 v2CommitSchema) ∧ slice bytes 12 16 = some (leBytes 4 0) ∧
      slice bytes 16 20 = some (leBytes 4 header.walLen) ∧
      slice bytes 20 24 = some (leBytes 4 header.requestLen) ∧
      slice bytes 24 56 = some header.operationDigest.toList ∧
      slice bytes 56 88 = some header.commitDigest.toList ∧
      slice bytes 88 (88 + body.length) = some body ∧ 88 + body.length = bytes.length := by
  have hParts : commitPrefix total header.walLen header.requestLen header.operationDigest ++
      header.commitDigest.toList ++ body = [v2CommitMagic, leBytes 4 total,
        leBytes 4 v2CommitSchema, leBytes 4 0, leBytes 4 header.walLen, leBytes 4 header.requestLen,
        header.operationDigest.toList, header.commitDigest.toList, body].flatten := by
    simp [commitPrefix]
  rw [hParts, ← laid_iff]
  simp only [Laid, length_v2CommitMagic, length_leBytes, Vector.length_toList, Nat.reduceAdd]

/-- The decoder accepts the headers the encoder writes. -/
theorem decodeCommitHeader_eq_ok {header : V2CommitHeader} :
    decodeCommitHeader sha256 bytes = .ok header ↔
      header.walLen < width 32 ∧ header.requestLen ≤ v2MaxRequestIdBytes ∧
      bytes.length < width 32 ∧
      ∃ body, bytes = commitPrefix bytes.length header.walLen header.requestLen
          header.operationDigest ++ header.commitDigest.toList ++ body ∧
        header.commitDigest = commitDigest sha256 (commitPrefix bytes.length header.walLen
          header.requestLen header.operationDigest) body := by
  have hWidth : width 32 = 256 ^ 4 := by decide
  have hHeader : v2CommitHeaderSize = 88 := rfl
  have hPrefix : v2CommitPrefixSize = 56 := rfl
  have hMax : v2MaxRequestIdBytes = 4096 := rfl
  constructor
  · intro h
    simp only [decodeCommitHeader, bind_eq_ok, failIf_eq_ok, okOr_eq_ok, readLe_eq_some,
      readArray_eq_some, not_not, pure_eq_ok, exists_const, Nat.reduceAdd] at h
    obtain ⟨hLen, hMagic, total, ⟨hTotal, hTotalLt⟩, hTotalEq, schema, ⟨hSchema, -⟩, hSchemaOk, flags,
      ⟨hFlags, -⟩, hFlagsZero, walLen, ⟨hWalLen, hWalLt⟩, requestLen, ⟨hRequestLen, -⟩, hRequestMax,
      operation, hOperation, digest, hDigest, hDigestOk, hResult⟩ := h
    rw [hPrefix] at hDigest
    rw [hPrefix, hHeader] at hDigestOk
    rw [hTotalEq] at hTotal hTotalLt
    rw [hSchemaOk] at hSchema
    rw [hFlagsZero] at hFlags
    rw [← hResult]
    have hDrop : (bytes.drop 88).length = bytes.length - 88 := List.length_drop
    have hShape := (laid_commitHeader bytes.length ⟨walLen, requestLen, operation, digest⟩
      (bytes.drop 88)).mpr ⟨hMagic, hTotal, hSchema, hFlags, hWalLen, hRequestLen, hOperation,
      hDigest, slice_eq_some.mpr ⟨Nat.le_add_right _ _, by omega, by simp⟩, by omega⟩
    refine ⟨by dsimp only; omega, by dsimp only; omega, by omega, bytes.drop 88, hShape, ?_⟩
    have hTake : bytes.take 56 = _ := take_of_shape hShape (by simp)
    rw [hTake] at hDigestOk
    exact hDigestOk
  · rintro ⟨hWalLt, hRequestMax, hLt, body, hShape, hDigest⟩
    have hTake : bytes.take 56 = _ := take_of_shape hShape (by simp)
    have hDrop : bytes.drop 88 = body := drop_of_shape hShape (by simp)
    obtain ⟨hMagic, hTotal, hSchema, hFlags, hWalLen, hRequestLen, hOperation, hDigestAt, -, hLen⟩ :=
      (laid_commitHeader _ _ _).mp hShape
    simp only [decodeCommitHeader, bind_eq_ok, failIf_eq_ok, okOr_eq_ok, readLe_eq_some,
      readArray_eq_some, not_not, pure_eq_ok, exists_const, Nat.reduceAdd]
    rw [hPrefix, hHeader]
    refine ⟨by omega, hMagic, _, ⟨hTotal, by omega⟩, rfl, _, ⟨hSchema, by decide⟩, rfl, _,
      ⟨hFlags, by decide⟩, rfl, _, ⟨hWalLen, by omega⟩, _, ⟨hRequestLen, by omega⟩, by omega, _,
      hOperation, _, hDigestAt, ?_, rfl⟩
    rw [hDigest, hTake, hDrop]

/-- The base a transaction was encoded over is found in its bytes. -/
theorem decodeInnerWalBase_walBytes (hBase : base.Fits) :
    decodeInnerWalBase (walBytes sha256 base transaction) = .ok base := by
  have hShape : walBytes sha256 base transaction = walHeaderPrefix base
      (v2WalHeaderSize + (walBody transaction).length) transaction.payload.length
      transaction.nodes.length transaction.versions.length
      (canonicalCheckpoint transaction.checkpoint).length ++
        (walDigest sha256 base transaction).toList ++ walBody transaction := rfl
  obtain ⟨hMagic, -, hSchema, -, hPayload, -, hNodes, -, hVersions, -, hCheckpoints, -⟩ :=
    (laid_walHeader (v2WalHeaderSize + (walBody transaction).length) ⟨_, _, _, _, _⟩
      (walBody transaction)).mp hShape
  have hLen := length_walBytes sha256 base transaction
  have hHeader : v2WalHeaderSize = 120 := rfl
  have hWidth64 : width 64 = 256 ^ 8 := by decide
  obtain ⟨hPayloadLt, hNodesLt, hVersionsLt, hCheckpointsLt⟩ := hBase
  simp only [decodeInnerWalBase, bind_eq_ok, failIf_eq_ok, okOr_eq_ok, readLe_eq_some, not_not,
    pure_eq_ok, exists_const, Nat.reduceAdd]
  exact ⟨by omega, hMagic, _, ⟨hSchema, by decide⟩, rfl, _, ⟨hPayload, by omega⟩, _,
    ⟨hNodes, by omega⟩, _, ⟨hVersions, by omega⟩, _, ⟨hCheckpoints, by omega⟩, rfl⟩

theorem decodeInnerWalBase_fits (h : decodeInnerWalBase bytes = .ok base) : base.Fits := by
  have hWidth64 : width 64 = 256 ^ 8 := by decide
  simp only [decodeInnerWalBase, bind_eq_ok, failIf_eq_ok, okOr_eq_ok, readLe_eq_some, not_not,
    pure_eq_ok, exists_const, Nat.reduceAdd] at h
  obtain ⟨-, -, _, -, -, payload, ⟨-, hPayload⟩, nodes, ⟨-, hNodes⟩, versions, ⟨-, hVersions⟩,
    checkpoints, ⟨-, hCheckpoints⟩, rfl⟩ := h
  exact ⟨by dsimp only; omega, by dsimp only; omega, by dsimp only; omega, by dsimp only; omega⟩

theorem checkOperationDigest_eq_ok {header : V2CommitHeader} {checkpoint : V2CheckpointRecord}
    {digest : Digest} :
    checkOperationDigest sha256 header checkpoint = .ok digest ↔
      (header.requestLen = 0 ∧ digest = zeroDigest) ∨
      (header.requestLen ≠ 0 ∧ checkpoint.Valid ∧ digest = operationDigestOf sha256 checkpoint ∧
        header.operationDigest = digest) := by
  unfold checkOperationDigest
  split
  case isTrue h =>
    simp only [h, true_and, ne_eq, not_true_eq_false, false_and, or_false, Except.ok.injEq]
    exact eq_comm
  case isFalse h =>
    simp only [h, false_and, ne_eq, not_false_eq_true, true_and, false_or, bind_eq_ok,
      checkpointOperationDigest_eq_ok, failIf_eq_ok, not_not, exists_const, pure_eq_ok]
    constructor
    · rintro ⟨_, ⟨hValid, rfl⟩, hSame, rfl⟩
      exact ⟨hValid, rfl, hSame⟩
    · rintro ⟨hValid, rfl, hSame⟩
      exact ⟨_, ⟨hValid, rfl⟩, hSame, rfl⟩

/-- The decoder accepts exactly what the encoder writes over the base in the bytes. -/
theorem decodeV2Commit_eq_ok {commit : V2DecodedCommit} :
    decodeV2Commit sha256 bytes = .ok commit ↔
      commit.encodedBase.Fits ∧
      encodeV2Commit sha256 commit.encodedBase commit.wal.transaction commit.requestId = .ok bytes ∧
      ValidTransaction sha256 commit.encodedBase commit.wal.nextGeometry commit.wal.transaction ∧
      commit.wal.digest = walDigest sha256 commit.encodedBase commit.wal.transaction ∧
      commit.operationDigest =
        commitOperation sha256 commit.requestId commit.wal.transaction.checkpoint ∧
      commit.commitDigest =
        commitDigestOf sha256 commit.encodedBase commit.wal.transaction commit.requestId := by
  have hWidth : width 32 < width 64 := by decide
  have hHeader : v2CommitHeaderSize = 88 := rfl
  rw [encodeV2Commit_eq_ok]
  constructor
  · intro h
    simp only [decodeV2Commit, bind_eq_ok, decodeCommitHeader_eq_ok, okOr_eq_ok, checkedAdd_eq_some,
      failIf_eq_ok, not_not, mapErr_eq_ok, pure_eq_ok, exists_const] at h
    obtain ⟨header, ⟨-, hRequestMax, hLt, body, hShape, hDigest⟩, walEnd, ⟨-, hWalEnd⟩, requestEnd,
      ⟨-, hRequestEnd⟩, hAll, wal, hWal, request, hRequest, hZero, -, base, hInner, decoded, hDecode,
      operation, hOperation, hResult⟩ := h
    have hFits := decodeInnerWalBase_fits hInner
    obtain ⟨hEncode, hValid, hWalDigest⟩ := (decodeV2WalTransaction_eq_ok hFits).mp hDecode
    obtain ⟨-, -, hWalBytes⟩ := encodeV2WalTransaction_eq_ok.mp hEncode
    rw [hHeader] at hWalEnd hWal
    have hDrop : bytes.drop 88 = body := drop_of_shape hShape (by simp)
    have hWalLen : header.walLen = wal.length := by
      rw [length_of_slice hWal, hWalEnd, Nat.add_sub_cancel_left]
    have hRequestLen : header.requestLen = request.length := by
      rw [length_of_slice hRequest, hRequestEnd, Nat.add_sub_cancel_left]
    rw [hWalEnd, hWalLen] at hWal hRequestEnd hRequest
    rw [hRequestEnd, hRequestLen] at hAll hRequest
    have hBody : body = wal ++ request := by
      have hBoth := slice_append_eq_some.mpr ⟨hWal, hRequest⟩
      rw [← hDrop, ← (slice_eq_some.mp hBoth).2.2, List.take_of_length_le]
      rw [List.length_drop, List.length_append]
      omega
    have hLen : bytes.length = 88 + (wal ++ request).length := by
      rw [List.length_append]
      omega
    rw [hBody, hLen, hWalLen, hRequestLen] at hShape hDigest
    rw [hLen] at hLt
    rw [← hResult]
    dsimp only
    have hGetD : (if header.requestLen = 0 then none else some request).getD [] = request := by
      split
      case isTrue hNone =>
        rw [hRequestLen, List.length_eq_zero_iff] at hNone
        rw [hNone]
        rfl
      case isFalse => rfl
    have hSame : operation = commitOperation sha256
          (if header.requestLen = 0 then none else some request) decoded.transaction.checkpoint ∧
        header.operationDigest = operation := by
      obtain ⟨hNone, hOperation⟩ | ⟨hSome, -, hOperation, hStored⟩ :=
        checkOperationDigest_eq_ok.mp hOperation
      · rw [if_pos hNone]
        refine ⟨hOperation, ?_⟩
        rw [hOperation]
        exact not_not.mp (not_and.mp hZero hNone)
      · rw [if_neg hSome]
        exact ⟨hOperation, hStored⟩
    have hCommitBody : commitBody sha256 base decoded.transaction
        (if header.requestLen = 0 then none else some request) = wal ++ request := by
      rw [commitBody, hGetD, hWalBytes]
    have hCommitHead : commitHead sha256 base decoded.transaction
        (if header.requestLen = 0 then none else some request) =
          commitPrefix (88 + (wal ++ request).length) wal.length request.length
            header.operationDigest := by
      rw [commitHead, hCommitBody, hGetD, ← hSame.1, hSame.2, ← hWalBytes]
      rfl
    have hCommitDigest : header.commitDigest = commitDigestOf sha256 base decoded.transaction
        (if header.requestLen = 0 then none else some request) := by
      rw [commitDigestOf, hCommitHead, hCommitBody]
      exact hDigest
    refine ⟨hFits, ⟨?_, ⟨_, hValid⟩, ?_, ?_⟩, hValid, hWalDigest, hSame.1, hCommitDigest⟩
    · intro id hMem
      split at hMem
      case isTrue => cases hMem
      case isFalse hSome =>
        cases hMem
        refine ⟨fun hNil => hSome ?_, by omega⟩
        rw [hRequestLen, hNil]
        rfl
    · rw [hCommitBody, hHeader]
      exact hLt
    · rw [commitBytes, ← hCommitDigest, hCommitHead, hCommitBody]
      exact hShape
  · obtain ⟨base, ⟨transaction, next, digest⟩, requestId, operation, digestOf⟩ := commit
    rintro ⟨hFits, ⟨hRequest, -, hTotal, hShape⟩, hValid, hWalDigest, hOperation, hCommitDigest⟩
    dsimp only at hFits hRequest hTotal hShape hValid hWalDigest hOperation hCommitDigest
    have hMax : v2MaxRequestIdBytes = 4096 := rfl
    have hRequestMax := hRequest.length_le
    have hBodyLen : (commitBody sha256 base transaction requestId).length =
        (walBytes sha256 base transaction).length + (requestId.getD []).length :=
      List.length_append
    have hWalLen := length_walBytes sha256 base transaction
    have hLen : bytes.length =
        v2CommitHeaderSize + (commitBody sha256 base transaction requestId).length := by
      rw [hShape, length_commitBytes]
    have hHeaderOk : decodeCommitHeader sha256 bytes = .ok
        ⟨(walBytes sha256 base transaction).length, (requestId.getD []).length,
          commitOperation sha256 requestId transaction.checkpoint, digestOf⟩ := by
      refine decodeCommitHeader_eq_ok.mpr ⟨by dsimp only; omega, hRequestMax, by omega,
        commitBody sha256 base transaction requestId, ?_, ?_⟩
      · rw [commitBytes, ← hCommitDigest, commitHead, ← hLen] at hShape
        dsimp only
        exact hShape
      · dsimp only
        rw [hCommitDigest, commitDigestOf, commitHead, ← hLen]
    have hDrop : bytes.drop 88 = commitBody sha256 base transaction requestId :=
      drop_of_shape (hShape.trans (commitBytes.eq_def _ _ _ _)) (by simp [commitHead])
    have hBody : slice bytes 88 (88 + (commitBody sha256 base transaction requestId).length) =
        some (commitBody sha256 base transaction requestId) := by
      refine slice_eq_some.mpr ⟨Nat.le_add_right _ _, by omega, ?_⟩
      rw [hDrop, Nat.add_sub_cancel_left, List.take_length]
    obtain ⟨hWal, hRequestPart⟩ := slice_append_eq_some.mp hBody
    have hEncode : encodeV2WalTransaction sha256 base transaction =
        .ok (walBytes sha256 base transaction) :=
      encodeV2WalTransaction_eq_ok.mpr ⟨⟨next, hValid⟩, by omega, rfl⟩
    have hDecode : decodeV2WalTransaction sha256 (walBytes sha256 base transaction) base =
        .ok ⟨transaction, next, digest⟩ :=
      (decodeV2WalTransaction_eq_ok hFits).mpr ⟨hEncode, hValid, hWalDigest⟩
    have hNone : (requestId.getD []).length = 0 ↔ requestId = none := by
      rw [List.length_eq_zero_iff]
      exact hRequest.getD_eq_nil
    have hOperationOk : checkOperationDigest sha256
        ⟨(walBytes sha256 base transaction).length, (requestId.getD []).length,
          commitOperation sha256 requestId transaction.checkpoint, digestOf⟩
          transaction.checkpoint = .ok operation := by
      refine checkOperationDigest_eq_ok.mpr ?_
      rw [hOperation]
      cases requestId with
      | none => exact .inl ⟨rfl, rfl⟩
      | some request =>
        exact .inr ⟨fun h => Option.some_ne_none _ (hNone.mp h), hValid.checkpoint.valid, rfl, rfl⟩
    rw [decodeV2Commit, hHeaderOk, ok_bind]
    dsimp only
    rw [checkedAdd_of_lt (by omega), okOr_some, ok_bind, checkedAdd_of_lt (by omega), okOr_some,
      ok_bind, failIf_neg (by omega), ok_bind, hHeader, hWal, okOr_some, ok_bind, hRequestPart,
      okOr_some, ok_bind, failIf_neg, ok_bind, failIf_neg, ok_bind, decodeInnerWalBase_walBytes hFits,
      ok_bind, hDecode, mapErr_ok, ok_bind, hOperationOk, ok_bind]
    · cases requestId with
      | none => rfl
      | some request =>
        rw [if_neg fun h => Option.some_ne_none _ (hNone.mp h)]
        rfl
    · rintro ⟨hPos, hNil⟩
      rw [hNil] at hPos
      exact Nat.lt_irrefl 0 hPos
    · rintro ⟨hZero, hNonzero⟩
      rw [hNone.mp hZero] at hNonzero
      exact hNonzero rfl

end Codec

end TulyaStore.V2
