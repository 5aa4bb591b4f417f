import TulyaStore.V2.Validation

/-!
# WAL transactions read back

The decoder of `T2W2` accepts exactly the bytes the encoder writes over the same base
(`decodeV2WalTransaction_eq_ok`), which are `walBytes` of a valid transaction.
-/

namespace TulyaStore.V2

open Lib Sequence

@[simp] theorem length_v2WalMagic : v2WalMagic.length = 4 := by decide

/-- Watermarks are `u64`. -/
structure V2WalGeometry.Fits (base : V2WalGeometry) : Prop where
  payloadLen : base.payloadLen < width 64
  nodeCount : base.nodeCount < width 64
  versionCount : base.versionCount < width 64
  checkpointCount : base.checkpointCount < width 64

/-! ## The bytes of a transaction -/

def nodeTable (nodes : List V2NodeRecord) : Bytes := (nodes.map encodeV2Node).flatten

def versionTable (versions : List V2VersionRecord) : Bytes := (versions.map versionBytes).flatten

/-- The bytes of a checkpoint. -/
def canonicalCheckpoint (checkpoint : V2CheckpointRecord) : Bytes :=
  checkpointBytes checkpoint (geometryOf checkpoint)

def walBody (transaction : V2WalTransaction) : Bytes :=
  transaction.payload ++ nodeTable transaction.nodes ++ versionTable transaction.versions ++
    canonicalCheckpoint transaction.checkpoint

def walPrefix (base : V2WalGeometry) (transaction : V2WalTransaction) : Bytes :=
  walHeaderPrefix base (v2WalHeaderSize + (walBody transaction).length) transaction.payload.length
    transaction.nodes.length transaction.versions.length
    (canonicalCheckpoint transaction.checkpoint).length

def walDigest (sha256 : Bytes → Digest) (base : V2WalGeometry) (transaction : V2WalTransaction) :
    Digest :=
  transactionDigest sha256 (walPrefix base transaction) (walBody transaction)

def walBytes (sha256 : Bytes → Digest) (base : V2WalGeometry) (transaction : V2WalTransaction) :
    Bytes :=
  walPrefix base transaction ++ (walDigest sha256 base transaction).toList ++ walBody transaction

@[simp] theorem length_nodeTable (nodes : List V2NodeRecord) :
    (nodeTable nodes).length = nodes.length * 72 := by
  rw [nodeTable, length_flatten_records (w := 72) (by simp), List.length_map]

@[simp] theorem length_versionTable (versions : List V2VersionRecord) :
    (versionTable versions).length = versions.length * 72 := by
  rw [versionTable, length_flatten_records (w := 72) (by simp), List.length_map]

@[simp] theorem length_walHeaderPrefix (base : V2WalGeometry) (total payload nodes versions
    checkpoint : Nat) : (walHeaderPrefix base total payload nodes versions checkpoint).length = 88 := by
  simp [walHeaderPrefix]

theorem length_walBody (transaction : V2WalTransaction) :
    (walBody transaction).length = transaction.payload.length + transaction.nodes.length * 72 +
      transaction.versions.length * 72 + (canonicalCheckpoint transaction.checkpoint).length := by
  simp [walBody, Nat.add_assoc]

theorem length_walBytes (sha256 : Bytes → Digest) (base : V2WalGeometry)
    (transaction : V2WalTransaction) :
    (walBytes sha256 base transaction).length = v2WalHeaderSize + (walBody transaction).length := by
  simp [walBytes, walPrefix, v2WalHeaderSize, ← Nat.add_assoc]

theorem checkedTotalLen_eq_ok {payloadLen nodeCount versionCount checkpointLen total : Nat} :
    checkedTotalLen payloadLen nodeCount versionCount checkpointLen = .ok total ↔
      total = v2WalHeaderSize + (payloadLen + nodeCount * 72 + versionCount * 72 + checkpointLen) ∧
        total < width 64 := by
  simp only [checkedTotalLen, bind_eq_ok, okOr_eq_ok, checkedAdd_eq_some, checkedMul,
    tryFrom_eq_some, v2WalNodeRecordSize, v2WalVersionRecordSize]
  constructor
  · rintro ⟨_, ⟨-, rfl⟩, _, ⟨-, rfl⟩, _, ⟨-, rfl⟩, _, ⟨-, rfl⟩, _, ⟨-, rfl⟩, hLt, rfl⟩
    exact ⟨by omega, hLt⟩
  · rintro ⟨rfl, hLt⟩
    exact ⟨_, ⟨by omega, rfl⟩, _, ⟨by omega, rfl⟩, _, ⟨by omega, rfl⟩, _, ⟨by omega, rfl⟩, _,
      ⟨by omega, rfl⟩, by omega, by omega⟩

/-! ## The encoder -/

section Codec

variable {sha256 : Bytes → Digest} {base next : V2WalGeometry} {transaction : V2WalTransaction}
  {bytes : Bytes}

theorem ValidTransaction.mapM_versions (h : ValidTransaction sha256 base next transaction) :
    transaction.versions.mapM encodeV2Version = .ok (transaction.versions.map versionBytes) := by
  rw [mapM_eq_ok, List.forall₂_map_right_iff, List.forall₂_same]
  intro version hMem
  obtain ⟨i, hGet⟩ := List.mem_iff_getElem?.mp hMem
  exact encodeV2Version_eq_ok.mpr ⟨(h.versions i version hGet).parent, rfl⟩

/-- The encoder writes `walBytes` for every valid transaction that is not too long. -/
theorem encodeV2WalTransaction_eq_ok :
    encodeV2WalTransaction sha256 base transaction = .ok bytes ↔
      (∃ next, ValidTransaction sha256 base next transaction) ∧
        v2WalHeaderSize + (walBody transaction).length < width 32 ∧
        bytes = walBytes sha256 base transaction := by
  have hWidth : width 32 < width 64 := by decide
  have hHeader : v2WalHeaderSize = 120 := rfl
  simp only [encodeV2WalTransaction, bind_eq_ok, validateTransaction_eq_ok, mapErr_eq_ok,
    encodeV2Checkpoint_eq_ok, okOr_eq_ok, tryFrom_eq_some, checkedTotalLen_eq_ok,
    checkedAdd_eq_some, failIf_eq_ok, not_not, pure_eq_ok, exists_const]
  constructor
  · rintro ⟨next, hValid, checkpoint, ⟨-, hCheckpoint⟩, payloadLen, ⟨-, hPayloadLen⟩, nodeCount,
      ⟨-, hNodeCount⟩, versionCount, ⟨-, hVersionCount⟩, checkpointLen, ⟨-, hCheckpointLen⟩, total, -,
      totalLen, ⟨hTotalLt, hTotalLen⟩, versions, hVersions, hLen, _, -, _, -, _, -, _, -, -, hBytes⟩
    rw [hValid.mapM_versions] at hVersions
    cases hVersions
    rw [hCheckpoint] at hLen hBytes hCheckpointLen
    have hTotal : totalLen = v2WalHeaderSize + (walBody transaction).length := hLen.symm
    rw [hTotal, hPayloadLen, hNodeCount, hVersionCount, hCheckpointLen] at hBytes
    rw [← hTotalLen, hTotal] at hTotalLt
    exact ⟨⟨next, hValid⟩, hTotalLt, hBytes.symm⟩
  · rintro ⟨⟨next, hValid⟩, hTotal, rfl⟩
    have hLen := length_walBody transaction
    have hNext := hValid.next_eq
    have hPayload := hValid.payload_lt
    have hNodes := hValid.nodes_lt
    have hVersions := hValid.versions_le
    have hCheckpoints := hValid.checkpoints_lt
    have hNone : v2NoneVersion + 1 = width 32 := by decide
    rw [hNext] at hPayload hNodes hVersions hCheckpoints
    dsimp only at hPayload hNodes hVersions hCheckpoints
    refine ⟨next, hValid, _, ⟨hValid.checkpoint.valid, rfl⟩, _, ⟨by omega, rfl⟩, _,
      ⟨by omega, rfl⟩, _, ⟨by omega, rfl⟩, _, ⟨?_, rfl⟩, _, ⟨rfl, ?_⟩, _, ⟨?_, rfl⟩, _,
      hValid.mapM_versions, ?_, _, ⟨hPayload, rfl⟩, _, ⟨hNodes, rfl⟩, _, ⟨by omega, rfl⟩, _,
      ⟨hCheckpoints, rfl⟩, hNext.symm, ?_⟩
    · change (canonicalCheckpoint transaction.checkpoint).length < _
      omega
    · change _ + (_ + (canonicalCheckpoint transaction.checkpoint).length) < _
      omega
    · change _ + (_ + (canonicalCheckpoint transaction.checkpoint).length) < _
      omega
    · change v2WalHeaderSize + (walBody transaction).length =
        _ + (_ + (canonicalCheckpoint transaction.checkpoint).length)
      rw [hLen]
    · rw [walBytes, walDigest, walPrefix, hLen]
      rfl

/-! ## The decoder -/

theorem laid_walHeader (total : Nat) (header : V2WalHeader) (body : Bytes) :
    bytes = walHeaderPrefix base total header.payloadLen header.nodeCount header.versionCount
        header.checkpointLen ++ header.digest.toList ++ body ↔
      slice bytes 0 4 = some v2WalMagic ∧ slice bytes 4 8 = some (leBytes 4 total) ∧
      slice bytes 8 12 = some (leBytes 4 v2WalSchema) ∧ slice bytes 12 16 = some (leBytes 4 0) ∧
      slice bytes 16 24 = some (leBytes 8 base.payloadLen) ∧
      slice bytes 24 32 = some (leBytes 8 header.payloadLen) ∧
      slice bytes 32 40 = some (leBytes 8 base.nodeCount) ∧
      slice bytes 40 48 = some (leBytes 8 header.nodeCount) ∧
      slice bytes 48 56 = some (leBytes 8 base.versionCount) ∧
      slice bytes 56 64 = some (leBytes 8 header.versionCount) ∧
      slice bytes 64 72 = some (leBytes 8 base.checkpointCount) ∧
      slice bytes 72 76 = some (leBytes 4 header.checkpointLen) ∧
      slice bytes 76 80 = some (leBytes 4 v2WalNodeRecordSize) ∧
      slice bytes 80 84 = some (leBytes 4 v2WalVersionRecordSize) ∧
      slice bytes 84 88 = some (leBytes 4 0) ∧ slice bytes 88 120 = some header.digest.toList ∧
      slice bytes 120 (120 + body.length) = some body ∧ 120 + body.length = bytes.length := by
  have hParts : walHeaderPrefix base total header.payloadLen header.nodeCount header.versionCount
      header.checkpointLen ++ header.digest.toList ++ body = [v2WalMagic, leBytes 4 total,
        leBytes 4 v2WalSchema, leBytes 4 0, leBytes 8 base.payloadLen, leBytes 8 header.payloadLen,
        leBytes 8 base.nodeCount, leBytes 8 header.nodeCount, leBytes 8 base.versionCount,
        leBytes 8 header.versionCount, leBytes 8 base.checkpointCount,
        leBytes 4 header.checkpointLen, leBytes 4 v2WalNodeRecordSize,
        leBytes 4 v2WalVersionRecordSize, leBytes 4 0, header.digest.toList, body].flatten := by
    simp [walHeaderPrefix]
  rw [hParts, ← laid_iff]
  simp only [Laid, length_v2WalMagic, length_leBytes, Vector.length_toList, Nat.reduceAdd]

/-- The header fields are of the widths they are written with. -/
structure V2WalHeader.Fits (header : V2WalHeader) : Prop where
  payloadLen : header.payloadLen < width 64
  nodeCount : header.nodeCount < width 64
  versionCount : header.versionCount < width 64
  checkpointLen : header.checkpointLen < width 32

theorem take_of_shape {headerPrefix body : Bytes} {digest : Digest} {n : Nat}
    (h : bytes = headerPrefix ++ digest.toList ++ body) (hLen : headerPrefix.length = n) :
    bytes.take n = headerPrefix := by
  rw [h, List.append_assoc, ← hLen, List.take_left]

theorem drop_of_shape {headerPrefix body : Bytes} {digest : Digest} {n : Nat}
    (h : bytes = headerPrefix ++ digest.toList ++ body) (hLen : headerPrefix.length = n) :
    bytes.drop (n + 32) = body := by
  have hHeader : (headerPrefix ++ digest.toList).length = n + 32 := by
    rw [List.length_append, hLen, Vector.length_toList]
  rw [h, ← hHeader, List.drop_left]

/-- The decoder accepts the headers the encoder writes. -/
theorem decodeWalHeader_eq_ok (hBase : base.Fits) {header : V2WalHeader} :
    decodeWalHeader sha256 bytes base = .ok header ↔
      header.Fits ∧ bytes.length < width 32 ∧
      ∃ body, bytes = walHeaderPrefix base bytes.length header.payloadLen header.nodeCount
          header.versionCount header.checkpointLen ++ header.digest.toList ++ body ∧
        header.digest = transactionDigest sha256 (walHeaderPrefix base bytes.length
          header.payloadLen header.nodeCount header.versionCount header.checkpointLen) body := by
  have hWidth : width 32 = 256 ^ 4 := by decide
  have hWidth64 : width 64 = 256 ^ 8 := by decide
  have hHeader : v2WalHeaderSize = 120 := rfl
  have hPrefix : v2WalHeaderPrefixSize = 88 := rfl
  constructor
  · intro h
    simp only [decodeWalHeader, bind_eq_ok, failIf_eq_ok, okOr_eq_ok, readLe_eq_some,
      readArray_eq_some, not_not, not_or, pure_eq_ok, exists_const, Nat.reduceAdd] at h
    obtain ⟨hLen, hMagic, total, ⟨hTotal, hTotalLt⟩, hTotalEq, schema, ⟨hSchema, -⟩, hSchemaOk, flags,
      ⟨hFlags, -⟩, hFlagsZero, payloadStart, ⟨hPayloadStart, -⟩, payloadLen,
      ⟨hPayloadLen, hPayloadLt⟩, nodeStart, ⟨hNodeStart, -⟩, nodeCount, ⟨hNodeCount, hNodeLt⟩,
      versionStart, ⟨hVersionStart, -⟩, versionCount, ⟨hVersionCount, hVersionLt⟩, checkpointStart,
      ⟨hCheckpointStart, -⟩, checkpointLen, ⟨hCheckpointLen, hCheckpointLt⟩, nodeWidth,
      ⟨hNodeWidth, -⟩, hNodeWidthOk, versionWidth, ⟨hVersionWidth, -⟩, hVersionWidthOk, reserved,
      ⟨hReserved, -⟩, hReservedZero, hStarts, digest, hDigest, hDigestOk, hResult⟩ := h
    obtain ⟨hPayloadBase, hNodeBase, hVersionBase, hCheckpointBase⟩ := hStarts
    rw [hPrefix] at hDigest
    rw [hPrefix, hHeader] at hDigestOk
    rw [hTotalEq] at hTotal hTotalLt
    rw [hPayloadBase] at hPayloadStart
    rw [hNodeBase] at hNodeStart
    rw [hVersionBase] at hVersionStart
    rw [hCheckpointBase] at hCheckpointStart
    rw [hSchemaOk] at hSchema
    rw [hFlagsZero] at hFlags
    rw [hNodeWidthOk] at hNodeWidth
    rw [hVersionWidthOk] at hVersionWidth
    rw [hReservedZero] at hReserved
    rw [← hResult]
    have hDrop : (bytes.drop 120).length = bytes.length - 120 := List.length_drop
    have hShape := (laid_walHeader bytes.length ⟨payloadLen, nodeCount, versionCount, checkpointLen,
      digest⟩ (bytes.drop 120)).mpr ⟨hMagic, hTotal, hSchema, hFlags, hPayloadStart, hPayloadLen,
      hNodeStart, hNodeCount, hVersionStart, hVersionCount, hCheckpointStart, hCheckpointLen,
      hNodeWidth, hVersionWidth, hReserved, hDigest,
      slice_eq_some.mpr ⟨Nat.le_add_right _ _, by omega, by simp⟩, by omega⟩
    refine ⟨⟨by dsimp only; omega, by dsimp only; omega, by dsimp only; omega,
      by dsimp only; omega⟩, by omega, bytes.drop 120, hShape, ?_⟩
    have hTake : bytes.take 88 = _ := take_of_shape hShape (by simp)
    rw [hTake] at hDigestOk
    exact hDigestOk
  · rintro ⟨hFits, hLt, body, hShape, hDigest⟩
    have hTake : bytes.take 88 = _ := take_of_shape hShape (by simp)
    have hDrop : bytes.drop 120 = body := drop_of_shape hShape (by simp)
    obtain ⟨hMagic, hTotal, hSchema, hFlags, hPayloadStart, hPayloadLen, hNodeStart, hNodeCount,
      hVersionStart, hVersionCount, hCheckpointStart, hCheckpointLen, hNodeWidth, hVersionWidth,
      hReserved, hDigestAt, -, hLen⟩ := (laid_walHeader _ _ _).mp hShape
    simp only [decodeWalHeader, bind_eq_ok, failIf_eq_ok, okOr_eq_ok, readLe_eq_some,
      readArray_eq_some, not_not, not_or, pure_eq_ok, exists_const, Nat.reduceAdd]
    obtain ⟨hPayloadLt, hNodeLt, hVersionLt, hCheckpointLt⟩ := hFits
    obtain ⟨hPayloadBase, hNodeBase, hVersionBase, hCheckpointBase⟩ := hBase
    rw [hPrefix, hHeader]
    refine ⟨by omega, hMagic, _, ⟨hTotal, by omega⟩, rfl, _, ⟨hSchema, by decide⟩, rfl, _,
      ⟨hFlags, by decide⟩, rfl, _, ⟨hPayloadStart, by omega⟩, _, ⟨hPayloadLen, by omega⟩, _,
      ⟨hNodeStart, by omega⟩, _, ⟨hNodeCount, by omega⟩, _, ⟨hVersionStart, by omega⟩, _,
      ⟨hVersionCount, by omega⟩, _, ⟨hCheckpointStart, by omega⟩, _, ⟨hCheckpointLen, by omega⟩, _,
      ⟨hNodeWidth, by decide⟩, rfl, _, ⟨hVersionWidth, by decide⟩, rfl, _, ⟨hReserved, by decide⟩,
      rfl, ⟨rfl, rfl, rfl, rfl⟩, _, hDigestAt, ?_, rfl⟩
    rw [hDigest, hTake, hDrop]

/-- What a round of the node loop reads. -/
theorem walNode_reads (hBytes : bytes.length < width 64) {overflow truncated : V2WalError} :
    ReadsAt (fun _ node part => node.Canonical ∧ part = encodeV2Node node)
      (fixedStep v2WalNodeRecordSize walNodeDecoder overflow truncated bytes) bytes := by
  refine fixedStep_reads hBytes fun index part node => ?_
  simp only [walNodeDecoder, Except.ok.injEq, exists_eq_left', mapErr_eq_ok, decodeV2Node_eq_ok]
  constructor
  · rintro ⟨-, h⟩
    exact h
  · rintro ⟨hCanonical, rfl⟩
    exact ⟨length_encodeV2Node node, hCanonical, rfl⟩

/-- What a round of the version loop reads. -/
theorem walVersion_reads (hBytes : bytes.length < width 64) {count : Nat}
    {overflow truncated : V2WalError} :
    ReadsAt (fun index version part => (count + index < v2NoneVersion ∧ version.Fits ∧
        version.versionId = count + index ∧
          ParentVersionOk version.versionId version.parentVersion) ∧ part = versionBytes version)
      (fixedStep v2WalVersionRecordSize (walVersionDecoder count) overflow truncated bytes) bytes := by
  refine fixedStep_reads hBytes fun index part version => ?_
  simp only [walVersionDecoder, bind_eq_ok, versionIdForLocal_eq_ok, pure_eq_ok]
  constructor
  · rintro ⟨_, ⟨_, ⟨hLt, rfl⟩, rfl⟩, -, h⟩
    obtain ⟨hFits, hId, hEncode⟩ := decodeV2Version_eq_ok.mp (mapErr_eq_ok.mp h)
    obtain ⟨hParent, rfl⟩ := encodeV2Version_eq_ok.mp hEncode
    exact ⟨⟨hLt, hFits, hId, hParent⟩, rfl⟩
  · rintro ⟨⟨hLt, hFits, hId, hParent⟩, rfl⟩
    exact ⟨_, ⟨_, ⟨hLt, rfl⟩, rfl⟩, length_versionBytes version, mapErr_eq_ok.mpr
      (decodeV2Version_eq_ok.mpr ⟨hFits, hId, encodeV2Version_eq_ok.mpr ⟨hParent, rfl⟩⟩)⟩

theorem laid_walBody {payload nodes versions checkpoint : Bytes} {start : Nat} :
    slice bytes start (start + (payload ++ nodes ++ versions ++ checkpoint).length) =
        some (payload ++ nodes ++ versions ++ checkpoint) ↔
      slice bytes start (start + payload.length) = some payload ∧
      slice bytes (start + payload.length) (start + payload.length + nodes.length) = some nodes ∧
      slice bytes (start + payload.length + nodes.length)
        (start + payload.length + nodes.length + versions.length) = some versions ∧
      slice bytes (start + payload.length + nodes.length + versions.length)
        (start + payload.length + nodes.length + versions.length + checkpoint.length) =
          some checkpoint := by
  simp only [List.append_assoc, slice_append_eq_some]

/-- The decoder accepts exactly what the encoder writes over the same base. -/
theorem decodeV2WalTransaction_eq_ok (hBase : base.Fits) {decoded : V2DecodedWalTransaction} :
    decodeV2WalTransaction sha256 bytes base = .ok decoded ↔
      encodeV2WalTransaction sha256 base decoded.transaction = .ok bytes ∧
      ValidTransaction sha256 base decoded.nextGeometry decoded.transaction ∧
      decoded.digest = walDigest sha256 base decoded.transaction := by
  have hWidth : width 32 < width 64 := by decide
  have hHeader : v2WalHeaderSize = 120 := rfl
  rw [encodeV2WalTransaction_eq_ok]
  constructor
  · intro h
    simp only [decodeV2WalTransaction, bind_eq_ok, failIf_eq_ok, okOr_eq_ok,
      decodeWalHeader_eq_ok hBase, checkedTotalLen_eq_ok, nextGeometryFromCounts_eq_ok,
      checkedAdd_eq_some, validateTransaction_eq_ok, mapErr_eq_ok, decodeV2Checkpoint_eq_ok,
      encodeV2Checkpoint_eq_ok, pure_eq_ok, exists_const, not_not] at h
    obtain ⟨header, ⟨-, hLt, body, hShape, hDigest⟩, _, -, -, headerNext, -, payloadEnd,
      ⟨-, hPayloadEnd⟩, payload, hPayload, ⟨nodes, nodesEnd⟩, hNodes, ⟨versions, versionsEnd⟩,
      hVersions, checkpointEnd, ⟨-, hCheckpointEnd⟩, checkpointPart, hCheckpoint, checkpoint,
      ⟨-, -, -, hCheckpointPart⟩, hAll, next, hValid, -, hResult⟩ := h
    rw [hHeader] at hPayloadEnd hPayload
    rw [hPayloadEnd] at hPayload hNodes
    have hPayloadLen : header.payloadLen = payload.length := by
      rw [length_of_slice hPayload, Nat.add_sub_cancel_left]
    rw [hPayloadLen] at hPayload hNodes
    have hBytes : bytes.length < width 64 := by omega
    obtain ⟨hNodeCount, nodePart, hNodeTable, hNodePart, rfl⟩ :=
      (readRecords_eq_ok (walNode_reads hBytes) (slice_eq_some.mp hPayload).2.1).mp hNodes
    obtain ⟨-, rfl⟩ := table_iff.mp hNodeTable
    obtain ⟨hVersionCount, versionPart, hVersionTable, hVersionPart, rfl⟩ :=
      (readRecords_eq_ok (walVersion_reads hBytes) (slice_eq_some.mp hNodePart).2.1).mp hVersions
    obtain ⟨-, rfl⟩ := table_iff.mp hVersionTable
    have hCheckpointLen : header.checkpointLen = (canonicalCheckpoint checkpoint).length := by
      have hLen := length_of_slice hCheckpoint
      rw [hCheckpointPart, hCheckpointEnd, Nat.add_sub_cancel_left] at hLen
      exact hLen.symm
    rw [hCheckpointEnd, hCheckpointPart, hCheckpointLen] at hCheckpoint
    rw [hCheckpointEnd, hCheckpointLen] at hAll
    let transaction : V2WalTransaction := ⟨payload, nodes, versions, checkpoint⟩
    have hBody : slice bytes 120 (120 + (walBody transaction).length) = some (walBody transaction) :=
      laid_walBody.mpr ⟨hPayload, hNodePart, hVersionPart, hCheckpoint⟩
    have hWhole : 120 + (walBody transaction).length = bytes.length := by
      simp only [walBody, List.length_append, ← Nat.add_assoc]
      exact hAll
    have hSame : body = walBody transaction := by
      have hDrop : bytes.drop 120 = body := drop_of_shape hShape (by simp)
      obtain ⟨-, -, hTake⟩ := slice_eq_some.mp hBody
      rw [← hDrop, ← hTake, Nat.add_sub_cancel_left, List.take_of_length_le]
      rw [List.length_drop]
      omega
    rw [hPayloadLen, ← hNodeCount, ← hVersionCount, hCheckpointLen, ← hWhole, hSame] at hShape hDigest
    rw [← hResult]
    refine ⟨⟨⟨next, hValid⟩, by rw [hHeader, hWhole]; exact hLt, ?_⟩, hValid, hDigest⟩
    rw [hDigest] at hShape
    exact hShape
  · obtain ⟨transaction, next, digest⟩ := decoded
    rintro ⟨⟨-, hTotalLt, hShape⟩, hValid, hDigest⟩
    dsimp only at hTotalLt hShape hValid hDigest
    have hLen : bytes.length = v2WalHeaderSize + (walBody transaction).length := by
      rw [hShape, length_walBytes]
    have hBytes : bytes.length < width 64 := by omega
    have hBody : slice bytes 120 (120 + (walBody transaction).length) = some (walBody transaction) := by
      refine slice_eq_some.mpr ⟨Nat.le_add_right _ _, by rw [hLen, hHeader], ?_⟩
      have hDrop : bytes.drop 120 = walBody transaction :=
        drop_of_shape (hShape.trans (walBytes.eq_def _ _ _)) (by simp [walPrefix])
      rw [hDrop, Nat.add_sub_cancel_left, List.take_length]
    obtain ⟨hPayload, hNodePart, hVersionPart, hCheckpointPart⟩ := laid_walBody.mp hBody
    have hBodyLen := length_walBody transaction
    have hHeaderOk : decodeWalHeader sha256 bytes base = .ok ⟨transaction.payload.length,
        transaction.nodes.length, transaction.versions.length,
        (canonicalCheckpoint transaction.checkpoint).length, digest⟩ := by
      refine (decodeWalHeader_eq_ok hBase).mpr ⟨⟨by dsimp only; omega, by dsimp only; omega,
        by dsimp only; omega, by dsimp only; omega⟩, by omega, walBody transaction, ?_, ?_⟩
      · rw [walBytes, ← hDigest, walPrefix, ← hLen] at hShape
        dsimp only
        exact hShape
      · dsimp only
        rw [hDigest, walDigest, walPrefix, ← hLen]
    have hNodes : ∀ overflow truncated, readRecords
        (fixedStep v2WalNodeRecordSize walNodeDecoder overflow truncated bytes)
        transaction.nodes.length 0 (120 + transaction.payload.length) =
          .ok (transaction.nodes, 120 + transaction.payload.length +
            (nodeTable transaction.nodes).length) := by
      intro overflow truncated
      refine (readRecords_eq_ok (walNode_reads hBytes) (slice_eq_some.mp hPayload).2.1).mpr
        ⟨rfl, _, table_iff.mpr ⟨fun i node hGet => ?_, rfl⟩, hNodePart, rfl⟩
      exact hValid.canonical node (List.mem_of_getElem? hGet)
    have hVersions : ∀ overflow truncated, readRecords
        (fixedStep v2WalVersionRecordSize (walVersionDecoder base.versionCount) overflow truncated
          bytes) transaction.versions.length 0 (120 + transaction.payload.length +
            (nodeTable transaction.nodes).length) =
          .ok (transaction.versions, 120 + transaction.payload.length +
            (nodeTable transaction.nodes).length + (versionTable transaction.versions).length) := by
      intro overflow truncated
      refine (readRecords_eq_ok (walVersion_reads hBytes) (slice_eq_some.mp hNodePart).2.1).mpr
        ⟨rfl, _, table_iff.mpr ⟨fun i version hGet => ?_, rfl⟩, hVersionPart, rfl⟩
      have hVersion := hValid.versions i version hGet
      have hLt := (List.getElem?_eq_some_iff.mp hGet).1
      have hCount := hValid.versions_le
      rw [hValid.next_eq] at hCount
      dsimp only at hCount
      rw [Nat.zero_add]
      exact ⟨by omega, hVersion.fits, hVersion.versionId, hVersion.parent⟩
    rw [decodeV2WalTransaction, hHeaderOk, ok_bind]
    dsimp only
    rw [checkedTotalLen_eq_ok.mpr ⟨rfl, by omega⟩, ok_bind, failIf_neg (by omega), ok_bind,
      nextGeometryFromCounts_eq_ok.mpr ⟨hValid.next_eq, hValid.payload_lt, hValid.nodes_lt,
        hValid.versions_le, hValid.checkpoints_lt⟩, ok_bind, checkedAdd_of_lt (by omega), okOr_some,
      ok_bind, hHeader, hPayload, okOr_some, ok_bind, hNodes, ok_bind]
    dsimp only
    rw [hVersions, ok_bind]
    dsimp only
    have hCheckpointOk : decodeV2Checkpoint (canonicalCheckpoint transaction.checkpoint)
        next.versionCount = .ok transaction.checkpoint :=
      decodeV2Checkpoint_eq_ok.mpr ⟨hValid.checkpoint.fits, hValid.checkpoint.below,
        encodeV2Checkpoint_eq_ok.mpr ⟨hValid.checkpoint.valid, rfl⟩⟩
    have hEnd : 120 + transaction.payload.length + (nodeTable transaction.nodes).length +
        (versionTable transaction.versions).length +
          (canonicalCheckpoint transaction.checkpoint).length = bytes.length := by
      rw [length_nodeTable, length_versionTable]
      omega
    rw [checkedAdd_of_lt (by omega), okOr_some, ok_bind, hCheckpointPart, okOr_some, ok_bind,
      hCheckpointOk, mapErr_ok, ok_bind, failIf_neg (by omega), ok_bind,
      validateTransaction_eq_ok.mpr hValid, ok_bind, failIf_neg (by simp), ok_bind]
    rfl

end Codec

end TulyaStore.V2
