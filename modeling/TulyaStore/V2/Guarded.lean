import TulyaStore.Lib.Requests
import TulyaStore.V2.SnapshotDecode

/-!
# Decoders with their requests and panics

The decoders of images, transactions, commits and snapshots once more, now with the capacities they
ask for before a table is filled, and with the slices and sums that would panic. Every part that
checks what it does is the one of the plain decoder.
-/

namespace TulyaStore.V2

open Lib Lib.Decoder Sequence
open Checkpoint (utf8)

section Slices

variable {ε : Type} {bytes : Bytes} {n : Nat}

/-- `&bytes[..n]` -/
theorem orPanic_take (h : n ≤ bytes.length) :
    (orPanic (slice bytes 0 n) : Decoder ε Bytes) = pure (bytes.take n) :=
  orPanic_some (slice_eq_some.mpr ⟨Nat.zero_le _, h, by rw [List.drop_zero, Nat.sub_zero]⟩)

/-- `&bytes[n..]` -/
theorem orPanic_drop (h : n ≤ bytes.length) :
    (orPanic (slice bytes n bytes.length) : Decoder ε Bytes) = pure (bytes.drop n) := by
  refine orPanic_some (slice_eq_some.mpr ⟨h, Nat.le_refl _, ?_⟩)
  rw [← List.length_drop, List.take_length]

end Slices

namespace Guarded

/-! ## Checkpoint records -/

/-- The fields of a checkpoint record in front of its identifiers. -/
structure V2CheckpointFields where
  checkpointNo : Nat
  identityVersion : Nat
  messagesVersion : Option Nat
  resultVersion : Option Nat
  threadLen : Nat
  checkpointLen : Nat
  parentLen : Nat
  state : V2StateMetadata
deriving DecidableEq, Repr

/-- The checks of `decode_v2_checkpoint` in front of the identifiers. -/
def checkpointFields (bytes : Bytes) (versionCount : Nat) :
    Except V2PublicationError V2CheckpointFields := do
  failIf (bytes.length < v2CheckpointPrefixSize)
    (.invalid "v2 checkpoint record is shorter than its prefix")
  failIf (slice bytes 0 4 ≠ some v2CheckpointMagic) (.invalid "v2 checkpoint magic mismatch")
  let recordLen ← okOr (readLe 4 bytes 4) (.invalid "v2 checkpoint record length is truncated")
  failIf (recordLen ≠ bytes.length) (.recordLength "v2 checkpoint" recordLen bytes.length)
  let checkpointNo ← okOr (readLe 4 bytes 8) (.invalid "v2 checkpoint number is truncated")
  let identityVersion ← okOr (readLe 4 bytes 12) (.invalid "v2 identity version is truncated")
  let rawMessages ← okOr (readLe 4 bytes 16) (.invalid "v2 messages version is truncated")
  let rawResult ← okOr (readLe 4 bytes 20) (.invalid "v2 result version is truncated")
  validateVersionReference versionCount identityVersion
  checkPresent (validateVersionReference versionCount) (decodeOptionalVersion rawMessages)
  checkPresent (validateVersionReference versionCount) (decodeOptionalVersion rawResult)
  let threadLen ← okOr (readLe 4 bytes 24) (.invalid "v2 checkpoint thread length is truncated")
  let checkpointLen ← okOr (readLe 4 bytes 28) (.invalid "v2 checkpoint id length is truncated")
  let parentLen ← okOr (readLe 4 bytes 32) (.invalid "v2 checkpoint parent length is truncated")
  failIf (threadLen = 0 ∨ threadLen > v2MaxIdentifierBytes)
    (.invalid "v2 checkpoint thread id is invalid")
  failIf (checkpointLen = 0 ∨ checkpointLen > v2MaxIdentifierBytes)
    (.invalid "v2 checkpoint id is invalid")
  failIf (parentLen > v2MaxIdentifierBytes) (.invalid "v2 checkpoint parent id is invalid")
  let schema ← okOr (readLe 4 bytes 36) (.invalid "v2 checkpoint schema is truncated")
  failIf (schema ≠ v2CheckpointSchema) (.invalid "v2 checkpoint schema is unsupported")
  let logicalLen ← okOr (readLe 8 bytes 40) (.invalid "v2 checkpoint logical length is truncated")
  failIf (logicalLen < v2MinCanonicalStateBytes)
    (.invalid "v2 checkpoint canonical length is too small")
  let commitment ← okOr (readArray 32 bytes 48) (.invalid "v2 checkpoint commitment is truncated")
  let flags ← okOr (readLe 4 bytes 80) (.invalid "v2 checkpoint flags are truncated")
  failIf (flags ≠ 0) (.invalid "v2 checkpoint flags must be zero")
  let reserved ← okOr (readLe 4 bytes 84) (.invalid "v2 checkpoint reserved field is truncated")
  failIf (reserved ≠ 0) (.invalid "v2 checkpoint reserved field must be zero")
  return ⟨checkpointNo, identityVersion, decodeOptionalVersion rawMessages,
    decodeOptionalVersion rawResult, threadLen, checkpointLen, parentLen, ⟨logicalLen, commitment⟩⟩

/-- The identifiers behind the fields. -/
def checkpointIdentifiers (bytes : Bytes) (fields : V2CheckpointFields)
    (threadEnd checkpointEnd parentEnd : Nat) : Except V2PublicationError V2CheckpointRecord := do
  let threadBytes ← okOr (slice bytes v2CheckpointPrefixSize threadEnd)
    (.invalid "v2 checkpoint thread bytes are truncated")
  let threadId ← decodeIdentifier threadBytes "v2 checkpoint thread id is not UTF-8"
  let checkpointIdBytes ← okOr (slice bytes threadEnd checkpointEnd)
    (.invalid "v2 checkpoint id bytes are truncated")
  let checkpointId ← decodeIdentifier checkpointIdBytes "v2 checkpoint id is not UTF-8"
  let parentIdBytes ← okOr (slice bytes checkpointEnd parentEnd)
    (.invalid "v2 checkpoint parent bytes are truncated")
  let parent ← decodeIdentifier parentIdBytes "v2 checkpoint parent id is not UTF-8"
  return {
    checkpointNo := fields.checkpointNo
    threadId
    checkpointId
    parentCheckpointId := if utf8 parent = [] then none else some parent
    identityVersion := fields.identityVersion
    messagesVersion := fields.messagesVersion
    resultVersion := fields.resultVersion
    state := fields.state }

/-- The end of a checkpoint record with the given lengths. -/
def checkpointEnd (fields : V2CheckpointFields) : Except V2PublicationError Nat := do
  let overflow := .overflow "v2 checkpoint identifier bytes exceed usize"
  let withCheckpoint ← okOr (checkedAdd 64 fields.threadLen fields.checkpointLen) overflow
  let payloadLen ← okOr (checkedAdd 64 withCheckpoint fields.parentLen) overflow
  okOr (checkedAdd 64 v2CheckpointPrefixSize payloadLen)
    (.overflow "v2 checkpoint payload end exceeds usize")

/-- `decode_v2_checkpoint` -/
def decodeV2Checkpoint (bytes : Bytes) (versionCount : Nat) :
    Decoder V2PublicationError V2CheckpointRecord := do
  let fields ← lift (checkpointFields bytes versionCount)
  let payloadEnd ← lift (checkpointEnd fields)
  lift (failIf (payloadEnd ≠ bytes.length) (.invalid "v2 checkpoint identifier geometry mismatch"))
  let threadEnd ← add v2CheckpointPrefixSize fields.threadLen
  let checkpointEnd ← add threadEnd fields.checkpointLen
  let parentEnd ← add checkpointEnd fields.parentLen
  lift (checkpointIdentifiers bytes fields threadEnd checkpointEnd parentEnd)

section Checkpoint

variable {bytes : Bytes} {versionCount : Nat} {fields : V2CheckpointFields}

theorem checkpointFields_bounds (h : checkpointFields bytes versionCount = .ok fields) :
    fields.threadLen ≤ v2MaxIdentifierBytes ∧ fields.checkpointLen ≤ v2MaxIdentifierBytes ∧
      fields.parentLen ≤ v2MaxIdentifierBytes := by
  simp only [checkpointFields, bind_eq_ok, failIf_eq_ok, not_or, Nat.not_lt, gt_iff_lt,
    pure_eq_ok, exists_const] at h
  obtain ⟨-, -, _, -, -, _, -, _, -, _, -, _, -, _, -, _, -, _, -, _, -, _, -, _, -,
    ⟨-, hThread⟩, ⟨-, hCheckpoint⟩, hParent, h⟩ := h
  obtain ⟨_, -, -, _, -, -, _, -, _, -, -, _, -, -, rfl⟩ := h
  exact ⟨hThread, hCheckpoint, hParent⟩

/-- The plain decoder is the fields and the identifiers behind them. -/
theorem decodeV2Checkpoint_eq : V2.decodeV2Checkpoint bytes versionCount = (do
    let fields ← checkpointFields bytes versionCount
    let threadEnd := v2CheckpointPrefixSize + fields.threadLen
    let checkpointEnd := threadEnd + fields.checkpointLen
    let parentEnd := checkpointEnd + fields.parentLen
    failIf (parentEnd ≠ bytes.length) (.invalid "v2 checkpoint identifier geometry mismatch")
    checkpointIdentifiers bytes fields threadEnd checkpointEnd parentEnd) := by
  simp only [V2.decodeV2Checkpoint, checkpointFields, checkpointIdentifiers, bind_assoc, pure_bind]

theorem checkpointEnd_eq (h : checkpointFields bytes versionCount = .ok fields) :
    checkpointEnd fields = .ok (v2CheckpointPrefixSize + fields.threadLen + fields.checkpointLen +
      fields.parentLen) := by
  obtain ⟨hThread, hCheckpoint, hParent⟩ := checkpointFields_bounds h
  have hMax : v2MaxIdentifierBytes = 4096 := rfl
  have hSize : v2CheckpointPrefixSize = 88 := rfl
  have hWidth : 20000 < width 64 := by decide
  rw [checkpointEnd, checkedAdd_of_lt (by omega), okOr_some, ok_bind, checkedAdd_of_lt (by omega),
    okOr_some, ok_bind, checkedAdd_of_lt (by omega), okOr_some]
  congr 1
  omega

/-- No sum of the checkpoint decoder overflows. -/
theorem decodeV2Checkpoint_lift (bytes : Bytes) (versionCount : Nat) :
    decodeV2Checkpoint bytes versionCount = lift (V2.decodeV2Checkpoint bytes versionCount) := by
  rw [decodeV2Checkpoint_eq, decodeV2Checkpoint, lift_bind]
  refine lift_bind_congr fun fields hFields => ?_
  obtain ⟨hThread, hCheckpoint, hParent⟩ := checkpointFields_bounds hFields
  have hMax : v2MaxIdentifierBytes = 4096 := rfl
  have hSize : v2CheckpointPrefixSize = 88 := rfl
  have hWidth : 20000 < width 64 := by decide
  rw [checkpointEnd_eq hFields, lift_ok, pure_bind, lift_bind]
  refine bind_congr fun _ => ?_
  rw [add_of_lt (by omega), pure_bind, add_of_lt (by omega), pure_bind, add_of_lt (by omega),
    pure_bind]

end Checkpoint

/-! ## Images -/

section Image

variable (sha256 : Bytes → Digest)

/-- The checks of `decode_v2_image` on the length and the digest. -/
def checkImageDigest (bytes : Bytes) (header : V2ImageHeader) : Decoder V2ImageError Unit := do
  let expectedLen ← lift (checkedImageLen header)
  lift (failIf (bytes.length ≠ expectedLen) (.invalid "v2 image byte length mismatch"))
  let storedDigest ← lift (okOr (readArray 32 bytes v2ImagePrefixSize)
    (.invalid "v2 image digest is truncated"))
  let headerPrefix ← orPanic (slice bytes 0 v2ImagePrefixSize)
  let body ← orPanic (slice bytes v2ImageHeaderSize bytes.length)
  let expectedDigest := imageDigest sha256 headerPrefix body
  lift (failIf (storedDigest ≠ expectedDigest) (.invalid "v2 image digest mismatch"))

/-- `decode_v2_image` -/
def decodeV2Image (bytes : Bytes) : Decoder V2ImageError V2SequenceImage := do
  let header ← lift (decodeImageHeader bytes)
  checkImageDigest sha256 bytes header
  let payloadEnd ← lift (okOr (checkedAdd 64 v2ImageHeaderSize header.payloadLen)
    (.overflow "v2 image payload range exceeds usize"))
  let payload ← lift (okOr (slice bytes v2ImageHeaderSize payloadEnd)
    (.invalid "v2 image payload is truncated"))
  reserve header.nodeCount
  let (nodes, nodesEnd) ← lift (readRecords
    (fixedStep header.nodeRecordSize imageNodeDecoder (.overflow "v2 image node range exceeds usize")
      (.invalid "v2 image node table is truncated") bytes) header.nodeCount 0 payloadEnd)
  reserve header.rootCount
  let (roots, rootsEnd) ← lift (readRecords
    (fixedStep header.rootRecordSize imageRootDecoder (.overflow "v2 image root range exceeds usize")
      (.invalid "v2 image root table is truncated") bytes) header.rootCount 0 nodesEnd)
  lift (failIf (rootsEnd ≠ bytes.length) (.invalid "v2 image decoder did not consume all bytes"))
  return ⟨payload, nodes, roots⟩

/-- `import_image` -/
def importImage (bytes : Bytes) : Decoder V2ImportError (V2AvlSequence × List V2RootRecord) := do
  let image ← (decodeV2Image sha256 bytes).mapErr .image
  reserve image.nodes.length
  let sequence ← lift (mapErr .avl (importArena sha256 image))
  return (sequence, image.roots)

variable {sha256} {bytes : Bytes} {header : V2ImageHeader}

/-- Counts that fit the length of an image are bounded by it. -/
theorem counts_le_of_checkedImageLen (hHeader : decodeImageHeader bytes = .ok header)
    (hLen : checkedImageLen header = .ok bytes.length) :
    header.nodeCount ≤ bytes.length ∧ header.rootCount ≤ bytes.length := by
  simp only [decodeImageHeader, bind_eq_ok, validateRecordSize, failIf_eq_ok, not_or, pure_eq_ok,
    exists_const] at hHeader
  obtain ⟨-, -, _, -, -, _, -, nodeCount, -, rootCount, -, nodeSize, -, rootSize, -, -, -, -,
    ⟨hNode, -⟩, ⟨hRoot, -⟩, rfl⟩ := hHeader
  simp only [checkedImageLen, bind_eq_ok, okOr_eq_ok, checkedAdd_eq_some, checkedMul,
    tryFrom_eq_some] at hLen
  obtain ⟨_, ⟨-, rfl⟩, _, ⟨-, rfl⟩, _, ⟨-, rfl⟩, _, ⟨-, rfl⟩, -, hSum⟩ := hLen
  have hNodes := Nat.le_mul_of_pos_right nodeCount (Nat.pos_of_ne_zero hNode)
  have hRoots := Nat.le_mul_of_pos_right rootCount (Nat.pos_of_ne_zero hRoot)
  dsimp only at hSum ⊢
  omega

theorem decodeImageHeader_size (hHeader : decodeImageHeader bytes = .ok header) :
    v2ImageHeaderSize ≤ bytes.length := by
  obtain ⟨_, hSize, -⟩ := bind_eq_ok.mp hHeader
  exact Nat.not_lt.mp (failIf_eq_ok.mp hSize)

/-- The slices under the digest are inside an image with a header. -/
theorem checkImageDigest_lift (hSize : v2ImageHeaderSize ≤ bytes.length) :
    checkImageDigest sha256 bytes header = lift (V2.checkImageDigest sha256 bytes header) := by
  have hPrefix : v2ImagePrefixSize ≤ bytes.length :=
    le_trans (show v2ImagePrefixSize ≤ v2ImageHeaderSize by decide) hSize
  simp only [checkImageDigest, V2.checkImageDigest, lift_bind, orPanic_take hPrefix,
    orPanic_drop hSize, pure_bind]

/-- An image decoder asks for no more nodes and roots than there are bytes. -/
theorem decodeV2Image_within (sha256 : Bytes → Digest) (bytes : Bytes) :
    Within bytes.length (decodeV2Image sha256 bytes) (V2.decodeV2Image sha256 bytes) := by
  refine within_bind (within_lift _) fun header hHeader => ?_
  rw [checkImageDigest_lift (decodeImageHeader_size hHeader)]
  refine within_bind (within_lift _) fun _ hDigest => ?_
  have hLen : checkedImageLen header = .ok bytes.length := by
    obtain ⟨expected, hExpected, hDigest⟩ := bind_eq_ok.mp hDigest
    obtain ⟨_, hSame, -⟩ := bind_eq_ok.mp hDigest
    rw [hExpected, not_not.mp (failIf_eq_ok.mp hSame)]
  obtain ⟨hNodes, hRoots⟩ := counts_le_of_checkedImageLen hHeader hLen
  refine within_bind (within_lift _) fun payloadEnd _ => ?_
  refine within_bind (within_lift _) fun payload _ => ?_
  refine within_reserve_bind hNodes (within_bind (within_lift _) fun nodes _ => ?_)
  refine within_reserve_bind hRoots (within_bind (within_lift _) fun roots _ => ?_)
  exact within_bind (within_lift _) fun _ _ => within_pure _

/-- A decoded image has no more nodes than bytes. -/
theorem length_nodes_le {image : V2SequenceImage} (h : V2.decodeV2Image sha256 bytes = .ok image) :
    image.nodes.length ≤ bytes.length := by
  obtain ⟨-, -, rfl⟩ := encodeV2Image_eq_ok.mp (decodeV2Image_eq_ok.mp h).2.2
  rw [length_imageBytes, length_imageBody]
  omega

theorem importImage_within (sha256 : Bytes → Digest) (bytes : Bytes) :
    Within bytes.length (importImage sha256 bytes) (V2.importImage sha256 bytes) := by
  refine within_bind (within_mapErr _ (decodeV2Image_within sha256 bytes)) fun image hImage => ?_
  refine within_reserve_bind (length_nodes_le (mapErr_eq_ok.mp hImage)) ?_
  exact within_bind (within_lift _) fun sequence _ => within_pure _

end Image

/-! ## Transactions -/

/-- The counts in the header of a transaction. -/
structure V2WalCounts where
  payloadLen : Nat
  nodeCount : Nat
  versionCount : Nat
  checkpointLen : Nat
deriving DecidableEq, Repr

section Transaction

variable (sha256 : Bytes → Digest) (base next : V2WalGeometry) (transaction : V2WalTransaction)

/-- `local_node` -/
def localNode (nodeId : Nat) : Decoder V2WalError (Option V2NodeRecord) :=
  if nodeId < base.nodeCount then return none
  else do
    let index ← sub nodeId base.nodeCount
    return transaction.nodes[index]?

/-- `local_version_root` -/
def localVersionRoot (versionId : Nat) : Decoder V2WalError (Option V2RootRecord) :=
  if versionId < base.versionCount then return none
  else do
    let index ← sub versionId base.versionCount
    return (transaction.versions[index]?).map V2VersionRecord.root

/-- The leaf arm of the loop of `validate_nodes`. -/
def validateLeaf (node : V2NodeRecord) (fieldA fieldB : Nat) : Decoder V2WalError (Nat × Nat) := do
  let stop ← lift (okOr (checkedAdd 64 fieldA fieldB)
    (.overflow "v2 WAL leaf payload range exceeds u64"))
  lift (failIf (fieldA < base.payloadLen ∨ stop > next.payloadLen)
    (.invalid "v2 WAL new leaf references bytes outside the payload delta"))
  let localStart ← sub fieldA base.payloadLen
  let localEnd ← sub stop base.payloadLen
  let payload ← lift (okOr (slice transaction.payload localStart localEnd)
    (.invalid "v2 WAL leaf payload slice is outside the delta"))
  let expected ← lift (mapErr .format (V2NodeRecord.leaf sha256 fieldA payload))
  lift (failIf (expected ≠ node) (.invalid "v2 WAL leaf commitment disagrees with payload bytes"))
  return (fieldA, stop)

/-- What a branch over two new nodes is made from. -/
def checkLocalBranch (node : V2NodeRecord) (fieldA fieldB : Nat) :
    Option V2NodeRecord → Option V2NodeRecord → Except V2WalError Unit
  | some left, some right => do
    let leftRoot ← mapErr .format (V2RootRecord.fromNode fieldA left)
    let rightRoot ← mapErr .format (V2RootRecord.fromNode fieldB right)
    let expected ← mapErr .format (V2NodeRecord.branch sha256 leftRoot rightRoot)
    failIf (expected ≠ node)
      (.invalid "v2 WAL local branch metadata or commitment is inconsistent")
  | _, _ => return ()

/-- The branch arm of the loop of `validate_nodes`. -/
def validateBranch (nodeId : Nat) (node : V2NodeRecord) (fieldA fieldB : Nat) :
    Decoder V2WalError Unit := do
  lift (failIf (fieldA ≥ nodeId ∨ fieldB ≥ nodeId)
    (.invalid "v2 WAL branch child is not topologically prior"))
  let left ← localNode base transaction fieldA
  let right ← localNode base transaction fieldB
  lift (checkLocalBranch sha256 node fieldA fieldB left right)

/-- One round of the loop of `validate_nodes`. -/
def validateNode (leafRanges : List (Nat × Nat)) (entry : V2NodeRecord × Nat) :
    Decoder V2WalError (List (Nat × Nat)) := do
  let node := entry.1
  let nodeId ← lift (okOr (checkedAdd 64 base.nodeCount entry.2)
    (.overflow "v2 WAL node identifier exceeds u64"))
  let encoded := encodeV2Node node
  lift (failIf (encoded.length ≠ v2WalNodeRecordSize)
    (.invalid "v2 WAL T2N2 record width disagrees with schema"))
  let decoded ← lift (mapErr .format (decodeV2Node encoded))
  lift (failIf (decoded ≠ node) (.invalid "v2 WAL node does not round-trip canonically"))
  let fieldA ← lift (okOr (readLe 8 encoded 16) (.invalid "v2 WAL node field A is truncated"))
  let fieldB ← lift (okOr (readLe 8 encoded 24) (.invalid "v2 WAL node field B is truncated"))
  if node.height = 1 then do
    let range ← validateLeaf sha256 base next transaction node fieldA fieldB
    return leafRanges ++ [range]
  else do
    validateBranch sha256 base transaction nodeId node fieldA fieldB
    return leafRanges

/-- `validate_nodes` -/
def validateNodes : Decoder V2WalError Unit := do
  let leafRanges ←
    transaction.nodes.zipIdx.foldlM (validateNode sha256 base next transaction) []
  let cursor ← lift
    ((leafRanges.insertionSort fun r s => r.1 ≤ s.1).foldlM followRange base.payloadLen)
  lift (failIf (cursor ≠ next.payloadLen)
    (.invalid "v2 WAL payload delta contains bytes not owned by new leaves"))

/-- One round of `validate_versions`. -/
def validateVersion (entry : V2VersionRecord × Nat) : Decoder V2WalError Unit := do
  let version := entry.1
  let expectedId ← lift (versionIdForLocal base.versionCount entry.2)
  lift (failIf (version.versionId ≠ expectedId)
    (.invalid "v2 WAL version identifiers are not sequential"))
  let encoded ← lift (mapErr .publication (encodeV2Version version))
  lift (failIf (encoded.length ≠ v2WalVersionRecordSize)
    (.invalid "v2 WAL T2V2 record width disagrees with schema"))
  let decoded ← lift (mapErr .publication (decodeV2Version encoded expectedId))
  lift (failIf (decoded ≠ version) (.invalid "v2 WAL version does not round-trip canonically"))
  let root := version.root
  lift (failIf (root.nodeId ≥ next.nodeCount)
    (.invalid "v2 WAL version root references an uncommitted node"))
  let node ← localNode base transaction root.nodeId
  lift (checkLocalRoot root node)

/-- `validate_versions` -/
def validateVersions : Decoder V2WalError Unit :=
  transaction.versions.zipIdx.forM (validateVersion base next transaction)

/-- The root of an optional version, none when it is not of this transaction. -/
def localOptionalRoot : Option Nat → Decoder V2WalError (Option (Option V2RootRecord))
  | some version => do
    let root ← localVersionRoot base transaction version
    return root.map some
  | none => return some none

/-- `validate_checkpoint` -/
def validateCheckpoint : Decoder V2WalError Unit := do
  let checkpoint := transaction.checkpoint
  let encoded ← lift (mapErr .publication (encodeV2Checkpoint checkpoint))
  let decoded ← (decodeV2Checkpoint encoded next.versionCount).mapErr .publication
  lift (failIf (decoded ≠ checkpoint) (.invalid "v2 WAL checkpoint does not round-trip canonically"))
  let identity ← localVersionRoot base transaction checkpoint.identityVersion
  let messages ← localOptionalRoot base transaction checkpoint.messagesVersion
  let result ← localOptionalRoot base transaction checkpoint.resultVersion
  lift (checkLocalState sha256 checkpoint.state identity messages result)

/-- `validate_transaction` -/
def validateTransaction : Decoder V2WalError V2WalGeometry := do
  lift (validateBaseGeometry base)
  let payloadLen ← lift (okOr (tryFrom 64 transaction.payload.length)
    (.overflow "v2 WAL payload delta length exceeds u64"))
  let nodeCount ← lift (okOr (tryFrom 64 transaction.nodes.length)
    (.overflow "v2 WAL node delta count exceeds u64"))
  let versionCount ← lift (okOr (tryFrom 64 transaction.versions.length)
    (.overflow "v2 WAL version delta count exceeds u64"))
  let next ← lift (nextGeometryFromCounts base payloadLen nodeCount versionCount)
  validateNodes sha256 base next transaction
  validateVersions base next transaction
  validateCheckpoint sha256 base next transaction
  return next

variable {sha256 base next transaction}

theorem localNode_lift (nodeId : Nat) :
    localNode base transaction nodeId = pure (V2.localNode base transaction nodeId) := by
  rw [localNode, V2.localNode]
  split
  case isTrue hBase => rfl
  case isFalse hBase => rw [sub_of_le (by omega), pure_bind]

theorem localVersionRoot_lift (versionId : Nat) : localVersionRoot base transaction versionId =
    pure (V2.localVersionRoot base transaction versionId) := by
  rw [localVersionRoot, V2.localVersionRoot]
  split
  case isTrue hBase => rfl
  case isFalse hBase => rw [sub_of_le (by omega), pure_bind]

theorem localOptionalRoot_lift (versionId : Option Nat) : localOptionalRoot base transaction versionId =
    pure (V2.localOptionalRoot base transaction versionId) := by
  cases versionId with
  | none => rfl
  | some version => rw [localOptionalRoot, localVersionRoot_lift, pure_bind, V2.localOptionalRoot]

/-- Behind the check of its range a leaf starts and ends in the payload of the transaction. -/
theorem validateLeaf_lift (node : V2NodeRecord) (fieldA fieldB : Nat) :
    validateLeaf sha256 base next transaction node fieldA fieldB =
      lift (V2.validateLeaf sha256 base next transaction node fieldA fieldB) := by
  rw [validateLeaf, V2.validateLeaf, lift_bind]
  refine lift_bind_congr fun stop hStop => ?_
  obtain ⟨-, hSum⟩ := checkedAdd_eq_some.mp (okOr_eq_ok.mp hStop)
  rw [lift_bind]
  refine lift_bind_congr fun _ hRange => ?_
  have hInside := failIf_eq_ok.mp hRange
  rw [sub_of_le (by omega), pure_bind, sub_of_le (by omega), pure_bind]
  simp only [lift_bind, lift_pure]

theorem validateBranch_lift (nodeId : Nat) (node : V2NodeRecord) (fieldA fieldB : Nat) :
    validateBranch sha256 base transaction nodeId node fieldA fieldB =
      lift (V2.validateBranch sha256 base transaction nodeId node fieldA fieldB) := by
  rw [validateBranch, V2.validateBranch, lift_bind]
  refine bind_congr fun _ => ?_
  rw [localNode_lift, pure_bind, localNode_lift, pure_bind]
  rfl

theorem validateNode_lift (leafRanges : List (Nat × Nat)) (entry : V2NodeRecord × Nat) :
    validateNode sha256 base next transaction leafRanges entry =
      lift (V2.validateNode sha256 base next transaction leafRanges entry) := by
  simp only [validateNode, V2.validateNode, lift_bind, validateLeaf_lift, validateBranch_lift]
  refine bind_congr fun _ => bind_congr fun _ => bind_congr fun _ => bind_congr fun _ =>
    bind_congr fun _ => bind_congr fun _ => ?_
  split
  case isTrue hLeaf => rw [lift_bind]; rfl
  case isFalse hBranch => rw [lift_bind]; rfl

theorem validateNodes_lift : validateNodes sha256 base next transaction =
    lift (V2.validateNodes sha256 base next transaction) := by
  simp only [validateNodes, V2.validateNodes, lift_bind, lift_foldlM validateNode_lift]

theorem validateVersions_lift : validateVersions base next transaction =
    lift (V2.validateVersions base next transaction) := by
  refine lift_forM fun entry => ?_
  simp only [validateVersion, V2.validateVersion, lift_bind, localNode_lift, pure_bind]

theorem validateCheckpoint_lift : validateCheckpoint sha256 base next transaction =
    lift (V2.validateCheckpoint sha256 base next transaction) := by
  simp only [validateCheckpoint, V2.validateCheckpoint, lift_bind, decodeV2Checkpoint_lift,
    mapErr_lift, localVersionRoot_lift, localOptionalRoot_lift, pure_bind]

/-- No index or difference of the checks on a transaction is out of range. -/
theorem validateTransaction_lift (base : V2WalGeometry) (transaction : V2WalTransaction) :
    validateTransaction sha256 base transaction =
      lift (V2.validateTransaction sha256 base transaction) := by
  simp only [validateTransaction, V2.validateTransaction, lift_bind, validateNodes_lift,
    validateVersions_lift, validateCheckpoint_lift, lift_pure]

end Transaction

section WalBytes

variable (sha256 : Bytes → Digest)

/-- The checks of `decode_v2_wal_transaction` in front of the digest. -/
def walFields (bytes : Bytes) (base : V2WalGeometry) : Except V2WalError V2WalCounts := do
  failIf (bytes.length < v2WalHeaderSize) (.invalid "v2 WAL header is truncated")
  failIf (slice bytes 0 4 ≠ some v2WalMagic) (.invalid "v2 WAL magic mismatch")
  let totalLen ← okOr (readLe 4 bytes 4) (.invalid "v2 WAL length is truncated")
  failIf (totalLen ≠ bytes.length) (.invalid "v2 WAL transaction length mismatch")
  let schema ← okOr (readLe 4 bytes 8) (.invalid "v2 WAL schema is truncated")
  failIf (schema ≠ v2WalSchema) (.invalid "v2 WAL schema is unsupported")
  let flags ← okOr (readLe 4 bytes 12) (.invalid "v2 WAL flags are truncated")
  failIf (flags ≠ 0) (.invalid "v2 WAL flags must be zero")
  let payloadStart ← okOr (readLe 8 bytes 16) (.invalid "v2 WAL payload start is truncated")
  let payloadLen ← okOr (readLe 8 bytes 24) (.invalid "v2 WAL payload length is truncated")
  let nodeStart ← okOr (readLe 8 bytes 32) (.invalid "v2 WAL node start is truncated")
  let nodeCount ← okOr (readLe 8 bytes 40) (.invalid "v2 WAL node count is truncated")
  let versionStart ← okOr (readLe 8 bytes 48) (.invalid "v2 WAL version start is truncated")
  let versionCount ← okOr (readLe 8 bytes 56) (.invalid "v2 WAL version count is truncated")
  let checkpointStart ← okOr (readLe 8 bytes 64) (.invalid "v2 WAL checkpoint start is truncated")
  let checkpointLen ← okOr (readLe 4 bytes 72)
    (.invalid "v2 WAL checkpoint record length is truncated")
  let nodeWidth ← okOr (readLe 4 bytes 76) (.invalid "v2 WAL node record width is truncated")
  failIf (nodeWidth ≠ v2WalNodeRecordSize) (.invalid "v2 WAL node record width is unsupported")
  let versionWidth ← okOr (readLe 4 bytes 80) (.invalid "v2 WAL version record width is truncated")
  failIf (versionWidth ≠ v2WalVersionRecordSize)
    (.invalid "v2 WAL version record width is unsupported")
  let reserved ← okOr (readLe 4 bytes 84) (.invalid "v2 WAL reserved field is truncated")
  failIf (reserved ≠ 0) (.invalid "v2 WAL reserved field must be zero")
  failIf (payloadStart ≠ base.payloadLen ∨ nodeStart ≠ base.nodeCount ∨
      versionStart ≠ base.versionCount ∨ checkpointStart ≠ base.checkpointCount)
    (.invalid "v2 WAL transaction starting watermark mismatch")
  return ⟨payloadLen, nodeCount, versionCount, checkpointLen⟩

/-- The checks of `decode_v2_wal_transaction` on the header and its digest. -/
def decodeWalHeader (bytes : Bytes) (base : V2WalGeometry) : Decoder V2WalError V2WalHeader := do
  let counts ← lift (walFields bytes base)
  let storedDigest ← lift (okOr (readArray 32 bytes v2WalHeaderPrefixSize)
    (.invalid "v2 WAL digest is truncated"))
  let headerPrefix ← orPanic (slice bytes 0 v2WalHeaderPrefixSize)
  let body ← orPanic (slice bytes v2WalHeaderSize bytes.length)
  let expectedDigest := transactionDigest sha256 headerPrefix body
  lift (failIf (storedDigest ≠ expectedDigest) (.invalid "v2 WAL digest mismatch"))
  return ⟨counts.payloadLen, counts.nodeCount, counts.versionCount, counts.checkpointLen,
    storedDigest⟩

/-- `decode_v2_wal_transaction` -/
def decodeV2WalTransaction (bytes : Bytes) (base : V2WalGeometry) :
    Decoder V2WalError V2DecodedWalTransaction := do
  let header ← decodeWalHeader sha256 bytes base
  let expectedLen ← lift (checkedTotalLen header.payloadLen header.nodeCount header.versionCount
    header.checkpointLen)
  lift (failIf (expectedLen ≠ bytes.length) (.invalid "v2 WAL section geometry mismatch"))
  let headerNext ← lift (nextGeometryFromCounts base header.payloadLen header.nodeCount
    header.versionCount)
  let payloadEnd ← lift (okOr (checkedAdd 64 v2WalHeaderSize header.payloadLen)
    (.overflow "v2 WAL payload range exceeds usize"))
  let payload ← lift (okOr (slice bytes v2WalHeaderSize payloadEnd)
    (.invalid "v2 WAL payload is truncated"))
  reserve header.nodeCount
  let (nodes, nodesEnd) ← lift (readRecords
    (fixedStep v2WalNodeRecordSize walNodeDecoder (.overflow "v2 WAL node range exceeds usize")
      (.invalid "v2 WAL node table is truncated") bytes) header.nodeCount 0 payloadEnd)
  reserve header.versionCount
  let (versions, versionsEnd) ← lift (readRecords
    (fixedStep v2WalVersionRecordSize (walVersionDecoder base.versionCount)
      (.overflow "v2 WAL version range exceeds usize")
      (.invalid "v2 WAL version table is truncated") bytes) header.versionCount 0 nodesEnd)
  let checkpointEnd ← lift (okOr (checkedAdd 64 versionsEnd header.checkpointLen)
    (.overflow "v2 WAL checkpoint range exceeds usize"))
  let checkpointPart ← lift (okOr (slice bytes versionsEnd checkpointEnd)
    (.invalid "v2 WAL checkpoint record is truncated"))
  let checkpoint ←
    (decodeV2Checkpoint checkpointPart headerNext.versionCount).mapErr .publication
  lift (failIf (checkpointEnd ≠ bytes.length) (.invalid "v2 WAL decoder did not consume all bytes"))
  let transaction : V2WalTransaction := ⟨payload, nodes, versions, checkpoint⟩
  let nextGeometry ← validateTransaction sha256 base transaction
  lift (failIf (nextGeometry ≠ headerNext)
    (.invalid "v2 WAL header geometry disagrees with decoded sections"))
  return ⟨transaction, nextGeometry, header.digest⟩

variable {sha256} {bytes : Bytes} {base : V2WalGeometry}

/-- The plain header check is the fields and the digest behind them. -/
theorem decodeWalHeader_eq : V2.decodeWalHeader sha256 bytes base = (do
    let counts ← walFields bytes base
    let storedDigest ← okOr (readArray 32 bytes v2WalHeaderPrefixSize)
      (.invalid "v2 WAL digest is truncated")
    let expectedDigest := transactionDigest sha256 (bytes.take v2WalHeaderPrefixSize)
      (bytes.drop v2WalHeaderSize)
    failIf (storedDigest ≠ expectedDigest) (.invalid "v2 WAL digest mismatch")
    return ⟨counts.payloadLen, counts.nodeCount, counts.versionCount, counts.checkpointLen,
      storedDigest⟩) := by
  simp only [V2.decodeWalHeader, walFields, bind_assoc, pure_bind]

theorem decodeWalHeader_lift : decodeWalHeader sha256 bytes base =
    lift (V2.decodeWalHeader sha256 bytes base) := by
  rw [decodeWalHeader_eq, decodeWalHeader, lift_bind]
  refine lift_bind_congr fun counts hCounts => ?_
  obtain ⟨_, hSize, -⟩ := bind_eq_ok.mp hCounts
  have hSize := Nat.not_lt.mp (failIf_eq_ok.mp hSize)
  have hPrefix : v2WalHeaderPrefixSize ≤ bytes.length :=
    le_trans (show v2WalHeaderPrefixSize ≤ v2WalHeaderSize by decide) hSize
  simp only [lift_bind, orPanic_take hPrefix, orPanic_drop hSize, pure_bind, lift_pure]

/-- Counts that fit the length of a transaction are bounded by it. -/
theorem counts_le_of_checkedTotalLen {payloadLen nodeCount versionCount checkpointLen total : Nat}
    (h : checkedTotalLen payloadLen nodeCount versionCount checkpointLen = .ok total) :
    nodeCount ≤ total ∧ versionCount ≤ total := by
  simp only [checkedTotalLen, bind_eq_ok, okOr_eq_ok, checkedAdd_eq_some, checkedMul,
    tryFrom_eq_some] at h
  obtain ⟨_, ⟨-, rfl⟩, _, ⟨-, rfl⟩, _, ⟨-, rfl⟩, _, ⟨-, rfl⟩, _, ⟨-, rfl⟩, -, rfl⟩ := h
  have hNode : v2WalNodeRecordSize = 72 := rfl
  have hVersion : v2WalVersionRecordSize = 72 := rfl
  rw [hNode, hVersion]
  omega

/-- A transaction decoder asks for no more nodes and versions than there are bytes. -/
theorem decodeV2WalTransaction_within (sha256 : Bytes → Digest) (bytes : Bytes)
    (base : V2WalGeometry) : Within bytes.length (decodeV2WalTransaction sha256 bytes base)
      (V2.decodeV2WalTransaction sha256 bytes base) := by
  rw [decodeV2WalTransaction, decodeWalHeader_lift]
  refine within_bind (within_lift _) fun header _ => ?_
  refine within_bind (within_lift _) fun expectedLen hLen => ?_
  refine within_bind (within_lift _) fun _ hSame => ?_
  obtain ⟨hNodes, hVersions⟩ := counts_le_of_checkedTotalLen hLen
  rw [not_not.mp (failIf_eq_ok.mp hSame)] at hNodes hVersions
  refine within_bind (within_lift _) fun headerNext _ => ?_
  refine within_bind (within_lift _) fun payloadEnd _ => ?_
  refine within_bind (within_lift _) fun payload _ => ?_
  refine within_reserve_bind hNodes (within_bind (within_lift _) fun nodes _ => ?_)
  refine within_reserve_bind hVersions (within_bind (within_lift _) fun versions _ => ?_)
  refine within_bind (within_lift _) fun checkpointEnd _ => ?_
  refine within_bind (within_lift _) fun checkpointPart _ => ?_
  rw [decodeV2Checkpoint_lift, mapErr_lift]
  refine within_bind (within_lift _) fun checkpoint _ => ?_
  refine within_bind (within_lift _) fun _ _ => ?_
  dsimp only
  rw [validateTransaction_lift]
  refine within_bind (within_lift _) fun nextGeometry _ => ?_
  exact within_bind (within_lift _) fun _ _ => within_pure _

end WalBytes

/-! ## Commits -/

section Commit

variable (sha256 : Bytes → Digest)

/-- The checks of `decode_v2_commit` in front of the digest. -/
def commitFields (bytes : Bytes) : Except V2CommitError V2CommitHeader := do
  failIf (bytes.length < v2CommitHeaderSize) (.invalid "v2 commit header is truncated")
  failIf (slice bytes 0 4 ≠ some v2CommitMagic) (.invalid "v2 commit magic mismatch")
  let totalLen ← okOr (readLe 4 bytes 4) (.invalid "v2 commit length is truncated")
  failIf (totalLen ≠ bytes.length) (.invalid "v2 commit byte length mismatch")
  let schema ← okOr (readLe 4 bytes 8) (.invalid "v2 commit schema is truncated")
  failIf (schema ≠ v2CommitSchema) (.invalid "v2 commit schema is unsupported")
  let flags ← okOr (readLe 4 bytes 12) (.invalid "v2 commit flags are truncated")
  failIf (flags ≠ 0) (.invalid "v2 commit flags must be zero")
  let walLen ← okOr (readLe 4 bytes 16) (.invalid "v2 commit WAL length is truncated")
  let requestLen ← okOr (readLe 4 bytes 20) (.invalid "v2 commit request id length is truncated")
  failIf (requestLen > v2MaxRequestIdBytes)
    (.invalid "v2 commit request id exceeds the byte limit")
  let operationDigest ← okOr (readArray 32 bytes 24)
    (.invalid "v2 commit operation digest is truncated")
  let storedDigest ← okOr (readArray 32 bytes v2CommitPrefixSize)
    (.invalid "v2 commit digest is truncated")
  return ⟨walLen, requestLen, operationDigest, storedDigest⟩

/-- The checks of `decode_v2_commit` on the header and its digest. -/
def decodeCommitHeader (bytes : Bytes) : Decoder V2CommitError V2CommitHeader := do
  let header ← lift (commitFields bytes)
  let headerPrefix ← orPanic (slice bytes 0 v2CommitPrefixSize)
  let body ← orPanic (slice bytes v2CommitHeaderSize bytes.length)
  let expectedDigest := commitDigest sha256 headerPrefix body
  lift (failIf (header.commitDigest ≠ expectedDigest) (.invalid "v2 commit digest mismatch"))
  return header

/-- `decode_v2_commit` -/
def decodeV2Commit (bytes : Bytes) : Decoder V2CommitError V2DecodedCommit := do
  let header ← decodeCommitHeader sha256 bytes
  let walEnd ← lift (okOr (checkedAdd 64 v2CommitHeaderSize header.walLen)
    (.overflow "v2 commit WAL range exceeds usize"))
  let requestEnd ← lift (okOr (checkedAdd 64 walEnd header.requestLen)
    (.overflow "v2 commit request range exceeds usize"))
  lift (failIf (requestEnd ≠ bytes.length) (.invalid "v2 commit section geometry mismatch"))
  let walBytes ← lift (okOr (slice bytes v2CommitHeaderSize walEnd)
    (.invalid "v2 commit WAL bytes are truncated"))
  let requestBytes ← lift (okOr (slice bytes walEnd requestEnd)
    (.invalid "v2 commit request bytes are truncated"))
  lift (failIf (header.requestLen = 0 ∧ header.operationDigest ≠ zeroDigest)
    (.invalid "v2 requestless commit operation digest must be zero"))
  lift (failIf (header.requestLen > 0 ∧ requestBytes = [])
    (.invalid "v2 commit request id is empty"))
  let encodedBase ← lift (decodeInnerWalBase walBytes)
  let wal ← (decodeV2WalTransaction sha256 walBytes encodedBase).mapErr .wal
  let operationDigest ← lift (checkOperationDigest sha256 header wal.transaction.checkpoint)
  return {
    encodedBase
    wal
    requestId := if header.requestLen = 0 then none else some requestBytes
    operationDigest
    commitDigest := header.commitDigest }

variable {sha256} {bytes : Bytes}

theorem decodeCommitHeader_lift :
    decodeCommitHeader sha256 bytes = lift (V2.decodeCommitHeader sha256 bytes) := by
  have hEq : V2.decodeCommitHeader sha256 bytes = (do
      let header ← commitFields bytes
      let expectedDigest := commitDigest sha256 (bytes.take v2CommitPrefixSize)
        (bytes.drop v2CommitHeaderSize)
      failIf (header.commitDigest ≠ expectedDigest) (.invalid "v2 commit digest mismatch")
      return header) := by
    simp only [V2.decodeCommitHeader, commitFields, bind_assoc, pure_bind]
  rw [hEq, decodeCommitHeader, lift_bind]
  refine lift_bind_congr fun header hHeader => ?_
  obtain ⟨_, hSize, -⟩ := bind_eq_ok.mp hHeader
  have hSize := Nat.not_lt.mp (failIf_eq_ok.mp hSize)
  have hPrefix : v2CommitPrefixSize ≤ bytes.length :=
    le_trans (show v2CommitPrefixSize ≤ v2CommitHeaderSize by decide) hSize
  simp only [lift_bind, orPanic_take hPrefix, orPanic_drop hSize, pure_bind, lift_pure]

/-- A commit decoder asks for no more records than there are bytes. -/
theorem decodeV2Commit_within (sha256 : Bytes → Digest) (bytes : Bytes) :
    Within bytes.length (decodeV2Commit sha256 bytes) (V2.decodeV2Commit sha256 bytes) := by
  rw [decodeV2Commit, decodeCommitHeader_lift]
  refine within_bind (within_lift _) fun header _ => ?_
  refine within_bind (within_lift _) fun walEnd _ => ?_
  refine within_bind (within_lift _) fun requestEnd _ => ?_
  refine within_bind (within_lift _) fun _ _ => ?_
  refine within_bind (within_lift _) fun walBytes hWal => ?_
  refine within_bind (within_lift _) fun requestBytes _ => ?_
  refine within_bind (within_lift _) fun _ _ => within_bind (within_lift _) fun _ _ => ?_
  refine within_bind (within_lift _) fun encodedBase _ => ?_
  have hPart := okOr_eq_ok.mp hWal
  have hInside := (slice_eq_some.mp hPart).2.1
  have hLen : walBytes.length ≤ bytes.length := by
    rw [length_of_slice hPart]
    omega
  refine within_bind (within_mapErr _
    ((decodeV2WalTransaction_within sha256 walBytes encodedBase).mono hLen)) fun wal _ => ?_
  exact within_bind (within_lift _) fun _ _ => within_pure _

end Commit

/-! ## Snapshots -/

section Snapshot

variable (sha256 : Bytes → Digest)

/-- `snapshot_digest` with the length of its input, whose buffer is no table. -/
def snapshotDigest (headerPrefix body : Bytes) : Decoder V2SnapshotError Digest := do
  let withPrefix ← add v2SnapshotDomain.length headerPrefix.length
  let _ ← add withPrefix body.length
  return V2.snapshotDigest sha256 headerPrefix body

/-- The checks of `decode_v2_sealed_snapshot` on the length and the digest. -/
def checkSnapshotDigest (bytes : Bytes) (header : V2SnapshotHeader) :
    Decoder V2SnapshotError Unit := do
  lift (failIf (header.totalLen ≠ bytes.length) (.invalid "v2 sealed snapshot byte length mismatch"))
  let storedDigest ← lift (okOr (readArray 32 bytes v2SnapshotPrefixSize)
    (.invalid "v2 snapshot digest is truncated"))
  let expectedDigest ← snapshotDigest sha256 (bytes.take v2SnapshotPrefixSize)
    (bytes.drop v2SnapshotHeaderSize)
  lift (failIf (storedDigest ≠ expectedDigest) (.invalid "v2 sealed snapshot digest mismatch"))

/-- The sequence state of a snapshot in `validate_snapshot`. -/
def validateSnapshotSequence (snapshot : V2SealedSnapshot) : Decoder V2SnapshotError Unit :=
  if snapshot.checkpoints = [] then lift (V2.validateSnapshotSequence sha256 snapshot)
  else do
    lift (failIf (snapshot.image = [] ∨ snapshot.versions = [])
      (.invalid "v2 live snapshot requires sequence image and versions"))
    let (_, imageRoots) ← (importImage sha256 snapshot.image).mapErr .avl
    lift (failIf (imageRoots.length ≠ snapshot.versions.length)
      (.invalid "v2 snapshot image roots do not match version count"))
    lift ((imageRoots.zip snapshot.versions).zipIdx.forM validateSnapshotVersion)

/-- `validate_snapshot` -/
def validateSnapshot (snapshot : V2SealedSnapshot) : Decoder V2SnapshotError Unit := do
  validateSnapshotSequence sha256 snapshot
  let checkpointOrdinals ← lift (snapshot.checkpoints.zipIdx.foldlM
    (validateSnapshotCheckpoint sha256 snapshot.versions) .empty)
  let _ ← lift (snapshot.deletedCheckpoints.foldlM (validateSnapshotDeleted checkpointOrdinals)
    .empty)
  let activeIds ← lift (snapshot.activeRequests.foldlM
    (validateSnapshotActive sha256 snapshot.checkpoints) .empty)
  let _ ← lift (snapshot.retiredRequests.foldlM (validateSnapshotRetired activeIds) .empty)
  return ()

/-- `decode_v2_sealed_snapshot`. The version table is reserved in front of the check of its count. -/
def decodeV2SealedSnapshot (bytes : Bytes) : Decoder V2SnapshotError V2SealedSnapshot := do
  let header ← lift (decodeSnapshotHeader bytes)
  checkSnapshotDigest sha256 bytes header
  let imageEnd ← lift (okOr (checkedAdd 64 v2SnapshotHeaderSize header.imageLen)
    (.overflow "v2 snapshot image end exceeds usize"))
  let image ← lift (okOr (slice bytes v2SnapshotHeaderSize imageEnd)
    (.invalid "v2 snapshot image is truncated"))
  reserve header.versionCount
  let (versions, versionsEnd) ← lift (decodeSnapshotVersions bytes header imageEnd)
  let checkpointCount ← lift (boundedCount header.checkpointCount (bytes.length - versionsEnd)
    v2MinCheckpointRecordSize "v2 snapshot checkpoint count exceeds body capacity")
  reserve checkpointCount
  let (checkpoints, checkpointsEnd) ← lift (readOrdered
    (framedStep (framedRecordLen bytes "v2 snapshot checkpoint length is truncated")
      (.overflow "v2 snapshot checkpoint end exceeds usize")
      (.invalid "v2 snapshot checkpoint record is truncated")
      (fun part => mapErr .publication (V2.decodeV2Checkpoint part header.versionCount)) bytes)
    anyOrder checkpointCount none versionsEnd)
  let activeCount ← lift (boundedCount header.activeRequestCount (bytes.length - checkpointsEnd)
    (v2ActiveRequestPrefixSize + 1) "v2 snapshot active request count exceeds body capacity")
  reserve activeCount
  let (activeRequests, activeEnd) ← lift (readOrdered
    (framedStep (framedRecordLen bytes "v2 active request length is truncated")
      (.overflow "v2 active request end exceeds usize")
      (.invalid "v2 active request record is truncated") decodeActiveRequest bytes)
    (requireStrictRequestOrder V2ActiveRequestRecord.requestId) activeCount none checkpointsEnd)
  let retiredCount ← lift (boundedCount header.retiredRequestCount (bytes.length - activeEnd)
    (v2RetiredRequestPrefixSize + 1) "v2 snapshot retired request count exceeds body capacity")
  reserve retiredCount
  let (retiredRequests, retiredEnd) ← lift (readOrdered
    (framedStep (framedRecordLen bytes "v2 retired request length is truncated")
      (.overflow "v2 retired request end exceeds usize")
      (.invalid "v2 retired request record is truncated") decodeRetiredRequest bytes)
    (requireStrictRequestOrder V2RetiredRequestRecord.requestId) retiredCount none activeEnd)
  let deletedCheckpoints ← lift (readWhile
    (framedStep (framedRecordLen bytes "v2 deleted checkpoint record length is truncated")
      (.overflow "v2 deleted checkpoint record end exceeds usize")
      (.invalid "v2 deleted checkpoint record is truncated") decodeDeletedCheckpoint bytes)
    requireStrictDeletedOrder bytes.length .diverged bytes.length none retiredEnd)
  let snapshot : V2SealedSnapshot :=
    ⟨image, versions, checkpoints, activeRequests, retiredRequests, deletedCheckpoints⟩
  validateSnapshot sha256 snapshot
  return snapshot

variable {sha256} {bytes : Bytes} {header : V2SnapshotHeader}

theorem decodeSnapshotHeader_size (h : decodeSnapshotHeader bytes = .ok header) :
    v2SnapshotHeaderSize ≤ bytes.length := by
  obtain ⟨_, hSize, -⟩ := bind_eq_ok.mp h
  exact Nat.not_lt.mp (failIf_eq_ok.mp hSize)

/-- The input of the digest has a length of `usize`. -/
theorem checkSnapshotDigest_lift (hSize : v2SnapshotHeaderSize ≤ bytes.length)
    (hLen : bytes.length < width 63) :
    checkSnapshotDigest sha256 bytes header = lift (V2.checkSnapshotDigest sha256 bytes header) := by
  have hDomain : v2SnapshotDomain.length = 36 := by decide
  have hHeader : v2SnapshotHeaderSize = 96 := rfl
  have hPrefix : v2SnapshotPrefixSize = 64 := rfl
  have hWidth : width 64 = 2 * width 63 := by decide
  have hTake : (bytes.take v2SnapshotPrefixSize).length = 64 := List.length_take_of_le (by omega)
  have hDrop : (bytes.drop v2SnapshotHeaderSize).length = bytes.length - 96 := List.length_drop
  have hSmall : 200 < width 63 := by decide
  rw [checkSnapshotDigest, V2.checkSnapshotDigest, lift_bind]
  refine bind_congr fun _ => ?_
  rw [lift_bind]
  refine bind_congr fun _ => ?_
  rw [snapshotDigest, add_of_lt (by omega), pure_bind, add_of_lt (by omega), pure_bind, pure_bind]

theorem validateSnapshotSequence_within (sha256 : Bytes → Digest) (snapshot : V2SealedSnapshot) :
    Within snapshot.image.length (validateSnapshotSequence sha256 snapshot)
      (V2.validateSnapshotSequence sha256 snapshot) := by
  by_cases hNone : snapshot.checkpoints = []
  · rw [validateSnapshotSequence, if_pos hNone]
    exact within_lift _
  · rw [validateSnapshotSequence, if_neg hNone, V2.validateSnapshotSequence, if_neg hNone]
    refine within_bind (within_lift _) fun _ _ => ?_
    refine within_bind (within_mapErr _ (importImage_within sha256 snapshot.image)) fun image _ => ?_
    exact within_bind (within_lift _) fun _ _ => within_lift _

theorem validateSnapshot_within (sha256 : Bytes → Digest) (snapshot : V2SealedSnapshot) :
    Within snapshot.image.length (validateSnapshot sha256 snapshot)
      (V2.validateSnapshot sha256 snapshot) := by
  refine within_bind (validateSnapshotSequence_within sha256 snapshot) fun _ _ => ?_
  refine within_bind (within_lift _) fun ordinals _ => within_bind (within_lift _) fun _ _ => ?_
  refine within_bind (within_lift _) fun activeIds _ => ?_
  exact within_bind (within_lift _) fun _ _ => within_pure _

theorem boundedCount_le {count remaining minRecordSize bounded : Nat} {message : String}
    (h : boundedCount count remaining minRecordSize message = .ok bounded) :
    bounded ≤ remaining := by
  simp only [boundedCount, bind_eq_ok, failIf_eq_ok, not_or, gt_iff_lt, Nat.not_lt, pure_eq_ok,
    exists_const] at h
  obtain ⟨⟨-, hLe⟩, rfl⟩ := h
  exact hLe.trans (Nat.div_le_self _ _)

/-- The version count of a snapshot that passes the checks in front of its tables is bounded by its
length. -/
def VersionCountFits (sha256 : Bytes → Digest) (bytes : Bytes) : Prop :=
  ∀ header, decodeSnapshotHeader bytes = .ok header →
    V2.checkSnapshotDigest sha256 bytes header = .ok () →
    v2SnapshotHeaderSize + header.imageLen ≤ bytes.length → header.versionCount ≤ bytes.length

/-- A version table that does not fit the bytes is refused, but only behind its reservation. -/
theorem decodeSnapshotVersions_error {cursor : Nat} (h : bytes.length < header.versionCount) :
    ∃ e, decodeSnapshotVersions bytes header cursor = .error e := by
  cases hRead : decodeSnapshotVersions bytes header cursor with
  | error e => exact ⟨e, rfl⟩
  | ok read =>
    rw [decodeSnapshotVersions, if_neg (by omega)] at hRead
    obtain ⟨_, -, hRead⟩ := bind_eq_ok.mp hRead
    obtain ⟨_, hFits, -⟩ := bind_eq_ok.mp hRead
    have hFits := Nat.not_lt.mp (failIf_eq_ok.mp hFits)
    have hLe : (bytes.length - cursor) / header.versionRecordSize ≤ bytes.length :=
      (Nat.div_le_self _ _).trans (Nat.sub_le _ _)
    omega

/-- A snapshot that decodes has room for its versions. -/
theorem versionCountFits_of_decoded {snapshot : V2SealedSnapshot}
    (h : V2.decodeV2SealedSnapshot sha256 bytes = .ok snapshot) : VersionCountFits sha256 bytes := by
  intro found hFound _ _
  by_contra hCount
  obtain ⟨header, hHeader, h⟩ := bind_eq_ok.mp h
  obtain rfl := Except.ok.inj (hHeader.symm.trans hFound)
  obtain ⟨_, -, h⟩ := bind_eq_ok.mp h
  obtain ⟨imageEnd, -, h⟩ := bind_eq_ok.mp h
  obtain ⟨image, -, h⟩ := bind_eq_ok.mp h
  obtain ⟨read, hRead, -⟩ := bind_eq_ok.mp h
  obtain ⟨e, hError⟩ := decodeSnapshotVersions_error (Nat.not_le.mp hCount)
  rw [hError] at hRead
  cases hRead

/-- Behind the version table every count is checked before its table is reserved. -/
theorem decodeV2SealedSnapshot_within (hLen : bytes.length < width 63)
    (hFits : VersionCountFits sha256 bytes) :
    Within bytes.length (decodeV2SealedSnapshot sha256 bytes)
      (V2.decodeV2SealedSnapshot sha256 bytes) := by
  refine within_bind (within_lift _) fun header hHeader => ?_
  rw [checkSnapshotDigest_lift (decodeSnapshotHeader_size hHeader) hLen]
  refine within_bind (within_lift _) fun _ hDigest => ?_
  refine within_bind (within_lift _) fun imageEnd hEnd => ?_
  refine within_bind (within_lift _) fun image hImage => ?_
  obtain ⟨-, hSum⟩ := checkedAdd_eq_some.mp (okOr_eq_ok.mp hEnd)
  obtain ⟨-, hInside, hPart⟩ := slice_eq_some.mp (okOr_eq_ok.mp hImage)
  have hImageLen : image.length ≤ bytes.length := by
    rw [length_of_slice (okOr_eq_ok.mp hImage)]
    omega
  have hVersions : header.versionCount ≤ bytes.length := hFits header hHeader hDigest (by omega)
  have hBelow : ∀ {count cursor w bounded : Nat} {message : String},
      boundedCount count (bytes.length - cursor) w message = .ok bounded →
        bounded ≤ bytes.length :=
    fun h => (boundedCount_le h).trans (Nat.sub_le _ _)
  refine within_reserve_bind hVersions (within_bind (within_lift _) fun versions _ => ?_)
  refine within_bind (within_lift _) fun checkpointCount hCheckpoints => ?_
  refine within_reserve_bind (hBelow hCheckpoints) ?_
  refine within_bind (within_lift _) fun checkpoints _ => ?_
  refine within_bind (within_lift _) fun activeCount hActive => ?_
  refine within_reserve_bind (hBelow hActive) ?_
  refine within_bind (within_lift _) fun activeRequests _ => ?_
  refine within_bind (within_lift _) fun retiredCount hRetired => ?_
  refine within_reserve_bind (hBelow hRetired) ?_
  refine within_bind (within_lift _) fun retiredRequests _ => ?_
  refine within_bind (within_lift _) fun deletedCheckpoints _ => ?_
  refine within_bind ((validateSnapshot_within sha256 _).mono hImageLen) fun _ _ => ?_
  exact within_pure _

/-- With a version count above its length a snapshot asks for that capacity. -/
theorem decodeV2SealedSnapshot_request (hLen : bytes.length < width 63)
    (hHeader : decodeSnapshotHeader bytes = .ok header)
    (hDigest : V2.checkSnapshotDigest sha256 bytes header = .ok ())
    (hImage : v2SnapshotHeaderSize + header.imageLen ≤ bytes.length)
    (hCount : bytes.length < header.versionCount) :
    ∃ e, decodeV2SealedSnapshot sha256 bytes [] = .error (.error e) [header.versionCount] := by
  have hWidth : width 64 = 2 * width 63 := by decide
  have hEnd : okOr (checkedAdd 64 v2SnapshotHeaderSize header.imageLen)
      (.overflow "v2 snapshot image end exceeds usize" : V2SnapshotError) =
      .ok (v2SnapshotHeaderSize + header.imageLen) :=
    okOr_eq_ok.mpr (checkedAdd_of_lt (by omega))
  have hSlice : okOr (slice bytes v2SnapshotHeaderSize (v2SnapshotHeaderSize + header.imageLen))
      (.invalid "v2 snapshot image is truncated" : V2SnapshotError) = .ok _ :=
    okOr_eq_ok.mpr (slice_eq_some.mpr ⟨Nat.le_add_right _ _, hImage, rfl⟩)
  obtain ⟨e, hVersions⟩ : ∃ e,
      decodeSnapshotVersions bytes header (v2SnapshotHeaderSize + header.imageLen) = .error e :=
    decodeSnapshotVersions_error hCount
  refine ⟨e, ?_⟩
  rw [decodeV2SealedSnapshot, lift_bind_run hHeader,
    checkSnapshotDigest_lift (decodeSnapshotHeader_size hHeader) hLen, lift_bind_run hDigest,
    lift_bind_run hEnd, lift_bind_run hSlice]
  refine (bind_run_ok (rfl : reserve header.versionCount [] = .ok () [header.versionCount])).trans ?_
  refine bind_run_error ?_
  rw [hVersions]
  rfl

/-- A snapshot decoder asks for no more records than there are bytes exactly when the version count
of its header does. -/
theorem decodeV2SealedSnapshot_within_iff (hLen : bytes.length < width 63) :
    Within bytes.length (decodeV2SealedSnapshot sha256 bytes)
        (V2.decodeV2SealedSnapshot sha256 bytes) ↔ VersionCountFits sha256 bytes := by
  constructor
  · intro hWithin header hHeader hDigest hImage
    by_contra hCount
    obtain ⟨e, hRun⟩ := decodeV2SealedSnapshot_request hLen hHeader hDigest hImage
      (Nat.not_le.mp hCount)
    exact not_within_of_request (Nat.not_le.mp hCount) hRun hWithin
  · exact decodeV2SealedSnapshot_within hLen

end Snapshot

end Guarded

/-! ## Termination -/

section Termination

variable {sha256 : Bytes → Digest} {bytes : Bytes}

theorem publication_ne_diverged {α : Type} {x : Except V2PublicationError α} :
    mapErr V2SnapshotError.publication x ≠ .error .diverged :=
  mapErr_ne_error fun e h => by cases h

theorem anyOrder_ne_diverged {α : Type} {previous : Option α} {current : α} :
    anyOrder previous current ≠ .error .diverged := by
  intro h
  cases h

theorem framedRecordLen_ne_diverged {message : String} {cursor : Nat} :
    framedRecordLen bytes message cursor ≠ .error .diverged := by
  simp only [framedRecordLen, bind_eq_error, failIf_eq_error, okOr_eq_error, reduceCtorEq,
    and_false, or_false, exists_false, ne_eq, not_false_eq_true, pure, Except.pure]

theorem decodeSnapshotHeader_ne_diverged : decodeSnapshotHeader bytes ≠ .error .diverged := by
  simp only [decodeSnapshotHeader, bind_eq_error, failIf_eq_error, okOr_eq_error, reduceCtorEq,
    and_false, or_false, exists_false, ne_eq, not_false_eq_true, pure, Except.pure]

theorem decodeActiveRequest_ne_diverged : decodeActiveRequest bytes ≠ .error .diverged := by
  simp only [decodeActiveRequest, V2ActiveRequestRecord.new, validateLedgerRequestId, bind_eq_error,
    failIf_eq_error, okOr_eq_error, reduceCtorEq, and_false, or_false, exists_false, ne_eq,
    not_false_eq_true, pure, Except.pure]

theorem decodeRetiredRequest_ne_diverged : decodeRetiredRequest bytes ≠ .error .diverged := by
  simp only [decodeRetiredRequest, V2RetiredRequestRecord.new, validateLedgerRequestId,
    bind_eq_error, failIf_eq_error, okOr_eq_error, reduceCtorEq, and_false, or_false, exists_false,
    ne_eq, not_false_eq_true, pure, Except.pure]

theorem decodeDeletedCheckpoint_ne_diverged : decodeDeletedCheckpoint bytes ≠ .error .diverged := by
  simp only [decodeDeletedCheckpoint, V2DeletedCheckpointRecord.new, validateLedgerIdentifier,
    bind_eq_error, failIf_eq_error, okOr_eq_error, reduceCtorEq, and_false, or_false, exists_false,
    ne_eq, not_false_eq_true, pure, Except.pure]

theorem decodeSnapshotVersions_ne_diverged {header : V2SnapshotHeader} {cursor : Nat} :
    decodeSnapshotVersions bytes header cursor ≠ .error .diverged := by
  have hRecords : ∀ count cursor, readRecords (fixedStep header.versionRecordSize
      snapshotVersionDecoder (.overflow "v2 snapshot version end exceeds usize")
      (.invalid "v2 snapshot version is truncated") bytes) count 0 cursor ≠ .error .diverged := by
    intro count cursor
    refine readRecords_ne_error fun index cursor => ?_
    simp only [fixedStep, snapshotVersionDecoder, bind_eq_error, bind_eq_ok, okOr_eq_error,
      reduceCtorEq, and_false, or_false, false_or, pure, Except.pure, Except.ok.injEq, ne_eq,
      exists_false, not_exists, not_and]
    rintro stop - decode ⟨versionId, -, rfl⟩ part - hDecode
    exact publication_ne_diverged hDecode
  unfold decodeSnapshotVersions
  split
  case isTrue hNone =>
    simp only [bind_eq_error, failIf_eq_error, reduceCtorEq, and_false, or_false, exists_false,
      ne_eq, not_false_eq_true, pure, Except.pure]
  case isFalse hSome =>
    refine bind_ne_error (failIf_ne_error (by simp)) fun _ _ => ?_
    exact bind_ne_error (failIf_ne_error (by simp)) fun _ _ => hRecords _ _

theorem checkSnapshotDigest_ne_diverged {header : V2SnapshotHeader} :
    checkSnapshotDigest sha256 bytes header ≠ .error .diverged := by
  simp only [checkSnapshotDigest, bind_eq_error, failIf_eq_error, okOr_eq_error, reduceCtorEq,
    and_false, or_false, exists_false, ne_eq, not_false_eq_true]

theorem boundedCount_ne_diverged {count remaining w : Nat} {message : String} :
    boundedCount count remaining w message ≠ .error .diverged := by
  simp only [boundedCount, bind_eq_error, failIf_eq_error, reduceCtorEq, and_false, or_false,
    exists_false, ne_eq, not_false_eq_true, pure, Except.pure]

theorem validateSnapshotSequence_ne_diverged {snapshot : V2SealedSnapshot} :
    validateSnapshotSequence sha256 snapshot ≠ .error .diverged := by
  unfold validateSnapshotSequence
  split
  case isTrue hNone =>
    simp only [bind_eq_error, failIf_eq_error, reduceCtorEq, and_false, or_false, exists_false,
      ne_eq, not_false_eq_true]
  case isFalse hSome =>
    refine bind_ne_error (failIf_ne_error (by simp)) fun _ _ => ?_
    refine bind_ne_error (mapErr_ne_error (by simp)) fun _ _ => ?_
    refine bind_ne_error (failIf_ne_error (by simp)) fun _ _ => ?_
    refine forM_ne_error fun entry => ?_
    simp only [validateSnapshotVersion, bind_eq_error, failIf_eq_error, okOr_eq_error,
      mapErr_eq_error, reduceCtorEq, and_false, or_false, exists_false, ne_eq, not_false_eq_true]

theorem resolveOptionalRoot_ne_diverged {versions : List V2VersionRecord} {version : Option Nat} :
    resolveOptionalRoot versions version ≠ .error .diverged := by
  cases version with
  | none => exact fun h => nomatch h
  | some version =>
    simp only [resolveOptionalRoot, resolveVersionRoot, bind_eq_error, okOr_eq_error, reduceCtorEq,
      and_false, or_false, exists_false, ne_eq, not_false_eq_true, pure, Except.pure]

theorem validateSnapshot_ne_diverged {snapshot : V2SealedSnapshot} :
    validateSnapshot sha256 snapshot ≠ .error .diverged := by
  refine bind_ne_error validateSnapshotSequence_ne_diverged fun _ _ => ?_
  refine bind_ne_error (foldlM_ne_error fun ordinals entry => ?_) fun _ _ => ?_
  · simp only [validateSnapshotCheckpoint, resolveVersionRoot, bind_eq_error, failIf_eq_error,
      okOr_eq_error, mapErr_eq_error, resolveOptionalRoot_ne_diverged, reduceCtorEq, and_false,
      or_false, exists_false, ne_eq, not_false_eq_true, pure, Except.pure]
  refine bind_ne_error (foldlM_ne_error fun deletedIds record => ?_) fun _ _ => ?_
  · simp only [validateSnapshotDeleted, validateLedgerIdentifier, bind_eq_error, failIf_eq_error,
      reduceCtorEq, and_false, or_false, exists_false, ne_eq, not_false_eq_true, pure, Except.pure]
  refine bind_ne_error (foldlM_ne_error fun activeIds record => ?_) fun _ _ => ?_
  · simp only [validateSnapshotActive, validateLedgerRequestId, bind_eq_error, failIf_eq_error,
      okOr_eq_error, mapErr_eq_error, reduceCtorEq, and_false, or_false, exists_false, ne_eq,
      not_false_eq_true, pure, Except.pure]
  refine bind_ne_error (foldlM_ne_error fun retiredIds record => ?_) fun _ _ => ok_ne_error
  simp only [validateSnapshotRetired, validateLedgerRequestId, bind_eq_error, failIf_eq_error,
    reduceCtorEq, and_false, or_false, exists_false, ne_eq, not_false_eq_true, pure, Except.pure]

theorem framedRecordLen_pos {message : String} {cursor len : Nat}
    (h : framedRecordLen bytes message cursor = .ok len) : 1 ≤ len := by
  simp only [framedRecordLen, bind_eq_ok, failIf_eq_ok, pure_eq_ok, exists_const] at h
  obtain ⟨-, -, _, -, hPos, rfl⟩ := h
  exact Nat.one_le_iff_ne_zero.mpr hPos

theorem requireStrictRequestOrder_ne_diverged {α : Type} {requestId : α → Bytes}
    {previous : Option α} {current : α} :
    requireStrictRequestOrder requestId previous current ≠ .error .diverged :=
  fun h => nomatch (failIf_eq_error.mp h).2

/-- The loop over the records behind the last counted table stops with the bytes. -/
theorem decodeV2SealedSnapshot_ne_diverged :
    decodeV2SealedSnapshot sha256 bytes ≠ .error .diverged := by
  have hFrame : ∀ {α : Type} {decode : Bytes → Except V2SnapshotError α} {a b c : String}
      (cursor : Nat), (∀ part, decode part ≠ .error .diverged) →
        framedStep (framedRecordLen bytes a) (.overflow b) (.invalid c) decode bytes cursor ≠
          .error .diverged :=
    fun _ hDecode => framedStep_ne_error framedRecordLen_ne_diverged (fun h => nomatch h)
      (fun h => nomatch h) hDecode
  refine bind_ne_error decodeSnapshotHeader_ne_diverged fun header _ => ?_
  refine bind_ne_error checkSnapshotDigest_ne_diverged fun _ _ => ?_
  refine bind_ne_error (fun h => nomatch (okOr_eq_error.mp h).2) fun imageEnd _ => ?_
  refine bind_ne_error (fun h => nomatch (okOr_eq_error.mp h).2) fun image _ => ?_
  refine bind_ne_error decodeSnapshotVersions_ne_diverged fun versions _ => ?_
  refine bind_ne_error boundedCount_ne_diverged fun checkpointCount _ => ?_
  refine bind_ne_error (readOrdered_ne_error (fun cursor => hFrame cursor fun part =>
    publication_ne_diverged) fun _ _ => anyOrder_ne_diverged) fun checkpoints _ => ?_
  refine bind_ne_error boundedCount_ne_diverged fun activeCount _ => ?_
  refine bind_ne_error (readOrdered_ne_error (fun cursor => hFrame cursor fun part =>
    decodeActiveRequest_ne_diverged) fun _ _ => requireStrictRequestOrder_ne_diverged)
    fun activeRequests _ => ?_
  refine bind_ne_error boundedCount_ne_diverged fun retiredCount _ => ?_
  refine bind_ne_error (readOrdered_ne_error (fun cursor => hFrame cursor fun part =>
    decodeRetiredRequest_ne_diverged) fun _ _ => requireStrictRequestOrder_ne_diverged)
    fun retiredRequests _ => ?_
  refine bind_ne_error (readWhile_ne_error (fun cursor => hFrame cursor fun part =>
    decodeDeletedCheckpoint_ne_diverged) (fun cursor record stop hRead => ?_)
    (fun _ _ h => nomatch (failIf_eq_error.mp h).2) (Nat.le_add_left _ _)) fun deleted _ => ?_
  · exact framedStep_advances (fun _ => framedRecordLen_pos) hRead
  · exact bind_ne_error validateSnapshot_ne_diverged fun _ _ h => nomatch h

end Termination

end TulyaStore.V2
