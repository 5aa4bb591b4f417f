import Mathlib.Data.List.Sort
import TulyaStore.Lib.Layout
import TulyaStore.V2.Publication

/-!
# WAL transactions

A `T2W2` transaction (`transaction_v2.rs`) carries what one commit appends behind the watermarks
of its base: payload bytes, node records, version records and one checkpoint, with a digest over
header and body. Encoder and decoder validate the transaction against its base: new leaves own
the new payload between them, branches name earlier nodes, versions are numbered on, and what can
be recomputed from the transaction alone is recomputed.
-/

namespace TulyaStore.V2

open Lib Sequence

def v2WalMagic : Bytes := ascii "T2W2"

def v2WalSchema : Nat := 1

/-- `V2_WAL_HEADER_PREFIX_SIZE`, the header without its digest. -/
def v2WalHeaderPrefixSize : Nat := 88

/-- `V2_WAL_HEADER_SIZE` -/
def v2WalHeaderSize : Nat := 120

def v2WalNodeRecordSize : Nat := 72

def v2WalVersionRecordSize : Nat := 72

def v2WalDomain : Bytes := ascii "tulya-checkpoint-v2/wal-transaction\x00"

inductive V2WalError where
  | format (error : V2FormatError)
  | publication (error : V2PublicationError)
  | invalid (message : String)
  | overflow (message : String)
deriving DecidableEq, Repr

/-- The watermarks a transaction starts from. -/
structure V2WalGeometry where
  payloadLen : Nat
  nodeCount : Nat
  versionCount : Nat
  checkpointCount : Nat
deriving DecidableEq, Repr

structure V2WalTransaction where
  payload : Bytes
  nodes : List V2NodeRecord
  versions : List V2VersionRecord
  checkpoint : V2CheckpointRecord
deriving DecidableEq, Repr

structure V2DecodedWalTransaction where
  transaction : V2WalTransaction
  nextGeometry : V2WalGeometry
  digest : Digest
deriving DecidableEq, Repr

/-! ## Watermarks -/

def validateBaseGeometry (base : V2WalGeometry) : Except V2WalError Unit :=
  failIf (base.versionCount > v2NoneVersion)
    (.invalid "v2 WAL base version watermark exceeds the encodable range")

def nextGeometryFromCounts (base : V2WalGeometry)
    (payloadDeltaLen nodeDeltaCount versionDeltaCount : Nat) : Except V2WalError V2WalGeometry := do
  validateBaseGeometry base
  let versionCount ← okOr (checkedAdd 64 base.versionCount versionDeltaCount)
    (.overflow "v2 WAL version watermark exceeds u64")
  failIf (versionCount > v2NoneVersion)
    (.invalid "v2 WAL version watermark crosses the reserved none sentinel")
  let payloadLen ← okOr (checkedAdd 64 base.payloadLen payloadDeltaLen)
    (.overflow "v2 WAL payload watermark exceeds u64")
  let nodeCount ← okOr (checkedAdd 64 base.nodeCount nodeDeltaCount)
    (.overflow "v2 WAL node watermark exceeds u64")
  let checkpointCount ← okOr (checkedAdd 64 base.checkpointCount 1)
    (.overflow "v2 WAL checkpoint watermark exceeds u64")
  return ⟨payloadLen, nodeCount, versionCount, checkpointCount⟩

def versionIdForLocal (baseVersionCount index : Nat) : Except V2WalError Nat := do
  let id ← okOr (checkedAdd 64 baseVersionCount index)
    (.overflow "v2 WAL version identifier exceeds u64")
  failIf (id ≥ v2NoneVersion)
    (.invalid "v2 WAL version identifier reaches the reserved none sentinel")
  okOr (tryFrom 32 id) (.overflow "v2 WAL version identifier exceeds u32")

/-! ## Validation -/

section Validate

variable (sha256 : Bytes → Digest) (base next : V2WalGeometry) (transaction : V2WalTransaction)

/-- The record of a node of this transaction, none for a node of the base. -/
def localNode (nodeId : Nat) : Option V2NodeRecord :=
  if nodeId < base.nodeCount then none else transaction.nodes[nodeId - base.nodeCount]?

/-- The root of a version of this transaction, none for a version of the base. -/
def localVersionRoot (versionId : Nat) : Option V2RootRecord :=
  if versionId < base.versionCount then none
  else (transaction.versions[versionId - base.versionCount]?).map V2VersionRecord.root

/-- A new leaf lies in the payload of the transaction and is made from it. Gives its range. -/
def validateLeaf (node : V2NodeRecord) (fieldA fieldB : Nat) : Except V2WalError (Nat × Nat) := do
  let stop ← okOr (checkedAdd 64 fieldA fieldB) (.overflow "v2 WAL leaf payload range exceeds u64")
  failIf (fieldA < base.payloadLen ∨ stop > next.payloadLen)
    (.invalid "v2 WAL new leaf references bytes outside the payload delta")
  let payload ← okOr
    (slice transaction.payload (fieldA - base.payloadLen) (stop - base.payloadLen))
    (.invalid "v2 WAL leaf payload slice is outside the delta")
  let expected ← mapErr .format (V2NodeRecord.leaf sha256 fieldA payload)
  failIf (expected ≠ node) (.invalid "v2 WAL leaf commitment disagrees with payload bytes")
  return (fieldA, stop)

/-- A new branch names earlier nodes, and is made from its children when both are new. -/
def validateBranch (nodeId : Nat) (node : V2NodeRecord) (fieldA fieldB : Nat) :
    Except V2WalError Unit := do
  failIf (fieldA ≥ nodeId ∨ fieldB ≥ nodeId)
    (.invalid "v2 WAL branch child is not topologically prior")
  match localNode base transaction fieldA, localNode base transaction fieldB with
  | some left, some right =>
    let leftRoot ← mapErr .format (V2RootRecord.fromNode fieldA left)
    let rightRoot ← mapErr .format (V2RootRecord.fromNode fieldB right)
    let expected ← mapErr .format (V2NodeRecord.branch sha256 leftRoot rightRoot)
    failIf (expected ≠ node)
      (.invalid "v2 WAL local branch metadata or commitment is inconsistent")
  | _, _ => return ()

/-- One round of `validate_nodes`: the ranges of the leaves so far and the node at `index`. -/
def validateNode (leafRanges : List (Nat × Nat)) (entry : V2NodeRecord × Nat) :
    Except V2WalError (List (Nat × Nat)) := do
  let node := entry.1
  let nodeId ← okOr (checkedAdd 64 base.nodeCount entry.2)
    (.overflow "v2 WAL node identifier exceeds u64")
  let encoded := encodeV2Node node
  failIf (encoded.length ≠ v2WalNodeRecordSize)
    (.invalid "v2 WAL T2N2 record width disagrees with schema")
  let decoded ← mapErr .format (decodeV2Node encoded)
  failIf (decoded ≠ node) (.invalid "v2 WAL node does not round-trip canonically")
  let fieldA ← okOr (readLe 8 encoded 16) (.invalid "v2 WAL node field A is truncated")
  let fieldB ← okOr (readLe 8 encoded 24) (.invalid "v2 WAL node field B is truncated")
  if node.height = 1 then do
    let range ← validateLeaf sha256 base next transaction node fieldA fieldB
    return leafRanges ++ [range]
  else do
    validateBranch sha256 base transaction nodeId node fieldA fieldB
    return leafRanges

/-- One range has to start where the ranges in front of it end. -/
def followRange (cursor : Nat) (range : Nat × Nat) : Except V2WalError Nat := do
  failIf (range.1 ≠ cursor) (.invalid "v2 WAL new leaves do not contiguously own the payload delta")
  return range.2

/-- `validate_nodes` -/
def validateNodes : Except V2WalError Unit := do
  let leafRanges ←
    transaction.nodes.zipIdx.foldlM (validateNode sha256 base next transaction) []
  let cursor ←
    (leafRanges.insertionSort fun r s => r.1 ≤ s.1).foldlM followRange base.payloadLen
  failIf (cursor ≠ next.payloadLen)
    (.invalid "v2 WAL payload delta contains bytes not owned by new leaves")

/-- A root over a new node is the root of that node. -/
def checkLocalRoot (root : V2RootRecord) : Option V2NodeRecord → Except V2WalError Unit
  | some node => do
    let expected ← mapErr .format (V2RootRecord.fromNode root.nodeId node)
    failIf (expected ≠ root) (.invalid "v2 WAL version root disagrees with its new node metadata")
  | none => .ok ()

/-- One round of `validate_versions`. -/
def validateVersion (entry : V2VersionRecord × Nat) : Except V2WalError Unit := do
  let version := entry.1
  let expectedId ← versionIdForLocal base.versionCount entry.2
  failIf (version.versionId ≠ expectedId)
    (.invalid "v2 WAL version identifiers are not sequential")
  let encoded ← mapErr .publication (encodeV2Version version)
  failIf (encoded.length ≠ v2WalVersionRecordSize)
    (.invalid "v2 WAL T2V2 record width disagrees with schema")
  let decoded ← mapErr .publication (decodeV2Version encoded expectedId)
  failIf (decoded ≠ version) (.invalid "v2 WAL version does not round-trip canonically")
  let root := version.root
  failIf (root.nodeId ≥ next.nodeCount)
    (.invalid "v2 WAL version root references an uncommitted node")
  checkLocalRoot root (localNode base transaction root.nodeId)

/-- `validate_versions` -/
def validateVersions : Except V2WalError Unit :=
  transaction.versions.zipIdx.forM (validateVersion base next transaction)

/-- The root of an optional version, none when it is not of this transaction. -/
def localOptionalRoot : Option Nat → Option (Option V2RootRecord)
  | some version => (localVersionRoot base transaction version).map some
  | none => some none

/-- A state over new versions only is recomputed from their roots. -/
def checkLocalState (state : V2StateMetadata) :
    Option V2RootRecord → Option (Option V2RootRecord) → Option (Option V2RootRecord) →
      Except V2WalError Unit
  | some identity, some messages, some result => do
    let expected ← mapErr .publication (checkpointStateMetadata sha256 identity messages result)
    failIf (expected ≠ state)
      (.invalid "v2 WAL checkpoint state commitment disagrees with local version roots")
  | _, _, _ => .ok ()

/-- `validate_checkpoint` -/
def validateCheckpoint : Except V2WalError Unit := do
  let checkpoint := transaction.checkpoint
  let encoded ← mapErr .publication (encodeV2Checkpoint checkpoint)
  let decoded ← mapErr .publication (decodeV2Checkpoint encoded next.versionCount)
  failIf (decoded ≠ checkpoint) (.invalid "v2 WAL checkpoint does not round-trip canonically")
  checkLocalState sha256 checkpoint.state
    (localVersionRoot base transaction checkpoint.identityVersion)
    (localOptionalRoot base transaction checkpoint.messagesVersion)
    (localOptionalRoot base transaction checkpoint.resultVersion)

/-- `validate_transaction` -/
def validateTransaction : Except V2WalError V2WalGeometry := do
  validateBaseGeometry base
  let payloadLen ← okOr (tryFrom 64 transaction.payload.length)
    (.overflow "v2 WAL payload delta length exceeds u64")
  let nodeCount ← okOr (tryFrom 64 transaction.nodes.length)
    (.overflow "v2 WAL node delta count exceeds u64")
  let versionCount ← okOr (tryFrom 64 transaction.versions.length)
    (.overflow "v2 WAL version delta count exceeds u64")
  let next ← nextGeometryFromCounts base payloadLen nodeCount versionCount
  validateNodes sha256 base next transaction
  validateVersions base next transaction
  validateCheckpoint sha256 base next transaction
  return next

end Validate

/-! ## Bytes -/

def checkedTotalLen (payloadLen nodeCount versionCount checkpointLen : Nat) :
    Except V2WalError Nat := do
  let nodeBytes ← okOr (checkedMul 64 nodeCount v2WalNodeRecordSize)
    (.overflow "v2 WAL node table length exceeds usize")
  let versionBytes ← okOr (checkedMul 64 versionCount v2WalVersionRecordSize)
    (.overflow "v2 WAL version table length exceeds usize")
  let overflow := .overflow "v2 WAL transaction length exceeds usize"
  let withPayload ← okOr (checkedAdd 64 v2WalHeaderSize payloadLen) overflow
  let withNodes ← okOr (checkedAdd 64 withPayload nodeBytes) overflow
  let withVersions ← okOr (checkedAdd 64 withNodes versionBytes) overflow
  okOr (checkedAdd 64 withVersions checkpointLen) overflow

/-- The header without its digest. -/
def walHeaderPrefix (base : V2WalGeometry)
    (totalLen payloadLen nodeCount versionCount checkpointLen : Nat) : Bytes :=
  v2WalMagic ++ leBytes 4 totalLen ++ leBytes 4 v2WalSchema ++ leBytes 4 0 ++
    leBytes 8 base.payloadLen ++ leBytes 8 payloadLen ++ leBytes 8 base.nodeCount ++
    leBytes 8 nodeCount ++ leBytes 8 base.versionCount ++ leBytes 8 versionCount ++
    leBytes 8 base.checkpointCount ++ leBytes 4 checkpointLen ++ leBytes 4 v2WalNodeRecordSize ++
    leBytes 4 v2WalVersionRecordSize ++ leBytes 4 0

section Codec

variable (sha256 : Bytes → Digest)

def transactionDigest (headerPrefix body : Bytes) : Digest :=
  sha256 (v2WalDomain ++ headerPrefix ++ body)

def encodeV2WalTransaction (base : V2WalGeometry) (transaction : V2WalTransaction) :
    Except V2WalError Bytes := do
  let nextGeometry ← validateTransaction sha256 base transaction
  let checkpoint ← mapErr .publication (encodeV2Checkpoint transaction.checkpoint)
  let payloadLen ← okOr (tryFrom 64 transaction.payload.length)
    (.overflow "v2 WAL payload delta length exceeds u64")
  let nodeCount ← okOr (tryFrom 64 transaction.nodes.length)
    (.overflow "v2 WAL node delta count exceeds u64")
  let versionCount ← okOr (tryFrom 64 transaction.versions.length)
    (.overflow "v2 WAL version delta count exceeds u64")
  let checkpointLen ← okOr (tryFrom 32 checkpoint.length)
    (.overflow "v2 WAL checkpoint record length exceeds u32")
  let totalLen ← checkedTotalLen transaction.payload.length transaction.nodes.length
    transaction.versions.length checkpoint.length
  let totalLen ← okOr (tryFrom 32 totalLen) (.overflow "v2 WAL transaction length exceeds u32")
  let versions ← mapErr .publication (transaction.versions.mapM encodeV2Version)
  let headerPrefix := walHeaderPrefix base totalLen payloadLen nodeCount versionCount checkpointLen
  let body := transaction.payload ++ (transaction.nodes.map encodeV2Node).flatten ++
    versions.flatten ++ checkpoint
  failIf (v2WalHeaderSize + body.length ≠ totalLen)
    (.invalid "v2 WAL encoder produced an unexpected byte length")
  let overflow message : V2WalError := .overflow message
  let nextPayloadLen ← okOr (checkedAdd 64 base.payloadLen payloadLen)
    (overflow "v2 WAL payload watermark exceeds u64")
  let nextNodeCount ← okOr (checkedAdd 64 base.nodeCount nodeCount)
    (overflow "v2 WAL node watermark exceeds u64")
  let nextVersionCount ← okOr (checkedAdd 64 base.versionCount versionCount)
    (overflow "v2 WAL version watermark exceeds u64")
  let nextCheckpointCount ← okOr (checkedAdd 64 base.checkpointCount 1)
    (overflow "v2 WAL checkpoint watermark exceeds u64")
  failIf (⟨nextPayloadLen, nextNodeCount, nextVersionCount, nextCheckpointCount⟩ ≠ nextGeometry)
    (.invalid "v2 WAL validated geometry changed during encoding")
  return headerPrefix ++ (transactionDigest sha256 headerPrefix body).toList ++ body

/-- The reader of the node records. -/
def walNodeDecoder (_ : Nat) : Except V2WalError (Bytes → Except V2WalError V2NodeRecord) :=
  .ok fun part => mapErr .format (decodeV2Node part)

/-- The reader of the version record with the given index in the transaction. -/
def walVersionDecoder (baseVersionCount index : Nat) :
    Except V2WalError (Bytes → Except V2WalError V2VersionRecord) := do
  let versionId ← versionIdForLocal baseVersionCount index
  return fun part => mapErr .publication (decodeV2Version part versionId)

/-- The header fields the decoder goes on with. -/
structure V2WalHeader where
  payloadLen : Nat
  nodeCount : Nat
  versionCount : Nat
  checkpointLen : Nat
  digest : Digest
deriving DecidableEq, Repr

/-- The checks of `decode_v2_wal_transaction` on the header and its digest. -/
def decodeWalHeader (bytes : Bytes) (base : V2WalGeometry) : Except V2WalError V2WalHeader := do
  failIf (bytes.length < v2WalHeaderSize) (.invalid "v2 WAL header is truncated")
  failIf (slice bytes 0 4 ≠ some v2WalMagic) (.invalid "v2 WAL magic mismatch")
  let totalLen ← okOr (readLe 4 bytes 4) (.invalid "v2 WAL length is truncated")
  failIf (totalLen ≠ bytes.length) (.invalid "v2 WAL transaction length mismatch")
  let schema ← okOr (readLe 4 bytes 8) (.invalid "v2 WAL schema is truncated")
  failIf (schema ≠ v2WalSchema) (.invalid "v2 WAL schema is unsupported")
  let flags ← okOr (readLe 4 bytes 12) (.invalid "v2 WAL flags are truncated")
  failIf (flags ≠ 0) (.invalid "v2 WAL flags must be zero")
  let payloadStart ← okOr (readLe 8 bytes 16) (.invalid "v2 WAL payload start is truncated")
  let payloadLen ← okOr (readLe 8 bytes 24) (.invalid "v2 WAL payload length is truncated")
  let nodeStart ← okOr (readLe 8 bytes 32) (.invalid "v2 WAL node start is truncated")
  let nodeCount ← okOr (readLe 8 bytes 40) (.invalid "v2 WAL node count is truncated")
  let versionStart ← okOr (readLe 8 bytes 48) (.invalid "v2 WAL version start is truncated")
  let versionCount ← okOr (readLe 8 bytes 56) (.invalid "v2 WAL version count is truncated")
  let checkpointStart ← okOr (readLe 8 bytes 64) (.invalid "v2 WAL checkpoint start is truncated")
  let checkpointLen ← okOr (readLe 4 bytes 72)
    (.invalid "v2 WAL checkpoint record length is truncated")
  let nodeWidth ← okOr (readLe 4 bytes 76) (.invalid "v2 WAL node record width is truncated")
  failIf (nodeWidth ≠ v2WalNodeRecordSize) (.invalid "v2 WAL node record width is unsupported")
  let versionWidth ← okOr (readLe 4 bytes 80) (.invalid "v2 WAL version record width is truncated")
  failIf (versionWidth ≠ v2WalVersionRecordSize)
    (.invalid "v2 WAL version record width is unsupported")
  let reserved ← okOr (readLe 4 bytes 84) (.invalid "v2 WAL reserved field is truncated")
  failIf (reserved ≠ 0) (.invalid "v2 WAL reserved field must be zero")
  failIf (payloadStart ≠ base.payloadLen ∨ nodeStart ≠ base.nodeCount ∨
      versionStart ≠ base.versionCount ∨ checkpointStart ≠ base.checkpointCount)
    (.invalid "v2 WAL transaction starting watermark mismatch")
  let storedDigest ← okOr (readArray 32 bytes v2WalHeaderPrefixSize)
    (.invalid "v2 WAL digest is truncated")
  let expectedDigest := transactionDigest sha256 (bytes.take v2WalHeaderPrefixSize)
    (bytes.drop v2WalHeaderSize)
  failIf (storedDigest ≠ expectedDigest) (.invalid "v2 WAL digest mismatch")
  return ⟨payloadLen, nodeCount, versionCount, checkpointLen, storedDigest⟩

def decodeV2WalTransaction (bytes : Bytes) (base : V2WalGeometry) :
    Except V2WalError V2DecodedWalTransaction := do
  let header ← decodeWalHeader sha256 bytes base
  let expectedLen ← checkedTotalLen header.payloadLen header.nodeCount header.versionCount
    header.checkpointLen
  failIf (expectedLen ≠ bytes.length) (.invalid "v2 WAL section geometry mismatch")
  let headerNext ← nextGeometryFromCounts base header.payloadLen header.nodeCount header.versionCount
  let payloadEnd ← okOr (checkedAdd 64 v2WalHeaderSize header.payloadLen)
    (.overflow "v2 WAL payload range exceeds usize")
  let payload ← okOr (slice bytes v2WalHeaderSize payloadEnd)
    (.invalid "v2 WAL payload is truncated")
  let (nodes, nodesEnd) ← readRecords
    (fixedStep v2WalNodeRecordSize walNodeDecoder (.overflow "v2 WAL node range exceeds usize")
      (.invalid "v2 WAL node table is truncated") bytes) header.nodeCount 0 payloadEnd
  let (versions, versionsEnd) ← readRecords
    (fixedStep v2WalVersionRecordSize (walVersionDecoder base.versionCount)
      (.overflow "v2 WAL version range exceeds usize")
      (.invalid "v2 WAL version table is truncated") bytes) header.versionCount 0 nodesEnd
  let checkpointEnd ← okOr (checkedAdd 64 versionsEnd header.checkpointLen)
    (.overflow "v2 WAL checkpoint range exceeds usize")
  let checkpointPart ← okOr (slice bytes versionsEnd checkpointEnd)
    (.invalid "v2 WAL checkpoint record is truncated")
  let checkpoint ← mapErr .publication (decodeV2Checkpoint checkpointPart headerNext.versionCount)
  failIf (checkpointEnd ≠ bytes.length) (.invalid "v2 WAL decoder did not consume all bytes")
  let transaction : V2WalTransaction := ⟨payload, nodes, versions, checkpoint⟩
  let nextGeometry ← validateTransaction sha256 base transaction
  failIf (nextGeometry ≠ headerNext)
    (.invalid "v2 WAL header geometry disagrees with decoded sections")
  return ⟨transaction, nextGeometry, header.digest⟩

end Codec

end TulyaStore.V2
