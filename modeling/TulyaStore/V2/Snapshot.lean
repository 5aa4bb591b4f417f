import Mathlib.Data.Prod.Lex
import Mathlib.Data.String.Basic
import TulyaStore.Lib.Frames
import TulyaStore.Lib.KeyMap
import TulyaStore.V2.Commit
import TulyaStore.V2.Image

/-!
# Sealed snapshots

A `T2S2` snapshot (`snapshot_v2.rs`) is the image of the sequence arena together with versions,
checkpoints, the ledgers of active and retired requests and the deleted checkpoints. The encoder
sorts the ledgers, the decoder demands that they are sorted, and both validate the snapshot as a
whole.
-/

namespace TulyaStore.V2

open Lib Sequence
open Checkpoint (utf8 fromUtf8)

def v2SnapshotMagic : Bytes := ascii "T2S2"

def v2SnapshotSchema : Nat := 2

/-- `V2_SNAPSHOT_HEADER_SIZE` -/
def v2SnapshotHeaderSize : Nat := 96

/-- `V2_SNAPSHOT_PREFIX_SIZE`, the header without its digest. -/
def v2SnapshotPrefixSize : Nat := 64

def v2SnapshotDomain : Bytes := ascii "tulya-checkpoint-v2/sealed-snapshot\x00"

def v2ActiveRequestMagic : Bytes := ascii "T2A2"

def v2ActiveRequestPrefixSize : Nat := 56

def v2RetiredRequestMagic : Bytes := ascii "T2D2"

def v2RetiredRequestPrefixSize : Nat := 48

def v2DeletedCheckpointMagic : Bytes := ascii "T2X2"

def v2DeletedCheckpointPrefixSize : Nat := 16

def v2MaxFixedRecordSize : Nat := 4096

def v2MinCheckpointRecordSize : Nat := 88

/-- The identity of a checkpoint: its thread and its own identifier, in the order of the ledgers. -/
abbrev V2CheckpointKey := String ×ₗ String

def checkpointKey (threadId checkpointId : String) : V2CheckpointKey := toLex (threadId, checkpointId)

def V2CheckpointRecord.key (checkpoint : V2CheckpointRecord) : V2CheckpointKey :=
  checkpointKey checkpoint.threadId checkpoint.checkpointId

/-- `diverged` stands for a loop that does not end, which no input reaches. -/
inductive V2SnapshotError where
  | avl (error : V2ImportError)
  | commit (error : V2CommitError)
  | publication (error : V2PublicationError)
  | invalid (message : String)
  | overflow (message : String)
  | diverged
deriving DecidableEq, Repr

structure V2ActiveRequestRecord where
  requestId : Bytes
  operationDigest : Digest
  checkpointOrdinal : Nat
deriving DecidableEq, Repr

structure V2RetiredRequestRecord where
  requestId : Bytes
  operationDigest : Digest
deriving DecidableEq, Repr

structure V2DeletedCheckpointRecord where
  threadId : String
  checkpointId : String
deriving DecidableEq, Repr

def V2DeletedCheckpointRecord.key (record : V2DeletedCheckpointRecord) : V2CheckpointKey :=
  checkpointKey record.threadId record.checkpointId

structure V2SealedSnapshot where
  image : Bytes
  versions : List V2VersionRecord
  checkpoints : List V2CheckpointRecord
  activeRequests : List V2ActiveRequestRecord
  retiredRequests : List V2RetiredRequestRecord
  deletedCheckpoints : List V2DeletedCheckpointRecord
deriving DecidableEq, Repr

structure V2SnapshotHeader where
  totalLen : Nat
  imageLen : Nat
  versionCount : Nat
  checkpointCount : Nat
  activeRequestCount : Nat
  retiredRequestCount : Nat
  versionRecordSize : Nat
deriving DecidableEq, Repr

/-! ## Ledger records -/

/-- `validate_request_id` of a snapshot. -/
def validateLedgerRequestId (requestId : Bytes) : Except V2SnapshotError Unit :=
  failIf (requestId = [] ∨ requestId.length > v2MaxRequestIdBytes)
    (.invalid "v2 snapshot request identity is outside bounds")

/-- `validate_identifier` of a snapshot. -/
def validateLedgerIdentifier (value message : String) : Except V2SnapshotError Unit :=
  failIf (utf8 value = [] ∨ (utf8 value).length > v2MaxIdentifierBytes) (.invalid message)

/-- `V2ActiveRequestRecord::new` -/
def V2ActiveRequestRecord.new (requestId : Bytes) (operationDigest : Digest)
    (checkpointOrdinal : Nat) : Except V2SnapshotError V2ActiveRequestRecord := do
  validateLedgerRequestId requestId
  return ⟨requestId, operationDigest, checkpointOrdinal⟩

/-- `V2RetiredRequestRecord::new` -/
def V2RetiredRequestRecord.new (requestId : Bytes) (operationDigest : Digest) :
    Except V2SnapshotError V2RetiredRequestRecord := do
  validateLedgerRequestId requestId
  return ⟨requestId, operationDigest⟩

/-- `V2DeletedCheckpointRecord::new` -/
def V2DeletedCheckpointRecord.new (threadId checkpointId : String) :
    Except V2SnapshotError V2DeletedCheckpointRecord := do
  validateLedgerIdentifier threadId "v2 deleted checkpoint thread id is invalid"
  validateLedgerIdentifier checkpointId "v2 deleted checkpoint checkpoint id is invalid"
  return ⟨threadId, checkpointId⟩

def encodeActiveRequest (record : V2ActiveRequestRecord) : Except V2SnapshotError Bytes := do
  validateLedgerRequestId record.requestId
  let recordLen ← okOr (checkedAdd 64 v2ActiveRequestPrefixSize record.requestId.length)
    (.overflow "v2 active request length exceeds usize")
  let recordLen ← okOr (tryFrom 32 recordLen) (.overflow "v2 active request length exceeds u32")
  let requestLen ← okOr (tryFrom 32 record.requestId.length)
    (.overflow "v2 active request id length exceeds u32")
  return v2ActiveRequestMagic ++ leBytes 4 recordLen ++ leBytes 8 record.checkpointOrdinal ++
    leBytes 4 requestLen ++ leBytes 4 0 ++ record.operationDigest.toList ++ record.requestId

def decodeActiveRequest (bytes : Bytes) : Except V2SnapshotError V2ActiveRequestRecord := do
  failIf (bytes.length < v2ActiveRequestPrefixSize)
    (.invalid "v2 active request record is shorter than its prefix")
  failIf (slice bytes 0 4 ≠ some v2ActiveRequestMagic) (.invalid "v2 active request magic mismatch")
  let recordLen ← okOr (readLe 4 bytes 4) (.invalid "v2 active request length is truncated")
  failIf (recordLen ≠ bytes.length) (.invalid "v2 active request length mismatch")
  let checkpointOrdinal ← okOr (readLe 8 bytes 8)
    (.invalid "v2 active request ordinal is truncated")
  let requestLen ← okOr (readLe 4 bytes 16) (.invalid "v2 active request id length is truncated")
  let flags ← okOr (readLe 4 bytes 20) (.invalid "v2 active request flags are truncated")
  failIf (flags ≠ 0) (.invalid "v2 active request flags must be zero")
  let operationDigest ← okOr (readArray 32 bytes 24) (.invalid "v2 active request digest is truncated")
  let expectedLen ← okOr (checkedAdd 64 v2ActiveRequestPrefixSize requestLen)
    (.overflow "v2 active request end exceeds usize")
  failIf (expectedLen ≠ bytes.length) (.invalid "v2 active request id geometry mismatch")
  V2ActiveRequestRecord.new (bytes.drop v2ActiveRequestPrefixSize) operationDigest checkpointOrdinal

def encodeRetiredRequest (record : V2RetiredRequestRecord) : Except V2SnapshotError Bytes := do
  validateLedgerRequestId record.requestId
  let recordLen ← okOr (checkedAdd 64 v2RetiredRequestPrefixSize record.requestId.length)
    (.overflow "v2 retired request length exceeds usize")
  let recordLen ← okOr (tryFrom 32 recordLen) (.overflow "v2 retired request length exceeds u32")
  let requestLen ← okOr (tryFrom 32 record.requestId.length)
    (.overflow "v2 retired request id length exceeds u32")
  return v2RetiredRequestMagic ++ leBytes 4 recordLen ++ leBytes 4 requestLen ++ leBytes 4 0 ++
    record.operationDigest.toList ++ record.requestId

def decodeRetiredRequest (bytes : Bytes) : Except V2SnapshotError V2RetiredRequestRecord := do
  failIf (bytes.length < v2RetiredRequestPrefixSize)
    (.invalid "v2 retired request record is shorter than its prefix")
  failIf (slice bytes 0 4 ≠ some v2RetiredRequestMagic)
    (.invalid "v2 retired request magic mismatch")
  let recordLen ← okOr (readLe 4 bytes 4) (.invalid "v2 retired request length is truncated")
  failIf (recordLen ≠ bytes.length) (.invalid "v2 retired request length mismatch")
  let requestLen ← okOr (readLe 4 bytes 8) (.invalid "v2 retired request id length is truncated")
  let flags ← okOr (readLe 4 bytes 12) (.invalid "v2 retired request flags are truncated")
  failIf (flags ≠ 0) (.invalid "v2 retired request flags must be zero")
  let operationDigest ← okOr (readArray 32 bytes 16)
    (.invalid "v2 retired request digest is truncated")
  let expectedLen ← okOr (checkedAdd 64 v2RetiredRequestPrefixSize requestLen)
    (.overflow "v2 retired request end exceeds usize")
  failIf (expectedLen ≠ bytes.length) (.invalid "v2 retired request id geometry mismatch")
  V2RetiredRequestRecord.new (bytes.drop v2RetiredRequestPrefixSize) operationDigest

def encodeDeletedCheckpoint (record : V2DeletedCheckpointRecord) : Except V2SnapshotError Bytes := do
  validateLedgerIdentifier record.threadId "v2 deleted checkpoint thread id is invalid"
  validateLedgerIdentifier record.checkpointId "v2 deleted checkpoint checkpoint id is invalid"
  let overflow := .overflow "v2 deleted checkpoint record length exceeds usize"
  let withThread ← okOr (checkedAdd 64 v2DeletedCheckpointPrefixSize (utf8 record.threadId).length)
    overflow
  let recordLen ← okOr (checkedAdd 64 withThread (utf8 record.checkpointId).length) overflow
  let recordLen ← okOr (tryFrom 32 recordLen) (.overflow "v2 deleted checkpoint length exceeds u32")
  let threadLen ← okOr (tryFrom 32 (utf8 record.threadId).length)
    (.overflow "v2 deleted checkpoint thread length exceeds u32")
  let checkpointLen ← okOr (tryFrom 32 (utf8 record.checkpointId).length)
    (.overflow "v2 deleted checkpoint checkpoint length exceeds u32")
  return v2DeletedCheckpointMagic ++ leBytes 4 recordLen ++ leBytes 4 threadLen ++
    leBytes 4 checkpointLen ++ utf8 record.threadId ++ utf8 record.checkpointId

def decodeDeletedCheckpoint (bytes : Bytes) : Except V2SnapshotError V2DeletedCheckpointRecord := do
  failIf (bytes.length < v2DeletedCheckpointPrefixSize)
    (.invalid "v2 deleted checkpoint record is shorter than its prefix")
  failIf (slice bytes 0 4 ≠ some v2DeletedCheckpointMagic)
    (.invalid "v2 deleted checkpoint magic mismatch")
  let recordLen ← okOr (readLe 4 bytes 4) (.invalid "v2 deleted checkpoint length is truncated")
  failIf (recordLen ≠ bytes.length) (.invalid "v2 deleted checkpoint record length mismatch")
  let threadLen ← okOr (readLe 4 bytes 8)
    (.invalid "v2 deleted checkpoint thread length is truncated")
  let checkpointLen ← okOr (readLe 4 bytes 12)
    (.invalid "v2 deleted checkpoint checkpoint length is truncated")
  failIf (threadLen = 0 ∨ threadLen > v2MaxIdentifierBytes)
    (.invalid "v2 deleted checkpoint thread id is invalid")
  failIf (checkpointLen = 0 ∨ checkpointLen > v2MaxIdentifierBytes)
    (.invalid "v2 deleted checkpoint checkpoint id is invalid")
  let threadEnd ← okOr (checkedAdd 64 v2DeletedCheckpointPrefixSize threadLen)
    (.overflow "v2 deleted checkpoint thread end exceeds usize")
  let checkpointEnd ← okOr (checkedAdd 64 threadEnd checkpointLen)
    (.overflow "v2 deleted checkpoint checkpoint end exceeds usize")
  failIf (checkpointEnd ≠ bytes.length)
    (.invalid "v2 deleted checkpoint identifier geometry mismatch")
  let threadBytes ← okOr (slice bytes v2DeletedCheckpointPrefixSize threadEnd)
    (.invalid "v2 deleted checkpoint thread bytes are truncated")
  let threadId ← okOr (fromUtf8 threadBytes)
    (.invalid "v2 deleted checkpoint thread id is not UTF-8")
  let checkpointBytes ← okOr (slice bytes threadEnd checkpointEnd)
    (.invalid "v2 deleted checkpoint checkpoint bytes are truncated")
  let checkpointId ← okOr (fromUtf8 checkpointBytes)
    (.invalid "v2 deleted checkpoint checkpoint id is not UTF-8")
  V2DeletedCheckpointRecord.new threadId checkpointId

/-! ## Validation -/

section Validate

variable (sha256 : Bytes → Digest)

/-- `resolve_version_root` -/
def resolveVersionRoot (versions : List V2VersionRecord) (version : Nat) :
    Except V2SnapshotError V2RootRecord :=
  okOr ((versions[version]?).map V2VersionRecord.root)
    (.invalid "v2 snapshot checkpoint version is outside the version table")

def resolveOptionalRoot (versions : List V2VersionRecord) :
    Option Nat → Except V2SnapshotError (Option V2RootRecord)
  | some version => do
    let root ← resolveVersionRoot versions version
    return some root
  | none => .ok none

/-- A version of a snapshot has its position as identifier and the root of the image. -/
def validateSnapshotVersion (entry : (V2RootRecord × V2VersionRecord) × Nat) :
    Except V2SnapshotError Unit := do
  let expectedId ← okOr (tryFrom 32 entry.2) (.overflow "v2 snapshot version id exceeds u32")
  failIf (entry.1.2.versionId ≠ expectedId)
    (.invalid "v2 snapshot version identifiers are not sequential")
  let _ ← mapErr .publication (encodeV2Version entry.1.2)
  failIf (entry.1.1 ≠ entry.1.2.root)
    (.invalid "v2 snapshot image root disagrees with version root")

/-- The sequence state of a snapshot: none without checkpoints, else the image of its versions. -/
def validateSnapshotSequence (snapshot : V2SealedSnapshot) : Except V2SnapshotError Unit :=
  if snapshot.checkpoints = [] then do
    failIf (snapshot.image ≠ [] ∨ snapshot.versions ≠ [])
      (.invalid "v2 tombstone-only snapshot contains live sequence state")
    failIf (snapshot.activeRequests ≠ [])
      (.invalid "v2 tombstone-only snapshot contains active requests")
    failIf (snapshot.retiredRequests = [] ∧ snapshot.deletedCheckpoints = [])
      (.invalid "v2 empty semantic state has no snapshot artifact")
  else do
    failIf (snapshot.image = [] ∨ snapshot.versions = [])
      (.invalid "v2 live snapshot requires sequence image and versions")
    let (_, imageRoots) ← mapErr .avl (importImage sha256 snapshot.image)
    failIf (imageRoots.length ≠ snapshot.versions.length)
      (.invalid "v2 snapshot image roots do not match version count")
    (imageRoots.zip snapshot.versions).zipIdx.forM validateSnapshotVersion

/-- One round of the checkpoint loop of `validate_snapshot`, over the checkpoints seen before. -/
def validateSnapshotCheckpoint (versions : List V2VersionRecord)
    (checkpointOrdinals : KeyMap V2CheckpointKey Nat) (entry : V2CheckpointRecord × Nat) :
    Except V2SnapshotError (KeyMap V2CheckpointKey Nat) := do
  let checkpoint := entry.1
  let _ ← mapErr .publication (encodeV2Checkpoint checkpoint)
  let identity ← resolveVersionRoot versions checkpoint.identityVersion
  let messages ← resolveOptionalRoot versions checkpoint.messagesVersion
  let result ← resolveOptionalRoot versions checkpoint.resultVersion
  let expectedState ← mapErr .publication (checkpointStateMetadata sha256 identity messages result)
  failIf (expectedState ≠ checkpoint.state)
    (.invalid "v2 snapshot checkpoint state disagrees with version roots")
  failIf (∃ parent ∈ checkpoint.parentCheckpointId,
      checkpointOrdinals.containsKey (checkpointKey checkpoint.threadId parent) = false)
    (.invalid "v2 snapshot checkpoint parent is not topologically prior in the same thread")
  let ordinal ← okOr (tryFrom 64 entry.2) (.overflow "v2 snapshot checkpoint ordinal exceeds u64")
  failIf (checkpointOrdinals.containsKey checkpoint.key = true)
    (.invalid "v2 snapshot contains a duplicate checkpoint identity")
  return checkpointOrdinals.insert checkpoint.key ordinal

/-- One round of the loop over deleted checkpoints. -/
def validateSnapshotDeleted (checkpointOrdinals : KeyMap V2CheckpointKey Nat)
    (deletedIds : KeyMap V2CheckpointKey Unit) (record : V2DeletedCheckpointRecord) :
    Except V2SnapshotError (KeyMap V2CheckpointKey Unit) := do
  validateLedgerIdentifier record.threadId "v2 deleted checkpoint thread id is invalid"
  validateLedgerIdentifier record.checkpointId "v2 deleted checkpoint checkpoint id is invalid"
  failIf (checkpointOrdinals.containsKey record.key = true)
    (.invalid "v2 checkpoint identity is both live and deleted")
  failIf (deletedIds.containsKey record.key = true)
    (.invalid "v2 snapshot contains a duplicate deleted checkpoint identity")
  return deletedIds.insert record.key ()

/-- One round of the loop over active requests. -/
def validateSnapshotActive (checkpoints : List V2CheckpointRecord) (activeIds : KeyMap Bytes Unit)
    (record : V2ActiveRequestRecord) : Except V2SnapshotError (KeyMap Bytes Unit) := do
  validateLedgerRequestId record.requestId
  let checkpoint ← okOr checkpoints[record.checkpointOrdinal]?
    (.invalid "v2 active request checkpoint ordinal is outside the snapshot")
  let digest ← mapErr .commit (checkpointOperationDigest sha256 checkpoint)
  failIf (digest ≠ record.operationDigest)
    (.invalid "v2 active request digest disagrees with its checkpoint")
  failIf (activeIds.containsKey record.requestId = true)
    (.invalid "v2 snapshot contains a duplicate active request identity")
  return activeIds.insert record.requestId ()

/-- One round of the loop over retired requests. -/
def validateSnapshotRetired (activeIds retiredIds : KeyMap Bytes Unit)
    (record : V2RetiredRequestRecord) : Except V2SnapshotError (KeyMap Bytes Unit) := do
  validateLedgerRequestId record.requestId
  failIf (activeIds.containsKey record.requestId = true)
    (.invalid "v2 request identity is both active and retired")
  failIf (retiredIds.containsKey record.requestId = true)
    (.invalid "v2 snapshot contains a duplicate retired request identity")
  return retiredIds.insert record.requestId ()

/-- `validate_snapshot` -/
def validateSnapshot (snapshot : V2SealedSnapshot) : Except V2SnapshotError Unit := do
  validateSnapshotSequence sha256 snapshot
  let checkpointOrdinals ← snapshot.checkpoints.zipIdx.foldlM
    (validateSnapshotCheckpoint sha256 snapshot.versions) .empty
  let _ ← snapshot.deletedCheckpoints.foldlM (validateSnapshotDeleted checkpointOrdinals) .empty
  let activeIds ← snapshot.activeRequests.foldlM
    (validateSnapshotActive sha256 snapshot.checkpoints) .empty
  let _ ← snapshot.retiredRequests.foldlM (validateSnapshotRetired activeIds) .empty
  return ()

end Validate

/-! ## Bytes -/

def snapshotHeaderPrefix (header : V2SnapshotHeader) : Bytes :=
  v2SnapshotMagic ++ leBytes 4 v2SnapshotSchema ++ leBytes 8 header.totalLen ++
    leBytes 8 header.imageLen ++ leBytes 8 header.versionCount ++ leBytes 8 header.checkpointCount ++
    leBytes 8 header.activeRequestCount ++ leBytes 8 header.retiredRequestCount ++
    leBytes 4 header.versionRecordSize ++ leBytes 4 0

def validateFixedRecordSize (width : Nat) : Except V2SnapshotError Unit :=
  failIf (width = 0 ∨ width > v2MaxFixedRecordSize)
    (.invalid "v2 snapshot version record width is outside bounds")

/-- The width written for the version table. -/
def versionTableWidth : List Bytes → Except V2SnapshotError Nat
  | record :: _ => do
    let width ← okOr (tryFrom 32 record.length)
      (.overflow "v2 snapshot version record width exceeds u32")
    validateFixedRecordSize width
    return width
  | [] => .ok 0

def addLength (total : Nat) (record : Bytes) : Except V2SnapshotError Nat :=
  okOr (checkedAdd 64 total record.length) (.overflow "v2 snapshot section length exceeds usize")

def sumLengths (records : List Bytes) : Except V2SnapshotError Nat := records.foldlM addLength 0

def sortedActive (records : List V2ActiveRequestRecord) : List V2ActiveRequestRecord :=
  records.insertionSort fun left right => left.requestId ≤ right.requestId

def sortedRetired (records : List V2RetiredRequestRecord) : List V2RetiredRequestRecord :=
  records.insertionSort fun left right => left.requestId ≤ right.requestId

def sortedDeleted (records : List V2DeletedCheckpointRecord) : List V2DeletedCheckpointRecord :=
  records.insertionSort fun left right => left.key ≤ right.key

section Codec

variable (sha256 : Bytes → Digest)

def snapshotDigest (headerPrefix body : Bytes) : Digest :=
  sha256 (v2SnapshotDomain ++ headerPrefix ++ body)

/-- The length of the sections behind the header. -/
def snapshotBodyLen (imageLen versionBytes checkpointBytes activeBytes retiredBytes
    deletedBytes : Nat) : Except V2SnapshotError Nat := do
  let overflow := .overflow "v2 sealed snapshot body length exceeds usize"
  let withVersions ← okOr (checkedAdd 64 imageLen versionBytes) overflow
  let withCheckpoints ← okOr (checkedAdd 64 withVersions checkpointBytes) overflow
  let withActive ← okOr (checkedAdd 64 withCheckpoints activeBytes) overflow
  let withRetired ← okOr (checkedAdd 64 withActive retiredBytes) overflow
  okOr (checkedAdd 64 withRetired deletedBytes) overflow

def encodeV2SealedSnapshot (snapshot : V2SealedSnapshot) : Except V2SnapshotError Bytes := do
  validateSnapshot sha256 snapshot
  let versionRecords ← mapErr .publication (snapshot.versions.mapM encodeV2Version)
  let versionRecordSize ← versionTableWidth versionRecords
  let checkpointRecords ← mapErr .publication (snapshot.checkpoints.mapM encodeV2Checkpoint)
  let activeRecords ← (sortedActive snapshot.activeRequests).mapM encodeActiveRequest
  let retiredRecords ← (sortedRetired snapshot.retiredRequests).mapM encodeRetiredRequest
  let deletedRecords ← (sortedDeleted snapshot.deletedCheckpoints).mapM encodeDeletedCheckpoint
  let versionBytes ← sumLengths versionRecords
  let checkpointBytes ← sumLengths checkpointRecords
  let activeBytes ← sumLengths activeRecords
  let retiredBytes ← sumLengths retiredRecords
  let deletedBytes ← sumLengths deletedRecords
  let bodyLen ← snapshotBodyLen snapshot.image.length versionBytes checkpointBytes activeBytes
    retiredBytes deletedBytes
  let totalLen ← okOr (checkedAdd 64 v2SnapshotHeaderSize bodyLen)
    (.overflow "v2 sealed snapshot length exceeds usize")
  let imageLen ← okOr (tryFrom 64 snapshot.image.length)
    (.overflow "v2 snapshot image length exceeds u64")
  let versionCount ← okOr (tryFrom 64 snapshot.versions.length)
    (.overflow "v2 snapshot version count exceeds u64")
  let checkpointCount ← okOr (tryFrom 64 snapshot.checkpoints.length)
    (.overflow "v2 snapshot checkpoint count exceeds u64")
  let activeRequestCount ← okOr (tryFrom 64 snapshot.activeRequests.length)
    (.overflow "v2 snapshot active request count exceeds u64")
  let retiredRequestCount ← okOr (tryFrom 64 snapshot.retiredRequests.length)
    (.overflow "v2 snapshot retired request count exceeds u64")
  let headerPrefix := snapshotHeaderPrefix ⟨totalLen, imageLen, versionCount, checkpointCount,
    activeRequestCount, retiredRequestCount, versionRecordSize⟩
  let body := snapshot.image ++ versionRecords.flatten ++ checkpointRecords.flatten ++
    activeRecords.flatten ++ retiredRecords.flatten ++ deletedRecords.flatten
  failIf (v2SnapshotHeaderSize + body.length ≠ totalLen)
    (.invalid "v2 sealed snapshot encoder produced an unexpected length")
  return headerPrefix ++ (snapshotDigest sha256 headerPrefix body).toList ++ body

/-- `decode_header` of a snapshot. -/
def decodeSnapshotHeader (bytes : Bytes) : Except V2SnapshotError V2SnapshotHeader := do
  failIf (bytes.length < v2SnapshotHeaderSize) (.invalid "v2 snapshot header is truncated")
  failIf (slice bytes 0 4 ≠ some v2SnapshotMagic) (.invalid "v2 snapshot magic mismatch")
  let schema ← okOr (readLe 4 bytes 4) (.invalid "v2 snapshot schema is truncated")
  failIf (schema ≠ v2SnapshotSchema) (.invalid "v2 snapshot schema is unsupported")
  let flags ← okOr (readLe 4 bytes 60) (.invalid "v2 snapshot flags are truncated")
  failIf (flags ≠ 0) (.invalid "v2 snapshot flags must be zero")
  let totalLen ← okOr (readLe 8 bytes 8) (.invalid "v2 snapshot length is truncated")
  let imageLen ← okOr (readLe 8 bytes 16) (.invalid "v2 snapshot image length is truncated")
  let versionCount ← okOr (readLe 8 bytes 24) (.invalid "v2 snapshot version count is truncated")
  let checkpointCount ← okOr (readLe 8 bytes 32)
    (.invalid "v2 snapshot checkpoint count is truncated")
  let activeRequestCount ← okOr (readLe 8 bytes 40)
    (.invalid "v2 snapshot active request count is truncated")
  let retiredRequestCount ← okOr (readLe 8 bytes 48)
    (.invalid "v2 snapshot retired request count is truncated")
  let versionRecordSize ← okOr (readLe 4 bytes 56) (.invalid "v2 snapshot version width is truncated")
  return ⟨totalLen, imageLen, versionCount, checkpointCount, activeRequestCount,
    retiredRequestCount, versionRecordSize⟩

/-- The checks of `decode_v2_sealed_snapshot` on the length and the digest. -/
def checkSnapshotDigest (bytes : Bytes) (header : V2SnapshotHeader) :
    Except V2SnapshotError Unit := do
  failIf (header.totalLen ≠ bytes.length) (.invalid "v2 sealed snapshot byte length mismatch")
  let storedDigest ← okOr (readArray 32 bytes v2SnapshotPrefixSize)
    (.invalid "v2 snapshot digest is truncated")
  let expectedDigest := snapshotDigest sha256 (bytes.take v2SnapshotPrefixSize)
    (bytes.drop v2SnapshotHeaderSize)
  failIf (storedDigest ≠ expectedDigest) (.invalid "v2 sealed snapshot digest mismatch")

/-- The reader of the version record with the given index. -/
def snapshotVersionDecoder (index : Nat) :
    Except V2SnapshotError (Bytes → Except V2SnapshotError V2VersionRecord) := do
  let versionId ← okOr (tryFrom 32 index) (.overflow "v2 snapshot version id exceeds u32")
  return fun part => mapErr .publication (decodeV2Version part versionId)

/-- The version table from `cursor` on. -/
def decodeSnapshotVersions (bytes : Bytes) (header : V2SnapshotHeader) (cursor : Nat) :
    Except V2SnapshotError (List V2VersionRecord × Nat) :=
  if header.versionCount = 0 then do
    failIf (header.versionRecordSize ≠ 0)
      (.invalid "v2 snapshot empty version table has nonzero record width")
    return ([], cursor)
  else do
    validateFixedRecordSize header.versionRecordSize
    failIf (header.versionCount > (bytes.length - cursor) / header.versionRecordSize)
      (.invalid "v2 snapshot version count exceeds body capacity")
    readRecords (fixedStep header.versionRecordSize snapshotVersionDecoder
      (.overflow "v2 snapshot version end exceeds usize")
      (.invalid "v2 snapshot version is truncated") bytes) header.versionCount 0 cursor

/-- `bounded_count` -/
def boundedCount (count remaining minRecordSize : Nat) (message : String) :
    Except V2SnapshotError Nat := do
  failIf (minRecordSize = 0 ∨ count > remaining / minRecordSize) (.invalid message)
  return count

/-- `framed_record_len` -/
def framedRecordLen (bytes : Bytes) (message : String) (cursor : Nat) :
    Except V2SnapshotError Nat := do
  let field ← okOr (checkedAdd 64 cursor 4)
    (.overflow "v2 snapshot record length offset exceeds usize")
  let length ← okOr (readLe 4 bytes field) (.invalid message)
  failIf (length = 0) (.invalid "v2 snapshot record length is zero")
  return length

/-- `require_strict_request_order` -/
def requireStrictRequestOrder {α : Type} (requestId : α → Bytes) (previous : Option α) (current : α) :
    Except V2SnapshotError Unit :=
  failIf (∃ value ∈ previous, requestId current ≤ requestId value)
    (.invalid "v2 snapshot request records are not in strict lexical order")

/-- `require_strict_deleted_order` -/
def requireStrictDeletedOrder (previous : Option V2DeletedCheckpointRecord)
    (current : V2DeletedCheckpointRecord) : Except V2SnapshotError Unit :=
  failIf (∃ value ∈ previous, current.key ≤ value.key)
    (.invalid "v2 deleted checkpoint records are not in strict lexical order")

/-- The order of the checkpoint table is free. -/
def anyOrder {α : Type} (_ : Option α) (_ : α) : Except V2SnapshotError Unit := .ok ()

def decodeV2SealedSnapshot (bytes : Bytes) : Except V2SnapshotError V2SealedSnapshot := do
  let header ← decodeSnapshotHeader bytes
  checkSnapshotDigest sha256 bytes header
  let imageEnd ← okOr (checkedAdd 64 v2SnapshotHeaderSize header.imageLen)
    (.overflow "v2 snapshot image end exceeds usize")
  let image ← okOr (slice bytes v2SnapshotHeaderSize imageEnd)
    (.invalid "v2 snapshot image is truncated")
  let (versions, versionsEnd) ← decodeSnapshotVersions bytes header imageEnd
  let checkpointCount ← boundedCount header.checkpointCount (bytes.length - versionsEnd)
    v2MinCheckpointRecordSize "v2 snapshot checkpoint count exceeds body capacity"
  let (checkpoints, checkpointsEnd) ← readOrdered
    (framedStep (framedRecordLen bytes "v2 snapshot checkpoint length is truncated")
      (.overflow "v2 snapshot checkpoint end exceeds usize")
      (.invalid "v2 snapshot checkpoint record is truncated")
      (fun part => mapErr .publication (decodeV2Checkpoint part header.versionCount)) bytes)
    anyOrder checkpointCount none versionsEnd
  let activeCount ← boundedCount header.activeRequestCount (bytes.length - checkpointsEnd)
    (v2ActiveRequestPrefixSize + 1) "v2 snapshot active request count exceeds body capacity"
  let (activeRequests, activeEnd) ← readOrdered
    (framedStep (framedRecordLen bytes "v2 active request length is truncated")
      (.overflow "v2 active request end exceeds usize")
      (.invalid "v2 active request record is truncated") decodeActiveRequest bytes)
    (requireStrictRequestOrder V2ActiveRequestRecord.requestId) activeCount none checkpointsEnd
  let retiredCount ← boundedCount header.retiredRequestCount (bytes.length - activeEnd)
    (v2RetiredRequestPrefixSize + 1) "v2 snapshot retired request count exceeds body capacity"
  let (retiredRequests, retiredEnd) ← readOrdered
    (framedStep (framedRecordLen bytes "v2 retired request length is truncated")
      (.overflow "v2 retired request end exceeds usize")
      (.invalid "v2 retired request record is truncated") decodeRetiredRequest bytes)
    (requireStrictRequestOrder V2RetiredRequestRecord.requestId) retiredCount none activeEnd
  let deletedCheckpoints ← readWhile
    (framedStep (framedRecordLen bytes "v2 deleted checkpoint record length is truncated")
      (.overflow "v2 deleted checkpoint record end exceeds usize")
      (.invalid "v2 deleted checkpoint record is truncated") decodeDeletedCheckpoint bytes)
    requireStrictDeletedOrder bytes.length .diverged bytes.length none retiredEnd
  let snapshot : V2SealedSnapshot :=
    ⟨image, versions, checkpoints, activeRequests, retiredRequests, deletedCheckpoints⟩
  validateSnapshot sha256 snapshot
  return snapshot

end Codec

end TulyaStore.V2
