import TulyaStore.V2.Transaction

/-!
# Commits

A `T2C2` commit (`commit_v2.rs`) wraps the bytes of one WAL transaction together with an optional
request identity and the digest of the checkpoint operation the request stands for. The inner
bytes carry their own base, so a commit can be decoded without knowing where it applies.
-/

namespace TulyaStore.V2

open Lib Sequence
open Checkpoint (utf8)

def v2CommitMagic : Bytes := ascii "T2C2"

def v2CommitSchema : Nat := 1

/-- `V2_COMMIT_PREFIX_SIZE`, the header without its digest. -/
def v2CommitPrefixSize : Nat := 56

/-- `V2_COMMIT_HEADER_SIZE` -/
def v2CommitHeaderSize : Nat := 88

def v2MaxRequestIdBytes : Nat := 4096

def v2CommitDomain : Bytes := ascii "tulya-checkpoint-v2/commit\x00"

def v2OperationDomain : Bytes := ascii "tulya-checkpoint-v2/checkpoint-operation\x00"

inductive V2CommitError where
  | publication (error : V2PublicationError)
  | wal (error : V2WalError)
  | invalid (message : String)
  | overflow (message : String)
deriving DecidableEq, Repr

structure V2DecodedCommit where
  encodedBase : V2WalGeometry
  wal : V2DecodedWalTransaction
  requestId : Option Bytes
  operationDigest : Digest
  commitDigest : Digest
deriving DecidableEq, Repr

/-- `[0u8; 32]`, the operation digest of a commit without request. -/
def zeroDigest : Digest := Vector.replicate 32 0

/-! ## The operation of a request -/

/-- `update_len_prefixed` -/
def lenPrefixed (bytes : Bytes) : Except V2CommitError Bytes := do
  let len ← okOr (tryFrom 32 bytes.length) (.overflow "v2 operation field length exceeds u32")
  return leBytes 4 len ++ bytes

section Codec

variable (sha256 : Bytes → Digest)

/-- `checkpoint_operation_digest` -/
def checkpointOperationDigest (checkpoint : V2CheckpointRecord) : Except V2CommitError Digest := do
  mapErr .publication (validateV2CheckpointRecord checkpoint)
  let thread ← lenPrefixed (utf8 checkpoint.threadId)
  let id ← lenPrefixed (utf8 checkpoint.checkpointId)
  let parent ← lenPrefixed (parentBytes checkpoint.parentCheckpointId)
  return sha256 (v2OperationDomain ++ leBytes 4 v2CommitSchema ++ leBytes 4 checkpoint.checkpointNo ++
    thread ++ id ++ parent ++ leBytes 8 checkpoint.state.logicalLen ++
    checkpoint.state.commitment.toList)

/-! ## Bytes -/

def validateRequestId (requestId : Option Bytes) : Except V2CommitError Unit :=
  failIf (∃ request ∈ requestId, request = [] ∨ request.length > v2MaxRequestIdBytes)
    (.invalid "v2 commit request id is empty or exceeds the byte limit")

/-- The operation digest of a commit. -/
def requestOperationDigest (requestId : Option Bytes) (checkpoint : V2CheckpointRecord) :
    Except V2CommitError Digest :=
  match requestId with
  | some _ => checkpointOperationDigest sha256 checkpoint
  | none => .ok zeroDigest

def commitPrefix (totalLen walLen requestLen : Nat) (operationDigest : Digest) : Bytes :=
  v2CommitMagic ++ leBytes 4 totalLen ++ leBytes 4 v2CommitSchema ++ leBytes 4 0 ++
    leBytes 4 walLen ++ leBytes 4 requestLen ++ operationDigest.toList

def commitDigest (headerPrefix body : Bytes) : Digest :=
  sha256 (v2CommitDomain ++ headerPrefix ++ body)

def encodeV2Commit (base : V2WalGeometry) (transaction : V2WalTransaction)
    (requestId : Option Bytes) : Except V2CommitError Bytes := do
  validateRequestId requestId
  let wal ← mapErr .wal (encodeV2WalTransaction sha256 base transaction)
  let operationDigest ← requestOperationDigest sha256 requestId transaction.checkpoint
  let request := requestId.getD []
  let requestLen ← okOr (tryFrom 32 request.length)
    (.overflow "v2 commit request id length exceeds u32")
  let walLen ← okOr (tryFrom 32 wal.length) (.overflow "v2 commit inner WAL length exceeds u32")
  let withWal ← okOr (checkedAdd 64 v2CommitHeaderSize wal.length)
    (.overflow "v2 commit byte length exceeds usize")
  let totalLen ← okOr (checkedAdd 64 withWal request.length)
    (.overflow "v2 commit byte length exceeds usize")
  let totalLen ← okOr (tryFrom 32 totalLen) (.overflow "v2 commit byte length exceeds u32")
  let headerPrefix := commitPrefix totalLen walLen requestLen operationDigest
  let body := wal ++ request
  failIf (v2CommitHeaderSize + body.length ≠ totalLen)
    (.invalid "v2 commit encoder produced an unexpected byte length")
  return headerPrefix ++ (commitDigest sha256 headerPrefix body).toList ++ body

/-- `decode_inner_wal_base` -/
def decodeInnerWalBase (bytes : Bytes) : Except V2CommitError V2WalGeometry := do
  failIf (bytes.length < 72) (.invalid "v2 commit inner WAL header is truncated")
  failIf (slice bytes 0 4 ≠ some v2WalMagic) (.invalid "v2 commit inner WAL magic mismatch")
  let schema ← okOr (readLe 4 bytes 8) (.invalid "v2 commit inner WAL schema is truncated")
  failIf (schema ≠ v2WalSchema) (.invalid "v2 commit inner WAL schema is unsupported")
  let payloadLen ← okOr (readLe 8 bytes 16) (.invalid "v2 commit payload watermark is truncated")
  let nodeCount ← okOr (readLe 8 bytes 32) (.invalid "v2 commit node watermark is truncated")
  let versionCount ← okOr (readLe 8 bytes 48) (.invalid "v2 commit version watermark is truncated")
  let checkpointCount ← okOr (readLe 8 bytes 64)
    (.invalid "v2 commit checkpoint watermark is truncated")
  return ⟨payloadLen, nodeCount, versionCount, checkpointCount⟩

/-- The header fields the decoder goes on with. -/
structure V2CommitHeader where
  walLen : Nat
  requestLen : Nat
  operationDigest : Digest
  commitDigest : Digest
deriving DecidableEq, Repr

/-- The checks of `decode_v2_commit` on the header and its digest. -/
def decodeCommitHeader (bytes : Bytes) : Except V2CommitError V2CommitHeader := do
  failIf (bytes.length < v2CommitHeaderSize) (.invalid "v2 commit header is truncated")
  failIf (slice bytes 0 4 ≠ some v2CommitMagic) (.invalid "v2 commit magic mismatch")
  let totalLen ← okOr (readLe 4 bytes 4) (.invalid "v2 commit length is truncated")
  failIf (totalLen ≠ bytes.length) (.invalid "v2 commit byte length mismatch")
  let schema ← okOr (readLe 4 bytes 8) (.invalid "v2 commit schema is truncated")
  failIf (schema ≠ v2CommitSchema) (.invalid "v2 commit schema is unsupported")
  let flags ← okOr (readLe 4 bytes 12) (.invalid "v2 commit flags are truncated")
  failIf (flags ≠ 0) (.invalid "v2 commit flags must be zero")
  let walLen ← okOr (readLe 4 bytes 16) (.invalid "v2 commit WAL length is truncated")
  let requestLen ← okOr (readLe 4 bytes 20) (.invalid "v2 commit request id length is truncated")
  failIf (requestLen > v2MaxRequestIdBytes)
    (.invalid "v2 commit request id exceeds the byte limit")
  let operationDigest ← okOr (readArray 32 bytes 24)
    (.invalid "v2 commit operation digest is truncated")
  let storedDigest ← okOr (readArray 32 bytes v2CommitPrefixSize)
    (.invalid "v2 commit digest is truncated")
  let expectedDigest := commitDigest sha256 (bytes.take v2CommitPrefixSize)
    (bytes.drop v2CommitHeaderSize)
  failIf (storedDigest ≠ expectedDigest) (.invalid "v2 commit digest mismatch")
  return ⟨walLen, requestLen, operationDigest, storedDigest⟩

/-- The stored operation digest of a commit with a request is the one of its checkpoint. -/
def checkOperationDigest (header : V2CommitHeader) (checkpoint : V2CheckpointRecord) :
    Except V2CommitError Digest :=
  if header.requestLen = 0 then .ok zeroDigest
  else do
    let expected ← checkpointOperationDigest sha256 checkpoint
    failIf (header.operationDigest ≠ expected)
      (.invalid "v2 commit operation digest disagrees with checkpoint semantics")
    return expected

def decodeV2Commit (bytes : Bytes) : Except V2CommitError V2DecodedCommit := do
  let header ← decodeCommitHeader sha256 bytes
  let walEnd ← okOr (checkedAdd 64 v2CommitHeaderSize header.walLen)
    (.overflow "v2 commit WAL range exceeds usize")
  let requestEnd ← okOr (checkedAdd 64 walEnd header.requestLen)
    (.overflow "v2 commit request range exceeds usize")
  failIf (requestEnd ≠ bytes.length) (.invalid "v2 commit section geometry mismatch")
  let walBytes ← okOr (slice bytes v2CommitHeaderSize walEnd)
    (.invalid "v2 commit WAL bytes are truncated")
  let requestBytes ← okOr (slice bytes walEnd requestEnd)
    (.invalid "v2 commit request bytes are truncated")
  failIf (header.requestLen = 0 ∧ header.operationDigest ≠ zeroDigest)
    (.invalid "v2 requestless commit operation digest must be zero")
  failIf (header.requestLen > 0 ∧ requestBytes = []) (.invalid "v2 commit request id is empty")
  let encodedBase ← decodeInnerWalBase walBytes
  let wal ← mapErr .wal (decodeV2WalTransaction sha256 walBytes encodedBase)
  let operationDigest ← checkOperationDigest sha256 header wal.transaction.checkpoint
  return {
    encodedBase
    wal
    requestId := if header.requestLen = 0 then none else some requestBytes
    operationDigest
    commitDigest := header.commitDigest }

end Codec

end TulyaStore.V2
