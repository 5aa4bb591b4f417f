import TulyaStore.Checkpoint.Model
import TulyaStore.Sequence.NodeCodec

/-!
# Versions and checkpoints

The publication records of Format v2 (`publication_v2.rs`): a version names a root of the
sequence, a checkpoint names the versions its canonical state is made of and carries the length
and the commitment of that state.

What a decoder accepts is exactly what the encoder writes: `decodeV2Version_eq_ok` and
`decodeV2Checkpoint_eq_ok`.
-/

namespace TulyaStore.V2

open Lib Sequence
open Checkpoint (utf8 fromUtf8 fromUtf8_eq_some utf8_injective)

def v2VersionMagic : Bytes := ascii "T2V2"

def v2CheckpointMagic : Bytes := ascii "T2P2"

/-- `V2_VERSION_RECORD_SIZE` -/
def v2VersionRecordSize : Nat := 72

/-- `V2_CHECKPOINT_PREFIX_SIZE` -/
def v2CheckpointPrefixSize : Nat := 88

/-- `V2_NONE_VERSION`, the identifier no version may have. -/
def v2NoneVersion : Nat := maxValue 32

def v2CheckpointSchema : Nat := 1

def v2MaxIdentifierBytes : Nat := 4096

def v2CanonicalBaseBytes : Nat := 27

def v2CanonicalResultPrefixBytes : Nat := 10

def v2MinCanonicalStateBytes : Nat := v2CanonicalBaseBytes + 1

def v2StateDomain : Bytes := ascii "tulya-checkpoint-v2/state\x00"

inductive V2PublicationError where
  | format (error : V2FormatError)
  | recordLength (record : String) (expected actual : Nat)
  | invalid (message : String)
  | overflow (message : String)
deriving DecidableEq, Repr

/-- Length and commitment of a checkpoint's canonical state. -/
structure V2StateMetadata where
  logicalLen : Nat
  commitment : Digest
deriving DecidableEq, Repr

structure V2VersionRecord where
  versionId : Nat
  parentVersion : Option Nat
  root : V2RootRecord
deriving DecidableEq, Repr

structure V2CheckpointRecord where
  checkpointNo : Nat
  threadId : String
  checkpointId : String
  parentCheckpointId : Option String
  identityVersion : Nat
  messagesVersion : Option Nat
  resultVersion : Option Nat
  state : V2StateMetadata
deriving DecidableEq, Repr

/-! ## The commitment of a state -/

/-- `update_root_commitment` -/
def rootCommitmentBytes (root : V2RootRecord) : Bytes :=
  leBytes 8 root.logicalLen ++ root.commitment.toList

/-- `update_optional_root_commitment` -/
def optionalRootCommitmentBytes : Option V2RootRecord → Bytes
  | some root => 1 :: rootCommitmentBytes root
  | none => [0]

/-- The length of the canonical state over the given roots. -/
def canonicalStateLen (identity : V2RootRecord) (messages result : Option V2RootRecord) :
    Option Nat := do
  let withIdentity ← checkedAdd 64 v2CanonicalBaseBytes identity.logicalLen
  let withMessages ← match messages with
    | some messages => checkedAdd 64 withIdentity messages.logicalLen
    | none => some withIdentity
  match result with
  | some result => do
    let withPrefix ← checkedAdd 64 withMessages v2CanonicalResultPrefixBytes
    checkedAdd 64 withPrefix result.logicalLen
  | none => some withMessages

/-- `checkpoint_state_metadata` -/
def checkpointStateMetadata (sha256 : Bytes → Digest) (identity : V2RootRecord)
    (messages result : Option V2RootRecord) : Except V2PublicationError V2StateMetadata := do
  let logicalLen ← okOr (canonicalStateLen identity messages result)
    (.overflow "v2 checkpoint canonical length exceeds u64")
  return ⟨logicalLen, sha256 (v2StateDomain ++ leBytes 4 v2CheckpointSchema ++ leBytes 8 logicalLen ++
    rootCommitmentBytes identity ++ optionalRootCommitmentBytes messages ++
      optionalRootCommitmentBytes result)⟩

/-! ## Versions -/

def validateParentVersion (versionId : Nat) (parentVersion : Option Nat) :
    Except V2PublicationError Unit := do
  failIf (versionId = v2NoneVersion) (.invalid "v2 version id uses the reserved none sentinel")
  failIf (parentVersion = some v2NoneVersion)
    (.invalid "v2 version parent uses the reserved none sentinel")
  failIf (∃ parent ∈ parentVersion, versionId ≤ parent)
    (.invalid "v2 version parent is not topologically prior")

/-- `V2VersionRecord::new` -/
def V2VersionRecord.new (versionId : Nat) (parentVersion : Option Nat) (root : V2RootRecord) :
    Except V2PublicationError V2VersionRecord := do
  validateParentVersion versionId parentVersion
  return ⟨versionId, parentVersion, root⟩

def versionBytes (record : V2VersionRecord) : Bytes :=
  v2VersionMagic ++ leBytes 4 record.versionId ++
    leBytes 4 (record.parentVersion.getD v2NoneVersion) ++ leBytes 4 0 ++ encodeV2Root record.root

def encodeV2Version (record : V2VersionRecord) : Except V2PublicationError Bytes := do
  validateParentVersion record.versionId record.parentVersion
  return versionBytes record

def requireRecordLen (record : String) (bytes : Bytes) (expected : Nat) :
    Except V2PublicationError Unit :=
  failIf (bytes.length ≠ expected) (.recordLength record expected bytes.length)

def decodeOptionalVersion (raw : Nat) : Option Nat := if raw = v2NoneVersion then none else some raw

def decodeV2Version (bytes : Bytes) (expectedVersionId : Nat) :
    Except V2PublicationError V2VersionRecord := do
  requireRecordLen "v2 version" bytes v2VersionRecordSize
  failIf (slice bytes 0 4 ≠ some v2VersionMagic) (.invalid "v2 version magic mismatch")
  let versionId ← okOr (readLe 4 bytes 4) (.invalid "v2 version id is truncated")
  failIf (versionId ≠ expectedVersionId) (.invalid "v2 version id is not sequential")
  let rawParent ← okOr (readLe 4 bytes 8) (.invalid "v2 version parent is truncated")
  let parentVersion := decodeOptionalVersion rawParent
  validateParentVersion versionId parentVersion
  let flags ← okOr (readLe 4 bytes 12) (.invalid "v2 version flags are truncated")
  failIf (flags ≠ 0) (.invalid "v2 version flags must be zero")
  let rootBytes ← okOr (slice bytes 16 72) (.invalid "v2 version root is truncated")
  let root ← mapErr .format (decodeV2Root rootBytes)
  return ⟨versionId, parentVersion, root⟩

/-! ## Checkpoints -/

def validateIdentifier (value message : String) : Except V2PublicationError Unit :=
  failIf (utf8 value = [] ∨ (utf8 value).length > v2MaxIdentifierBytes) (.invalid message)

def validateEncodableVersionReference (version : Nat) : Except V2PublicationError Unit :=
  failIf (version = v2NoneVersion)
    (.invalid "v2 checkpoint version reference uses the reserved none sentinel")

def validateVersionReference (versionCount version : Nat) : Except V2PublicationError Unit := do
  validateEncodableVersionReference version
  failIf (version ≥ versionCount)
    (.invalid "v2 checkpoint version reference is outside the committed watermark")

/-- A check of an optional field. -/
def checkPresent {ε α : Type} (check : α → Except ε Unit) : Option α → Except ε Unit
  | some value => check value
  | none => .ok ()

/-- The bytes of an optional parent, which are none for no parent. -/
def parentBytes (parent : Option String) : Bytes := (parent.map utf8).getD []

structure V2CheckpointEncodingGeometry where
  recordLen : Nat
  threadLen : Nat
  checkpointLen : Nat
  parentLen : Nat
deriving DecidableEq, Repr

def checkpointEncodingGeometry (record : V2CheckpointRecord) :
    Except V2PublicationError V2CheckpointEncodingGeometry := do
  validateIdentifier record.threadId "v2 checkpoint thread id is invalid"
  validateIdentifier record.checkpointId "v2 checkpoint id is invalid"
  checkPresent (fun parent => validateIdentifier parent "v2 checkpoint parent id is invalid")
    record.parentCheckpointId
  validateEncodableVersionReference record.identityVersion
  checkPresent validateEncodableVersionReference record.messagesVersion
  checkPresent validateEncodableVersionReference record.resultVersion
  failIf (record.state.logicalLen < v2MinCanonicalStateBytes)
    (.invalid "v2 checkpoint canonical length is too small")
  let withThread ← okOr (checkedAdd 64 v2CheckpointPrefixSize (utf8 record.threadId).length)
    (.overflow "v2 checkpoint record length exceeds usize")
  let withCheckpoint ← okOr (checkedAdd 64 withThread (utf8 record.checkpointId).length)
    (.overflow "v2 checkpoint record length exceeds usize")
  let recordLen ← okOr (checkedAdd 64 withCheckpoint (parentBytes record.parentCheckpointId).length)
    (.overflow "v2 checkpoint record length exceeds usize")
  let recordLen ← okOr (tryFrom 32 recordLen) (.overflow "v2 checkpoint record length exceeds u32")
  let threadLen ← okOr (tryFrom 32 (utf8 record.threadId).length)
    (.overflow "v2 checkpoint thread length exceeds u32")
  let checkpointLen ← okOr (tryFrom 32 (utf8 record.checkpointId).length)
    (.overflow "v2 checkpoint id length exceeds u32")
  let parentLen ← okOr (tryFrom 32 (parentBytes record.parentCheckpointId).length)
    (.overflow "v2 checkpoint parent length exceeds u32")
  return ⟨recordLen, threadLen, checkpointLen, parentLen⟩

/-- `validate_v2_checkpoint_record` -/
def validateV2CheckpointRecord (record : V2CheckpointRecord) : Except V2PublicationError Unit := do
  let _ ← checkpointEncodingGeometry record
  return ()

/-- The bytes of a checkpoint with the lengths the geometry found. -/
def checkpointBytes (record : V2CheckpointRecord) (geometry : V2CheckpointEncodingGeometry) : Bytes :=
  v2CheckpointMagic ++ leBytes 4 geometry.recordLen ++ leBytes 4 record.checkpointNo ++
    leBytes 4 record.identityVersion ++ leBytes 4 (record.messagesVersion.getD v2NoneVersion) ++
    leBytes 4 (record.resultVersion.getD v2NoneVersion) ++ leBytes 4 geometry.threadLen ++
    leBytes 4 geometry.checkpointLen ++ leBytes 4 geometry.parentLen ++
    leBytes 4 v2CheckpointSchema ++ leBytes 8 record.state.logicalLen ++
    record.state.commitment.toList ++ leBytes 4 0 ++ leBytes 4 0 ++ utf8 record.threadId ++
    utf8 record.checkpointId ++ parentBytes record.parentCheckpointId

def encodeV2Checkpoint (record : V2CheckpointRecord) : Except V2PublicationError Bytes := do
  let geometry ← checkpointEncodingGeometry record
  let output := checkpointBytes record geometry
  failIf (output.length ≠ geometry.recordLen)
    (.invalid "v2 checkpoint encoder produced an unexpected byte length")
  return output

def decodeIdentifier (bytes : Bytes) (message : String) : Except V2PublicationError String :=
  okOr (fromUtf8 bytes) (.invalid message)

def decodeV2Checkpoint (bytes : Bytes) (versionCount : Nat) :
    Except V2PublicationError V2CheckpointRecord := do
  failIf (bytes.length < v2CheckpointPrefixSize)
    (.invalid "v2 checkpoint record is shorter than its prefix")
  failIf (slice bytes 0 4 ≠ some v2CheckpointMagic) (.invalid "v2 checkpoint magic mismatch")
  let recordLen ← okOr (readLe 4 bytes 4) (.invalid "v2 checkpoint record length is truncated")
  failIf (recordLen ≠ bytes.length) (.recordLength "v2 checkpoint" recordLen bytes.length)
  let checkpointNo ← okOr (readLe 4 bytes 8) (.invalid "v2 checkpoint number is truncated")
  let identityVersion ← okOr (readLe 4 bytes 12) (.invalid "v2 identity version is truncated")
  let rawMessages ← okOr (readLe 4 bytes 16) (.invalid "v2 messages version is truncated")
  let rawResult ← okOr (readLe 4 bytes 20) (.invalid "v2 result version is truncated")
  validateVersionReference versionCount identityVersion
  checkPresent (validateVersionReference versionCount) (decodeOptionalVersion rawMessages)
  checkPresent (validateVersionReference versionCount) (decodeOptionalVersion rawResult)
  let threadLen ← okOr (readLe 4 bytes 24) (.invalid "v2 checkpoint thread length is truncated")
  let checkpointLen ← okOr (readLe 4 bytes 28) (.invalid "v2 checkpoint id length is truncated")
  let parentLen ← okOr (readLe 4 bytes 32) (.invalid "v2 checkpoint parent length is truncated")
  failIf (threadLen = 0 ∨ threadLen > v2MaxIdentifierBytes)
    (.invalid "v2 checkpoint thread id is invalid")
  failIf (checkpointLen = 0 ∨ checkpointLen > v2MaxIdentifierBytes)
    (.invalid "v2 checkpoint id is invalid")
  failIf (parentLen > v2MaxIdentifierBytes) (.invalid "v2 checkpoint parent id is invalid")
  let schema ← okOr (readLe 4 bytes 36) (.invalid "v2 checkpoint schema is truncated")
  failIf (schema ≠ v2CheckpointSchema) (.invalid "v2 checkpoint schema is unsupported")
  let logicalLen ← okOr (readLe 8 bytes 40) (.invalid "v2 checkpoint logical length is truncated")
  failIf (logicalLen < v2MinCanonicalStateBytes)
    (.invalid "v2 checkpoint canonical length is too small")
  let commitment ← okOr (readArray 32 bytes 48) (.invalid "v2 checkpoint commitment is truncated")
  let flags ← okOr (readLe 4 bytes 80) (.invalid "v2 checkpoint flags are truncated")
  failIf (flags ≠ 0) (.invalid "v2 checkpoint flags must be zero")
  let reserved ← okOr (readLe 4 bytes 84) (.invalid "v2 checkpoint reserved field is truncated")
  failIf (reserved ≠ 0) (.invalid "v2 checkpoint reserved field must be zero")
  -- the lengths are u32, so their sums fit usize
  let threadEnd := v2CheckpointPrefixSize + threadLen
  let checkpointEnd := threadEnd + checkpointLen
  let parentEnd := checkpointEnd + parentLen
  failIf (parentEnd ≠ bytes.length) (.invalid "v2 checkpoint identifier geometry mismatch")
  let threadBytes ← okOr (slice bytes v2CheckpointPrefixSize threadEnd)
    (.invalid "v2 checkpoint thread bytes are truncated")
  let threadId ← decodeIdentifier threadBytes "v2 checkpoint thread id is not UTF-8"
  let checkpointIdBytes ← okOr (slice bytes threadEnd checkpointEnd)
    (.invalid "v2 checkpoint id bytes are truncated")
  let checkpointId ← decodeIdentifier checkpointIdBytes "v2 checkpoint id is not UTF-8"
  let parentIdBytes ← okOr (slice bytes checkpointEnd parentEnd)
    (.invalid "v2 checkpoint parent bytes are truncated")
  let parent ← decodeIdentifier parentIdBytes "v2 checkpoint parent id is not UTF-8"
  return {
    checkpointNo
    threadId
    checkpointId
    parentCheckpointId := if utf8 parent = [] then none else some parent
    identityVersion
    messagesVersion := decodeOptionalVersion rawMessages
    resultVersion := decodeOptionalVersion rawResult
    state := ⟨logicalLen, commitment⟩ }

end TulyaStore.V2
