import TulyaStore.Lib.Outcome
import TulyaStore.V2.Snapshot

/-!
# The committed state

The state of the staged format and its transitions (`apply_v2.rs`): a `T2C2` commit is checked
against the committed state before anything of it is stored, an active request can be retired, and
a checkpoint can be deleted together with all its descendants.

A mutation runs as `EStateM`, which keeps the state it had when an error stops it. The hash maps
of the source are `KeyMap`s and its hash set is a `KeyMap` without values; loops over them run in
the order of the keys. Allocation is not modelled, nor are the sizes that are only computed for it.
-/

namespace TulyaStore.V2

open Lib Sequence
open Checkpoint (utf8)

inductive V2ApplyError where
  | commit (error : V2CommitError)
  | format (error : V2FormatError)
  | publication (error : V2PublicationError)
  | invalid (message : String)
  | overflow (message : String)
  | requestConflict
deriving DecidableEq, Repr

inductive V2RequestStatus where
  | new
  | replay (checkpointOrdinal : Nat)
  | retired
deriving DecidableEq, Repr

inductive V2ApplyOutcome where
  | applied (checkpointOrdinal : Nat)
  | replayed (checkpointOrdinal : Nat)
  | retiredRequest
deriving DecidableEq, Repr

structure V2RequestRecord where
  operationDigest : Digest
  checkpointOrdinal : Nat
deriving DecidableEq, Repr

structure V2CommittedState where
  payload : Bytes
  nodes : List V2NodeRecord
  versions : List V2VersionRecord
  checkpoints : List V2CheckpointRecord
  checkpointOrdinals : KeyMap V2CheckpointKey Nat
  requestRecords : KeyMap Bytes V2RequestRecord
  retiredRequests : KeyMap Bytes Digest
  deletedCheckpoints : KeyMap V2CheckpointKey Unit
deriving DecidableEq

/-- `V2CommittedState::default` -/
def V2CommittedState.empty : V2CommittedState :=
  ⟨[], [], [], [], .empty, .empty, .empty, .empty⟩

structure V2PreparedSubtreeDelete where
  checkpoints : List V2CheckpointRecord
  checkpointOrdinals : KeyMap V2CheckpointKey Nat
  requestRecords : KeyMap Bytes V2RequestRecord
  retiredRequests : KeyMap Bytes Digest
  deletedCheckpoints : KeyMap V2CheckpointKey Unit
  clearSequenceGeometry : Bool
  deletedCheckpointCount : Nat
deriving DecidableEq

/-- A mutation of the committed state. -/
abbrev V2StateM := EStateM V2ApplyError V2CommittedState

/-! ## Requests -/

/-- `validate_request_id` of the committed state. -/
def validateActiveRequestId (requestId : Bytes) : Except V2ApplyError Unit :=
  failIf (requestId = [] ∨ requestId.length > v2MaxRequestIdBytes)
    (.invalid "v2 request id is empty or exceeds the byte limit")

/-- `validate_checkpoint_identifier` -/
def validateCheckpointIdentifier (identifier : String) : Except V2ApplyError Unit :=
  failIf (utf8 identifier = [] ∨ (utf8 identifier).length > v2MaxIdentifierBytes)
    (.invalid "v2 checkpoint identifier is empty or exceeds the byte limit")

namespace V2CommittedState

variable (state : V2CommittedState)

def geometry : Except V2ApplyError V2WalGeometry := do
  let payloadLen ← okOr (tryFrom 64 state.payload.length)
    (.overflow "v2 state payload length exceeds u64")
  let nodeCount ← okOr (tryFrom 64 state.nodes.length)
    (.overflow "v2 state node count exceeds u64")
  let versionCount ← okOr (tryFrom 64 state.versions.length)
    (.overflow "v2 state version count exceeds u64")
  let checkpointCount ← okOr (tryFrom 64 state.checkpoints.length)
    (.overflow "v2 state checkpoint count exceeds u64")
  return ⟨payloadLen, nodeCount, versionCount, checkpointCount⟩

/-- A known request is the same operation again, or a conflict. -/
def sameOperation (stored operationDigest : Digest) (status : V2RequestStatus) :
    Except V2ApplyError V2RequestStatus :=
  if stored = operationDigest then .ok status else .error .requestConflict

def classifyRequest (requestId : Bytes) (operationDigest : Digest) :
    Except V2ApplyError V2RequestStatus := do
  validateActiveRequestId requestId
  match state.requestRecords.get requestId with
  | some record =>
    sameOperation record.operationDigest operationDigest (.replay record.checkpointOrdinal)
  | none =>
    match state.retiredRequests.get requestId with
    | some retiredDigest => sameOperation retiredDigest operationDigest .retired
    | none => return .new

end V2CommittedState

def retireRequest (requestId : Bytes) : V2StateM Unit := do
  let state ← get
  attempt (validateActiveRequestId requestId)
  attempt (failIf (state.retiredRequests.containsKey requestId = true)
    (.invalid "v2 request identity is already retired"))
  let record ← attempt (okOr (state.requestRecords.get requestId)
    (.invalid "v2 active request identity is absent"))
  modify fun s => { s with requestRecords := s.requestRecords.erase requestId }
  modify fun s =>
    { s with retiredRequests := s.retiredRequests.insert requestId record.operationDigest }

/-! ## Deleting a subtree -/

/-- The parent of a live checkpoint stands in front of it. -/
def validateSourceParent (positions : KeyMap V2CheckpointKey Nat) (threadId : String) (index : Nat)
    (parent : String) : Except V2ApplyError Unit := do
  let parentIndex ← okOr (positions.get (checkpointKey threadId parent))
    (.invalid "v2 live checkpoint parent is not topologically prior in the same thread")
  failIf (parentIndex ≥ index) (.invalid "v2 live checkpoint parent is not topologically prior")

/-- The turn of one checkpoint in `validate_delete_source_state`. -/
def sourcePosition (deletedCheckpoints : KeyMap V2CheckpointKey Unit)
    (positions : KeyMap V2CheckpointKey Nat) (entry : V2CheckpointRecord × Nat) :
    Except V2ApplyError (KeyMap V2CheckpointKey Nat) := do
  let checkpoint := entry.1
  validateCheckpointIdentifier checkpoint.threadId
  validateCheckpointIdentifier checkpoint.checkpointId
  checkPresent validateCheckpointIdentifier checkpoint.parentCheckpointId
  failIf (deletedCheckpoints.containsKey checkpoint.key = true)
    (.invalid "v2 checkpoint identity is both live and deleted")
  failIf (positions.containsKey checkpoint.key = true)
    (.invalid "v2 checkpoint table contains duplicate identity")
  let positions := positions.insert checkpoint.key entry.2
  checkPresent (validateSourceParent positions checkpoint.threadId entry.2)
    checkpoint.parentCheckpointId
  return positions

/-- The turn of one entry of the checkpoint index. -/
def validateSourceOrdinal (positions : KeyMap V2CheckpointKey Nat)
    (entry : V2CheckpointKey × Nat) : Except V2ApplyError Unit := do
  let index ← okOr (positions.get entry.1)
    (.invalid "v2 checkpoint index contains an identity absent from the checkpoint table")
  let expectedOrdinal ← okOr (tryFrom 64 index) (.overflow "v2 checkpoint ordinal exceeds u64")
  failIf (entry.2 ≠ expectedOrdinal)
    (.invalid "v2 checkpoint index disagrees with checkpoint table")

/-- The turn of one deleted identity. -/
def validateSourceDeleted (entry : V2CheckpointKey × Unit) : Except V2ApplyError Unit := do
  validateCheckpointIdentifier (ofLex entry.1).1
  validateCheckpointIdentifier (ofLex entry.1).2

section Hash

variable (sha256 : Bytes → Digest) (state : V2CommittedState)

namespace V2CommittedState

/-- The turn of one active request. -/
def validateSourceRequest (entry : Bytes × V2RequestRecord) : Except V2ApplyError Unit := do
  validateActiveRequestId entry.1
  failIf (state.retiredRequests.containsKey entry.1 = true)
    (.invalid "v2 request identity is both active and retired")
  let checkpoint ← okOr state.checkpoints[entry.2.checkpointOrdinal]?
    (.invalid "v2 active request checkpoint ordinal is outside the checkpoint table")
  let digest ← mapErr .commit (checkpointOperationDigest sha256 checkpoint)
  failIf (digest ≠ entry.2.operationDigest)
    (.invalid "v2 active request digest disagrees with its checkpoint")

/-- `validate_delete_source_state`, which gives the position of every live checkpoint. -/
def validateDeleteSourceState : Except V2ApplyError (KeyMap V2CheckpointKey Nat) := do
  failIf (state.checkpointOrdinals.size ≠ state.checkpoints.length)
    (.invalid "v2 checkpoint index cardinality disagrees with checkpoint table")
  let positions ←
    state.checkpoints.zipIdx.foldlM (sourcePosition state.deletedCheckpoints) .empty
  state.checkpointOrdinals.entries.forM (validateSourceOrdinal positions)
  state.deletedCheckpoints.entries.forM validateSourceDeleted
  state.requestRecords.entries.forM (state.validateSourceRequest sha256)
  state.retiredRequests.entries.forM fun entry => validateActiveRequestId entry.1
  return positions

end V2CommittedState

/-- The turn of one checkpoint behind the target: it goes when its parent goes. -/
def markDescendant (positions : KeyMap V2CheckpointKey Nat) (threadId : String)
    (deleteMask : List Bool) (entry : V2CheckpointRecord × Nat) :
    Except V2ApplyError (List Bool) :=
  let checkpoint := entry.1
  if checkpoint.threadId ≠ threadId then .ok deleteMask
  else match checkpoint.parentCheckpointId with
    | none => .ok deleteMask
    | some parent => do
      let parentIndex ← okOr (positions.get (checkpointKey checkpoint.threadId parent))
        (.invalid "v2 live checkpoint parent is absent from the index")
      failIf (parentIndex ≥ entry.2)
        (.invalid "v2 live checkpoint parent is not topologically prior")
      let parentDeleted ← okOr deleteMask[parentIndex]?
        (.invalid "v2 deletion parent is outside the deletion mask")
      failIf (parentDeleted = true ∧ deleteMask.length ≤ entry.2)
        (.invalid "v2 deletion checkpoint is outside the deletion mask")
      return if parentDeleted then deleteMask.set entry.2 true else deleteMask

/-- What the loop of `prepare_delete_ledgers` over the checkpoints has built. -/
structure RetainedLedger where
  checkpoints : List V2CheckpointRecord
  checkpointOrdinals : KeyMap V2CheckpointKey Nat
  newOrdinals : List (Option Nat)
  deletedCheckpoints : KeyMap V2CheckpointKey Unit
  nextOrdinal : Nat
deriving DecidableEq

/-- The turn of one checkpoint in `prepare_delete_ledgers`. -/
def retainCheckpoint (deleteMask : List Bool) (ledger : RetainedLedger)
    (entry : V2CheckpointRecord × Nat) : Except V2ApplyError RetainedLedger := do
  let checkpoint := entry.1
  let deleted ← okOr deleteMask[entry.2]? (.invalid "v2 checkpoint is outside the deletion mask")
  if deleted then
    return { ledger with
      deletedCheckpoints := ledger.deletedCheckpoints.insert checkpoint.key () }
  else do
    let nextOrdinal ← okOr (checkedAdd 64 ledger.nextOrdinal 1)
      (.overflow "v2 retained checkpoint ordinal exceeds u64")
    return { ledger with
      checkpoints := ledger.checkpoints ++ [checkpoint]
      checkpointOrdinals := ledger.checkpointOrdinals.insert checkpoint.key ledger.nextOrdinal
      newOrdinals := ledger.newOrdinals.set entry.2 (some ledger.nextOrdinal)
      nextOrdinal }

/-- The request ledgers `prepare_delete_ledgers` builds. -/
structure RequestLedgers where
  requestRecords : KeyMap Bytes V2RequestRecord
  retiredRequests : KeyMap Bytes Digest
deriving DecidableEq

/-- The turn of one active request in `prepare_delete_ledgers`. -/
def moveRequest (deleteMask : List Bool) (newOrdinals : List (Option Nat))
    (ledgers : RequestLedgers) (entry : Bytes × V2RequestRecord) :
    Except V2ApplyError RequestLedgers := do
  let record := entry.2
  let deleted ← okOr deleteMask[record.checkpointOrdinal]?
    (.invalid "v2 active request checkpoint ordinal is outside the deletion mask")
  if deleted then
    return { ledgers with
      retiredRequests := ledgers.retiredRequests.insert entry.1 record.operationDigest }
  else do
    let newOrdinal ← okOr newOrdinals[record.checkpointOrdinal]?.join
      (.invalid "v2 retained request checkpoint is absent from the prepared ordinal map")
    return { ledgers with
      requestRecords :=
        ledgers.requestRecords.insert entry.1 ⟨record.operationDigest, newOrdinal⟩ }

namespace V2CommittedState

def prepareDeleteLedgers (deleteMask : List Bool) : Except V2ApplyError V2PreparedSubtreeDelete := do
  let deletedCount := deleteMask.count true
  failIf (state.checkpoints.length < deletedCount)
    (.invalid "v2 deletion mask exceeds checkpoint table")
  let retainedCount := state.checkpoints.length - deletedCount
  let deletedCheckpointCount ← okOr (tryFrom 64 deletedCount)
    (.overflow "v2 deleted checkpoint count exceeds u64")
  let ledger ← state.checkpoints.zipIdx.foldlM (retainCheckpoint deleteMask)
    ⟨[], .empty, List.replicate state.checkpoints.length none, state.deletedCheckpoints, 0⟩
  let ledgers ← state.requestRecords.entries.foldlM (moveRequest deleteMask ledger.newOrdinals)
    ⟨.empty, state.retiredRequests⟩
  return {
    checkpoints := ledger.checkpoints
    checkpointOrdinals := ledger.checkpointOrdinals
    requestRecords := ledgers.requestRecords
    retiredRequests := ledgers.retiredRequests
    deletedCheckpoints := ledger.deletedCheckpoints
    clearSequenceGeometry := retainedCount = 0
    deletedCheckpointCount }

/-- The position of the checkpoint to delete. -/
def deleteTarget (positions : KeyMap V2CheckpointKey Nat) (key : V2CheckpointKey) :
    Except V2ApplyError Nat :=
  match positions.get key with
  | some index => .ok index
  | none =>
    if state.deletedCheckpoints.containsKey key = true then
      .error (.invalid "v2 checkpoint identity is already deleted")
    else .error (.invalid "v2 checkpoint identity to delete is absent")

def prepareDeleteCheckpointSubtree (threadId checkpointId : String) :
    Except V2ApplyError V2PreparedSubtreeDelete := do
  validateCheckpointIdentifier threadId
  validateCheckpointIdentifier checkpointId
  let positions ← state.validateDeleteSourceState sha256
  let targetIndex ← state.deleteTarget positions (checkpointKey threadId checkpointId)
  failIf (state.checkpoints.length ≤ targetIndex)
    (.invalid "v2 deletion target is outside the checkpoint table")
  let deleteMask ← (state.checkpoints.zipIdx.drop (targetIndex + 1)).foldlM
    (markDescendant positions threadId)
    ((List.replicate state.checkpoints.length false).set targetIndex true)
  state.prepareDeleteLedgers deleteMask

end V2CommittedState

def applyPreparedDeleteCheckpointSubtree (prepared : V2PreparedSubtreeDelete) : V2StateM Unit := do
  modify fun s => { s with
    checkpoints := prepared.checkpoints
    checkpointOrdinals := prepared.checkpointOrdinals
    requestRecords := prepared.requestRecords
    retiredRequests := prepared.retiredRequests
    deletedCheckpoints := prepared.deletedCheckpoints }
  if prepared.clearSequenceGeometry then
    modify fun s => { s with payload := [], nodes := [], versions := [] }

/-! ## Applying a commit -/

namespace V2CommittedState

variable (base : V2WalGeometry) (transaction : V2WalTransaction)

def resolveNode (nodeId : Nat) : Except V2ApplyError V2NodeRecord :=
  if nodeId < base.nodeCount then
    okOr state.nodes[nodeId]? (.invalid "v2 committed node is absent")
  else
    okOr transaction.nodes[nodeId - base.nodeCount]? (.invalid "v2 referenced new node is absent")

def resolveVersion (versionId : Nat) : Except V2ApplyError V2VersionRecord :=
  if versionId < base.versionCount then
    okOr state.versions[versionId]? (.invalid "v2 committed version is absent")
  else
    okOr transaction.versions[versionId - base.versionCount]?
      (.invalid "v2 referenced new version is absent")

/-- The turn of one node in `validate_nodes`: a branch is made from its children. -/
def validateNode (entry : V2NodeRecord × Nat) : Except V2ApplyError Unit :=
  let node := entry.1
  if node.height = 1 then .ok ()
  else do
    let nodeId ← okOr (checkedAdd 64 base.nodeCount entry.2)
      (.overflow "v2 apply node identifier exceeds u64")
    let encoded := encodeV2Node node
    let leftId ← okOr (readLe 8 encoded 16) (.invalid "v2 apply node field is truncated")
    let rightId ← okOr (readLe 8 encoded 24) (.invalid "v2 apply node field is truncated")
    failIf (leftId ≥ nodeId ∨ rightId ≥ nodeId)
      (.invalid "v2 apply branch child is not topologically prior")
    let left ← state.resolveNode base transaction leftId
    let right ← state.resolveNode base transaction rightId
    let leftRoot ← mapErr .format (V2RootRecord.fromNode leftId left)
    let rightRoot ← mapErr .format (V2RootRecord.fromNode rightId right)
    let expected ← mapErr .format (V2NodeRecord.branch sha256 leftRoot rightRoot)
    failIf (expected ≠ node)
      (.invalid "v2 apply branch metadata disagrees with committed children")

def validateNodes : Except V2ApplyError Unit :=
  transaction.nodes.zipIdx.forM (state.validateNode sha256 base transaction)

/-- The parent of a version can be resolved. -/
def validateVersionParent (parent : Nat) : Except V2ApplyError Unit := do
  let _ ← state.resolveVersion base transaction parent
  return ()

/-- The turn of one version in `validate_versions`. -/
def validateVersion (version : V2VersionRecord) : Except V2ApplyError Unit := do
  checkPresent (state.validateVersionParent base transaction) version.parentVersion
  let root := version.root
  let node ← state.resolveNode base transaction root.nodeId
  let expected ← mapErr .format (V2RootRecord.fromNode root.nodeId node)
  failIf (expected ≠ root)
    (.invalid "v2 apply version root disagrees with committed node metadata")

def validateVersions : Except V2ApplyError Unit :=
  transaction.versions.forM (state.validateVersion base transaction)

/-- The parent of a new checkpoint is live in the same thread. -/
def validateCheckpointParent (threadId parent : String) : Except V2ApplyError Unit :=
  failIf (state.checkpointOrdinals.containsKey (checkpointKey threadId parent) = false)
    (.invalid "v2 checkpoint parent is not a committed checkpoint in the same thread")

/-- The root of an optional version of a checkpoint. -/
def resolveOptionalRoot : Option Nat → Except V2ApplyError (Option V2RootRecord)
  | some version => do
    let record ← state.resolveVersion base transaction version
    return some record.root
  | none => .ok none

def validateCheckpoint : Except V2ApplyError Unit := do
  let checkpoint := transaction.checkpoint
  failIf (state.checkpointOrdinals.containsKey checkpoint.key = true)
    (.invalid "v2 checkpoint identity is already committed")
  failIf (state.deletedCheckpoints.containsKey checkpoint.key = true)
    (.invalid "v2 checkpoint identity was logically deleted")
  checkPresent (state.validateCheckpointParent checkpoint.threadId) checkpoint.parentCheckpointId
  let identity ← state.resolveVersion base transaction checkpoint.identityVersion
  let messages ← state.resolveOptionalRoot base transaction checkpoint.messagesVersion
  let result ← state.resolveOptionalRoot base transaction checkpoint.resultVersion
  let expectedState ← mapErr .publication
    (checkpointStateMetadata sha256 identity.root messages result)
  failIf (expectedState ≠ checkpoint.state)
    (.invalid "v2 checkpoint state commitment disagrees with committed version roots")

def validateAgainstCommittedState : Except V2ApplyError Unit := do
  state.validateNodes sha256 base transaction
  state.validateVersions base transaction
  state.validateCheckpoint sha256 base transaction

/-- A commit without request is always a new one. -/
def classifyCommit (requestId : Option Bytes) (operationDigest : Digest) :
    Except V2ApplyError V2RequestStatus :=
  match requestId with
  | some requestId => state.classifyRequest requestId operationDigest
  | none => .ok .new

end V2CommittedState

/-- The record of a request that a new commit carries. -/
def recordRequest (requestId : Option Bytes) (record : V2RequestRecord) : V2StateM Unit :=
  match requestId with
  | some requestId =>
    modify fun s => { s with requestRecords := s.requestRecords.insert requestId record }
  | none => pure ()

/-- The part of `apply_v2_commit` behind the classification of the request. -/
def appendCommit (decoded : V2DecodedCommit) : V2StateM V2ApplyOutcome := do
  let state ← get
  let current ← attempt state.geometry
  attempt (failIf (decoded.encodedBase ≠ current)
    (.invalid "v2 commit starting geometry disagrees with committed state"))
  let transaction := decoded.wal.transaction
  attempt (state.validateAgainstCommittedState sha256 decoded.encodedBase transaction)
  let checkpointOrdinal := current.checkpointCount
  modify fun s => { s with payload := s.payload ++ transaction.payload }
  modify fun s => { s with nodes := s.nodes ++ transaction.nodes }
  modify fun s => { s with versions := s.versions ++ transaction.versions }
  modify fun s => { s with checkpoints := s.checkpoints ++ [transaction.checkpoint] }
  modify fun s => { s with
    checkpointOrdinals := s.checkpointOrdinals.insert transaction.checkpoint.key checkpointOrdinal }
  recordRequest decoded.requestId ⟨decoded.operationDigest, checkpointOrdinal⟩
  return .applied checkpointOrdinal

def applyV2Commit (bytes : Bytes) : V2StateM V2ApplyOutcome := do
  let decoded ← attempt (mapErr .commit (decodeV2Commit sha256 bytes))
  let state ← get
  let status ← attempt (state.classifyCommit decoded.requestId decoded.operationDigest)
  match status with
  | .replay checkpointOrdinal => return .replayed checkpointOrdinal
  | .retired => return .retiredRequest
  | .new => appendCommit sha256 decoded

end Hash

end TulyaStore.V2
