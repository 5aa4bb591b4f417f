import TulyaStore.Sequence.Compaction
import TulyaStore.V2.State

/-!
# Compaction of the committed state

Deleting checkpoints leaves their versions, nodes and payload behind. Compaction
(`compaction_v2.rs`) keeps what the live checkpoints can still reach: their versions with all
ancestors, the nodes under the roots of these versions and the payload of the leaves among them.
Everything is numbered anew in its old order and built again from its parts. The generic core over
nodes and payload is the one of the arena.

The tables of the mapping are in ascending order, where the source searches them by bisection.
-/

namespace TulyaStore.V2

open Lib Sequence

/-- `diverged` stands for a loop that does not end, which no input reaches. -/
inductive V2CompactionError where
  | arena (error : V2AvlError)
  | format (error : V2FormatError)
  | publication (error : V2PublicationError)
  | commit (error : V2CommitError)
  | invalid (message : String)
  | overflow (message : String)
  | diverged
deriving DecidableEq, Repr

structure V2CompactionPlan where
  retainedVersions : List Nat
  retainedNodes : List Nat
  retainedPayloadRanges : List V2RetainedPayloadRange
deriving DecidableEq, Repr

structure V2VersionIdMapping where
  oldVersion : Nat
  newVersion : Nat
deriving DecidableEq, Repr

structure V2PreparedCompaction where
  payload : Bytes
  nodes : List V2NodeRecord
  versions : List V2VersionRecord
  checkpoints : List V2CheckpointRecord
  versionMapping : List V2VersionIdMapping
  nodeMapping : List V2NodeIdMapping
  payloadMapping : List V2PayloadRangeMapping
deriving DecidableEq, Repr

/-! ## Plan -/

/-- The loop state of `plan_retained_versions`; the head of the work list is popped next. -/
structure VersionPlanState where
  retained : List Nat
  worklist : List Nat
deriving DecidableEq, Repr

def claimVersion (plan : VersionPlanState) (versionId : Nat) : VersionPlanState :=
  if versionId ∈ plan.retained then plan
  else ⟨versionId :: plan.retained, versionId :: plan.worklist⟩

/-- The versions a checkpoint names. -/
def V2CheckpointRecord.versions (checkpoint : V2CheckpointRecord) : List Nat :=
  [checkpoint.identityVersion] ++ checkpoint.messagesVersion.toList ++
    checkpoint.resultVersion.toList

/-- The claims of a live checkpoint. -/
def claimCheckpoint (plan : VersionPlanState) (checkpoint : V2CheckpointRecord) :
    VersionPlanState :=
  checkpoint.versions.foldl claimVersion plan

/-- The visit of a popped version. -/
def planVersion (versions : List V2VersionRecord) (plan : VersionPlanState) (versionId : Nat) :
    Except V2CompactionError VersionPlanState := do
  let version ← okOr versions[versionId]?
    (.invalid "v2 compaction checkpoint references a nonexistent version")
  failIf (version.versionId ≠ versionId)
    (.invalid "v2 compaction version id disagrees with its vector coordinate")
  match version.parentVersion with
  | none => return plan
  | some parent => do
    failIf (parent ≥ versionId)
      (.invalid "v2 compaction version parent is not topologically prior")
    failIf (parent ≥ versions.length) (.invalid "v2 compaction version parent is absent")
    return claimVersion plan parent

def planVersionLoop (versions : List V2VersionRecord) :
    Nat → VersionPlanState → Except V2CompactionError VersionPlanState
  | 0, _ => .error .diverged
  | fuel + 1, plan =>
    match plan.worklist with
    | [] => .ok plan
    | versionId :: rest => do
      let next ← planVersion versions { plan with worklist := rest } versionId
      planVersionLoop versions fuel next

def planRetainedVersions (state : V2CommittedState) : Except V2CompactionError (List Nat) := do
  let plan ← planVersionLoop state.versions (state.versions.length + 2)
    (state.checkpoints.foldl claimCheckpoint ⟨[], []⟩)
  return plan.retained.insertionSort (· ≤ ·)

/-- The node under the root of a retained version. -/
def retainedSeed (versions : List V2VersionRecord) (versionId : Nat) :
    Except V2CompactionError Nat := do
  let version ← okOr versions[versionId]? (.invalid "v2 compaction retained version is absent")
  return version.root.nodeId

def planRetainedArena (state : V2CommittedState) (retainedVersions : List Nat) :
    Except V2CompactionError (List Nat × List V2RetainedPayloadRange) := do
  let seeds ← retainedVersions.mapM (retainedSeed state.versions)
  mapErr .arena (planReachableArena state.payload state.nodes seeds)

def planV2Compaction (state : V2CommittedState) : Except V2CompactionError V2CompactionPlan := do
  let retainedVersions ← planRetainedVersions state
  let (retainedNodes, retainedPayloadRanges) ← planRetainedArena state retainedVersions
  return ⟨retainedVersions, retainedNodes, retainedPayloadRanges⟩

/-! ## Rebuild -/

def remappedVersionId (mapping : List V2VersionIdMapping) (oldVersion : Nat) :
    Except V2CompactionError Nat := do
  let entry ← okOr (mapping.find? fun entry => entry.oldVersion = oldVersion)
    (.invalid "v2 compaction version reference has no compact mapping")
  return entry.newVersion

/-- The new number of an optional version. -/
def remappedOptionalVersion (mapping : List V2VersionIdMapping) :
    Option Nat → Except V2CompactionError (Option Nat)
  | some version => do
    let newVersion ← remappedVersionId mapping version
    return some newVersion
  | none => .ok none

/-- The loop state of `rebuild_compact_versions`. -/
structure RebuiltVersions where
  versions : List V2VersionRecord
  mapping : List V2VersionIdMapping
deriving DecidableEq, Repr

/-- The root of a retained version in the compact arena. -/
def rebuildRoot (compactNodes : List V2NodeRecord) (nodeMapping : List V2NodeIdMapping)
    (sourceRoot : V2RootRecord) : Except V2CompactionError V2RootRecord := do
  let newRootNode ← mapErr .arena (remappedNodeId nodeMapping sourceRoot.nodeId)
  let node ← okOr compactNodes[newRootNode]?
    (.invalid "v2 compaction remapped version root is absent")
  let newRoot ← mapErr .format (V2RootRecord.fromNode newRootNode node)
  failIf (newRoot.logicalLen ≠ sourceRoot.logicalLen ∨ newRoot.height ≠ sourceRoot.height ∨
      newRoot.commitment ≠ sourceRoot.commitment)
    (.invalid "v2 compaction rebuilt version root disagrees with source")
  return newRoot

def rebuildVersion (source : List V2VersionRecord) (compactNodes : List V2NodeRecord)
    (nodeMapping : List V2NodeIdMapping) (rebuilt : RebuiltVersions) (oldId : Nat) :
    Except V2CompactionError RebuiltVersions := do
  let old ← okOr source[oldId]?
    (.invalid "v2 compaction planned version is absent from the source table")
  failIf (old.versionId ≠ oldId)
    (.invalid "v2 compaction source version id disagrees with its vector coordinate")
  let newParent ← remappedOptionalVersion rebuilt.mapping old.parentVersion
  let newRoot ← rebuildRoot compactNodes nodeMapping old.root
  let newId ← okOr (tryFrom 32 rebuilt.versions.length)
    (.overflow "v2 compaction compact version identifier exceeds u32")
  let version ← mapErr .publication (V2VersionRecord.new newId newParent newRoot)
  return ⟨rebuilt.versions ++ [version], rebuilt.mapping ++ [⟨oldId, newId⟩]⟩

def rebuildCompactVersions (state : V2CommittedState) (retained : List Nat)
    (compactNodes : List V2NodeRecord) (nodeMapping : List V2NodeIdMapping) :
    Except V2CompactionError (List V2VersionRecord × List V2VersionIdMapping) := do
  let rebuilt ← retained.foldlM (rebuildVersion state.versions compactNodes nodeMapping) ⟨[], []⟩
  return (rebuilt.versions, rebuilt.mapping)

def compactVersionRoot (compactVersions : List V2VersionRecord) (versionId : Nat) :
    Except V2CompactionError V2RootRecord := do
  let version ← okOr compactVersions[versionId]? (.invalid "v2 compaction compact version is absent")
  return version.root

/-- The root of an optional version of a rebuilt checkpoint. -/
def compactOptionalRoot (compactVersions : List V2VersionRecord) :
    Option Nat → Except V2CompactionError (Option V2RootRecord)
  | some version => do
    let root ← compactVersionRoot compactVersions version
    return some root
  | none => .ok none

section Hash

variable (sha256 : Bytes → Digest)

def rebuildCheckpoint (compactVersions : List V2VersionRecord)
    (versionMapping : List V2VersionIdMapping) (old : V2CheckpointRecord) :
    Except V2CompactionError V2CheckpointRecord := do
  let newIdentity ← remappedVersionId versionMapping old.identityVersion
  let newMessages ← remappedOptionalVersion versionMapping old.messagesVersion
  let newResult ← remappedOptionalVersion versionMapping old.resultVersion
  let identityRoot ← compactVersionRoot compactVersions newIdentity
  let messagesRoot ← compactOptionalRoot compactVersions newMessages
  let resultRoot ← compactOptionalRoot compactVersions newResult
  let recomputed ← mapErr .publication
    (checkpointStateMetadata sha256 identityRoot messagesRoot resultRoot)
  failIf (recomputed ≠ old.state)
    (.invalid "v2 compaction rebuilt checkpoint state disagrees with source")
  let rebuilt : V2CheckpointRecord := { old with
    identityVersion := newIdentity
    messagesVersion := newMessages
    resultVersion := newResult }
  let rebuiltDigest ← mapErr .commit (checkpointOperationDigest sha256 rebuilt)
  let oldDigest ← mapErr .commit (checkpointOperationDigest sha256 old)
  failIf (rebuiltDigest ≠ oldDigest)
    (.invalid "v2 compaction rebuilt checkpoint operation digest disagrees with source")
  return rebuilt

def rebuildCompactCheckpoints (state : V2CommittedState) (compactVersions : List V2VersionRecord)
    (versionMapping : List V2VersionIdMapping) :
    Except V2CompactionError (List V2CheckpointRecord) :=
  state.checkpoints.mapM (rebuildCheckpoint sha256 compactVersions versionMapping)

def prepareV2Compaction (state : V2CommittedState) :
    Except V2CompactionError V2PreparedCompaction := do
  let plan ← planV2Compaction state
  let (payload, payloadMapping) ←
    mapErr .arena (repackCompactRanges state.payload plan.retainedPayloadRanges)
  let (nodes, nodeMapping) ← mapErr .arena
    (rebuildCompactRecords sha256 state.nodes plan.retainedNodes payload payloadMapping)
  let (versions, versionMapping) ←
    rebuildCompactVersions state plan.retainedVersions nodes nodeMapping
  let checkpoints ← rebuildCompactCheckpoints sha256 state versions versionMapping
  return ⟨payload, nodes, versions, checkpoints, versionMapping, nodeMapping, payloadMapping⟩

/-- `compact_v2_state`, with `apply_prepared_compaction` as its last step. -/
def compactV2State : EStateM V2CompactionError V2CommittedState Unit := do
  let state ← get
  let prepared ← attempt (prepareV2Compaction sha256 state)
  modify fun s => { s with
    payload := prepared.payload
    nodes := prepared.nodes
    versions := prepared.versions
    checkpoints := prepared.checkpoints }

end Hash

end TulyaStore.V2
