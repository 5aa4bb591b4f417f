import TulyaStore.V2.HotWal

/-!
# The backend

The committed state between a sealed base and the hot log behind it (`backend_v2.rs`): a state is
exported as one sealed snapshot, and recovered from a snapshot, which is validated as a whole, and
the hot frames that follow it.
-/

namespace TulyaStore.V2

open Lib Sequence

inductive V2BackendError where
  | apply (error : V2ApplyError)
  | image (error : V2ImageError)
  | recovery (error : V2RecoveryError)
  | snapshot (error : V2SnapshotError)
  | invalid (message : String)
  | overflow (message : String)
deriving DecidableEq, Repr

structure V2BackendRecovery where
  state : V2CommittedState
  baseGeometry : V2WalGeometry
  logicalHotTail : Nat
  hotCommitCount : Nat
  stop : V2RecoveryStop
deriving DecidableEq

/-! ## Export -/

/-- The turn of one checkpoint in `validate_checkpoint_index`. -/
def validateIndexed (state : V2CommittedState) (entry : V2CheckpointRecord × Nat) :
    Except V2BackendError Unit := do
  let ordinal ← okOr (tryFrom 64 entry.2) (.overflow "v2 checkpoint ordinal exceeds u64")
  failIf (state.checkpointOrdinals.get entry.1.key ≠ some ordinal)
    (.invalid "v2 checkpoint index disagrees with checkpoint table")
  failIf (state.deletedCheckpoints.containsKey entry.1.key = true)
    (.invalid "v2 checkpoint identity is both live and deleted")

def validateCheckpointIndex (state : V2CommittedState) : Except V2BackendError Unit := do
  failIf (state.checkpointOrdinals.size ≠ state.checkpoints.length)
    (.invalid "v2 checkpoint index cardinality disagrees with checkpoint table")
  state.checkpoints.zipIdx.forM (validateIndexed state)

def activeRequestRecords (state : V2CommittedState) :
    Except V2BackendError (List V2ActiveRequestRecord) :=
  state.requestRecords.entries.mapM fun entry => mapErr .snapshot
    (V2ActiveRequestRecord.new entry.1 entry.2.operationDigest entry.2.checkpointOrdinal)

def retiredRequestRecords (state : V2CommittedState) :
    Except V2BackendError (List V2RetiredRequestRecord) :=
  state.retiredRequests.entries.mapM fun entry => mapErr .snapshot
    (V2RetiredRequestRecord.new entry.1 entry.2)

def deletedCheckpointRecords (state : V2CommittedState) :
    Except V2BackendError (List V2DeletedCheckpointRecord) :=
  state.deletedCheckpoints.entries.mapM fun entry => mapErr .snapshot
    (V2DeletedCheckpointRecord.new (ofLex entry.1).1 (ofLex entry.1).2)

section Hash

variable (sha256 : Bytes → Digest)

/-- The export of a state without live checkpoints. -/
def exportTombstones (state : V2CommittedState) (geometry : V2WalGeometry) :
    Except V2BackendError (Option Bytes) := do
  failIf (geometry.payloadLen ≠ 0 ∨ geometry.nodeCount ≠ 0 ∨ geometry.versionCount ≠ 0 ∨
      state.requestRecords.size ≠ 0)
    (.invalid "tombstone-only v2 backend contains live semantic state")
  if state.retiredRequests.size = 0 ∧ state.deletedCheckpoints.size = 0 then return none
  else do
    let retiredRequests ← retiredRequestRecords state
    let deletedCheckpoints ← deletedCheckpointRecords state
    let bytes ← mapErr .snapshot
      (encodeV2SealedSnapshot sha256 ⟨[], [], [], [], retiredRequests, deletedCheckpoints⟩)
    return some bytes

/-- The export of a state with live checkpoints. -/
def exportLive (state : V2CommittedState) (geometry : V2WalGeometry) :
    Except V2BackendError (Option Bytes) := do
  failIf (geometry.versionCount = 0 ∨ geometry.nodeCount = 0 ∨ geometry.payloadLen = 0)
    (.invalid "non-empty v2 backend is missing persistent sequence state")
  let roots := state.versions.map V2VersionRecord.root
  let image ← mapErr .image (encodeV2Image sha256 ⟨state.payload, state.nodes, roots⟩)
  let activeRequests ← activeRequestRecords state
  let retiredRequests ← retiredRequestRecords state
  let deletedCheckpoints ← deletedCheckpointRecords state
  let bytes ← mapErr .snapshot (encodeV2SealedSnapshot sha256
    ⟨image, state.versions, state.checkpoints, activeRequests, retiredRequests, deletedCheckpoints⟩)
  return some bytes

def exportV2SealedState (state : V2CommittedState) : Except V2BackendError (Option Bytes) := do
  validateCheckpointIndex state
  let geometry ← mapErr .apply state.geometry
  if geometry.checkpointCount = 0 then exportTombstones sha256 state geometry
  else exportLive sha256 state geometry

/-! ## Import and recovery -/

/-- A map of keys that must all be different. -/
def insertDistinct {K V : Type} [LinearOrder K] (message : String) (map : KeyMap K V)
    (entry : K × V) : Except V2BackendError (KeyMap K V) := do
  failIf (map.containsKey entry.1 = true) (.invalid message)
  return map.insert entry.1 entry.2

/-- The turn of one checkpoint in the index of an import. -/
def indexImported (ordinals : KeyMap V2CheckpointKey Nat) (entry : V2CheckpointRecord × Nat) :
    Except V2BackendError (KeyMap V2CheckpointKey Nat) := do
  let ordinal ← okOr (tryFrom 64 entry.2) (.overflow "v2 checkpoint ordinal exceeds u64")
  insertDistinct "validated v2 snapshot contains duplicate checkpoint identity" ordinals
    (entry.1.key, ordinal)

/-- The payload and the nodes of the image of a snapshot. -/
def importedArena (image : Bytes) : Except V2BackendError (Bytes × List V2NodeRecord) :=
  if image = [] then .ok ([], [])
  else do
    let image ← mapErr .image (decodeV2Image sha256 image)
    return (image.payload, image.nodes)

def importV2SealedState (bytes : Bytes) : Except V2BackendError V2CommittedState := do
  let snapshot ← mapErr .snapshot (decodeV2SealedSnapshot sha256 bytes)
  let (payload, nodes) ← importedArena sha256 snapshot.image
  let checkpointOrdinals ← snapshot.checkpoints.zipIdx.foldlM indexImported .empty
  let requestRecords ← (snapshot.activeRequests.map fun record =>
      (record.requestId, ⟨record.operationDigest, record.checkpointOrdinal⟩)).foldlM
    (insertDistinct "validated v2 snapshot contains duplicate active request identity") .empty
  let retiredRequests ← (snapshot.retiredRequests.map fun record =>
      (record.requestId, record.operationDigest)).foldlM
    (insertDistinct "validated v2 snapshot contains duplicate retired request identity") .empty
  let deletedCheckpoints ← (snapshot.deletedCheckpoints.map fun record => (record.key, ())).foldlM
    (insertDistinct "validated v2 snapshot contains duplicate deleted checkpoint identity") .empty
  let state : V2CommittedState := ⟨payload, nodes, snapshot.versions, snapshot.checkpoints,
    checkpointOrdinals, requestRecords, retiredRequests, deletedCheckpoints⟩
  let _ ← mapErr .apply state.geometry
  return state

/-- The state in front of the hot suffix. -/
def sealedBase : Option Bytes → Except V2BackendError V2CommittedState
  | some bytes => importV2SealedState sha256 bytes
  | none => .ok .empty

def recoverV2Backend (sealedSnapshot : Option Bytes) (hotBytes : Bytes) :
    Except V2BackendError V2BackendRecovery := do
  let state ← sealedBase sha256 sealedSnapshot
  let baseGeometry ← mapErr .apply state.geometry
  let recovered ← mapErr .recovery (recoverV2HotWal sha256 hotBytes state)
  return ⟨recovered.state, baseGeometry, recovered.logicalTail, recovered.commitCount,
    recovered.stop⟩

end Hash

end TulyaStore.V2
