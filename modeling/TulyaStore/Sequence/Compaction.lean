import Mathlib.Data.List.Sort
import TulyaStore.Sequence.Physical

/-!
# Compaction of an arena

The generic core of the collector (`compaction_v2.rs`): the nodes reachable from the seeds are
marked, the payload ranges of the marked leaves are copied together, and every marked record is
built again over its new children. `compactPhysicalGeneration` (`physical.rs`) does this for the
files of a physical generation.

The mark phase claims a node before it visits it, so the number of nodes bounds its turns. The
tables are in ascending order, where the source searches them by bisection.
-/

namespace TulyaStore.Sequence

open Lib

structure V2RetainedPayloadRange where
  offset : Nat
  length : Nat
deriving DecidableEq, Repr

structure V2NodeIdMapping where
  oldNode : Nat
  newNode : Nat
deriving DecidableEq, Repr

structure V2PayloadRangeMapping where
  oldOffset : Nat
  length : Nat
  newOffset : Nat
deriving DecidableEq, Repr

/-! ## Mark -/

/-- The loop state of `plan_reachable_arena`; the head of the work list is popped next. -/
structure PlanState where
  retained : List Nat
  worklist : List Nat
  ranges : List V2RetainedPayloadRange
deriving DecidableEq, Repr

/-- `claim_node` -/
def claimNode (state : PlanState) (nodeId : Nat) : PlanState :=
  if nodeId ∈ state.retained then state
  else { state with retained := nodeId :: state.retained, worklist := nodeId :: state.worklist }

/-- The visit of a popped node. -/
def planNode (arenaLen : Nat) (nodes : List V2NodeRecord) (state : PlanState) (nodeId : Nat) :
    Except V2AvlError PlanState := do
  let node ← okOr nodes[nodeId]?
    (.invalid "v2 compaction node reference is outside the node table")
  match ← v2NodeFields node with
  | .leaf payloadOffset payloadLen =>
    failIf (payloadLen = 0) (.invalid "v2 compaction leaf payload length is zero")
    let stop ← okOr (checkedAdd 64 payloadOffset payloadLen)
      (.overflow "v2 compaction leaf payload range exceeds u64")
    failIf (stop > arenaLen)
      (.invalid "v2 compaction leaf payload range is outside the payload arena")
    return { state with ranges := state.ranges ++ [⟨payloadOffset, payloadLen⟩] }
  | .branch leftNodeId rightNodeId _ =>
    failIf (leftNodeId ≥ nodeId ∨ rightNodeId ≥ nodeId)
      (.invalid "v2 compaction branch child is not topologically prior")
    return claimNode (claimNode state leftNodeId) rightNodeId

def planLoop (arenaLen : Nat) (nodes : List V2NodeRecord) :
    Nat → PlanState → Except V2AvlError PlanState
  | 0, _ => .error .diverged
  | fuel + 1, state =>
    match state.worklist with
    | [] => return state
    | nodeId :: rest => do
      let next ← planNode arenaLen nodes { state with worklist := rest } nodeId
      planLoop arenaLen nodes fuel next

/-- The order of the ranges: by offset, then by length. -/
def rangeLe (left right : V2RetainedPayloadRange) : Prop :=
  left.offset < right.offset ∨ left.offset = right.offset ∧ left.length ≤ right.length

instance : DecidableRel rangeLe := fun left right => by
  unfold rangeLe
  infer_instance

/-- `plan_reachable_arena` -/
def planReachableArena (payload : Bytes) (nodes : List V2NodeRecord) (seeds : List Nat) :
    Except V2AvlError (List Nat × List V2RetainedPayloadRange) := do
  let arenaLen ← okOr (tryFrom 64 payload.length)
    (.overflow "v2 compaction payload length exceeds u64")
  let plan ← planLoop arenaLen nodes (nodes.length + 2) (seeds.foldl claimNode ⟨[], [], []⟩)
  return (plan.retained.insertionSort (· ≤ ·), plan.ranges.insertionSort rangeLe)

/-! ## Repack -/

/-- The loop state of `repack_compact_ranges`. -/
structure RepackState where
  compact : Bytes
  mapping : List V2PayloadRangeMapping
  previousEnd : Nat
deriving DecidableEq, Repr

def repackRange (payload : Bytes) (state : RepackState) (range : V2RetainedPayloadRange) :
    Except V2AvlError RepackState := do
  failIf (range.offset < state.previousEnd)
    (.invalid "v2 compaction retained payload ranges overlap or duplicate")
  let stop ← okOr (checkedAdd 64 range.offset range.length)
    (.overflow "v2 compaction retained payload range exceeds u64")
  let bytes ← okOr (slice payload range.offset stop)
    (.invalid "v2 compaction retained payload range is outside the source payload")
  let newOffset ← okOr (tryFrom 64 state.compact.length)
    (.overflow "v2 compaction compact payload offset exceeds u64")
  return ⟨state.compact ++ bytes, state.mapping ++ [⟨range.offset, range.length, newOffset⟩], stop⟩

/-- `repack_compact_ranges`; its sum of the lengths fails with one error wherever it
overflows. -/
def repackCompactRanges (payload : Bytes) (ranges : List V2RetainedPayloadRange) :
    Except V2AvlError (Bytes × List V2PayloadRangeMapping) := do
  let _ ← okOr (tryFrom 64 (ranges.map V2RetainedPayloadRange.length).sum)
    (.overflow "v2 compaction compact payload length exceeds u64")
  let state ← ranges.foldlM (repackRange payload) ⟨[], [], 0⟩
  return (state.compact, state.mapping)

/-! ## Rebuild -/

def remappedNodeId (mapping : List V2NodeIdMapping) (oldNode : Nat) : Except V2AvlError Nat := do
  let entry ← okOr (mapping.find? fun entry => entry.oldNode = oldNode)
    (.invalid "v2 compaction node reference has no compact mapping")
  return entry.newNode

def remappedPayloadOffset (mapping : List V2PayloadRangeMapping) (oldOffset length : Nat) :
    Except V2AvlError Nat := do
  let entry ← okOr (mapping.find? fun entry => entry.oldOffset = oldOffset ∧ entry.length = length)
    (.invalid "v2 compaction payload range has no compact mapping")
  return entry.newOffset

/-- The checks of a rebuilt record against its source; the texts name the kind. -/
def requireSameNode (rebuilt old : V2NodeRecord) (height logicalLen commitment : String) :
    Except V2AvlError Unit := do
  failIf (rebuilt.height ≠ old.height) (.invalid height)
  failIf (rebuilt.logicalLen ≠ old.logicalLen) (.invalid logicalLen)
  failIf (rebuilt.commitment ≠ old.commitment) (.invalid commitment)

section Rebuild

variable (sha256 : Bytes → Digest)

def rebuildLeaf (compactPayload : Bytes) (payloadMapping : List V2PayloadRangeMapping)
    (old : V2NodeRecord) (payloadOffset payloadLen : Nat) : Except V2AvlError V2NodeRecord := do
  let newOffset ← remappedPayloadOffset payloadMapping payloadOffset payloadLen
  let stop ← okOr (checkedAdd 64 newOffset payloadLen)
    (.overflow "v2 compaction compact payload range exceeds usize")
  let bytes ← okOr (slice compactPayload newOffset stop)
    (.invalid "v2 compaction compact payload range is outside the compact payload")
  let rebuilt ← liftFormat (V2NodeRecord.leaf sha256 newOffset bytes)
  requireSameNode rebuilt old "v2 compaction rebuilt leaf height disagrees with source"
    "v2 compaction rebuilt leaf logical length disagrees with source"
    "v2 compaction rebuilt leaf commitment disagrees with source"
  return rebuilt

/-- The root of a child in the compact table. -/
def remappedChild (rebuiltNodes : List V2NodeRecord) (newNode : Nat) (absent : String) :
    Except V2AvlError V2RootRecord := do
  let record ← okOr rebuiltNodes[newNode]? (.invalid absent)
  liftFormat (V2RootRecord.fromNode newNode record)

def rebuildBranch (rebuiltNodes : List V2NodeRecord) (mapping : List V2NodeIdMapping)
    (old : V2NodeRecord) (leftNodeId rightNodeId leftLen : Nat) :
    Except V2AvlError V2NodeRecord := do
  let newLeft ← remappedNodeId mapping leftNodeId
  let newRight ← remappedNodeId mapping rightNodeId
  let leftRoot ← remappedChild rebuiltNodes newLeft "v2 compaction remapped left child is absent"
  let rightRoot ← remappedChild rebuiltNodes newRight
    "v2 compaction remapped right child is absent"
  let rebuilt ← liftFormat (V2NodeRecord.branch sha256 leftRoot rightRoot)
  requireSameNode rebuilt old "v2 compaction rebuilt branch height disagrees with source"
    "v2 compaction rebuilt branch logical length disagrees with source"
    "v2 compaction rebuilt branch commitment disagrees with source"
  match ← v2NodeFields rebuilt with
  | .branch _ _ rebuiltLeftLen =>
    failIf (rebuiltLeftLen ≠ leftLen)
      (.invalid "v2 compaction rebuilt branch left length disagrees with source")
    return rebuilt
  | .leaf _ _ => throw (.invalid "v2 compaction rebuilt branch decoded as a leaf")

/-- The loop state of `rebuild_compact_records`. -/
structure RebuildState where
  rebuiltNodes : List V2NodeRecord
  mapping : List V2NodeIdMapping
deriving DecidableEq, Repr

def rebuildNode (nodes : List V2NodeRecord) (compactPayload : Bytes)
    (payloadMapping : List V2PayloadRangeMapping) (state : RebuildState) (oldId : Nat) :
    Except V2AvlError RebuildState := do
  let old ← okOr nodes[oldId]?
    (.invalid "v2 compaction planned node is absent from the source table")
  let fields ← v2NodeFields old
  let rebuilt ← match fields with
    | .leaf payloadOffset payloadLen =>
      rebuildLeaf sha256 compactPayload payloadMapping old payloadOffset payloadLen
    | .branch leftNodeId rightNodeId leftLen =>
      rebuildBranch sha256 state.rebuiltNodes state.mapping old leftNodeId rightNodeId leftLen
  let newId ← okOr (tryFrom 64 state.rebuiltNodes.length)
    (.overflow "v2 compaction compact node identifier exceeds u64")
  return ⟨state.rebuiltNodes ++ [rebuilt], state.mapping ++ [⟨oldId, newId⟩]⟩

/-- `rebuild_compact_records` -/
def rebuildCompactRecords (nodes : List V2NodeRecord) (retained : List Nat)
    (compactPayload : Bytes) (payloadMapping : List V2PayloadRangeMapping) :
    Except V2AvlError (List V2NodeRecord × List V2NodeIdMapping) := do
  let state ← retained.foldlM (rebuildNode sha256 nodes compactPayload payloadMapping) ⟨[], []⟩
  return (state.rebuiltNodes, state.mapping)

end Rebuild

/-! ## An arena in memory -/

/-- `compact_arena_node`, over the nodes built before. -/
def compactArenaNode (built : List ArenaNode) (record : V2NodeRecord) :
    Except V2AvlError ArenaNode := do
  match ← v2NodeFields record with
  | .leaf payloadOffset payloadLen => return .leaf payloadOffset payloadLen record
  | .branch leftNodeId rightNodeId _ =>
    let left ← okOr built[leftNodeId]? (.invalid "v2 history compaction branch child is absent")
    let right ← okOr built[rightNodeId]? (.invalid "v2 history compaction branch child is absent")
    let leftRoot ← liftFormat (V2RootRecord.fromNode leftNodeId left.record)
    let rightRoot ← liftFormat (V2RootRecord.fromNode rightNodeId right.record)
    return .branch leftRoot rightRoot record

def pushCompactNode (built : List ArenaNode) (record : V2NodeRecord) :
    Except V2AvlError (List ArenaNode) := do
  let node ← compactArenaNode built record
  return built ++ [node]

/-- The root in the compact arena. -/
def remappedRoot (nodes : List ArenaNode) (mapping : List V2NodeIdMapping) (root : V2RootRecord) :
    Except V2AvlError V2RootRecord := do
  let newId ← remappedNodeId mapping root.nodeId
  let node ← okOr nodes[newId]? (.invalid "v2 history compaction remapped root is absent")
  liftFormat (V2RootRecord.fromNode newId node.record)

def checkRelocatedRoot (pair : V2RootRecord × V2RootRecord) : Except V2AvlError Unit :=
  failIf (pair.1.commitment ≠ pair.2.commitment ∨ pair.1.logicalLen ≠ pair.2.logicalLen)
    (.invalid "v2 history compaction root disagrees with its source")

/-- A root that does not belong to the arena is refused. -/
def requireRoot (arena : V2AvlSequence) (root : V2RootRecord) : Except V2AvlError Unit := do
  let _ ← nodeForRootOn arena root
  return ()

/-- `compact_to_roots` -/
def compactToRoots (sha256 : Bytes → Digest) (arena : V2AvlSequence) (roots : List V2RootRecord) :
    Except V2AvlError (V2AvlSequence × List V2RootRecord) := do
  roots.forM (requireRoot arena)
  let records := arena.nodes.map ArenaNode.record
  let (retained, ranges) ←
    planReachableArena arena.payload records (roots.map V2RootRecord.nodeId)
  let (compactPayload, payloadMapping) ← repackCompactRanges arena.payload ranges
  let (compactRecords, nodeMapping) ←
    rebuildCompactRecords sha256 records retained compactPayload payloadMapping
  let nodes ← compactRecords.foldlM pushCompactNode []
  failIf (nodes.length ≠ retained.length)
    (.invalid "v2 history compaction node table disagrees with its retained set")
  let newRoots ← roots.mapM (remappedRoot nodes nodeMapping)
  (roots.zip newRoots).forM checkRelocatedRoot
  return (⟨compactPayload, nodes⟩, newRoots)

/-! ## A physical generation -/

namespace PhysicalContentStore

def readAllPayload (store : PhysicalContentStore) : Except V2AvlError Bytes :=
  store.readPayloadRange 0 store.committedPayloadEnd

def loadAllRecords (store : PhysicalContentStore) : Except V2AvlError (List V2NodeRecord) :=
  (List.range store.committedNodeCount).mapM store.loadRecord

end PhysicalContentStore

def checkSeed (source : PhysicalContentStore) (root : V2RootRecord) : Except V2AvlError Unit := do
  let record ← source.loadRecord root.nodeId
  let canonical ← liftFormat (V2RootRecord.fromNode root.nodeId record)
  failIf (canonical ≠ root) (.invalid "history physical GC seed disagrees with its record")

/-- The seed in the compact table. -/
def remappedSeed (records : List V2NodeRecord) (mapping : List V2NodeIdMapping)
    (root : V2RootRecord) : Except V2AvlError V2RootRecord := do
  let newId ← remappedNodeId mapping root.nodeId
  remappedChild records newId "history physical GC remapped root is absent"

def checkRelocated (pair : V2RootRecord × V2RootRecord) : Except V2AvlError Unit :=
  failIf (pair.1.commitment ≠ pair.2.commitment ∨ pair.1.logicalLen ≠ pair.2.logicalLen)
    (.invalid "history physical GC root disagrees with its source")

/-- What `compact_physical_generation` computes in front of its writes. -/
def planPhysicalGeneration (sha256 : Bytes → Digest) (source : PhysicalContentStore)
    (seeds : List V2RootRecord) :
    Except V2AvlError (Bytes × List V2NodeRecord × List V2NodeIdMapping) := do
  seeds.forM (checkSeed source)
  let records ← source.loadAllRecords
  let payload ← source.readAllPayload
  let (retained, ranges) ← planReachableArena payload records (seeds.map V2RootRecord.nodeId)
  let (compactPayload, payloadMapping) ← repackCompactRanges payload ranges
  let (compactRecords, nodeMapping) ←
    rebuildCompactRecords sha256 records retained compactPayload payloadMapping
  failIf (compactRecords.length ≠ retained.length)
    (.invalid "history physical GC node table disagrees with its retained set")
  return (compactPayload, compactRecords, nodeMapping)

/-- What it computes behind them. -/
def relocateSeeds (seeds : List V2RootRecord) (compactRecords : List V2NodeRecord)
    (nodeMapping : List V2NodeIdMapping) : Except V2AvlError (List V2RootRecord) := do
  let roots ← seeds.mapM (remappedSeed compactRecords nodeMapping)
  (seeds.zip roots).forM checkRelocated
  return roots

end TulyaStore.Sequence
