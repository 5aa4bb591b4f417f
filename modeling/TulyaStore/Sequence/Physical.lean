import TulyaStore.Sequence.NodeCodec

/-!
# The file-backed content store

The content store of one physical generation (`physical.rs`): a payload file and a node
file, each a header followed by dense data, and the committed frontier up to which they may
be read. A splice is prepared on a `DeltaView`, which overlays the frontier with fresh
payload and node records, then appended to the files and adopted.

A file is the bytes behind its handle; a store that was opened before its files exist has
none, and the first mutation creates them. Reads count no I/O here, and files are shorter
than `2 ^ 64` bytes, so positions inside them do not overflow.
-/

namespace TulyaStore.Sequence

open Lib

def physicalPayloadMagic : Bytes := ascii "TPC1"

def physicalNodeMagic : Bytes := ascii "TNC1"

/-- `PHYSICAL_HEADER_SIZE` -/
def physicalHeaderSize : Nat := 16

/-- `PHYSICAL_NODE_RECORD_SIZE` -/
def physicalNodeRecordSize : Nat := v2NodeRecordSize

def physicalDeltaDigestDomain : Bytes := ascii "tulya-history/staging/physical-delta\x00"

def encodeHeader (magic : Bytes) (generation : Nat) : Bytes :=
  magic ++ leBytes 8 generation ++ [0, 0, 0, 0]

/-- `read_exact_at`: reading nothing succeeds at any offset. -/
def readExactAt (file : Bytes) (offset len : Nat) : Option Bytes :=
  if len = 0 then some [] else slice file offset (offset + len)

structure PhysicalContentStore where
  generation : Nat
  payload : Option Bytes
  nodes : Option Bytes
  committedPayloadEnd : Nat
  committedNodeCount : Nat
deriving DecidableEq, Repr

namespace PhysicalContentStore

def createNew (generation : Nat) : PhysicalContentStore :=
  ⟨generation, some (encodeHeader physicalPayloadMagic generation),
    some (encodeHeader physicalNodeMagic generation), 0, 0⟩

/-- `open_deferred`: no files yet. -/
def openDeferred (generation : Nat) : PhysicalContentStore := ⟨generation, none, none, 0, 0⟩

def absent : V2AvlError := .invalid "history physical content files are absent"

def payloadFile (store : PhysicalContentStore) : Except V2AvlError Bytes :=
  okOr store.payload absent

def nodesFile (store : PhysicalContentStore) : Except V2AvlError Bytes :=
  okOr store.nodes absent

/-- `ensure_open`: the files are created when they are missing and nothing is committed.
`ensure_writable` adds only the reopening of the same files. -/
def ensureOpen (store : PhysicalContentStore) : Except V2AvlError PhysicalContentStore :=
  if store.payload = none ∨ store.nodes = none then do
    failIf (store.committedPayloadEnd ≠ 0 ∨ store.committedNodeCount ≠ 0) absent
    return { store with
      payload := (createNew store.generation).payload
      nodes := (createNew store.generation).nodes }
  else return store

/-- The file lengths the committed frontier stands for. -/
def expectedPayload (store : PhysicalContentStore) : Except V2AvlError Nat :=
  okOr (checkedAdd 64 physicalHeaderSize store.committedPayloadEnd)
    (.overflow "history physical payload frontier exceeds u64")

def expectedNodes (store : PhysicalContentStore) : Except V2AvlError Nat := do
  let bytes ← okOr (checkedMul 64 store.committedNodeCount physicalNodeRecordSize)
    (.overflow "history physical node frontier exceeds u64")
  okOr (checkedAdd 64 physicalHeaderSize bytes)
    (.overflow "history physical node frontier exceeds u64")

/-- `heal_for_write`: orphan tails behind the frontier are cut off. -/
def healForWrite (store : PhysicalContentStore) : Except V2AvlError PhysicalContentStore := do
  let store ← store.ensureOpen
  let expectedPayload ← store.expectedPayload
  let expectedNodes ← store.expectedNodes
  let payload ← okOr store.payload (.invalid "history physical orphan-tail healing failed")
  let nodes ← okOr store.nodes (.invalid "history physical orphan-tail healing failed")
  failIf (payload.length < expectedPayload ∨ nodes.length < expectedNodes)
    (.invalid "history physical content is shorter than its authoritative frontier")
  return { store with
    payload := some (payload.take expectedPayload)
    nodes := some (nodes.take expectedNodes) }

def loadRecord (store : PhysicalContentStore) (nodeId : Nat) :
    Except V2AvlError V2NodeRecord := do
  failIf (nodeId ≥ store.committedNodeCount)
    (.invalid "history physical node identifier is outside the committed frontier")
  let bytes ← okOr (checkedMul 64 nodeId physicalNodeRecordSize)
    (.overflow "history physical node offset exceeds u64")
  let offset ← okOr (checkedAdd 64 physicalHeaderSize bytes)
    (.overflow "history physical node offset exceeds u64")
  let file ← store.nodesFile
  let bytes ← okOr (readExactAt file offset physicalNodeRecordSize)
    (.invalid "history physical node read failed")
  liftFormat (decodeV2Node bytes)

def readPayloadRange (store : PhysicalContentStore) (start stop : Nat) :
    Except V2AvlError Bytes := do
  failIf (stop < start) (.invalid "history physical payload range is inverted")
  failIf (stop > store.committedPayloadEnd)
    (.invalid "history physical payload range is outside the committed frontier")
  let offset ← okOr (checkedAdd 64 physicalHeaderSize start)
    (.overflow "history physical payload offset exceeds u64")
  let file ← store.payloadFile
  okOr (readExactAt file offset (stop - start)) (.invalid "history physical payload read failed")

/-- `append_payload_delta`: at the end of the file, which must be the frontier. -/
def appendPayloadDelta (store : PhysicalContentStore) (bytes : Bytes) :
    Except V2AvlError PhysicalContentStore := do
  let store ← store.ensureOpen
  if bytes.isEmpty then return store
  else
    let expected ← store.expectedPayload
    let file ← store.payloadFile
    failIf (file.length ≠ expected)
      (.invalid "history physical payload file disagrees with its committed frontier")
    return { store with payload := some (file ++ bytes) }

def appendNodeDelta (store : PhysicalContentStore) (bytes : Bytes) :
    Except V2AvlError PhysicalContentStore :=
  if bytes.isEmpty then return store
  else do
    failIf (bytes.length % physicalNodeRecordSize ≠ 0)
      (.invalid "history physical node delta is not record-aligned")
    let expected ← store.expectedNodes
    let store ← store.ensureOpen
    let file ← store.nodesFile
    failIf (file.length ≠ expected)
      (.invalid "history physical node file disagrees with its committed frontier")
    return { store with nodes := some (file ++ bytes) }

def adoptFrontiers (store : PhysicalContentStore) (payloadEnd nodeCount : Nat) :
    PhysicalContentStore :=
  { store with committedPayloadEnd := payloadEnd, committedNodeCount := nodeCount }

/-- `build_arena_node` -/
def buildArenaNode (store : PhysicalContentStore) (nodeId : Nat) (record : V2NodeRecord) :
    Except V2AvlError ArenaNode := do
  match ← v2NodeFields record with
  | .leaf payloadOffset payloadLen =>
    let stop ← okOr (checkedAdd 64 payloadOffset payloadLen)
      (.overflow "v2 leaf payload range exceeds u64")
    failIf (stop > store.committedPayloadEnd)
      (.invalid "history physical leaf references payload outside the committed frontier")
    return .leaf payloadOffset payloadLen record
  | .branch leftNodeId rightNodeId leftLen =>
    failIf (leftNodeId ≥ nodeId ∨ rightNodeId ≥ nodeId)
      (.invalid "history physical branch child must reference an earlier node")
    let leftRecord ← store.loadRecord leftNodeId
    let rightRecord ← store.loadRecord rightNodeId
    let left ← liftFormat (V2RootRecord.fromNode leftNodeId leftRecord)
    let right ← liftFormat (V2RootRecord.fromNode rightNodeId rightRecord)
    failIf (left.logicalLen ≠ leftLen)
      (.invalid "history physical branch left length disagrees with its child")
    return .branch left right record

def loadNode (store : PhysicalContentStore) (nodeId : Nat) : Except V2AvlError ArenaNode := do
  let record ← store.loadRecord nodeId
  store.buildArenaNode nodeId record

/-- `rollback_to_committed`; its success flag is not used by the arena interface. -/
def rollbackToCommitted (store : PhysicalContentStore) : PhysicalContentStore :=
  match store.expectedPayload, store.expectedNodes with
  | .ok expectedPayload, .ok expectedNodes =>
    { store with
      payload := store.payload.map (List.take expectedPayload)
      nodes := store.nodes.map (List.take expectedNodes) }
  | _, _ => store

def appendPayload (bytes : Bytes) : EStateM V2AvlError PhysicalContentStore Nat := fun store =>
  match store.appendPayloadDelta bytes with
  | .error e => .error e store
  | .ok next =>
    match checkedAdd 64 store.committedPayloadEnd bytes.length with
    | none => .error (.overflow "history physical payload frontier exceeds u64") next
    | some stop => .ok store.committedPayloadEnd { next with committedPayloadEnd := stop }

def pushNode (node : ArenaNode) : EStateM V2AvlError PhysicalContentStore Nat := fun store =>
  match store.appendNodeDelta (encodeV2Node node.record) with
  | .error e => .error e store
  | .ok next =>
    match checkedAdd 64 store.committedNodeCount 1 with
    | none => .error (.overflow "v2 node arena length exceeds u64") next
    | some count => .ok store.committedNodeCount { next with committedNodeCount := count }

instance : ArenaStore PhysicalContentStore where
  arenaPayloadLen store := store.committedPayloadEnd
  arenaNodeCount store := store.committedNodeCount
  arenaLoadNode := loadNode
  arenaReadPayload := readPayloadRange
  arenaAppendPayload := appendPayload
  arenaPushNode := pushNode
  arenaTruncate store _ _ := store.rollbackToCommitted

end PhysicalContentStore

/-! ## The preparation view -/

/-- Committed files overlaid with uncommitted payload and node records. -/
structure DeltaView where
  base : PhysicalContentStore
  basePayloadEnd : Nat
  baseNodeCount : Nat
  payloadDelta : Bytes
  nodeDelta : Bytes
deriving DecidableEq, Repr

namespace DeltaView

def new (base : PhysicalContentStore) : DeltaView :=
  ⟨base, base.committedPayloadEnd, base.committedNodeCount, [], []⟩

def deltaNodeCount (view : DeltaView) : Nat := view.nodeDelta.length / physicalNodeRecordSize

def loadDeltaRecord (view : DeltaView) (nodeId : Nat) : Except V2AvlError V2NodeRecord := do
  failIf (nodeId < view.baseNodeCount) (.invalid "history physical delta node is outside its range")
  let start ← okOr (checkedMul 64 (nodeId - view.baseNodeCount) physicalNodeRecordSize)
    (.overflow "history physical delta node offset exceeds u64")
  let stop ← okOr (checkedAdd 64 start physicalNodeRecordSize)
    (.overflow "v2 payload end exceeds usize")
  let bytes ← okOr (slice view.nodeDelta start stop)
    (.invalid "history physical delta node is outside its range")
  liftFormat (decodeV2Node bytes)

def childRecord (view : DeltaView) (id : Nat) : Except V2AvlError V2NodeRecord :=
  if id < view.baseNodeCount then view.base.loadRecord id else view.loadDeltaRecord id

/-- `build_delta_arena_node` -/
def buildDeltaArenaNode (view : DeltaView) (nodeId : Nat) (record : V2NodeRecord) :
    Except V2AvlError ArenaNode := do
  match ← v2NodeFields record with
  | .leaf payloadOffset payloadLen =>
    let newEnd ← okOr (checkedAdd 64 view.basePayloadEnd view.payloadDelta.length)
      (.overflow "history physical payload frontier exceeds u64")
    failIf (payloadOffset < view.basePayloadEnd)
      (.invalid "history physical delta leaf references payload outside its range")
    let stop ← okOr (checkedAdd 64 payloadOffset payloadLen)
      (.overflow "v2 leaf payload range exceeds u64")
    failIf (stop > newEnd)
      (.invalid "history physical delta leaf references payload outside its range")
    return .leaf payloadOffset payloadLen record
  | .branch leftNodeId rightNodeId leftLen =>
    failIf (leftNodeId ≥ nodeId ∨ rightNodeId ≥ nodeId)
      (.invalid "history physical delta branch child must reference an earlier node")
    let leftRecord ← view.childRecord leftNodeId
    let left ← liftFormat (V2RootRecord.fromNode leftNodeId leftRecord)
    let rightRecord ← view.childRecord rightNodeId
    let right ← liftFormat (V2RootRecord.fromNode rightNodeId rightRecord)
    failIf (left.logicalLen ≠ leftLen)
      (.invalid "history physical delta branch left length disagrees with its child")
    return .branch left right record

def loadNode (view : DeltaView) (nodeId : Nat) : Except V2AvlError ArenaNode :=
  if nodeId < view.baseNodeCount then do
    let record ← view.base.loadRecord nodeId
    view.base.buildArenaNode nodeId record
  else do
    let record ← view.loadDeltaRecord nodeId
    view.buildDeltaArenaNode nodeId record

/-- The part of a payload read that starts at or behind the committed frontier. -/
def readDelta (view : DeltaView) (start stop : Nat) : Except V2AvlError Bytes :=
  okOr (slice view.payloadDelta (start - view.basePayloadEnd) (stop - view.basePayloadEnd))
    (.invalid "history physical delta payload range is outside its range")

def readPayload (view : DeltaView) (start stop : Nat) : Except V2AvlError Bytes :=
  if stop ≤ view.basePayloadEnd then view.base.readPayloadRange start stop
  else if start ≥ view.basePayloadEnd then view.readDelta start stop
  else do
    let first ← view.base.readPayloadRange start view.basePayloadEnd
    let second ← view.readDelta view.basePayloadEnd stop
    return first ++ second

def appendPayload (bytes : Bytes) : EStateM V2AvlError DeltaView Nat := fun view =>
  match checkedAdd 64 view.basePayloadEnd view.payloadDelta.length with
  | none => .error (.overflow "history physical payload frontier exceeds u64") view
  | some offset => .ok offset { view with payloadDelta := view.payloadDelta ++ bytes }

def pushNode (node : ArenaNode) : EStateM V2AvlError DeltaView Nat := fun view =>
  match checkedAdd 64 view.baseNodeCount view.deltaNodeCount with
  | none => .error (.overflow "v2 node arena length exceeds u64") view
  | some nodeId => .ok nodeId { view with nodeDelta := view.nodeDelta ++ encodeV2Node node.record }

def truncate (view : DeltaView) (payloadLen nodeCount : Nat) : DeltaView :=
  { view with
    payloadDelta := view.payloadDelta.take (payloadLen - view.basePayloadEnd)
    nodeDelta := view.nodeDelta.take ((nodeCount - view.baseNodeCount) * physicalNodeRecordSize) }

instance : ArenaStore DeltaView where
  arenaPayloadLen view :=
    (checkedAdd 64 view.basePayloadEnd view.payloadDelta.length).getD (maxValue 64)
  arenaNodeCount view := (checkedAdd 64 view.baseNodeCount view.deltaNodeCount).getD (maxValue 64)
  arenaLoadNode := loadNode
  arenaReadPayload := readPayload
  arenaAppendPayload := appendPayload
  arenaPushNode := pushNode
  arenaTruncate := truncate

end DeltaView

/-! ## Preparing, validating and committing a delta -/

structure PhysicalDelta where
  oldPayloadEnd : Nat
  oldNodeCount : Nat
  newPayloadEnd : Nat
  newNodeCount : Nat
  payload : Bytes
  nodes : Bytes
  root : V2RootRecord
  deltaDigest : Digest
  allocatedNodes : Nat
  inspectedNodes : Nat
  payloadBytesAllocated : Nat
deriving DecidableEq, Repr

section Deltas

variable (sha256 : Bytes → Digest)

def physicalDeltaDigest (generation oldPayloadEnd newPayloadEnd oldNodeCount newNodeCount : Nat)
    (payload nodes resultRoot : Bytes) : Digest :=
  sha256 (physicalDeltaDigestDomain ++ leBytes 8 generation ++ leBytes 8 oldPayloadEnd ++
    leBytes 8 newPayloadEnd ++ leBytes 8 oldNodeCount ++ leBytes 8 newNodeCount ++ payload ++
    nodes ++ resultRoot)

/-- The record with the given index in a node delta. -/
def deltaRecord (nodes : Bytes) (index : Nat) (message : String) :
    Except V2AvlError V2NodeRecord := do
  let start := index * physicalNodeRecordSize
  let bytes ← okOr (slice nodes start (start + physicalNodeRecordSize)) (.invalid message)
  liftFormat (decodeV2Node bytes)

/-- What `validate_fresh_delta` checks of the fresh record with the given index. -/
def validateFreshNode (oldPayloadEnd newPayloadEnd oldNodeCount newNodeCount : Nat)
    (payload nodes : Bytes) (index : Nat) : Except V2AvlError Unit := do
  let nodeId := oldNodeCount + index
  let record ← deltaRecord nodes index "history physical delta node is outside its range"
  match ← v2NodeFields record with
  | .leaf payloadOffset payloadLen =>
    failIf (payloadOffset < oldPayloadEnd)
      (.invalid "history physical delta leaf references payload outside its range")
    let stop ← okOr (checkedAdd 64 payloadOffset payloadLen)
      (.overflow "v2 leaf payload range exceeds u64")
    failIf (stop > newPayloadEnd)
      (.invalid "history physical delta leaf references payload outside its range")
    let bytes ← okOr (slice payload (payloadOffset - oldPayloadEnd)
        (payloadOffset - oldPayloadEnd + payloadLen))
      (.invalid "history physical delta leaf references payload outside its range")
    let expected ← liftFormat (V2NodeRecord.leaf sha256 payloadOffset bytes)
    failIf (expected ≠ record) (.invalid "history physical delta leaf verification failed")
  | .branch leftNodeId rightNodeId _ =>
    failIf (leftNodeId ≥ nodeId ∨ rightNodeId ≥ nodeId)
      (.invalid "history physical delta branch references a future node")
    failIf (leftNodeId ≥ newNodeCount ∨ rightNodeId ≥ newNodeCount)
      (.invalid "history physical delta branch references an unknown node")

/-- The record of the result root, committed or fresh. -/
def resultRecord (base : PhysicalContentStore) (oldNodeCount : Nat) (nodes : Bytes)
    (root : V2RootRecord) : Except V2AvlError V2NodeRecord :=
  if root.nodeId < oldNodeCount then base.loadRecord root.nodeId
  else deltaRecord nodes (root.nodeId - oldNodeCount)
    "history physical delta result root is outside its range"

def validateFreshDelta (base : PhysicalContentStore)
    (oldPayloadEnd newPayloadEnd oldNodeCount newNodeCount : Nat) (payload nodes : Bytes)
    (root : V2RootRecord) : Except V2AvlError Unit := do
  failIf (newPayloadEnd < oldPayloadEnd ∨ newNodeCount < oldNodeCount)
    (.invalid "history physical delta frontiers move backwards")
  failIf (payload.length ≠ newPayloadEnd - oldPayloadEnd)
    (.invalid "history physical delta payload disagrees with its frontiers")
  failIf (nodes.length ≠ (newNodeCount - oldNodeCount) * physicalNodeRecordSize)
    (.invalid "history physical delta nodes disagree with their frontiers")
  (List.range (newNodeCount - oldNodeCount)).forM
    (validateFreshNode sha256 oldPayloadEnd newPayloadEnd oldNodeCount newNodeCount payload nodes)
  failIf (root.nodeId ≥ newNodeCount)
    (.invalid "history physical delta result root is outside its range")
  let rootRecord ← resultRecord base oldNodeCount nodes root
  let canonical ← liftFormat (V2RootRecord.fromNode root.nodeId rootRecord)
  failIf (canonical ≠ root)
    (.invalid "history physical delta result root disagrees with its record")

def preparePhysicalDelta (base : PhysicalContentStore) (parent : Option V2RootRecord)
    (offset deleteLen : Nat) (insert : Bytes) (resultLen : Nat) :
    Except V2AvlError PhysicalDelta :=
  match spliceOn sha256 parent offset deleteLen insert (DeltaView.new base) with
  | .error e _ => .error e
  | .ok outcome view => do
    failIf (outcome.root.logicalLen ≠ resultLen)
      (.invalid "history physical splice result length disagrees with its root")
    failIf (view.nodeDelta.length % physicalNodeRecordSize ≠ 0)
      (.invalid "history physical delta is not record-aligned")
    let newPayloadEnd ← okOr (checkedAdd 64 base.committedPayloadEnd view.payloadDelta.length)
      (.overflow "history physical payload frontier exceeds u64")
    let newNodeCount ← okOr (checkedAdd 64 base.committedNodeCount view.deltaNodeCount)
      (.overflow "history physical node frontier exceeds u64")
    validateFreshDelta sha256 base base.committedPayloadEnd newPayloadEnd base.committedNodeCount
      newNodeCount view.payloadDelta view.nodeDelta outcome.root
    return {
      oldPayloadEnd := base.committedPayloadEnd
      oldNodeCount := base.committedNodeCount
      newPayloadEnd
      newNodeCount
      payload := view.payloadDelta
      nodes := view.nodeDelta
      root := outcome.root
      deltaDigest := physicalDeltaDigest sha256 base.generation base.committedPayloadEnd
        newPayloadEnd base.committedNodeCount newNodeCount view.payloadDelta view.nodeDelta
        (encodeV2Root outcome.root)
      allocatedNodes := outcome.allocatedNodes
      inspectedNodes := outcome.inspectedNodes
      payloadBytesAllocated := outcome.payloadBytesAllocated }

/-- `commit_physical_delta`: heal, then append the payload and the nodes. -/
def commitPhysicalDelta (store : PhysicalContentStore) (delta : PhysicalDelta) :
    Except V2AvlError PhysicalContentStore := do
  let store ← store.healForWrite
  let store ← store.appendPayloadDelta delta.payload
  store.appendNodeDelta delta.nodes

/-- `adopt_physical_delta` -/
def adoptPhysicalDelta (store : PhysicalContentStore) (delta : PhysicalDelta) :
    PhysicalContentStore :=
  store.adoptFrontiers delta.newPayloadEnd delta.newNodeCount

def validateCommittedDelta (store : PhysicalContentStore)
    (generation payloadStart payloadEnd nodeStart nodeEnd : Nat) (deltaDigest : Digest)
    (resultRoot : Bytes) (resultLen : Nat) : Except V2AvlError V2RootRecord := do
  failIf (generation ≠ store.generation)
    (.invalid "history log splice physical generation disagrees with authority")
  failIf (payloadStart ≠ store.committedPayloadEnd ∨ nodeStart ≠ store.committedNodeCount)
    (.invalid "history log splice physical frontiers disagree with replay position")
  failIf (payloadEnd < payloadStart ∨ nodeEnd < nodeStart)
    (.invalid "history log splice physical frontiers move backwards")
  let root ← liftFormat (decodeV2Root resultRoot)
  failIf (root.logicalLen ≠ resultLen)
    (.invalid "history log splice result length disagrees with its physical root")
  let nodesLen ← okOr (checkedMul 64 (nodeEnd - nodeStart) physicalNodeRecordSize)
    (.overflow "history physical node range exceeds u64")
  let payloadOffset ← okOr (checkedAdd 64 physicalHeaderSize payloadStart)
    (.overflow "history physical payload offset exceeds u64")
  let nodeBytes ← okOr (checkedMul 64 nodeStart physicalNodeRecordSize)
    (.overflow "history physical node offset exceeds u64")
  let nodesOffset ← okOr (checkedAdd 64 physicalHeaderSize nodeBytes)
    (.overflow "history physical node offset exceeds u64")
  let payloadFile ← store.payloadFile
  let payload ← okOr (readExactAt payloadFile payloadOffset (payloadEnd - payloadStart))
    (.invalid "history log splice physical payload is absent")
  let nodesFile ← store.nodesFile
  let nodes ← okOr (readExactAt nodesFile nodesOffset nodesLen)
    (.invalid "history log splice physical nodes are absent")
  validateFreshDelta sha256 store payloadStart payloadEnd nodeStart nodeEnd payload nodes root
  failIf (physicalDeltaDigest sha256 generation payloadStart payloadEnd nodeStart nodeEnd payload
      nodes resultRoot ≠ deltaDigest)
    (.invalid "history log splice physical delta digest mismatch")
  return root

end Deltas

end TulyaStore.Sequence
