import TulyaStore.Checkpoint.Apply
import TulyaStore.Checkpoint.Manifest

/-!
# The column streams of a state

Sealing turns hot transactions into rows of the column streams (`write_transaction_to_segment`
in `segment.rs`); opening a store reads the streams of all generations and rebuilds the state
from them (`materialize_sealed_state`, `state_from_streams` and `validate_materialized_state` in
`state.rs`).
-/

namespace TulyaStore.Checkpoint

open Lib

/-! ## Writing rows -/

section Write

variable (P : Primitives)

namespace StreamingSegmentWriter

/-- The kind column's code of a compact node. -/
def nodeKindCode (unknown : String) (slot : Bytes) : Except StoreError UInt8 := do
  let kind ← readU32 slot 12
  if kind = kindLeaf then .ok 0
  else if kind = kindBinary then .ok 1
  else if kind = kindWide then .ok 2
  else .error (.format unknown)

/-- The row of one complete slot. -/
def writeSlot (unknown : String) (w : StreamingSegmentWriter) (slot : Bytes) :
    Except StoreError StreamingSegmentWriter := do
  let code ← nodeKindCode unknown slot
  let w ← w.push P .nodeField0 (slot.take 8)
  let w ← w.push P .nodeField1 ((slot.drop 8).take 4)
  w.push P .nodeKind [code]

def wideKindCode (unknown : String) (record : Bytes) : Except StoreError UInt8 := do
  let kind ← readU32 record 0
  if kind = wideKindLeaf then .ok 0
  else if kind = wideKindBinary then .ok 1
  else .error (.format unknown)

/-- The row of one complete wide record. -/
def writeWide (unknown : String) (w : StreamingSegmentWriter) (record : Bytes) :
    Except StoreError StreamingSegmentWriter := do
  let code ← wideKindCode unknown record
  let w ← w.push P .wideKind [code]
  let w ← w.push P .wideA ((record.drop 8).take 8)
  let w ← w.push P .wideB ((record.drop 16).take 8)
  w.push P .wideC ((record.drop 24).take 8)

/-- The row of one version: its root and its parent. -/
def writeVersion (w : StreamingSegmentWriter) (version : Option Nat × Option Nat) :
    Except StoreError StreamingSegmentWriter := do
  let w ← w.pushU64 P .versionRoot (version.1.getD noneRoot)
  w.pushU32 P .versionParent (version.2.getD noneParent)

/-- One string of a string table: its bytes, and the offset where they end. -/
def writeString (offsets bytes : Column) (tooLong : String) (w : StreamingSegmentWriter)
    (value : String) : Except StoreError StreamingSegmentWriter := do
  let w ← w.push P bytes (utf8 value)
  let length ← w.currentStreamLen bytes
  let stop ← okOr (tryFrom 32 length) (.format tooLong)
  w.pushU32 P offsets stop

/-- A string table starts with offset zero. -/
def startOffsets (w : StreamingSegmentWriter) (offsets : Column) :
    Except StoreError StreamingSegmentWriter := do
  let length ← w.currentStreamLen offsets
  if length = 0 then w.pushU32 P offsets 0 else .ok w

/-- The fixed-width columns of a checkpoint behind its id. -/
def writeCheckpointFields (w : StreamingSegmentWriter) (parentOrdinal : Nat)
    (checkpoint : CheckpointInfo) : Except StoreError StreamingSegmentWriter := do
  let w ← w.pushU32 P .cpParentOrdinal parentOrdinal
  let w ← w.pushU32 P .cpIdentityVersion checkpoint.identityVersion
  let w ← w.pushU32 P .cpMessagesVersion (checkpoint.messagesVersion.getD noneVersion)
  let w ← w.pushU32 P .cpResultVersion (checkpoint.resultVersion.getD noneVersion)
  let w ← w.pushU64 P .cpLogicalLen checkpoint.logicalStateLen
  w.pushU64 P .cpStateHash checkpoint.stateHash.toNat

/-- The ordinal of the parent, or the sentinel. -/
def parentOrdinalOf (state : StoreState) (missing : String) (checkpoint : CheckpointInfo) :
    Except StoreError Nat :=
  match checkpoint.parentKey with
  | none => .ok noneParent
  | some key => okOr (state.checkpointOrdinals.get key) (.format missing)

end StreamingSegmentWriter

open StreamingSegmentWriter

/-- What a seal has collected so far. -/
structure SealProgress where
  writer : StreamingSegmentWriter
  nextThreadOrdinal : Nat
  newThreads : List (String × Nat)
  newCheckpoints : List (String × String × Nat)
  newRequests : List RequestRecord

/-- A thread that is not sealed yet has to be the next one. -/
def writeThread (threadOrdinal : Nat) (threadId : String) (p : SealProgress) :
    Except StoreError SealProgress :=
  if threadOrdinal = p.nextThreadOrdinal then do
    let w ← startOffsets P p.writer .threadOffsets
    let w ← writeString P .threadOffsets .threadBytes "thread byte offset exceeds u32" w threadId
    let next ← okOr (checkedAdd 32 p.nextThreadOrdinal 1) (.format "thread ordinal overflow")
    .ok { p with
      writer := w
      nextThreadOrdinal := next
      newThreads := p.newThreads ++ [(threadId, threadOrdinal)] }
  else if p.nextThreadOrdinal < threadOrdinal then
    .error (.format "thread ordinal skipped during sealing")
  else .ok p

def writeTransactionToSegment (state : StoreState) (p : SealProgress) (tx : ParsedTransaction) :
    Except StoreError SealProgress := do
  let w ← p.writer.push P .payload tx.bytes
  let w ← (chunksExact compactNodeSize tx.compactNodes).foldlM
    (writeSlot P "unknown compact node kind during sealing") w
  let w ← (chunksExact wideRecordSize tx.wideNodes).foldlM
    (writeWide P "unknown wide node kind during sealing") w
  let w ← (tx.roots.zip tx.parents).foldlM (writeVersion P) w
  let threadOrdinal ← okOr (state.threadOrdinals.get tx.checkpoint.threadId)
    (.format "checkpoint thread missing from committed state")
  let p ← writeThread P threadOrdinal tx.checkpoint.threadId { p with writer := w }
  let w ← p.writer.pushU32 P .cpThread threadOrdinal
  let w ← w.pushU32 P .cpNo tx.checkpoint.checkpointNo.toNat
  let w ← startOffsets P w .cpIdOffsets
  let w ← writeString P .cpIdOffsets .cpIdBytes "checkpoint id bytes exceed u32" w
    tx.checkpoint.checkpointId
  let parentOrdinal ← parentOrdinalOf state "checkpoint parent missing during sealing" tx.checkpoint
  let w ← writeCheckpointFields P w parentOrdinal tx.checkpoint
  .ok { p with
    writer := w
    newCheckpoints := p.newCheckpoints ++
      [(tx.checkpoint.threadId, tx.checkpoint.checkpointId, tx.checkpoint.ordinal)]
    newRequests := p.newRequests ++ (requestRecordOf tx).toList.map Prod.snd }

end Write

/-! ## Reading rows -/

/-- `count` strings from position `i` of a string table on; `previous` is where the last one
ended. The result also says where the final one ends. -/
def decodeStrings (offsets bytes : Bytes) : Nat → Nat → Nat → Except StoreError (List String × Nat)
  | 0, _, previous => .ok ([], previous)
  | count + 1, i, previous => do
    let next ← readU32 offsets ((i + 1) * 4)
    failIf (next < previous) (.format "string offsets regress")
    let raw ← okOr (slice bytes previous next) (.format "string bytes outside table")
    let value ← okOr (fromUtf8 raw) (.format "string table contains non-UTF8 bytes")
    let (rest, stop) ← decodeStrings offsets bytes count (i + 1) next
    .ok (value :: rest, stop)

def decodeStringTable (offsets bytes : Bytes) : Except StoreError (List String) :=
  if offsets.isEmpty then
    if bytes.isEmpty then .ok [] else .error (.format "string bytes exist without offsets")
  else do
    failIf (offsets.length % 4 ≠ 0 ∨ offsets.length < 4)
      (.format "string offset table is not u32 aligned")
    let first ← readU32 offsets 0
    failIf (first ≠ 0) (.format "string offset table does not start at zero")
    let (strings, stop) ← decodeStrings offsets bytes (offsets.length / 4 - 1) 0 first
    failIf (stop ≠ bytes.length) (.format "final string offset does not match byte table")
    .ok strings

/-- The slots that rows `i`, `i + 1`, … of the node columns stand for. -/
def readSlots (kinds field0 field1 : Bytes) : Nat → Nat → Except StoreError Bytes
  | 0, _ => .ok []
  | count + 1, i => do
    let low ← okOr (slice field0 (i * 8) (i * 8 + 8)) (.format "node field0 value missing")
    let high ← okOr (slice field1 (i * 4) (i * 4 + 4)) (.format "node field1 value missing")
    let code ← okOr kinds[i]? (.format "node kind value missing")
    let kind ← okOr ([kindLeaf, kindBinary, kindWide][code.toNat]?)
      (.format "sealed node kind code invalid")
    let rest ← readSlots kinds field0 field1 count (i + 1)
    .ok (low ++ high ++ leBytes 4 kind ++ rest)

/-- The wide records that rows `i`, `i + 1`, … of the wide columns stand for. -/
def readWides (kinds a b c : Bytes) : Nat → Nat → Except StoreError Bytes
  | 0, _ => .ok []
  | count + 1, i => do
    let code ← okOr kinds[i]? (.format "wide kind missing")
    let kind ← okOr ([wideKindLeaf, wideKindBinary][code.toNat]?)
      (.format "sealed wide kind code invalid")
    let a' ← okOr (slice a (i * 8) (i * 8 + 8)) (.format "wide source value missing")
    let b' ← okOr (slice b (i * 8) (i * 8 + 8)) (.format "wide source value missing")
    let c' ← okOr (slice c (i * 8) (i * 8 + 8)) (.format "wide source value missing")
    let rest ← readWides kinds a b c count (i + 1)
    .ok (leBytes 4 kind ++ leBytes 4 0 ++ a' ++ b' ++ c' ++ rest)

/-- A stored value that may be the sentinel. -/
def unlessSentinel (sentinel raw : Nat) : Option Nat := if raw = sentinel then none else some raw

/-- The versions that rows `i`, `i + 1`, … stand for: roots and parents. -/
def readVersions (roots parents : Bytes) : Nat → Nat →
    Except StoreError (List (Option Nat × Option Nat))
  | 0, _ => .ok []
  | count + 1, i => do
    let root ← readU64 roots (i * 8)
    let parent ← readU32 parents (i * 4)
    let rest ← readVersions roots parents count (i + 1)
    .ok ((unlessSentinel noneRoot root, unlessSentinel noneParent parent) :: rest)

/-- The id of the parent a checkpoint row names. -/
def readParent (checkpointIds : List String) (index parentOrdinal : Nat) :
    Except StoreError (Option String) :=
  if parentOrdinal = noneParent then .ok none
  else do
    failIf (index ≤ parentOrdinal) (.format "sealed checkpoint parent is not prior")
    let parent ← okOr checkpointIds[parentOrdinal]? (.format "parent checkpoint id missing")
    .ok (some parent)

/-- The checkpoint that row `index` stands for. -/
def readCheckpointRow (streams : Column → Bytes) (threads checkpointIds : List String)
    (index : Nat) : Except StoreError CheckpointInfo := do
  let threadOrdinal ← readU32 (streams .cpThread) (index * 4)
  let thread ← okOr threads[threadOrdinal]? (.format "checkpoint thread ordinal outside table")
  let parentOrdinal ← readU32 (streams .cpParentOrdinal) (index * 4)
  let parent ← readParent checkpointIds index parentOrdinal
  let ordinal ← okOr (tryFrom 32 index) (.format "checkpoint ordinal overflow")
  let number ← readU32 (streams .cpNo) (index * 4)
  let checkpointId ← okOr checkpointIds[index]? (.format "checkpoint id missing")
  let identityVersion ← readU32 (streams .cpIdentityVersion) (index * 4)
  let messagesVersion ← readU32 (streams .cpMessagesVersion) (index * 4)
  let resultVersion ← readU32 (streams .cpResultVersion) (index * 4)
  let logicalStateLen ← readU64 (streams .cpLogicalLen) (index * 8)
  let stateHash ← readU64 (streams .cpStateHash) (index * 8)
  .ok { ordinal := ordinal, threadId := thread, checkpointNo := UInt32.ofNat number,
        checkpointId := checkpointId, parentCheckpointId := parent,
        identityVersion := identityVersion,
        messagesVersion := unlessSentinel noneVersion messagesVersion,
        resultVersion := unlessSentinel noneVersion resultVersion,
        logicalStateLen := logicalStateLen, stateHash := UInt64.ofNat stateHash }

def readCheckpoints (streams : Column → Bytes) (threads checkpointIds : List String) :
    Nat → Nat → Except StoreError (List CheckpointInfo)
  | 0, _ => .ok []
  | count + 1, index => do
    let info ← readCheckpointRow streams threads checkpointIds index
    let rest ← readCheckpoints streams threads checkpointIds count (index + 1)
    .ok (info :: rest)

/-- The columns whose width the checkpoint count determines. -/
def checkpointColumns : List (Column × Nat) :=
  [(.cpThread, 4), (.cpNo, 4), (.cpParentOrdinal, 4), (.cpIdentityVersion, 4),
    (.cpMessagesVersion, 4), (.cpResultVersion, 4), (.cpLogicalLen, 8), (.cpStateHash, 8)]

def requireWidths (streams : Column → Bytes) (count : Nat) :
    List (Column × Nat) → Except StoreError Unit
  | [] => .ok ()
  | (c, width) :: rest => do
    let expected ← okOr (checkedMul 64 count width)
      (.format "checkpoint stream expected width overflow")
    failIf ((streams c).length ≠ expected) (.format "checkpoint stream width mismatch")
    requireWidths streams count rest

/-- The state as one transaction on the empty state, to check its nodes. -/
def wholeTransaction (state : StoreState) : ParsedTransaction where
  endOffset := 0
  versionStart := 0
  versionCount := state.versions.length
  checkpointCount := state.checkpoints.length
  byteStart := 0
  byteEnd := state.arenaBytes.length
  bytes := state.arenaBytes
  nodeStart := 0
  nodeEnd := state.compactNodes.length / compactNodeSize
  compactNodes := state.compactNodes
  wideStart := 0
  wideEnd := state.wideNodes.length / wideRecordSize
  wideNodes := state.wideNodes
  roots := state.versions
  parents := state.parents
  checkpoint := state.checkpoints.getLast?.getD ⟨0, "", 0, "", none, 0, none, none, 0, 0⟩
  requestId := none
  operationDigest := Vector.replicate 32 0

def validateMaterializedState (state : StoreState) : Except StoreError Unit := do
  failIf (state.compactNodes.length % compactNodeSize ≠ 0 ∨
    state.wideNodes.length % wideRecordSize ≠ 0)
    (.format "materialized node bytes are not record aligned")
  validateNewNodes .empty (wholeTransaction state)

def stateFromStreams (streams : Column → Bytes) (manifest : Manifest) :
    Except StoreError StoreState := do
  let kinds := streams .nodeKind
  let field0Len ← okOr (checkedMul 64 kinds.length 8) (.format "node field0 size overflow")
  let field1Len ← okOr (checkedMul 64 kinds.length 4) (.format "node field1 size overflow")
  failIf ((streams .nodeField0).length ≠ field0Len ∨ (streams .nodeField1).length ≠ field1Len)
    (.format "sealed node column widths disagree")
  let compactNodes ← readSlots kinds (streams .nodeField0) (streams .nodeField1) kinds.length 0
  let wideKinds := streams .wideKind
  let wideLen ← okOr (checkedMul 64 wideKinds.length 8) (.format "wide field size overflow")
  failIf ((streams .wideA).length ≠ wideLen ∨ (streams .wideB).length ≠ wideLen ∨
    (streams .wideC).length ≠ wideLen) (.format "sealed wide column widths disagree")
  let wideNodes ← readWides wideKinds (streams .wideA) (streams .wideB) (streams .wideC)
    wideKinds.length 0
  let roots := streams .versionRoot
  let parents := streams .versionParent
  failIf (roots.length % 8 ≠ 0 ∨ parents.length % 4 ≠ 0 ∨ roots.length / 8 ≠ parents.length / 4)
    (.format "sealed version column widths disagree")
  let versions ← readVersions roots parents (roots.length / 8) 0
  let threads ← decodeStringTable (streams .threadOffsets) (streams .threadBytes)
  failIf (width 32 < threads.length) (.format "thread ordinal overflow")
  let checkpointIds ← decodeStringTable (streams .cpIdOffsets) (streams .cpIdBytes)
  failIf (checkpointIds.length ≠ manifest.checkpointCount)
    (.format "checkpoint id table count mismatch")
  requireWidths streams manifest.checkpointCount checkpointColumns
  let checkpoints ← readCheckpoints streams threads checkpointIds manifest.checkpointCount 0
  failIf (versions.length ≠ manifest.versionCount ∨ threads.length ≠ manifest.threadCount)
    (.format "materialized sealed metadata counts disagree with manifest")
  let state : StoreState :=
    { StoreState.empty with
      arenaBytes := streams .payload
      compactNodes := compactNodes
      wideNodes := wideNodes
      versions := versions.map Prod.fst
      parents := versions.map Prod.snd
      checkpoints := checkpoints
      threads := threads
      threadOrdinals := .indexOf threads
      checkpointOrdinals := .indexOf (checkpoints.map CheckpointInfo.key) }
  validateMaterializedState state
  .ok state

/-! ## Materialisation -/

section Materialize

variable (P : Primitives)

def readSegments (dir : Directory) : List SegmentMeta → (Column → Bytes) →
    Except StoreError (Column → Bytes)
  | [], streams => .ok streams
  | segment :: rest, streams => do
    let file ← okOr (dir.segments.get segment.generation) .io
    let next ← readSegment P file segment streams
    readSegments dir rest next

def applyTombstones (state : StoreState) : List CheckpointKey → Except StoreError StoreState
  | [] => .ok state
  | key :: rest => do
    failIf (state.checkpointOrdinals.containsKey key = true ∨
      state.deletedCheckpoints.containsKey key = true)
      (.format "duplicate or live checkpoint tombstone")
    applyTombstones
      { state with deletedCheckpoints := state.deletedCheckpoints.insert key () } rest

def applyRetired (state : StoreState) : List RetiredRequestRecord → Except StoreError StoreState
  | [] => .ok state
  | retired :: rest => do
    failIf (state.requestRecords.containsKey retired.key = true)
      (.format "active request key is also retired")
    failIf (state.retiredRequests.containsKey retired.key = true)
      (.format "duplicate retired request key")
    applyRetired { state with
      retiredRequests := state.retiredRequests.insert retired.key retired.operationDigest } rest

def applyManifestLifecycleMetadata (state : StoreState) (manifest : Manifest) :
    Except StoreError StoreState := do
  let state ← applyTombstones state manifest.deletedCheckpoints
  applyRetired state manifest.retiredRequests

/-- The request records of one route file join the state. -/
def applyRequestRecords (manifest : Manifest) (state : StoreState) :
    List RequestRecord → Except StoreError StoreState
  | [] => .ok state
  | record :: rest => do
    failIf (manifest.checkpointCount ≤ record.checkpointOrdinal ∨
      state.checkpoints.length ≤ record.checkpointOrdinal)
      (.format "request checkpoint ordinal outside sealed state")
    failIf (state.retiredRequests.containsKey record.key = true)
      (.format "active request key is also retired")
    failIf (state.requestRecords.containsKey record.key = true)
      (.format "duplicate sealed request id")
    applyRequestRecords manifest
      { state with requestRecords := state.requestRecords.insert record.key record } rest

def applyRoutes (dir : Directory) (manifest : Manifest) (state : StoreState) :
    List RouteMeta → Except StoreError StoreState
  | [] => .ok state
  | route :: rest => do
    let file ← okOr (dir.routes.get route.generation) .io
    let records ← routeRequestRecords file
    let next ← applyRequestRecords manifest state records
    applyRoutes dir manifest next rest

def materializeSealedState (dir : Directory) (manifest : Manifest) :
    Except StoreError StoreState :=
  if manifest.generation = 0 then applyManifestLifecycleMetadata .empty manifest
  else do
    let streams ← readSegments P dir manifest.segments (fun _ => [])
    failIf (manifest.streamSizes ≠ fun c => (streams c).length)
      (.format "materialized stream size disagrees with manifest")
    let state ← stateFromStreams streams manifest
    let state ← applyManifestLifecycleMetadata state manifest
    applyRoutes dir manifest state manifest.routes

end Materialize

end TulyaStore.Checkpoint
