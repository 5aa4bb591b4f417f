import TulyaStore.Checkpoint.LazyReader
import TulyaStore.Checkpoint.Streams

/-!
# Opening the lazy reader

`open_internal` (`lazy.rs`) takes the stream tables of the segments the manifest names, then reads
the metadata columns through the reader it is building, so the reader it returns has met its caches
already. Only the decoded blocks are dropped again, and only when the payload is kept as a whole.

The public `open` refuses a store with a hot suffix (`parse_hot_prefix`, `transaction.rs`). The two
environment variables of the diagnostics are part of the input.
-/

namespace TulyaStore.Checkpoint

open Lib

/-! ## The hot suffix -/

section HotPrefix

variable (P : Primitives)

/-- `TX_HEADER_SIZE + TX_CHECKSUM_SIZE` -/
def minimumTransaction : Nat := txHeaderSize + txChecksumSize

/-- The record that stands at `offset`, when the file has all of it. -/
def hotRecordAt (file : Bytes) (offset : Nat) : Option Bytes := do
  let header ← slice file offset (offset + txHeaderSize)
  if header.take 4 = txMagic then do
    let recordLen ← (readU32 header 4).toOption
    if recordLen < minimumTransaction then none
    else slice file offset (offset + recordLen)
  else none

/-- The transactions from `offset` on that continue the geometry, and where they end. -/
def scanHotPrefix (file : Bytes) : Nat → Geometry → Nat →
    Except StoreError (List ParsedTransaction × Nat)
  | 0, _, _ => .error .diverged
  | fuel + 1, geometry, offset => do
    let least ← okOr (checkedAdd 64 offset minimumTransaction)
      (.format "hot-WAL scan offset overflow")
    if file.length < least then .ok ([], offset)
    else
      match hotRecordAt file offset with
      | none => .ok ([], offset)
      | some record =>
        match parseTransaction P record geometry offset with
        | .error _ => .ok ([], offset)
        | .ok tx => do
          let (rest, tail) ← scanHotPrefix file fuel (.advance tx) (offset + record.length)
          .ok (tx :: rest, tail)

/-- Every turn but the last consumes a record. -/
def parseHotPrefix (file : Bytes) (geometry : Geometry) :
    Except StoreError (List ParsedTransaction × Nat) :=
  scanHotPrefix P file (file.length + 1) geometry 0

end HotPrefix

/-! ## Metadata -/

/-- The columns with one value for each checkpoint. -/
structure CheckpointColumns where
  thread : Bytes
  no : Bytes
  parent : Bytes
  identity : Bytes
  messages : Bytes
  result : Bytes
  len : Bytes
  hash : Bytes

namespace CheckpointColumns

def widths (columns : CheckpointColumns) : List (Bytes × Nat) :=
  [(columns.thread, 4), (columns.no, 4), (columns.parent, 4), (columns.identity, 4),
    (columns.messages, 4), (columns.result, 4), (columns.len, 8), (columns.hash, 8)]

def requireWidths (count : Nat) : List (Bytes × Nat) → Except StoreError Unit
  | [] => .ok ()
  | (bytes, width) :: rest => do
    let expected ← okOr (checkedMul 64 count width)
      (.format "lazy checkpoint metadata width overflow")
    failIf (bytes.length ≠ expected) (.format "lazy checkpoint metadata width mismatch")
    requireWidths count rest

/-- The id of the parent a row names. -/
def readParent (checkpointIds : List String) (index parentOrdinal : Nat) :
    Except StoreError (Option String) :=
  if parentOrdinal = noneParent then .ok none
  else do
    failIf (index ≤ parentOrdinal) (.format "lazy checkpoint parent is not prior")
    let parent ← okOr checkpointIds[parentOrdinal]? (.format "lazy parent checkpoint id missing")
    .ok (some parent)

def readRow (columns : CheckpointColumns) (threads checkpointIds : List String) (index : Nat) :
    Except StoreError CheckpointInfo := do
  let threadOrdinal ← readU32 columns.thread (index * 4)
  let thread ← okOr threads[threadOrdinal]?
    (.format "lazy checkpoint thread ordinal outside table")
  let parentOrdinal ← readU32 columns.parent (index * 4)
  let parent ← readParent checkpointIds index parentOrdinal
  let checkpointId ← okOr checkpointIds[index]? (.format "lazy checkpoint id missing")
  let ordinal ← okOr (tryFrom 32 index) (.format "checkpoint ordinal overflow")
  let number ← readU32 columns.no (index * 4)
  let identityVersion ← readU32 columns.identity (index * 4)
  let messagesVersion ← readU32 columns.messages (index * 4)
  let resultVersion ← readU32 columns.result (index * 4)
  let logicalStateLen ← readU64 columns.len (index * 8)
  let stateHash ← readU64 columns.hash (index * 8)
  .ok { ordinal := ordinal, threadId := thread, checkpointNo := UInt32.ofNat number,
        checkpointId := checkpointId, parentCheckpointId := parent,
        identityVersion := identityVersion,
        messagesVersion := unlessSentinel noneVersion messagesVersion,
        resultVersion := unlessSentinel noneVersion resultVersion,
        logicalStateLen := logicalStateLen, stateHash := UInt64.ofNat stateHash }

def readRows (columns : CheckpointColumns) (threads checkpointIds : List String) :
    Nat → Nat → Except StoreError (List CheckpointInfo)
  | 0, _ => .ok []
  | count + 1, index => do
    let info ← columns.readRow threads checkpointIds index
    let rest ← readRows columns threads checkpointIds count (index + 1)
    .ok (info :: rest)

end CheckpointColumns

/-- The versions of the two version columns: roots and parents. -/
def lazyVersions (manifest : Manifest) (roots parents : Bytes) :
    Except StoreError (List (Option Nat × Option Nat)) := do
  failIf (roots.length % 8 ≠ 0 ∨ parents.length % 4 ≠ 0 ∨ roots.length / 8 ≠ parents.length / 4)
    (.format "lazy version column widths disagree")
  let versions ← readVersions roots parents (roots.length / 8) 0
  failIf (versions.length ≠ manifest.versionCount)
    (.format "lazy version count disagrees with manifest")
  .ok versions

def lazyThreads (manifest : Manifest) (offsets bytes : Bytes) : Except StoreError (List String) := do
  let threads ← decodeStringTable offsets bytes
  failIf (threads.length ≠ manifest.threadCount)
    (.format "lazy thread count disagrees with manifest")
  failIf (width 32 < threads.length) (.format "thread ordinal overflow")
  .ok threads

def lazyCheckpointIds (manifest : Manifest) (offsets bytes : Bytes) :
    Except StoreError (List String) := do
  let checkpointIds ← decodeStringTable offsets bytes
  failIf (checkpointIds.length ≠ manifest.checkpointCount)
    (.format "lazy checkpoint id table count mismatch")
  .ok checkpointIds

/-- The node columns have one width each; they are not read. -/
def checkNodeColumns (manifest : Manifest) : Except StoreError Unit := do
  let nodeCount := manifest.streamSizes .nodeKind
  let field0Len ← okOr (checkedMul 64 nodeCount 8) (.format "lazy node field0 width overflow")
  failIf (manifest.streamSizes .nodeField0 ≠ field0Len)
    (.format "lazy compact node column widths disagree")
  let field1Len ← okOr (checkedMul 64 nodeCount 4) (.format "lazy node field1 width overflow")
  failIf (manifest.streamSizes .nodeField1 ≠ field1Len)
    (.format "lazy compact node column widths disagree")
  let wideLen ← okOr (checkedMul 64 (manifest.streamSizes .wideKind) 8)
    (.format "lazy wide column width overflow")
  failIf (manifest.streamSizes .wideA ≠ wideLen ∨ manifest.streamSizes .wideB ≠ wideLen ∨
    manifest.streamSizes .wideC ≠ wideLen) (.format "lazy wide node column widths disagree")

namespace LazyCheckpointStore

section Open

variable (P : Primitives) (room : Nat)

def readCheckpointColumns : LazyM CheckpointColumns := do
  let thread ← readStreamAll P room .cpThread
  let no ← readStreamAll P room .cpNo
  let parent ← readStreamAll P room .cpParentOrdinal
  let identity ← readStreamAll P room .cpIdentityVersion
  let messages ← readStreamAll P room .cpMessagesVersion
  let result ← readStreamAll P room .cpResultVersion
  let len ← readStreamAll P room .cpLogicalLen
  let hash ← readStreamAll P room .cpStateHash
  return { thread, no, parent, identity, messages, result, len, hash }

/-- Reads columns to no other end than to have read them. -/
def touchStreams : List Column → LazyM Unit
  | [] => pure ()
  | c :: rest => do
    let _ ← readStreamAll P room c
    touchStreams rest

/-- The columns of the topology diagnostic. -/
def topologyColumns : List Column :=
  [.nodeKind, .nodeField0, .nodeField1, .wideKind, .wideA, .wideB, .wideC]

def loadMetadata (eagerTopology : Bool) : LazyM LazyMetadata := do
  let reader ← get
  let roots ← readStreamAll P room .versionRoot
  let parents ← readStreamAll P room .versionParent
  let versions ← attempt (lazyVersions reader.manifest roots parents)
  let threadOffsets ← readStreamAll P room .threadOffsets
  let threadBytes ← readStreamAll P room .threadBytes
  let threads ← attempt (lazyThreads reader.manifest threadOffsets threadBytes)
  let idOffsets ← readStreamAll P room .cpIdOffsets
  let idBytes ← readStreamAll P room .cpIdBytes
  let checkpointIds ← attempt (lazyCheckpointIds reader.manifest idOffsets idBytes)
  let columns ← readCheckpointColumns P room
  attempt (CheckpointColumns.requireWidths reader.manifest.checkpointCount columns.widths)
  let checkpoints ← attempt
    (columns.readRows threads checkpointIds reader.manifest.checkpointCount 0)
  attempt (checkNodeColumns reader.manifest)
  touchStreams P room (if eagerTopology then topologyColumns else [])
  return {
    versions := versions.map Prod.fst
    versionParents := versions.map Prod.snd
    threads := threads
    threadOrdinals := .indexOf threads
    checkpoints := checkpoints
    checkpointOrdinals := .indexOf (checkpoints.map CheckpointInfo.key) }

/-- A payload that is small enough is decoded once; its blocks are not kept then. -/
def decodePayload : LazyM Unit := do
  let reader ← get
  if lazyPayloadFastPathAllowed (reader.manifest.streamSizes .payload) then do
    let payload ← readStreamRange P room .payload 0 (reader.manifest.streamSizes .payload)
    modify fun reader => { reader with payloadFast := some payload, cache := .empty }
  else return ()

/-- The part of the opening that reads through the reader. -/
def loadSealed (eagerTopology : Bool) : LazyM Unit := do
  let metadata ← loadMetadata P room eagerTopology
  modify fun reader => { reader with metadata := metadata }
  decodePayload P room

end Open

end LazyCheckpointStore

/-! ## Opening -/

/-- `LAZY_BLOCK_CACHE_CAPACITY` -/
def lazyBlockCacheCapacityBlocks : Nat := 128

/-- `LAZY_DIAGNOSTIC_MAX_CACHE_CAPACITY` -/
def lazyDiagnosticMaxCacheCapacity : Nat := 4096

/-- What the environment says: the number in `TULYA_LAZY_BLOCK_CACHE_CAPACITY_DIAGNOSTIC`, and
whether `TULYA_LAZY_EAGER_TOPOLOGY_DIAGNOSTIC` is set. -/
structure LazyEnvironment where
  cacheCapacity : Option Nat
  eagerTopology : Bool
deriving DecidableEq, Repr

def lazyBlockCacheCapacity (environment : LazyEnvironment) : Except StoreError Nat :=
  match environment.cacheCapacity with
  | none => .ok lazyBlockCacheCapacityBlocks
  | some capacity => do
    failIf (capacity = 0 ∨ capacity > lazyDiagnosticMaxCacheCapacity)
      (.format "lazy diagnostic cache capacity is outside bounds")
    .ok capacity

section Open

variable (P : Primitives) (room : Nat) (environment : LazyEnvironment)

/-- The public `open` takes a fully sealed store only. -/
def requireSealed (allowHotSuffix : Bool) (dir : Directory) (manifest : Manifest) :
    Except StoreError Unit :=
  match dir.hot with
  | none => .ok ()
  | some file =>
    if allowHotSuffix then .ok ()
    else do
      let (transactions, _) ← parseHotPrefix P file (.fromManifest manifest)
      failIf (¬ transactions.isEmpty)
        (.format "lazy sealed reader requires a fully sealed store with no hot suffix")

/-- The reader before it has read anything. -/
def LazyCheckpointStore.bare (manifest : Manifest) (segments : List LazySegment)
    (cacheCapacity : Nat) : LazyCheckpointStore where
  manifest := manifest
  deletedCheckpoints := manifest.deletedCheckpoints.foldl (fun keys key => keys.insert key ()) .empty
  segments := segments
  metadata := .empty
  cache := .empty
  blockEntries := .empty
  cacheCapacity := cacheCapacity
  payloadFast := none

def LazyCheckpointStore.openInternal (allowHotSuffix : Bool) (dir : Directory) :
    Except StoreError LazyCheckpointStore := do
  let manifest ← loadManifest P dir
  let segments ← loadLazySegments P dir manifest.segments
  let cacheCapacity ← lazyBlockCacheCapacity environment
  let reader := LazyCheckpointStore.bare manifest segments cacheCapacity
  if manifest.generation = 0 then .ok reader
  else do
    requireSealed P allowHotSuffix dir manifest
    match LazyCheckpointStore.loadSealed P room environment.eagerTopology reader with
    | .ok _ reader => .ok reader
    | .error e _ => .error e

end Open

end TulyaStore.Checkpoint
