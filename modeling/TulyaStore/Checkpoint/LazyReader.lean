import TulyaStore.Checkpoint.Manifest
import TulyaStore.Checkpoint.Reader
import TulyaStore.Lib.Fifo
import TulyaStore.Lib.Outcome

/-!
# The lazy stream reader

`LazyCheckpointStore` (`lazy.rs`) answers range reads of the column streams from the segment files.
It keeps the stream tables, finds the block of a position by dividing by the block size, reads its
table entry and its compressed bytes, and keeps both in bounded caches. A payload that is small
enough is decoded once and kept as a whole.

The caches change while reading, so a read is a computation over the reader; the read counters,
which nothing reads back, are left out. A read fills a vector, and `room` is what a vector can grow
to, as for the other reads.
-/

namespace TulyaStore.Checkpoint

open Lib

structure LazySegmentIndex where
  header : SegmentHeader
  streams : List StreamEntry
deriving DecidableEq, Repr

structure LazySegment where
  index : LazySegmentIndex
  file : Bytes
deriving DecidableEq, Repr

structure LazyMetadata where
  versions : List (Option Nat)
  versionParents : List (Option Nat)
  threads : List String
  threadOrdinals : KeyMap String Nat
  checkpoints : List CheckpointInfo
  checkpointOrdinals : KeyMap CheckpointKey Nat
deriving DecidableEq

/-- `LazyMetadata::default()` -/
def LazyMetadata.empty : LazyMetadata := ⟨[], [], [], .empty, [], .empty⟩

/-- A block of a segment: `(segment_index, block_index)`. -/
abbrev BlockKey := Nat ×ₗ Nat

structure LazyCheckpointStore where
  manifest : Manifest
  deletedCheckpoints : KeyMap CheckpointKey Unit
  segments : List LazySegment
  metadata : LazyMetadata
  cache : FifoCache BlockKey Bytes
  blockEntries : FifoCache BlockKey BlockEntry
  cacheCapacity : Nat
  payloadFast : Option Bytes

/-- `LAZY_EAGER_PAYLOAD_CAP_BYTES` -/
def lazyEagerPayloadCapBytes : Nat := 8 * 1024 * 1024

def lazyPayloadFastPathAllowed (payloadLen : Nat) : Bool := payloadLen ≤ lazyEagerPayloadCapBytes

section Index

variable (P : Primitives)

/-- `count` stream entries from position `i` on. -/
def readLazyStreamTable (table : Bytes) (blockCount : Nat) : Nat → Nat →
    Except StoreError (List StreamEntry)
  | 0, _ => .ok []
  | count + 1, i => do
    let entry ← readStreamEntry table (i * streamEntrySize)
    failIf (entry.globalEnd < entry.globalStart ∨
        entry.rawLen ≠ entry.globalEnd - entry.globalStart ∨
        entry.firstBlock + entry.blockCount > blockCount)
      (.format "lazy segment stream entry invalid")
    let rest ← readLazyStreamTable table blockCount count (i + 1)
    .ok (entry :: rest)

def readLazySegmentIndexFile (file : Bytes) : Except StoreError LazySegmentIndex := do
  let headerBytes ← readExact file 0 segmentHeaderSize
  let header ← parseSegmentHeader P headerBytes
  let indexLen ← okOr (checkedAdd 64 header.streamTableBytes header.blockTableBytes)
    (.format "lazy segment index length overflow")
  let indexEnd ← okOr (checkedAdd 64 header.indexOffset indexLen)
    (.format "lazy segment index end overflow")
  failIf (indexEnd ≠ file.length) (.format "lazy segment index does not end at file boundary")
  let streamBytes ← readExact file header.indexOffset header.streamTableBytes
  let streams ← readLazyStreamTable streamBytes header.blockCount streamCount 0
  .ok { header, streams }

/-- Where the table entry of a block lies. -/
def blockEntryOffset (header : SegmentHeader) (blockIndex : Nat) : Option Nat := do
  let offset ← checkedMul 64 blockIndex blockEntrySize
  let base ← checkedAdd 64 header.indexOffset header.streamTableBytes
  checkedAdd 64 base offset

def readLazyBlockEntry (file : Bytes) (index : LazySegmentIndex) (blockIndex : Nat) :
    Except StoreError BlockEntry := do
  failIf (index.header.blockCount ≤ blockIndex) (.format "lazy block index outside segment")
  let blockOffset ← okOr (blockEntryOffset index.header blockIndex)
    (.format "lazy block table offset overflow")
  let bytes ← readExact file blockOffset blockEntrySize
  let entry ← readBlockEntry bytes 0
  failIf (streamCount ≤ entry.streamId) (.format "lazy segment block entry invalid")
  let stop ← okOr (checkedAdd 64 entry.encodedOffset entry.encodedLen)
    (.format "lazy encoded block end overflow")
  failIf (stop > index.header.payloadBytes) (.format "lazy segment block entry invalid")
  .ok entry

/-- The entry of a stream is the one the manifest records. -/
def streamEntryAgrees (header : SegmentHeader) (segment : SegmentMeta)
    (row : Column × StreamEntry) : Bool :=
  segment.streamStarts row.1 = row.2.globalStart ∧ segment.streamEnds row.1 = row.2.globalEnd ∧
    row.2.firstBlock + row.2.blockCount ≤ header.blockCount

/-- One turn of the loop of `load_lazy_segments`. -/
def loadLazySegment (dir : Directory) (segment : SegmentMeta) : Except StoreError LazySegment := do
  let file ← okOr (dir.segments.get segment.generation) .io
  let index ← readLazySegmentIndexFile P file
  failIf (index.header.generation ≠ segment.generation ∨
      index.header.checkpointStartCount ≠ segment.checkpointStartCount ∨
      index.header.checkpointEndCount ≠ segment.checkpointEndCount ∨
      index.header.versionStartCount ≠ segment.versionStartCount ∨
      index.header.versionEndCount ≠ segment.versionEndCount ∨
      index.header.blockSize ≠ segment.blockSize ∨
      index.header.blockCount ≠ segment.blockCount ∨
      index.header.indexHash ≠ segment.indexHash)
    (.format "lazy segment index disagrees with manifest")
  failIf (index.streams.length ≠ streamCount) (.format "lazy segment stream width mismatch")
  failIf (¬ (Column.all.zip index.streams).all (streamEntryAgrees index.header segment))
    (.format "lazy segment stream entry disagrees with manifest")
  .ok { index, file }

def loadLazySegments (dir : Directory) (segments : List SegmentMeta) :
    Except StoreError (List LazySegment) := segments.mapM (loadLazySegment P dir)

end Index

/-! ## Range reads -/

/-- A computation of the reader. -/
abbrev LazyM := EStateM StoreError LazyCheckpointStore

/-- The raw bytes of a block. -/
def decodeBlock (P : Primitives) (segment : LazySegment) (block : BlockEntry) :
    Except StoreError Bytes := do
  let payloadOffset ← okOr (checkedAdd 64 segment.index.header.payloadOffset block.encodedOffset)
    (.format "lazy encoded block offset overflow")
  let encoded ← readExact segment.file payloadOffset block.encodedLen
  let decoded ← okOr (P.decompress encoded block.rawLen) .codec
  failIf (decoded.length ≠ block.rawLen ∨ P.xxh3 decoded ≠ block.rawHash)
    (.format "lazy sealed block decompression/hash mismatch")
  .ok decoded

namespace LazyCheckpointStore

/-- `checked_sub` -/
def checkedSub (a b : Nat) : Option Nat := if b ≤ a then some (a - b) else none

/-- The first segment that holds a position. -/
def segmentAt (c : Column) (cursor : Nat) : List LazySegment → Nat → Option (Nat × StreamEntry)
  | [], _ => none
  | segment :: rest, index =>
    match segment.index.streams[c.id]? with
    | some entry =>
      if entry.globalStart ≤ cursor ∧ cursor < entry.globalEnd then some (index, entry)
      else segmentAt c cursor rest (index + 1)
    | none => segmentAt c cursor rest (index + 1)

/-- The miss of `read_block_entry`. -/
def fetchBlockEntry (segmentIndex blockIndex : Nat) : LazyM BlockEntry := do
  let reader ← get
  let segment ← attempt (okOr reader.segments[segmentIndex]?
    (.format "lazy segment index outside reader"))
  let entry ← attempt (readLazyBlockEntry segment.file segment.index blockIndex)
  let blockEntries ← attempt (reader.blockEntries.put reader.cacheCapacity
    (StoreError.format "lazy block-entry eviction order is empty")
    (toLex (segmentIndex, blockIndex)) entry)
  set { reader with blockEntries := blockEntries }
  return entry

def readBlockEntry (segmentIndex blockIndex : Nat) : LazyM BlockEntry := do
  match (← get).blockEntries.kept.get (toLex (segmentIndex, blockIndex)) with
  | some entry => return entry
  | none => fetchBlockEntry segmentIndex blockIndex

section Blocks

variable (P : Primitives) (room : Nat)

/-- The miss of `load_block`. -/
def fetchBlock (segmentIndex blockIndex : Nat) (block : BlockEntry) : LazyM Bytes := do
  let reader ← get
  let segment ← attempt (okOr reader.segments[segmentIndex]?
    (.format "lazy segment index outside reader"))
  let decoded ← attempt (decodeBlock P segment block)
  let cache ← attempt (reader.cache.put reader.cacheCapacity
    (StoreError.format "lazy cache eviction order is empty") (toLex (segmentIndex, blockIndex))
    decoded)
  set { reader with cache := cache }
  attempt (okOr (cache.kept.get (toLex (segmentIndex, blockIndex)))
    (.format "lazy cache insertion failed"))

def loadBlock (segmentIndex blockIndex : Nat) (block : BlockEntry) : LazyM Bytes := do
  match (← get).cache.kept.get (toLex (segmentIndex, blockIndex)) with
  | some decoded => return decoded
  | none => fetchBlock P segmentIndex blockIndex block

/-- The part of one block that lies in front of `localEnd`, behind `output`, and where it ends. -/
def copyBlock (c : Column) (segmentIndex : Nat) (entry : StreamEntry) (blockSize localEnd : Nat)
    (localCursor : Nat) (output : Bytes) : LazyM (Bytes × Nat) := do
  let blockPosition := min (localCursor / blockSize) (entry.blockCount - 1)
  let position ← attempt (okOr (tryFrom 32 blockPosition) (.format "lazy block position overflow"))
  let blockIndex ← attempt (okOr (checkedAdd 32 entry.firstBlock position)
    (.format "lazy block index overflow"))
  let block ← readBlockEntry segmentIndex blockIndex
  attempt (failIf (block.streamId ≠ c.id) (.format "lazy block belongs to wrong stream"))
  let blockEndRaw ← attempt (okOr (checkedAdd 64 block.rawOffset block.rawLen)
    (.format "lazy block raw end overflow"))
  attempt (failIf (localCursor < block.rawOffset ∨ blockEndRaw ≤ localCursor ∨
    entry.rawLen < blockEndRaw) (.format "lazy block exceeds stream raw length"))
  let decoded ← loadBlock P segmentIndex blockIndex block
  let copied ← attempt (okOr (slice decoded (localCursor - block.rawOffset)
    (min localEnd blockEndRaw - block.rawOffset))
    (.format "lazy block copy range outside decoded block"))
  let output ← attempt (extendFromSlice room output copied)
  let global ← attempt (okOr (checkedAdd 64 entry.globalStart (min blockEndRaw localEnd))
    (.format "lazy stream cursor overflow"))
  return (output, global - entry.globalStart)

/-- The loop over the blocks of one segment. Every turn moves the cursor. -/
def copyBlocks (c : Column) (segmentIndex : Nat) (entry : StreamEntry) (blockSize localEnd : Nat) :
    Nat → Nat → Bytes → LazyM Bytes
  | 0, localCursor, output => if localCursor < localEnd then throw .diverged else pure output
  | fuel + 1, localCursor, output =>
    if localCursor < localEnd then do
      let (output, next) ← copyBlock P room c segmentIndex entry blockSize localEnd localCursor
        output
      copyBlocks c segmentIndex entry blockSize localEnd fuel next output
    else pure output

/-- The part of a range that lies in one segment, and where it ends. -/
def copySegment (c : Column) (stop cursor : Nat) (output : Bytes) : LazyM (Bytes × Nat) := do
  let reader ← get
  let (segmentIndex, entry) ← attempt (okOr (segmentAt c cursor reader.segments 0)
    (.format "lazy stream range has no sealed segment"))
  let segmentEnd := min stop entry.globalEnd
  let localStart ← attempt (okOr (checkedSub cursor entry.globalStart)
    (.format "lazy stream local offset underflow"))
  let localEnd ← attempt (okOr (checkedSub segmentEnd entry.globalStart)
    (.format "lazy stream local end underflow"))
  attempt (failIf (entry.blockCount = 0) (.format "lazy stream has no blocks"))
  let segment ← attempt (okOr reader.segments[segmentIndex]?
    (.format "lazy segment index outside reader"))
  let output ← copyBlocks P room c segmentIndex entry segment.index.header.blockSize localEnd
    (localEnd - localStart) localStart output
  return (output, segmentEnd)

/-- The loop over the segments. Every turn moves the cursor. -/
def copySegments (c : Column) (stop : Nat) : Nat → Nat → Bytes → LazyM Bytes
  | 0, cursor, output => if cursor < stop then throw .diverged else pure output
  | fuel + 1, cursor, output =>
    if cursor < stop then do
      let (output, next) ← copySegment P room c stop cursor output
      copySegments c stop fuel next output
    else pure output

/-- The payload that was decoded as a whole, for the payload stream. -/
def decodedStream (reader : LazyCheckpointStore) (c : Column) : Option Bytes :=
  if c = .payload then reader.payloadFast else none

/-- The rest of `append_stream_range` for a range that is not empty. -/
def copyRange (c : Column) (start stop : Nat) (output : Bytes) : LazyM Bytes := do
  match (← get).decodedStream c with
  | some payload =>
    let part ← attempt (okOr (slice payload start stop)
      (.format "lazy fast payload range outside decoded stream"))
    attempt (extendFromSlice room output part)
  | none =>
    let result ← copySegments P room c stop (stop - start) start output
    attempt (failIf (result.length - output.length ≠ stop - start)
      (.format "lazy stream range returned unexpected length"))
    return result

def appendStreamRange (c : Column) (start length : Nat) (output : Bytes) : LazyM Bytes := do
  let reader ← get
  let stop ← attempt (okOr (checkedAdd 64 start length) (.format "lazy stream range overflow"))
  attempt (failIf (reader.manifest.streamSizes c < stop)
    (.format "lazy stream range outside manifest"))
  if length = 0 then return output
  else copyRange P room c start stop output

/-- The output is a vector of the length that was asked for, before the range is looked at. -/
def readStreamRange (c : Column) (start length : Nat) : LazyM Bytes := do
  attempt (failIf (room < length) .capacity)
  appendStreamRange P room c start length []

def readStreamAll (c : Column) : LazyM Bytes := do
  readStreamRange P room c 0 ((← get).manifest.streamSizes c)

end Blocks

/-! ## Checkpoints -/

section Checkpoints

variable (P : Primitives) (room : Nat)

/-- A compact leaf. -/
def lazyLeaf (field0 field1 : Bytes) : Except StoreError DecodedNode := do
  let offset ← readU64 field0 0
  let length ← readU32 field1 0
  .ok (.leaf offset length)

/-- A compact binary node; its children are relative to its own id. -/
def lazyBinary (nodeId : Nat) (field0 : Bytes) : Except StoreError DecodedNode := do
  let leftDelta ← readU32 field0 0
  let rightDelta ← readU32 field0 4
  failIf (leftDelta = 0 ∨ rightDelta = 0 ∨ leftDelta > nodeId ∨ rightDelta > nodeId)
    (.format "lazy compact binary delta underflow")
  .ok (.binary (nodeId - leftDelta) (nodeId - rightDelta))

/-- A wide node of the given kind code. -/
def lazyWide (nodeId : Nat) (kind : UInt8) (a b : Bytes) : Except StoreError DecodedNode :=
  if kind = 0 then do
    let offset ← readU64 a 0
    let length ← readU64 b 0
    .ok (.leaf offset length)
  else if kind = 1 then do
    let left ← readU64 a 0
    let right ← readU64 b 0
    failIf (nodeId ≤ left ∨ nodeId ≤ right) (.format "lazy wide binary child not prior")
    .ok (.binary left right)
  else .error (.format "lazy wide node kind invalid")

/-- One byte of a kind column. -/
def readKind (c : Column) (index : Nat) (missing : String) : LazyM UInt8 := do
  let bytes ← readStreamRange P room c index 1
  attempt (okOr bytes.head? (.format missing))

def decodeWideNode (nodeId wideIndex : Nat) : LazyM DecodedNode := do
  let reader ← get
  attempt (failIf (reader.manifest.streamSizes .wideKind ≤ wideIndex)
    (.format "lazy wide index outside committed records"))
  let wideOffset ← attempt (okOr (checkedMul 64 wideIndex 8)
    (.format "lazy wide offset overflow"))
  let kind ← readKind P room .wideKind wideIndex "lazy wide kind missing"
  let a ← readStreamRange P room .wideA wideOffset 8
  let b ← readStreamRange P room .wideB wideOffset 8
  attempt (lazyWide nodeId kind a b)

/-- The node of a kind code, with the offsets of its two fields. -/
def decodeKind (nodeId field0Offset field1Offset : Nat) (kind : UInt8) : LazyM DecodedNode :=
  if kind = 0 then do
    let field0 ← readStreamRange P room .nodeField0 field0Offset 8
    let field1 ← readStreamRange P room .nodeField1 field1Offset 4
    attempt (lazyLeaf field0 field1)
  else if kind = 1 then do
    let field0 ← readStreamRange P room .nodeField0 field0Offset 8
    attempt (lazyBinary nodeId field0)
  else if kind = 2 then do
    let field0 ← readStreamRange P room .nodeField0 field0Offset 8
    let wideIndex ← attempt (readU64 field0 0)
    decodeWideNode P room nodeId wideIndex
  else throw (.format "lazy node kind invalid")

def decodeNode (nodeId : Nat) : LazyM DecodedNode := do
  let reader ← get
  attempt (failIf (reader.manifest.streamSizes .nodeKind ≤ nodeId)
    (.format "lazy node id outside committed nodes"))
  let field0Offset ← attempt (okOr (checkedMul 64 nodeId 8)
    (.format "lazy node field0 offset overflow"))
  let field1Offset ← attempt (okOr (checkedMul 64 nodeId 4)
    (.format "lazy node field1 offset overflow"))
  let kind ← readKind P room .nodeKind nodeId "lazy node kind missing"
  decodeKind P room nodeId field0Offset field1Offset kind

/-- One turn pops a node: a leaf is emitted, a binary node is replaced by its children. -/
def extractLoop : Nat → List Nat → Bytes → LazyM Bytes
  | _, [], out => pure out
  | 0, _ :: _, _ => throw .diverged
  | fuel + 1, nodeId :: stack, out => do
    match ← decodeNode P room nodeId with
    | .leaf start length =>
      let stop ← attempt (okOr (checkedAdd 64 start length)
        (.format "lazy leaf byte end overflow"))
      let length ← attempt (okOr (checkedSub stop start) (.format "lazy leaf range underflow"))
      let out ← appendStreamRange P room .payload start length out
      extractLoop fuel stack out
    | .binary left right => extractLoop fuel (left :: right :: stack) out

/-- The children of a node have smaller ids. -/
def extractRoot (root : Nat) : LazyM Bytes := extractLoop P room (2 ^ (root + 1)) [root] []

def extractVersion (version : Nat) : LazyM Bytes := do
  let reader ← get
  let root ← attempt (versionRoot reader.metadata.versions version)
  extractRoot P room root

def extractOptional (version : Option Nat) : LazyM (Option Bytes) :=
  match version with
  | none => pure none
  | some version => do
    let bytes ← extractVersion P room version
    return some bytes

def reconstructCheckpoint (checkpoint : CheckpointInfo) : LazyM Bytes := do
  let identity ← extractVersion P room checkpoint.identityVersion
  let messages ← extractOptional P room checkpoint.messagesVersion
  let result ← extractOptional P room checkpoint.resultVersion
  attempt (extendFromSlices room [] (canonicalSlices identity (messages.getD []) result))

def readCheckpointOrdinal (ordinal : Nat) : LazyM Bytes := do
  let reader ← get
  let checkpoint ← attempt (okOr reader.metadata.checkpoints[ordinal]?
    (.format "checkpoint ordinal outside metadata"))
  reconstructCheckpoint P room checkpoint

def readCheckpoint (key : CheckpointKey) : LazyM Bytes := do
  let reader ← get
  let ordinal ← attempt (okOr (reader.metadata.checkpointOrdinals.get key)
    (if reader.deletedCheckpoints.containsKey key then .checkpointDeleted else .checkpointNotFound))
  readCheckpointOrdinal P room ordinal

/-! ### Verification -/

def verifySegmentIndexChecksum (segment : LazySegment) : Except StoreError Unit := do
  let header := segment.index.header
  let indexLen ← okOr (checkedAdd 64 header.streamTableBytes header.blockTableBytes)
    (.format "lazy segment index length overflow")
  failIf (room < indexLen) .capacity
  let index ← readExact segment.file header.indexOffset indexLen
  failIf (P.xxh3 index ≠ header.indexHash) (.format "lazy segment index checksum mismatch")

def verifySegmentIndexChecksums : List LazySegment → Except StoreError Unit
  | [] => .ok ()
  | segment :: rest => do
    verifySegmentIndexChecksum P room segment
    verifySegmentIndexChecksums rest

structure VerificationReport where
  checkpointCount : Nat
  failures : Nat
deriving DecidableEq, Repr

/-- The checkpoints that do not have their recorded length and hash. -/
def countFailures : List CheckpointInfo → Nat → LazyM Nat
  | [], failures => pure failures
  | checkpoint :: rest, failures => do
    let bytes ← reconstructCheckpoint P room checkpoint
    if bytes.length ≠ checkpoint.logicalStateLen ∨ P.xxh3 bytes ≠ checkpoint.stateHash then
      countFailures rest (saturatingAdd 64 failures 1)
    else countFailures rest failures

def verifyAll : LazyM VerificationReport := do
  let reader ← get
  attempt (verifySegmentIndexChecksums P room reader.segments)
  let failures ← countFailures P room reader.metadata.checkpoints 0
  return { checkpointCount := reader.metadata.checkpoints.length, failures := failures }

end Checkpoints

end LazyCheckpointStore

end TulyaStore.Checkpoint
