import Mathlib.Data.Fintype.Pi
import TulyaStore.Checkpoint.Record

/-!
# Sealed segments

A segment file holds the suffixes of the 22 column streams that one generation adds
(`segment.rs`): a header, compressed blocks, one entry per stream and one per block. The
streaming writer cuts what is pushed to a stream into blocks of a fixed raw size;
`finalize` flushes what is left and writes the tables. `readSegmentIndexFile` parses a file and
checks it, and `readSegmentStreams` appends its suffixes to the streams read so far
(`materialize_sealed_state` in `state.rs`).
-/

namespace TulyaStore.Checkpoint

open Lib

/-! ## Columns -/

/-- The column streams, in the order of their stream ids. -/
inductive Column where
  | payload
  | nodeField0
  | nodeField1
  | nodeKind
  | wideKind
  | wideA
  | wideB
  | wideC
  | versionRoot
  | versionParent
  | threadOffsets
  | threadBytes
  | cpThread
  | cpNo
  | cpIdOffsets
  | cpIdBytes
  | cpParentOrdinal
  | cpIdentityVersion
  | cpMessagesVersion
  | cpResultVersion
  | cpLogicalLen
  | cpStateHash
deriving DecidableEq, Repr

def Column.all : List Column :=
  [.payload, .nodeField0, .nodeField1, .nodeKind, .wideKind, .wideA, .wideB, .wideC,
    .versionRoot, .versionParent, .threadOffsets, .threadBytes, .cpThread, .cpNo, .cpIdOffsets,
    .cpIdBytes, .cpParentOrdinal, .cpIdentityVersion, .cpMessagesVersion, .cpResultVersion,
    .cpLogicalLen, .cpStateHash]

/-- The stream id. -/
def Column.id (c : Column) : Nat := c.ctorIdx

theorem Column.mem_all (c : Column) : c ∈ Column.all := by
  cases c <;> decide

theorem Column.nodup_all : Column.all.Nodup := by decide

instance : Fintype Column := ⟨⟨Column.all, Column.nodup_all⟩, Column.mem_all⟩

/-- `STREAM_NAMES.len()` -/
def streamCount : Nat := 22

theorem Column.getElem?_all (c : Column) : Column.all[c.id]? = some c := by
  cases c <;> rfl

def segmentMagic : Bytes := ascii "T3STRS02"

def segmentFormatVersion : Nat := 2

def segmentHeaderSize : Nat := 120

def streamEntrySize : Nat := 40

def blockEntrySize : Nat := 40

/-! ## Records of a segment -/

structure SegmentHeader where
  generation : Nat
  checkpointStartCount : Nat
  checkpointEndCount : Nat
  versionStartCount : Nat
  versionEndCount : Nat
  blockSize : Nat
  blockCount : Nat
  payloadOffset : Nat
  payloadBytes : Nat
  indexOffset : Nat
  streamTableBytes : Nat
  blockTableBytes : Nat
  indexHash : UInt64
deriving DecidableEq, Repr

structure StreamEntry where
  globalStart : Nat
  globalEnd : Nat
  rawLen : Nat
  firstBlock : Nat
  blockCount : Nat
  rawHash : UInt64
deriving DecidableEq, Repr

structure BlockEntry where
  streamId : Nat
  rawOffset : Nat
  encodedOffset : Nat
  rawLen : Nat
  encodedLen : Nat
  rawHash : UInt64
deriving DecidableEq, Repr

structure SegmentMeta where
  generation : Nat
  walStartBytes : Nat
  walEndBytes : Nat
  checkpointStartCount : Nat
  checkpointEndCount : Nat
  versionStartCount : Nat
  versionEndCount : Nat
  rawStreamBytes : Nat
  streamStarts : Column → Nat
  streamEnds : Column → Nat
  segmentFileBytes : Nat
  indexBytes : Nat
  indexHash : UInt64
  blockSize : Nat
  blockCount : Nat
  zstdLevel : Int
deriving DecidableEq

structure LocalBlock where
  rawOffset : Nat
  encodedOffset : Nat
  rawLen : Nat
  encodedLen : Nat
  rawHash : UInt64
deriving DecidableEq, Repr

/-- One stream of the writer; `hashed` is everything its hasher was fed. -/
structure StreamState where
  rawBuf : Bytes
  rawLen : Nat
  flushedRawLen : Nat
  blocks : List LocalBlock
  hashed : Bytes
deriving DecidableEq, Repr

def StreamState.new : StreamState := ⟨[], 0, 0, [], []⟩

/-- The writer; `payload` is what the file holds behind the header. -/
structure StreamingSegmentWriter where
  states : Column → StreamState
  streamStarts : Column → Nat
  blockSize : Nat
  zstdLevel : Int
  generation : Nat
  checkpointStart : Nat
  versionStart : Nat
  payload : Bytes
  payloadBytes : Nat

/-! ## Writing -/

section Write

variable (P : Primitives)

def StreamState.rawHash (state : StreamState) : UInt64 :=
  if state.rawLen = 0 then 0 else P.xxh3 state.hashed

namespace StreamingSegmentWriter

def new (generation : Nat) (streamStarts : Column → Nat) (checkpointStart versionStart : Nat)
    (blockSize : Nat) (zstdLevel : Int) : StreamingSegmentWriter where
  states := fun _ => .new
  streamStarts := streamStarts
  blockSize := blockSize
  zstdLevel := zstdLevel
  generation := generation
  checkpointStart := checkpointStart
  versionStart := versionStart
  payload := []
  payloadBytes := 0

def currentStreamLen (w : StreamingSegmentWriter) (c : Column) : Except StoreError Nat :=
  okOr (checkedAdd 64 (w.streamStarts c) (w.states c).rawLen) (.format "stream length overflow")

def setState (w : StreamingSegmentWriter) (c : Column) (state : StreamState) :
    StreamingSegmentWriter :=
  { w with states := Function.update w.states c state }

def flushStreamBlock (w : StreamingSegmentWriter) (c : Column) :
    Except StoreError StreamingSegmentWriter :=
  let state := w.states c
  if state.rawBuf.isEmpty then .ok w
  else do
    let raw := state.rawBuf
    let encoded := P.compress w.zstdLevel raw
    let rawLen ← okOr (tryFrom 32 raw.length) (.format "raw block length overflow")
    let encodedLen ← okOr (tryFrom 32 encoded.length) (.format "encoded block length overflow")
    let flushed ← okOr (checkedAdd 64 state.flushedRawLen rawLen)
      (.format "flushed raw length overflow")
    let payloadBytes ← okOr (checkedAdd 64 w.payloadBytes encodedLen)
      (.format "encoded payload length overflow")
    let block : LocalBlock :=
      { rawOffset := state.flushedRawLen, encodedOffset := w.payloadBytes, rawLen := rawLen,
        encodedLen := encodedLen, rawHash := P.xxh3 raw }
    .ok { w.setState c { state with
            rawBuf := [], flushedRawLen := flushed, blocks := state.blocks ++ [block] } with
          payload := w.payload ++ encoded, payloadBytes := payloadBytes }

def flushIfFull (w : StreamingSegmentWriter) (c : Column) :
    Except StoreError StreamingSegmentWriter :=
  if (w.states c).rawBuf.length = w.blockSize then flushStreamBlock P w c else .ok w

/-- The loop of `push`: fill the buffer, flush it when it is full. -/
def pushLoop (c : Column) : Nat → Bytes → StreamingSegmentWriter →
    Except StoreError StreamingSegmentWriter
  | 0, data, w => if data.isEmpty then .ok w else .error .diverged
  | fuel + 1, data, w =>
    if data.isEmpty then .ok w
    else do
      let state := w.states c
      let take := min (w.blockSize - state.rawBuf.length) data.length
      let next ← flushIfFull P
        (w.setState c { state with rawBuf := state.rawBuf ++ data.take take }) c
      pushLoop c fuel (data.drop take) next

def push (w : StreamingSegmentWriter) (c : Column) (data : Bytes) :
    Except StoreError StreamingSegmentWriter := do
  let state := w.states c
  let rawLen ← okOr (checkedAdd 64 state.rawLen data.length) (.format "stream raw length overflow")
  pushLoop P c data.length data
    (w.setState c { state with rawLen := rawLen, hashed := state.hashed ++ data })

def pushU32 (w : StreamingSegmentWriter) (c : Column) (value : Nat) :
    Except StoreError StreamingSegmentWriter := push P w c (leBytes 4 value)

def pushU64 (w : StreamingSegmentWriter) (c : Column) (value : Nat) :
    Except StoreError StreamingSegmentWriter := push P w c (leBytes 8 value)

end StreamingSegmentWriter

/-! ## Finishing -/

def SegmentHeader.body (h : SegmentHeader) : Bytes :=
  segmentMagic ++ leBytes 4 segmentFormatVersion ++ leBytes 4 streamCount ++
    leBytes 8 h.generation ++ leBytes 8 h.checkpointStartCount ++
    leBytes 8 h.checkpointEndCount ++ leBytes 8 h.versionStartCount ++
    leBytes 8 h.versionEndCount ++ leBytes 4 h.blockSize ++ leBytes 4 h.blockCount ++
    leBytes 8 h.payloadOffset ++ leBytes 8 h.payloadBytes ++ leBytes 8 h.indexOffset ++
    leBytes 8 h.streamTableBytes ++ leBytes 8 h.blockTableBytes ++ leBytes 8 h.indexHash.toNat

/-- The header ends with its own checksum. -/
def segmentHeaderBytes (h : SegmentHeader) : Bytes := withChecksum P h.body

def StreamEntry.bytes (e : StreamEntry) : Bytes :=
  leBytes 8 e.globalStart ++ leBytes 8 e.globalEnd ++ leBytes 8 e.rawLen ++
    leBytes 4 e.firstBlock ++ leBytes 4 e.blockCount ++ leBytes 8 e.rawHash.toNat

def BlockEntry.bytes (e : BlockEntry) : Bytes :=
  leBytes 4 e.streamId ++ leBytes 4 0 ++ leBytes 8 e.rawOffset ++ leBytes 8 e.encodedOffset ++
    leBytes 4 e.rawLen ++ leBytes 4 e.encodedLen ++ leBytes 8 e.rawHash.toNat

namespace StreamingSegmentWriter

def flushAll (w : StreamingSegmentWriter) : List Column → Except StoreError StreamingSegmentWriter
  | [] => .ok w
  | c :: cs => do
    let next ← flushStreamBlock P w c
    flushAll next cs

/-- The block entries of one stream. -/
def blockEntries (w : StreamingSegmentWriter) (c : Column) : List BlockEntry :=
  (w.states c).blocks.map (fun block =>
    { streamId := c.id, rawOffset := block.rawOffset, encodedOffset := block.encodedOffset,
      rawLen := block.rawLen, encodedLen := block.encodedLen, rawHash := block.rawHash })

/-- The stream table, given the number of block entries in front of the first stream. -/
def streamEntries (w : StreamingSegmentWriter) : Nat → List Column →
    Except StoreError (List StreamEntry)
  | _, [] => .ok []
  | count, c :: cs => do
    let state := w.states c
    let first ← okOr (tryFrom 32 count) (.format "block index overflow")
    let stop ← okOr (checkedAdd 64 (w.streamStarts c) state.rawLen)
      (.format "stream end overflow")
    let blockCount ← okOr (tryFrom 32 state.blocks.length) (.format "stream block count overflow")
    let rest ← streamEntries w (count + state.blocks.length) cs
    .ok ({ globalStart := w.streamStarts c, globalEnd := stop, rawLen := state.rawLen,
           firstBlock := first, blockCount := blockCount, rawHash := state.rawHash P } :: rest)

/-- The sum of the raw lengths, checked after each stream. -/
def rawTotal : Nat → List StreamEntry → Except StoreError Nat
  | total, [] => .ok total
  | total, e :: es => do
    let next ← okOr (checkedAdd 64 total e.rawLen) (.format "raw segment total overflow")
    rawTotal next es

/-- The finished file and its manifest entry. -/
def finalize (w : StreamingSegmentWriter) (walStart walEnd checkpointEnd versionEnd : Nat) :
    Except StoreError (SegmentMeta × Bytes) := do
  let w ← flushAll P w Column.all
  let streams ← streamEntries P w 0 Column.all
  let blocks := (Column.all.map w.blockEntries).flatten
  let index := (streams.map StreamEntry.bytes).flatten ++ (blocks.map BlockEntry.bytes).flatten
  let indexHash := if index.isEmpty then 0 else P.xxh3 index
  let indexOffset ← okOr (checkedAdd 64 segmentHeaderSize w.payloadBytes)
    (.format "segment index offset overflow")
  let blockCount ← okOr (tryFrom 32 blocks.length) (.format "block count overflow")
  let blockTableBytes ← okOr (checkedMul 64 blocks.length blockEntrySize)
    (.format "block table length overflow")
  let header : SegmentHeader :=
    { generation := w.generation, checkpointStartCount := w.checkpointStart,
      checkpointEndCount := checkpointEnd, versionStartCount := w.versionStart,
      versionEndCount := versionEnd, blockSize := w.blockSize, blockCount := blockCount,
      payloadOffset := segmentHeaderSize, payloadBytes := w.payloadBytes,
      indexOffset := indexOffset, streamTableBytes := streamCount * streamEntrySize,
      blockTableBytes := blockTableBytes, indexHash := indexHash }
  let file := segmentHeaderBytes P header ++ w.payload ++ index
  -- the length of a file is a `u64`: a longer one cannot be written
  let fileBytes ← okOr (tryFrom 64 file.length) .io
  let rawTotal ← rawTotal 0 streams
  let ends := fun (c : Column) => (streams[c.id]?.map StreamEntry.globalEnd).getD 0
  .ok ({ generation := w.generation, walStartBytes := walStart, walEndBytes := walEnd,
         checkpointStartCount := w.checkpointStart, checkpointEndCount := checkpointEnd,
         versionStartCount := w.versionStart, versionEndCount := versionEnd,
         rawStreamBytes := rawTotal, streamStarts := w.streamStarts, streamEnds := ends,
         segmentFileBytes := fileBytes, indexBytes := index.length, indexHash := indexHash,
         blockSize := w.blockSize, blockCount := blockCount, zstdLevel := w.zstdLevel }, file)

end StreamingSegmentWriter

end Write

/-! ## Reading -/

section Read

variable (P : Primitives)

/-- The bytes of a file at an offset (`seek` and `read_exact`). -/
def readExact (file : Bytes) (offset length : Nat) : Except StoreError Bytes :=
  okOr (slice file offset (offset + length)) .io

def parseSegmentHeader (data : Bytes) : Except StoreError SegmentHeader := do
  failIf (data.length < segmentHeaderSize ∨ data.take 8 ≠ segmentMagic)
    (.format "segment magic/header mismatch")
  let version ← readU32 data 8
  failIf (version ≠ segmentFormatVersion) (.format "segment format version mismatch")
  let streams ← readU32 data 12
  failIf (streams ≠ streamCount) (.format "segment stream count mismatch")
  let generation ← readU64 data 16
  let checkpointStartCount ← readU64 data 24
  let checkpointEndCount ← readU64 data 32
  let versionStartCount ← readU64 data 40
  let versionEndCount ← readU64 data 48
  let blockSize ← readU32 data 56
  let blockCount ← readU32 data 60
  let payloadOffset ← readU64 data 64
  let payloadBytes ← readU64 data 72
  let indexOffset ← readU64 data 80
  let streamTableBytes ← readU64 data 88
  let blockTableBytes ← readU64 data 96
  let indexHash ← readU64 data 104
  let headerHash ← readU64 data 112
  failIf ((P.xxh3 (data.take 112)).toNat ≠ headerHash) (.format "segment header checksum mismatch")
  failIf (blockSize = 0 ∨ payloadOffset ≠ segmentHeaderSize)
    (.format "segment header geometry mismatch")
  let indexStart ← okOr (checkedAdd 64 payloadOffset payloadBytes)
    (.format "segment index offset overflow")
  failIf (indexOffset ≠ indexStart ∨ streamTableBytes ≠ streamCount * streamEntrySize)
    (.format "segment header geometry mismatch")
  let tableBytes ← okOr (checkedMul 64 blockCount blockEntrySize)
    (.format "block table size overflow")
  failIf (blockTableBytes ≠ tableBytes) (.format "segment header geometry mismatch")
  .ok { generation, checkpointStartCount, checkpointEndCount, versionStartCount,
        versionEndCount, blockSize, blockCount, payloadOffset, payloadBytes, indexOffset,
        streamTableBytes, blockTableBytes, indexHash := UInt64.ofNat indexHash }

def readStreamEntry (index : Bytes) (base : Nat) : Except StoreError StreamEntry := do
  let globalStart ← readU64 index base
  let globalEnd ← readU64 index (base + 8)
  let rawLen ← readU64 index (base + 16)
  let firstBlock ← readU32 index (base + 24)
  let blockCount ← readU32 index (base + 28)
  let rawHash ← readU64 index (base + 32)
  .ok { globalStart, globalEnd, rawLen, firstBlock, blockCount, rawHash := UInt64.ofNat rawHash }

def readBlockEntry (index : Bytes) (base : Nat) : Except StoreError BlockEntry := do
  let streamId ← readU32 index base
  let rawOffset ← readU64 index (base + 8)
  let encodedOffset ← readU64 index (base + 16)
  let rawLen ← readU32 index (base + 24)
  let encodedLen ← readU32 index (base + 28)
  let rawHash ← readU64 index (base + 32)
  .ok { streamId, rawOffset, encodedOffset, rawLen, encodedLen, rawHash := UInt64.ofNat rawHash }

/-- `count` stream entries from position `i` on. -/
def readStreamTable (index : Bytes) (blockCount : Nat) : Nat → Nat →
    Except StoreError (List StreamEntry)
  | 0, _ => .ok []
  | count + 1, i => do
    let entry ← readStreamEntry index (i * streamEntrySize)
    failIf (entry.globalEnd < entry.globalStart ∨
        entry.rawLen ≠ entry.globalEnd - entry.globalStart ∨
        entry.firstBlock + entry.blockCount > blockCount) (.format "segment stream entry invalid")
    let rest ← readStreamTable index blockCount count (i + 1)
    .ok (entry :: rest)

/-- `count` block entries from position `i` of the table at `base` on. -/
def readBlockTable (index : Bytes) (base payloadBytes : Nat) : Nat → Nat →
    Except StoreError (List BlockEntry)
  | 0, _ => .ok []
  | count + 1, i => do
    let entry ← readBlockEntry index (base + i * blockEntrySize)
    let stop ← okOr (checkedAdd 64 entry.encodedOffset entry.encodedLen)
      (.format "encoded block end overflow")
    failIf (streamCount ≤ entry.streamId ∨ stop > payloadBytes)
      (.format "segment block entry invalid")
    let rest ← readBlockTable index base payloadBytes count (i + 1)
    .ok (entry :: rest)

structure ParsedSegmentIndex where
  header : SegmentHeader
  streams : List StreamEntry
  blocks : List BlockEntry
deriving DecidableEq, Repr

def readSegmentIndexFile (file : Bytes) : Except StoreError ParsedSegmentIndex := do
  let headerBytes ← readExact file 0 segmentHeaderSize
  let header ← parseSegmentHeader P headerBytes
  let indexLen ← okOr (checkedAdd 64 header.streamTableBytes header.blockTableBytes)
    (.format "segment index length overflow")
  let indexEnd ← okOr (checkedAdd 64 header.indexOffset indexLen)
    (.format "segment index end overflow")
  failIf (indexEnd ≠ file.length) (.format "segment index does not end at file boundary")
  let index ← readExact file header.indexOffset indexLen
  failIf (P.xxh3 index ≠ header.indexHash) (.format "segment index checksum mismatch")
  let streams ← readStreamTable index header.blockCount streamCount 0
  let blocks ← readBlockTable index header.streamTableBytes header.payloadBytes header.blockCount 0
  .ok { header, streams, blocks }

/-- The raw bytes of the blocks, decompressed and checked. -/
def readBlocks (file : Bytes) (header : SegmentHeader) (streamId : Nat) :
    List BlockEntry → Except StoreError Bytes
  | [] => .ok []
  | block :: blocks => do
    failIf (block.streamId ≠ streamId) (.format "block belongs to wrong stream")
    let start ← okOr (checkedAdd 64 header.payloadOffset block.encodedOffset)
      (.format "encoded block file offset overflow")
    let encoded ← readExact file start block.encodedLen
    let raw ← okOr (P.decompress encoded block.rawLen) .codec
    failIf (raw.length ≠ block.rawLen ∨ P.xxh3 raw ≠ block.rawHash)
      (.format "sealed block decompression/hash mismatch")
    let rest ← readBlocks file header streamId blocks
    .ok (raw ++ rest)

/-- The suffix of one stream; `current` is how much of it is there already. -/
def readSegmentStream (file : Bytes) (parsed : ParsedSegmentIndex) (streamId current : Nat)
    (entry : StreamEntry) : Except StoreError Bytes := do
  failIf (current ≠ entry.globalStart) (.format "sealed stream global start is not contiguous")
  let blocks ← okOr (slice parsed.blocks entry.firstBlock (entry.firstBlock + entry.blockCount))
    (.format "stream block range outside table")
  let raw ← readBlocks P file parsed.header streamId blocks
  failIf (raw.length ≠ entry.rawLen ∨ (entry.rawLen > 0 ∧ P.xxh3 raw ≠ entry.rawHash))
    (.format "sealed stream raw length/hash mismatch")
  .ok raw

/-- The streams with the suffixes of one segment appended. -/
def readSegmentStreams (file : Bytes) (parsed : ParsedSegmentIndex) :
    List (Column × StreamEntry) → (Column → Bytes) → Except StoreError (Column → Bytes)
  | [], streams => .ok streams
  | (c, entry) :: rest, streams => do
    let raw ← readSegmentStream P file parsed c.id (streams c).length entry
    readSegmentStreams file parsed rest (Function.update streams c (streams c ++ raw))

/-- One turn of the loop over the manifest's segments. -/
def readSegment (file : Bytes) (segment : SegmentMeta) (streams : Column → Bytes) :
    Except StoreError (Column → Bytes) := do
  let parsed ← readSegmentIndexFile P file
  failIf (parsed.header.generation ≠ segment.generation ∨
      parsed.header.checkpointStartCount ≠ segment.checkpointStartCount ∨
      parsed.header.checkpointEndCount ≠ segment.checkpointEndCount ∨
      parsed.header.versionStartCount ≠ segment.versionStartCount ∨
      parsed.header.versionEndCount ≠ segment.versionEndCount)
    (.format "segment header disagrees with manifest")
  readSegmentStreams P file parsed (Column.all.zip parsed.streams) streams

end Read

end TulyaStore.Checkpoint
