import TulyaStore.Checkpoint.Apply

/-!
# Reading checkpoints

A version is the root of a tree of nodes over the payload bytes. Whole versions are read
with an explicit stack, ranges with a stack of requests that descends by the sizes of the
left children (`transaction.rs`, `store.rs`). The functions are the same for the eager and
the lazy store and differ in where nodes and bytes come from: that is the `NodeReader`.

A node's children have smaller ids, so `2 ^ (n + 1)` turns of a loop are enough for the tree
under node `n`, and `n + 1` levels for its size. Nodes are shared, so a small table can stand for
more bytes than any vector holds: what a vector can grow to is the `room` of a read, at most
`isize::MAX` bytes and less where memory is short.
-/

namespace TulyaStore.Checkpoint

open Lib

inductive DecodedNode where
  | leaf (offset length : Nat)
  | binary (left right : Nat)
deriving DecidableEq, Repr

def decodeWide (record : Bytes) (nodeId : Nat) : Except StoreError DecodedNode := do
  let kind ← readU32 record 0
  if kind = wideKindLeaf then do
    let offset ← readU64 record 8
    let length ← readU64 record 16
    .ok (.leaf offset length)
  else if kind = wideKindBinary then do
    let left ← readU64 record 8
    let right ← readU64 record 16
    failIf (nodeId ≤ left ∨ nodeId ≤ right) (.format "wide binary child not prior")
    .ok (.binary left right)
  else .error (.format "unknown wide node kind")

/-- The node in a slot; its children are relative to its own id. -/
def decodeSlot (state : StoreState) (nodeId : Nat) (slot : Bytes) :
    Except StoreError DecodedNode := do
  let kind ← readU32 slot 12
  if kind = kindLeaf then do
    let offset ← readU64 slot 0
    let length ← readU32 slot 8
    .ok (.leaf offset length)
  else if kind = kindBinary then do
    let leftDelta ← readU32 slot 0
    let rightDelta ← readU32 slot 4
    failIf (leftDelta = 0 ∨ rightDelta = 0 ∨ leftDelta > nodeId ∨ rightDelta > nodeId)
      (.format "compact binary delta underflow")
    .ok (.binary (nodeId - leftDelta) (nodeId - rightDelta))
  else if kind = kindWide then do
    let wideIndex ← readU64 slot 0
    let base := state.lazyBaseGeometry.wideCount
    failIf (wideIndex < base) (.format "wide index belongs to lazy sealed base")
    let start := (wideIndex - base) * wideRecordSize
    let record ← okOr (slice state.wideNodes start (start + wideRecordSize))
      (.format "wide index outside committed records")
    decodeWide record nodeId
  else .error (.format "unknown compact node kind")

def decodeNode (state : StoreState) (nodeId : Nat) : Except StoreError DecodedNode := do
  let base := state.lazyBaseGeometry.nodeCount
  failIf (nodeId < base) (.format "node id belongs to lazy sealed base")
  let start := (nodeId - base) * compactNodeSize
  let slot ← okOr (slice state.compactNodes start (start + compactNodeSize))
    (.format "node id outside committed compact nodes")
  decodeSlot state nodeId slot

/-- Where nodes and payload bytes come from. -/
structure NodeReader where
  decode : Nat → Except StoreError DecodedNode
  /-- The bytes of a whole leaf. -/
  leafBytes : Nat → Nat → Except StoreError Bytes
  /-- A range of payload bytes, by start and length. -/
  payloadRange : Nat → Nat → Except StoreError Bytes

/-- The eager store reads everything from its own state. -/
def eagerReader (state : StoreState) : NodeReader where
  decode := decodeNode state
  leafBytes := fun offset length =>
    okOr (slice state.arenaBytes offset (offset + length))
      (.format "leaf bytes outside committed arena")
  payloadRange := fun start length =>
    let base := state.lazyBaseGeometry.byteLen
    if start < base then .error (.format "lazy base reader is missing")
    else okOr (slice state.arenaBytes (start - base) (start - base + length))
      (.format "checkpoint overlay range outside payload")

/-- `extend_from_slice` of a vector that can hold `room` bytes. -/
def extendFromSlice (room : Nat) (out bytes : Bytes) : Except StoreError Bytes := do
  failIf (room < out.length + bytes.length) .capacity
  .ok (out ++ bytes)

/-- One `extend_from_slice` after the other. -/
def extendFromSlices (room : Nat) : Bytes → List Bytes → Except StoreError Bytes
  | out, [] => .ok out
  | out, bytes :: rest => do
    let out ← extendFromSlice room out bytes
    extendFromSlices room out rest

section Read

variable (R : NodeReader) (room : Nat)

/-- One turn pops a node: a leaf is emitted, a binary node is replaced by its children. -/
def extractLoop : Nat → List Nat → Bytes → Except StoreError Bytes
  | _, [], out => .ok out
  | 0, _ :: _, _ => .error .diverged
  | fuel + 1, nodeId :: stack, out => do
    match ← R.decode nodeId with
    | .leaf offset length =>
      let bytes ← R.leafBytes offset length
      let out ← extendFromSlice room out bytes
      extractLoop fuel stack out
    | .binary left right => extractLoop fuel (left :: right :: stack) out

def extractRoot (root : Nat) : Except StoreError Bytes :=
  extractLoop R room (2 ^ (root + 1)) [root] []

/-- The root node of a version. -/
def versionRoot (versions : List (Option Nat)) (version : Nat) : Except StoreError Nat :=
  okOr (versions[version]?.join) (.format "version has no root")

def extractVersion (versions : List (Option Nat)) (version : Nat) : Except StoreError Bytes := do
  let root ← versionRoot versions version
  extractRoot R room root

def extractOptional (versions : List (Option Nat)) (version : Option Nat) :
    Except StoreError (Option Bytes) :=
  match version with
  | none => .ok none
  | some version => do
    let bytes ← extractVersion R room versions version
    .ok (some bytes)

def messagesOpen : Bytes := ascii ",\"messages\":["

def messagesClose : Bytes := ascii "]"

def resultOpen : Bytes := ascii ",\"result\":"

def stateClose : Bytes := ascii "\x7d"

/-- The text of the result channel. -/
def resultText (result : Option Bytes) : Bytes :=
  match result with
  | some result => resultOpen ++ result
  | none => []

/-- The canonical state of a checkpoint over its channels. -/
def canonicalState (identity messages : Bytes) (result : Option Bytes) : Bytes :=
  identityPrefix ++ identity ++ messagesOpen ++ messages ++ messagesClose ++ resultText result ++
    stateClose

/-- What the canonical state is written from, in turn. -/
def canonicalSlices (identity messages : Bytes) (result : Option Bytes) : List Bytes :=
  [identityPrefix, identity, messagesOpen, messages, messagesClose] ++
    (match result with
      | some result => [resultOpen, result]
      | none => []) ++ [stateClose]

def reconstructCheckpoint (versions : List (Option Nat)) (checkpoint : CheckpointInfo) :
    Except StoreError Bytes := do
  let identity ← extractVersion R room versions checkpoint.identityVersion
  let messages ← extractOptional R room versions checkpoint.messagesVersion
  let result ← extractOptional R room versions checkpoint.resultVersion
  extendFromSlices room [] (canonicalSlices identity (messages.getD []) result)

/-! ## Ranges -/

/-- The number of bytes under a node, by levels of the tree. -/
def rootTermSizeAt : Nat → Nat → Except StoreError Nat
  | 0, _ => .error .diverged
  | level + 1, nodeId => do
    match ← R.decode nodeId with
    | .leaf _ length => .ok length
    | .binary left right =>
      let leftSize ← rootTermSizeAt level left
      let rightSize ← rootTermSizeAt level right
      okOr (checkedAdd 64 leftSize rightSize) (.format "checkpoint root term size overflow")

def rootTermSize (root : Nat) : Except StoreError Nat := rootTermSizeAt R (root + 1) root

/-- The requests a binary node passes on, the left child's first. -/
def splitRequest (leftSize left right offset length : Nat) : List (Nat × Nat × Nat) :=
  let leftPart :=
    if offset < leftSize ∧ 0 < min (leftSize - offset) length then
      [(left, offset, min (leftSize - offset) length)] else []
  let rightLength := length - (leftSize - offset)
  let rightPart :=
    if leftSize < offset + length ∧ 0 < rightLength then
      [(right, offset - leftSize, rightLength)] else []
  leftPart ++ rightPart

/-- One turn pops a request `(node, offset, length)`. -/
def rangeLoop : Nat → List (Nat × Nat × Nat) → Bytes → Except StoreError Bytes
  | _, [], out => .ok out
  | 0, _ :: _, _ => .error .diverged
  | fuel + 1, (nodeId, offset, length) :: stack, out =>
    if length = 0 then rangeLoop fuel stack out
    else do
      match ← R.decode nodeId with
      | .leaf leafOffset leafLength =>
        failIf (leafLength ≤ offset) (.format "checkpoint leaf range outside leaf")
        let start ← okOr (checkedAdd 64 leafOffset offset)
          (.format "checkpoint leaf range start overflow")
        let bytes ← R.payloadRange start (min (leafLength - offset) length)
        rangeLoop fuel stack (out ++ bytes)
      | .binary left right =>
        let leftSize ← rootTermSize R left
        let _ ← okOr (checkedAdd 64 offset length) (.format "checkpoint node range end overflow")
        rangeLoop fuel (splitRequest leftSize left right offset length ++ stack) out

def appendRootRangeWithKnownSize (root rootLen offset length : Nat) : Except StoreError Bytes := do
  let stop ← okOr (checkedAdd 64 offset length) (.format "checkpoint root range end overflow")
  failIf (stop > rootLen) (.format "checkpoint root range outside root")
  rangeLoop R (2 ^ (root + 1)) [(root, offset, length)] []

/-- The part of `bytes`, standing at `segmentStart`, that a request covers, after `output`;
returns the end of the segment too. -/
def appendStaticRange (bytes : Bytes) (segmentStart requestStart requestEnd : Nat)
    (output : Bytes) : Except StoreError (Nat × Bytes) := do
  let segmentEnd ← okOr (checkedAdd 64 segmentStart bytes.length)
    (.format "canonical static segment end overflow")
  let overlapStart := max requestStart segmentStart
  let overlapEnd := min requestEnd segmentEnd
  if overlapStart < overlapEnd then do
    let part ← okOr (slice bytes (overlapStart - segmentStart) (overlapEnd - segmentStart))
      (.format "canonical static range outside segment")
    .ok (segmentEnd, output ++ part)
  else .ok (segmentEnd, output)

/-- The same for the bytes under a root of known size. -/
def appendRootSegmentRange (root rootLen segmentStart requestStart requestEnd : Nat)
    (output : Bytes) : Except StoreError (Nat × Bytes) := do
  let segmentEnd ← okOr (checkedAdd 64 segmentStart rootLen)
    (.format "canonical root segment end overflow")
  let overlapStart := max requestStart segmentStart
  let overlapEnd := min requestEnd segmentEnd
  if overlapStart < overlapEnd then do
    let part ← appendRootRangeWithKnownSize R root rootLen (overlapStart - segmentStart)
      (overlapEnd - overlapStart)
    .ok (segmentEnd, output ++ part)
  else .ok (segmentEnd, output)

/-- A root with its size (`persistent_root_for_read`). -/
def persistentRootForRead (versions : List (Option Nat)) (version : Nat) :
    Except StoreError (Nat × Nat) := do
  let root ← versionRoot versions version
  let size ← rootTermSize R root
  .ok (root, size)

def optionalRootForRead (versions : List (Option Nat)) (version : Option Nat) :
    Except StoreError (Option (Nat × Nat)) :=
  match version with
  | none => .ok none
  | some version => do
    let root ← persistentRootForRead R versions version
    .ok (some root)

/-- The message channel of a range read, when there is one. -/
def appendMessagesRange (root : Option (Nat × Nat)) (start stop cursor : Nat) (output : Bytes) :
    Except StoreError (Nat × Bytes) :=
  match root with
  | none => .ok (cursor, output)
  | some (root, size) => appendRootSegmentRange R root size cursor start stop output

/-- The result channel of a range read, when there is one. -/
def appendResultRange (root : Option (Nat × Nat)) (start stop cursor : Nat) (output : Bytes) :
    Except StoreError (Nat × Bytes) :=
  match root with
  | none => .ok (cursor, output)
  | some (root, size) => do
    let (cursor, output) ← appendStaticRange resultOpen cursor start stop output
    appendRootSegmentRange R root size cursor start stop output

def appendCanonicalRange (versions : List (Option Nat)) (checkpoint : CheckpointInfo)
    (start stop : Nat) : Except StoreError Bytes := do
  let identityRoot ← persistentRootForRead R versions checkpoint.identityVersion
  let messagesRoot ← optionalRootForRead R versions checkpoint.messagesVersion
  let resultRoot ← optionalRootForRead R versions checkpoint.resultVersion
  let (cursor, output) ← appendStaticRange identityPrefix 0 start stop []
  let (cursor, output) ← appendRootSegmentRange R identityRoot.1 identityRoot.2 cursor start stop
    output
  let (cursor, output) ← appendStaticRange messagesOpen cursor start stop output
  let (cursor, output) ← appendMessagesRange R messagesRoot start stop cursor output
  let (cursor, output) ← appendStaticRange messagesClose cursor start stop output
  let (cursor, output) ← appendResultRange R resultRoot start stop cursor output
  let (cursor, output) ← appendStaticRange stateClose cursor start stop output
  failIf (cursor ≠ checkpoint.logicalStateLen)
    (.format "canonical checkpoint length disagrees with metadata")
  .ok output

end Read

/-! ## Lookups -/

/-- The committed checkpoint under a key. -/
def findCheckpoint (state : StoreState) (key : CheckpointKey) :
    Except StoreError CheckpointInfo := do
  let ordinal ← okOr (state.checkpointOrdinals.get key)
    (if state.deletedCheckpoints.containsKey key then .checkpointDeleted else .checkpointNotFound)
  okOr state.checkpoints[ordinal]? (.format "checkpoint ordinal outside metadata")

section Keys

variable (R : NodeReader) (room : Nat) (state : StoreState) (key : CheckpointKey)

def readCheckpoint : Except StoreError Bytes := do
  let checkpoint ← findCheckpoint state key
  reconstructCheckpoint R room state.versions checkpoint

/-- The output is a vector of the length that was asked for (`with_capacity`). -/
def readCheckpointRange (offset length : Nat) : Except StoreError Bytes := do
  let checkpoint ← findCheckpoint state key
  let stop ← okOr (checkedAdd 64 offset length) (.format "checkpoint range end overflow")
  failIf (stop > checkpoint.logicalStateLen) (.format "checkpoint range outside canonical state")
  if length = 0 then .ok []
  else do
    failIf (room < length) .capacity
    let output ← appendCanonicalRange R state.versions checkpoint offset stop
    failIf (output.length ≠ length) (.format "checkpoint range produced unexpected length")
    .ok output

/-- The chunks a stream of `length` bytes from `cursor` on hands to its sink, joined. -/
def streamLoop (chunkBytes : Nat) : Nat → Nat → Nat → Bytes → Except StoreError Bytes
  | 0, cursor, stop, out => if cursor < stop then .error .diverged else .ok out
  | fuel + 1, cursor, stop, out =>
    if cursor < stop then do
      let take := min chunkBytes (stop - cursor)
      let chunk ← readCheckpointRange R room state key cursor take
      streamLoop chunkBytes fuel (cursor + take) stop (out ++ chunk)
    else .ok out

/-- `stream_checkpoint_range` into a sink that keeps what it is given. -/
def streamCheckpointRange (offset length chunkBytes : Nat) : Except StoreError Bytes := do
  failIf (chunkBytes = 0) (.format "checkpoint stream chunk size must be positive")
  if length = 0 then do
    let _ ← readCheckpointRange R room state key offset 0
    .ok []
  else do
    let stop ← okOr (checkedAdd 64 offset length) (.format "checkpoint stream range end overflow")
    streamLoop R room state key chunkBytes length offset stop []

end Keys

end TulyaStore.Checkpoint
