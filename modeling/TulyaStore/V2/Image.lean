import TulyaStore.Sequence.Compaction
import TulyaStore.Lib.Layout

/-!
# Sequence images

A `T2I2` image (`image_v2.rs`) holds a whole arena and a table of roots: payload, node records and
root records behind a header with a digest. Importing an image (`import_image` of `avl.rs`) checks
every node against what it is made of, in the order of the table: a leaf takes the payload bytes
that follow those of the leaf in front of it, a branch names two earlier nodes.
-/

namespace TulyaStore.V2

open Lib Sequence

def v2ImageMagic : Bytes := ascii "T2I2"

def v2ImageVersion : Nat := 2

/-- `V2_IMAGE_HEADER_SIZE` -/
def v2ImageHeaderSize : Nat := 72

/-- `V2_IMAGE_PREFIX_SIZE`, the header without its digest. -/
def v2ImagePrefixSize : Nat := 40

def v2ImageMaxRecordSize : Nat := 4096

def v2ImageDomain : Bytes := ascii "tulya-sequence-v2/image\x00"

inductive V2ImageError where
  | format (error : V2FormatError)
  | invalid (message : String)
  | overflow (message : String)
deriving DecidableEq, Repr

structure V2SequenceImage where
  payload : Bytes
  nodes : List V2NodeRecord
  roots : List V2RootRecord
deriving DecidableEq, Repr

structure V2ImageHeader where
  payloadLen : Nat
  nodeCount : Nat
  rootCount : Nat
  nodeRecordSize : Nat
  rootRecordSize : Nat
deriving DecidableEq, Repr

def validateRecordSize (size : Nat) (message : String) : Except V2ImageError Unit :=
  failIf (size = 0 ∨ size > v2ImageMaxRecordSize) (.invalid message)

/-- `checked_total_len` of an image. -/
def checkedImageLen (header : V2ImageHeader) : Except V2ImageError Nat := do
  let nodeBytes ← okOr (checkedMul 64 header.nodeCount header.nodeRecordSize)
    (.overflow "v2 image node table length exceeds usize")
  let rootBytes ← okOr (checkedMul 64 header.rootCount header.rootRecordSize)
    (.overflow "v2 image root table length exceeds usize")
  let overflow := .overflow "v2 image total length exceeds usize"
  let withPayload ← okOr (checkedAdd 64 v2ImageHeaderSize header.payloadLen) overflow
  let withNodes ← okOr (checkedAdd 64 withPayload nodeBytes) overflow
  okOr (checkedAdd 64 withNodes rootBytes) overflow

/-- `encode_header_prefix` of an image. -/
def imageHeaderPrefix (header : V2ImageHeader) : Bytes :=
  v2ImageMagic ++ leBytes 4 v2ImageVersion ++ leBytes 8 header.payloadLen ++
    leBytes 8 header.nodeCount ++ leBytes 8 header.rootCount ++ leBytes 4 header.nodeRecordSize ++
    leBytes 4 header.rootRecordSize

/-- A record of a table has the width of the first one. -/
def canonicalWidth (width : Nat) (message : String) (encoded : Bytes) :
    Except V2ImageError Bytes := do
  failIf (encoded.length ≠ width) (.invalid message)
  return encoded

section Codec

variable (sha256 : Bytes → Digest)

def imageDigest (headerPrefix body : Bytes) : Digest :=
  sha256 (v2ImageDomain ++ headerPrefix ++ body)

def encodeV2Image (image : V2SequenceImage) : Except V2ImageError Bytes := do
  failIf (image.payload = []) (.invalid "v2 image payload must be non-empty")
  let firstNode ← okOr image.nodes.head? (.invalid "v2 image node table must be non-empty")
  let firstRoot ← okOr image.roots.head? (.invalid "v2 image root table must be non-empty")
  let nodeRecordSize ← okOr (tryFrom 32 (encodeV2Node firstNode).length)
    (.overflow "v2 image node record size exceeds u32")
  let rootRecordSize ← okOr (tryFrom 32 (encodeV2Root firstRoot).length)
    (.overflow "v2 image root record size exceeds u32")
  validateRecordSize nodeRecordSize "v2 image node record size is outside bounds"
  validateRecordSize rootRecordSize "v2 image root record size is outside bounds"
  let payloadLen ← okOr (tryFrom 64 image.payload.length)
    (.overflow "v2 image payload length exceeds u64")
  let nodeCount ← okOr (tryFrom 64 image.nodes.length) (.overflow "v2 image node count exceeds u64")
  let rootCount ← okOr (tryFrom 64 image.roots.length) (.overflow "v2 image root count exceeds u64")
  let header : V2ImageHeader := ⟨payloadLen, nodeCount, rootCount, nodeRecordSize, rootRecordSize⟩
  let totalLen ← checkedImageLen header
  let headerPrefix := imageHeaderPrefix header
  let nodes ← (image.nodes.map encodeV2Node).mapM
    (canonicalWidth nodeRecordSize "v2 image node records do not have one canonical width")
  let roots ← (image.roots.map encodeV2Root).mapM
    (canonicalWidth rootRecordSize "v2 image root records do not have one canonical width")
  let body := image.payload ++ nodes.flatten ++ roots.flatten
  failIf (v2ImageHeaderSize + body.length ≠ totalLen)
    (.invalid "v2 image encoder produced an unexpected byte length")
  return headerPrefix ++ (imageDigest sha256 headerPrefix body).toList ++ body

/-- `decode_header` of an image. -/
def decodeImageHeader (bytes : Bytes) : Except V2ImageError V2ImageHeader := do
  failIf (bytes.length < v2ImageHeaderSize) (.invalid "v2 image header is truncated")
  failIf (slice bytes 0 4 ≠ some v2ImageMagic) (.invalid "v2 image magic mismatch")
  let version ← okOr (readLe 4 bytes 4) (.invalid "v2 image version is truncated")
  failIf (version ≠ v2ImageVersion) (.invalid "v2 image version is unsupported")
  let payloadLen ← okOr (readLe 8 bytes 8) (.invalid "v2 image payload length is truncated")
  let nodeCount ← okOr (readLe 8 bytes 16) (.invalid "v2 image node count is truncated")
  let rootCount ← okOr (readLe 8 bytes 24) (.invalid "v2 image root count is truncated")
  let nodeRecordSize ← okOr (readLe 4 bytes 32) (.invalid "v2 image node record size is truncated")
  let rootRecordSize ← okOr (readLe 4 bytes 36) (.invalid "v2 image root record size is truncated")
  failIf (payloadLen = 0) (.invalid "v2 image payload must be non-empty")
  failIf (nodeCount = 0) (.invalid "v2 image node table must be non-empty")
  failIf (rootCount = 0) (.invalid "v2 image root table must be non-empty")
  validateRecordSize nodeRecordSize "v2 image node record size is outside bounds"
  validateRecordSize rootRecordSize "v2 image root record size is outside bounds"
  return ⟨payloadLen, nodeCount, rootCount, nodeRecordSize, rootRecordSize⟩

/-- The reader of the node records. -/
def imageNodeDecoder (_ : Nat) : Except V2ImageError (Bytes → Except V2ImageError V2NodeRecord) :=
  .ok fun part => mapErr .format (decodeV2Node part)

/-- The reader of the root records. -/
def imageRootDecoder (_ : Nat) : Except V2ImageError (Bytes → Except V2ImageError V2RootRecord) :=
  .ok fun part => mapErr .format (decodeV2Root part)

/-- The checks of `decode_v2_image` on the length and the digest. -/
def checkImageDigest (bytes : Bytes) (header : V2ImageHeader) : Except V2ImageError Unit := do
  let expectedLen ← checkedImageLen header
  failIf (bytes.length ≠ expectedLen) (.invalid "v2 image byte length mismatch")
  let storedDigest ← okOr (readArray 32 bytes v2ImagePrefixSize)
    (.invalid "v2 image digest is truncated")
  let expectedDigest := imageDigest sha256 (bytes.take v2ImagePrefixSize)
    (bytes.drop v2ImageHeaderSize)
  failIf (storedDigest ≠ expectedDigest) (.invalid "v2 image digest mismatch")

def decodeV2Image (bytes : Bytes) : Except V2ImageError V2SequenceImage := do
  let header ← decodeImageHeader bytes
  checkImageDigest sha256 bytes header
  let payloadEnd ← okOr (checkedAdd 64 v2ImageHeaderSize header.payloadLen)
    (.overflow "v2 image payload range exceeds usize")
  let payload ← okOr (slice bytes v2ImageHeaderSize payloadEnd)
    (.invalid "v2 image payload is truncated")
  let (nodes, nodesEnd) ← readRecords
    (fixedStep header.nodeRecordSize imageNodeDecoder (.overflow "v2 image node range exceeds usize")
      (.invalid "v2 image node table is truncated") bytes) header.nodeCount 0 payloadEnd
  let (roots, rootsEnd) ← readRecords
    (fixedStep header.rootRecordSize imageRootDecoder (.overflow "v2 image root range exceeds usize")
      (.invalid "v2 image root table is truncated") bytes) header.rootCount 0 nodesEnd
  failIf (rootsEnd ≠ bytes.length) (.invalid "v2 image decoder did not consume all bytes")
  return ⟨payload, nodes, roots⟩

/-! ## Import -/

/-- `V2AvlError` with the errors of the image. -/
inductive V2ImportError where
  | image (error : V2ImageError)
  | avl (error : V2AvlError)
deriving DecidableEq, Repr

/-- The nodes built so far and the payload their leaves have taken. -/
structure ImportState where
  nodes : List ArenaNode
  expectedPayloadOffset : Nat
deriving DecidableEq, Repr

/-- One round of the loop of `import_image`. -/
def importNode (payload : Bytes) (state : ImportState) (entry : V2NodeRecord × Nat) :
    Except V2AvlError ImportState := do
  let record := entry.1
  let sequence : V2AvlSequence := ⟨payload, state.nodes⟩
  let nodeId ← okOr (tryFrom 64 entry.2) (.overflow "v2 image node index exceeds u64")
  match ← v2NodeFields record with
  | .leaf payloadOffset payloadLen =>
    failIf (payloadOffset ≠ state.expectedPayloadOffset)
      (.invalid "v2 image leaf payloads are not contiguous in allocation order")
    let payloadEnd ← okOr (checkedAdd 64 payloadOffset payloadLen)
      (.overflow "v2 image leaf payload range exceeds u64")
    let bytes ← ArenaStore.arenaReadPayload sequence payloadOffset payloadEnd
    let expected ← liftFormat (V2NodeRecord.leaf sha256 payloadOffset bytes)
    failIf (expected ≠ record) (.invalid "v2 image leaf metadata or commitment verification failed")
    return ⟨state.nodes ++ [.leaf payloadOffset payloadLen record], payloadEnd⟩
  | .branch leftNodeId rightNodeId leftLen =>
    failIf (leftNodeId ≥ nodeId ∨ rightNodeId ≥ nodeId)
      (.invalid "v2 image branch child must reference an earlier arena node")
    let left ← rootForNodeIdOn sequence leftNodeId
    let right ← rootForNodeIdOn sequence rightNodeId
    failIf (left.logicalLen ≠ leftLen)
      (.invalid "v2 image branch left length disagrees with its child")
    let expected ← liftFormat (V2NodeRecord.branch sha256 left right)
    failIf (expected ≠ record)
      (.invalid "v2 image branch metadata or commitment verification failed")
    return ⟨state.nodes ++ [.branch left right record], state.expectedPayloadOffset⟩

/-- What `import_image` does with a decoded image. -/
def importArena (image : V2SequenceImage) : Except V2AvlError V2AvlSequence := do
  let state ← image.nodes.zipIdx.foldlM (importNode sha256 image.payload) ⟨[], 0⟩
  failIf (state.expectedPayloadOffset ≠ image.payload.length)
    (.invalid "v2 image contains payload bytes not owned by canonical leaves")
  let sequence : V2AvlSequence := ⟨image.payload, state.nodes⟩
  image.roots.forM (requireRoot sequence)
  return sequence

/-- `import_image` -/
def importImage (bytes : Bytes) : Except V2ImportError (V2AvlSequence × List V2RootRecord) := do
  let image ← mapErr .image (decodeV2Image sha256 bytes)
  let sequence ← mapErr .avl (importArena sha256 image)
  return (sequence, image.roots)

/-- `export_image` -/
def exportImage (sequence : V2AvlSequence) (roots : List V2RootRecord) :
    Except V2ImportError Bytes := do
  failIf (roots = []) (.avl (.invalid "v2 image export requires at least one retained root"))
  mapErr .avl (roots.forM (requireRoot sequence))
  mapErr .image
    (encodeV2Image sha256 ⟨sequence.payload, sequence.nodes.map ArenaNode.record, roots⟩)

end Codec

end TulyaStore.V2
