import TulyaStore.V2.Image
import TulyaStore.V2.TransactionCodec

/-!
# Images read back

The decoder of `T2I2` accepts exactly what the encoder writes (`decodeV2Image_eq_ok`).
-/

namespace TulyaStore.V2

open Lib Sequence

@[simp] theorem length_v2ImageMagic : v2ImageMagic.length = 4 := by decide

def rootTable (roots : List V2RootRecord) : Bytes := (roots.map encodeV2Root).flatten

@[simp] theorem length_rootTable (roots : List V2RootRecord) :
    (rootTable roots).length = roots.length * 56 := by
  rw [rootTable, length_flatten_records (w := 56) (by simp), List.length_map]

/-- The sections of an image are not empty. -/
structure V2SequenceImage.Filled (image : V2SequenceImage) : Prop where
  payload : image.payload ≠ []
  nodes : image.nodes ≠ []
  roots : image.roots ≠ []

def imageHeader (image : V2SequenceImage) : V2ImageHeader :=
  ⟨image.payload.length, image.nodes.length, image.roots.length, 72, 56⟩

def imageBody (image : V2SequenceImage) : Bytes :=
  image.payload ++ nodeTable image.nodes ++ rootTable image.roots

theorem length_imageBody (image : V2SequenceImage) :
    (imageBody image).length =
      image.payload.length + image.nodes.length * 72 + image.roots.length * 56 := by
  simp [imageBody, Nat.add_assoc]

@[simp] theorem length_imageHeaderPrefix (header : V2ImageHeader) :
    (imageHeaderPrefix header).length = 40 := by
  simp [imageHeaderPrefix]

theorem checkedImageLen_eq_ok {header : V2ImageHeader} {total : Nat} :
    checkedImageLen header = .ok total ↔
      total = v2ImageHeaderSize + (header.payloadLen + header.nodeCount * header.nodeRecordSize +
        header.rootCount * header.rootRecordSize) ∧ total < width 64 := by
  simp only [checkedImageLen, bind_eq_ok, okOr_eq_ok, checkedAdd_eq_some, checkedMul,
    tryFrom_eq_some]
  constructor
  · rintro ⟨_, ⟨-, rfl⟩, _, ⟨-, rfl⟩, _, ⟨-, rfl⟩, _, ⟨-, rfl⟩, hLt, rfl⟩
    exact ⟨by omega, hLt⟩
  · rintro ⟨rfl, hLt⟩
    exact ⟨_, ⟨by omega, rfl⟩, _, ⟨by omega, rfl⟩, _, ⟨by omega, rfl⟩, _, ⟨by omega, rfl⟩,
      by omega, by omega⟩

theorem validateRecordSize_eq_ok {size : Nat} {message : String} {u : Unit} :
    validateRecordSize size message = .ok u ↔ 1 ≤ size ∧ size ≤ v2ImageMaxRecordSize := by
  simp only [validateRecordSize, failIf_eq_ok, not_or, gt_iff_lt, Nat.not_lt,
    Nat.one_le_iff_ne_zero, ne_eq]

theorem mapM_canonicalWidth {w : Nat} {message : String} {parts : List Bytes}
    (h : ∀ part ∈ parts, part.length = w) : parts.mapM (canonicalWidth w message) = .ok parts := by
  rw [mapM_eq_ok, List.forall₂_same]
  intro part hMem
  rw [canonicalWidth, failIf_neg (not_not.mpr (h part hMem)), ok_bind]
  rfl

theorem head?_ne_none {α : Type} {xs : List α} (h : xs ≠ []) : ∃ x, xs.head? = some x :=
  ⟨xs.head h, List.head?_eq_some_head h⟩

section Codec

variable (sha256 : Bytes → Digest)

def imageDigestOf (image : V2SequenceImage) : Digest :=
  imageDigest sha256 (imageHeaderPrefix (imageHeader image)) (imageBody image)

def imageBytes (image : V2SequenceImage) : Bytes :=
  imageHeaderPrefix (imageHeader image) ++ (imageDigestOf sha256 image).toList ++ imageBody image

theorem length_imageBytes (image : V2SequenceImage) :
    (imageBytes sha256 image).length = v2ImageHeaderSize + (imageBody image).length := by
  simp [imageBytes, v2ImageHeaderSize, ← Nat.add_assoc]

end Codec

section Codec

variable {sha256 : Bytes → Digest} {image : V2SequenceImage} {bytes : Bytes}

/-- The encoder writes `imageBytes` for every filled image that is not too long. -/
theorem encodeV2Image_eq_ok :
    encodeV2Image sha256 image = .ok bytes ↔
      image.Filled ∧ v2ImageHeaderSize + (imageBody image).length < width 64 ∧
        bytes = imageBytes sha256 image := by
  have hMax : v2ImageMaxRecordSize = 4096 := rfl
  have hWidth : width 32 = 4294967296 := by decide
  have hLen := length_imageBody image
  have hNodes : ∀ message, (image.nodes.map encodeV2Node).mapM (canonicalWidth 72 message) =
      .ok (image.nodes.map encodeV2Node) := fun message => mapM_canonicalWidth (by simp)
  have hRoots : ∀ message, (image.roots.map encodeV2Root).mapM (canonicalWidth 56 message) =
      .ok (image.roots.map encodeV2Root) := fun message => mapM_canonicalWidth (by simp)
  simp only [encodeV2Image, bind_eq_ok, failIf_eq_ok, okOr_eq_ok, tryFrom_eq_some,
    length_encodeV2Node, length_encodeV2Root, validateRecordSize_eq_ok, checkedImageLen_eq_ok,
    not_not, pure_eq_ok, exists_const]
  constructor
  · rintro ⟨hPayload, firstNode, hFirstNode, firstRoot, hFirstRoot, nodeSize, ⟨-, hNodeSize⟩, rootSize,
      ⟨-, hRootSize⟩, -, -, payloadLen, ⟨-, hPayloadLen⟩, nodeCount, ⟨-, hNodeCount⟩, rootCount,
      ⟨-, hRootCount⟩, total, ⟨-, hTotal⟩, nodes, hNodeTable, roots, hRootTable, hAll, hBytes⟩
    rw [hNodeSize, hNodes] at hNodeTable
    rw [hRootSize, hRoots] at hRootTable
    cases hNodeTable
    cases hRootTable
    rw [hNodeSize, hRootSize, hPayloadLen, hNodeCount, hRootCount] at hBytes
    refine ⟨⟨hPayload, ?_, ?_⟩, hAll ▸ hTotal, hBytes.symm⟩
    · intro hNil
      rw [hNil] at hFirstNode
      cases hFirstNode
    · intro hNil
      rw [hNil] at hFirstRoot
      cases hFirstRoot
  · rintro ⟨⟨hPayload, hNodesNe, hRootsNe⟩, hTotal, rfl⟩
    obtain ⟨firstNode, hFirstNode⟩ := head?_ne_none hNodesNe
    obtain ⟨firstRoot, hFirstRoot⟩ := head?_ne_none hRootsNe
    refine ⟨hPayload, firstNode, hFirstNode, firstRoot, hFirstRoot, _, ⟨by omega, rfl⟩, _,
      ⟨by omega, rfl⟩, by omega, by omega, _, ⟨by omega, rfl⟩, _, ⟨by omega, rfl⟩, _,
      ⟨by omega, rfl⟩, _, ⟨rfl, by omega⟩, _, hNodes _, _, hRoots _, ?_, rfl⟩
    rw [← hLen]
    rfl

theorem laid_imageHeader (header : V2ImageHeader) (digest : Digest) (body : Bytes) :
    bytes = imageHeaderPrefix header ++ digest.toList ++ body ↔
      slice bytes 0 4 = some v2ImageMagic ∧ slice bytes 4 8 = some (leBytes 4 v2ImageVersion) ∧
      slice bytes 8 16 = some (leBytes 8 header.payloadLen) ∧
      slice bytes 16 24 = some (leBytes 8 header.nodeCount) ∧
      slice bytes 24 32 = some (leBytes 8 header.rootCount) ∧
      slice bytes 32 36 = some (leBytes 4 header.nodeRecordSize) ∧
      slice bytes 36 40 = some (leBytes 4 header.rootRecordSize) ∧
      slice bytes 40 72 = some digest.toList ∧
      slice bytes 72 (72 + body.length) = some body ∧ 72 + body.length = bytes.length := by
  have hParts : imageHeaderPrefix header ++ digest.toList ++ body = [v2ImageMagic,
      leBytes 4 v2ImageVersion, leBytes 8 header.payloadLen, leBytes 8 header.nodeCount,
      leBytes 8 header.rootCount, leBytes 4 header.nodeRecordSize, leBytes 4 header.rootRecordSize,
      digest.toList, body].flatten := by
    simp [imageHeaderPrefix]
  rw [hParts, ← laid_iff]
  simp only [Laid, length_v2ImageMagic, length_leBytes, Vector.length_toList, Nat.reduceAdd]

/-- The ranges of the header fields. -/
structure V2ImageHeader.Fits (header : V2ImageHeader) : Prop where
  payloadLen : 1 ≤ header.payloadLen ∧ header.payloadLen < width 64
  nodeCount : 1 ≤ header.nodeCount ∧ header.nodeCount < width 64
  rootCount : 1 ≤ header.rootCount ∧ header.rootCount < width 64
  nodeRecordSize : 1 ≤ header.nodeRecordSize ∧ header.nodeRecordSize ≤ v2ImageMaxRecordSize
  rootRecordSize : 1 ≤ header.rootRecordSize ∧ header.rootRecordSize ≤ v2ImageMaxRecordSize

/-- The header and digest checks accept what the encoder writes in front of a body. -/
theorem decodeImageHeader_eq_ok {header : V2ImageHeader} {u : Unit} :
    (decodeImageHeader bytes = .ok header ∧ checkImageDigest sha256 bytes header = .ok u) ↔
      header.Fits ∧ checkedImageLen header = .ok bytes.length ∧
      ∃ body, bytes = imageHeaderPrefix header ++
        (imageDigest sha256 (imageHeaderPrefix header) body).toList ++ body := by
  have hWidth : width 32 = 256 ^ 4 := by decide
  have hWidth64 : width 64 = 256 ^ 8 := by decide
  have hHeader : v2ImageHeaderSize = 72 := rfl
  have hPrefix : v2ImagePrefixSize = 40 := rfl
  have hMax : v2ImageMaxRecordSize = 4096 := rfl
  constructor
  · rintro ⟨hHead, hCheck⟩
    simp only [decodeImageHeader, bind_eq_ok, failIf_eq_ok, okOr_eq_ok, readLe_eq_some,
      validateRecordSize_eq_ok, not_not, pure_eq_ok, exists_const, Nat.reduceAdd] at hHead
    obtain ⟨hLen, hMagic, version, ⟨hVersion, -⟩, hVersionOk, payloadLen, ⟨hPayload, hPayloadLt⟩,
      nodeCount, ⟨hNodes, hNodesLt⟩, rootCount, ⟨hRoots, hRootsLt⟩, nodeSize, ⟨hNodeSize, -⟩, rootSize,
      ⟨hRootSize, -⟩, hPayloadNe, hNodesNe, hRootsNe, hNodeSizeOk, hRootSizeOk, hResult⟩ := hHead
    simp only [checkImageDigest, bind_eq_ok, failIf_eq_ok, okOr_eq_ok, readArray_eq_some, not_not,
      exists_const] at hCheck
    obtain ⟨total, hTotal, hLenOk, digest, hDigest, hDigestOk⟩ := hCheck
    rw [hPrefix] at hDigest
    rw [hPrefix, hHeader] at hDigestOk
    rw [hVersionOk] at hVersion
    rw [← hResult] at hTotal ⊢
    have hDrop : (bytes.drop 72).length = bytes.length - 72 := List.length_drop
    have hShape := (laid_imageHeader ⟨payloadLen, nodeCount, rootCount, nodeSize, rootSize⟩ digest
      (bytes.drop 72)).mpr ⟨hMagic, hVersion, hPayload, hNodes, hRoots, hNodeSize, hRootSize, hDigest,
      slice_eq_some.mpr ⟨Nat.le_add_right _ _, by omega, by simp⟩, by omega⟩
    refine ⟨⟨by dsimp only; omega, by dsimp only; omega, by dsimp only; omega, hNodeSizeOk,
      hRootSizeOk⟩, hLenOk ▸ hTotal, bytes.drop 72, ?_⟩
    have hTake : bytes.take 40 = _ := take_of_shape hShape (by simp)
    rw [hDigestOk, hTake] at hShape
    exact hShape
  · rintro ⟨hFits, hTotal, body, hShape⟩
    have hTake : bytes.take 40 = _ := take_of_shape hShape (by simp)
    have hDrop : bytes.drop 72 = body := drop_of_shape hShape (by simp)
    obtain ⟨hMagic, hVersion, hPayload, hNodes, hRoots, hNodeSize, hRootSize, hDigest, -, hLen⟩ :=
      (laid_imageHeader _ _ _).mp hShape
    obtain ⟨hPayloadOk, hNodesOk, hRootsOk, hNodeSizeOk, hRootSizeOk⟩ := hFits
    constructor
    · simp only [decodeImageHeader, bind_eq_ok, failIf_eq_ok, okOr_eq_ok, readLe_eq_some,
        validateRecordSize_eq_ok, not_not, pure_eq_ok, exists_const, Nat.reduceAdd]
      exact ⟨by omega, hMagic, _, ⟨hVersion, by decide⟩, rfl, _, ⟨hPayload, by omega⟩, _,
        ⟨hNodes, by omega⟩, _, ⟨hRoots, by omega⟩, _, ⟨hNodeSize, by omega⟩, _,
        ⟨hRootSize, by omega⟩, by omega, by omega, by omega, hNodeSizeOk, hRootSizeOk, rfl⟩
    · simp only [checkImageDigest, bind_eq_ok, failIf_eq_ok, okOr_eq_ok, readArray_eq_some, not_not,
        exists_const]
      rw [hPrefix, hHeader]
      exact ⟨_, hTotal, rfl, _, hDigest, by rw [hTake, hDrop]⟩

theorem imageNode_reads (hBytes : bytes.length < width 64) {w : Nat}
    {overflow truncated : V2ImageError} :
    ReadsAt (fun _ node part => (node.Canonical ∧ w = 72) ∧ part = encodeV2Node node)
      (fixedStep w imageNodeDecoder overflow truncated bytes) bytes := by
  refine fixedStep_reads hBytes fun index part node => ?_
  simp only [imageNodeDecoder, Except.ok.injEq, exists_eq_left', mapErr_eq_ok, decodeV2Node_eq_ok]
  constructor
  · rintro ⟨hLen, hCanonical, rfl⟩
    exact ⟨⟨hCanonical, hLen ▸ length_encodeV2Node node⟩, rfl⟩
  · rintro ⟨⟨hCanonical, rfl⟩, rfl⟩
    exact ⟨length_encodeV2Node node, hCanonical, rfl⟩

theorem imageRoot_reads (hBytes : bytes.length < width 64) {w : Nat}
    {overflow truncated : V2ImageError} :
    ReadsAt (fun _ root part => (root.Fits ∧ w = 56) ∧ part = encodeV2Root root)
      (fixedStep w imageRootDecoder overflow truncated bytes) bytes := by
  refine fixedStep_reads hBytes fun index part root => ?_
  simp only [imageRootDecoder, Except.ok.injEq, exists_eq_left', mapErr_eq_ok, decodeV2Root_eq_ok]
  constructor
  · rintro ⟨hLen, hFits, rfl⟩
    exact ⟨⟨hFits, hLen ▸ length_encodeV2Root root⟩, rfl⟩
  · rintro ⟨⟨hFits, rfl⟩, rfl⟩
    exact ⟨length_encodeV2Root root, hFits, rfl⟩

theorem laid_imageBody {payload nodes roots : Bytes} {start : Nat} :
    slice bytes start (start + (payload ++ nodes ++ roots).length) =
        some (payload ++ nodes ++ roots) ↔
      slice bytes start (start + payload.length) = some payload ∧
      slice bytes (start + payload.length) (start + payload.length + nodes.length) = some nodes ∧
      slice bytes (start + payload.length + nodes.length)
        (start + payload.length + nodes.length + roots.length) = some roots := by
  simp only [List.append_assoc, slice_append_eq_some]

/-- The decoder accepts exactly what the encoder writes for canonical records. -/
theorem decodeV2Image_eq_ok :
    decodeV2Image sha256 bytes = .ok image ↔
      (∀ node ∈ image.nodes, node.Canonical) ∧ (∀ root ∈ image.roots, root.Fits) ∧
        encodeV2Image sha256 image = .ok bytes := by
  have hHeader : v2ImageHeaderSize = 72 := rfl
  rw [encodeV2Image_eq_ok]
  constructor
  · intro h
    simp only [decodeV2Image, bind_eq_ok, okOr_eq_ok, checkedAdd_eq_some, failIf_eq_ok, not_not,
      pure_eq_ok, exists_const] at h
    obtain ⟨header, hHead, _, hCheck, payloadEnd, ⟨-, hPayloadEnd⟩, payload, hPayload,
      ⟨nodes, nodesEnd⟩, hNodes, ⟨roots, rootsEnd⟩, hRoots, hAll, hResult⟩ := h
    obtain ⟨hFits, hTotal, body, hShape⟩ := decodeImageHeader_eq_ok.mp ⟨hHead, hCheck⟩
    have hBytes := (checkedImageLen_eq_ok.mp hTotal).2
    rw [hHeader] at hPayloadEnd hPayload
    have hPayloadLen : header.payloadLen = payload.length := by
      rw [length_of_slice hPayload, hPayloadEnd, Nat.add_sub_cancel_left]
    rw [hPayloadEnd, hPayloadLen] at hPayload hNodes
    obtain ⟨hNodeCount, nodePart, hNodeTable, hNodePart, rfl⟩ :=
      (readRecords_eq_ok (imageNode_reads hBytes) (slice_eq_some.mp hPayload).2.1).mp hNodes
    obtain ⟨hNodesOk, rfl⟩ := table_iff.mp hNodeTable
    obtain ⟨hRootCount, rootPart, hRootTable, hRootPart, hRootsEnd⟩ :=
      (readRecords_eq_ok (imageRoot_reads hBytes) (slice_eq_some.mp hNodePart).2.1).mp hRoots
    obtain ⟨hRootsOk, rfl⟩ := table_iff.mp hRootTable
    obtain ⟨node, hNode⟩ : ∃ node, nodes[0]? = some node :=
      ⟨_, List.getElem?_eq_getElem (by have := hFits.nodeCount; omega)⟩
    obtain ⟨root, hRoot⟩ : ∃ root, roots[0]? = some root :=
      ⟨_, List.getElem?_eq_getElem (by have := hFits.rootCount; omega)⟩
    have hNodeSize := (hNodesOk 0 node hNode).2
    have hRootSize := (hRootsOk 0 root hRoot).2
    let image : V2SequenceImage := ⟨payload, nodes, roots⟩
    have hSame : header = imageHeader image := by
      obtain ⟨payloadLen, nodeCount, rootCount, nodeSize, rootSize⟩ := header
      dsimp only at hPayloadLen hNodeCount hRootCount hNodeSize hRootSize
      rw [hPayloadLen, ← hNodeCount, ← hRootCount, hNodeSize, hRootSize]
      rfl
    have hBody : slice bytes 72 (72 + (imageBody image).length) = some (imageBody image) :=
      laid_imageBody.mpr ⟨hPayload, hNodePart, hRootPart⟩
    have hWhole : 72 + (imageBody image).length = bytes.length := by
      simp only [imageBody, List.length_append, ← Nat.add_assoc]
      exact hRootsEnd.symm.trans hAll
    have hBodySame : body = imageBody image := by
      have hDrop : bytes.drop 72 = body := drop_of_shape hShape (by simp)
      rw [← hDrop, ← (slice_eq_some.mp hBody).2.2, Nat.add_sub_cancel_left,
        List.take_of_length_le]
      rw [List.length_drop]
      omega
    rw [hSame, hBodySame] at hShape
    rw [← hResult]
    refine ⟨fun node hMem => ?_, fun root hMem => ?_, ⟨?_, ?_, ?_⟩, ?_, hShape⟩
    · obtain ⟨i, hGet⟩ := List.mem_iff_getElem?.mp hMem
      exact (hNodesOk i node hGet).1
    · obtain ⟨i, hGet⟩ := List.mem_iff_getElem?.mp hMem
      exact (hRootsOk i root hGet).1
    · intro hNil
      have hPos := hFits.payloadLen.1
      dsimp only at hNil
      rw [hPayloadLen, hNil] at hPos
      exact absurd hPos (by decide)
    · intro hNil
      dsimp only at hNil
      simp [hNil] at hNode
    · intro hNil
      dsimp only at hNil
      simp [hNil] at hRoot
    · change 72 + (imageBody image).length < _
      omega
  · obtain ⟨payload, nodes, roots⟩ := image
    rintro ⟨hNodesOk, hRootsOk, ⟨hPayloadNe, hNodesNe, hRootsNe⟩, hTotal, hShape⟩
    dsimp only at hNodesOk hRootsOk hPayloadNe hNodesNe hRootsNe
    have hLen : bytes.length = v2ImageHeaderSize + (imageBody ⟨payload, nodes, roots⟩).length := by
      rw [hShape, length_imageBytes]
    have hBodyLen := length_imageBody ⟨payload, nodes, roots⟩
    dsimp only at hBodyLen
    have hPayloadPos := List.length_pos_of_ne_nil hPayloadNe
    have hNodesPos := List.length_pos_of_ne_nil hNodesNe
    have hRootsPos := List.length_pos_of_ne_nil hRootsNe
    have hMax : v2ImageMaxRecordSize = 4096 := rfl
    have hBytes : bytes.length < width 64 := by omega
    have hFits : (imageHeader ⟨payload, nodes, roots⟩).Fits := by
      refine ⟨⟨hPayloadPos, ?_⟩, ⟨hNodesPos, ?_⟩, ⟨hRootsPos, ?_⟩, ⟨?_, ?_⟩, ⟨?_, ?_⟩⟩ <;>
        dsimp only [imageHeader] <;> omega
    have hTotalOk : checkedImageLen (imageHeader ⟨payload, nodes, roots⟩) = .ok bytes.length :=
      checkedImageLen_eq_ok.mpr ⟨by dsimp only [imageHeader]; omega, hBytes⟩
    obtain ⟨hHead, hCheck⟩ := (@decodeImageHeader_eq_ok sha256 _ _ ()).mpr
      ⟨hFits, hTotalOk, imageBody ⟨payload, nodes, roots⟩, hShape⟩
    have hBody : slice bytes 72 (72 + (imageBody ⟨payload, nodes, roots⟩).length) =
        some (imageBody ⟨payload, nodes, roots⟩) := by
      refine slice_eq_some.mpr ⟨Nat.le_add_right _ _, by rw [hLen, hHeader], ?_⟩
      have hDrop : bytes.drop 72 = imageBody ⟨payload, nodes, roots⟩ :=
        drop_of_shape (hShape.trans (imageBytes.eq_def _ _)) (by simp)
      rw [hDrop, Nat.add_sub_cancel_left, List.take_length]
    obtain ⟨hPayload, hNodePart, hRootPart⟩ := laid_imageBody.mp hBody
    have hNodes : ∀ overflow truncated, readRecords
        (fixedStep 72 imageNodeDecoder overflow truncated bytes) nodes.length 0
          (72 + payload.length) = .ok (nodes, 72 + payload.length + (nodeTable nodes).length) := by
      intro overflow truncated
      refine (readRecords_eq_ok (imageNode_reads hBytes) (slice_eq_some.mp hPayload).2.1).mpr
        ⟨rfl, _, table_iff.mpr ⟨fun i node hGet => ?_, rfl⟩, hNodePart, rfl⟩
      exact ⟨hNodesOk node (List.mem_of_getElem? hGet), rfl⟩
    have hRoots : ∀ overflow truncated, readRecords
        (fixedStep 56 imageRootDecoder overflow truncated bytes) roots.length 0
          (72 + payload.length + (nodeTable nodes).length) =
            .ok (roots, 72 + payload.length + (nodeTable nodes).length + (rootTable roots).length) := by
      intro overflow truncated
      refine (readRecords_eq_ok (imageRoot_reads hBytes) (slice_eq_some.mp hNodePart).2.1).mpr
        ⟨rfl, _, table_iff.mpr ⟨fun i root hGet => ?_, rfl⟩, hRootPart, rfl⟩
      exact ⟨hRootsOk root (List.mem_of_getElem? hGet), rfl⟩
    rw [decodeV2Image, hHead, ok_bind, hCheck, ok_bind]
    dsimp only [imageHeader]
    rw [checkedAdd_of_lt (by omega), okOr_some, ok_bind, hHeader, hPayload, okOr_some, ok_bind,
      hNodes, ok_bind]
    dsimp only
    rw [hRoots, ok_bind]
    dsimp only
    rw [failIf_neg (by rw [length_nodeTable, length_rootTable]; omega), ok_bind]
    rfl

theorem importImage_eq_ok {arena : V2AvlSequence} {roots : List V2RootRecord} :
    importImage sha256 bytes = .ok (arena, roots) ↔
      ∃ image, decodeV2Image sha256 bytes = .ok image ∧ importArena sha256 image = .ok arena ∧
        image.roots = roots := by
  simp only [importImage, bind_eq_ok, mapErr_eq_ok, pure_eq_ok, Prod.mk.injEq]
  constructor
  · rintro ⟨image, hDecode, _, hArena, rfl, rfl⟩
    exact ⟨image, hDecode, hArena, rfl⟩
  · rintro ⟨image, hDecode, hArena, rfl⟩
    exact ⟨image, hDecode, _, hArena, rfl, rfl⟩

end Codec

end TulyaStore.V2
