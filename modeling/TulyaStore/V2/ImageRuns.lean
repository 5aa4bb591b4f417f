import TulyaStore.V2.ImageCodec
import TulyaStore.Sequence.ArenaRuns

/-!
# Images of arenas

Importing an image succeeds exactly for the arenas whose nodes are well formed and whose leaves
tile the payload in node order, with roots of the arena (`importArena_eq_ok`). The arenas that
edits and compactions reach are of this kind, so an exported image is imported again unchanged
(`image_round_trip`).
-/

namespace TulyaStore.V2

open Lib Sequence ArenaStore
open Sequence.V2AvlSequence

section Import

variable {sha256 : Bytes → Digest} {payload : Bytes} {nodes : List ArenaNode}

/-! ## One node -/

/-- A node made from the payload behind `start` or from nodes in front of it. It ends at `stop`. -/
def NodeMade (sha256 : Bytes → Digest) (a : V2AvlSequence) (start : Nat) (node : ArenaNode)
    (stop : Nat) : Prop :=
  match node with
  | .leaf offset len record => offset = start ∧ stop = start + len ∧
      ∃ bytes, slice a.payload offset (offset + len) = some bytes ∧
        V2NodeRecord.leaf sha256 offset bytes = .ok record
  | .branch left right record => stop = start ∧ ResolvesBelow a a.nodes.length left ∧
      ResolvesBelow a a.nodes.length right ∧ V2NodeRecord.branch sha256 left right = .ok record

theorem rootForNodeIdOn_eq_ok {a : V2AvlSequence} {nodeId : Nat} {root : V2RootRecord}
    (hLen : a.nodes.length ≤ width 64) :
    rootForNodeIdOn a nodeId = .ok root ↔ root.nodeId = nodeId ∧ ∃ node,
      a.nodes[root.nodeId]? = some node ∧ V2RootRecord.fromNode root.nodeId node.record = .ok root := by
  simp only [rootForNodeIdOn, bind_eq_ok, loadNode_eq_ok, liftFormat, mapErr_eq_ok]
  constructor
  · rintro ⟨node, ⟨-, hNode⟩, hRoot⟩
    have hId := (fromNode_fields hRoot).1
    exact ⟨hId, node, hId ▸ hNode, hId ▸ hRoot⟩
  · rintro ⟨rfl, node, hNode, hRoot⟩
    have hLt := (List.getElem?_eq_some_iff.mp hNode).1
    exact ⟨node, ⟨by omega, hNode⟩, hRoot⟩

theorem importNode_eq_ok {record : V2NodeRecord} {start : Nat} {next : ImportState}
    (hRecord : record.Canonical) (hLen : nodes.length < width 64) :
    importNode sha256 payload ⟨nodes, start⟩ (record, nodes.length) = .ok next ↔
      ∃ node stop, NodeMade sha256 ⟨payload, nodes⟩ start node stop ∧ node.record = record ∧
        next = ⟨nodes ++ [node], stop⟩ := by
  have hFields := v2NodeFields_of_canonical hRecord
  obtain ⟨height, logicalLen, commitment, body⟩ := record
  cases body with
  | leaf payloadOffset payloadLen =>
    obtain ⟨-, -, -, -, hEnd⟩ := hRecord
    simp only [importNode, bind_eq_ok, tryFrom_of_lt hLen, okOr_some, Except.ok.injEq,
      exists_eq_left', hFields, failIf_eq_ok, okOr_eq_ok, checkedAdd_eq_some, readPayload_eq_ok,
      liftFormat, mapErr_eq_ok, not_not, exists_const, pure_eq_ok]
    constructor
    · rintro ⟨rfl, _, ⟨-, rfl⟩, bytes, ⟨-, -, hSlice⟩, _, hLeaf, rfl, rfl⟩
      exact ⟨.leaf payloadOffset payloadLen _, _, ⟨rfl, rfl, bytes, hSlice, hLeaf⟩, rfl, rfl⟩
    · rintro ⟨node, stop, hMade, hSame, rfl⟩
      cases node with
      | branch left right record =>
        obtain ⟨-, -, -, hBranch⟩ := hMade
        obtain ⟨-, -, -, -, -, hFields⟩ := branch_eq_ok.mp hBranch
        rw [hFields] at hSame
        cases hSame
      | leaf offset len record =>
        obtain ⟨rfl, rfl, bytes, hSlice, hLeaf⟩ := hMade
        have hBytes := length_of_slice hSlice
        obtain rfl : record = _ := hSame
        obtain ⟨-, hParts⟩ := leaf_eq_ok.mp hLeaf
        cases hParts
        have hBytesLen : bytes.length = len := by omega
        rw [hBytesLen]
        exact ⟨rfl, _, ⟨by omega, rfl⟩, bytes, ⟨by omega, by omega, hSlice⟩, _, hLeaf,
          by rw [hBytesLen], rfl⟩
  | branch leftNodeId rightNodeId leftLen =>
    simp only [importNode, bind_eq_ok, tryFrom_of_lt hLen, okOr_some, Except.ok.injEq,
      exists_eq_left', hFields, failIf_eq_ok, rootForNodeIdOn_eq_ok (a := ⟨payload, nodes⟩) hLen.le,
      liftFormat, mapErr_eq_ok, not_not, exists_const, pure_eq_ok, not_or, ge_iff_le, Nat.not_le]
    constructor
    · rintro ⟨⟨hLeft, hRight⟩, left, ⟨rfl, hLeftAt⟩, right, ⟨rfl, hRightAt⟩, -, _, hBranch, rfl, rfl⟩
      exact ⟨.branch left right _, start, ⟨rfl, ⟨hLeft, hLeftAt⟩, ⟨hRight, hRightAt⟩, hBranch⟩, rfl,
        rfl⟩
    · rintro ⟨node, stop, hMade, hSame, rfl⟩
      cases node with
      | leaf offset len record =>
        obtain ⟨-, -, bytes, -, hLeaf⟩ := hMade
        obtain ⟨-, hFields⟩ := leaf_eq_ok.mp hLeaf
        rw [hFields] at hSame
        cases hSame
      | branch left right record =>
        obtain ⟨rfl, ⟨hLeft, hLeftAt⟩, ⟨hRight, hRightAt⟩, hBranch⟩ := hMade
        obtain rfl : record = _ := hSame
        obtain ⟨-, -, -, -, -, hParts⟩ := branch_eq_ok.mp hBranch
        cases hParts
        exact ⟨⟨hLeft, hRight⟩, left, ⟨rfl, hLeftAt⟩, right, ⟨rfl, hRightAt⟩, rfl, _, hBranch, rfl,
          rfl⟩

/-! ## The table -/

theorem NodeMade.wellFormed {node : ArenaNode} {start stop : Nat}
    (hWf : WellFormed sha256 ⟨payload, nodes⟩) (hLen : nodes.length < v2NoneNode)
    (h : NodeMade sha256 ⟨payload, nodes⟩ start node stop) :
    WellFormed sha256 ⟨payload, nodes ++ [node]⟩ := by
  have hNone : v2NoneNode + 1 = width 64 := by decide
  have hRoot : V2RootRecord.fromNode nodes.length node.record = .ok ⟨nodes.length,
      node.record.logicalLen, node.record.height, node.record.commitment⟩ :=
    fromNode_eq_ok.mpr ⟨Nat.ne_of_lt hLen, rfl⟩
  have hNode : (nodes ++ [node])[nodes.length]? = some node := List.getElem?_concat_length
  have hGrows := grows_pushNode ⟨payload, nodes⟩ node
  have hChild : ∀ root, ResolvesBelow ⟨payload, nodes⟩ nodes.length root →
      ∃ t, Denotes sha256 ⟨payload, nodes ++ [node]⟩ t root := by
    rintro root ⟨-, child, hGet, hChildRoot⟩
    obtain ⟨t, root', hRoot', hDenotes⟩ := hWf _ _ hGet
    rw [hChildRoot] at hRoot'
    cases hRoot'
    exact ⟨t, hDenotes.grows hGrows⟩
  cases node with
  | leaf offset len record =>
    obtain ⟨rfl, rfl, bytes, hSlice, hLeaf⟩ := h
    have hBytes : bytes.length = len := by
      rw [length_of_slice hSlice, Nat.add_sub_cancel_left]
    rw [← hBytes] at hNode hSlice hRoot ⊢
    exact hWf.push (t := .leaf bytes) hRoot
      ⟨by dsimp only; omega, offset, record, hNode, hSlice, hLeaf, hRoot⟩
  | branch left right record =>
    obtain ⟨rfl, hLeft, hRight, hBranch⟩ := h
    obtain ⟨l, hl⟩ := hChild left hLeft
    obtain ⟨r, hr⟩ := hChild right hRight
    exact hWf.push (t := .node l r) hRoot
      ⟨by dsimp only; omega, left, right, record, hNode, hBranch, hRoot, hLeft.1, hRight.1, hl, hr⟩

theorem NodeMade.tiles {node : ArenaNode} {start stop : Nat}
    (h : NodeMade sha256 ⟨payload, nodes⟩ start node stop) (hTiles : Tiles 0 (leafRanges nodes) start) :
    Tiles 0 (leafRanges (nodes ++ [node])) stop := by
  rw [leafRanges, List.filterMap_append]
  refine tiles_append.mpr ⟨start, hTiles, ?_⟩
  cases node with
  | leaf offset len record =>
    obtain ⟨rfl, rfl, -⟩ := h
    exact ⟨rfl, rfl⟩
  | branch left right record => exact h.1.symm

/-- Every node of a tiled arena is made from what stands in front of it. -/
theorem nodeMade_of_tiled {a : V2AvlSequence} (hWf : WellFormed sha256 a) {k start : Nat}
    {node : ArenaNode} (hGet : a.nodes[k]? = some node)
    (hRest : Tiles start (leafRanges (a.nodes.drop k)) a.payload.length) :
    ∃ stop, NodeMade sha256 ⟨a.payload, a.nodes.take k⟩ start node stop ∧
      Tiles stop (leafRanges (a.nodes.drop (k + 1))) a.payload.length := by
  obtain ⟨hLt, hAt⟩ := List.getElem?_eq_some_iff.mp hGet
  have hTake : (a.nodes.take k).length = k := List.length_take_of_le hLt.le
  rw [List.drop_eq_getElem_cons hLt, hAt, leafRanges] at hRest
  have hBelow : ∀ root, ResolvesBelow a k root →
      ResolvesBelow ⟨a.payload, a.nodes.take k⟩ (a.nodes.take k).length root := by
    rintro root ⟨hId, child, hChild, hRoot⟩
    exact ⟨hTake.symm ▸ hId, child, by rw [List.getElem?_take_of_lt hId, hChild], hRoot⟩
  rcases hWf.node_cases hGet with ⟨offset, bytes, record, rfl, hSlice, hRecord⟩ |
    ⟨left, right, record, rfl, hRecord, hLeft, hRight⟩
  · obtain ⟨rfl, hRest⟩ := hRest
    exact ⟨_, ⟨rfl, rfl, bytes, hSlice, hRecord⟩, hRest⟩
  · exact ⟨start, ⟨rfl, hBelow left hLeft, hBelow right hRight, hRecord⟩, hRest⟩

theorem getElem?_zipIdx_zero {α : Type} {xs : List α} {i : Nat} {entry : α × Nat}
    (h : xs.zipIdx[i]? = some entry) : xs[i]? = some entry.1 ∧ entry.2 = i := by
  rw [List.getElem?_zipIdx, Option.map_eq_some_iff] at h
  obtain ⟨x, hGet, rfl⟩ := h
  exact ⟨hGet, Nat.zero_add i⟩

/-- The loop of the import succeeds exactly on the records of well-formed nodes whose leaves follow
each other. -/
theorem foldlM_importNode_eq_ok {records : List V2NodeRecord} (hLen : records.length ≤ v2NoneNode)
    (hRecords : ∀ record ∈ records, record.Canonical) {stop : Nat} (hStop : stop = payload.length) :
    records.zipIdx.foldlM (importNode sha256 payload) ⟨[], 0⟩ = .ok ⟨nodes, stop⟩ ↔
      nodes.map ArenaNode.record = records ∧ WellFormed sha256 ⟨payload, nodes⟩ ∧
        Tiles 0 (leafRanges nodes) stop := by
  have hNone : v2NoneNode + 1 = width 64 := by decide
  constructor
  · intro hRun
    have hTurn : ∀ (i : Nat) (entry : V2NodeRecord × Nat) (state next : ImportState),
        records.zipIdx[i]? = some entry →
        (state.nodes.map ArenaNode.record = records.take i ∧
          WellFormed sha256 ⟨payload, state.nodes⟩ ∧
          Tiles 0 (leafRanges state.nodes) state.expectedPayloadOffset) →
        importNode sha256 payload state entry = .ok next →
        next.nodes.map ArenaNode.record = records.take (i + 1) ∧
          WellFormed sha256 ⟨payload, next.nodes⟩ ∧
          Tiles 0 (leafRanges next.nodes) next.expectedPayloadOffset := by
      rintro i ⟨record, index⟩ ⟨before, start⟩ next hGet ⟨hBefore, hWf, hTiles⟩ hStep
      obtain ⟨hRecord, rfl⟩ := getElem?_zipIdx_zero hGet
      have hLt := (List.getElem?_eq_some_iff.mp hRecord).1
      have hCount : before.length = index := by
        rw [← List.length_map (f := ArenaNode.record), hBefore, List.length_take_of_le hLt.le]
      subst hCount
      obtain ⟨node, stop, hMade, hSame, rfl⟩ :=
        (importNode_eq_ok (hRecords record (List.mem_of_getElem? hRecord)) (by omega)).mp hStep
      refine ⟨?_, hMade.wellFormed hWf (by omega), hMade.tiles hTiles⟩
      rw [List.map_append, hBefore, List.take_add_one, hRecord, ← hSame]
      rfl
    have hEmpty : WellFormed sha256 ⟨payload, []⟩ := fun i node hGet => by
      simp at hGet
    have hEnd := foldlM_invariant hTurn (t := ⟨[], 0⟩) ⟨rfl, hEmpty, rfl⟩ hRun
    rw [List.length_zipIdx, List.take_length] at hEnd
    exact hEnd
  · rintro ⟨rfl, hWf, hTiles⟩
    have hCount : (nodes.map ArenaNode.record).length = nodes.length := List.length_map _
    have hTurn : ∀ (i : Nat) (entry : V2NodeRecord × Nat) (state : ImportState),
        (nodes.map ArenaNode.record).zipIdx[i]? = some entry →
        (state.nodes = nodes.take i ∧
          Tiles state.expectedPayloadOffset (leafRanges (nodes.drop i)) payload.length) →
        ∃ next, importNode sha256 payload state entry = .ok next ∧ next.nodes = nodes.take (i + 1) ∧
          Tiles next.expectedPayloadOffset (leafRanges (nodes.drop (i + 1))) payload.length := by
      rintro i ⟨record, index⟩ ⟨before, start⟩ hGet ⟨rfl, hRest⟩
      obtain ⟨hRecord, rfl⟩ := getElem?_zipIdx_zero hGet
      rw [List.getElem?_map] at hRecord
      obtain ⟨node, hNode, rfl⟩ := Option.map_eq_some_iff.mp hRecord
      have hLt := (List.getElem?_eq_some_iff.mp hNode).1
      have hIndex : (nodes.take index).length = index := List.length_take_of_le hLt.le
      obtain ⟨stop, hMade, hTail⟩ := nodeMade_of_tiled hWf hNode hRest
      refine ⟨⟨nodes.take index ++ [node], stop⟩, ?_, ?_, hTail⟩
      · have hStep : importNode sha256 payload ⟨nodes.take index, start⟩
            (node.record, (nodes.take index).length) = .ok ⟨nodes.take index ++ [node], stop⟩ :=
          (importNode_eq_ok (hWf.canonical hNode) (by omega)).mpr ⟨node, stop, hMade, rfl, rfl⟩
        rw [hIndex] at hStep
        exact hStep
      · rw [List.take_add_one, hNode]
        rfl
    obtain ⟨⟨nodes', stop'⟩, hRun, rfl, hEnd⟩ := foldlM_indexed hTurn
      (t := ⟨[], 0⟩) ⟨rfl, by rw [List.drop_zero, ← hStop]; exact hTiles⟩
    rw [List.length_zipIdx, List.length_map, List.drop_length] at hEnd
    obtain rfl : stop' = payload.length := hEnd
    rw [hRun, List.length_zipIdx, List.length_map, List.take_length, hStop]

/-! ## Import and export -/

theorem requireRoot_eq_ok {a : V2AvlSequence} {root : V2RootRecord} {u : Unit} :
    requireRoot a root = .ok u ↔ ∃ node, nodeForRootOn a root = .ok node := by
  simp only [requireRoot, bind_eq_ok, pure_eq_ok, and_true]

/-- The roots of a well-formed arena are those that stand for something. -/
theorem requireRoots_eq_ok {a : V2AvlSequence} (hWf : WellFormed sha256 a)
    {roots : List V2RootRecord} {u : PUnit} :
    roots.forM (requireRoot a) = .ok u ↔ ∀ root ∈ roots, ∃ t, Denotes sha256 a t root := by
  constructor
  · intro hRun root hMem
    obtain ⟨node, hNode⟩ := requireRoot_eq_ok.mp (eq_ok_of_forM hRun hMem)
    exact hWf.denotes hNode
  · intro h
    refine forM_eq_ok fun root hMem => ?_
    obtain ⟨t, hDenotes⟩ := h root hMem
    exact requireRoot_ok hDenotes

/-- The records of an image make an arena when they are those of a well-formed arena whose leaves
tile its payload, and the roots are roots of it. -/
theorem importArena_eq_ok {image : V2SequenceImage} {a : V2AvlSequence}
    (hLen : image.nodes.length ≤ v2NoneNode) (hRecords : ∀ record ∈ image.nodes, record.Canonical) :
    importArena sha256 image = .ok a ↔
      a.payload = image.payload ∧ a.nodes.map ArenaNode.record = image.nodes ∧
        WellFormed sha256 a ∧ Tiled a ∧ ∀ root ∈ image.roots, ∃ t, Denotes sha256 a t root := by
  simp only [importArena, bind_eq_ok, failIf_eq_ok, not_not, exists_const, pure_eq_ok]
  constructor
  · rintro ⟨⟨nodes, stop⟩, hRun, rfl, u, hRoots, rfl⟩
    obtain ⟨hSame, hWf, hTiles⟩ := (foldlM_importNode_eq_ok hLen hRecords rfl).mp hRun
    exact ⟨rfl, hSame, hWf, hTiles, (requireRoots_eq_ok hWf).mp hRoots⟩
  · obtain ⟨payload, nodes⟩ := a
    rintro ⟨rfl, hSame, hWf, hTiled, hRoots⟩
    exact ⟨⟨nodes, _⟩, (foldlM_importNode_eq_ok hLen hRecords rfl).mpr ⟨hSame, hWf, hTiled⟩, rfl, (),
      (requireRoots_eq_ok hWf).mpr hRoots, rfl⟩

/-- The bytes of an image of the arena with the given roots. -/
def imageSize (a : V2AvlSequence) (roots : List V2RootRecord) : Nat :=
  v2ImageHeaderSize + a.payload.length + a.nodes.length * 72 + roots.length * 56

theorem payload_ne_nil_of_denotes {a : V2AvlSequence} {t : Rope UInt8} {root : V2RootRecord}
    (h : Denotes sha256 a t root) : a.payload ≠ [] := by
  induction t generalizing root with
  | leaf bytes =>
    obtain ⟨-, offset, record, -, hSlice, hRecord, -⟩ := h
    obtain ⟨⟨hPos, -⟩, -⟩ := leaf_eq_ok.mp hRecord
    have hInside := (slice_eq_some.mp hSlice).2.1
    exact List.ne_nil_of_length_pos (by omega)
  | node l r ihl ihr =>
    obtain ⟨-, left, right, record, -, -, -, -, -, hl, -⟩ := h
    exact ihl hl

theorem nodes_ne_nil_of_denotes {a : V2AvlSequence} {t : Rope UInt8} {root : V2RootRecord}
    (h : Denotes sha256 a t root) : a.nodes ≠ [] := by
  obtain ⟨node, hNode, -⟩ := h.root_eq
  rintro hNil
  rw [hNil] at hNode
  simp at hNode

theorem fits_of_denotes {a : V2AvlSequence} {t : Rope UInt8} {root : V2RootRecord}
    (hWf : WellFormed sha256 a) (h : Denotes sha256 a t root) : root.Fits := by
  obtain ⟨node, hNode, hRoot⟩ := h.root_eq
  exact V2RootRecord.fits_of_fromNode h.id_lt (hWf.canonical hNode) hRoot

/-- A tiled arena is exported with roots of it when the image can be addressed. -/
theorem exportImage_eq_ok {a : V2AvlSequence} {roots : List V2RootRecord} {bytes : Bytes}
    (hWf : WellFormed sha256 a) :
    exportImage sha256 a roots = .ok bytes ↔
      (roots ≠ [] ∧ ∀ root ∈ roots, ∃ t, Denotes sha256 a t root) ∧ imageSize a roots < width 64 ∧
        bytes = imageBytes sha256 ⟨a.payload, a.nodes.map ArenaNode.record, roots⟩ := by
  have hSize : v2ImageHeaderSize + (imageBody ⟨a.payload, a.nodes.map ArenaNode.record, roots⟩).length =
      imageSize a roots := by
    rw [length_imageBody, imageSize]
    dsimp only
    rw [List.length_map]
    omega
  simp only [exportImage, bind_eq_ok, failIf_eq_ok, mapErr_eq_ok, requireRoots_eq_ok hWf,
    encodeV2Image_eq_ok, hSize, exists_const]
  constructor
  · rintro ⟨hRoots, hDenotes, -, hFits, hBytes⟩
    exact ⟨⟨hRoots, hDenotes⟩, hFits, hBytes⟩
  · rintro ⟨⟨hRoots, hDenotes⟩, hFits, hBytes⟩
    obtain ⟨root, hMem⟩ := List.exists_mem_of_ne_nil roots hRoots
    obtain ⟨t, hRoot⟩ := hDenotes root hMem
    refine ⟨hRoots, hDenotes, ⟨payload_ne_nil_of_denotes hRoot, ?_, hRoots⟩, hFits, hBytes⟩
    exact fun hNil => nodes_ne_nil_of_denotes hRoot (List.map_eq_nil_iff.mp hNil)

/-- What is exported from a tiled arena is imported again unchanged. -/
theorem importImage_export {a : V2AvlSequence} {roots : List V2RootRecord} {bytes : Bytes}
    (hWf : WellFormed sha256 a) (hTiled : Tiled a) (h : exportImage sha256 a roots = .ok bytes) :
    importImage sha256 bytes = .ok (a, roots) := by
  have hHeader : v2ImageHeaderSize = 72 := rfl
  have hNone : v2NoneNode + 1 = width 64 := by decide
  obtain ⟨⟨-, hDenotes⟩, hSize, -⟩ := (exportImage_eq_ok hWf).mp h
  unfold imageSize at hSize
  have hRecords : ∀ record ∈ a.nodes.map ArenaNode.record, record.Canonical := by
    intro record hMem
    obtain ⟨node, hNode, rfl⟩ := List.mem_map.mp hMem
    obtain ⟨i, hGet⟩ := List.mem_iff_getElem?.mp hNode
    exact hWf.canonical hGet
  have hFits : ∀ root ∈ roots, root.Fits := by
    intro root hMem
    obtain ⟨t, hRoot⟩ := hDenotes root hMem
    exact fits_of_denotes hWf hRoot
  have hEncode : encodeV2Image sha256 ⟨a.payload, a.nodes.map ArenaNode.record, roots⟩ =
      .ok bytes := by
    simp only [exportImage, bind_eq_ok, mapErr_eq_ok] at h
    obtain ⟨_, -, _, -, hEncode⟩ := h
    exact hEncode
  have hLen : (a.nodes.map ArenaNode.record).length ≤ v2NoneNode := by
    rw [List.length_map]
    omega
  exact importImage_eq_ok.mpr ⟨_, decodeV2Image_eq_ok.mpr ⟨hRecords, hFits, hEncode⟩,
    (importArena_eq_ok hLen hRecords).mpr ⟨rfl, rfl, hWf, hTiled, hDenotes⟩, rfl⟩

/-- What is imported is a tiled arena that is exported to the same bytes. -/
theorem importImage_eq_ok_iff {a : V2AvlSequence} {roots : List V2RootRecord} {bytes : Bytes} :
    importImage sha256 bytes = .ok (a, roots) ↔
      WellFormed sha256 a ∧ Tiled a ∧ exportImage sha256 a roots = .ok bytes := by
  have hHeader : v2ImageHeaderSize = 72 := rfl
  have hNone : v2NoneNode + 1 = width 64 := by decide
  constructor
  · intro h
    obtain ⟨⟨payload, nodes, roots⟩, hDecode, hArena, rfl⟩ := importImage_eq_ok.mp h
    obtain ⟨hRecords, -, hEncode⟩ := decodeV2Image_eq_ok.mp hDecode
    obtain ⟨⟨-, -, hRoots⟩, hSize, hBytes⟩ := encodeV2Image_eq_ok.mp hEncode
    have hBody := length_imageBody ⟨payload, nodes, roots⟩
    dsimp only at hRoots hRecords hBody hArena
    obtain ⟨rfl, rfl, hWf, hTiled, hDenotes⟩ := (importArena_eq_ok
      (show nodes.length ≤ v2NoneNode by omega) hRecords).mp hArena
    refine ⟨hWf, hTiled, (exportImage_eq_ok hWf).mpr ⟨⟨hRoots, hDenotes⟩, ?_, hBytes⟩⟩
    rw [List.length_map] at hBody
    dsimp only [imageSize] at hBody ⊢
    omega
  · rintro ⟨hWf, hTiled, h⟩
    exact importImage_export hWf hTiled h

/-- Every arena of a run with compactions is exported, with any of its roots, to an image that is
imported as the same arena with the same roots, whenever the image can be addressed at all. What is
imported is exported again to the same bytes. -/
theorem image_round_trip (sha256 : Bytes → Digest) :
    (∀ calls roots, roots ≠ [] →
      (∀ root ∈ roots, ∃ node, nodeForRootOn (runArenaCalls sha256 calls).arena root = .ok node) →
      ((∃ bytes, exportImage sha256 (runArenaCalls sha256 calls).arena roots = .ok bytes ∧
          importImage sha256 bytes = .ok ((runArenaCalls sha256 calls).arena, roots)) ↔
        imageSize (runArenaCalls sha256 calls).arena roots < 2 ^ 64)) ∧
    ∀ bytes a roots, importImage sha256 bytes = .ok (a, roots) →
      exportImage sha256 a roots = .ok bytes := by
  refine ⟨fun calls roots hRoots hNodes => ?_, fun bytes a roots h => ?_⟩
  · obtain ⟨⟨hWf, -⟩, hTiled⟩ := arenaReached sha256 calls
    have hDenotes : ∀ root ∈ roots, ∃ t, Denotes sha256 (runArenaCalls sha256 calls).arena t root := by
      intro root hMem
      obtain ⟨node, hNode⟩ := hNodes root hMem
      exact hWf.denotes hNode
    constructor
    · rintro ⟨bytes, hExport, -⟩
      exact ((exportImage_eq_ok hWf).mp hExport).2.1
    · intro hSize
      have hExport := (exportImage_eq_ok hWf).mpr ⟨⟨hRoots, hDenotes⟩, hSize, rfl⟩
      exact ⟨_, hExport, importImage_export hWf hTiled hExport⟩
  · exact (importImage_eq_ok_iff.mp h).2.2

theorem image_round_trip_sample :
    ∃ bytes, exportImage sampleSha256 (runArenaCalls sampleSha256 sampleArenaCalls).arena
        [sampleBranch] = .ok bytes ∧
      importImage sampleSha256 bytes =
        .ok ((runArenaCalls sampleSha256 sampleArenaCalls).arena, [sampleBranch]) := by
  have hRoot : (nodeForRootOn (runArenaCalls sampleSha256 sampleArenaCalls).arena
      sampleBranch).toOption.isSome = true := by decide +kernel
  have hSize : imageSize (runArenaCalls sampleSha256 sampleArenaCalls).arena [sampleBranch] <
      2 ^ 64 := by decide +kernel
  refine ((image_round_trip sampleSha256).1 sampleArenaCalls [sampleBranch] (by simp) ?_).mpr hSize
  intro root hMem
  obtain rfl := List.mem_singleton.mp hMem
  cases hRun : nodeForRootOn (runArenaCalls sampleSha256 sampleArenaCalls).arena sampleBranch with
  | ok node => exact ⟨node, rfl⟩
  | error e =>
    rw [hRun] at hRoot
    cases hRoot

end Import

end TulyaStore.V2
