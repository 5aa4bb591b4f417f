import TulyaStore.Sequence.Mirror
import TulyaStore.Sequence.Physical

/-!
# The file-backed arenas hold what the in-memory arena holds

`Represents store a` says that the committed frontier of a content store is the in-memory
arena `a`: the payload file holds the payload of `a` and the node file the records of its
nodes, each behind its header, with any bytes behind the frontier. `Overlays base view a`
says the same of a preparation view over a store that represents `base`.

Both make the arena a mirror of `a`, and the view follows every allocation
(`overlays_followsArena`).
-/

namespace TulyaStore.Sequence

open Lib ArenaStore V2AvlSequence

/-- The stored records of a row of nodes. -/
def nodeBytes (nodes : List ArenaNode) : Bytes :=
  (nodes.map fun node => encodeV2Node node.record).flatten

section NodeBytes

variable {nodes : List ArenaNode}

theorem length_of_mem_records : ∀ x ∈ nodes.map (fun node => encodeV2Node node.record),
    x.length = 72 := by
  intro x hx
  obtain ⟨node, -, rfl⟩ := List.mem_map.mp hx
  exact length_encodeV2Node node.record

theorem length_nodeBytes : (nodeBytes nodes).length = nodes.length * 72 := by
  unfold nodeBytes
  rw [length_flatten_records length_of_mem_records, List.length_map]

theorem nodeBytes_append (nodes more : List ArenaNode) :
    nodeBytes (nodes ++ more) = nodeBytes nodes ++ nodeBytes more := by
  simp [nodeBytes]

theorem nodeBytes_singleton (node : ArenaNode) : nodeBytes [node] = encodeV2Node node.record := by
  simp [nodeBytes]

theorem slice_nodeBytes {i : Nat} {node : ArenaNode} (h : nodes[i]? = some node) (tail : Bytes) :
    slice (nodeBytes nodes ++ tail) (i * 72) (i * 72 + 72) = some (encodeV2Node node.record) := by
  unfold nodeBytes
  exact slice_record length_of_mem_records (by simp [h]) tail

end NodeBytes

/-! ## Nodes of a well-formed arena -/

section Nodes

variable {sha256 : Bytes → Digest} {a : V2AvlSequence}

/-- The root of an earlier node. -/
def ResolvesBelow (a : V2AvlSequence) (i : Nat) (root : V2RootRecord) : Prop :=
  root.nodeId < i ∧ ∃ node, a.nodes[root.nodeId]? = some node ∧
    V2RootRecord.fromNode root.nodeId node.record = .ok root

theorem WellFormed.node_cases (hWf : WellFormed sha256 a) {i : Nat} {node : ArenaNode}
    (h : a.nodes[i]? = some node) :
    (∃ offset bytes record, node = .leaf offset bytes.length record ∧
      slice a.payload offset (offset + bytes.length) = some bytes ∧
      V2NodeRecord.leaf sha256 offset bytes = .ok record) ∨
    ∃ left right record, node = .branch left right record ∧
      V2NodeRecord.branch sha256 left right = .ok record ∧
      ResolvesBelow a i left ∧ ResolvesBelow a i right := by
  obtain ⟨t, root, hRoot, hDenotes⟩ := hWf i node h
  obtain ⟨hId, -, -⟩ := fromNode_fields hRoot
  cases t with
  | leaf bytes =>
    obtain ⟨-, offset, record, hNode, hSlice, hRecord, -⟩ := hDenotes
    rw [hId, h] at hNode
    cases hNode
    exact Or.inl ⟨offset, bytes, record, rfl, hSlice, hRecord⟩
  | node l r =>
    obtain ⟨-, left, right, record, hNode, hRecord, -, hLeft, hRight, hl, hr⟩ := hDenotes
    rw [hId, h] at hNode
    cases hNode
    exact Or.inr ⟨left, right, record, rfl, hRecord, ⟨hId ▸ hLeft, hl.root_eq⟩,
      ⟨hId ▸ hRight, hr.root_eq⟩⟩

theorem Addressable.id_lt (h : Addressable a) {i : Nat} {node : ArenaNode}
    (hNode : a.nodes[i]? = some node) : i * 72 + 72 < 2 ^ 63 := by
  have hLt := (List.getElem?_eq_some_iff.mp hNode).1
  unfold Addressable at h
  omega

/-- No node of a well-formed arena has the reserved identifier. -/
theorem WellFormed.id_lt (hWf : WellFormed sha256 a) {i : Nat} {node : ArenaNode}
    (h : a.nodes[i]? = some node) : i < v2NoneNode := by
  obtain ⟨t, root, hRoot, hDenotes⟩ := hWf i node h
  obtain ⟨hNe, -⟩ := fromNode_eq_ok.mp hRoot
  obtain ⟨hId, -, -⟩ := fromNode_fields hRoot
  have hLt := hDenotes.id_lt
  rw [hId] at hLt
  unfold v2NoneNode maxValue at hNe ⊢
  unfold width at hLt
  omega

theorem WellFormed.canonical (hWf : WellFormed sha256 a) {i : Nat} {node : ArenaNode}
    (h : a.nodes[i]? = some node) : node.record.Canonical := by
  have hLt := hWf.id_lt h
  rcases hWf.node_cases h with ⟨offset, bytes, record, rfl, -, hRecord⟩ |
    ⟨left, right, record, rfl, hRecord, ⟨hLeft, -⟩, ⟨hRight, -⟩⟩
  · exact canonical_of_leaf hRecord
  · exact canonical_of_branch (hLeft.trans hLt) (hRight.trans hLt) hRecord

end Nodes

/-! ## The committed store -/

/-- The files hold the arena up to the committed frontier, with any tails behind it. A store
without files holds the empty arena. -/
structure Represents (store : PhysicalContentStore) (a : V2AvlSequence) : Prop where
  payloadEnd : store.committedPayloadEnd = a.payload.length
  nodeCount : store.committedNodeCount = a.nodes.length
  files : (store.payload = none ∧ store.nodes = none ∧ a = empty) ∨
    ∃ payloadTail nodeTail,
      store.payload = some (encodeHeader physicalPayloadMagic store.generation ++
        (a.payload ++ payloadTail)) ∧
      store.nodes = some (encodeHeader physicalNodeMagic store.generation ++
        (nodeBytes a.nodes ++ nodeTail))

theorem represents_createNew (generation : Nat) :
    Represents (.createNew generation) empty where
  payloadEnd := rfl
  nodeCount := rfl
  files := Or.inr ⟨[], [], by simp [PhysicalContentStore.createNew, empty],
    by simp [PhysicalContentStore.createNew, empty, nodeBytes]⟩

theorem represents_openDeferred (generation : Nat) :
    Represents (.openDeferred generation) empty where
  payloadEnd := rfl
  nodeCount := rfl
  files := Or.inl ⟨rfl, rfl, rfl⟩

theorem length_encodeHeader_payload (generation : Nat) :
    (encodeHeader physicalPayloadMagic generation).length = 16 := by
  have hMagic : physicalPayloadMagic.length = 4 := by decide
  simp [encodeHeader, hMagic]

theorem length_encodeHeader_node (generation : Nat) :
    (encodeHeader physicalNodeMagic generation).length = 16 := by
  have hMagic : physicalNodeMagic.length = 4 := by decide
  simp [encodeHeader, hMagic]

theorem checkedMul_of_lt {w a b : Nat} (h : a * b < width w) : checkedMul w a b = some (a * b) :=
  tryFrom_of_lt h

section Store

variable {sha256 : Bytes → Digest} {store : PhysicalContentStore} {a : V2AvlSequence}

open PhysicalContentStore

theorem Represents.nodesFile (h : Represents store a) (hNe : a ≠ empty) :
    ∃ tail, store.nodesFile = .ok (encodeHeader physicalNodeMagic store.generation ++
      (nodeBytes a.nodes ++ tail)) := by
  rcases h.files with ⟨-, -, hEmpty⟩ | ⟨_, tail, -, hNodes⟩
  · exact (hNe hEmpty).elim
  · exact ⟨tail, by rw [PhysicalContentStore.nodesFile, hNodes, okOr_some]⟩

theorem Represents.payloadFile (h : Represents store a) (hNe : a ≠ empty) :
    ∃ tail, store.payloadFile = .ok (encodeHeader physicalPayloadMagic store.generation ++
      (a.payload ++ tail)) := by
  rcases h.files with ⟨-, -, hEmpty⟩ | ⟨tail, _, hPayload, -⟩
  · exact (hNe hEmpty).elim
  · exact ⟨tail, by rw [PhysicalContentStore.payloadFile, hPayload, okOr_some]⟩

theorem ne_empty_of_node {i : Nat} {node : ArenaNode} (h : a.nodes[i]? = some node) :
    a ≠ empty := by
  rintro rfl
  simp [empty] at h

theorem Represents.loadRecord (h : Represents store a) (hWf : WellFormed sha256 a)
    (hAddressable : Addressable a) {i : Nat} {node : ArenaNode}
    (hNode : a.nodes[i]? = some node) : store.loadRecord i = .ok node.record := by
  have hLt := (List.getElem?_eq_some_iff.mp hNode).1
  have hBound := hAddressable.id_lt hNode
  obtain ⟨tail, hFile⟩ := h.nodesFile (ne_empty_of_node hNode)
  have hRead : readExactAt (encodeHeader physicalNodeMagic store.generation ++
      (nodeBytes a.nodes ++ tail)) (16 + i * 72) 72 = some (encodeV2Node node.record) := by
    have hSkip := slice_skip (encodeHeader physicalNodeMagic store.generation)
      (nodeBytes a.nodes ++ tail) (i * 72) (i * 72 + 72)
    rw [length_encodeHeader_node, slice_nodeBytes hNode] at hSkip
    rw [readExactAt, if_neg (by omega), Nat.add_assoc]
    exact hSkip
  have hWidth : i * 72 + 72 < width 64 := by
    unfold width
    omega
  have hSum : 16 + i * 72 < width 64 := by
    unfold width
    omega
  rw [PhysicalContentStore.loadRecord, failIf_neg (by rw [h.nodeCount]; omega), ok_bind]
  simp only [physicalNodeRecordSize, v2NodeRecordSize, physicalHeaderSize]
  rw [checkedMul_of_lt (by omega), okOr_some, ok_bind, checkedAdd_of_lt hSum, okOr_some, ok_bind,
    hFile, ok_bind, hRead, okOr_some, ok_bind, decodeV2Node_encode (hWf.canonical hNode)]
  rfl

theorem Represents.loadRecord_missing (h : Represents store a) {i : Nat}
    (hNode : a.nodes[i]? = none) : ∃ e, store.loadRecord i = .error e := by
  have hLe := List.getElem?_eq_none_iff.mp hNode
  have hOutside : i ≥ store.committedNodeCount := by
    rw [h.nodeCount]
    exact hLe
  exact ⟨_, by rw [PhysicalContentStore.loadRecord, failIf_pos hOutside, error_bind]⟩

theorem Represents.readPayloadRange (h : Represents store a) (hAddressable : Addressable a)
    {start stop : Nat} {bytes : Bytes} (hLt : start < stop)
    (hSlice : slice a.payload start stop = some bytes) :
    store.readPayloadRange start stop = .ok bytes := by
  obtain ⟨-, hStop, -⟩ := slice_eq_some.mp hSlice
  have hNe : a ≠ empty := by
    rintro rfl
    simp [empty] at hStop
    omega
  obtain ⟨tail, hFile⟩ := h.payloadFile hNe
  have hRead : readExactAt (encodeHeader physicalPayloadMagic store.generation ++
      (a.payload ++ tail)) (16 + start) (stop - start) = some bytes := by
    have hSkip := slice_skip (encodeHeader physicalPayloadMagic store.generation)
      (a.payload ++ tail) start stop
    rw [length_encodeHeader_payload, slice_append hSlice] at hSkip
    have hEnd : 16 + start + (stop - start) = 16 + stop := by omega
    rw [readExactAt, if_neg (by omega), hEnd]
    exact hSkip
  have hSum : physicalHeaderSize + start < width 64 := by
    unfold Addressable at hAddressable
    unfold width physicalHeaderSize
    omega
  rw [PhysicalContentStore.readPayloadRange, failIf_neg (by omega), ok_bind,
    failIf_neg (by rw [h.payloadEnd]; omega), ok_bind, checkedAdd_of_lt hSum, okOr_some, ok_bind,
    hFile, ok_bind]
  simp only [physicalHeaderSize]
  rw [hRead, okOr_some]

/-- The fields of a leaf record and of a branch record, as the readers of stored nodes see
them. -/
theorem v2NodeFields_leaf {offset : Nat} {bytes : Bytes} {record : V2NodeRecord}
    (h : V2NodeRecord.leaf sha256 offset bytes = .ok record) :
    v2NodeFields record = .ok (.leaf offset bytes.length) := by
  rw [v2NodeFields_of_canonical (canonical_of_leaf h)]
  obtain ⟨-, rfl⟩ := leaf_eq_ok.mp h
  rfl

theorem v2NodeFields_branch {left right : V2RootRecord} {record : V2NodeRecord}
    (hCanonical : record.Canonical) (h : V2NodeRecord.branch sha256 left right = .ok record) :
    v2NodeFields record = .ok (.branch left.nodeId right.nodeId left.logicalLen) := by
  rw [v2NodeFields_of_canonical hCanonical]
  obtain ⟨-, -, -, -, -, rfl⟩ := branch_eq_ok.mp h
  rfl

theorem Represents.buildArenaNode (h : Represents store a) (hWf : WellFormed sha256 a)
    (hAddressable : Addressable a) {i : Nat} {node : ArenaNode}
    (hNode : a.nodes[i]? = some node) : store.buildArenaNode i node.record = .ok node := by
  rcases hWf.node_cases hNode with ⟨offset, bytes, record, rfl, hSlice, hRecord⟩ |
    ⟨left, right, record, rfl, hRecord, ⟨hLeft, leftNode, hLeftNode, hLeftRoot⟩,
      ⟨hRight, rightNode, hRightNode, hRightRoot⟩⟩
  · obtain ⟨⟨-, -, hEnd⟩, -⟩ := leaf_eq_ok.mp hRecord
    obtain ⟨-, hStop, -⟩ := slice_eq_some.mp hSlice
    rw [PhysicalContentStore.buildArenaNode, ArenaNode.record, v2NodeFields_leaf hRecord, ok_bind]
    dsimp only
    rw [checkedAdd_of_lt hEnd, okOr_some, ok_bind, failIf_neg (by rw [h.payloadEnd]; omega)]
    rfl
  · have hCanonical : record.Canonical := hWf.canonical hNode
    rw [PhysicalContentStore.buildArenaNode, ArenaNode.record,
      v2NodeFields_branch hCanonical hRecord, ok_bind]
    dsimp only
    rw [failIf_neg (by omega), ok_bind, h.loadRecord hWf hAddressable hLeftNode, ok_bind,
      h.loadRecord hWf hAddressable hRightNode, ok_bind, hLeftRoot, liftFormat, mapErr_ok, ok_bind,
      hRightRoot, liftFormat, mapErr_ok, ok_bind, failIf_neg (by simp)]
    rfl

/-- A store mirrors the arena it represents. -/
theorem Represents.mirrors (h : Represents store a) (hWf : WellFormed sha256 a)
    (hAddressable : Addressable a) : Mirrors store a where
  load i node hNode := by
    change store.loadNode i = .ok node
    rw [PhysicalContentStore.loadNode, h.loadRecord hWf hAddressable hNode, ok_bind,
      h.buildArenaNode hWf hAddressable hNode]
  missing i hNode := by
    obtain ⟨e, hLoad⟩ := h.loadRecord_missing hNode
    refine ⟨e, ?_⟩
    change store.loadNode i = .error e
    rw [PhysicalContentStore.loadNode, hLoad, error_bind]
  read start stop bytes hLt hSlice := h.readPayloadRange hAddressable hLt hSlice

end Store

/-! ## The preparation view -/

/-- The view over a store that represents `base` shows `a`, which extends `base` by fresh
payload and fresh nodes; fresh leaves lie in the fresh payload. -/
structure Overlays (sha256 : Bytes → Digest) (base : V2AvlSequence) (view : DeltaView)
    (a : V2AvlSequence) : Prop where
  represents : Represents view.base base
  baseWellFormed : WellFormed sha256 base
  wellFormed : WellFormed sha256 a
  addressable : Addressable a
  basePayloadEnd : view.basePayloadEnd = base.payload.length
  baseNodeCount : view.baseNodeCount = base.nodes.length
  payload : a.payload = base.payload ++ view.payloadDelta
  nodes : ∃ fresh, a.nodes = base.nodes ++ fresh ∧ view.nodeDelta = nodeBytes fresh ∧
    ∀ offset len record, ArenaNode.leaf offset len record ∈ fresh → base.payload.length ≤ offset

theorem overlays_new {sha256 : Bytes → Digest} {store : PhysicalContentStore} {a : V2AvlSequence}
    (h : Represents store a) (hWf : WellFormed sha256 a) (hAddressable : Addressable a) :
    Overlays sha256 a (.new store) a where
  represents := h
  baseWellFormed := hWf
  wellFormed := hWf
  addressable := hAddressable
  basePayloadEnd := h.payloadEnd
  baseNodeCount := h.nodeCount
  payload := by simp [DeltaView.new]
  nodes := ⟨[], by simp, by simp [DeltaView.new, nodeBytes], by simp⟩

section View

variable {sha256 : Bytes → Digest} {base a : V2AvlSequence} {view : DeltaView}

theorem Overlays.grows (h : Overlays sha256 base view a) : Grows base a := by
  obtain ⟨fresh, hNodes, -⟩ := h.nodes
  exact ⟨h.payload ▸ List.prefix_append _ _, hNodes ▸ List.prefix_append _ _⟩

theorem Overlays.deltaNodeCount (h : Overlays sha256 base view a) :
    view.baseNodeCount + view.deltaNodeCount = a.nodes.length := by
  obtain ⟨fresh, hNodes, hDelta, -⟩ := h.nodes
  rw [DeltaView.deltaNodeCount, hDelta, length_nodeBytes, h.baseNodeCount, hNodes,
    List.length_append]
  simp [physicalNodeRecordSize, v2NodeRecordSize]

theorem Overlays.payloadLen (h : Overlays sha256 base view a) :
    view.basePayloadEnd + view.payloadDelta.length = a.payload.length := by
  rw [h.basePayloadEnd, h.payload, List.length_append]

/-- The nodes below the frontier are those of the base. -/
theorem Overlays.base_node (h : Overlays sha256 base view a) {i : Nat} {node : ArenaNode}
    (hNode : a.nodes[i]? = some node) (hLt : i < base.nodes.length) :
    base.nodes[i]? = some node := by
  obtain ⟨fresh, hNodes, -⟩ := h.nodes
  rwa [hNodes, List.getElem?_append_left hLt] at hNode

theorem Overlays.loadDeltaRecord (h : Overlays sha256 base view a) {i : Nat} {node : ArenaNode}
    (hNode : a.nodes[i]? = some node) (hGe : base.nodes.length ≤ i) :
    view.loadDeltaRecord i = .ok node.record := by
  obtain ⟨fresh, hNodes, hDelta, -⟩ := h.nodes
  have hBound := h.addressable.id_lt hNode
  have hCanonical := h.wellFormed.canonical hNode
  rw [hNodes, List.getElem?_append_right hGe] at hNode
  have hSlice := slice_nodeBytes hNode []
  rw [List.append_nil] at hSlice
  have hMul : (i - base.nodes.length) * 72 < width 64 := by
    unfold width
    omega
  have hAdd : (i - base.nodes.length) * 72 + 72 < width 64 := by
    unfold width
    omega
  rw [DeltaView.loadDeltaRecord, h.baseNodeCount, failIf_neg (by omega), ok_bind]
  simp only [physicalNodeRecordSize, v2NodeRecordSize]
  rw [checkedMul_of_lt hMul, okOr_some, ok_bind, checkedAdd_of_lt hAdd, okOr_some, ok_bind, hDelta,
    hSlice, okOr_some, ok_bind, decodeV2Node_encode hCanonical]
  rfl

theorem Overlays.childRecord (h : Overlays sha256 base view a) {i : Nat} {node : ArenaNode}
    (hNode : a.nodes[i]? = some node) : view.childRecord i = .ok node.record := by
  unfold DeltaView.childRecord
  rw [h.baseNodeCount]
  by_cases hLt : i < base.nodes.length
  · rw [if_pos hLt]
    exact h.represents.loadRecord h.baseWellFormed (h.addressable.of_grows h.grows)
      (h.base_node hNode hLt)
  · rw [if_neg hLt]
    exact h.loadDeltaRecord hNode (Nat.not_lt.mp hLt)

theorem Overlays.fresh_leaf (h : Overlays sha256 base view a) {i offset len : Nat}
    {record : V2NodeRecord} (hNode : a.nodes[i]? = some (.leaf offset len record))
    (hGe : base.nodes.length ≤ i) : base.payload.length ≤ offset := by
  obtain ⟨fresh, hNodes, -, hFresh⟩ := h.nodes
  rw [hNodes, List.getElem?_append_right hGe] at hNode
  exact hFresh _ _ _ (List.mem_of_getElem? hNode)

theorem Overlays.buildDeltaArenaNode (h : Overlays sha256 base view a) {i : Nat}
    {node : ArenaNode} (hNode : a.nodes[i]? = some node) (hGe : base.nodes.length ≤ i) :
    view.buildDeltaArenaNode i node.record = .ok node := by
  rcases h.wellFormed.node_cases hNode with ⟨offset, bytes, record, rfl, hSlice, hRecord⟩ |
    ⟨left, right, record, rfl, hRecord, ⟨hLeft, leftNode, hLeftNode, hLeftRoot⟩,
      ⟨hRight, rightNode, hRightNode, hRightRoot⟩⟩
  · obtain ⟨⟨-, -, hEnd⟩, -⟩ := leaf_eq_ok.mp hRecord
    obtain ⟨-, hStop, -⟩ := slice_eq_some.mp hSlice
    have hFresh := h.fresh_leaf hNode hGe
    have hLen := h.payloadLen
    have hBase := h.basePayloadEnd
    have hNewEnd : view.basePayloadEnd + view.payloadDelta.length < width 64 := by
      have hAddressable := h.addressable
      unfold Addressable at hAddressable
      unfold width
      omega
    rw [DeltaView.buildDeltaArenaNode, ArenaNode.record, v2NodeFields_leaf hRecord, ok_bind]
    dsimp only
    rw [checkedAdd_of_lt hNewEnd, okOr_some, ok_bind, failIf_neg (by omega), ok_bind,
      checkedAdd_of_lt hEnd, okOr_some, ok_bind, failIf_neg (by omega)]
    rfl
  · have hCanonical : record.Canonical := h.wellFormed.canonical hNode
    rw [DeltaView.buildDeltaArenaNode, ArenaNode.record, v2NodeFields_branch hCanonical hRecord,
      ok_bind]
    dsimp only
    rw [failIf_neg (by omega), ok_bind, h.childRecord hLeftNode, ok_bind, hLeftRoot, liftFormat,
      mapErr_ok, ok_bind, h.childRecord hRightNode, ok_bind, hRightRoot, liftFormat, mapErr_ok,
      ok_bind, failIf_neg (by simp)]
    rfl

theorem Overlays.loadNode (h : Overlays sha256 base view a) {i : Nat} {node : ArenaNode}
    (hNode : a.nodes[i]? = some node) : view.loadNode i = .ok node := by
  unfold DeltaView.loadNode
  rw [h.baseNodeCount]
  by_cases hLt : i < base.nodes.length
  · have hBaseAddressable := h.addressable.of_grows h.grows
    rw [if_pos hLt,
      h.represents.loadRecord h.baseWellFormed hBaseAddressable (h.base_node hNode hLt), ok_bind,
      h.represents.buildArenaNode h.baseWellFormed hBaseAddressable (h.base_node hNode hLt)]
  · rw [if_neg hLt, h.loadDeltaRecord hNode (Nat.not_lt.mp hLt), ok_bind,
      h.buildDeltaArenaNode hNode (Nat.not_lt.mp hLt)]

theorem Overlays.loadNode_missing (h : Overlays sha256 base view a) {i : Nat}
    (hNode : a.nodes[i]? = none) : ∃ e, view.loadNode i = .error e := by
  have hLe := List.getElem?_eq_none_iff.mp hNode
  obtain ⟨fresh, hNodes, hDelta, -⟩ := h.nodes
  have hLen : a.nodes.length = base.nodes.length + fresh.length := by
    rw [hNodes, List.length_append]
  have hNone : ∀ start stop, start = (i - base.nodes.length) * 72 → stop = start + 72 →
      slice view.nodeDelta start stop = none := by
    intro start stop hStart hStop
    unfold slice
    rw [if_neg]
    rw [hDelta, length_nodeBytes]
    omega
  unfold DeltaView.loadNode DeltaView.loadDeltaRecord
  rw [h.baseNodeCount, if_neg (by omega), failIf_neg (by omega), ok_bind]
  simp only [physicalNodeRecordSize, v2NodeRecordSize]
  cases hMul : checkedMul 64 (i - base.nodes.length) 72 with
  | none => exact ⟨_, rfl⟩
  | some start =>
    rw [okOr_some, ok_bind]
    cases hAdd : checkedAdd 64 start 72 with
    | none => exact ⟨_, rfl⟩
    | some stop =>
      rw [okOr_some, ok_bind, hNone start stop (tryFrom_eq_some.mp hMul).2
        (checkedAdd_eq_some.mp hAdd).2]
      exact ⟨_, rfl⟩

theorem Overlays.readDelta (h : Overlays sha256 base view a) {start stop : Nat} {bytes : Bytes}
    (hGe : base.payload.length ≤ start) (hSlice : slice a.payload start stop = some bytes) :
    view.readDelta start stop = .ok bytes := by
  obtain ⟨hOrder, -, -⟩ := slice_eq_some.mp hSlice
  have hSkip := slice_skip base.payload view.payloadDelta (start - base.payload.length)
    (stop - base.payload.length)
  rw [← h.payload, Nat.add_sub_cancel' hGe, Nat.add_sub_cancel' (by omega), hSlice] at hSkip
  rw [DeltaView.readDelta, h.basePayloadEnd, ← hSkip, okOr_some]

/-- A range below the frontier is a range of the base. -/
theorem Overlays.base_slice (h : Overlays sha256 base view a) {start stop : Nat} {bytes : Bytes}
    (hLe : stop ≤ base.payload.length) (hSlice : slice a.payload start stop = some bytes) :
    slice base.payload start stop = some bytes := by
  obtain ⟨hOrder, -, rfl⟩ := slice_eq_some.mp hSlice
  refine slice_eq_some.mpr ⟨hOrder, hLe, ?_⟩
  rw [h.payload, List.drop_append_of_le_length (by omega), List.take_append_of_le_length]
  rw [List.length_drop]
  omega

theorem Overlays.readPayload (h : Overlays sha256 base view a) {start stop : Nat} {bytes : Bytes}
    (hLt : start < stop) (hSlice : slice a.payload start stop = some bytes) :
    view.readPayload start stop = .ok bytes := by
  have hBaseAddressable := h.addressable.of_grows h.grows
  have hLen := length_of_slice hSlice
  obtain ⟨-, hStop, -⟩ := slice_eq_some.mp hSlice
  unfold DeltaView.readPayload
  rw [h.basePayloadEnd]
  by_cases hBelow : stop ≤ base.payload.length
  · rw [if_pos hBelow]
    exact h.represents.readPayloadRange hBaseAddressable hLt (h.base_slice hBelow hSlice)
  rw [if_neg hBelow]
  by_cases hAbove : start ≥ base.payload.length
  · rw [if_pos hAbove]
    exact h.readDelta hAbove hSlice
  rw [if_neg hAbove]
  -- the range crosses the frontier: one part from the files, one from the delta
  obtain ⟨k, hk⟩ : ∃ k, k = base.payload.length - start := ⟨_, rfl⟩
  have hFirst := slice_slice hSlice (Nat.zero_le k) (by omega)
  have hSecond := slice_slice hSlice (show k ≤ bytes.length by omega) (Nat.le_refl _)
  rw [Nat.add_zero, show start + k = base.payload.length by omega, List.drop_zero,
    Nat.sub_zero] at hFirst
  rw [show start + k = base.payload.length by omega, show start + bytes.length = stop by omega,
    List.take_of_length_le (by simp)] at hSecond
  rw [h.represents.readPayloadRange hBaseAddressable (by omega)
    (h.base_slice (Nat.le_refl _) hFirst), ok_bind, h.readDelta (Nat.le_refl _) hSecond, ok_bind,
    List.take_append_drop]
  rfl

theorem Overlays.mirrors (h : Overlays sha256 base view a) : Mirrors view a where
  load _ _ hNode := h.loadNode hNode
  missing _ hNode := h.loadNode_missing hNode
  read _ _ _ hLt hSlice := h.readPayload hLt hSlice

/-- Fresh payload behind the view is fresh payload behind the arena. -/
theorem Overlays.appendPayload (h : Overlays sha256 base view a) (bytes : Bytes)
    (hAddressable : Addressable { a with payload := a.payload ++ bytes }) :
    Overlays sha256 base { view with payloadDelta := view.payloadDelta ++ bytes }
      { a with payload := a.payload ++ bytes } where
  represents := h.represents
  baseWellFormed := h.baseWellFormed
  wellFormed := h.wellFormed.grows_payload bytes
  addressable := hAddressable
  basePayloadEnd := h.basePayloadEnd
  baseNodeCount := h.baseNodeCount
  payload := by simp [h.payload]
  nodes := h.nodes

theorem Overlays.pushNode (h : Overlays sha256 base view a) {node : ArenaNode}
    (hWf : WellFormed sha256 { a with nodes := a.nodes ++ [node] })
    (hAddressable : Addressable { a with nodes := a.nodes ++ [node] })
    (hFresh : ∀ offset len record, node = .leaf offset len record → base.payload.length ≤ offset) :
    Overlays sha256 base { view with nodeDelta := view.nodeDelta ++ encodeV2Node node.record }
      { a with nodes := a.nodes ++ [node] } where
  represents := h.represents
  baseWellFormed := h.baseWellFormed
  wellFormed := hWf
  addressable := hAddressable
  basePayloadEnd := h.basePayloadEnd
  baseNodeCount := h.baseNodeCount
  payload := h.payload
  nodes := by
    obtain ⟨fresh, hNodes, hDelta, hLeaves⟩ := h.nodes
    refine ⟨fresh ++ [node], by simp [hNodes], ?_, ?_⟩
    · simp only [hDelta, nodeBytes_append, nodeBytes_singleton]
    · intro offset len record hMem
      rcases List.mem_append.mp hMem with hMem | hMem
      · exact hLeaves _ _ _ hMem
      · exact hFresh _ _ _ (List.mem_singleton.mp hMem).symm

theorem Overlays.arenaPayloadLen (h : Overlays sha256 base view a) :
    arenaPayloadLen view = a.payload.length := by
  have hAddressable := h.addressable
  have hLen := h.payloadLen
  change (checkedAdd 64 view.basePayloadEnd view.payloadDelta.length).getD (maxValue 64) = _
  rw [checkedAdd_of_lt, Option.getD_some, hLen]
  unfold Addressable at hAddressable
  unfold width
  omega

theorem Overlays.arenaNodeCount (h : Overlays sha256 base view a) :
    arenaNodeCount view = a.nodes.length := by
  have hAddressable := h.addressable
  have hLen := h.deltaNodeCount
  change (checkedAdd 64 view.baseNodeCount view.deltaNodeCount).getD (maxValue 64) = _
  rw [checkedAdd_of_lt, Option.getD_some, hLen]
  unfold Addressable at hAddressable
  unfold width
  omega

theorem Overlays.run_appendPayload (h : Overlays sha256 base view a) (bytes : Bytes) :
    arenaAppendPayload bytes view =
      .ok a.payload.length { view with payloadDelta := view.payloadDelta ++ bytes } := by
  have hAddressable := h.addressable
  have hLen := h.payloadLen
  change DeltaView.appendPayload bytes view = _
  rw [DeltaView.appendPayload, checkedAdd_of_lt, hLen]
  unfold Addressable at hAddressable
  unfold width
  omega

theorem Overlays.run_pushNode (h : Overlays sha256 base view a) (node : ArenaNode) :
    arenaPushNode node view =
      .ok a.nodes.length { view with nodeDelta := view.nodeDelta ++ encodeV2Node node.record } := by
  have hAddressable := h.addressable
  have hLen := h.deltaNodeCount
  change DeltaView.pushNode node view = _
  rw [DeltaView.pushNode, checkedAdd_of_lt, hLen]
  unfold Addressable at hAddressable
  unfold width
  omega

end View

/-! ## Allocation on the view -/

section Allocation

variable {sha256 : Bytes → Digest} {base : V2AvlSequence}

theorem reading_run_eq_ok {A α : Type} {f : A → Except V2AvlError α} {s t : EditState A} {r : α} :
    reading f s = .ok r t ↔ f s.arena = .ok r ∧ s = t :=
  attempt_run_eq_ok

theorem onArena_run_eq_ok {A α : Type} {x : EStateM V2AvlError A α} {s t : EditState A} {r : α} :
    onArena x s = .ok r t ↔ ∃ arena, x s.arena = .ok r arena ∧ t = { s with arena } := by
  unfold onArena
  cases x s.arena <;> simp [eq_comm]

/-- What a successful node allocation in memory has done. -/
theorem allocateNodeOn_run_eq_ok {node : ArenaNode} {s t : EditState V2AvlSequence}
    {root : V2RootRecord} :
    allocateNodeOn node s = .ok root t ↔ s.arena.nodes.length < width 64 ∧
      V2RootRecord.fromNode s.arena.nodes.length node.record = .ok root ∧
      t = { s with arena := { s.arena with nodes := s.arena.nodes ++ [node] } } := by
  simp only [allocateNodeOn, bind_run_eq_ok, reading_run_eq_ok, attempt_run_eq_ok,
    onArena_run_eq_ok, pure_run_eq_ok, okOr_eq_ok, tryFrom_eq_some, liftFormat, mapErr_eq_ok,
    failIf_eq_ok]
  constructor
  · rintro ⟨nodeId, _, ⟨⟨hLt, rfl⟩, rfl⟩, _, _, ⟨hRoot, rfl⟩, placed, _, ⟨arena, hPush, rfl⟩, _, _,
      ⟨-, rfl⟩, rfl, rfl⟩
    have hCount : s.arena.nodes.length < width 64 := hLt
    change V2AvlSequence.pushNode node s.arena = _ at hPush
    rw [V2AvlSequence.pushNode, tryFrom_of_lt hCount] at hPush
    cases hPush
    exact ⟨hCount, hRoot, rfl⟩
  · rintro ⟨hLt, hRoot, rfl⟩
    have hPush : arenaPushNode node s.arena =
        .ok s.arena.nodes.length { s.arena with nodes := s.arena.nodes ++ [node] } := by
      change V2AvlSequence.pushNode node s.arena = _
      rw [V2AvlSequence.pushNode, tryFrom_of_lt hLt]
    exact ⟨_, _, ⟨⟨hLt, rfl⟩, rfl⟩, _, _, ⟨hRoot, rfl⟩, _, _, ⟨_, hPush, rfl⟩, (), _,
      ⟨fun h => h rfl, rfl⟩, rfl, rfl⟩

/-- The same allocation on the view. -/
theorem Overlays.run_allocateNodeOn {a : V2AvlSequence} {s : EditState DeltaView}
    (h : Overlays sha256 base s.arena a) {node : ArenaNode} {root : V2RootRecord}
    (hLt : a.nodes.length < width 64)
    (hRoot : V2RootRecord.fromNode a.nodes.length node.record = .ok root) :
    allocateNodeOn node s = .ok root { s with arena :=
      { s.arena with nodeDelta := s.arena.nodeDelta ++ encodeV2Node node.record } } := by
  simp only [allocateNodeOn, bind_run_eq_ok, reading_run_eq_ok, attempt_run_eq_ok,
    onArena_run_eq_ok, pure_run_eq_ok, okOr_eq_ok, tryFrom_eq_some, liftFormat, mapErr_eq_ok,
    failIf_eq_ok]
  exact ⟨_, _, ⟨⟨h.arenaNodeCount ▸ hLt, h.arenaNodeCount.symm⟩, rfl⟩, _, _, ⟨hRoot, rfl⟩, _, _,
    ⟨_, h.run_pushNode node, rfl⟩, (), _, ⟨by simp, rfl⟩, rfl, rfl⟩

/-- What a successful leaf allocation in memory has done. -/
theorem allocateLeafOn_run_ok {bytes : Bytes} {s t : EditState V2AvlSequence}
    {root : V2RootRecord} (hRun : allocateLeafOn sha256 bytes s = .ok root t) :
    ∃ record, s.arena.payload.length < width 64 ∧
      V2NodeRecord.leaf sha256 s.arena.payload.length bytes = .ok record ∧
      allocateNodeOn (.leaf s.arena.payload.length record.logicalLen record)
        { s with arena := { s.arena with payload := s.arena.payload ++ bytes } } = .ok root t := by
  simp only [allocateLeafOn, bind_run_eq_ok, reading_run_eq_ok, attempt_run_eq_ok,
    onArena_run_eq_ok, okOr_eq_ok, tryFrom_eq_some, liftFormat, mapErr_eq_ok, failIf_eq_ok] at hRun
  obtain ⟨_, _, ⟨⟨hLt, rfl⟩, rfl⟩, record, _, ⟨hRecord, rfl⟩, placed, _, ⟨arena, hAppend, rfl⟩, _, _,
    ⟨-, rfl⟩, hNode⟩ := hRun
  have hLen : s.arena.payload.length < width 64 := hLt
  change V2AvlSequence.appendPayload bytes s.arena = _ at hAppend
  rw [V2AvlSequence.appendPayload, tryFrom_of_lt hLen] at hAppend
  cases hAppend
  exact ⟨record, hLen, hRecord, hNode⟩

theorem overlays_leaf (bytes : Bytes) :
    Follows (Overlays sha256 base) (allocateLeafOn sha256 bytes)
      (allocateLeafOn sha256 bytes) where
  appends := allocateLeafOn_appends sha256 bytes
  forward := by
    rintro s s' root t' ⟨h, hCount⟩ hRun hAddressable
    obtain ⟨record, hLen, hRecord, hNode⟩ := allocateLeafOn_run_ok hRun
    obtain ⟨⟨hPos, hMax, -⟩, -⟩ := leaf_eq_ok.mp hRecord
    have hWf := (post_ok (allocateLeafOn_sim h.wellFormed hPos hMax) hRun).2.1
    obtain ⟨hNodes, hRoot, rfl⟩ := allocateNodeOn_run_eq_ok.mp hNode
    have hPayload := h.appendPayload bytes (hAddressable.of_grows (grows_pushNode _ _))
    have hLe : base.payload.length ≤ s'.arena.payload.length := by
      rw [h.payload, List.length_append]
      omega
    have hPushed := hPayload.pushNode hWf hAddressable (by
      intro offset len record' hEq
      cases hEq
      exact hLe)
    refine ⟨⟨_, s.inspected⟩, ?_, hPushed, hCount⟩
    simp only [allocateLeafOn, bind_run_eq_ok, reading_run_eq_ok, attempt_run_eq_ok,
      onArena_run_eq_ok, okOr_eq_ok, tryFrom_eq_some, liftFormat, mapErr_eq_ok, failIf_eq_ok]
    exact ⟨_, _, ⟨⟨h.arenaPayloadLen ▸ hLen, h.arenaPayloadLen.symm⟩, rfl⟩, record, _,
      ⟨hRecord, rfl⟩, _, _, ⟨_, h.run_appendPayload bytes, rfl⟩, (), _, ⟨fun h => h rfl, rfl⟩,
      hPayload.run_allocateNodeOn hNodes hRoot⟩

/-- What a successful branch allocation in memory has done. -/
theorem allocateBranchOn_run_ok {left right : V2RootRecord} {s t : EditState V2AvlSequence}
    {root : V2RootRecord} (hRun : allocateBranchOn sha256 left right s = .ok root t) :
    ∃ leftNode rightNode record, nodeForRootOn s.arena left = .ok leftNode ∧
      nodeForRootOn s.arena right = .ok rightNode ∧
      V2NodeRecord.branch sha256 left right = .ok record ∧
      allocateNodeOn (.branch left right record)
        { s with inspected := saturatingAdd 64 s.inspected 2 } = .ok root t := by
  simp only [allocateBranchOn, bind_run_eq_ok, reading_run_eq_ok, attempt_run_eq_ok, liftFormat,
    mapErr_eq_ok] at hRun
  obtain ⟨_, _, hInspect, leftNode, _, ⟨hLeft, rfl⟩, rightNode, _, ⟨hRight, rfl⟩, record, _,
    ⟨hRecord, rfl⟩, hNode⟩ := hRun
  cases hInspect
  exact ⟨leftNode, rightNode, record, hLeft, hRight, hRecord, hNode⟩

theorem overlays_branch (left right : V2RootRecord) :
    Follows (Overlays sha256 base) (allocateBranchOn sha256 left right)
      (allocateBranchOn sha256 left right) where
  appends := allocateBranchOn_appends sha256 left right
  forward := by
    rintro s s' root t' ⟨h, hCount⟩ hRun hAddressable
    obtain ⟨leftNode, rightNode, record, hLeft, hRight, hRecord, hNode⟩ :=
      allocateBranchOn_run_ok hRun
    -- both children stand for ropes, so the new node does
    obtain ⟨l, hl⟩ := h.wellFormed.denotes hLeft
    obtain ⟨r, hr⟩ := h.wellFormed.denotes hRight
    obtain ⟨-, -, hNear, -, hLen, -⟩ := branch_eq_ok.mp hRecord
    rw [hl.height, hr.height] at hNear
    rw [hl.logicalLen, hr.logicalLen] at hLen
    have hWf := (post_ok (allocateBranchOn_sim h.wellFormed hl hr hNear hLen) hRun).2.1
    obtain ⟨hNodes, hRoot, rfl⟩ := allocateNodeOn_run_eq_ok.mp hNode
    have hPushed := h.pushNode hWf hAddressable (by
      intro offset len record' hEq
      cases hEq)
    refine ⟨⟨_, saturatingAdd 64 s.inspected 2⟩, ?_, hPushed, by simp only [hCount]⟩
    have hMirrors := h.mirrors
    have hInspected : Overlays sha256 base
        (⟨s.arena, saturatingAdd 64 s.inspected 2⟩ : EditState DeltaView).arena s'.arena := h
    simp only [allocateBranchOn, bind_run_eq_ok, reading_run_eq_ok, attempt_run_eq_ok, liftFormat,
      mapErr_eq_ok]
    exact ⟨_, _, rfl, leftNode, _, ⟨hMirrors.nodeForRootOn hLeft, rfl⟩, rightNode, _,
      ⟨hMirrors.nodeForRootOn hRight, rfl⟩, record, _, ⟨hRecord, rfl⟩,
      hInspected.run_allocateNodeOn hNodes hRoot⟩

theorem overlays_followsArena (sha256 : Bytes → Digest) (base : V2AvlSequence) :
    FollowsArena sha256 (Overlays sha256 base) where
  mirrors _ _ h := h.mirrors
  leaf := overlays_leaf
  branch := overlays_branch

end Allocation

end TulyaStore.Sequence
