import TulyaStore.Lib.Runs
import TulyaStore.Sequence.Backend
import TulyaStore.Sequence.Overlay

/-!
# The file-backed sequence refines the in-memory sequence

A splice prepared on the files has the outcome of the splice in memory; committing and
adopting its delta gives a store that represents the new arena, and a delta that is dropped
or left behind the frontier changes nothing. `physical_refines_memory` is the result over
whole runs.
-/

namespace TulyaStore.Sequence

open Lib ArenaStore V2AvlSequence

/-! ## One splice on the view -/

section Splice

variable {sha256 : Bytes → Digest} {store : PhysicalContentStore} {a b : V2AvlSequence}
  {parent : Option V2RootRecord} {offset deleteLen : Nat} {insert : Bytes}

/-- The parent of a splice resolves in the arena, if there is one. -/
def ParentResolves (a : V2AvlSequence) (parent : Option V2RootRecord) : Prop :=
  ∀ root, parent = some root → ∃ node, nodeForRootOn a root = .ok node

theorem parentResolves_of_check (hCheck : checkSplice sha256 a parent offset deleteLen insert =
    .ok ()) : ParentResolves a parent := by
  rintro root rfl
  cases hNode : nodeForRootOn a root with
  | error e =>
    simp only [checkSplice, hNode, error_bind] at hCheck
    cases hCheck
  | ok node => exact ⟨node, rfl⟩

/-- Nodes of a well-formed arena validate. -/
theorem WellFormed.validateNodeOn (hWf : WellFormed sha256 a) {root : V2RootRecord}
    {node : ArenaNode} (hNode : nodeForRootOn a root = .ok node) :
    validateNodeOn sha256 a node = .ok () := by
  obtain ⟨-, hGet, -⟩ := nodeForRootOn_eq_ok.mp hNode
  rcases hWf.node_cases hGet with ⟨offset, bytes, record, rfl, hSlice, hRecord⟩ |
    ⟨left, right, record, rfl, hRecord, -⟩
  · exact validateNodeOn_leaf hSlice hRecord
  · exact validateNodeOn_branch hRecord

theorem checkSplice_view {view : DeltaView} (h : Mirrors view a) (hWf : WellFormed sha256 a)
    (hParent : ParentResolves a parent) (offset deleteLen : Nat) (insert : Bytes) :
    checkSplice sha256 view parent offset deleteLen insert =
      checkSplice sha256 a parent offset deleteLen insert := by
  refine h.checkSplice_eq ?_ offset deleteLen insert
  intro root hRoot
  obtain ⟨node, hNode⟩ := hParent root hRoot
  exact ⟨node, hNode, hWf.validateNodeOn hNode⟩

/-- A splice that passes its checks and stays addressable succeeds. -/
theorem spliceOn_of_check (hWf : WellFormed sha256 a)
    (hCheck : checkSplice sha256 a parent offset deleteLen insert = .ok ())
    (hAddressable : Addressable (editedArena sha256 a parent offset deleteLen insert)) :
    ∃ result b, spliceOn sha256 parent offset deleteLen insert a = .ok result b := by
  have hSpliced : ∃ content, Spliced sha256 a parent offset deleteLen insert content := by
    cases parent with
    | none =>
      rcases checkSplice_none sha256 a offset deleteLen insert with ⟨hAccepts, -⟩ | ⟨-, e, -, hErr⟩
      · rcases spliceOn_none_outcome hWf offset deleteLen insert with ⟨-, h⟩ | ⟨hNot, -⟩
        · exact ⟨_, h⟩
        · exact (hNot hAccepts).elim
      · rw [hCheck] at hErr
        cases hErr
    | some root =>
      obtain ⟨node, hNode⟩ := parentResolves_of_check hCheck root rfl
      obtain ⟨t, hDenotes⟩ := hWf.denotes hNode
      rcases checkSplice_some hDenotes offset deleteLen insert with ⟨hAccepts, -⟩ | ⟨-, e, -, hErr⟩
      · rcases spliceOn_some_outcome hWf hDenotes offset deleteLen insert with ⟨-, h⟩ | ⟨hNot, -⟩
        · exact ⟨_, h⟩
        · exact (hNot hAccepts).elim
      · rw [hCheck] at hErr
        cases hErr
  obtain ⟨content, ⟨result, b, t, hRun, -⟩ | ⟨e, -, -, hFull⟩⟩ := hSpliced
  · exact ⟨result, b, hRun⟩
  · exact (hAddressable.not_full hFull).elim

theorem editedArena_of_ok {result : V2SpliceResult}
    (hRun : spliceOn sha256 parent offset deleteLen insert a = .ok result b) :
    editedArena sha256 a parent offset deleteLen insert = b := by
  unfold spliceOn at hRun
  unfold editedArena finalState
  split at hRun
  · cases hRun
  · dsimp only at hRun
    split at hRun
    case h_1 root s hInner =>
      rw [hInner]
      cases hRun
      rfl
    case h_2 => cases hRun

theorem spliceOn_view_ok (h : Represents store a) (hWf : WellFormed sha256 a)
    (hAddressable : Addressable b) {result : V2SpliceResult}
    (hRun : spliceOn sha256 parent offset deleteLen insert a = .ok result b) :
    ∃ view, spliceOn sha256 parent offset deleteLen insert (DeltaView.new store) =
      .ok result view ∧ Overlays sha256 a view b := by
  have hGrows := (spliceOn_wellFormed hWf hRun).1
  have hNew := overlays_new h hWf (hAddressable.of_grows hGrows)
  unfold spliceOn at hRun ⊢
  cases hCheck : checkSplice sha256 a parent offset deleteLen insert with
  | error e =>
    rw [hCheck] at hRun
    cases hRun
  | ok u =>
    rw [hCheck] at hRun
    rw [checkSplice_view hNew.mirrors hWf (parentResolves_of_check hCheck), hCheck]
    dsimp only at hRun ⊢
    cases hInner : spliceInnerOn sha256 parent offset deleteLen insert
        (⟨a, 0⟩ : EditState V2AvlSequence) with
    | error e s =>
      rw [hInner] at hRun
      cases hRun
    | ok root s =>
      rw [hInner] at hRun
      cases hRun
      obtain ⟨t, hView, hOverlays, hCount⟩ :=
        ((overlays_followsArena sha256 a).spliceInnerOn parent offset deleteLen insert).forward
          ⟨DeltaView.new store, 0⟩ ⟨a, 0⟩ root s ⟨hNew, rfl⟩ hInner hAddressable
      rw [hView]
      refine ⟨t.arena, ?_, hOverlays⟩
      dsimp only
      rw [hOverlays.arenaNodeCount, hNew.arenaNodeCount, hOverlays.arenaPayloadLen,
        hNew.arenaPayloadLen, hCount]
      rfl

theorem spliceOn_view_error (h : Represents store a) (hWf : WellFormed sha256 a)
    (hAddressable : Addressable (editedArena sha256 a parent offset deleteLen insert))
    (hBase : Addressable a) (hParent : ParentResolves a parent) {e : V2AvlError}
    (hRun : spliceOn sha256 parent offset deleteLen insert a = .error e b) :
    spliceOn sha256 parent offset deleteLen insert (DeltaView.new store) =
      .error e (DeltaView.new store) := by
  have hNew := overlays_new h hWf hBase
  cases hCheck : checkSplice sha256 a parent offset deleteLen insert with
  | ok u =>
    obtain ⟨result, b', hOk⟩ := spliceOn_of_check hWf hCheck hAddressable
    rw [hRun] at hOk
    cases hOk
  | error e' =>
    have hSame : e' = e := by
      unfold spliceOn at hRun
      rw [hCheck] at hRun
      cases hRun
      rfl
    unfold spliceOn
    rw [checkSplice_view hNew.mirrors hWf hParent, hCheck, hSame]

theorem grows_editedArena (sha256 : Bytes → Digest) (a : V2AvlSequence)
    (parent : Option V2RootRecord) (offset deleteLen : Nat) (insert : Bytes) :
    Grows a (editedArena sha256 a parent offset deleteLen insert) :=
  Keeps.finalState (s := ⟨a, 0⟩) (spliceInnerOn_appends sha256 parent offset deleteLen insert)

end Splice

/-! ## Validating a delta -/

/-- The payload and the node bytes lead from the arena `a` to the well-formed arena `b`, in
which `root` stands for something. -/
structure LeadsTo (sha256 : Bytes → Digest) (a b : V2AvlSequence) (payload nodes : Bytes)
    (root : V2RootRecord) : Prop where
  wellFormed : WellFormed sha256 b
  addressable : Addressable b
  payload : b.payload = a.payload ++ payload
  nodes : ∃ fresh, b.nodes = a.nodes ++ fresh ∧ nodes = nodeBytes fresh ∧
    ∀ offset len record, ArenaNode.leaf offset len record ∈ fresh → a.payload.length ≤ offset
  root : ∃ t, Denotes sha256 b t root

section Validate

variable {sha256 : Bytes → Digest} {store : PhysicalContentStore} {a b : V2AvlSequence}
  {payload nodes : Bytes} {root : V2RootRecord}

theorem LeadsTo.grows (h : LeadsTo sha256 a b payload nodes root) : Grows a b := by
  obtain ⟨fresh, hNodes, -⟩ := h.nodes
  exact ⟨h.payload ▸ List.prefix_append _ _, hNodes ▸ List.prefix_append _ _⟩

theorem LeadsTo.lengths (h : LeadsTo sha256 a b payload nodes root) :
    b.payload.length = a.payload.length + payload.length ∧
      a.nodes.length ≤ b.nodes.length ∧
      nodes.length = (b.nodes.length - a.nodes.length) * 72 := by
  obtain ⟨fresh, hNodes, hBytes, -⟩ := h.nodes
  refine ⟨by rw [h.payload, List.length_append], h.grows.2.length_le, ?_⟩
  rw [hBytes, length_nodeBytes, hNodes, List.length_append, Nat.add_sub_cancel_left]

theorem deltaRecord_nodeBytes {fresh : List ArenaNode} {index : Nat} {node : ArenaNode}
    (hNode : fresh[index]? = some node) (hCanonical : node.record.Canonical) (message : String) :
    deltaRecord (nodeBytes fresh) index message = .ok node.record := by
  have hSlice := slice_nodeBytes hNode []
  rw [List.append_nil] at hSlice
  simp only [deltaRecord, physicalNodeRecordSize, v2NodeRecordSize]
  rw [hSlice, okOr_some, ok_bind, decodeV2Node_encode hCanonical]
  rfl

/-- Every fresh record passes its check. -/
theorem LeadsTo.validateFreshNode (h : LeadsTo sha256 a b payload nodes root) {index : Nat}
    (hIndex : index < b.nodes.length - a.nodes.length) :
    validateFreshNode sha256 a.payload.length b.payload.length a.nodes.length b.nodes.length
      payload nodes index = .ok () := by
  obtain ⟨fresh, hNodes, rfl, hLeaves⟩ := h.nodes
  have hLen : b.nodes.length = a.nodes.length + fresh.length := by
    rw [hNodes, List.length_append]
  have hFresh : fresh[index]? = some (fresh.get ⟨index, by omega⟩) :=
    List.getElem?_eq_getElem (by omega)
  generalize fresh.get ⟨index, by omega⟩ = node at hFresh
  have hNode : b.nodes[a.nodes.length + index]? = some node := by
    rw [hNodes, List.getElem?_append_right (by omega), Nat.add_sub_cancel_left, hFresh]
  have hCanonical := h.wellFormed.canonical hNode
  rw [Sequence.validateFreshNode, deltaRecord_nodeBytes hFresh hCanonical, ok_bind]
  rcases h.wellFormed.node_cases hNode with ⟨offset, bytes, record, rfl, hSlice, hRecord⟩ |
    ⟨left, right, record, rfl, hRecord, ⟨hLeft, -⟩, ⟨hRight, -⟩⟩
  · obtain ⟨⟨-, -, hEnd⟩, -⟩ := leaf_eq_ok.mp hRecord
    obtain ⟨-, hStop, -⟩ := slice_eq_some.mp hSlice
    have hGe := hLeaves _ _ _ (List.mem_of_getElem? hFresh)
    have hInDelta : slice payload (offset - a.payload.length)
        (offset - a.payload.length + bytes.length) = some bytes := by
      have hSkip := slice_skip a.payload payload (offset - a.payload.length)
        (offset - a.payload.length + bytes.length)
      rw [← h.payload, ← Nat.add_assoc, Nat.add_sub_cancel' hGe, hSlice] at hSkip
      exact hSkip.symm
    rw [ArenaNode.record, v2NodeFields_leaf hRecord, ok_bind]
    dsimp only
    rw [failIf_neg (by omega), ok_bind, checkedAdd_of_lt hEnd, okOr_some, ok_bind,
      failIf_neg (by omega), ok_bind, hInDelta, okOr_some, ok_bind, hRecord, liftFormat, mapErr_ok,
      ok_bind, failIf_neg (by simp)]
  · have hBranch : record.Canonical := hCanonical
    rw [ArenaNode.record, v2NodeFields_branch hBranch hRecord, ok_bind]
    dsimp only
    rw [failIf_neg (by omega), ok_bind, failIf_neg (by omega)]

/-- The record of the result root is found, committed or fresh. -/
theorem LeadsTo.resultRecord (h : LeadsTo sha256 a b payload nodes root)
    (hStore : Represents store a) (hWf : WellFormed sha256 a) {node : ArenaNode}
    (hNode : b.nodes[root.nodeId]? = some node) :
    resultRecord store a.nodes.length nodes root = .ok node.record := by
  have hCanonical := h.wellFormed.canonical hNode
  obtain ⟨fresh, hNodes, rfl, -⟩ := h.nodes
  unfold Sequence.resultRecord
  by_cases hLt : root.nodeId < a.nodes.length
  · rw [if_pos hLt]
    rw [hNodes, List.getElem?_append_left hLt] at hNode
    exact hStore.loadRecord hWf (h.addressable.of_grows h.grows) hNode
  · rw [if_neg hLt]
    rw [hNodes, List.getElem?_append_right (Nat.not_lt.mp hLt)] at hNode
    exact deltaRecord_nodeBytes hNode hCanonical _

theorem LeadsTo.validateFreshDelta (h : LeadsTo sha256 a b payload nodes root)
    (hStore : Represents store a) (hWf : WellFormed sha256 a) :
    validateFreshDelta sha256 store a.payload.length b.payload.length a.nodes.length
      b.nodes.length payload nodes root = .ok () := by
  obtain ⟨hPayloadLen, hNodesLe, hNodesLen⟩ := h.lengths
  obtain ⟨t, hDenotes⟩ := h.root
  obtain ⟨node, hNode, hRoot⟩ := hDenotes.root_eq
  have hAll : (List.range (b.nodes.length - a.nodes.length)).forM
      (Sequence.validateFreshNode sha256 a.payload.length b.payload.length a.nodes.length
        b.nodes.length payload nodes) = .ok () :=
    forM_eq_ok fun index hIndex => h.validateFreshNode (List.mem_range.mp hIndex)
  rw [Sequence.validateFreshDelta, failIf_neg (by omega), ok_bind, failIf_neg (by omega), ok_bind,
    failIf_neg (by simp only [physicalNodeRecordSize, v2NodeRecordSize]; omega), ok_bind, hAll,
    ok_bind, failIf_neg (by have := hDenotes.id_lt_length; omega), ok_bind,
    h.resultRecord hStore hWf hNode, ok_bind, hRoot, liftFormat, mapErr_ok, ok_bind,
    failIf_neg (by simp)]

end Validate

/-! ## Preparing a delta -/

/-- The delta of a splice from the arena `a` to the arena `b`. -/
structure DeltaFor (sha256 : Bytes → Digest) (generation : Nat) (a b : V2AvlSequence)
    (result : V2SpliceResult) (delta : PhysicalDelta) : Prop where
  old : delta.oldPayloadEnd = a.payload.length ∧ delta.oldNodeCount = a.nodes.length
  new : delta.newPayloadEnd = b.payload.length ∧ delta.newNodeCount = b.nodes.length
  leads : LeadsTo sha256 a b delta.payload delta.nodes delta.root
  root : delta.root = result.root
  work : delta.allocatedNodes = result.allocatedNodes ∧
    delta.inspectedNodes = result.inspectedNodes ∧
    delta.payloadBytesAllocated = result.payloadBytesAllocated
  digest : delta.deltaDigest = physicalDeltaDigest sha256 generation a.payload.length
    b.payload.length a.nodes.length b.nodes.length delta.payload delta.nodes
    (encodeV2Root delta.root)

section Prepare

variable {sha256 : Bytes → Digest} {store : PhysicalContentStore} {a b : V2AvlSequence}
  {parent : Option V2RootRecord} {offset deleteLen resultLen : Nat} {insert : Bytes}

theorem Overlays.leadsTo {view : DeltaView} {root : V2RootRecord} {t : Rope UInt8}
    (h : Overlays sha256 a view b) (hDenotes : Denotes sha256 b t root) :
    LeadsTo sha256 a b view.payloadDelta view.nodeDelta root where
  wellFormed := h.wellFormed
  addressable := h.addressable
  payload := h.payload
  nodes := h.nodes
  root := ⟨t, hDenotes⟩

theorem preparePhysicalDelta_ok (h : Represents store a) (hWf : WellFormed sha256 a)
    (hAddressable : Addressable b) {result : V2SpliceResult}
    (hRun : spliceOn sha256 parent offset deleteLen insert a = .ok result b)
    (hLen : result.root.logicalLen = resultLen) :
    ∃ delta, preparePhysicalDelta sha256 store parent offset deleteLen insert resultLen =
      .ok delta ∧ DeltaFor sha256 store.generation a b result delta := by
  obtain ⟨view, hView, hOverlays⟩ := spliceOn_view_ok h hWf hAddressable hRun
  obtain ⟨-, -, t, hDenotes⟩ := spliceOn_wellFormed hWf hRun
  have hLeads := hOverlays.leadsTo hDenotes
  obtain ⟨hPayloadLen, hNodesLe, hNodesLen⟩ := hLeads.lengths
  have hCount := hOverlays.deltaNodeCount
  have hBaseCount := hOverlays.baseNodeCount
  have hBounds := hAddressable
  unfold Addressable at hBounds
  have hAligned : ¬ view.nodeDelta.length % physicalNodeRecordSize ≠ 0 := by
    rw [hNodesLen]
    simp [physicalNodeRecordSize, v2NodeRecordSize]
  have hNewPayload : checkedAdd 64 store.committedPayloadEnd view.payloadDelta.length =
      some b.payload.length := by
    rw [h.payloadEnd, checkedAdd_of_lt, hPayloadLen]
    unfold width
    omega
  have hNewNodes : checkedAdd 64 store.committedNodeCount view.deltaNodeCount =
      some b.nodes.length := by
    rw [h.nodeCount, ← hBaseCount, checkedAdd_of_lt, hCount]
    unfold width
    omega
  have hValid := hLeads.validateFreshDelta h hWf
  rw [← h.payloadEnd, ← h.nodeCount] at hValid
  refine ⟨⟨a.payload.length, a.nodes.length, b.payload.length, b.nodes.length, view.payloadDelta,
    view.nodeDelta, result.root, physicalDeltaDigest sha256 store.generation a.payload.length
      b.payload.length a.nodes.length b.nodes.length view.payloadDelta view.nodeDelta
      (encodeV2Root result.root), result.allocatedNodes, result.inspectedNodes,
    result.payloadBytesAllocated⟩, ?_,
    ⟨⟨rfl, rfl⟩, ⟨rfl, rfl⟩, hLeads, rfl, ⟨rfl, rfl, rfl⟩, rfl⟩⟩
  rw [preparePhysicalDelta, hView]
  dsimp only
  rw [failIf_neg (by simp [hLen]), ok_bind, failIf_neg hAligned, ok_bind, hNewPayload, okOr_some,
    ok_bind, hNewNodes, okOr_some, ok_bind, hValid, ok_bind, h.payloadEnd, h.nodeCount]
  rfl

/-- The length of the result of a splice. -/
theorem spliceOn_length (hWf : WellFormed sha256 a) {result : V2SpliceResult}
    (hRun : spliceOn sha256 parent offset deleteLen insert a = .ok result b) :
    deleteLen ≤ parent.elim 0 V2RootRecord.logicalLen ∧
      result.root.logicalLen =
        parent.elim 0 V2RootRecord.logicalLen - deleteLen + insert.length ∧
      result.root.logicalLen < width 64 := by
  have hOf : ∀ content, Spliced sha256 a parent offset deleteLen insert content →
      result.root.logicalLen = content.length ∧ result.root.logicalLen < width 64 := by
    rintro content (⟨result', b', t, hRun', -, -, hDenotes, rfl⟩ | ⟨e, hRun', -⟩)
    · rw [hRun] at hRun'
      cases hRun'
      exact ⟨hDenotes.logicalLen, hDenotes.logicalLen ▸ hDenotes.metadata.2.2⟩
    · rw [hRun] at hRun'
      cases hRun'
  cases parent with
  | none =>
    rcases spliceOn_none_outcome hWf offset deleteLen insert with
      ⟨⟨-, rfl, -⟩, hSpliced⟩ | ⟨-, e, -, hRun'⟩
    · obtain ⟨hLen, hLt⟩ := hOf _ hSpliced
      exact ⟨Nat.le_refl 0, by simpa using hLen, hLt⟩
    · rw [hRun] at hRun'
      cases hRun'
  | some root =>
    cases hNode : nodeForRootOn a root with
    | error e =>
      unfold spliceOn at hRun
      simp only [checkSplice, hNode, error_bind] at hRun
      cases hRun
    | ok node =>
      obtain ⟨t, hDenotes⟩ := hWf.denotes hNode
      rcases spliceOn_some_outcome hWf hDenotes offset deleteLen insert with
        ⟨⟨hOffset, hDelete, -⟩, hSpliced⟩ | ⟨-, e, -, hRun'⟩
      · obtain ⟨hLen, hLt⟩ := hOf _ hSpliced
        have hList : t.toList.length = t.length := rfl
        simp only [List.length_append, List.length_take, List.length_drop, hList] at hLen
        simp only [Option.elim_some, hDenotes.logicalLen]
        exact ⟨by omega, by omega, hLt⟩
      · rw [hRun] at hRun'
        cases hRun'

end Prepare

/-! ## Committing and adopting a delta -/

section Commit

variable {sha256 : Bytes → Digest} {store : PhysicalContentStore} {a b : V2AvlSequence}

open PhysicalContentStore

/-- The store with the given data behind the headers of its files. -/
def withFiles (store : PhysicalContentStore) (payload nodes : Bytes) : PhysicalContentStore :=
  { store with
    payload := some (encodeHeader physicalPayloadMagic store.generation ++ payload)
    nodes := some (encodeHeader physicalNodeMagic store.generation ++ nodes) }

theorem ensureOpen_withFiles (store : PhysicalContentStore) (payload nodes : Bytes) :
    (withFiles store payload nodes).ensureOpen = .ok (withFiles store payload nodes) := by
  simp [ensureOpen, withFiles, pure, Except.pure]

theorem Represents.expectedPayload (h : Represents store a) (hAddressable : Addressable a) :
    store.expectedPayload = .ok (16 + a.payload.length) := by
  unfold Addressable at hAddressable
  rw [PhysicalContentStore.expectedPayload, h.payloadEnd, physicalHeaderSize, checkedAdd_of_lt]
  · rfl
  · unfold width
    omega

theorem Represents.expectedNodes (h : Represents store a) (hAddressable : Addressable a) :
    store.expectedNodes = .ok (16 + a.nodes.length * 72) := by
  unfold Addressable at hAddressable
  simp only [PhysicalContentStore.expectedNodes, h.nodeCount, physicalHeaderSize,
    physicalNodeRecordSize, v2NodeRecordSize]
  rw [checkedMul_of_lt, okOr_some, ok_bind, checkedAdd_of_lt]
  · rfl
  · unfold width
    omega
  · unfold width
    omega

/-- Opening the files of a store, which creates them when there are none. -/
theorem Represents.ensureOpen (h : Represents store a) :
    ∃ payloadTail nodeTail, store.ensureOpen =
      .ok (withFiles store (a.payload ++ payloadTail) (nodeBytes a.nodes ++ nodeTail)) := by
  obtain ⟨generation, payload, nodes, committedPayloadEnd, committedNodeCount⟩ := store
  rcases h.files with ⟨hPayload, hNodes, rfl⟩ | ⟨payloadTail, nodeTail, hPayload, hNodes⟩
  · have hEnd : committedPayloadEnd = 0 := h.payloadEnd
    have hCount : committedNodeCount = 0 := h.nodeCount
    dsimp only at hPayload hNodes
    subst hPayload hNodes hEnd hCount
    refine ⟨[], [], ?_⟩
    simp [PhysicalContentStore.ensureOpen, withFiles, createNew, empty, nodeBytes, failIf, pure,
      Except.pure]
  · dsimp only at hPayload hNodes
    subst hPayload hNodes
    exact ⟨payloadTail, nodeTail, ensureOpen_withFiles
      ⟨generation, none, none, committedPayloadEnd, committedNodeCount⟩ _ _⟩

theorem Represents.healForWrite (h : Represents store a) (hAddressable : Addressable a) :
    store.healForWrite = .ok (withFiles store a.payload (nodeBytes a.nodes)) := by
  obtain ⟨payloadTail, nodeTail, hOpen⟩ := h.ensureOpen
  have hOpened : Represents (withFiles store (a.payload ++ payloadTail)
      (nodeBytes a.nodes ++ nodeTail)) a :=
    ⟨h.payloadEnd, h.nodeCount, Or.inr ⟨payloadTail, nodeTail, rfl, rfl⟩⟩
  have hPayloadHeader := length_encodeHeader_payload store.generation
  have hNodeHeader := length_encodeHeader_node store.generation
  rw [PhysicalContentStore.healForWrite, hOpen, ok_bind, hOpened.expectedPayload hAddressable,
    ok_bind, hOpened.expectedNodes hAddressable, ok_bind]
  simp only [withFiles, okOr_some, ok_bind]
  rw [failIf_neg (by simp only [List.length_append, length_nodeBytes]; omega), ok_bind]
  have hTakePayload : (encodeHeader physicalPayloadMagic store.generation ++
      (a.payload ++ payloadTail)).take (16 + a.payload.length) =
        encodeHeader physicalPayloadMagic store.generation ++ a.payload := by
    rw [← List.append_assoc, List.take_append_of_le_length (by simp; omega),
      List.take_of_length_le (by simp; omega)]
  have hTakeNodes : (encodeHeader physicalNodeMagic store.generation ++
      (nodeBytes a.nodes ++ nodeTail)).take (16 + a.nodes.length * 72) =
        encodeHeader physicalNodeMagic store.generation ++ nodeBytes a.nodes := by
    rw [← List.append_assoc, List.take_append_of_le_length
      (by rw [List.length_append, length_nodeBytes]; omega),
      List.take_of_length_le (by rw [List.length_append, length_nodeBytes]; omega)]
  rw [hTakePayload, hTakeNodes]
  rfl

theorem appendPayloadDelta_withFiles {payload nodes : Bytes}
    (hEnd : store.committedPayloadEnd = payload.length) (hLt : 16 + payload.length < width 64)
    (bytes : Bytes) :
    (withFiles store payload nodes).appendPayloadDelta bytes =
      .ok (withFiles store (payload ++ bytes) nodes) := by
  rw [appendPayloadDelta, ensureOpen_withFiles, ok_bind]
  by_cases hEmpty : bytes.isEmpty
  · rw [if_pos hEmpty, List.isEmpty_iff.mp hEmpty, List.append_nil]
    rfl
  · have hExpected : (withFiles store payload nodes).expectedPayload = .ok (16 + payload.length) := by
      simp only [PhysicalContentStore.expectedPayload, withFiles, hEnd, physicalHeaderSize]
      rw [checkedAdd_of_lt hLt, okOr_some]
    have hFile : (withFiles store payload nodes).payloadFile =
        .ok (encodeHeader physicalPayloadMagic store.generation ++ payload) := rfl
    rw [if_neg hEmpty, hExpected, ok_bind, hFile, ok_bind,
      failIf_neg (by simp [length_encodeHeader_payload]), ok_bind, List.append_assoc]
    rfl

theorem appendNodeDelta_withFiles {payload nodes bytes : Bytes} {count : Nat}
    (hCount : store.committedNodeCount = count) (hNodes : nodes.length = count * 72)
    (hLt : 16 + count * 72 < width 64) (hAligned : bytes.length % 72 = 0) :
    (withFiles store payload nodes).appendNodeDelta bytes =
      .ok (withFiles store payload (nodes ++ bytes)) := by
  rw [appendNodeDelta]
  by_cases hEmpty : bytes.isEmpty
  · rw [if_pos hEmpty, List.isEmpty_iff.mp hEmpty, List.append_nil]
    rfl
  · have hExpected : (withFiles store payload nodes).expectedNodes = .ok (16 + count * 72) := by
      simp only [PhysicalContentStore.expectedNodes, withFiles, hCount, physicalHeaderSize,
        physicalNodeRecordSize, v2NodeRecordSize]
      rw [checkedMul_of_lt (by omega), okOr_some, ok_bind, checkedAdd_of_lt hLt, okOr_some]
    have hFile : (withFiles store payload nodes).nodesFile =
        .ok (encodeHeader physicalNodeMagic store.generation ++ nodes) := rfl
    rw [if_neg hEmpty,
      failIf_neg (by simp only [physicalNodeRecordSize, v2NodeRecordSize]; omega), ok_bind,
      hExpected, ok_bind, ensureOpen_withFiles, ok_bind, hFile, ok_bind,
      failIf_neg (by simp [length_encodeHeader_node, hNodes]), ok_bind, List.append_assoc]
    rfl

/-- A commit puts the delta behind the frontier, whatever was there before. -/
theorem Represents.commit (h : Represents store a) {delta : PhysicalDelta}
    (hLeads : LeadsTo sha256 a b delta.payload delta.nodes delta.root) :
    commitPhysicalDelta store delta =
      .ok (withFiles store (a.payload ++ delta.payload) (nodeBytes a.nodes ++ delta.nodes)) := by
  have hAddressable := hLeads.addressable.of_grows hLeads.grows
  obtain ⟨-, -, hNodesLen⟩ := hLeads.lengths
  have hBounds := hAddressable
  unfold Addressable at hBounds
  have hPayload : 16 + a.payload.length < width 64 := by
    unfold width
    omega
  have hNodes : 16 + a.nodes.length * 72 < width 64 := by
    unfold width
    omega
  rw [commitPhysicalDelta, h.healForWrite hAddressable, ok_bind,
    appendPayloadDelta_withFiles h.payloadEnd hPayload, ok_bind,
    appendNodeDelta_withFiles h.nodeCount length_nodeBytes hNodes (by rw [hNodesLen]; simp)]

/-- Until it is adopted, a committed delta is a tail behind the frontier. -/
theorem Represents.committed (h : Represents store a) (payload nodes : Bytes) :
    Represents (withFiles store (a.payload ++ payload) (nodeBytes a.nodes ++ nodes)) a :=
  ⟨h.payloadEnd, h.nodeCount, Or.inr ⟨payload, nodes, rfl, rfl⟩⟩

theorem represents_adopted {delta : PhysicalDelta}
    (hNew : delta.newPayloadEnd = b.payload.length ∧ delta.newNodeCount = b.nodes.length)
    (hLeads : LeadsTo sha256 a b delta.payload delta.nodes delta.root) :
    Represents (adoptPhysicalDelta
      (withFiles store (a.payload ++ delta.payload) (nodeBytes a.nodes ++ delta.nodes)) delta) b := by
  obtain ⟨fresh, hNodes, hBytes, -⟩ := hLeads.nodes
  refine ⟨hNew.1, hNew.2, Or.inr ⟨[], [], ?_, ?_⟩⟩
  · simp only [adoptPhysicalDelta, adoptFrontiers, withFiles, hLeads.payload, List.append_nil]
  · simp only [adoptPhysicalDelta, adoptFrontiers, withFiles, hNodes, nodeBytes_append, hBytes,
      List.append_nil]

end Commit

end TulyaStore.Sequence
