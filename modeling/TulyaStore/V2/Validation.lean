import TulyaStore.Lib.Folds
import TulyaStore.Sequence.Tiling
import TulyaStore.V2.PublicationCodec
import TulyaStore.V2.Transaction

/-!
# What a valid transaction is

`validateTransaction` accepts a transaction exactly when it is a `ValidTransaction`: its nodes
are canonical and made from what they name, its leaves tile the new payload once they are sorted,
its versions are numbered on, and its checkpoint names versions that exist.
-/

namespace TulyaStore.V2

open Lib Sequence

/-! ## The meaning of the checks -/

/-- The payload a node record owns. -/
def recordRange (node : V2NodeRecord) : Option V2RetainedPayloadRange :=
  match node.body with
  | .leaf offset len => some ⟨offset, len⟩
  | .branch .. => none

/-- The ranges of the leaves, in the order of the records. -/
def recordRanges (nodes : List V2NodeRecord) : List V2RetainedPayloadRange :=
  nodes.filterMap recordRange

/-- The ranges in the order of their offsets. -/
def sortedRanges (nodes : List V2NodeRecord) : List V2RetainedPayloadRange :=
  (recordRanges nodes).insertionSort fun r s => r.offset ≤ s.offset

section Meaning

variable (sha256 : Bytes → Digest) (base next : V2WalGeometry) (transaction : V2WalTransaction)

/-- A new node is made from what it names: a leaf from its payload, a branch from its children
when both are new. -/
def NodeValid (index : Nat) (node : V2NodeRecord) : Prop :=
  match node.body with
  | .leaf offset len =>
    base.payloadLen ≤ offset ∧ offset + len ≤ next.payloadLen ∧
      ∃ payload, slice transaction.payload (offset - base.payloadLen)
          (offset + len - base.payloadLen) = some payload ∧
        V2NodeRecord.leaf sha256 offset payload = .ok node
  | .branch left right _ =>
    left < base.nodeCount + index ∧ right < base.nodeCount + index ∧
      ∀ l r, localNode base transaction left = some l → localNode base transaction right = some r →
        ∃ leftRoot rightRoot, V2RootRecord.fromNode left l = .ok leftRoot ∧
          V2RootRecord.fromNode right r = .ok rightRoot ∧
          V2NodeRecord.branch sha256 leftRoot rightRoot = .ok node

/-- A new version has the next number and names a node that exists; its root is the one of a new
node. -/
structure VersionValid (index : Nat) (version : V2VersionRecord) : Prop where
  fits : version.Fits
  versionId : version.versionId = base.versionCount + index
  parent : ParentVersionOk version.versionId version.parentVersion
  node : version.root.nodeId < next.nodeCount
  root : ∀ node, localNode base transaction version.root.nodeId = some node →
    V2RootRecord.fromNode version.root.nodeId node = .ok version.root

/-- The checkpoint can be encoded over the versions that exist, and its state is recomputed when
all its versions are new. -/
structure CheckpointValid (checkpoint : V2CheckpointRecord) : Prop where
  fits : checkpoint.Fits
  valid : checkpoint.Valid
  below : checkpoint.Below next.versionCount
  state : ∀ identity messages result,
    localVersionRoot base transaction checkpoint.identityVersion = some identity →
    localOptionalRoot base transaction checkpoint.messagesVersion = some messages →
    localOptionalRoot base transaction checkpoint.resultVersion = some result →
    checkpointStateMetadata sha256 identity messages result = .ok checkpoint.state

structure ValidTransaction : Prop where
  next_eq : next = ⟨base.payloadLen + transaction.payload.length,
    base.nodeCount + transaction.nodes.length, base.versionCount + transaction.versions.length,
    base.checkpointCount + 1⟩
  payload_lt : next.payloadLen < width 64
  nodes_lt : next.nodeCount < width 64
  versions_le : next.versionCount ≤ v2NoneVersion
  checkpoints_lt : next.checkpointCount < width 64
  canonical : ∀ node ∈ transaction.nodes, node.Canonical
  nodes : ∀ i node, transaction.nodes[i]? = some node →
    NodeValid sha256 base next transaction i node
  tiles : Tiles base.payloadLen (sortedRanges transaction.nodes) next.payloadLen
  versions : ∀ i version, transaction.versions[i]? = some version →
    VersionValid base next transaction i version
  checkpoint : CheckpointValid sha256 base next transaction transaction.checkpoint

end Meaning

/-! ## Nodes -/

section Nodes

variable {sha256 : Bytes → Digest} {base next : V2WalGeometry} {transaction : V2WalTransaction}

theorem validateLeaf_eq_ok {node : V2NodeRecord} {offset len : Nat} {range : Nat × Nat} :
    validateLeaf sha256 base next transaction node offset len = .ok range ↔
      offset + len < width 64 ∧ base.payloadLen ≤ offset ∧ offset + len ≤ next.payloadLen ∧
      (∃ payload, slice transaction.payload (offset - base.payloadLen)
          (offset + len - base.payloadLen) = some payload ∧
        V2NodeRecord.leaf sha256 offset payload = .ok node) ∧
      range = (offset, offset + len) := by
  simp only [validateLeaf, bind_eq_ok, okOr_eq_ok, checkedAdd_eq_some, failIf_eq_ok, not_or,
    mapErr_eq_ok, not_not, pure_eq_ok, exists_const, Nat.not_lt, gt_iff_lt]
  constructor
  · rintro ⟨_, ⟨hFits, rfl⟩, ⟨hLow, hHigh⟩, payload, hSlice, _, hLeaf, rfl, rfl⟩
    exact ⟨hFits, hLow, hHigh, ⟨payload, hSlice, hLeaf⟩, rfl⟩
  · rintro ⟨hFits, hLow, hHigh, ⟨payload, hSlice, hLeaf⟩, rfl⟩
    exact ⟨_, ⟨hFits, rfl⟩, ⟨hLow, hHigh⟩, payload, hSlice, _, hLeaf, rfl, rfl⟩

theorem validateBranch_eq_ok {node : V2NodeRecord} {nodeId left right : Nat} {u : Unit} :
    validateBranch sha256 base transaction nodeId node left right = .ok u ↔
      left < nodeId ∧ right < nodeId ∧
      ∀ l r, localNode base transaction left = some l → localNode base transaction right = some r →
        ∃ leftRoot rightRoot, V2RootRecord.fromNode left l = .ok leftRoot ∧
          V2RootRecord.fromNode right r = .ok rightRoot ∧
          V2NodeRecord.branch sha256 leftRoot rightRoot = .ok node := by
  simp only [validateBranch, bind_eq_ok, failIf_eq_ok, not_or, exists_const, ge_iff_le, Nat.not_le,
    and_assoc]
  refine and_congr_right fun _ => and_congr_right fun _ => ?_
  cases localNode base transaction left with
  | none => simp [pure, Except.pure]
  | some l =>
    cases localNode base transaction right with
    | none => simp [pure, Except.pure]
    | some r =>
      simp only [bind_eq_ok, mapErr_eq_ok, failIf_eq_ok, not_not, Option.some.injEq]
      constructor
      · rintro ⟨leftRoot, hLeft, rightRoot, hRight, _, hBranch, rfl⟩ _ _ rfl rfl
        exact ⟨leftRoot, rightRoot, hLeft, hRight, hBranch⟩
      · intro h
        obtain ⟨leftRoot, rightRoot, hLeft, hRight, hBranch⟩ := h l r rfl rfl
        exact ⟨leftRoot, hLeft, rightRoot, hRight, _, hBranch, rfl⟩

/-- The range of a leaf as the validation notes it, start and stop. -/
def rangePair (r : V2RetainedPayloadRange) : Nat × Nat := (r.offset, r.offset + r.length)

theorem validateNode_eq_ok {leafRanges leafRanges' : List (Nat × Nat)} {node : V2NodeRecord}
    {index : Nat} :
    validateNode sha256 base next transaction leafRanges (node, index) = .ok leafRanges' ↔
      base.nodeCount + index < width 64 ∧ node.Canonical ∧
      NodeValid sha256 base next transaction index node ∧
      leafRanges' = leafRanges ++ ((recordRange node).map rangePair).toList := by
  have hNone : v2NoneNode < width 64 := by decide +kernel
  by_cases hCanonical : node.Canonical
  swap
  · simp only [validateNode, bind_eq_ok, mapErr_eq_ok, decodeV2Node_eq_ok, failIf_eq_ok, not_not]
    constructor
    · rintro ⟨_, -, _, -, _, ⟨hDecoded, -⟩, _, rfl, -⟩
      exact (hCanonical hDecoded).elim
    · rintro ⟨-, hNode, -⟩
      exact (hCanonical hNode).elim
  obtain ⟨height, logicalLen, commitment, body⟩ := node
  rw [validateNode]
  dsimp only
  rw [decodeV2Node_encode hCanonical]
  cases body with
  | leaf offset len =>
    obtain ⟨rfl, -, rfl, -, hEnd⟩ := id hCanonical
    simp only [encodeV2Node, readLe_fieldA (show offset < width 64 by omega),
      readLe_fieldB (show len < width 64 by omega), okOr_some, ok_bind, mapErr_ok, bind_eq_ok,
      failIf_eq_ok, not_not, exists_const, if_true, validateLeaf_eq_ok, okOr_eq_ok,
      checkedAdd_eq_some, pure_eq_ok, length_nodeRecordBytes]
    constructor
    · rintro ⟨_, ⟨hIndex, rfl⟩, -, -, _, ⟨-, hLow, hHigh, hMade, rfl⟩, rfl⟩
      exact ⟨hIndex, hCanonical, ⟨hLow, hHigh, hMade⟩, rfl⟩
    · rintro ⟨hIndex, -, ⟨hLow, hHigh, hMade⟩, rfl⟩
      exact ⟨_, ⟨hIndex, rfl⟩, rfl, trivial, _, ⟨hEnd, hLow, hHigh, hMade, rfl⟩, rfl⟩
  | branch left right leftLen =>
    obtain ⟨hLow, -, hLeft, hRight, -, hLt, hLen⟩ := id hCanonical
    dsimp only at hLow
    simp only [encodeV2Node, readLe_fieldA (show left < width 64 by omega),
      readLe_fieldB (show right < width 64 by omega), okOr_some, ok_bind, mapErr_ok, bind_eq_ok,
      failIf_eq_ok, not_not, exists_const, show ¬ height = 1 by omega, if_false,
      validateBranch_eq_ok, okOr_eq_ok, checkedAdd_eq_some, pure_eq_ok, length_nodeRecordBytes]
    constructor
    · rintro ⟨_, ⟨hIndex, rfl⟩, -, -, hValid, rfl⟩
      exact ⟨hIndex, hCanonical, hValid, (List.append_nil _).symm⟩
    · rintro ⟨hIndex, -, hValid, rfl⟩
      exact ⟨_, ⟨hIndex, rfl⟩, rfl, trivial, hValid, (List.append_nil _).symm⟩

/-- The sorted ranges are accepted when they tile what lies between the ends. -/
theorem followRanges_eq_ok {ranges : List V2RetainedPayloadRange} {start stop : Nat} :
    (ranges.map rangePair).foldlM followRange start = .ok stop ↔ Tiles start ranges stop := by
  induction ranges generalizing start with
  | nil => exact pure_eq_ok
  | cons r ranges ih =>
    have hStep : ∀ next, followRange start (rangePair r) = .ok next ↔
        r.offset = start ∧ r.offset + r.length = next := by
      intro next
      simp only [followRange, bind_eq_ok, failIf_eq_ok, not_not, pure_eq_ok, exists_const]
      exact Iff.rfl
    rw [List.map_cons, List.foldlM_cons]
    simp only [bind_eq_ok, hStep, ih, Tiles]
    constructor
    · rintro ⟨_, ⟨rfl, rfl⟩, hRest⟩
      exact ⟨rfl, hRest⟩
    · rintro ⟨rfl, hRest⟩
      exact ⟨_, ⟨rfl, rfl⟩, hRest⟩

theorem validateNodes_eq_ok {u : Unit} :
    validateNodes sha256 base next transaction = .ok u ↔
      (∀ i node, transaction.nodes[i]? = some node →
        base.nodeCount + i < width 64 ∧ node.Canonical ∧
          NodeValid sha256 base next transaction i node) ∧
      Tiles base.payloadLen (sortedRanges transaction.nodes) next.payloadLen := by
  have hTurn : ∀ leafRanges node index leafRanges',
      validateNode sha256 base next transaction leafRanges (node, index) = .ok leafRanges' ↔
        (base.nodeCount + index < width 64 ∧ node.Canonical ∧
          NodeValid sha256 base next transaction index node) ∧
        leafRanges' = leafRanges ++ ((recordRange node).map rangePair).toList := by
    intro leafRanges node index leafRanges'
    rw [validateNode_eq_ok, and_assoc, and_assoc]
  have hRanges : transaction.nodes.flatMap (fun node => ((recordRange node).map rangePair).toList) =
      (recordRanges transaction.nodes).map rangePair := by
    rw [recordRanges, List.map_filterMap]
    induction transaction.nodes with
    | nil => rfl
    | cons node nodes ih =>
      rw [List.flatMap_cons, List.filterMap_cons, ih]
      cases (recordRange node).map rangePair <;> rfl
  have hSorted : ((recordRanges transaction.nodes).map rangePair).insertionSort
      (fun r s => r.1 ≤ s.1) = (sortedRanges transaction.nodes).map rangePair :=
    (List.map_insertionSort (fun r s : V2RetainedPayloadRange => r.offset ≤ s.offset) _ rangePair _
      fun _ _ _ _ => Iff.rfl).symm
  have hLoop : ∀ leafRanges,
      transaction.nodes.zipIdx.foldlM (validateNode sha256 base next transaction) [] =
          .ok leafRanges ↔
        (∀ i node, transaction.nodes[i]? = some node →
          base.nodeCount + i < width 64 ∧ node.Canonical ∧
            NodeValid sha256 base next transaction i node) ∧
        leafRanges = (recordRanges transaction.nodes).map rangePair := by
    intro leafRanges
    rw [foldlM_collect_eq_ok hTurn, hRanges, List.nil_append]
    simp only [Nat.zero_add]
  simp only [validateNodes, bind_eq_ok, hLoop, failIf_eq_ok, not_not]
  constructor
  · rintro ⟨_, ⟨hNodes, rfl⟩, _, hFollow, rfl⟩
    rw [hSorted, followRanges_eq_ok] at hFollow
    exact ⟨hNodes, hFollow⟩
  · rintro ⟨hNodes, hTiles⟩
    refine ⟨_, ⟨hNodes, rfl⟩, _, ?_, rfl⟩
    rw [hSorted, followRanges_eq_ok]
    exact hTiles

end Nodes

/-! ## Versions and the checkpoint -/

section Versions

variable {sha256 : Bytes → Digest} {base next : V2WalGeometry} {transaction : V2WalTransaction}

theorem versionIdForLocal_eq_ok {count index id : Nat} :
    versionIdForLocal count index = .ok id ↔ count + index < v2NoneVersion ∧ id = count + index := by
  have hNone : v2NoneVersion + 1 = width 32 := by decide
  have hWidth : width 32 < width 64 := by decide
  simp only [versionIdForLocal, bind_eq_ok, okOr_eq_ok, checkedAdd_eq_some, failIf_eq_ok,
    tryFrom_eq_some, exists_const, ge_iff_le, Nat.not_le]
  constructor
  · rintro ⟨_, ⟨-, rfl⟩, hLt, -, rfl⟩
    exact ⟨hLt, rfl⟩
  · rintro ⟨hLt, rfl⟩
    exact ⟨_, ⟨by omega, rfl⟩, hLt, by omega, rfl⟩

theorem checkLocalRoot_eq_ok {root : V2RootRecord} {node : Option V2NodeRecord} {u : Unit} :
    checkLocalRoot root node = .ok u ↔
      ∀ n, node = some n → V2RootRecord.fromNode root.nodeId n = .ok root := by
  cases node with
  | none => simp [checkLocalRoot]
  | some node =>
    simp only [checkLocalRoot, bind_eq_ok, mapErr_eq_ok, failIf_eq_ok, not_not, Option.some.injEq]
    constructor
    · rintro ⟨_, hExpected, rfl⟩ _ rfl
      exact hExpected
    · intro h
      exact ⟨_, h node rfl, rfl⟩

theorem validateVersion_eq_ok {version : V2VersionRecord} {index : Nat} {u : Unit} :
    validateVersion base next transaction (version, index) = .ok u ↔
      base.versionCount + index < v2NoneVersion ∧
        VersionValid base next transaction index version := by
  simp only [validateVersion, bind_eq_ok, versionIdForLocal_eq_ok, failIf_eq_ok, not_not,
    mapErr_eq_ok, encodeV2Version_eq_ok, decodeV2Version_eq_ok, exists_const, ge_iff_le,
    Nat.not_le, checkLocalRoot_eq_ok]
  constructor
  · rintro ⟨_, ⟨hLt, rfl⟩, hId, _, ⟨hParent, rfl⟩, -, _, ⟨hFits, -, -⟩, rfl, hNode, hRoots⟩
    exact ⟨hLt, hFits, hId, hParent, hNode, hRoots⟩
  · rintro ⟨hLt, hFits, hId, hParent, hNode, hRoots⟩
    exact ⟨_, ⟨hLt, rfl⟩, hId, _, ⟨hParent, rfl⟩, length_versionBytes _, _,
      ⟨hFits, hId, hParent, rfl⟩, rfl, hNode, hRoots⟩

theorem checkLocalState_eq_ok {state : V2StateMetadata} {identity : Option V2RootRecord}
    {messages result : Option (Option V2RootRecord)} {u : Unit} :
    checkLocalState sha256 state identity messages result = .ok u ↔
      ∀ i m r, identity = some i → messages = some m → result = some r →
        checkpointStateMetadata sha256 i m r = .ok state := by
  cases identity with
  | none => simp [checkLocalState]
  | some identity =>
    cases messages with
    | none => simp [checkLocalState]
    | some messages =>
      cases result with
      | none => simp [checkLocalState]
      | some result =>
        simp only [checkLocalState, bind_eq_ok, mapErr_eq_ok, failIf_eq_ok, not_not,
          Option.some.injEq]
        constructor
        · rintro ⟨_, hExpected, rfl⟩ _ _ _ rfl rfl rfl
          exact hExpected
        · intro h
          exact ⟨_, h _ _ _ rfl rfl rfl, rfl⟩

theorem validateCheckpoint_eq_ok {u : Unit} :
    validateCheckpoint sha256 base next transaction = .ok u ↔
      CheckpointValid sha256 base next transaction transaction.checkpoint := by
  simp only [validateCheckpoint, bind_eq_ok, mapErr_eq_ok, decodeV2Checkpoint_eq_ok,
    encodeV2Checkpoint_eq_ok, failIf_eq_ok, not_not, exists_const,
    checkLocalState_eq_ok]
  constructor
  · rintro ⟨_, ⟨hValid, rfl⟩, _, ⟨hFits, hBelow, -⟩, rfl, hMade⟩
    exact ⟨hFits, hValid, hBelow, hMade⟩
  · rintro ⟨hFits, hValid, hBelow, hMade⟩
    exact ⟨_, ⟨hValid, rfl⟩, _, ⟨hFits, hBelow, hValid, rfl⟩, rfl, hMade⟩

/-! ## The whole transaction -/

theorem nextGeometryFromCounts_eq_ok {payloadLen nodeCount versionCount : Nat} :
    nextGeometryFromCounts base payloadLen nodeCount versionCount = .ok next ↔
      next = ⟨base.payloadLen + payloadLen, base.nodeCount + nodeCount,
        base.versionCount + versionCount, base.checkpointCount + 1⟩ ∧
      next.payloadLen < width 64 ∧ next.nodeCount < width 64 ∧
      next.versionCount ≤ v2NoneVersion ∧ next.checkpointCount < width 64 := by
  have hNone : v2NoneVersion + 1 = width 32 := by decide
  have hWidth : width 32 < width 64 := by decide
  simp only [nextGeometryFromCounts, validateBaseGeometry, bind_eq_ok, failIf_eq_ok, okOr_eq_ok,
    checkedAdd_eq_some, pure_eq_ok, exists_const, gt_iff_lt, Nat.not_lt]
  constructor
  · rintro ⟨-, _, ⟨-, rfl⟩, hVersions, _, ⟨hPayload, rfl⟩, _, ⟨hNodes, rfl⟩, _, ⟨hCheckpoints, rfl⟩,
      rfl⟩
    exact ⟨rfl, hPayload, hNodes, hVersions, hCheckpoints⟩
  · rintro ⟨rfl, hPayload, hNodes, hVersions, hCheckpoints⟩
    dsimp only at hPayload hNodes hVersions hCheckpoints
    exact ⟨by omega, _, ⟨by omega, rfl⟩, hVersions, _, ⟨hPayload, rfl⟩, _, ⟨hNodes, rfl⟩, _,
      ⟨hCheckpoints, rfl⟩, rfl⟩

/-- The validation accepts the valid transactions. -/
theorem validateTransaction_eq_ok :
    validateTransaction sha256 base transaction = .ok next ↔
      ValidTransaction sha256 base next transaction := by
  have hNone : v2NoneVersion + 1 = width 32 := by decide
  have hWidth : width 32 < width 64 := by decide
  simp only [validateTransaction, validateBaseGeometry, bind_eq_ok, failIf_eq_ok, okOr_eq_ok,
    tryFrom_eq_some, nextGeometryFromCounts_eq_ok, validateNodes_eq_ok, validateVersions,
    forM_zipIdx_eq_ok, validateVersion_eq_ok, validateCheckpoint_eq_ok, pure_eq_ok, exists_const,
    Nat.zero_add]
  constructor
  · rintro ⟨-, _, ⟨-, rfl⟩, _, ⟨-, rfl⟩, _, ⟨-, rfl⟩, next', ⟨hNext, hPayload, hNodes, hVersions,
      hCheckpoints⟩, ⟨hEach, hTiles⟩, hEachVersion, hCheckpoint, rfl⟩
    refine ⟨hNext, hPayload, hNodes, hVersions, hCheckpoints, ?_,
      fun i node hGet => (hEach i node hGet).2.2, hTiles,
      fun i version hGet => (hEachVersion i version hGet).2, hCheckpoint⟩
    intro node hMem
    obtain ⟨i, hGet⟩ := List.mem_iff_getElem?.mp hMem
    exact (hEach i node hGet).2.1
  · rintro ⟨hNext, hPayload, hNodes, hVersions, hCheckpoints, hCanonical, hEach, hTiles,
      hEachVersion, hCheckpoint⟩
    have hPayloadEq : next.payloadLen = base.payloadLen + transaction.payload.length := by rw [hNext]
    have hNodesEq : next.nodeCount = base.nodeCount + transaction.nodes.length := by rw [hNext]
    have hVersionsEq : next.versionCount = base.versionCount + transaction.versions.length := by
      rw [hNext]
    refine ⟨by omega, _, ⟨by omega, rfl⟩, _, ⟨by omega, rfl⟩, _, ⟨by omega, rfl⟩, next,
      ⟨hNext, hPayload, hNodes, hVersions, hCheckpoints⟩, ⟨fun i node hGet => ?_, hTiles⟩,
      fun i version hGet => ?_, hCheckpoint, rfl⟩
    · have hLt := (List.getElem?_eq_some_iff.mp hGet).1
      exact ⟨by omega, hCanonical node (List.mem_of_getElem? hGet), hEach i node hGet⟩
    · have hLt := (List.getElem?_eq_some_iff.mp hGet).1
      exact ⟨by omega, hEachVersion i version hGet⟩

end Versions

end TulyaStore.V2
