import TulyaStore.V2.ImageRuns
import TulyaStore.V2.StateValid

/-!
# Applying a commit

What `apply_v2_commit` does when it succeeds (`applyV2Commit_cases`), and that it leads from valid
states to valid states (`StateOk.append`). The nodes of the transaction extend the arena of the
state: a new leaf takes its bytes from the new payload, a new branch resolves its children among
the old nodes and the new ones in front of it.
-/

namespace TulyaStore.V2

open Lib Sequence
open Sequence.V2AvlSequence

section Apply

variable {sha256 : Bytes → Digest} {a : V2AvlSequence} {state : V2CommittedState}
  {base next : V2WalGeometry} {transaction : V2WalTransaction}

/-! ## What the checks resolve -/

theorem resolveAt_eq_ok {ε α : Type} {xs ys : List α} {i n : Nat} (hLen : xs.length = n) {e e' : ε}
    {x : α} : (if i < n then okOr xs[i]? e else okOr ys[i - n]? e') = .ok x ↔
      (xs ++ ys)[i]? = some x := by
  subst hLen
  split
  case isTrue hLt => rw [okOr_eq_ok, List.getElem?_append_left hLt]
  case isFalse hLe => rw [okOr_eq_ok, List.getElem?_append_right (Nat.not_lt.mp hLe)]

theorem resolveNode_eq_ok (hBase : state.nodes.length = base.nodeCount) {nodeId : Nat}
    {node : V2NodeRecord} : state.resolveNode base transaction nodeId = .ok node ↔
      (state.nodes ++ transaction.nodes)[nodeId]? = some node :=
  resolveAt_eq_ok hBase

theorem resolveVersion_eq_ok (hBase : state.versions.length = base.versionCount) {id : Nat}
    {version : V2VersionRecord} : state.resolveVersion base transaction id = .ok version ↔
      (state.versions ++ transaction.versions)[id]? = some version :=
  resolveAt_eq_ok hBase

/-- A branch the state accepts is made from two nodes in front of it. -/
theorem validateNode_branch (hBase : state.nodes.length = base.nodeCount) {node : V2NodeRecord}
    {index left right leftLen : Nat} (hBody : node.body = .branch left right leftLen)
    (hCanonical : node.Canonical) (h : state.validateNode sha256 base transaction (node, index) =
      .ok ()) :
    ∃ leftRoot rightRoot l r, left < base.nodeCount + index ∧ right < base.nodeCount + index ∧
      (state.nodes ++ transaction.nodes)[left]? = some l ∧
      (state.nodes ++ transaction.nodes)[right]? = some r ∧
      V2RootRecord.fromNode left l = .ok leftRoot ∧
      V2RootRecord.fromNode right r = .ok rightRoot ∧
      V2NodeRecord.branch sha256 leftRoot rightRoot = .ok node := by
  have hNone : v2NoneNode < width 64 := by decide +kernel
  obtain ⟨height, logicalLen, commitment, body⟩ := node
  obtain rfl : body = _ := hBody
  obtain ⟨hLow, -, hLeft, hRight, -⟩ := id hCanonical
  dsimp only at hLow
  have hOther : ¬ height = 1 := by omega
  rw [V2CommittedState.validateNode] at h
  dsimp only at h
  rw [if_neg hOther] at h
  simp only [encodeV2Node, readLe_fieldA (show left < width 64 by omega),
    readLe_fieldB (show right < width 64 by omega), okOr_some, ok_bind, bind_eq_ok, okOr_eq_ok,
    checkedAdd_eq_some, failIf_eq_ok, not_or, ge_iff_le, Nat.not_le, mapErr_eq_ok, not_not,
    exists_const, resolveNode_eq_ok hBase] at h
  obtain ⟨_, ⟨-, rfl⟩, ⟨hLeftLt, hRightLt⟩, l, hl, r, hr, leftRoot, hLeftRoot, rightRoot, hRightRoot,
    _, hBranch, rfl⟩ := h
  exact ⟨leftRoot, rightRoot, l, r, hLeftLt, hRightLt, hl, hr, hLeftRoot, hRightRoot, hBranch⟩

/-! ## The extended arena -/

/-- A node record over the first nodes of a longer table is a node of the arena. -/
theorem resolvesBelow_of_records {nodes : List ArenaNode} {all : List V2NodeRecord} {payload : Bytes}
    (hRecords : nodes.map ArenaNode.record = all.take nodes.length) {id : Nat} {record : V2NodeRecord}
    {root : V2RootRecord} (hLt : id < nodes.length) (hGet : all[id]? = some record)
    (hRoot : V2RootRecord.fromNode id record = .ok root) :
    ResolvesBelow ⟨payload, nodes⟩ nodes.length root := by
  obtain ⟨hId, -, -⟩ := fromNode_fields hRoot
  have hNode := congrArg (fun records => records[id]?) hRecords
  rw [List.getElem?_take_of_lt hLt, hGet, List.getElem?_map] at hNode
  obtain ⟨node, hGetNode, hRecord⟩ := Option.map_eq_some_iff.mp hNode
  refine ⟨hId ▸ hLt, node, by rw [hId]; exact hGetNode, ?_⟩
  rw [hId, hRecord, hRoot]

/-- The first nodes of the transaction can be added to the arena. -/
theorem extend_take (hWf : WellFormed sha256 a) (hPayload : a.payload = state.payload)
    (hNodes : records a = state.nodes) (hPayloadBase : state.payload.length = base.payloadLen)
    (hNodesBase : state.nodes.length = base.nodeCount)
    (hValid : ValidTransaction sha256 base next transaction)
    (hChecked : state.validateNodes sha256 base transaction = .ok ()) {k : Nat}
    (hLe : k ≤ transaction.nodes.length) :
    ∃ built : List ArenaNode, built.length = k ∧
      built.map ArenaNode.record = transaction.nodes.take k ∧
      WellFormed sha256 ⟨state.payload ++ transaction.payload, a.nodes ++ built⟩ := by
  have hNone : v2NoneNode + 1 = width 64 := by decide
  have hLength : a.nodes.length = base.nodeCount := by
    rw [← hNodesBase, ← hNodes, records, List.length_map]
  induction k with
  | zero =>
    refine ⟨[], rfl, rfl, ?_⟩
    rw [List.append_nil, ← hPayload]
    exact hWf.grows_payload transaction.payload
  | succ k ih =>
    obtain ⟨built, hLen, hRecords, hBuilt⟩ := ih (by omega)
    obtain ⟨record, hGet⟩ : ∃ record, transaction.nodes[k]? = some record :=
      ⟨_, List.getElem?_eq_getElem (by omega)⟩
    have hCanonical := hValid.canonical record (List.mem_of_getElem? hGet)
    have hNodeValid := hValid.nodes k record hGet
    have hCheck : state.validateNode sha256 base transaction (record, k) = .ok () := by
      have hAll := forM_zipIdx_eq_ok.mp hChecked k record hGet
      rwa [Nat.zero_add] at hAll
    have hCount : (a.nodes ++ built).length = base.nodeCount + k := by
      rw [List.length_append, hLen, hLength]
    have hSmall : (a.nodes ++ built).length < v2NoneNode := by
      have hBound := hValid.nodes_lt
      rw [hValid.next_eq] at hBound
      dsimp only at hBound
      omega
    have hFront : (a.nodes ++ built).map ArenaNode.record =
        (state.nodes ++ transaction.nodes).take (a.nodes ++ built).length := by
      rw [List.map_append, hRecords, hCount, ← hNodesBase, List.take_length_add_append, ← hNodes]
      rfl
    have hTake : transaction.nodes.take (k + 1) = transaction.nodes.take k ++ [record] := by
      rw [List.take_add_one, hGet]
      rfl
    have hExtend : ∀ node : ArenaNode, node.record = record → ∀ start stop,
        NodeMade sha256 ⟨state.payload ++ transaction.payload, a.nodes ++ built⟩ start node stop →
        ∃ built' : List ArenaNode, built'.length = k + 1 ∧
          built'.map ArenaNode.record = transaction.nodes.take (k + 1) ∧
          WellFormed sha256 ⟨state.payload ++ transaction.payload, a.nodes ++ built'⟩ := by
      intro node hRecord start stop hMade
      refine ⟨built ++ [node], by rw [List.length_append, hLen]; rfl, ?_, ?_⟩
      · rw [List.map_append, hRecords, hTake, ← hRecord]
        rfl
      · rw [← List.append_assoc]
        exact hMade.wellFormed hBuilt hSmall
    cases hBody : record.body with
    | leaf offset len =>
      -- the bytes of a new leaf stand behind the old payload
      unfold NodeValid at hNodeValid
      rw [hBody] at hNodeValid
      obtain ⟨hLow, -, bytes, hSlice, hLeaf⟩ := hNodeValid
      refine hExtend (.leaf offset len record) rfl offset (offset + len) ⟨rfl, rfl, bytes, ?_, hLeaf⟩
      have hSkip := slice_skip state.payload transaction.payload (offset - base.payloadLen)
        (offset + len - base.payloadLen)
      rw [hSlice, hPayloadBase, Nat.add_sub_of_le hLow, Nat.add_sub_of_le (by omega)] at hSkip
      exact hSkip
    | branch left right leftLen =>
      obtain ⟨leftRoot, rightRoot, l, r, hLeft, hRight, hl, hr, hLeftRoot, hRightRoot, hBranch⟩ :=
        validateNode_branch hNodesBase hBody hCanonical hCheck
      exact hExtend (.branch leftRoot rightRoot record) rfl 0 0 ⟨rfl,
        resolvesBelow_of_records hFront (by omega) hl hLeftRoot,
        resolvesBelow_of_records hFront (by omega) hr hRightRoot, hBranch⟩

/-- The ranges of the leaves stand in the records. -/
theorem leafRanges_eq_recordRanges {b : V2AvlSequence} (hWf : WellFormed sha256 b) :
    leafRanges b.nodes = recordRanges (records b) := by
  rw [leafRanges, recordRanges, records, List.filterMap_map]
  refine List.filterMap_congr fun node hMem => ?_
  obtain ⟨i, hGet⟩ := List.mem_iff_getElem?.mp hMem
  rcases hWf.node_cases hGet with ⟨offset, bytes, record, rfl, -, hRecord⟩ |
    ⟨left, right, record, rfl, hRecord, -⟩
  · obtain ⟨-, rfl⟩ := leaf_eq_ok.mp hRecord
    rfl
  · obtain ⟨-, -, -, -, -, rfl⟩ := branch_eq_ok.mp hRecord
    rfl

theorem perm_sortedRanges (nodes : List V2NodeRecord) :
    (sortedRanges nodes).Perm (recordRanges nodes) :=
  List.perm_insertionSort _ _

/-- The leaves of a transaction lie in its payload and share no byte. -/
theorem ValidTransaction.ranges (h : ValidTransaction sha256 base next transaction) :
    (recordRanges transaction.nodes).Pairwise Apart ∧
      ∀ r ∈ recordRanges transaction.nodes, base.payloadLen ≤ r.offset := by
  have hPerm := perm_sortedRanges transaction.nodes
  constructor
  · refine (hPerm.pairwise_iff fun h => Apart.symm h).mp ?_
    exact h.tiles.pairwise.imp fun hBefore => Or.inl hBefore
  · intro r hMem
    exact (h.tiles.mem (hPerm.mem_iff.mpr hMem)).1

/-- The arena behind a transaction. -/
structure Extended (sha256 : Bytes → Digest) (a b : V2AvlSequence) (state : V2CommittedState)
    (transaction : V2WalTransaction) : Prop where
  grows : Grows a b
  payload : b.payload = state.payload ++ transaction.payload
  nodes : records b = state.nodes ++ transaction.nodes
  wellFormed : WellFormed sha256 b

theorem StateOk.extend (h : StateOk sha256 a state)
    (hPayloadBase : state.payload.length = base.payloadLen)
    (hNodesBase : state.nodes.length = base.nodeCount)
    (hValid : ValidTransaction sha256 base next transaction)
    (hChecked : state.validateNodes sha256 base transaction = .ok ()) :
    ∃ b, Extended sha256 a b state transaction := by
  obtain ⟨built, -, hRecords, hWf⟩ := extend_take h.wellFormed h.payload h.nodes hPayloadBase
    hNodesBase hValid hChecked le_rfl
  rw [List.take_length] at hRecords
  refine ⟨⟨state.payload ++ transaction.payload, a.nodes ++ built⟩, ⟨?_, List.prefix_append _ _⟩, rfl,
    ?_, hWf⟩
  · rw [h.payload]
    exact List.prefix_append _ _
  · rw [records, List.map_append, hRecords, ← h.nodes]
    rfl

theorem Extended.apart {b : V2AvlSequence} (hExtended : Extended sha256 a b state transaction)
    (h : StateOk sha256 a state) (hPayloadBase : state.payload.length = base.payloadLen)
    (hValid : ValidTransaction sha256 base next transaction) :
    (leafRanges b.nodes).Pairwise Apart := by
  obtain ⟨hNew, hBehind⟩ := hValid.ranges
  have hOld := h.apart
  rw [leafRanges_eq_recordRanges h.wellFormed, h.nodes] at hOld
  rw [leafRanges_eq_recordRanges hExtended.wellFormed, hExtended.nodes, recordRanges,
    List.filterMap_append]
  refine List.pairwise_append.mpr ⟨hOld, hNew, fun r hr s hs => Or.inl ?_⟩
  have hLow := hBehind s hs
  -- an old leaf ends in the old payload
  have hLeaf : r ∈ leafRanges a.nodes := by
    rw [leafRanges_eq_recordRanges h.wellFormed, h.nodes]
    exact hr
  obtain ⟨node, hMem, hRange⟩ := List.mem_filterMap.mp hLeaf
  obtain ⟨i, hGet⟩ := List.mem_iff_getElem?.mp hMem
  rcases h.wellFormed.node_cases hGet with ⟨offset, bytes, record, rfl, hSlice, -⟩ |
    ⟨left, right, record, rfl, -⟩
  · cases hRange
    have hInside := (slice_eq_some.mp hSlice).2.1
    rw [h.payload] at hInside
    unfold Before
    dsimp only
    omega
  · cases hRange

/-! ## Versions -/

theorem validateVersions_roots {b : V2AvlSequence} (hExtended : Extended sha256 a b state transaction)
    (hNodesBase : state.nodes.length = base.nodeCount)
    (hChecked : state.validateVersions base transaction = .ok ()) :
    ∀ version ∈ transaction.versions, ∃ t, Denotes sha256 b t version.root := by
  intro version hMem
  have hVersion := eq_ok_of_forM hChecked hMem
  simp only [V2CommittedState.validateVersion, bind_eq_ok, resolveNode_eq_ok hNodesBase, mapErr_eq_ok,
    failIf_eq_ok, not_not] at hVersion
  obtain ⟨-, -, record, hGet, root, hRoot, hSame⟩ := hVersion
  subst hSame
  rw [← hExtended.nodes, records, List.getElem?_map] at hGet
  obtain ⟨node, hNode, rfl⟩ := Option.map_eq_some_iff.mp hGet
  obtain ⟨hId, -, -⟩ := fromNode_fields hRoot
  obtain ⟨t, root', hRoot', hDenotes⟩ := hExtended.wellFormed _ node hNode
  rw [hRoot] at hRoot'
  cases hRoot'
  exact ⟨t, hDenotes⟩

theorem VersionsNumbered.append {versions new : List V2VersionRecord} (h : VersionsNumbered versions)
    (hNew : ∀ i version, new[i]? = some version → version.versionId = versions.length + i ∧
      ParentVersionOk (versions.length + i) version.parentVersion) :
    VersionsNumbered (versions ++ new) := by
  intro i version hGet
  by_cases hLt : i < versions.length
  · rw [List.getElem?_append_left hLt] at hGet
    exact h i version hGet
  · rw [List.getElem?_append_right (Nat.not_lt.mp hLt)] at hGet
    have hHere := hNew _ version hGet
    rwa [Nat.add_sub_of_le (Nat.not_lt.mp hLt)] at hHere

/-! ## The checkpoint -/

theorem resolveOptionalRoot_iff (hBase : state.versions.length = base.versionCount)
    {version : Option Nat} {root : Option V2RootRecord} :
    state.resolveOptionalRoot base transaction version = .ok root ↔
      resolveOptionalRoot (state.versions ++ transaction.versions) version = .ok root := by
  cases version with
  | none =>
    constructor
    · intro h
      cases h
      rfl
    · intro h
      cases h
      rfl
  | some id =>
    rw [V2CommittedState.resolveOptionalRoot, resolveOptionalRoot]
    simp only [bind_eq_ok, resolveVersion_eq_ok hBase, resolveVersionRoot_eq_ok, pure_eq_ok]
    constructor
    · rintro ⟨record, hGet, rfl⟩
      exact ⟨record.root, ⟨record, hGet, rfl⟩, rfl⟩
    · rintro ⟨_, ⟨record, hGet, rfl⟩, rfl⟩
      exact ⟨record, hGet, rfl⟩

/-- What the committed state demands of a new checkpoint. -/
theorem validateCheckpoint_committed (hBase : state.versions.length = base.versionCount)
    (h : state.validateCheckpoint sha256 base transaction = .ok ()) :
    state.checkpointOrdinals.containsKey transaction.checkpoint.key = false ∧
      state.deletedCheckpoints.containsKey transaction.checkpoint.key = false ∧
      (∀ parent ∈ transaction.checkpoint.parentCheckpointId, state.checkpointOrdinals.containsKey
        (checkpointKey transaction.checkpoint.threadId parent) = true) ∧
      StateAgrees sha256 (state.versions ++ transaction.versions) transaction.checkpoint := by
  simp only [V2CommittedState.validateCheckpoint, bind_eq_ok, failIf_eq_ok, Bool.not_eq_true,
    checkPresent_eq_ok, V2CommittedState.validateCheckpointParent, Bool.not_eq_false,
    resolveVersion_eq_ok hBase, resolveOptionalRoot_iff hBase, mapErr_eq_ok, not_not,
    exists_const] at h
  obtain ⟨hNew, hNotDeleted, hParent, identity, hIdentity, messages, hMessages, result, hResult, made,
    hMade, hSame⟩ := h
  subst hSame
  exact ⟨hNew, hNotDeleted, hParent, identity.root, messages, result,
    resolveVersionRoot_eq_ok.mpr ⟨identity, hIdentity, rfl⟩, hMessages, hResult, hMade⟩

theorem resolveVersionRoot_append {versions new : List V2VersionRecord} {id : Nat}
    {root : V2RootRecord} (h : resolveVersionRoot versions id = .ok root) :
    resolveVersionRoot (versions ++ new) id = .ok root := by
  obtain ⟨version, hGet, hRoot⟩ := resolveVersionRoot_eq_ok.mp h
  refine resolveVersionRoot_eq_ok.mpr ⟨version, ?_, hRoot⟩
  rw [List.getElem?_append_left (List.getElem?_eq_some_iff.mp hGet).1, hGet]

theorem resolveOptionalRoot_append {versions new : List V2VersionRecord} {id : Option Nat}
    {root : Option V2RootRecord} (h : resolveOptionalRoot versions id = .ok root) :
    resolveOptionalRoot (versions ++ new) id = .ok root := by
  cases id with
  | none => exact h
  | some id =>
    simp only [resolveOptionalRoot, bind_eq_ok, pure_eq_ok] at h ⊢
    obtain ⟨record, hRecord, rfl⟩ := h
    exact ⟨record, resolveVersionRoot_append hRecord, rfl⟩

/-- More versions do not change the state over those there were. -/
theorem StateAgrees.append {versions : List V2VersionRecord} {checkpoint : V2CheckpointRecord}
    (h : StateAgrees sha256 versions checkpoint) (new : List V2VersionRecord) :
    StateAgrees sha256 (versions ++ new) checkpoint := by
  obtain ⟨identity, messages, result, hIdentity, hMessages, hResult, hState⟩ := h
  exact ⟨identity, messages, result, resolveVersionRoot_append hIdentity,
    resolveOptionalRoot_append hMessages, resolveOptionalRoot_append hResult, hState⟩

theorem checkpointKeys_append (checkpoints : List V2CheckpointRecord) (new : V2CheckpointRecord) :
    checkpointKeys (checkpoints ++ [new]) = checkpointKeys checkpoints ++ [new.key] := by
  rw [checkpointKeys, List.map_append]
  rfl

theorem CheckpointTable.append {versions new : List V2VersionRecord}
    {checkpoints : List V2CheckpointRecord} {checkpoint : V2CheckpointRecord}
    (h : CheckpointTable sha256 versions checkpoints) (hValid : checkpoint.Valid)
    (hState : StateAgrees sha256 (versions ++ new) checkpoint)
    (hParent : ParentAmong (checkpointKeys checkpoints) checkpoint)
    (hNew : checkpoint.key ∉ checkpointKeys checkpoints) :
    CheckpointTable sha256 (versions ++ new) (checkpoints ++ [checkpoint]) where
  valid c hMem := by
    rcases List.mem_append.mp hMem with hOld | hLast
    · exact h.valid c hOld
    · rwa [List.mem_singleton.mp hLast]
  state c hMem := by
    rcases List.mem_append.mp hMem with hOld | hLast
    · exact (h.state c hOld).append new
    · rwa [List.mem_singleton.mp hLast]
  parent i c hGet := by
    rw [checkpointKeys_append]
    have hLength : (checkpointKeys checkpoints).length = checkpoints.length := List.length_map _
    by_cases hLt : i < checkpoints.length
    · rw [List.getElem?_append_left hLt] at hGet
      rw [List.take_append_of_le_length (by omega)]
      exact h.parent i c hGet
    · rw [List.getElem?_append_right (Nat.not_lt.mp hLt), List.getElem?_singleton] at hGet
      split at hGet
      case isTrue hZero =>
        cases hGet
        have hEnd : i = (checkpointKeys checkpoints).length := by omega
        rw [hEnd, List.take_left]
        exact hParent
      case isFalse => cases hGet
  nodup := by
    rw [checkpointKeys_append]
    refine List.nodup_append.mpr ⟨h.nodup, List.nodup_singleton _, ?_⟩
    intro key hMem other hOther hSame
    rw [List.mem_singleton.mp hOther] at hSame
    exact hNew (hSame ▸ hMem)

/-! ## Requests -/

theorem validateActiveRequestId_eq_ok {requestId : Bytes} {u : Unit} :
    validateActiveRequestId requestId = .ok u ↔ LedgerIdOk requestId := by
  simp only [validateActiveRequestId, failIf_eq_ok, not_or, gt_iff_lt, Nat.not_lt, LedgerIdOk, ne_eq]

/-- What the ledgers say about an operation of a well-formed request identity. -/
def V2CommittedState.requestStatus (state : V2CommittedState) (requestId : Bytes)
    (operationDigest : Digest) : Except V2ApplyError V2RequestStatus :=
  match state.requestRecords.get requestId with
  | some record =>
    V2CommittedState.sameOperation record.operationDigest operationDigest
      (.replay record.checkpointOrdinal)
  | none =>
    match state.retiredRequests.get requestId with
    | some retiredDigest => V2CommittedState.sameOperation retiredDigest operationDigest .retired
    | none => .ok .new

theorem classifyRequest_eq {requestId : Bytes} (hId : LedgerIdOk requestId)
    (operationDigest : Digest) : state.classifyRequest requestId operationDigest =
      state.requestStatus requestId operationDigest := by
  rw [V2CommittedState.classifyRequest, validateActiveRequestId_eq_ok (u := ()) |>.mpr hId]
  rfl

theorem sameOperation_ne_new {stored operationDigest : Digest} {status : V2RequestStatus}
    (h : status ≠ .new) :
    V2CommittedState.sameOperation stored operationDigest status ≠ .ok .new := by
  intro hSame
  rw [V2CommittedState.sameOperation] at hSame
  split at hSame
  case isTrue => exact h (Except.ok.inj hSame)
  case isFalse => cases hSame

theorem classifyRequest_eq_new {requestId : Bytes} {operationDigest : Digest} :
    state.classifyRequest requestId operationDigest = .ok .new ↔
      LedgerIdOk requestId ∧ state.requestRecords.get requestId = none ∧
        state.retiredRequests.get requestId = none := by
  by_cases hId : LedgerIdOk requestId
  · rw [classifyRequest_eq hId, V2CommittedState.requestStatus, and_iff_right hId]
    cases hActive : state.requestRecords.get requestId with
    | some record =>
      exact iff_of_false (sameOperation_ne_new (by intro h; cases h)) (by intro h; cases h.1)
    | none =>
      cases hRetired : state.retiredRequests.get requestId with
      | some digest =>
        exact iff_of_false (sameOperation_ne_new (by intro h; cases h)) (by intro h; cases h.2)
      | none => exact iff_of_true rfl ⟨rfl, rfl⟩
  · refine iff_of_false ?_ fun h => hId h.1
    intro hNew
    rw [V2CommittedState.classifyRequest, bind_eq_ok] at hNew
    obtain ⟨_, hOk, -⟩ := hNew
    exact hId (validateActiveRequestId_eq_ok.mp hOk)

/-! ## The run -/

/-- The active requests behind a new commit. -/
def V2CommittedState.recorded (state : V2CommittedState) (decoded : V2DecodedCommit) :
    KeyMap Bytes V2RequestRecord :=
  match decoded.requestId with
  | some requestId =>
    state.requestRecords.insert requestId ⟨decoded.operationDigest, state.checkpoints.length⟩
  | none => state.requestRecords

/-- The state behind a new commit. -/
def V2CommittedState.appended (state : V2CommittedState) (decoded : V2DecodedCommit) :
    V2CommittedState where
  payload := state.payload ++ decoded.wal.transaction.payload
  nodes := state.nodes ++ decoded.wal.transaction.nodes
  versions := state.versions ++ decoded.wal.transaction.versions
  checkpoints := state.checkpoints ++ [decoded.wal.transaction.checkpoint]
  checkpointOrdinals :=
    state.checkpointOrdinals.insert decoded.wal.transaction.checkpoint.key state.checkpoints.length
  requestRecords := state.recorded decoded
  retiredRequests := state.retiredRequests
  deletedCheckpoints := state.deletedCheckpoints

/-- Bytes that a state takes as a new commit. -/
structure Accepts (sha256 : Bytes → Digest) (state : V2CommittedState) (bytes : Bytes)
    (decoded : V2DecodedCommit) : Prop where
  decode : decodeV2Commit sha256 bytes = .ok decoded
  status : state.classifyCommit decoded.requestId decoded.operationDigest = .ok .new
  geometry : state.geometry = .ok decoded.encodedBase
  checked : state.validateAgainstCommittedState sha256 decoded.encodedBase
    decoded.wal.transaction = .ok ()

variable {bytes : Bytes} {decoded : V2DecodedCommit} {outcome : V2ApplyOutcome}
  {state' : V2CommittedState}

theorem appendCommit_run (hGeometry : state.geometry = .ok decoded.encodedBase)
    (hChecked : state.validateAgainstCommittedState sha256 decoded.encodedBase
      decoded.wal.transaction = .ok ()) :
    appendCommit sha256 decoded state =
      .ok (.applied state.checkpoints.length) (state.appended decoded) := by
  have hCount : decoded.encodedBase.checkpointCount = state.checkpoints.length := by
    rw [geometry_eq_ok hGeometry]
  refine (attempt_bind_ok (s := state) hGeometry).trans ?_
  refine (attempt_bind_ok (failIf_neg (not_not_intro rfl))).trans ?_
  refine (attempt_bind_ok hChecked).trans ?_
  rw [hCount]
  unfold recordRequest V2CommittedState.appended V2CommittedState.recorded
  cases decoded.requestId with
  | none => rfl
  | some requestId => rfl

/-- The new commits are those whose base is the state and whose references it can resolve. -/
theorem appendCommit_cases (sha256 : Bytes → Digest) (state : V2CommittedState)
    (decoded : V2DecodedCommit) :
    (state.geometry = .ok decoded.encodedBase ∧
      state.validateAgainstCommittedState sha256 decoded.encodedBase decoded.wal.transaction =
        .ok ()) ∨
    ∃ e, appendCommit sha256 decoded state = .error e state := by
  cases hGeometry : state.geometry with
  | error e => exact Or.inr ⟨e, attempt_bind_error (s := state) hGeometry⟩
  | ok current =>
    by_cases hBase : decoded.encodedBase = current
    · cases hChecked : state.validateAgainstCommittedState sha256 decoded.encodedBase
        decoded.wal.transaction with
      | ok u => exact Or.inl ⟨by rw [hBase], rfl⟩
      | error e =>
        refine Or.inr ⟨e, ?_⟩
        refine (attempt_bind_ok (s := state) hGeometry).trans ?_
        refine (attempt_bind_ok (failIf_neg (not_not_intro hBase))).trans ?_
        exact attempt_bind_error hChecked
    · refine Or.inr
        ⟨.invalid "v2 commit starting geometry disagrees with committed state", ?_⟩
      refine (attempt_bind_ok (s := state) hGeometry).trans ?_
      exact attempt_bind_error (failIf_pos hBase)

theorem Accepts.run (h : Accepts sha256 state bytes decoded) :
    applyV2Commit sha256 bytes state =
      .ok (.applied state.checkpoints.length) (state.appended decoded) := by
  refine (attempt_bind_ok (s := state) (mapErr_eq_ok.mpr h.decode)).trans ?_
  refine (attempt_bind_ok (s := state) h.status).trans ?_
  exact appendCommit_run h.geometry h.checked

/-- Everything an apply can do. -/
theorem applyV2Commit_cases (sha256 : Bytes → Digest) (bytes : Bytes) (state : V2CommittedState) :
    (∃ e, applyV2Commit sha256 bytes state = .error e state) ∨
    (∃ decoded, Accepts sha256 state bytes decoded ∧ applyV2Commit sha256 bytes state =
      .ok (.applied state.checkpoints.length) (state.appended decoded)) ∨
    ∃ decoded requestId outcome, decodeV2Commit sha256 bytes = .ok decoded ∧
      decoded.requestId = some requestId ∧
      applyV2Commit sha256 bytes state = .ok outcome state ∧
      ((∃ ordinal, outcome = .replayed ordinal ∧ state.classifyRequest requestId
          decoded.operationDigest = .ok (.replay ordinal)) ∨
        outcome = .retiredRequest ∧
          state.classifyRequest requestId decoded.operationDigest = .ok .retired) := by
  cases hDecode : decodeV2Commit sha256 bytes with
  | error e =>
    exact Or.inl ⟨_, attempt_bind_error (s := state) (mapErr_eq_error.mpr ⟨e, hDecode, rfl⟩)⟩
  | ok decoded =>
    have hFirst : ∀ f : V2DecodedCommit → V2StateM V2ApplyOutcome,
        (attempt (mapErr .commit (decodeV2Commit sha256 bytes)) >>= f) state = f decoded state :=
      fun f => attempt_bind_ok (mapErr_eq_ok.mpr hDecode)
    cases hStatus : state.classifyCommit decoded.requestId decoded.operationDigest with
    | error e =>
      exact Or.inl ⟨e, (hFirst _).trans (attempt_bind_error (s := state) hStatus)⟩
    | ok status =>
      have hRun : applyV2Commit sha256 bytes state = _ :=
        (hFirst _).trans (attempt_bind_ok (s := state) hStatus)
      cases status with
      | new =>
        rcases appendCommit_cases sha256 state decoded with
          ⟨hGeometry, hChecked⟩ | ⟨e, hError⟩
        · have hAccepts : Accepts sha256 state bytes decoded :=
            ⟨hDecode, hStatus, hGeometry, hChecked⟩
          exact Or.inr (Or.inl ⟨decoded, hAccepts, hAccepts.run⟩)
        · exact Or.inl ⟨e, hRun.trans hError⟩
      | replay ordinal =>
        cases hId : decoded.requestId with
        | none =>
          rw [hId] at hStatus
          cases hStatus
        | some requestId =>
          rw [hId] at hStatus
          exact Or.inr (Or.inr ⟨decoded, requestId, _, rfl, hId, hRun, Or.inl ⟨ordinal, rfl, hStatus⟩⟩)
      | retired =>
        cases hId : decoded.requestId with
        | none =>
          rw [hId] at hStatus
          cases hStatus
        | some requestId =>
          rw [hId] at hStatus
          exact Or.inr (Or.inr ⟨decoded, requestId, _, rfl, hId, hRun, Or.inr ⟨rfl, hStatus⟩⟩)

/-! ## Valid states -/

theorem Accepts.starts (h : Accepts sha256 state bytes decoded) : decoded.encodedBase =
    ⟨state.payload.length, state.nodes.length, state.versions.length, state.checkpoints.length⟩ :=
  geometry_eq_ok h.geometry

theorem Accepts.valid (h : Accepts sha256 state bytes decoded) :
    ValidTransaction sha256 decoded.encodedBase decoded.wal.nextGeometry decoded.wal.transaction :=
  (decodeV2Commit_eq_ok.mp h.decode).2.2.1

theorem Accepts.committed (h : Accepts sha256 state bytes decoded) :
    state.validateNodes sha256 decoded.encodedBase decoded.wal.transaction = .ok () ∧
      state.validateVersions decoded.encodedBase decoded.wal.transaction = .ok () ∧
      state.validateCheckpoint sha256 decoded.encodedBase decoded.wal.transaction = .ok () := by
  have hChecked := h.checked
  simp only [V2CommittedState.validateAgainstCommittedState, bind_eq_ok] at hChecked
  obtain ⟨_, hNodes, _, hVersions, hCheckpoint⟩ := hChecked
  exact ⟨hNodes, hVersions, hCheckpoint⟩

/-- A new request is unknown, and its digest is the one of the checkpoint. -/
theorem Accepts.request (h : Accepts sha256 state bytes decoded) {requestId : Bytes}
    (hId : decoded.requestId = some requestId) :
    LedgerIdOk requestId ∧ state.requestRecords.get requestId = none ∧
      state.retiredRequests.get requestId = none ∧
      decoded.operationDigest = operationDigestOf sha256 decoded.wal.transaction.checkpoint := by
  have hStatus := h.status
  have hDigest := (decodeV2Commit_eq_ok.mp h.decode).2.2.2.2.1
  rw [hId] at hStatus hDigest
  obtain ⟨hOk, hActive, hRetired⟩ := classifyRequest_eq_new.mp hStatus
  exact ⟨hOk, hActive, hRetired, hDigest⟩

/-- The requests of the new state: those of the old one and the one of the commit. -/
theorem get_recorded {requestId : Bytes} {record : V2RequestRecord}
    (h : (state.recorded decoded).get requestId = some record) :
    (decoded.requestId = some requestId ∧
      record = ⟨decoded.operationDigest, state.checkpoints.length⟩) ∨
    state.requestRecords.get requestId = some record := by
  rw [V2CommittedState.recorded] at h
  cases hId : decoded.requestId with
  | none =>
    rw [hId] at h
    exact Or.inr h
  | some new =>
    rw [hId] at h
    dsimp only at h
    rw [KeyMap.get_insert] at h
    split at h
    case isTrue hSame => exact Or.inl ⟨by rw [hSame], (Option.some.inj h).symm⟩
    case isFalse => exact Or.inr h

theorem LedgersOk.append (h : LedgersOk sha256 state)
    (hAccepts : Accepts sha256 state bytes decoded) :
    LedgersOk sha256 (state.appended decoded) := by
  have hBase := hAccepts.starts
  have hValid := hAccepts.valid
  have hNext := hValid.next_eq
  obtain ⟨-, hNotDeleted, -⟩ := validateCheckpoint_committed (by rw [hBase])
    hAccepts.committed.2.2
  exact {
    ordinals := by
      show state.checkpointOrdinals.insert _ _ = _
      rw [V2CommittedState.appended, checkpointKeys_append, KeyMap.indexOf_append_singleton,
        h.ordinals, checkpointKeys, List.length_map]
    count := by
      have hCount := hValid.checkpoints_lt
      rw [hNext, hBase] at hCount
      rw [V2CommittedState.appended, List.length_append]
      exact hCount
    deleted := by
      intro key hKey
      obtain ⟨hThread, hCheckpoint, hLive⟩ := h.deleted key hKey
      refine ⟨hThread, hCheckpoint, ?_⟩
      rw [V2CommittedState.appended, checkpointKeys_append, List.mem_append, List.mem_singleton]
      rintro (hOld | hNew)
      · exact hLive hOld
      · rw [hNew] at hKey
        exact Bool.false_ne_true (hNotDeleted.symm.trans hKey)
    active := by
      intro id record hGet
      rcases get_recorded hGet with ⟨hId, hRecord⟩ | hOld
      · obtain ⟨hOk, -, hRetired, hDigest⟩ := hAccepts.request hId
        refine ⟨hOk, hRetired, decoded.wal.transaction.checkpoint, ?_, ?_⟩
        · rw [hRecord]
          exact List.getElem?_concat_length
        · rw [hRecord, hDigest]
      · obtain ⟨hOk, hRetired, checkpoint, hCheckpoint, hDigest⟩ := h.active id record hOld
        refine ⟨hOk, hRetired, checkpoint, ?_, hDigest⟩
        show (state.checkpoints ++ _)[_]? = _
        rw [List.getElem?_append_left (List.getElem?_eq_some_iff.mp hCheckpoint).1, hCheckpoint]
    retired := h.retired }

/-- A commit leads from valid states to valid states, and the arena grows. -/
theorem StateOk.append (h : StateOk sha256 a state) (hAccepts : Accepts sha256 state bytes decoded) :
    ∃ b, StateOk sha256 b (state.appended decoded) ∧ Grows a b := by
  have hBase := hAccepts.starts
  have hValid := hAccepts.valid
  have hNext := hValid.next_eq
  obtain ⟨hNodes, hVersions, hCheckpoint⟩ := hAccepts.committed
  have hPayloadBase : state.payload.length = decoded.encodedBase.payloadLen := by rw [hBase]
  have hNodesBase : state.nodes.length = decoded.encodedBase.nodeCount := by rw [hBase]
  have hVersionsBase : state.versions.length = decoded.encodedBase.versionCount := by rw [hBase]
  obtain ⟨b, hExtended⟩ := h.extend hPayloadBase hNodesBase hValid hNodes
  obtain ⟨hNewKey, -, hParent, hState⟩ := validateCheckpoint_committed hVersionsBase hCheckpoint
  refine ⟨b, ?_, hExtended.grows⟩
  exact {
    payload := hExtended.payload
    nodes := hExtended.nodes
    wellFormed := hExtended.wellFormed
    apart := hExtended.apart h hPayloadBase hValid
    payload_lt := by
      have hBound := hValid.payload_lt
      rw [hNext, ← hPayloadBase] at hBound
      rw [hExtended.payload, List.length_append]
      exact hBound
    nodes_lt := by
      have hBound := hValid.nodes_lt
      rw [hNext, ← hNodesBase] at hBound
      have hLength : b.nodes.length = (records b).length := (List.length_map _).symm
      rw [hLength, hExtended.nodes, List.length_append]
      exact hBound
    versions_le := by
      have hBound := hValid.versions_le
      rw [hNext, ← hVersionsBase] at hBound
      rw [V2CommittedState.appended, List.length_append]
      exact hBound
    numbered := by
      refine h.numbered.append fun i version hGet => ?_
      have hVersion := hValid.versions i version hGet
      have hParentOk := hVersion.parent
      rw [hVersion.versionId, ← hVersionsBase] at hParentOk
      exact ⟨by rw [hVersion.versionId, hVersionsBase], hParentOk⟩
    roots := by
      intro version hMem
      rcases List.mem_append.mp hMem with hOld | hNew
      · obtain ⟨t, hDenotes⟩ := h.roots version hOld
        exact ⟨t, hDenotes.grows hExtended.grows⟩
      · exact validateVersions_roots hExtended hNodesBase hVersions version hNew
    table := by
      refine h.table.append hValid.checkpoint.valid hState ?_ ?_
      · intro parent hMem
        exact (h.ledgers.containsKey_ordinals h.table.nodup).mp (hParent parent hMem)
      · intro hMem
        have hKey := (h.ledgers.containsKey_ordinals h.table.nodup).mpr hMem
        exact Bool.false_ne_true (hNewKey.symm.trans hKey)
    numbers := by
      intro checkpoint hMem
      rcases List.mem_append.mp hMem with hOld | hNew
      · exact h.numbers checkpoint hOld
      · rw [List.mem_singleton.mp hNew]
        exact hValid.checkpoint.fits.checkpointNo
    cleared := by
      intro hNil
      exact absurd hNil (List.append_ne_nil_of_right_ne_nil _ (List.cons_ne_nil _ _))
    ledgers := h.ledgers.append hAccepts }

/-! ## Retiring a request -/

/-- The state behind the retirement of an active request. -/
def V2CommittedState.retiring (state : V2CommittedState) (requestId : Bytes)
    (record : V2RequestRecord) : V2CommittedState :=
  { state with
    requestRecords := state.requestRecords.erase requestId
    retiredRequests := state.retiredRequests.insert requestId record.operationDigest }

/-- Everything a retirement can do. -/
theorem retireRequest_cases (requestId : Bytes) (state : V2CommittedState) :
    (∃ e, retireRequest requestId state = .error e state) ∨
    ∃ record, LedgerIdOk requestId ∧ state.requestRecords.get requestId = some record ∧
      retireRequest requestId state = .ok () (state.retiring requestId record) := by
  cases hId : validateActiveRequestId requestId with
  | error e => exact Or.inl ⟨e, attempt_bind_error (s := state) hId⟩
  | ok u =>
    have hFirst : ∀ f : Unit → V2StateM Unit,
        (attempt (validateActiveRequestId requestId) >>= f) state = f () state :=
      fun f => attempt_bind_ok hId
    by_cases hRetired : state.retiredRequests.containsKey requestId = true
    · exact Or.inl ⟨_, (hFirst _).trans (attempt_bind_error (s := state) (failIf_pos hRetired))⟩
    · have hSecond : retireRequest requestId state = _ :=
        (hFirst _).trans (attempt_bind_ok (s := state) (failIf_neg hRetired))
      cases hActive : state.requestRecords.get requestId with
      | none =>
        refine Or.inl ⟨.invalid "v2 active request identity is absent", hSecond.trans ?_⟩
        rw [hActive]
        rfl
      | some record =>
        refine Or.inr ⟨record, validateActiveRequestId_eq_ok.mp hId, rfl, hSecond.trans ?_⟩
        rw [hActive]
        rfl

theorem StateOk.retiring (h : StateOk sha256 a state) {requestId : Bytes}
    (hId : LedgerIdOk requestId) (record : V2RequestRecord) :
    StateOk sha256 a (state.retiring requestId record) := by
  have hLedgers : LedgersOk sha256 (state.retiring requestId record) := {
    ordinals := h.ledgers.ordinals
    count := h.ledgers.count
    deleted := h.ledgers.deleted
    active := by
      intro id other hGet
      change (state.requestRecords.erase requestId).get id = some other at hGet
      rw [KeyMap.get_erase] at hGet
      split at hGet
      case isTrue => cases hGet
      case isFalse hOther =>
        obtain ⟨hOk, hRetired, hRest⟩ := h.ledgers.active id other hGet
        refine ⟨hOk, ?_, hRest⟩
        show (state.retiredRequests.insert requestId record.operationDigest).get id = none
        rw [KeyMap.get_insert, if_neg hOther, hRetired]
    retired := by
      intro id digest hGet
      change (state.retiredRequests.insert requestId record.operationDigest).get id = _ at hGet
      rw [KeyMap.get_insert] at hGet
      split at hGet
      case isTrue hSame => exact hSame ▸ hId
      case isFalse => exact h.ledgers.retired id digest hGet }
  exact { h with ledgers := hLedgers }

end Apply

end TulyaStore.V2
