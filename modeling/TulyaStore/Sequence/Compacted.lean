import TulyaStore.Sequence.Compaction
import TulyaStore.Sequence.Overlay

/-!
# A compact arena holds the same content

If the compaction of a well-formed arena succeeds, then its result is a well-formed arena in
which every relocated seed stands for the rope it stood for before. Nothing is assumed of
SHA-256: the payload of a rebuilt leaf is the payload of its source since it was copied, not
since the commitments agree.
-/

namespace TulyaStore.Sequence

open Lib V2AvlSequence

/-! ## Mark -/

section Mark

variable {arenaLen : Nat} {records : List V2NodeRecord}

theorem nodup_claimNode {state : PlanState} (h : state.retained.Nodup) (nodeId : Nat) :
    (claimNode state nodeId).retained.Nodup := by
  unfold claimNode
  split
  case isTrue => exact h
  case isFalse hNew => exact List.nodup_cons.mpr ⟨hNew, h⟩

theorem nodup_planNode {state next : PlanState} {nodeId : Nat} (h : state.retained.Nodup)
    (hNext : planNode arenaLen records state nodeId = .ok next) : next.retained.Nodup := by
  unfold planNode at hNext
  obtain ⟨node, -, hNext⟩ := bind_eq_ok.mp hNext
  obtain ⟨fields, -, hNext⟩ := bind_eq_ok.mp hNext
  cases fields with
  | leaf payloadOffset payloadLen =>
    simp only [bind_eq_ok, pure_eq_ok] at hNext
    obtain ⟨_, -, _, -, _, -, rfl⟩ := hNext
    exact h
  | branch leftNodeId rightNodeId leftLen =>
    simp only [bind_eq_ok, pure_eq_ok] at hNext
    obtain ⟨_, -, rfl⟩ := hNext
    exact nodup_claimNode (nodup_claimNode h _) _

theorem nodup_planLoop {fuel : Nat} {state plan : PlanState} (h : state.retained.Nodup)
    (hPlan : planLoop arenaLen records fuel state = .ok plan) : plan.retained.Nodup := by
  induction fuel generalizing state with
  | zero => cases hPlan
  | succ fuel ih =>
    unfold planLoop at hPlan
    split at hPlan
    case h_1 =>
      cases hPlan
      exact h
    case h_2 nodeId rest hWork =>
      obtain ⟨next, hNext, hPlan⟩ := bind_eq_ok.mp hPlan
      have hPopped : next.retained.Nodup :=
        @nodup_planNode _ _ { state with worklist := rest } _ _ h hNext
      exact ih hPopped hPlan

/-- The marked nodes are listed once each. -/
theorem nodup_planReachableArena {payload : Bytes} {seeds retained : List Nat}
    {ranges : List V2RetainedPayloadRange}
    (h : planReachableArena payload records seeds = .ok (retained, ranges)) :
    retained.Nodup := by
  unfold planReachableArena at h
  simp only [bind_eq_ok, pure_eq_ok, Prod.mk.injEq] at h
  obtain ⟨_, -, plan, hPlan, rfl, -⟩ := h
  rw [(List.perm_insertionSort _ _).nodup_iff]
  refine nodup_planLoop ?_ hPlan
  have hStart : ∀ (seeds : List Nat) (state : PlanState), state.retained.Nodup →
      (seeds.foldl claimNode state).retained.Nodup := by
    intro seeds
    induction seeds with
    | nil => exact fun _ hState => hState
    | cons seed seeds ih => exact fun _ hState => ih _ (nodup_claimNode hState seed)
  exact hStart seeds _ List.nodup_nil

end Mark

/-! ## Repack -/

section Repack

variable {payload : Bytes}

/-- The copied ranges: each is in the compact payload what it was in the source, and no byte is
copied twice. -/
structure Repacked (payload : Bytes) (state : RepackState) : Prop where
  copied : ∀ entry ∈ state.mapping, ∃ bytes, bytes.length = entry.length ∧
    slice payload entry.oldOffset (entry.oldOffset + entry.length) = some bytes ∧
    slice state.compact entry.newOffset (entry.newOffset + entry.length) = some bytes
  compact : state.compact.length ≤ state.previousEnd
  inside : state.previousEnd ≤ payload.length

theorem Repacked.step {state next : RepackState} {range : V2RetainedPayloadRange}
    (h : Repacked payload state) (hNext : repackRange payload state range = .ok next) :
    Repacked payload next := by
  simp only [repackRange, bind_eq_ok, failIf_eq_ok, okOr_eq_ok, checkedAdd_eq_some,
    tryFrom_eq_some, pure_eq_ok] at hNext
  obtain ⟨_, hOrder, _, ⟨-, rfl⟩, bytes, hBytes, _, ⟨-, rfl⟩, rfl⟩ := hNext
  obtain ⟨-, hInside, -⟩ := slice_eq_some.mp hBytes
  have hLen := length_of_slice hBytes
  refine ⟨?_, ?_, hInside⟩
  · intro entry hEntry
    rcases List.mem_append.mp hEntry with hEntry | hEntry
    · obtain ⟨found, hFound, hOld, hNew⟩ := h.copied entry hEntry
      exact ⟨found, hFound, hOld, slice_append hNew⟩
    · obtain rfl := List.mem_singleton.mp hEntry
      have hSelf : slice (state.compact ++ bytes) state.compact.length
          (state.compact.length + bytes.length) = some bytes := slice_append_self
      dsimp only
      rw [show bytes.length = range.length by omega] at hSelf
      exact ⟨bytes, by omega, hBytes, hSelf⟩
  · have := h.compact
    rw [List.length_append]
    dsimp only
    omega

theorem repackCompactRanges_spec {ranges : List V2RetainedPayloadRange} {compact : Bytes}
    {mapping : List V2PayloadRangeMapping}
    (h : repackCompactRanges payload ranges = .ok (compact, mapping)) :
    compact.length ≤ payload.length ∧ ∀ entry ∈ mapping, ∃ bytes, bytes.length = entry.length ∧
      slice payload entry.oldOffset (entry.oldOffset + entry.length) = some bytes ∧
      slice compact entry.newOffset (entry.newOffset + entry.length) = some bytes := by
  simp only [repackCompactRanges, bind_eq_ok, pure_eq_ok, Prod.mk.injEq] at h
  obtain ⟨_, -, state, hRun, rfl, rfl⟩ := h
  have hAll : ∀ (ranges : List V2RetainedPayloadRange) (start : RepackState),
      Repacked payload start → ranges.foldlM (repackRange payload) start = .ok state →
      Repacked payload state := by
    intro ranges
    induction ranges with
    | nil =>
      intro start hStart hRun
      cases hRun
      exact hStart
    | cons range ranges ih =>
      intro start hStart hRun
      rw [List.foldlM_cons] at hRun
      obtain ⟨next, hNext, hRun⟩ := bind_eq_ok.mp hRun
      exact ih next (hStart.step hNext) hRun
  have hEmpty : Repacked payload ⟨[], [], 0⟩ :=
    ⟨fun _ hMem => absurd hMem List.not_mem_nil, Nat.le_refl _, Nat.zero_le _⟩
  have hDone := hAll ranges _ hEmpty hRun
  exact ⟨hDone.compact.trans hDone.inside, hDone.copied⟩

end Repack

/-! ## Rebuild -/

section Rebuild

variable {sha256 : Bytes → Digest} {a : V2AvlSequence}

/-- The node `old` of `a` and the node `new` of `c` stand for one rope. -/
def SameContent (sha256 : Bytes → Digest) (a c : V2AvlSequence) (old new : Nat) : Prop :=
  ∃ t root root', Denotes sha256 a t root ∧ root.nodeId = old ∧ Denotes sha256 c t root' ∧
    root'.nodeId = new

/-- Two roots of an arena at the same node are one. -/
theorem Denotes.root_unique {t t' : Rope UInt8} {root root' : V2RootRecord}
    (h : Denotes sha256 a t root) (h' : Denotes sha256 a t' root')
    (hSame : root.nodeId = root'.nodeId) : root = root' := by
  obtain ⟨node, hNode, hRoot⟩ := h.root_eq
  obtain ⟨node', hNode', hRoot'⟩ := h'.root_eq
  rw [hSame] at hNode hRoot
  rw [hNode] at hNode'
  cases hNode'
  rw [hRoot] at hRoot'
  exact Except.ok.inj hRoot'

theorem SameContent.grows {c d : V2AvlSequence} {old new : Nat} (hGrows : Grows c d)
    (h : SameContent sha256 a c old new) : SameContent sha256 a d old new := by
  obtain ⟨t, root, root', hOld, hId, hNew, hId'⟩ := h
  exact ⟨t, root, root', hOld, hId, hNew.grows hGrows, hId'⟩

/-- The nodes rebuilt so far: all of them stand for what their sources stand for. -/
structure Rebuilt (sha256 : Bytes → Digest) (a : V2AvlSequence) (compact : Bytes)
    (state : RebuildState) (nodes : List ArenaNode) : Prop where
  records : nodes.map ArenaNode.record = state.rebuiltNodes
  same : ∀ entry ∈ state.mapping, SameContent sha256 a ⟨compact, nodes⟩ entry.oldNode entry.newNode
  covers : ∀ i < nodes.length, ∃ entry ∈ state.mapping, entry.newNode = i

theorem remappedNodeId_eq_ok {mapping : List V2NodeIdMapping} {old new : Nat}
    (h : remappedNodeId mapping old = .ok new) : ∃ entry ∈ mapping, entry.oldNode = old ∧
      entry.newNode = new := by
  simp only [remappedNodeId, bind_eq_ok, okOr_eq_ok, pure_eq_ok] at h
  obtain ⟨entry, hFind, rfl⟩ := h
  have hOld := List.find?_some hFind
  exact ⟨entry, List.mem_of_find?_eq_some hFind, by simpa using hOld, rfl⟩

/-- A remapped child is the root of the rope its source stands for. -/
theorem Rebuilt.child {compact : Bytes} {state : RebuildState} {nodes : List ArenaNode}
    (h : Rebuilt sha256 a compact state nodes) {t : Rope UInt8} {root newRoot : V2RootRecord}
    (hDenotes : Denotes sha256 a t root) {new : Nat} {absent : String}
    (hRemapped : remappedNodeId state.mapping root.nodeId = .ok new)
    (hChild : remappedChild state.rebuiltNodes new absent = .ok newRoot) :
    Denotes sha256 ⟨compact, nodes⟩ t newRoot ∧ newRoot.nodeId < nodes.length := by
  obtain ⟨entry, hEntry, hOld, rfl⟩ := remappedNodeId_eq_ok hRemapped
  obtain ⟨t', root₁, root₂, hSource, hId, hCompact, hId'⟩ := h.same entry hEntry
  have hRoot : root₁ = root := hSource.root_unique hDenotes (hId.trans hOld)
  subst hRoot
  obtain rfl := hSource.unique hDenotes
  obtain ⟨node, hNode, hFrom⟩ := hCompact.root_eq
  simp only [remappedChild, liftFormat, bind_eq_ok, okOr_eq_ok, mapErr_eq_ok] at hChild
  obtain ⟨record, hRecord, hChild⟩ := hChild
  rw [← h.records, List.getElem?_map, ← hId'] at hRecord
  dsimp only at hNode
  rw [hNode, Option.map_some, Option.some.injEq] at hRecord
  rw [← hRecord, ← hId', hFrom] at hChild
  cases hChild
  exact ⟨hCompact, (List.getElem?_eq_some_iff.mp hNode).1⟩

theorem Rebuilt.push {compact : Bytes} {state : RebuildState} {nodes : List ArenaNode}
    (h : Rebuilt sha256 a compact state nodes) (node : ArenaNode) {old : Nat}
    (hSame : SameContent sha256 a ⟨compact, nodes ++ [node]⟩ old nodes.length) :
    Rebuilt sha256 a compact
      ⟨state.rebuiltNodes ++ [node.record], state.mapping ++ [⟨old, nodes.length⟩]⟩
      (nodes ++ [node]) := by
  have hGrows : Grows ⟨compact, nodes⟩ ⟨compact, nodes ++ [node]⟩ :=
    ⟨List.prefix_rfl, List.prefix_append _ _⟩
  refine ⟨?_, ?_, ?_⟩
  · rw [List.map_append, h.records]
    rfl
  · intro entry hEntry
    rcases List.mem_append.mp hEntry with hEntry | hEntry
    · exact (h.same entry hEntry).grows hGrows
    · obtain rfl := List.mem_singleton.mp hEntry
      exact hSame
  · intro i hi
    rw [List.length_append, List.length_singleton] at hi
    by_cases hLast : i = nodes.length
    · exact ⟨_, List.mem_append_right _ (List.mem_singleton.mpr rfl), hLast.symm⟩
    · obtain ⟨entry, hEntry, hNew⟩ := h.covers i (by omega)
      exact ⟨entry, List.mem_append_left _ hEntry, hNew⟩

variable {compact : Bytes} {payloadMapping : List V2PayloadRangeMapping}

theorem Rebuilt.step {state next : RebuildState} {nodes : List ArenaNode} {old : Nat}
    (h : Rebuilt sha256 a compact state nodes) (hWf : WellFormed sha256 a)
    (hFew : nodes.length < v2NoneNode)
    (hCopied : ∀ entry ∈ payloadMapping, ∃ bytes, bytes.length = entry.length ∧
      slice a.payload entry.oldOffset (entry.oldOffset + entry.length) = some bytes ∧
      slice compact entry.newOffset (entry.newOffset + entry.length) = some bytes)
    (hNext : rebuildNode sha256 (a.nodes.map ArenaNode.record) compact payloadMapping state old =
      .ok next) :
    old < a.nodes.length ∧ ∃ node, Rebuilt sha256 a compact next (nodes ++ [node]) := by
  have hNone : v2NoneNode < width 64 := by decide +kernel
  have hSmall : nodes.length < width 64 := hFew.trans hNone
  have hNot : nodes.length ≠ v2NoneNode := hFew.ne
  have hCount : state.rebuiltNodes.length = nodes.length := by rw [← h.records, List.length_map]
  have hLast (node : ArenaNode) : (nodes ++ [node])[nodes.length]? = some node := by simp
  simp only [rebuildNode, bind_eq_ok, okOr_eq_ok, List.getElem?_map, Option.map_eq_some_iff] at hNext
  obtain ⟨_, ⟨source, hSource, rfl⟩, fields, hFields, hNext⟩ := hNext
  refine ⟨(List.getElem?_eq_some_iff.mp hSource).1, ?_⟩
  obtain ⟨t, root, hRoot, hDenotes⟩ := hWf old source hSource
  obtain ⟨hId, -, -⟩ := fromNode_fields hRoot
  rw [v2NodeFields_of_canonical (hWf.canonical hSource)] at hFields
  have hKept := hDenotes
  cases t with
  | leaf bytes =>
    obtain ⟨-, offset, record, hNode, hSlice, hRecord, -⟩ := hDenotes
    rw [hId, hSource] at hNode
    cases hNode
    obtain ⟨-, hRecordEq⟩ := leaf_eq_ok.mp hRecord
    simp only [ArenaNode.record, hRecordEq, Except.ok.injEq] at hFields
    subst hFields
    simp only [bind_eq_ok, pure_eq_ok] at hNext
    obtain ⟨rebuilt, hRebuilt, newId, hNewId, rfl⟩ := hNext
    obtain ⟨-, rfl⟩ := tryFrom_eq_some.mp (okOr_eq_ok.mp hNewId)
    simp only [rebuildLeaf, remappedPayloadOffset, liftFormat, bind_eq_ok, okOr_eq_ok,
      mapErr_eq_ok, pure_eq_ok, checkedAdd_eq_some] at hRebuilt
    obtain ⟨newOffset, ⟨entry, hFind, rfl⟩, _, ⟨-, rfl⟩, found, hFound, leafRecord, hLeaf, _, -, rfl⟩ :=
      hRebuilt
    have hMatch : entry.oldOffset = offset ∧ entry.length = bytes.length := by
      have := List.find?_some hFind
      simpa using this
    obtain ⟨copied, -, hOld, hNew⟩ := hCopied entry (List.mem_of_find?_eq_some hFind)
    rw [hMatch.1, hMatch.2, hSlice] at hOld
    rw [hMatch.2] at hNew
    cases hOld
    rw [hNew] at hFound
    cases hFound
    rw [hCount]
    refine ⟨.leaf entry.newOffset bytes.length leafRecord, h.push
      (.leaf entry.newOffset bytes.length leafRecord) ⟨.leaf bytes, root,
        ⟨nodes.length, leafRecord.logicalLen, leafRecord.height, leafRecord.commitment⟩, hKept, hId,
        ?_, rfl⟩⟩
    refine ⟨hSmall, entry.newOffset, leafRecord, hLast _, hNew, hLeaf, ?_⟩
    exact fromNode_eq_ok.mpr ⟨hNot, rfl⟩
  | node l r =>
    obtain ⟨-, left, right, record, hNode, hRecord, -, -, -, hl, hr⟩ := hDenotes
    rw [hId, hSource] at hNode
    cases hNode
    obtain ⟨-, -, -, -, -, hRecordEq⟩ := branch_eq_ok.mp hRecord
    simp only [ArenaNode.record, hRecordEq, Except.ok.injEq] at hFields
    subst hFields
    simp only [bind_eq_ok, pure_eq_ok] at hNext
    obtain ⟨rebuilt, hRebuilt, newId, hNewId, rfl⟩ := hNext
    obtain ⟨-, rfl⟩ := tryFrom_eq_some.mp (okOr_eq_ok.mp hNewId)
    simp only [rebuildBranch, liftFormat, bind_eq_ok, mapErr_eq_ok] at hRebuilt
    obtain ⟨newLeft, hNewLeft, newRight, hNewRight, leftRoot, hLeftRoot, rightRoot, hRightRoot,
      rebuilt', hBranch, _, -, fields, -, hRebuilt⟩ := hRebuilt
    obtain ⟨hLeft, hLeftLt⟩ := h.child hl hNewLeft hLeftRoot
    obtain ⟨hRight, hRightLt⟩ := h.child hr hNewRight hRightRoot
    have hSame : rebuilt' = rebuilt := by
      cases fields with
      | leaf => cases hRebuilt
      | branch =>
        simp only [bind_eq_ok, pure_eq_ok] at hRebuilt
        obtain ⟨_, -, hEq⟩ := hRebuilt
        exact hEq
    subst hSame
    rw [hCount]
    have hGrows (node : ArenaNode) : Grows ⟨compact, nodes⟩ ⟨compact, nodes ++ [node]⟩ :=
      ⟨List.prefix_rfl, List.prefix_append _ _⟩
    refine ⟨.branch leftRoot rightRoot rebuilt', h.push
      (.branch leftRoot rightRoot rebuilt') ⟨.node l r, root,
        ⟨nodes.length, rebuilt'.logicalLen, rebuilt'.height, rebuilt'.commitment⟩, hKept, hId,
        ?_, rfl⟩⟩
    refine ⟨hSmall, leftRoot, rightRoot, rebuilt', hLast _, hBranch, ?_, hLeftLt, hRightLt,
      hLeft.grows (hGrows _), hRight.grows (hGrows _)⟩
    exact fromNode_eq_ok.mpr ⟨hNot, rfl⟩

/-- The whole rebuild: as many nodes as were retained, none outside the source. -/
theorem Rebuilt.run {retained : List Nat} {state final : RebuildState} {nodes : List ArenaNode}
    (h : Rebuilt sha256 a compact state nodes) (hWf : WellFormed sha256 a)
    (hFew : nodes.length + retained.length ≤ v2NoneNode)
    (hCopied : ∀ entry ∈ payloadMapping, ∃ bytes, bytes.length = entry.length ∧
      slice a.payload entry.oldOffset (entry.oldOffset + entry.length) = some bytes ∧
      slice compact entry.newOffset (entry.newOffset + entry.length) = some bytes)
    (hRun : retained.foldlM (rebuildNode sha256 (a.nodes.map ArenaNode.record) compact
      payloadMapping) state = .ok final) :
    ∃ nodes', Rebuilt sha256 a compact final nodes' ∧
      nodes'.length = nodes.length + retained.length := by
  induction retained generalizing state nodes with
  | nil =>
    cases hRun
    exact ⟨nodes, h, rfl⟩
  | cons old retained ih =>
    rw [List.length_cons] at hFew
    rw [List.foldlM_cons] at hRun
    obtain ⟨next, hNext, hRun⟩ := bind_eq_ok.mp hRun
    obtain ⟨-, node, hNode⟩ := h.step hWf (by omega) hCopied hNext
    obtain ⟨nodes', hDone, hLen⟩ := ih hNode (by simp; omega) hRun
    refine ⟨nodes', hDone, ?_⟩
    rw [hLen, List.length_append, List.length_singleton, List.length_cons]
    omega

/-- The rebuild reads every retained node from the source table. -/
theorem rebuilt_inside {records : List V2NodeRecord} {retained : List Nat}
    {state final : RebuildState}
    (hRun : retained.foldlM (rebuildNode sha256 records compact payloadMapping) state =
      .ok final) : ∀ old ∈ retained, old < records.length := by
  induction retained generalizing state with
  | nil => exact fun _ hMem => absurd hMem List.not_mem_nil
  | cons old retained ih =>
    rw [List.foldlM_cons] at hRun
    obtain ⟨next, hNext, hRun⟩ := bind_eq_ok.mp hRun
    obtain ⟨source, hSource, -⟩ := bind_eq_ok.mp hNext
    have hOld : old < records.length := (List.getElem?_eq_some_iff.mp (okOr_eq_ok.mp hSource)).1
    exact List.forall_mem_cons.mpr ⟨hOld, ih hRun⟩

theorem Rebuilt.wellFormed {state : RebuildState} {nodes : List ArenaNode}
    (h : Rebuilt sha256 a compact state nodes) : WellFormed sha256 ⟨compact, nodes⟩ := by
  intro i node hNode
  obtain ⟨entry, hEntry, hNew⟩ := h.covers i (List.getElem?_eq_some_iff.mp hNode).1
  obtain ⟨t, -, root', -, -, hDenotes, hId⟩ := h.same entry hEntry
  obtain ⟨found, hFound, hRoot⟩ := hDenotes.root_eq
  rw [hId, hNew, hNode] at hFound
  cases hFound
  rw [hId, hNew] at hRoot
  exact ⟨t, root', hRoot, hDenotes⟩

end Rebuild

/-! ## The physical compaction -/

section Physical

variable {sha256 : Bytes → Digest} {a : V2AvlSequence} {source : PhysicalContentStore}

theorem Represents.loadAllRecords (h : Represents source a) (hWf : WellFormed sha256 a)
    (hAddressable : Addressable a) :
    source.loadAllRecords = .ok (a.nodes.map ArenaNode.record) := by
  have hEach : ∀ (start : Nat) (nodes : List ArenaNode), a.nodes.drop start = nodes →
      (List.range' start nodes.length).mapM source.loadRecord =
        .ok (nodes.map ArenaNode.record) := by
    intro start nodes hDrop
    induction nodes generalizing start with
    | nil => rfl
    | cons node nodes ih =>
      have hNode : a.nodes[start]? = some node := by
        have := congrArg (fun xs : List ArenaNode => xs[0]?) hDrop
        simpa using this
      have hRest : a.nodes.drop (start + 1) = nodes := by
        rw [← List.drop_drop, hDrop]
        rfl
      rw [List.length_cons, List.range'_succ, List.mapM_cons, h.loadRecord hWf hAddressable hNode,
        ok_bind, ih _ hRest, ok_bind]
      rfl
  have hAll := hEach 0 a.nodes rfl
  rw [PhysicalContentStore.loadAllRecords, h.nodeCount, List.range_eq_range']
  exact hAll

theorem Represents.readAllPayload (h : Represents source a) (hAddressable : Addressable a)
    {payload : Bytes} (hRead : source.readAllPayload = .ok payload) : payload = a.payload := by
  rw [PhysicalContentStore.readAllPayload, h.payloadEnd] at hRead
  cases hPayload : a.payload with
  | nil =>
    rw [hPayload] at hRead
    simp only [PhysicalContentStore.readPayloadRange, bind_eq_ok, okOr_eq_ok, readExactAt] at hRead
    obtain ⟨_, -, _, -, _, -, _, -, hRead⟩ := hRead
    rw [if_pos (by simp)] at hRead
    exact (Option.some.inj hRead).symm
  | cons byte rest =>
    have hAll := h.readPayloadRange hAddressable (by rw [hPayload]; simp) (slice_all a.payload)
    rw [hAll] at hRead
    rw [← hPayload, Except.ok.inj hRead]

/-- The mapped seed stands for the rope of the seed. -/
theorem Rebuilt.seed {compact : Bytes} {state : RebuildState} {nodes : List ArenaNode}
    (h : Rebuilt sha256 a compact state nodes) {t : Rope UInt8} {root newRoot : V2RootRecord}
    (hDenotes : Denotes sha256 a t root)
    (hSeed : remappedSeed state.rebuiltNodes state.mapping root = .ok newRoot) :
    Denotes sha256 ⟨compact, nodes⟩ t newRoot := by
  obtain ⟨new, hRemapped, hChild⟩ := bind_eq_ok.mp hSeed
  exact (h.child hDenotes hRemapped hChild).1

theorem Rebuilt.seeds {compact : Bytes} {state : RebuildState} {nodes : List ArenaNode}
    (h : Rebuilt sha256 a compact state nodes) {seeds roots : List V2RootRecord}
    (hSeeds : seeds.mapM (remappedSeed state.rebuiltNodes state.mapping) = .ok roots) :
    List.Forall₂ (fun seed root => ∀ t, Denotes sha256 a t seed →
      Denotes sha256 ⟨compact, nodes⟩ t root) seeds roots := by
  induction seeds generalizing roots with
  | nil =>
    cases hSeeds
    exact .nil
  | cons seed seeds ih =>
    rw [List.mapM_cons] at hSeeds
    obtain ⟨root, hRoot, hSeeds⟩ := bind_eq_ok.mp hSeeds
    obtain ⟨rest, hRest, hSeeds⟩ := bind_eq_ok.mp hSeeds
    obtain rfl := pure_eq_ok.mp hSeeds
    exact .cons (fun t hDenotes => h.seed hDenotes hRoot) (ih hRest)

theorem mem_range_length_le {retained : List Nat} (hNodup : retained.Nodup) {n : Nat}
    (hInside : ∀ old ∈ retained, old < n) : retained.length ≤ n := by
  have hSubset : retained ⊆ List.range n := fun old hMem => List.mem_range.mpr (hInside old hMem)
  have hLe := (hNodup.subperm hSubset).length_le
  rwa [List.length_range] at hLe

/-- If a generation is compacted, its successor is a well-formed arena that is no larger, and
every seed stands for the same rope in it. -/
theorem Represents.compacted (h : Represents source a) (hWf : WellFormed sha256 a)
    (hAddressable : Addressable a) {seeds : List V2RootRecord} {compact : Bytes}
    {records : List V2NodeRecord} {mapping : List V2NodeIdMapping}
    (hPlan : planPhysicalGeneration sha256 source seeds = .ok (compact, records, mapping)) :
    ∃ c : V2AvlSequence, c.payload = compact ∧ c.nodes.map ArenaNode.record = records ∧
      WellFormed sha256 c ∧ Addressable c ∧ ∀ roots,
        relocateSeeds seeds records mapping = .ok roots →
        List.Forall₂ (fun seed root => ∀ t, Denotes sha256 a t seed → Denotes sha256 c t root)
          seeds roots := by
  simp only [planPhysicalGeneration, h.loadAllRecords hWf hAddressable, ok_bind] at hPlan
  obtain ⟨_, -, hPlan⟩ := bind_eq_ok.mp hPlan
  obtain ⟨payload, hPayload, hPlan⟩ := bind_eq_ok.mp hPlan
  obtain rfl := h.readAllPayload hAddressable hPayload
  obtain ⟨⟨retained, ranges⟩, hMark, hPlan⟩ := bind_eq_ok.mp hPlan
  obtain ⟨⟨compact', payloadMapping⟩, hRepack, hPlan⟩ := bind_eq_ok.mp hPlan
  obtain ⟨⟨records', mapping'⟩, hRebuild, hPlan⟩ := bind_eq_ok.mp hPlan
  simp only [bind_eq_ok, pure_eq_ok, Prod.mk.injEq] at hPlan
  obtain ⟨_, -, rfl, rfl, rfl⟩ := hPlan
  obtain ⟨hShort, hCopied⟩ := repackCompactRanges_spec hRepack
  simp only [rebuildCompactRecords, bind_eq_ok, pure_eq_ok, Prod.mk.injEq] at hRebuild
  obtain ⟨state, hRun, rfl, rfl⟩ := hRebuild
  have hInside := rebuilt_inside hRun
  rw [List.length_map] at hInside
  have hFew := mem_range_length_le (nodup_planReachableArena hMark) hInside
  have hBounds := hAddressable
  unfold Addressable at hBounds
  have hNone : v2NoneNode = 2 ^ 64 - 1 := by decide +kernel
  have hEmpty : Rebuilt sha256 a compact' ⟨[], []⟩ [] :=
    ⟨rfl, fun _ hMem => absurd hMem List.not_mem_nil, fun i hi => absurd hi (Nat.not_lt_zero i)⟩
  obtain ⟨nodes, hRebuilt, hLen⟩ :=
    hEmpty.run hWf (by rw [List.length_nil]; omega) hCopied hRun
  rw [List.length_nil, Nat.zero_add] at hLen
  refine ⟨⟨compact', nodes⟩, rfl, hRebuilt.records, hRebuilt.wellFormed, ?_, ?_⟩
  · unfold Addressable
    dsimp only
    omega
  · intro roots hRoots
    obtain ⟨found, hFound, hRoots⟩ := bind_eq_ok.mp hRoots
    obtain ⟨_, -, hRoots⟩ := bind_eq_ok.mp hRoots
    obtain rfl := pure_eq_ok.mp hRoots
    exact hRebuilt.seeds hFound

end Physical

end TulyaStore.Sequence
