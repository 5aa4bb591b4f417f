import TulyaStore.Sequence.CompactImage

/-!
# Compaction computes the compact arena

On a well-formed arena whose leaves share no byte the three phases of a compaction succeed,
whatever the seeds: the mark phase retains what the seeds reach, the repack phase copies the
retained ranges in their order, and the rebuild phase makes the records of `compactArena`.
-/

namespace TulyaStore.Sequence

open Lib V2AvlSequence

variable {sha256 : Bytes → Digest} {a : V2AvlSequence}

/-- The records of the nodes, as the phases take them. -/
def records (a : V2AvlSequence) : List V2NodeRecord := a.nodes.map ArenaNode.record

theorem getElem?_records {i : Nat} {node : ArenaNode} (h : a.nodes[i]? = some node) :
    (records a)[i]? = some node.record := by
  rw [records, List.getElem?_map, h]
  rfl

/-! ## Mark -/

section Mark

variable {seeds done : List Nat} {state : PlanState}

theorem claimNode_eq (state : PlanState) (nodeId : Nat) :
    claimNode state nodeId = ⟨(claim nodeId (state.retained, state.worklist)).1,
      (claim nodeId (state.retained, state.worklist)).2, state.ranges⟩ := by
  unfold claimNode claim
  split <;> rfl

theorem foldl_claimNode (seeds : List Nat) (marks : List Nat × List Nat) :
    seeds.foldl claimNode ⟨marks.1, marks.2, []⟩ =
      ⟨(seeds.foldl (fun marks x => claim x marks) marks).1,
        (seeds.foldl (fun marks x => claim x marks) marks).2, []⟩ := by
  induction seeds generalizing marks with
  | nil => rfl
  | cons seed seeds ih =>
    rw [List.foldl_cons, List.foldl_cons, claimNode_eq]
    exact ih _

/-- What holds of the loop when the nodes `done` were visited. -/
structure Planned (a : V2AvlSequence) (seeds done : List Nat) (state : PlanState) : Prop where
  marking : Marking (ChildOf a) seeds done state.worklist
  claimed : state.retained.Perm (done ++ state.worklist)
  ranges : state.ranges = done.filterMap fun i => a.nodes[i]?.bind leafRange

theorem planned_start (a : V2AvlSequence) (seeds : List Nat) :
    Planned a seeds [] (seeds.foldl claimNode ⟨[], [], []⟩) := by
  obtain ⟨hPerm, hNodup, hMem⟩ := foldl_claim_spec seeds
  rw [foldl_claimNode seeds ([], [])]
  exact ⟨.start hNodup hMem, hPerm, rfl⟩

/-- Every node a well-formed arena can reach from nodes it has. -/
theorem reaches_lt (hWf : WellFormed sha256 a) (hSeeds : ∀ s ∈ seeds, s < a.nodes.length) {i : Nat}
    (h : Reaches (ChildOf a) seeds i) : i < a.nodes.length := by
  refine Reaches.induction (P := fun i => i < a.nodes.length) hSeeds ?_ h
  rintro x y hLt ⟨left, right, record, hNode, hChild⟩
  rcases hWf.node_cases hNode with ⟨_, _, _, hEq, -⟩ |
    ⟨left', right', record', hEq, -, ⟨hLeft, -⟩, ⟨hRight, -⟩⟩
  · cases hEq
  · cases hEq
    rcases hChild with rfl | rfl <;> omega

/-- The visit of a node. -/
theorem planNode_ok (hWf : WellFormed sha256 a) (hSeeds : ∀ s ∈ seeds, s < a.nodes.length)
    {i : Nat} {rest : List Nat} (h : Planned a seeds done state)
    (hWork : state.worklist = i :: rest) :
    ∃ next, planNode a.payload.length (records a) { state with worklist := rest } i = .ok next ∧
      Planned a seeds (done ++ [i]) next := by
  obtain ⟨hMarking, hClaimed, hRanges⟩ := h
  rw [hWork] at hMarking hClaimed
  have hReached := hMarking.reached i (by simp)
  have hNode : a.nodes[i]? = some (a.nodes.get ⟨i, reaches_lt hWf hSeeds hReached⟩) :=
    List.getElem?_eq_getElem _
  obtain ⟨node, hNode⟩ : ∃ node, a.nodes[i]? = some node := ⟨_, hNode⟩
  have hFields := v2NodeFields_of_canonical (hWf.canonical hNode)
  have hAssoc : ∀ work : List Nat, done ++ [i] ++ work = done ++ i :: work := fun work => by simp
  rw [planNode, getElem?_records hNode, okOr_some, ok_bind, hFields, ok_bind]
  rcases hWf.node_cases hNode with ⟨offset, bytes, record, rfl, hSlice, hRecord⟩ |
    ⟨left, right, record, rfl, hRecord, ⟨hLeft, -⟩, ⟨hRight, -⟩⟩
  · obtain ⟨⟨hPos, -, hEnd⟩, rfl⟩ := leaf_eq_ok.mp hRecord
    obtain ⟨-, hInside, -⟩ := slice_eq_some.mp hSlice
    simp only [ArenaNode.record]
    rw [failIf_neg (by omega), ok_bind, checkedAdd_of_lt hEnd, okOr_some, ok_bind,
      failIf_neg (by omega), ok_bind]
    refine ⟨_, rfl, ⟨hMarking.visit hMarking.nodup fun y => ⟨Or.inl, ?_⟩, ?_, ?_⟩⟩
    · rintro (hMem | ⟨_, _, _, hOther, -⟩)
      · exact hMem
      · rw [hNode] at hOther
        cases hOther
    · rw [hAssoc]
      exact hClaimed
    · rw [List.filterMap_append, ← hRanges]
      simp [hNode, leafRange]
  · obtain ⟨-, -, -, -, -, rfl⟩ := branch_eq_ok.mp hRecord
    simp only [ArenaNode.record]
    rw [failIf_neg (by omega), ok_bind, claimNode_eq, claimNode_eq]
    dsimp only
    rw [← hAssoc] at hClaimed
    have hNodup := hMarking.nodup
    rw [← hAssoc] at hNodup
    have hStart : (state.retained, rest).1.Perm (done ++ [i] ++ (state.retained, rest).2) := hClaimed
    obtain ⟨hPerm₁, hNodup₁, hMem₁⟩ := claim_spec hStart hNodup left.nodeId
    obtain ⟨hPerm₂, hNodup₂, hMem₂⟩ := claim_spec hPerm₁ hNodup₁ right.nodeId
    refine ⟨_, rfl, ⟨hMarking.visit (by rwa [← hAssoc]) fun y => ?_, hPerm₂, ?_⟩⟩
    · rw [← hAssoc, hMem₂, hMem₁, hAssoc, or_assoc]
      refine or_congr_right ⟨fun hy => ⟨left, right, _, hNode, hy⟩, ?_⟩
      rintro ⟨left', right', _, hOther, hy⟩
      rw [hNode] at hOther
      cases hOther
      exact hy
    · rw [List.filterMap_append, ← hRanges]
      simp [hNode, leafRange]

/-- The loop ends with every reached node visited. -/
theorem planLoop_ok (hWf : WellFormed sha256 a) (hSeeds : ∀ s ∈ seeds, s < a.nodes.length)
    {fuel : Nat} (h : Planned a seeds done state) (hFuel : a.nodes.length < fuel + done.length) :
    ∃ plan visited, planLoop a.payload.length (records a) fuel state = .ok plan ∧
      Planned a seeds visited plan ∧ plan.worklist = [] := by
  have hBound := h.marking.length_le fun _ hReached => reaches_lt hWf hSeeds hReached
  induction fuel generalizing done state with
  | zero => omega
  | succ fuel ih =>
    unfold planLoop
    cases hWork : state.worklist with
    | nil => exact ⟨state, done, rfl, h, hWork⟩
    | cons i rest =>
      obtain ⟨next, hNext, hPlanned⟩ := planNode_ok hWf hSeeds h hWork
      have hLen : (done ++ [i]).length = done.length + 1 := by simp
      obtain ⟨plan, visited, hRun, hDone⟩ := ih hPlanned (by omega)
        (hPlanned.marking.length_le fun _ hReached => reaches_lt hWf hSeeds hReached)
      refine ⟨plan, visited, ?_, hDone⟩
      dsimp only
      rw [hNext, ok_bind, hRun]

/-- Ranges in the order of their offsets that share no byte follow each other. -/
theorem before_of_rangeLe {r s : V2RetainedPayloadRange} (hLe : rangeLe r s)
    (hApart : Apart r s) : Before r s := by
  rcases hApart with hBefore | hAfter
  · exact hBefore
  · unfold Before rangeLe at *
    omega

instance : Std.Total rangeLe where
  total r s := by
    unfold rangeLe
    omega

instance : IsTrans V2RetainedPayloadRange rangeLe where
  trans r s t hrs hst := by
    unfold rangeLe at *
    omega

/-- The mark phase retains what the seeds reach. -/
theorem planReachableArena_ok (hWf : WellFormed sha256 a)
    (hSeeds : ∀ s ∈ seeds, s < a.nodes.length) (hLen : a.payload.length < width 64)
    (hApart : (leafRanges a.nodes).Pairwise Apart) :
    ∃ retained ranges, planReachableArena a.payload (records a) seeds = .ok (retained, ranges) ∧
      Retained a retained ranges ∧ ∀ i, i ∈ retained ↔ Reaches (ChildOf a) seeds i := by
  have hCount : (records a).length = a.nodes.length := List.length_map _
  have hFuel : a.nodes.length < (records a).length + 2 + ([] : List Nat).length := by
    rw [hCount]
    omega
  obtain ⟨plan, visited, hRun, ⟨hMarking, hClaimed, hRanges⟩, hEnd⟩ :=
    planLoop_ok hWf hSeeds (planned_start a seeds) hFuel
  rw [hEnd] at hMarking hClaimed
  rw [List.append_nil] at hClaimed
  have hPerm : (plan.retained.insertionSort (· ≤ ·)).Perm visited :=
    (List.perm_insertionSort _ _).trans hClaimed
  have hNodup : visited.Nodup := by simpa using hMarking.nodup
  have hMem : ∀ i, i ∈ plan.retained.insertionSort (· ≤ ·) ↔ Reaches (ChildOf a) seeds i := by
    intro i
    rw [hPerm.mem_iff, hMarking.complete]
  have hSorted : (plan.retained.insertionSort (· ≤ ·)).Pairwise (· < ·) := by
    have hLe := List.pairwise_insertionSort (· ≤ ·) plan.retained
    have hNe : (plan.retained.insertionSort (· ≤ ·)).Nodup := hPerm.nodup_iff.mpr hNodup
    exact (hLe.and hNe).imp fun h => Nat.lt_of_le_of_ne h.1 h.2
  have hInside : ∀ i ∈ plan.retained.insertionSort (· ≤ ·), i < a.nodes.length :=
    fun i hIn => reaches_lt hWf hSeeds ((hMem i).mp hIn)
  have hOwned : (plan.ranges.insertionSort rangeLe).Perm
      ((plan.retained.insertionSort (· ≤ ·)).filterMap fun i => a.nodes[i]?.bind leafRange) := by
    refine (List.perm_insertionSort _ _).trans ?_
    rw [hRanges]
    exact hPerm.symm.filterMap _
  refine ⟨_, _, ?_, ⟨hSorted, hInside, ?_, ?_, hOwned⟩, hMem⟩
  · unfold planReachableArena
    rw [tryFrom_of_lt hLen, okOr_some, ok_bind, hRun, ok_bind]
    rfl
  · intro i hIn j hChild
    exact (hMem j).mpr (((hMem i).mp hIn).step hChild)
  · have hLe := List.pairwise_insertionSort rangeLe plan.ranges
    have hFree : (plan.ranges.insertionSort rangeLe).Pairwise Apart :=
      (hOwned.pairwise_iff fun h => Apart.symm h).mpr
        (hApart.sublist (leafRanges_sublist hSorted hInside))
    exact (hLe.and hFree).imp fun h => before_of_rangeLe h.1 h.2

end Mark

/-! ## Repack -/

section Repack

variable {retained : List Nat} {ranges : List V2RetainedPayloadRange}

/-- The entry of the mapping for a range. -/
def movedEntry (ranges : List V2RetainedPayloadRange) (r : V2RetainedPayloadRange) :
    V2PayloadRangeMapping := ⟨r.offset, r.length, place ranges r.offset⟩

/-- All ranges together are no longer than the payload. -/
theorem Retained.sum_le (h : Retained a retained ranges) (hWf : WellFormed sha256 a) :
    (ranges.map V2RetainedPayloadRange.length).sum ≤ a.payload.length := by
  let last : V2RetainedPayloadRange := ⟨a.payload.length, 0⟩
  have hEnd : (ranges ++ [last]).Pairwise Before := by
    refine List.pairwise_append.mpr ⟨h.ordered, List.pairwise_singleton _ _, ?_⟩
    intro r hr s hs
    obtain rfl := List.mem_singleton.mp hs
    exact (slice_eq_some.mp (h.range_inside hWf hr).2.2.2).2.1
  have hSum := sum_length_le hEnd fun _ _ => Nat.zero_le _
  rwa [Nat.zero_add] at hSum

/-- The state of the repack loop in front of its turn `k`. -/
structure RepackedTo (a : V2AvlSequence) (ranges : List V2RetainedPayloadRange) (k : Nat)
    (state : RepackState) : Prop where
  compact : state.compact = (ranges.take k).flatMap (rangeBytes a.payload)
  mapping : state.mapping = (ranges.take k).map (movedEntry ranges)
  previousEnd : ∀ r ∈ ranges.drop k, state.previousEnd ≤ r.offset

/-- The repack phase copies the retained ranges in their order. -/
theorem repackCompactRanges_ok (h : Retained a retained ranges) (hWf : WellFormed sha256 a)
    (hLen : a.payload.length < width 64) :
    repackCompactRanges a.payload ranges =
      .ok ((compactArena a retained ranges).payload, ranges.map (movedEntry ranges)) := by
  have hTurn : ∀ (k : Nat) (r : V2RetainedPayloadRange) state, ranges[k]? = some r →
      RepackedTo a ranges k state →
      ∃ next, repackRange a.payload state r = .ok next ∧ RepackedTo a ranges (k + 1) next := by
    intro k r state hGet ⟨hCompact, hMapping, hPrevious⟩
    obtain ⟨hLt, hEq⟩ := List.getElem?_eq_some_iff.mp hGet
    have hDrop : ranges.drop k = r :: ranges.drop (k + 1) := by
      rw [List.drop_eq_getElem_cons hLt, hEq]
    have hSplit : ranges.take k ++ r :: ranges.drop (k + 1) = ranges := by
      rw [← hDrop, List.take_append_drop]
    have hMem : r ∈ ranges := List.mem_of_getElem? hGet
    have hTake : ranges.take (k + 1) = ranges.take k ++ [r] := by
      rw [List.take_add_one, hGet]
      rfl
    obtain ⟨hPos, hEnd, hBytes, hSlice⟩ := h.range_inside hWf hMem
    have hCount : state.compact.length = place ranges r.offset := by
      have hOrdered := h.ordered
      have hPositive := h.length_pos hWf
      rw [← hSplit] at hOrdered hPositive
      have hAt := place_at hOrdered hPositive
      rw [hSplit] at hAt
      rw [hCompact, hAt]
      exact h.length_flatMap hWf fun s hs => List.mem_of_mem_take hs
    have hFits : place ranges r.offset < width 64 := by
      have := place_le h.ordered (h.length_pos hWf) hMem
      omega
    have hOrder : state.previousEnd ≤ r.offset := hPrevious r (by rw [hDrop]; simp)
    refine ⟨⟨state.compact ++ rangeBytes a.payload r, state.mapping ++ [movedEntry ranges r],
      r.offset + r.length⟩, ?_, ⟨?_, ?_, ?_⟩⟩
    · rw [repackRange, failIf_neg (by omega), ok_bind, checkedAdd_of_lt hEnd, okOr_some, ok_bind,
        hSlice, okOr_some, ok_bind, hCount, tryFrom_of_lt hFits, okOr_some, ok_bind]
      rfl
    · dsimp only
      rw [hTake, List.flatMap_append, hCompact]
      simp
    · dsimp only
      rw [hTake, List.map_append, hMapping]
      rfl
    · intro s hs
      have hOrdered := h.ordered
      rw [← hSplit] at hOrdered
      exact (List.pairwise_cons.mp (List.pairwise_append.mp hOrdered).2.1).1 s hs
  have hStart : RepackedTo a ranges 0 ⟨[], [], 0⟩ := ⟨rfl, rfl, fun _ _ => Nat.zero_le _⟩
  obtain ⟨final, hRun, hDone⟩ := foldlM_indexed hTurn hStart
  obtain ⟨hCompact, hMapping, -⟩ := hDone
  rw [List.take_length] at hCompact hMapping
  rw [repackCompactRanges, tryFrom_of_lt (lt_of_le_of_lt (h.sum_le hWf) hLen), okOr_some, ok_bind,
    hRun, ok_bind, hCompact, hMapping]
  rfl

end Repack

/-! ## Rebuild -/

section Rebuild

variable {retained : List Nat} {ranges : List V2RetainedPayloadRange}

/-- The entry of the mapping for a node. -/
def rankedEntry (retained : List Nat) (i : Nat) : V2NodeIdMapping := ⟨i, rank retained i⟩

/-- Every entry found for a key is the one that was put there. -/
theorem remappedNodeId_ok {nodes : List Nat} {i : Nat} (hMem : i ∈ nodes) :
    remappedNodeId (nodes.map (rankedEntry retained)) i = .ok (rank retained i) := by
  have hFound : ((nodes.map (rankedEntry retained)).find? fun entry => entry.oldNode = i) =
      some (rankedEntry retained i) := by
    induction nodes with
    | nil => exact absurd hMem List.not_mem_nil
    | cons j nodes ih =>
      rw [List.map_cons, List.find?_cons]
      by_cases hSame : j = i
      · simp [rankedEntry, hSame]
      · have hTail : i ∈ nodes := (List.mem_cons.mp hMem).resolve_left fun h => hSame h.symm
        simpa [rankedEntry, hSame] using ih hTail
  rw [remappedNodeId, hFound]
  rfl

theorem remappedPayloadOffset_ok {r : V2RetainedPayloadRange} (hMem : r ∈ ranges) :
    remappedPayloadOffset (ranges.map (movedEntry ranges)) r.offset r.length =
      .ok (place ranges r.offset) := by
  have hSome : ((ranges.map (movedEntry ranges)).find? fun entry =>
      entry.oldOffset = r.offset ∧ entry.length = r.length).isSome := by
    rw [List.find?_isSome]
    exact ⟨movedEntry ranges r, List.mem_map_of_mem hMem, by simp [movedEntry]⟩
  obtain ⟨entry, hFound⟩ := Option.isSome_iff_exists.mp hSome
  have hSame : entry.oldOffset = r.offset ∧ entry.length = r.length := by
    simpa using List.find?_some hFound
  obtain ⟨s, -, rfl⟩ := List.mem_map.mp (List.mem_of_find?_eq_some hFound)
  rw [remappedPayloadOffset, hFound, okOr_some, ok_bind]
  simp only [movedEntry] at hSame ⊢
  rw [hSame.1]
  rfl

theorem requireSameNode_ok {rebuilt old : V2NodeRecord} {height logicalLen commitment : String}
    (hHeight : rebuilt.height = old.height) (hLen : rebuilt.logicalLen = old.logicalLen)
    (hCommitment : rebuilt.commitment = old.commitment) :
    requireSameNode rebuilt old height logicalLen commitment = .ok () := by
  rw [requireSameNode, failIf_neg (not_not.mpr hHeight), ok_bind, failIf_neg (not_not.mpr hLen),
    ok_bind, failIf_neg (not_not.mpr hCommitment)]

/-- The state of the rebuild loop in front of its turn `k`. -/
structure RebuiltTo (a : V2AvlSequence) (retained : List Nat)
    (ranges : List V2RetainedPayloadRange) (k : Nat) (state : RebuildState) : Prop where
  rebuiltNodes : state.rebuiltNodes = (records (compactArena a retained ranges)).take k
  mapping : state.mapping = (retained.take k).map (rankedEntry retained)

/-- The root of a child that was rebuilt before. -/
theorem RebuiltTo.child {k : Nat} {state : RebuildState}
    (hState : RebuiltTo a retained ranges k state) (h : Retained a retained ranges) {i : Nat} (hGet : retained[k]? = some i)
    (hWf : WellFormed sha256 a) {child : V2RootRecord} (hChild : ResolvesBelow a i child)
    (hMem : child.nodeId ∈ retained) (absent : String) :
    remappedNodeId state.mapping child.nodeId = .ok (rank retained child.nodeId) ∧
      remappedChild state.rebuiltNodes (rank retained child.nodeId) absent =
        .ok (child.renumber (rank retained)) := by
  obtain ⟨hBelow, old, hOld, hFrom⟩ := hChild
  have hLt : rank retained child.nodeId < k := by
    have hRank := rank_lt hBelow hMem
    rwa [rank_of_getElem? h.sorted hGet] at hRank
  have hTaken : child.nodeId ∈ retained.take k := by
    have hAt := getElem?_rank h.sorted hMem
    rw [← List.getElem?_take_of_lt hLt] at hAt
    exact List.mem_of_getElem? hAt
  refine ⟨by rw [hState.mapping]; exact remappedNodeId_ok hTaken, ?_⟩
  obtain ⟨hNe, hChildEq⟩ := fromNode_eq_ok.mp hFrom
  have hRecord : state.rebuiltNodes[rank retained child.nodeId]? =
      some (relocateNode (rank retained) (place ranges) old).record := by
    rw [hState.rebuiltNodes, List.getElem?_take_of_lt hLt]
    exact getElem?_records (h.node_at hMem hOld)
  have hRankNe : rank retained child.nodeId ≠ v2NoneNode :=
    (lt_of_le_of_lt (rank_le h.sorted _) (hWf.id_lt hOld)).ne
  rw [remappedChild, hRecord, okOr_some, ok_bind, liftFormat]
  rw [fromNode_eq_ok.mpr ⟨hRankNe, rfl⟩, mapErr_ok, hChildEq]
  cases old <;> rfl

/-- The record of a retained node is built again over its new place. -/
theorem RebuiltTo.step {k : Nat} {state : RebuildState}
    (hState : RebuiltTo a retained ranges k state) (h : Retained a retained ranges)
    (hWf : WellFormed sha256 a) {i : Nat} (hGet : retained[k]? = some i) :
    ∃ next, rebuildNode sha256 (records a) (compactArena a retained ranges).payload
        (ranges.map (movedEntry ranges)) state i = .ok next ∧
      RebuiltTo a retained ranges (k + 1) next := by
  have hMem := List.mem_of_getElem? hGet
  have hLt := (List.getElem?_eq_some_iff.mp hGet).1
  have hRank := rank_of_getElem? h.sorted hGet
  obtain ⟨node, hNode⟩ : ∃ node, a.nodes[i]? = some node :=
    ⟨_, List.getElem?_eq_getElem (h.inside i hMem)⟩
  have hFields := v2NodeFields_of_canonical (hWf.canonical hNode)
  have hNew := h.node_at hMem hNode
  rw [hRank] at hNew
  have hNewWf := h.wellFormed hWf
  have hCount : state.rebuiltNodes.length = k := by
    rw [hState.rebuiltNodes, List.length_take, records, List.length_map, h.length_nodes]
    omega
  have hSmall : k < width 64 := by
    have := hNewWf.id_lt hNew
    unfold v2NoneNode maxValue at this
    unfold width
    omega
  have hNext : RebuiltTo a retained ranges (k + 1)
      ⟨state.rebuiltNodes ++ [(relocateNode (rank retained) (place ranges) node).record],
        state.mapping ++ [⟨i, k⟩]⟩ := by
    refine ⟨?_, ?_⟩
    · dsimp only
      rw [List.take_add_one, getElem?_records hNew, hState.rebuiltNodes]
      rfl
    · dsimp only
      rw [List.take_add_one, hGet, hState.mapping, List.map_append]
      simp [rankedEntry, hRank]
  refine ⟨_, ?_, hNext⟩
  rw [rebuildNode, getElem?_records hNode, okOr_some, ok_bind, hFields, ok_bind]
  rcases hWf.node_cases hNode with ⟨offset, bytes, record, rfl, hSlice, hRecord⟩ |
    ⟨left, right, record, rfl, hRecord, hLeft, hRight⟩
  · have hRange := h.mem_ranges hMem hNode
    obtain ⟨⟨hPos, hMax, hEnd⟩, rfl⟩ := leaf_eq_ok.mp hRecord
    have hPlace : place ranges offset ≤ offset := place_le h.ordered (h.length_pos hWf) hRange
    have hBytes : rangeBytes a.payload ⟨offset, bytes.length⟩ = bytes := by
      rw [rangeBytes, hSlice]
      rfl
    have hMoved := h.slice_place hWf hRange
    rw [hBytes] at hMoved
    have hOffset := remappedPayloadOffset_ok hRange
    have hLeaf : V2NodeRecord.leaf sha256 (place ranges offset) bytes = .ok ⟨1, bytes.length,
        leafCommitment sha256 bytes.length bytes, .leaf (place ranges offset) bytes.length⟩ :=
      leaf_eq_ok.mpr ⟨⟨hPos, hMax, by omega⟩, rfl⟩
    simp only [ArenaNode.record]
    dsimp only at hOffset hMoved
    rw [rebuildLeaf, hOffset, ok_bind, checkedAdd_of_lt (by omega), okOr_some, ok_bind, hMoved,
      okOr_some, ok_bind, hLeaf, liftFormat, mapErr_ok, ok_bind, requireSameNode_ok (by rfl) (by rfl) (by rfl),
      ok_bind]
    change (okOr (tryFrom 64 state.rebuiltNodes.length) _ >>= _) = _
    rw [hCount, tryFrom_of_lt hSmall, okOr_some, ok_bind]
    rfl
  · have hLeftMem := h.closed _ hMem left.nodeId ⟨left, right, _, hNode, Or.inl rfl⟩
    have hRightMem := h.closed _ hMem right.nodeId ⟨left, right, _, hNode, Or.inr rfl⟩
    obtain ⟨hLeftId, hLeftRoot⟩ := hState.child h hGet hWf hLeft hLeftMem
      "v2 compaction remapped left child is absent"
    obtain ⟨hRightId, hRightRoot⟩ := hState.child h hGet hWf hRight hRightMem
      "v2 compaction remapped right child is absent"
    have hCanonical := v2NodeFields_of_canonical (hNewWf.canonical hNew)
    have hBranch : V2NodeRecord.branch sha256 (left.renumber (rank retained))
        (right.renumber (rank retained)) =
          .ok (relocateNode (rank retained) (place ranges) (.branch left right record)).record := by
      rcases hNewWf.node_cases hNew with ⟨_, _, _, hEq, -⟩ | ⟨_, _, _, hEq, hOk, -⟩
      · cases hEq
      · cases hEq
        exact hOk
    obtain ⟨-, -, -, -, -, rfl⟩ := branch_eq_ok.mp hRecord
    simp only [ArenaNode.record, relocateNode] at hBranch hCanonical ⊢
    rw [rebuildBranch, hLeftId, ok_bind, hRightId, ok_bind, hLeftRoot, ok_bind, hRightRoot, ok_bind,
      hBranch, liftFormat, mapErr_ok, ok_bind, requireSameNode_ok (by rfl) (by rfl) (by rfl), ok_bind, hCanonical,
      ok_bind]
    dsimp only
    rw [failIf_neg (by simp), ok_bind]
    change (okOr (tryFrom 64 state.rebuiltNodes.length) _ >>= _) = _
    rw [hCount, tryFrom_of_lt hSmall, okOr_some, ok_bind]
    rfl

/-- The rebuild phase makes the records of the compact arena. -/
theorem rebuildCompactRecords_ok (h : Retained a retained ranges) (hWf : WellFormed sha256 a) :
    rebuildCompactRecords sha256 (records a) retained (compactArena a retained ranges).payload
        (ranges.map (movedEntry ranges)) =
      .ok (records (compactArena a retained ranges), retained.map (rankedEntry retained)) := by
  have hStart : RebuiltTo a retained ranges 0 ⟨[], []⟩ := ⟨rfl, rfl⟩
  have hTurn : ∀ (k i : Nat) state, retained[k]? = some i → RebuiltTo a retained ranges k state →
      ∃ next, rebuildNode sha256 (records a) (compactArena a retained ranges).payload
        (ranges.map (movedEntry ranges)) state i = .ok next ∧
        RebuiltTo a retained ranges (k + 1) next :=
    fun k i state hGet hState => hState.step h hWf hGet
  obtain ⟨final, hRun, hNodes, hMapping⟩ := foldlM_indexed hTurn hStart
  have hCount : (records (compactArena a retained ranges)).length = retained.length := by
    rw [records, List.length_map, h.length_nodes]
  rw [← hCount, List.take_length] at hNodes
  rw [List.take_length] at hMapping
  rw [rebuildCompactRecords, hRun, ok_bind, hNodes, hMapping]
  rfl

end Rebuild

end TulyaStore.Sequence
