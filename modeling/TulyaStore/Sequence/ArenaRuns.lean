import TulyaStore.Sequence.CompactionSpec
import TulyaStore.Sequence.Runs

/-!
# Runs of the in-memory sequence with compaction

Besides `splice` and `append` a run may compact the arena to any list of roots, after which the
arena holds what these roots reach and the roots it returned are the relocated ones. A run keeps
the arena well formed and `Tiled`. Two results follow for every arena a run can reach:

* `arena_representation`: what every node looks like and how the leaves divide the payload;
* `read_range_contract`: which ranges of a returned root can be read and what they give.
-/

namespace TulyaStore.Sequence

open Lib ArenaStore V2AvlSequence

section Compact

variable {sha256 : Bytes → Digest} {a : V2AvlSequence}

/-- The nodes of a well-formed arena are made again from its records. -/
theorem foldlM_pushCompactNode (hWf : WellFormed sha256 a) :
    (records a).foldlM pushCompactNode [] = .ok a.nodes := by
  have hTurn : ∀ (k : Nat) (record : V2NodeRecord) built, (records a)[k]? = some record →
      built = a.nodes.take k →
      ∃ next, pushCompactNode built record = .ok next ∧ next = a.nodes.take (k + 1) := by
    rintro k record built hGet rfl
    rw [records, List.getElem?_map] at hGet
    obtain ⟨node, hNode, rfl⟩ := Option.map_eq_some_iff.mp hGet
    refine ⟨_, ?_, rfl⟩
    have hFields := v2NodeFields_of_canonical (hWf.canonical hNode)
    rw [pushCompactNode, compactArenaNode, hFields, ok_bind, List.take_add_one, hNode]
    rcases hWf.node_cases hNode with ⟨offset, bytes, record, rfl, -, hRecord⟩ |
      ⟨left, right, record, rfl, hRecord, ⟨hLeft, l, hLeftNode, hLeftRoot⟩,
        ⟨hRight, r, hRightNode, hRightRoot⟩⟩
    · obtain ⟨-, rfl⟩ := leaf_eq_ok.mp hRecord
      rfl
    · obtain ⟨-, -, -, -, -, rfl⟩ := branch_eq_ok.mp hRecord
      have hLeftBuilt : (a.nodes.take k)[left.nodeId]? = some l := by
        rw [List.getElem?_take_of_lt hLeft, hLeftNode]
      have hRightBuilt : (a.nodes.take k)[right.nodeId]? = some r := by
        rw [List.getElem?_take_of_lt hRight, hRightNode]
      dsimp only [Option.toList_some]
      change (okOr (a.nodes.take k)[left.nodeId]? _ >>= _) >>= _ = _
      rw [hLeftBuilt, okOr_some, ok_bind, hRightBuilt, okOr_some, ok_bind, liftFormat, hLeftRoot,
        mapErr_ok, ok_bind, liftFormat, hRightRoot, mapErr_ok, ok_bind]
      rfl
  obtain ⟨nodes, hRun, rfl⟩ := foldlM_indexed hTurn (by rw [List.take_zero])
  rw [hRun, records, List.length_map, List.take_length]

theorem requireRoot_ok {t : Rope UInt8} {root : V2RootRecord} (h : Denotes sha256 a t root) :
    requireRoot a root = .ok () := by
  obtain ⟨node, hNode⟩ := h.nodeForRootOn
  rw [requireRoot, hNode]
  rfl

/-- The compaction behind a plan: it gives the compact arena and the renumbered roots. -/
theorem compactToRoots_run {roots : List V2RootRecord} {retained : List Nat}
    {ranges : List V2RetainedPayloadRange} (h : Retained a retained ranges)
    (hWf : WellFormed sha256 a) (hLen : a.payload.length < width 64)
    (hRoots : ∀ root ∈ roots, ∃ t, Denotes sha256 a t root)
    (hKept : ∀ root ∈ roots, root.nodeId ∈ retained)
    (hPlan : planReachableArena a.payload (records a) (roots.map V2RootRecord.nodeId) =
      .ok (retained, ranges)) :
    compactToRoots sha256 a roots = .ok (compactArena a retained ranges,
      roots.map (V2RootRecord.renumber (rank retained))) := by
  have hCheck : roots.forM (requireRoot a) = .ok () := forM_eq_ok fun root hMem =>
    requireRoot_ok (hRoots root hMem).choose_spec
  have hRemapped : roots.mapM (remappedRoot (compactArena a retained ranges).nodes
      (retained.map (rankedEntry retained))) =
        .ok (roots.map (V2RootRecord.renumber (rank retained))) := by
    rw [mapM_eq_ok, List.forall₂_map_right_iff, List.forall₂_same]
    intro root hMem
    obtain ⟨t, hDenotes⟩ := hRoots root hMem
    have hIn := hKept root hMem
    obtain ⟨node, hNode, hFrom⟩ := (h.denotes hWf hDenotes hIn).root_eq
    have hNode' : (compactArena a retained ranges).nodes[rank retained root.nodeId]? = some node :=
      hNode
    rw [remappedRoot, remappedNodeId_ok hIn, ok_bind, hNode', okOr_some, ok_bind, liftFormat]
    exact mapErr_eq_ok.mpr hFrom
  have hRelocated : (roots.zip (roots.map (V2RootRecord.renumber (rank retained)))).forM
      checkRelocatedRoot = .ok () := by
    refine forM_eq_ok fun pair hMem => ?_
    obtain ⟨root, -, rfl⟩ := List.mem_map.mp (zip_map_self _ roots ▸ hMem)
    exact failIf_neg (by simp [V2RootRecord.renumber])
  have hRebuilt := rebuildCompactRecords_ok h hWf
  rw [compactToRoots, hCheck, ok_bind]
  change (planReachableArena a.payload (records a) _ >>= _) = _
  rw [hPlan, ok_bind]
  dsimp only
  rw [repackCompactRanges_ok h hWf hLen, ok_bind]
  dsimp only
  change (rebuildCompactRecords sha256 (records a) _ _ _ >>= _) = _
  rw [hRebuilt, ok_bind]
  dsimp only
  rw [foldlM_pushCompactNode (h.wellFormed hWf), ok_bind, failIf_neg (by rw [h.length_nodes]; simp),
    ok_bind, hRemapped, ok_bind, hRelocated, ok_bind]
  rfl

/-- The plan of a compaction to roots of the arena. -/
theorem planRoots_ok (hWf : WellFormed sha256 a) (hLen : a.payload.length < width 64)
    (hApart : (leafRanges a.nodes).Pairwise Apart) {roots : List V2RootRecord}
    (hRoots : ∀ root ∈ roots, ∃ t, Denotes sha256 a t root) :
    ∃ retained ranges,
      planReachableArena a.payload (records a) (roots.map V2RootRecord.nodeId) =
        .ok (retained, ranges) ∧
      Retained a retained ranges ∧
      ∀ i, i ∈ retained ↔ Reaches (ChildOf a) (roots.map V2RootRecord.nodeId) i := by
  refine planReachableArena_ok hWf ?_ hLen hApart
  intro s hMem
  obtain ⟨root, hRoot, rfl⟩ := List.mem_map.mp hMem
  obtain ⟨t, hDenotes⟩ := hRoots root hRoot
  obtain ⟨node, hNode, -⟩ := hDenotes.root_eq
  exact (List.getElem?_eq_some_iff.mp hNode).1

/-- A compaction to roots of the arena succeeds and gives the compact arena and its roots. -/
theorem compactToRoots_ok (hWf : WellFormed sha256 a) (hLen : a.payload.length < width 64)
    (hApart : (leafRanges a.nodes).Pairwise Apart) {roots : List V2RootRecord}
    (hRoots : ∀ root ∈ roots, ∃ t, Denotes sha256 a t root) :
    ∃ retained ranges,
      compactToRoots sha256 a roots = .ok (compactArena a retained ranges,
        roots.map (V2RootRecord.renumber (rank retained))) ∧
      Retained a retained ranges ∧
      ∀ i, i ∈ retained ↔ Reaches (ChildOf a) (roots.map V2RootRecord.nodeId) i := by
  obtain ⟨retained, ranges, hPlan, h, hReached⟩ := planRoots_ok hWf hLen hApart hRoots
  have hKept : ∀ root ∈ roots, root.nodeId ∈ retained := fun root hMem =>
    (hReached _).mpr (.seed (List.mem_map_of_mem hMem))
  exact ⟨retained, ranges, compactToRoots_run h hWf hLen hRoots hKept hPlan, h, hReached⟩

end Compact

/-! ## Runs -/

inductive ArenaCall where
  | edit (call : SequenceCall)
  | compactToRoots (roots : List V2RootRecord)

/-- One call. A compaction replaces the arena and leaves the relocated roots. -/
def arenaStep (sha256 : Bytes → Digest) (run : SequenceRun) (call : ArenaCall) : SequenceRun :=
  match call with
  | .edit call => callStep sha256 run call
  | .compactToRoots roots =>
    match Sequence.compactToRoots sha256 run.arena roots with
    | .ok (arena, relocated) => ⟨arena, relocated⟩
    | .error _ => run

def runArenaCalls (sha256 : Bytes → Digest) (calls : List ArenaCall) : SequenceRun :=
  calls.foldl (arenaStep sha256) ⟨empty, []⟩

/-- The invariant of runs with compaction. -/
structure ArenaReached (sha256 : Bytes → Digest) (run : SequenceRun) : Prop where
  reached : Reached sha256 run
  tiled : Tiled run.arena

section Invariant

variable {sha256 : Bytes → Digest}

/-- The payload of a tiled arena ends with its last leaf. -/
theorem Tiled.length_lt {a : V2AvlSequence} (h : Tiled a) (hWf : WellFormed sha256 a) :
    a.payload.length < width 64 := by
  rcases h.eq_or_last with hEmpty | ⟨r, hMem, hEnd⟩
  · rw [← hEmpty]
    exact Nat.two_pow_pos 64
  · obtain ⟨node, hNode, hRange⟩ := List.mem_filterMap.mp hMem
    obtain ⟨i, hGet⟩ := List.mem_iff_getElem?.mp hNode
    rcases hWf.node_cases hGet with ⟨offset, bytes, record, rfl, -, hRecord⟩ |
      ⟨left, right, record, rfl, -⟩
    · cases hRange
      rw [← hEnd]
      exact (leaf_eq_ok.mp hRecord).1.2.2
    · cases hRange

theorem callStep_tiled {run : SequenceRun} (h : Tiled run.arena) (call : SequenceCall) :
    Tiled (callStep sha256 run call).arena := by
  have hSplice : ∀ parent offset deleteLen insert,
      Tiled (callStep sha256 run (.splice parent offset deleteLen insert)).arena := by
    intro parent offset deleteLen insert
    unfold callStep
    simp only [performCall, bind, EStateM.bind]
    rcases spliceOn_cases sha256 run.arena parent offset deleteLen insert with
      ⟨result, b, hRun, -⟩ | ⟨e, hRun⟩
    · rw [hRun]
      exact (spliceOn_tilesOn hRun).tiled h
    · rw [hRun]
      exact h
  cases call with
  | splice parent offset deleteLen insert => exact hSplice _ _ _ _
  | append parent bytes =>
    have hSame := hSplice parent (parent.elim 0 V2RootRecord.logicalLen) 0 bytes
    unfold callStep at hSame ⊢
    rwa [performCall_append]

theorem ArenaReached.step {run : SequenceRun} (h : ArenaReached sha256 run) (call : ArenaCall) :
    ArenaReached sha256 (arenaStep sha256 run call) := by
  cases call with
  | edit call => exact ⟨(h.reached.step call).1, callStep_tiled h.tiled call⟩
  | compactToRoots roots =>
    unfold arenaStep
    dsimp only
    cases hRun : Sequence.compactToRoots sha256 run.arena roots with
    | error e => exact h
    | ok pair =>
      have hWf := h.reached.wellFormed
      have hRoots : ∀ root ∈ roots, ∃ t, Denotes sha256 run.arena t root := by
        intro root hMem
        obtain ⟨_, hCheck, -⟩ := bind_eq_ok.mp hRun
        obtain ⟨node, hNode, -⟩ := bind_eq_ok.mp (eq_ok_of_forM hCheck hMem)
        exact hWf.denotes hNode
      obtain ⟨retained, ranges, hOk, hRetained, hReach⟩ := compactToRoots_ok hWf
        (h.tiled.length_lt hWf) (h.tiled.pairwise.imp Or.inl) hRoots
      rw [hRun] at hOk
      cases hOk
      refine ⟨⟨hRetained.wellFormed hWf, ?_⟩, hRetained.tiled hWf h.tiled⟩
      intro root hMem
      obtain ⟨old, hOld, rfl⟩ := List.mem_map.mp hMem
      obtain ⟨t, hDenotes⟩ := hRoots old hOld
      exact ⟨t, hRetained.denotes hWf hDenotes
        ((hReach _).mpr (.seed (List.mem_map_of_mem hOld)))⟩

theorem arenaReached (sha256 : Bytes → Digest) (calls : List ArenaCall) :
    ArenaReached sha256 (runArenaCalls sha256 calls) :=
  run_invariant (fun _ call h => h.step call) ⟨reached_empty, tiled_empty⟩ calls

end Invariant

/-! ## The representation -/

/-- The number of leaves under node `i`, down to `depth` levels. -/
def leavesUnder (a : V2AvlSequence) : Nat → Nat → Nat
  | 0, _ => 0
  | depth + 1, i =>
    match a.nodes[i]? with
    | none => 0
    | some (.leaf ..) => 1
    | some (.branch left right _) =>
      leavesUnder a depth left.nodeId + leavesUnder a depth right.nodeId

/-- What node `i` has to be: a leaf made from its payload, or a branch made from two earlier
nodes. -/
def NodeRepresented (sha256 : Bytes → Digest) (a : V2AvlSequence) (i : Nat) : ArenaNode → Prop
  | .leaf offset len record =>
      record.height = 1 ∧ 1 ≤ len ∧ len ≤ 16384 ∧
      ∃ bytes, slice a.payload offset (offset + len) = some bytes ∧
        V2NodeRecord.leaf sha256 offset bytes = .ok record
  | .branch left right record =>
      left.nodeId < i ∧ right.nodeId < i ∧
      ∃ l r, a.nodes[left.nodeId]? = some l ∧ a.nodes[right.nodeId]? = some r ∧
        V2RootRecord.fromNode left.nodeId l.record = .ok left ∧
        V2RootRecord.fromNode right.nodeId r.record = .ok right ∧
        absDiff l.record.height r.record.height ≤ 1 ∧
        record.height = 1 + max l.record.height r.record.height ∧
        record.logicalLen = l.record.logicalLen + r.record.logicalLen ∧
        record.commitment = branchCommitment sha256 record.height l.record.logicalLen
          l.record.commitment r.record.logicalLen r.record.commitment ∧
        record.body = .branch left.nodeId right.nodeId l.record.logicalLen

section Representation

variable {sha256 : Bytes → Digest} {a : V2AvlSequence}

theorem leavesUnder_of_denotes {t : Rope UInt8} {root : V2RootRecord} {depth : Nat}
    (h : Denotes sha256 a t root) (hDepth : t.height ≤ depth) :
    leavesUnder a depth root.nodeId = t.leafCount := by
  induction t generalizing root depth with
  | leaf bytes =>
    obtain ⟨-, offset, record, hNode, -⟩ := h
    obtain ⟨depth, rfl⟩ : ∃ k, depth = k + 1 := ⟨depth - 1, by simp at hDepth; omega⟩
    simp [leavesUnder, hNode, Rope.leafCount]
  | node l r ihl ihr =>
    obtain ⟨-, left, right, record, hNode, -, -, -, -, hl, hr⟩ := h
    rw [Rope.height_node] at hDepth
    obtain ⟨depth, rfl⟩ : ∃ k, depth = k + 1 := ⟨depth - 1, by omega⟩
    have hLeft : leavesUnder a depth left.nodeId = l.leafCount := ihl hl (by omega)
    have hRight : leavesUnder a depth right.nodeId = r.leafCount := ihr hr (by omega)
    simp [leavesUnder, hNode, hLeft, hRight, Rope.leafCount]

theorem WellFormed.represented (hWf : WellFormed sha256 a) {i : Nat} {node : ArenaNode}
    (h : a.nodes[i]? = some node) : NodeRepresented sha256 a i node := by
  rcases hWf.node_cases h with ⟨offset, bytes, record, rfl, hSlice, hRecord⟩ |
    ⟨left, right, record, rfl, hRecord, ⟨hLeft, l, hl, hLeftRoot⟩, ⟨hRight, r, hr, hRightRoot⟩⟩
  · obtain ⟨⟨hPos, hMax, -⟩, hFields⟩ := leaf_eq_ok.mp hRecord
    exact ⟨by rw [hFields], hPos, hMax, bytes, hSlice, hRecord⟩
  · obtain ⟨-, -, ⟨hLow, hHigh⟩, -, -, rfl⟩ := branch_eq_ok.mp hRecord
    refine ⟨hLeft, hRight, l, r, hl, hr, hLeftRoot, hRightRoot, ?_⟩
    obtain ⟨-, hLeftEq⟩ := fromNode_eq_ok.mp hLeftRoot
    obtain ⟨-, hRightEq⟩ := fromNode_eq_ok.mp hRightRoot
    rw [hLeftEq, hRightEq] at hLow hHigh ⊢
    exact ⟨absDiff_le_iff.mpr ⟨hLow, hHigh⟩, Nat.add_comm _ _, rfl, rfl, rfl⟩

/-- The levels of a node against the leaves under it. -/
theorem WellFormed.fib_le_leavesUnder (hWf : WellFormed sha256 a) {i : Nat} {node : ArenaNode}
    (h : a.nodes[i]? = some node) :
    Nat.fib (node.record.height + 1) ≤ leavesUnder a node.record.height i ∧
      node.record.logicalLen < 2 ^ 64 ∧ node.record.height < 94 := by
  obtain ⟨t, root, hRoot, hDenotes⟩ := hWf i node h
  obtain ⟨hId, hLen, hHeight⟩ := fromNode_fields hRoot
  have hLevels : node.record.height = t.height := hHeight.symm.trans hDenotes.height
  have hLeaves := leavesUnder_of_denotes hDenotes (le_refl _)
  rw [hId] at hLeaves
  rw [hLevels, hLeaves, ← hLen, hDenotes.logicalLen]
  exact ⟨Rope.fib_le_leafCount hDenotes.balanced, hDenotes.metadata.2.2, hDenotes.height_lt⟩

theorem nodeForRootOn_not_internal {root : V2RootRecord} {e : V2AvlError}
    (h : nodeForRootOn a root = .error e) : e ∉ internalErrors := by
  unfold nodeForRootOn at h
  rcases bind_eq_error.mp h with hLoad | ⟨node, -, h⟩
  · change loadNode a root.nodeId = .error e at hLoad
    unfold loadNode at hLoad
    rcases bind_eq_error.mp hLoad with hId | ⟨index, -, hGet⟩
    · obtain ⟨-, rfl⟩ := okOr_eq_error.mp hId
      decide
    · obtain ⟨-, rfl⟩ := okOr_eq_error.mp hGet
      decide
  rcases bind_eq_error.mp h with hRoot | ⟨canonical, -, h⟩
  · obtain ⟨cause, hCause, rfl⟩ := mapErr_eq_error.mp hRoot
    obtain ⟨-, rfl⟩ := fromNode_eq_error.mp hCause
    decide
  rcases bind_eq_error.mp h with hSame | ⟨_, -, h⟩
  · obtain ⟨-, rfl⟩ := failIf_eq_error.mp hSame
    decide
  · cases h

theorem spliceOn_not_internal (hWf : WellFormed sha256 a) {parent : Option V2RootRecord}
    {offset deleteLen : Nat} {insert : Bytes} {e : V2AvlError} {b : V2AvlSequence}
    (h : spliceOn sha256 parent offset deleteLen insert a = .error e b) : e ∉ internalErrors := by
  cases parent with
  | none =>
    rcases spliceOn_none_outcome hWf offset deleteLen insert with
      ⟨hP, hSpliced⟩ | ⟨hP, e', hMem, hRun⟩
    · exact (contract_of_spliced hP hSpliced).not_internal e b h
    · exact (contract_of_rejected (C := []) hP hMem hRun).not_internal e b h
  | some root =>
    cases hNode : nodeForRootOn a root with
    | error cause =>
      unfold spliceOn at h
      simp only [checkSplice, hNode, error_bind] at h
      cases h
      exact nodeForRootOn_not_internal hNode
    | ok node =>
      obtain ⟨t, hDenotes⟩ := hWf.denotes hNode
      rcases spliceOn_some_outcome hWf hDenotes offset deleteLen insert with
        ⟨hP, hSpliced⟩ | ⟨hP, e', hMem, hRun⟩
      · exact (contract_of_spliced hP hSpliced).not_internal e b h
      · exact (contract_of_rejected (C := []) hP hMem hRun).not_internal e b h

/-- No edit of a well-formed arena ends with an error that shows a broken tree. -/
theorem performCall_not_internal (hWf : WellFormed sha256 a) {call : SequenceCall}
    {e : V2AvlError} {b : V2AvlSequence} (h : performCall sha256 call a = .error e b) :
    e ∉ internalErrors := by
  have hSplice : ∀ parent offset deleteLen insert,
      performCall sha256 (.splice parent offset deleteLen insert) a = .error e b →
        e ∉ internalErrors := by
    intro parent offset deleteLen insert hRun
    simp only [performCall, bind, EStateM.bind] at hRun
    cases hInner : spliceOn sha256 parent offset deleteLen insert a with
    | ok result s =>
      rw [hInner] at hRun
      cases hRun
    | error e' s =>
      rw [hInner] at hRun
      cases hRun
      exact spliceOn_not_internal hWf hInner
  cases call with
  | splice parent offset deleteLen insert => exact hSplice _ _ _ _ h
  | append parent bytes => exact hSplice _ _ _ _ (performCall_append parent bytes ▸ h)

end Representation

/-- In every arena a run reaches, each node is made from its payload or its children, a node
of height `h` covers at least `fib (h + 1)` leaves, the leaves in the order of their nodes own
consecutive ranges that cover the payload, and neither the heights nor any edit come near the
`u16` limit. -/
theorem arena_representation (sha256 : Bytes → Digest) (calls : List ArenaCall) :
    (∀ i node, (runArenaCalls sha256 calls).arena.nodes[i]? = some node →
      NodeRepresented sha256 (runArenaCalls sha256 calls).arena i node ∧
      Nat.fib (node.record.height + 1) ≤
        leavesUnder (runArenaCalls sha256 calls).arena node.record.height i ∧
      node.record.logicalLen < 2 ^ 64 ∧ node.record.height < 94) ∧
    Tiled (runArenaCalls sha256 calls).arena ∧
    ∀ call e b, performCall sha256 call (runArenaCalls sha256 calls).arena = .error e b →
      e ≠ .format (.overflow "v2 sequence branch height exceeds u16") := by
  obtain ⟨⟨hWf, -⟩, hTiled⟩ := arenaReached sha256 calls
  refine ⟨fun i node hNode => ⟨hWf.represented hNode, hWf.fib_le_leavesUnder hNode⟩, hTiled, ?_⟩
  rintro call e b hRun rfl
  exact performCall_not_internal hWf hRun (by decide)

/-- The bytes 1, 2, 3 and 4 in two leaves, compacted to the root over both. -/
def sampleArenaCalls : List ArenaCall := [
  .edit (.splice none 0 0 [1, 2, 3]),
  .edit (.append (some sampleRoot) [4]),
  .compactToRoots [sampleBranch]]

theorem arena_representation_sample :
    ∃ node, (runArenaCalls sampleSha256 sampleArenaCalls).arena.nodes[2]? = some node ∧
      NodeRepresented sampleSha256 (runArenaCalls sampleSha256 sampleArenaCalls).arena 2 node ∧
      ∃ e b, performCall sampleSha256 (.splice none 1 0 [5])
          (runArenaCalls sampleSha256 sampleArenaCalls).arena = .error e b ∧
        e ≠ .format (.overflow "v2 sequence branch height exceeds u16") := by
  have hThird : ((runArenaCalls sampleSha256 sampleArenaCalls).arena.nodes[2]?).isSome = true := by
    decide +kernel
  obtain ⟨node, hNode⟩ := Option.isSome_iff_exists.mp hThird
  have hSample := arena_representation sampleSha256 sampleArenaCalls
  have hFails : yields (fun _ _ => true) (performCall sampleSha256 (.splice none 1 0 [5])
      (runArenaCalls sampleSha256 sampleArenaCalls).arena) = false := by decide +kernel
  cases hRun : performCall sampleSha256 (.splice none 1 0 [5])
      (runArenaCalls sampleSha256 sampleArenaCalls).arena with
  | ok root b =>
    rw [hRun] at hFails
    simp [yields] at hFails
  | error e b => exact ⟨node, hNode, (hSample.1 2 node hNode).1, e, b, rfl, hSample.2.2 _ e b hRun⟩

/-! ## Range reads -/

/-- A range of a returned root with content `C` can be read exactly when its end is no
overflow and lies within `C`, and the read gives that part of `C`. -/
theorem read_range_contract (sha256 : Bytes → Digest) (calls : List ArenaCall) :
    ∀ root ∈ (runArenaCalls sha256 calls).returned,
      ∃ C, content (runArenaCalls sha256 calls).arena root = some C ∧
        (∀ offset length,
          (∃ bytes, readRange sha256 (runArenaCalls sha256 calls).arena root offset length =
            .ok bytes) ↔ offset + length < 2 ^ 64 ∧ offset + length ≤ C.length) ∧
        (∀ offset length bytes,
          readRange sha256 (runArenaCalls sha256 calls).arena root offset length = .ok bytes →
            slice C offset (offset + length) = some bytes) ∧
        ∀ offset ≤ C.length,
          readRange sha256 (runArenaCalls sha256 calls).arena root offset 0 = .ok [] := by
  intro root hRoot
  obtain ⟨⟨-, hReturned⟩, -⟩ := arenaReached sha256 calls
  obtain ⟨t, hDenotes⟩ := hReturned root hRoot
  have hShort : t.toList.length < 2 ^ 64 := hDenotes.metadata.2.2
  have hRead := readRange_eq hDenotes
  refine ⟨t.toList, content_of_denotes hDenotes, ?_, ?_, ?_⟩
  · intro offset length
    rw [hRead]
    constructor
    · rintro ⟨bytes, hOk⟩
      obtain ⟨hFits, hInside, -⟩ := rangeOf_eq_ok.mp hOk
      exact ⟨hFits, hInside⟩
    · rintro ⟨hFits, hInside⟩
      exact ⟨_, rangeOf_eq_ok.mpr ⟨hFits, hInside, rfl⟩⟩
  · intro offset length bytes hOk
    rw [hRead] at hOk
    obtain ⟨-, hInside, rfl⟩ := rangeOf_eq_ok.mp hOk
    exact slice_eq_some.mpr ⟨Nat.le_add_right _ _, hInside, by rw [Nat.add_sub_cancel_left]⟩
  · intro offset hOffset
    rw [hRead]
    exact rangeOf_eq_ok.mpr ⟨by unfold width; omega, hOffset, List.take_zero.symm⟩

theorem read_range_contract_sample :
    sampleBranch ∈ (runArenaCalls sampleSha256 sampleArenaCalls).returned ∧
      readRange sampleSha256 (runArenaCalls sampleSha256 sampleArenaCalls).arena sampleBranch 2 2 =
        .ok [3, 4] := by
  have hRoot : sampleBranch ∈ (runArenaCalls sampleSha256 sampleArenaCalls).returned := by
    decide +kernel
  have hHolds : content (runArenaCalls sampleSha256 sampleArenaCalls).arena sampleBranch =
      some [1, 2, 3, 4] := by decide +kernel
  obtain ⟨C, hC, hIff, hGives, -⟩ := read_range_contract sampleSha256 sampleArenaCalls _ hRoot
  rw [hHolds] at hC
  cases hC
  obtain ⟨bytes, hRun⟩ := (hIff 2 2).mpr (by decide)
  have hBytes := hGives 2 2 bytes hRun
  cases hBytes
  exact ⟨hRoot, hRun⟩

end TulyaStore.Sequence
