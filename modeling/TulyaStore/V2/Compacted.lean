import TulyaStore.Sequence.Compacted
import TulyaStore.V2.CompactSpec

/-!
# Compacted states

What the state behind a compaction is: valid again (`StateOk.compacted`), with the content of every
version (`checkpointKept`), its tables exactly those of the plan in terms of the old records
(`compactTables`), and a fixed point of the compaction (`StateOk.compact_again`).
-/

namespace TulyaStore.V2

open Lib Sequence
open Sequence.V2AvlSequence

section Content

variable {payload : Bytes} {nodes : List V2NodeRecord}

/-- The bytes a node of the record table stands for. -/
inductive NodeContent (payload : Bytes) (nodes : List V2NodeRecord) : Nat → Bytes → Prop
  | leaf {i offset len : Nat} {node : V2NodeRecord} {bytes : Bytes} :
    nodes[i]? = some node → node.body = .leaf offset len →
    slice payload offset (offset + len) = some bytes → NodeContent payload nodes i bytes
  | branch {i left right leftLen : Nat} {node : V2NodeRecord} {front rest : Bytes} :
    nodes[i]? = some node → node.body = .branch left right leftLen →
    NodeContent payload nodes left front → NodeContent payload nodes right rest →
    NodeContent payload nodes i (front ++ rest)

/-- A node stands for one byte string only. -/
theorem NodeContent.unique {i : Nat} {x y : Bytes} (hx : NodeContent payload nodes i x)
    (hy : NodeContent payload nodes i y) : x = y := by
  induction hx generalizing y with
  | leaf hGet hBody hSlice =>
    cases hy with
    | leaf hGet' hBody' hSlice' =>
      rw [hGet] at hGet'
      cases hGet'
      rw [hBody] at hBody'
      cases hBody'
      rw [hSlice] at hSlice'
      exact Option.some.inj hSlice'
    | branch hGet' hBody' =>
      rw [hGet] at hGet'
      cases hGet'
      rw [hBody] at hBody'
      cases hBody'
  | branch hGet hBody _ _ ihFront ihRest =>
    cases hy with
    | leaf hGet' hBody' =>
      rw [hGet] at hGet'
      cases hGet'
      rw [hBody] at hBody'
      cases hBody'
    | branch hGet' hBody' hFront hRest =>
      rw [hGet] at hGet'
      cases hGet'
      rw [hBody] at hBody'
      cases hBody'
      rw [ihFront hFront, ihRest hRest]

/-- What a root stands for in the arena is the content of its node. -/
theorem nodeContent_of_denotes {sha256 : Bytes → Digest} {a : V2AvlSequence} {t : Rope UInt8}
    {root : V2RootRecord} (h : Denotes sha256 a t root) :
    NodeContent a.payload (records a) root.nodeId t.toList := by
  induction t generalizing root with
  | leaf bytes =>
    obtain ⟨-, offset, record, hNode, hSlice, hRecord, -⟩ := h
    obtain ⟨-, rfl⟩ := leaf_eq_ok.mp hRecord
    exact .leaf (getElem?_records hNode) rfl hSlice
  | node l r ihl ihr =>
    obtain ⟨-, left, right, record, hNode, hRecord, -, -, -, hl, hr⟩ := h
    obtain ⟨-, -, -, -, -, rfl⟩ := branch_eq_ok.mp hRecord
    exact .branch (getElem?_records hNode) rfl (ihl hl) (ihr hr)

/-- The bytes a version of the state stands for. -/
def VersionContent (state : V2CommittedState) (id : Nat) (bytes : Bytes) : Prop :=
  ∃ version, state.versions[id]? = some version ∧
    NodeContent state.payload state.nodes version.root.nodeId bytes

/-- A version stands for `bytes` and for nothing else. -/
def VersionHolds (state : V2CommittedState) (id : Nat) (bytes : Bytes) : Prop :=
  ∀ x, VersionContent state id x ↔ x = bytes

def OptionalHolds (state : V2CommittedState) : Option Nat → Option Bytes → Prop
  | none, none => True
  | some id, some bytes => VersionHolds state id bytes
  | _, _ => False

theorem versionHolds_of_content {state : V2CommittedState} {id : Nat} {bytes : Bytes}
    (h : VersionContent state id bytes) : VersionHolds state id bytes := by
  intro x
  constructor
  · rintro ⟨version, hGet, hContent⟩
    obtain ⟨other, hOther, hBytes⟩ := h
    rw [hGet] at hOther
    cases hOther
    exact hContent.unique hBytes
  · rintro rfl
    exact h

end Content

section Compact

variable {sha256 : Bytes → Digest} {a : V2AvlSequence} {state : V2CommittedState}
  {plan : V2CompactionPlan}

/-! ## Validity -/

theorem length_le_of_sorted {retained : List Nat} {n : Nat} (hSorted : retained.Pairwise (· < ·))
    (hInside : ∀ i ∈ retained, i < n) : retained.length ≤ n :=
  mem_range_length_le (hSorted.imp Nat.ne_of_lt) hInside

/-- Every version of the compact table comes from a retained one. -/
theorem PlanOk.of_compact (h : PlanOk a state plan) {k : Nat} {new : V2VersionRecord}
    (hGet : (compactVersions state.versions plan)[k]? = some new) :
    ∃ i version, plan.retainedVersions[k]? = some i ∧ state.versions[i]? = some version ∧
      new = renumberVersion (rank plan.retainedVersions) (rank plan.retainedNodes) version := by
  rw [h.getElem?_versions] at hGet
  obtain ⟨i, hi, hVersion⟩ := Option.bind_eq_some_iff.mp hGet
  obtain ⟨version, hOld, rfl⟩ := Option.map_eq_some_iff.mp hVersion
  exact ⟨i, version, hi, hOld, rfl⟩

theorem VersionsNumbered.compact (hNumbered : VersionsNumbered state.versions)
    (hMax : state.versions.length ≤ v2NoneVersion) (h : PlanOk a state plan) :
    VersionsNumbered (compactVersions state.versions plan) := by
  intro k new hGet
  obtain ⟨i, version, hi, hVersion, rfl⟩ := h.of_compact hGet
  have hMem := List.mem_of_getElem? hi
  have hRank := rank_of_getElem? h.versions.sorted hi
  obtain ⟨hId, -, -, hParent⟩ := hNumbered i version hVersion
  have hInside := h.versions.inside i hMem
  have hLe := rank_le h.versions.sorted i
  have hBelow : ∀ parent ∈ version.parentVersion, rank plan.retainedVersions parent < k := by
    intro parent hSome
    rw [← hRank]
    exact rank_lt (hParent parent hSome) (h.versions.parent hMem ⟨version, hVersion, hSome⟩)
  refine ⟨by rw [renumberVersion, hId, hRank], by omega, ?_, ?_⟩
  · intro hSome
    obtain ⟨parent, hMemParent, hEq⟩ := Option.map_eq_some_iff.mp hSome
    have hLt := hBelow parent hMemParent
    omega
  · intro parent hSome
    obtain ⟨old, hMemParent, rfl⟩ := Option.map_eq_some_iff.mp hSome
    exact hBelow old hMemParent

theorem checkpointKeys_renumber (number : Nat → Nat) (checkpoints : List V2CheckpointRecord) :
    checkpointKeys (checkpoints.map (renumberCheckpoint number)) = checkpointKeys checkpoints := by
  rw [checkpointKeys, List.map_map]
  rfl

theorem CheckpointTable.compact (hState : StateOk sha256 a state) (h : PlanOk a state plan) :
    CheckpointTable sha256 (compactVersions state.versions plan)
      (state.checkpoints.map (renumberCheckpoint (rank plan.retainedVersions))) where
  valid new hMem := by
    obtain ⟨checkpoint, hOld, rfl⟩ := List.mem_map.mp hMem
    exact hState.renumber_valid h hOld
  state new hMem := by
    obtain ⟨checkpoint, hOld, rfl⟩ := List.mem_map.mp hMem
    exact StateAgrees.compact h hOld (hState.table.state checkpoint hOld)
  parent i new hGet := by
    rw [List.getElem?_map] at hGet
    obtain ⟨checkpoint, hOld, rfl⟩ := Option.map_eq_some_iff.mp hGet
    rw [checkpointKeys_renumber]
    exact hState.table.parent i checkpoint hOld
  nodup := by
    rw [checkpointKeys_renumber]
    exact hState.table.nodup

theorem LedgersOk.compact (h : LedgersOk sha256 state) (plan : V2CompactionPlan) :
    LedgersOk sha256 (state.compacted a plan) where
  ordinals := by
    show state.checkpointOrdinals = KeyMap.indexOf (checkpointKeys (state.checkpoints.map _))
    rw [checkpointKeys_renumber]
    exact h.ordinals
  count := by
    show (state.checkpoints.map _).length < _
    rw [List.length_map]
    exact h.count
  deleted key hKey := by
    show _ ∧ _ ∧ key ∉ checkpointKeys (state.checkpoints.map _)
    rw [checkpointKeys_renumber]
    exact h.deleted key hKey
  active id record hGet := by
    obtain ⟨hId, hRetired, checkpoint, hCheckpoint, hDigest⟩ := h.active id record hGet
    refine ⟨hId, hRetired, renumberCheckpoint (rank plan.retainedVersions) checkpoint, ?_, ?_⟩
    · show (state.checkpoints.map _)[_]? = _
      rw [List.getElem?_map, hCheckpoint]
      rfl
    · rw [operationDigestOf_renumber, hDigest]
  retired := h.retired

/-- Nothing is retained of a state without checkpoints. -/
theorem PlanOk.nothing (h : PlanOk a state plan) (hNil : state.checkpoints = []) :
    plan.retainedVersions = [] ∧ plan.retainedNodes = [] ∧ plan.retainedPayloadRanges = [] := by
  have hVersions : plan.retainedVersions = [] := by
    rw [List.eq_nil_iff_forall_not_mem]
    intro i hMem
    obtain ⟨s, hSeed, -⟩ := (h.versions.exact i).mp hMem
    rw [hNil] at hSeed
    exact List.not_mem_nil hSeed
  have hNodes : plan.retainedNodes = [] := by
    rw [List.eq_nil_iff_forall_not_mem]
    intro i hMem
    obtain ⟨s, hSeed, -⟩ := (h.nodes i).mp hMem
    rw [hVersions] at hSeed
    exact List.not_mem_nil hSeed
  refine ⟨hVersions, hNodes, ?_⟩
  have hOwned := h.arena.owned
  rw [hNodes] at hOwned
  exact hOwned.eq_nil

/-- A compaction leads from valid states to valid states. -/
theorem StateOk.compacted (hState : StateOk sha256 a state) (h : PlanOk a state plan) :
    StateOk sha256 (planArena a plan) (state.compacted a plan) where
  payload := rfl
  nodes := rfl
  wellFormed := h.arena.wellFormed hState.wellFormed
  apart := by
    obtain ⟨hTiles, hPerm⟩ := h.arena.tiles hState.wellFormed
    refine (hPerm.pairwise_iff fun h => Apart.symm h).mpr ?_
    exact hTiles.pairwise.imp fun hBefore => Or.inl hBefore
  payload_lt := by
    have hSum := h.arena.sum_le hState.wellFormed
    have hBound := hState.payload_lt
    rw [planArena, h.arena.length_payload hState.wellFormed]
    omega
  nodes_lt := by
    have hFew := length_le_of_sorted h.arena.sorted h.arena.inside
    have hBound := hState.nodes_lt
    rw [planArena, h.arena.length_nodes]
    omega
  versions_le := by
    have hFew := length_le_of_sorted h.versions.sorted h.versions.inside
    have hBound := hState.versions_le
    show (compactVersions state.versions plan).length ≤ _
    rw [h.length_versions]
    omega
  numbered := hState.numbered.compact hState.versions_le h
  roots new hMem := by
    obtain ⟨k, hGet⟩ := List.mem_iff_getElem?.mp hMem
    obtain ⟨i, version, hi, hVersion, rfl⟩ := h.of_compact hGet
    obtain ⟨t, hDenotes⟩ := hState.roots version (List.mem_of_getElem? hVersion)
    exact ⟨t, h.root_denotes hState.wellFormed (List.mem_of_getElem? hi) hVersion hDenotes⟩
  table := CheckpointTable.compact hState h
  numbers new hMem := by
    obtain ⟨checkpoint, hOld, rfl⟩ := List.mem_map.mp hMem
    exact hState.numbers checkpoint hOld
  cleared hNil := by
    obtain ⟨hVersions, hNodes, hRanges⟩ := h.nothing (List.map_eq_nil_iff.mp hNil)
    refine ⟨?_, ?_, ?_⟩
    · show (compactArena a plan.retainedNodes plan.retainedPayloadRanges).payload = []
      rw [hRanges]
      rfl
    · show records (compactArena a plan.retainedNodes plan.retainedPayloadRanges) = []
      rw [hNodes]
      rfl
    · show compactVersions state.versions plan = []
      rw [compactVersions, hVersions]
      rfl
  ledgers := hState.ledgers.compact plan

/-! ## Content -/

/-- What a compaction keeps of a checkpoint: all its fields apart from the numbers of its versions,
and the content of these. -/
structure CheckpointKept (sha256 : Bytes → Digest) (state next : V2CommittedState)
    (old new : V2CheckpointRecord) : Prop where
  checkpointNo : new.checkpointNo = old.checkpointNo
  threadId : new.threadId = old.threadId
  checkpointId : new.checkpointId = old.checkpointId
  parentCheckpointId : new.parentCheckpointId = old.parentCheckpointId
  metadata : new.state = old.state
  operation : checkpointOperationDigest sha256 new = checkpointOperationDigest sha256 old
  identity : ∃ bytes, VersionHolds state old.identityVersion bytes ∧
    VersionHolds next new.identityVersion bytes
  messages : ∃ content, OptionalHolds state old.messagesVersion content ∧
    OptionalHolds next new.messagesVersion content
  result : ∃ content, OptionalHolds state old.resultVersion content ∧
    OptionalHolds next new.resultVersion content

theorem StateOk.versionContent (hState : StateOk sha256 a state) {id : Nat}
    {version : V2VersionRecord} (hGet : state.versions[id]? = some version) {t : Rope UInt8}
    (hDenotes : Denotes sha256 a t version.root) : VersionContent state id t.toList := by
  refine ⟨version, hGet, ?_⟩
  rw [← hState.payload, ← hState.nodes]
  exact nodeContent_of_denotes hDenotes

/-- A retained version holds what it held. -/
theorem PlanOk.version_holds (h : PlanOk a state plan) (hState : StateOk sha256 a state) {id : Nat}
    (hMem : id ∈ plan.retainedVersions) :
    ∃ bytes, VersionHolds state id bytes ∧
      VersionHolds (state.compacted a plan) (rank plan.retainedVersions id) bytes := by
  obtain ⟨version, hGet⟩ : ∃ version, state.versions[id]? = some version :=
    ⟨_, List.getElem?_eq_getElem (h.versions.inside id hMem)⟩
  obtain ⟨t, hDenotes⟩ := hState.roots version (List.mem_of_getElem? hGet)
  refine ⟨t.toList, versionHolds_of_content (hState.versionContent hGet hDenotes),
    versionHolds_of_content ?_⟩
  exact (hState.compacted h).versionContent (h.version_at hMem hGet)
    (h.root_denotes hState.wellFormed hMem hGet hDenotes)

theorem PlanOk.optional_holds (h : PlanOk a state plan) (hState : StateOk sha256 a state)
    {version : Option Nat} (hMem : ∀ id ∈ version, id ∈ plan.retainedVersions) :
    ∃ content, OptionalHolds state version content ∧
      OptionalHolds (state.compacted a plan) (version.map (rank plan.retainedVersions)) content := by
  cases version with
  | none => exact ⟨none, trivial, trivial⟩
  | some id =>
    obtain ⟨bytes, hOld, hNew⟩ := h.version_holds hState (hMem id rfl)
    exact ⟨some bytes, hOld, hNew⟩

theorem checkpointKept (h : PlanOk a state plan) (hState : StateOk sha256 a state)
    {checkpoint : V2CheckpointRecord} (hMem : checkpoint ∈ state.checkpoints) :
    CheckpointKept sha256 state (state.compacted a plan) checkpoint
      (renumberCheckpoint (rank plan.retainedVersions) checkpoint) where
  checkpointNo := rfl
  threadId := rfl
  checkpointId := rfl
  parentCheckpointId := rfl
  metadata := rfl
  operation := by
    rw [checkpointOperationDigest_eq_ok.mpr ⟨hState.table.valid checkpoint hMem, rfl⟩,
      checkpointOperationDigest_eq_ok.mpr ⟨hState.renumber_valid h hMem, rfl⟩,
      operationDigestOf_renumber]
  identity := h.version_holds hState (h.names hMem).identityVersion
  messages := h.optional_holds hState (h.names hMem).messagesVersion
  result := h.optional_holds hState (h.names hMem).resultVersion

/-! ## The tables -/

/-- `j` is a child of the node record `i`. -/
def NodeChild (nodes : List V2NodeRecord) (i j : Nat) : Prop :=
  ∃ node left right leftLen, nodes[i]? = some node ∧ node.body = .branch left right leftLen ∧
    (j = left ∨ j = right)

/-- A node record with other children, or over moved payload. -/
def relocateRecord (number move : Nat → Nat) (node : V2NodeRecord) : V2NodeRecord :=
  match node.body with
  | .leaf offset len => { node with body := .leaf (move offset) len }
  | .branch left right leftLen =>
    { node with body := .branch (number left) (number right) leftLen }

/-- The tables of a compact state: the versions named by the checkpoints with their ancestors, the
nodes their roots reach and the payload of these, each in its old order under the rank it has among
what is retained. -/
structure CompactTables (state : V2CommittedState) (plan : V2CompactionPlan)
    (next : V2CommittedState) : Prop where
  versions_sorted : plan.retainedVersions.Pairwise (· < ·)
  versions_exact : ∀ i, i ∈ plan.retainedVersions ↔
    Reaches (VersionParent state.versions) (namedVersions state.checkpoints) i
  nodes_sorted : plan.retainedNodes.Pairwise (· < ·)
  nodes_exact : ∀ i, i ∈ plan.retainedNodes ↔ Reaches (NodeChild state.nodes)
    ((retainedRoots state.versions plan.retainedVersions).map V2RootRecord.nodeId) i
  ranges_sorted : plan.retainedPayloadRanges.Pairwise Before
  ranges_exact : plan.retainedPayloadRanges.Perm
    (plan.retainedNodes.filterMap fun i => state.nodes[i]?.bind recordRange)
  checkpoints : next.checkpoints =
    state.checkpoints.map (renumberCheckpoint (rank plan.retainedVersions))
  versions : next.versions = compactVersions state.versions plan
  nodes : next.nodes = plan.retainedNodes.filterMap fun i => (state.nodes[i]?).map
    (relocateRecord (rank plan.retainedNodes) (place plan.retainedPayloadRanges))
  payload : next.payload = plan.retainedPayloadRanges.flatMap (rangeBytes state.payload)

theorem nodeChild_iff (hWf : WellFormed sha256 a) {i j : Nat} :
    NodeChild (records a) i j ↔ ChildOf a i j := by
  constructor
  · rintro ⟨_, left, right, leftLen, hGet, hBody, hChild⟩
    rw [records, List.getElem?_map] at hGet
    obtain ⟨node, hNode, rfl⟩ := Option.map_eq_some_iff.mp hGet
    rcases hWf.node_cases hNode with ⟨offset, bytes, record, rfl, -, hRecord⟩ |
      ⟨l, r, record, rfl, hRecord, -⟩
    · obtain ⟨-, rfl⟩ := leaf_eq_ok.mp hRecord
      cases hBody
    · obtain ⟨-, -, -, -, -, rfl⟩ := branch_eq_ok.mp hRecord
      cases hBody
      exact ⟨l, r, _, hNode, hChild⟩
  · rintro ⟨left, right, record, hNode, hChild⟩
    rcases hWf.node_cases hNode with ⟨_, _, _, hEq, -⟩ | ⟨l, r, record', hEq, hRecord, -⟩
    · cases hEq
    · cases hEq
      obtain ⟨-, -, -, -, -, rfl⟩ := branch_eq_ok.mp hRecord
      exact ⟨_, _, _, _, getElem?_records hNode, rfl, hChild⟩

theorem reaches_congr {α : Type} {next next' : α → α → Prop} (h : ∀ x y, next x y ↔ next' x y)
    (seeds : List α) (x : α) : Reaches next seeds x ↔ Reaches next' seeds x := by
  have hSame : next = next' := funext fun x => funext fun y => propext (h x y)
  rw [hSame]

theorem relocateNode_record (hWf : WellFormed sha256 a) {number move : Nat → Nat} {i : Nat}
    {node : ArenaNode} (hNode : a.nodes[i]? = some node) :
    (relocateNode number move node).record = relocateRecord number move node.record := by
  rcases hWf.node_cases hNode with ⟨offset, bytes, record, rfl, -, hRecord⟩ |
    ⟨l, r, record, rfl, hRecord, -⟩
  · obtain ⟨-, rfl⟩ := leaf_eq_ok.mp hRecord
    rfl
  · obtain ⟨-, -, -, -, -, rfl⟩ := branch_eq_ok.mp hRecord
    rfl

theorem leafRange_eq_recordRange (hWf : WellFormed sha256 a) {i : Nat} {node : ArenaNode}
    (hNode : a.nodes[i]? = some node) : leafRange node = recordRange node.record := by
  rcases hWf.node_cases hNode with ⟨offset, bytes, record, rfl, -, hRecord⟩ |
    ⟨l, r, record, rfl, hRecord, -⟩
  · obtain ⟨-, rfl⟩ := leaf_eq_ok.mp hRecord
    rfl
  · obtain ⟨-, -, -, -, -, rfl⟩ := branch_eq_ok.mp hRecord
    rfl

theorem compactTables (h : PlanOk a state plan) (hState : StateOk sha256 a state) :
    CompactTables state plan (state.compacted a plan) where
  versions_sorted := h.versions.sorted
  versions_exact := h.versions.exact
  nodes_sorted := h.arena.sorted
  nodes_exact i := by
    rw [h.nodes, ← hState.nodes]
    exact reaches_congr (fun x y => (nodeChild_iff hState.wellFormed).symm) _ _
  ranges_sorted := h.arena.ordered
  ranges_exact := by
    refine h.arena.owned.trans (List.Perm.of_eq (List.filterMap_congr fun i hMem => ?_))
    obtain ⟨node, hNode⟩ : ∃ node, a.nodes[i]? = some node :=
      ⟨_, List.getElem?_eq_getElem (h.arena.inside i hMem)⟩
    rw [← hState.nodes, getElem?_records hNode, hNode, Option.bind_some, Option.bind_some,
      leafRange_eq_recordRange hState.wellFormed hNode]
  checkpoints := rfl
  versions := rfl
  nodes := by
    show records (compactArena a plan.retainedNodes plan.retainedPayloadRanges) = _
    rw [records, compactArena, List.map_filterMap]
    refine List.filterMap_congr fun i hMem => ?_
    obtain ⟨node, hNode⟩ : ∃ node, a.nodes[i]? = some node :=
      ⟨_, List.getElem?_eq_getElem (h.arena.inside i hMem)⟩
    rw [← hState.nodes, getElem?_records hNode, retainedNode, hNode, Option.map_some, Option.map_some,
      Option.map_some, relocateNode_record hState.wellFormed hNode]
  payload := by
    show (compactArena a plan.retainedNodes plan.retainedPayloadRanges).payload = _
    rw [compactArena, hState.payload]

/-! ## A second compaction -/

theorem eq_range_of_sorted {retained : List Nat} {n : Nat} (hSorted : retained.Pairwise (· < ·))
    (hMem : ∀ i, i ∈ retained ↔ i < n) : retained = List.range n := by
  have hPerm : retained.Perm (List.range n) := by
    refine (List.perm_ext_iff_of_nodup (hSorted.imp Nat.ne_of_lt) List.nodup_range).mpr fun i => ?_
    rw [hMem, List.mem_range]
  exact hPerm.eq_of_pairwise (fun x y _ _ hxy hyx => absurd hyx (Nat.lt_asymm hxy)) hSorted
    List.pairwise_lt_range

/-- Every version of a compact state is named by a checkpoint or an ancestor of one that is. -/
theorem PlanOk.versions_reached (h : PlanOk a state plan) {k : Nat}
    (hLt : k < (compactVersions state.versions plan).length) :
    Reaches (VersionParent (compactVersions state.versions plan))
      (namedVersions (state.checkpoints.map (renumberCheckpoint (rank plan.retainedVersions)))) k := by
  rw [h.length_versions] at hLt
  have hGet : plan.retainedVersions[k]? = some plan.retainedVersions[k] :=
    List.getElem?_eq_getElem hLt
  have hAll : ∀ i, Reaches (VersionParent state.versions) (namedVersions state.checkpoints) i →
      i ∈ plan.retainedVersions ∧ Reaches (VersionParent (compactVersions state.versions plan))
        (namedVersions (state.checkpoints.map (renumberCheckpoint (rank plan.retainedVersions))))
        (rank plan.retainedVersions i) := by
    intro i hi
    refine Reaches.induction (P := fun i => i ∈ plan.retainedVersions ∧
      Reaches (VersionParent (compactVersions state.versions plan))
        (namedVersions (state.checkpoints.map (renumberCheckpoint (rank plan.retainedVersions))))
        (rank plan.retainedVersions i)) ?_ ?_ hi
    · intro s hSeed
      obtain ⟨checkpoint, hMem, hNamed⟩ := List.mem_flatMap.mp hSeed
      refine ⟨(h.versions.exact s).mpr (.seed hSeed), .seed (List.mem_flatMap.mpr
        ⟨_, List.mem_map_of_mem hMem, ?_⟩)⟩
      rw [V2CheckpointRecord.versions, List.mem_append, List.mem_append, List.mem_singleton,
        Option.mem_toList, Option.mem_toList] at hNamed ⊢
      rcases hNamed with (hSame | hSome) | hSome
      · exact Or.inl (Or.inl (congrArg _ hSame))
      · exact Or.inl (Or.inr (Option.mem_map_of_mem _ hSome))
      · exact Or.inr (Option.mem_map_of_mem _ hSome)
    · rintro i j ⟨hMem, hPath⟩ ⟨version, hVersion, hParent⟩
      refine ⟨h.versions.parent hMem ⟨version, hVersion, hParent⟩, hPath.step ?_⟩
      refine ⟨_, h.version_at hMem hVersion, ?_⟩
      rw [renumberVersion, hParent]
      rfl
  have hRank := (hAll _ ((h.versions.exact _).mp (List.getElem_mem hLt))).2
  rwa [rank_of_getElem? h.versions.sorted hGet] at hRank

/-- The roots of a compact state are the renumbered roots of the retained versions. -/
theorem retainedRoots_compact (versions : List V2VersionRecord) (plan : V2CompactionPlan) :
    retainedRoots (compactVersions versions plan)
        (List.range (compactVersions versions plan).length) =
      (retainedRoots versions plan.retainedVersions).map
        (V2RootRecord.renumber (rank plan.retainedNodes)) := by
  have hAll : ∀ versions : List V2VersionRecord,
      retainedRoots versions (List.range versions.length) = versions.map V2VersionRecord.root := by
    intro versions
    induction versions using List.reverseRecOn with
    | nil => rfl
    | append_singleton versions version ih =>
      have hFront : retainedRoots (versions ++ [version]) (List.range versions.length) =
          retainedRoots versions (List.range versions.length) := by
        refine List.filterMap_congr fun i hMem => ?_
        rw [List.getElem?_append_left (List.mem_range.mp hMem)]
      rw [List.length_append, List.length_singleton, List.range_succ, retainedRoots,
        List.filterMap_append]
      change retainedRoots (versions ++ [version]) (List.range versions.length) ++ _ = _
      rw [hFront, ih, List.map_append, List.filterMap_cons, List.getElem?_concat_length]
      rfl
  rw [hAll, compactVersions, retainedRoots, List.map_filterMap, List.map_filterMap]
  refine List.filterMap_congr fun i hMem => ?_
  rw [Option.map_map, Option.map_map]
  rfl

/-- A version keeps its numbers when all in front of it are retained. -/
theorem renumberVersion_self {version : V2VersionRecord} {n m : Nat} (hId : version.versionId ≤ n)
    (hParent : ∀ parent ∈ version.parentVersion, parent ≤ n) (hNode : version.root.nodeId < m) :
    renumberVersion (rank (List.range n)) (rank (List.range m)) version = version := by
  obtain ⟨versionId, parentVersion, root⟩ := version
  dsimp only at hId hParent hNode
  have hRoot : root.renumber (rank (List.range m)) = root := by
    rw [V2RootRecord.renumber, rank_range hNode.le]
  rw [renumberVersion, hRoot, rank_range hId]
  cases parentVersion with
  | none => rfl
  | some parent => rw [Option.map_some, rank_range (hParent parent rfl)]

/-- A checkpoint keeps its numbers when all versions are retained. -/
theorem renumberCheckpoint_self {checkpoint : V2CheckpointRecord} {n : Nat}
    (h : ∀ id ∈ checkpoint.versions, id < n) :
    renumberCheckpoint (rank (List.range n)) checkpoint = checkpoint := by
  have hSame : ∀ id ∈ checkpoint.versions, rank (List.range n) id = id :=
    fun id hMem => rank_range (h id hMem).le
  have hOptional : ∀ version : Option Nat, (∀ id ∈ version, id ∈ checkpoint.versions) →
      version.map (rank (List.range n)) = version := by
    intro version hNamed
    cases version with
    | none => rfl
    | some id => rw [Option.map_some, hSame id (hNamed id rfl)]
  rw [renumberCheckpoint, hSame _ (by simp [V2CheckpointRecord.versions]),
    hOptional _ fun id hId => by
      rw [Option.mem_def] at hId
      simp [V2CheckpointRecord.versions, hId],
    hOptional _ fun id hId => by
      rw [Option.mem_def] at hId
      simp [V2CheckpointRecord.versions, hId]]

theorem leafRanges_range (nodes : List ArenaNode) :
    ((List.range nodes.length).filterMap fun i => nodes[i]?.bind leafRange) = leafRanges nodes := by
  induction nodes using List.reverseRecOn with
  | nil => rfl
  | append_singleton nodes node ih =>
    have hFront : ((List.range nodes.length).filterMap fun i =>
        (nodes ++ [node])[i]?.bind leafRange) = leafRanges nodes := by
      rw [← ih]
      refine List.filterMap_congr fun i hMem => ?_
      rw [List.getElem?_append_left (List.mem_range.mp hMem)]
    rw [List.length_append, List.length_singleton, List.range_succ, List.filterMap_append, hFront,
      leafRanges, leafRanges, List.filterMap_append, List.filterMap_cons,
      List.getElem?_concat_length]
    rfl

/-- A compaction of a compact state retains all of it and changes nothing. -/
theorem PlanOk.again (h : PlanOk a state plan) (hState : StateOk sha256 a state)
    {plan' : V2CompactionPlan} (h' : PlanOk (planArena a plan) (state.compacted a plan) plan') :
    (state.compacted a plan).compacted (planArena a plan) plan' = state.compacted a plan := by
  have hNew := hState.compacted h
  have hVersions : plan'.retainedVersions =
      List.range (compactVersions state.versions plan).length := by
    refine eq_range_of_sorted h'.versions.sorted fun k => ⟨h'.versions.inside k, fun hLt => ?_⟩
    exact (h'.versions.exact k).mpr (h.versions_reached hLt)
  have hNodes : plan'.retainedNodes = List.range (planArena a plan).nodes.length := by
    refine eq_range_of_sorted h'.arena.sorted fun k => ⟨h'.arena.inside k, fun hLt => ?_⟩
    have hReached := h.arena.reaches h.nodes hLt
    refine (h'.nodes k).mpr ?_
    rw [hVersions]
    show Reaches _ ((retainedRoots (compactVersions state.versions plan) _).map _) k
    rw [retainedRoots_compact, List.map_map]
    rw [List.map_map] at hReached
    exact hReached
  have hRanges : plan'.retainedPayloadRanges =
      plan.retainedPayloadRanges.map (moved plan.retainedPayloadRanges) := by
    obtain ⟨hTiles, hPerm⟩ := h.arena.tiles hState.wellFormed
    have hOwned := h'.arena.owned
    have hLeaves : (plan'.retainedNodes.filterMap fun i =>
        (planArena a plan).nodes[i]?.bind leafRange) = leafRanges (planArena a plan).nodes := by
      rw [hNodes, leafRanges_range]
    rw [hLeaves] at hOwned
    refine (hOwned.trans hPerm).eq_of_pairwise ?_ h'.arena.ordered hTiles.pairwise
    intro r s hr _ hrs hsr
    have hPos := h'.arena.length_pos hNew.wellFormed r hr
    unfold Before at hrs hsr
    omega
  have hArena : planArena (planArena a plan) plan' = planArena a plan := by
    have hKept := h'.arena
    rw [hNodes] at hKept
    rw [planArena, hNodes]
    refine compactArena_all hNew.wellFormed hKept ?_
    rw [hRanges]
    exact (h.arena.tiles hState.wellFormed).1
  have hTable : compactVersions (state.compacted a plan).versions plan' =
      (state.compacted a plan).versions := by
    refine List.ext_getElem? fun k => ?_
    rw [h'.getElem?_versions, hVersions, hNodes]
    by_cases hLt : k < (compactVersions state.versions plan).length
    · rw [List.getElem?_range hLt, Option.bind_some]
      obtain ⟨version, hGet⟩ : ∃ version, (state.compacted a plan).versions[k]? = some version :=
        ⟨_, List.getElem?_eq_getElem hLt⟩
      rw [hGet, Option.map_some]
      obtain ⟨hId, -, -, hParent⟩ := hNew.numbered k version hGet
      obtain ⟨t, hDenotes⟩ := hNew.roots version (List.mem_of_getElem? hGet)
      obtain ⟨node, hNode, -⟩ := hDenotes.root_eq
      have hInside := (List.getElem?_eq_some_iff.mp hNode).1
      exact congrArg some (renumberVersion_self (by omega) (fun j hj => by
        have hBefore := hParent j hj
        omega) hInside)
    · rw [List.getElem?_eq_none (by simpa using hLt)]
      exact (List.getElem?_eq_none (Nat.not_lt.mp hLt)).symm
  have hCheckpoints : (state.compacted a plan).checkpoints.map
      (renumberCheckpoint (rank plan'.retainedVersions)) = (state.compacted a plan).checkpoints := by
    refine (List.map_congr_left fun checkpoint hMem => ?_).trans (List.map_id _)
    rw [hVersions]
    exact renumberCheckpoint_self fun id hId =>
      hNew.named_lt id (List.mem_flatMap.mpr ⟨checkpoint, hMem, hId⟩)
  rw [V2CommittedState.compacted, hArena, hTable, hCheckpoints]
  rfl

/-- A second compaction changes nothing. -/
theorem StateOk.compact_again (hState : StateOk sha256 a state) (h : PlanOk a state plan) :
    compactV2State sha256 (state.compacted a plan) = .ok () (state.compacted a plan) := by
  obtain ⟨plan', hPlan, -, hRun⟩ := (hState.compacted h).compact
  rw [hRun, h.again hState hPlan]

end Compact

end TulyaStore.V2
