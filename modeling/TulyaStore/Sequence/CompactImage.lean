import TulyaStore.Lib.Folds
import TulyaStore.Lib.Mark
import TulyaStore.Sequence.Overlay
import TulyaStore.Sequence.Tiling

/-!
# The arena a compaction is meant to build

Compaction keeps some nodes and drops the others. What it should return needs no search and no
hash: node `i` gets the number of retained nodes in front of it (`rank`), a leaf range starts
where the retained ranges in front of it end (`place`), and `compactArena` is the arena with
the retained nodes renumbered in their old order.

If the retained nodes are closed under children, every retained node stands for the rope it
stood for (`Retained.denotes`), shared nodes stay shared, and leaves that divided the payload
still do (`Retained.tiles`). Keeping everything changes nothing (`compactArena_all`).
-/

namespace TulyaStore.Sequence

open Lib V2AvlSequence

/-! ## Renumbering -/

/-- The new identifier of a node. -/
def rank (retained : List Nat) (i : Nat) : Nat := (retained.filter (· < i)).length

/-- The new offset of a range. -/
def place (ranges : List V2RetainedPayloadRange) (offset : Nat) : Nat :=
  ((ranges.filter (·.offset < offset)).map V2RetainedPayloadRange.length).sum

section Rank

variable {retained : List Nat}

theorem rank_at {xs ys : List Nat} {i : Nat} (h : (xs ++ i :: ys).Pairwise (· < ·)) :
    rank (xs ++ i :: ys) i = xs.length := by
  obtain ⟨-, hTail, hCross⟩ := List.pairwise_append.mp h
  have hFront : xs.filter (· < i) = xs := List.filter_eq_self.mpr fun x hMem => by
    simpa using hCross x hMem i List.mem_cons_self
  have hBack : (i :: ys).filter (· < i) = [] := by
    refine List.filter_eq_nil_iff.mpr fun y hMem => ?_
    rcases List.mem_cons.mp hMem with rfl | hMem
    · simp
    · have := (List.pairwise_cons.mp hTail).1 y hMem
      simpa using Nat.le_of_lt this
  rw [rank, List.filter_append, hFront, hBack, List.append_nil]

/-- The rank of a retained node is its position. -/
theorem getElem?_rank (h : retained.Pairwise (· < ·)) {i : Nat} (hMem : i ∈ retained) :
    retained[rank retained i]? = some i := by
  obtain ⟨xs, ys, rfl⟩ := List.append_of_mem hMem
  rw [rank_at h]
  simp

theorem rank_of_getElem? (h : retained.Pairwise (· < ·)) {k i : Nat}
    (hGet : retained[k]? = some i) : rank retained i = k := by
  have hMem := List.mem_of_getElem? hGet
  obtain ⟨hLt, hEq⟩ := List.getElem?_eq_some_iff.mp (getElem?_rank h hMem)
  obtain ⟨hLt', hEq'⟩ := List.getElem?_eq_some_iff.mp hGet
  exact (List.Nodup.getElem_inj_iff (h.imp Nat.ne_of_lt)).mp (hEq.trans hEq'.symm)

theorem rank_le (h : retained.Pairwise (· < ·)) (i : Nat) : rank retained i ≤ i := by
  have hNodup : (retained.filter (· < i)).Nodup := (h.imp Nat.ne_of_lt).filter _
  have hSubset : retained.filter (· < i) ⊆ List.range i := fun x hMem =>
    List.mem_range.mpr (by simpa using (List.mem_filter.mp hMem).2)
  have hLe := (hNodup.subperm hSubset).length_le
  rwa [List.length_range] at hLe

theorem rank_lt {i j : Nat} (hLt : i < j) (hMem : i ∈ retained) : rank retained i < rank retained j := by
  have hSplit : retained.filter (· < i) = (retained.filter (· < j)).filter (· < i) := by
    rw [List.filter_filter]
    refine List.filter_congr fun x _ => ?_
    by_cases hx : x < i
    · simp [hx, hx.trans hLt]
    · simp [hx]
  rw [rank, rank, hSplit]
  refine List.length_filter_lt_length_iff_exists.mpr ⟨i, ?_, by simp⟩
  exact List.mem_filter.mpr ⟨hMem, by simpa using hLt⟩

theorem rank_range {n i : Nat} (h : i ≤ n) : rank (List.range n) i = i := by
  obtain ⟨m, rfl⟩ := Nat.exists_eq_add_of_le h
  induction m with
  | zero =>
    rw [rank, Nat.add_zero, List.filter_eq_self.mpr, List.length_range]
    exact fun x hMem => by simpa using hMem
  | succ m ih =>
    have hLast : [i + m].filter (· < i) = [] := by simp
    rw [← Nat.add_assoc, List.range_succ, rank, List.filter_append, hLast, List.append_nil]
    exact ih (Nat.le_add_right i m)

end Rank

section Place

variable {ranges : List V2RetainedPayloadRange}

theorem place_at {xs ys : List V2RetainedPayloadRange} {r : V2RetainedPayloadRange}
    (h : (xs ++ r :: ys).Pairwise Before) (hPos : ∀ s ∈ xs ++ r :: ys, 0 < s.length) :
    place (xs ++ r :: ys) r.offset = (xs.map V2RetainedPayloadRange.length).sum := by
  obtain ⟨-, hTail, hCross⟩ := List.pairwise_append.mp h
  have hFront : xs.filter (·.offset < r.offset) = xs := List.filter_eq_self.mpr fun s hMem => by
    have hBefore : s.offset + s.length ≤ r.offset := hCross s hMem r List.mem_cons_self
    have := hPos s (List.mem_append_left _ hMem)
    simp only [decide_eq_true_eq]
    omega
  have hBack : (r :: ys).filter (·.offset < r.offset) = [] := by
    refine List.filter_eq_nil_iff.mpr fun s hMem => ?_
    rcases List.mem_cons.mp hMem with rfl | hMem
    · simp
    · have : r.offset + r.length ≤ s.offset := (List.pairwise_cons.mp hTail).1 s hMem
      simp only [decide_eq_true_eq]
      omega
  rw [place, List.filter_append, hFront, hBack, List.append_nil]

theorem sum_length_le {xs : List V2RetainedPayloadRange} {r : V2RetainedPayloadRange} {start : Nat}
    (h : (xs ++ [r]).Pairwise Before) (hStart : ∀ s ∈ xs ++ [r], start ≤ s.offset) :
    start + (xs.map V2RetainedPayloadRange.length).sum ≤ r.offset := by
  induction xs generalizing start with
  | nil => simpa using hStart r (by simp)
  | cons s xs ih =>
    obtain ⟨hHead, hTail⟩ := List.pairwise_cons.mp h
    have hRest := ih hTail (fun q hMem => hHead q hMem)
    have hFirst := hStart s (by simp)
    rw [List.map_cons, List.sum_cons]
    omega

/-- A range moves towards the front. -/
theorem place_le (h : ranges.Pairwise Before) (hPos : ∀ s ∈ ranges, 0 < s.length)
    {r : V2RetainedPayloadRange} (hMem : r ∈ ranges) : place ranges r.offset ≤ r.offset := by
  obtain ⟨xs, ys, rfl⟩ := List.append_of_mem hMem
  rw [place_at h hPos]
  have hFront : (xs ++ [r]).Pairwise Before := by
    refine h.sublist ?_
    simp
  have hSum := sum_length_le hFront fun _ _ => Nat.zero_le _
  rwa [Nat.zero_add] at hSum

/-- Ranges that tile from the first byte on stay where they are. -/
theorem place_tiles {stop : Nat} (h : Tiles 0 ranges stop) (hPos : ∀ s ∈ ranges, 0 < s.length)
    {r : V2RetainedPayloadRange} (hMem : r ∈ ranges) : place ranges r.offset = r.offset := by
  obtain ⟨xs, ys, rfl⟩ := List.append_of_mem hMem
  rw [place_at h.pairwise hPos]
  obtain ⟨middle, hFront, hBack⟩ := tiles_append.mp h
  have hSum : ∀ (xs : List V2RetainedPayloadRange) (start : Nat), Tiles start xs middle →
      start + (xs.map V2RetainedPayloadRange.length).sum = middle := by
    intro xs
    induction xs with
    | nil =>
      intro start hEnd
      exact hEnd
    | cons s xs ih =>
      intro start hTiles
      have := ih _ hTiles.2
      rw [List.map_cons, List.sum_cons]
      omega
  have := hSum xs 0 hFront
  rw [hBack.1]
  omega

/-- A range at its new place. -/
def moved (ranges : List V2RetainedPayloadRange) (r : V2RetainedPayloadRange) :
    V2RetainedPayloadRange := ⟨place ranges r.offset, r.length⟩

/-- The moved ranges follow each other from the first byte on. -/
theorem tiles_moved (h : ranges.Pairwise Before) (hPos : ∀ s ∈ ranges, 0 < s.length) :
    Tiles 0 (ranges.map (moved ranges)) (ranges.map V2RetainedPayloadRange.length).sum := by
  have hAll : ∀ xs ys, xs ++ ys = ranges →
      Tiles (xs.map V2RetainedPayloadRange.length).sum (ys.map (moved ranges))
        (ranges.map V2RetainedPayloadRange.length).sum := by
    intro xs ys hSplit
    induction ys generalizing xs with
    | nil =>
      rw [← hSplit, List.append_nil]
      exact rfl
    | cons r ys ih =>
      refine ⟨?_, ?_⟩
      · dsimp only [moved]
        subst hSplit
        exact place_at h hPos
      · have hNext := ih (xs ++ [r]) (by simpa using hSplit)
        simpa [moved] using hNext
  exact hAll [] ranges rfl

end Place

/-! ## The compact arena -/

def V2RootRecord.renumber (number : Nat → Nat) (root : V2RootRecord) : V2RootRecord :=
  { root with nodeId := number root.nodeId }

/-- A node over renumbered children or a moved payload. -/
def relocateNode (number move : Nat → Nat) : ArenaNode → ArenaNode
  | .leaf offset len record => .leaf (move offset) len { record with body := .leaf (move offset) len }
  | .branch left right record =>
    .branch (left.renumber number) (right.renumber number) { record with
      body := .branch (number left.nodeId) (number right.nodeId) left.logicalLen }

/-- What a range of the payload holds. -/
def rangeBytes (payload : Bytes) (r : V2RetainedPayloadRange) : Bytes :=
  (slice payload r.offset (r.offset + r.length)).getD []

def retainedNode (a : V2AvlSequence) (retained : List Nat) (ranges : List V2RetainedPayloadRange)
    (i : Nat) : Option ArenaNode :=
  (a.nodes[i]?).map (relocateNode (rank retained) (place ranges))

def compactArena (a : V2AvlSequence) (retained : List Nat) (ranges : List V2RetainedPayloadRange) :
    V2AvlSequence :=
  ⟨ranges.flatMap (rangeBytes a.payload), retained.filterMap (retainedNode a retained ranges)⟩

/-- `j` is a child of the node `i`. -/
def ChildOf (a : V2AvlSequence) (i j : Nat) : Prop :=
  ∃ left right record, a.nodes[i]? = some (.branch left right record) ∧
    (j = left.nodeId ∨ j = right.nodeId)

/-- The ranges of some nodes, in their order, are among those of all. -/
theorem leafRanges_sublist {a : V2AvlSequence} {retained : List Nat}
    (hSorted : retained.Pairwise (· < ·)) (hInside : ∀ i ∈ retained, i < a.nodes.length) :
    (retained.filterMap fun i => a.nodes[i]?.bind leafRange).Sublist (leafRanges a.nodes) := by
  have hNodes : a.nodes = (List.range a.nodes.length).filterMap fun i => a.nodes[i]? := by
    refine List.ext_getElem? fun i => ?_
    rw [getElem?_filterMap fun j hMem => by
      rw [List.getElem?_eq_getElem (List.mem_range.mp hMem)]
      rfl]
    by_cases hi : i < a.nodes.length
    · rw [List.getElem?_range hi]
      rfl
    · rw [List.getElem?_eq_none (Nat.not_lt.mp hi),
        List.getElem?_eq_none (by simpa using Nat.not_lt.mp hi)]
      rfl
  have hAll : leafRanges a.nodes =
      (List.range a.nodes.length).filterMap fun i => a.nodes[i]?.bind leafRange := by
    conv_lhs => rw [hNodes]
    rw [leafRanges, List.filterMap_filterMap]
  have hNodup : retained.Nodup := hSorted.imp Nat.ne_of_lt
  have hSubset : retained ⊆ List.range a.nodes.length := fun i hMem =>
    List.mem_range.mpr (hInside i hMem)
  rw [hAll]
  exact (List.sublist_of_subperm_of_pairwise (hNodup.subperm hSubset) hSorted
    List.pairwise_lt_range).filterMap _

/-- What is retained: nodes in ascending order with their children, and the ranges of their leaves
in the order of the payload. -/
structure Retained (a : V2AvlSequence) (retained : List Nat)
    (ranges : List V2RetainedPayloadRange) : Prop where
  sorted : retained.Pairwise (· < ·)
  inside : ∀ i ∈ retained, i < a.nodes.length
  closed : ∀ i ∈ retained, ∀ j, ChildOf a i j → j ∈ retained
  ordered : ranges.Pairwise Before
  owned : ranges.Perm (retained.filterMap fun i => a.nodes[i]?.bind leafRange)

namespace Retained

variable {sha256 : Bytes → Digest} {a : V2AvlSequence} {retained : List Nat}
  {ranges : List V2RetainedPayloadRange}

theorem isSome (h : Retained a retained ranges) :
    ∀ i ∈ retained, (retainedNode a retained ranges i).isSome := by
  intro i hMem
  rw [retainedNode, List.getElem?_eq_getElem (h.inside i hMem)]
  rfl

theorem length_nodes (h : Retained a retained ranges) :
    (compactArena a retained ranges).nodes.length = retained.length :=
  length_filterMap h.isSome

/-- Node `k` of the compact arena is the relocated `k`-th retained node. -/
theorem getElem?_nodes (h : Retained a retained ranges) (k : Nat) :
    (compactArena a retained ranges).nodes[k]? =
      retained[k]?.bind (retainedNode a retained ranges) :=
  getElem?_filterMap h.isSome k

theorem node_at (h : Retained a retained ranges) {i : Nat} (hMem : i ∈ retained) {node : ArenaNode}
    (hNode : a.nodes[i]? = some node) :
    (compactArena a retained ranges).nodes[rank retained i]? =
      some (relocateNode (rank retained) (place ranges) node) := by
  rw [h.getElem?_nodes, getElem?_rank h.sorted hMem, Option.bind_some, retainedNode, hNode]
  rfl

/-- The range of a retained leaf is a retained range. -/
theorem mem_ranges (h : Retained a retained ranges) {i : Nat} (hMem : i ∈ retained)
    {offset len : Nat} {record : V2NodeRecord}
    (hNode : a.nodes[i]? = some (.leaf offset len record)) : ⟨offset, len⟩ ∈ ranges := by
  rw [h.owned.mem_iff]
  exact List.mem_filterMap.mpr ⟨i, hMem, by rw [hNode]; rfl⟩

theorem of_mem_ranges (h : Retained a retained ranges) {r : V2RetainedPayloadRange}
    (hMem : r ∈ ranges) : ∃ i ∈ retained, ∃ record,
      a.nodes[i]? = some (.leaf r.offset r.length record) := by
  rw [h.owned.mem_iff] at hMem
  obtain ⟨i, hIn, hBind⟩ := List.mem_filterMap.mp hMem
  obtain ⟨node, hNode, hLeaf⟩ := Option.bind_eq_some_iff.mp hBind
  cases node with
  | leaf offset len record =>
    cases hLeaf
    exact ⟨i, hIn, record, hNode⟩
  | branch => cases hLeaf

/-- The ranges lie in the payload and are not empty. -/
theorem range_inside (h : Retained a retained ranges) (hWf : WellFormed sha256 a)
    {r : V2RetainedPayloadRange} (hMem : r ∈ ranges) :
    0 < r.length ∧ r.offset + r.length < width 64 ∧ (rangeBytes a.payload r).length = r.length ∧
      slice a.payload r.offset (r.offset + r.length) = some (rangeBytes a.payload r) := by
  obtain ⟨i, -, record, hNode⟩ := h.of_mem_ranges hMem
  obtain ⟨start, len⟩ := r
  rcases hWf.node_cases hNode with ⟨offset, bytes, record', hEq, hSlice, hRecord⟩ |
    ⟨left, right, record', hEq, -⟩
  · cases hEq
    obtain ⟨⟨hPos, -, hEnd⟩, -⟩ := leaf_eq_ok.mp hRecord
    have hBytes : rangeBytes a.payload ⟨start, bytes.length⟩ = bytes := by
      rw [rangeBytes, hSlice]
      rfl
    rw [hBytes]
    exact ⟨hPos, hEnd, rfl, hSlice⟩
  · cases hEq

theorem length_pos (h : Retained a retained ranges) (hWf : WellFormed sha256 a) :
    ∀ r ∈ ranges, 0 < r.length := fun _ hMem => (h.range_inside hWf hMem).1

/-- The bytes of the ranges are as many as their lengths say. -/
theorem length_flatMap (h : Retained a retained ranges) (hWf : WellFormed sha256 a)
    {xs : List V2RetainedPayloadRange} (hSub : ∀ r ∈ xs, r ∈ ranges) :
    (xs.flatMap (rangeBytes a.payload)).length = (xs.map V2RetainedPayloadRange.length).sum := by
  induction xs with
  | nil => rfl
  | cons r xs ih =>
    have hHead := (h.range_inside hWf (hSub r List.mem_cons_self)).2.2.1
    have hTail := ih fun s hMem => hSub s (List.mem_cons_of_mem _ hMem)
    rw [List.flatMap_cons, List.length_append, hHead, hTail, List.map_cons, List.sum_cons]

theorem length_payload (h : Retained a retained ranges) (hWf : WellFormed sha256 a) :
    (compactArena a retained ranges).payload.length =
      (ranges.map V2RetainedPayloadRange.length).sum :=
  h.length_flatMap hWf fun _ hMem => hMem

/-- A retained range holds at its new place what it held. -/
theorem slice_place (h : Retained a retained ranges) (hWf : WellFormed sha256 a)
    {r : V2RetainedPayloadRange} (hMem : r ∈ ranges) :
    slice (compactArena a retained ranges).payload (place ranges r.offset)
      (place ranges r.offset + r.length) = some (rangeBytes a.payload r) := by
  have hLen := (h.range_inside hWf hMem).2.2.1
  obtain ⟨xs, ys, rfl⟩ := List.append_of_mem hMem
  rw [place_at h.ordered (h.length_pos hWf), compactArena, List.flatMap_append, List.flatMap_cons]
  have hFront : (xs.flatMap (rangeBytes a.payload)).length =
      (xs.map V2RetainedPayloadRange.length).sum :=
    h.length_flatMap hWf fun s hIn => List.mem_append_left _ hIn
  exact slice_at hFront.symm (by omega)

/-- Retained nodes stand for the ropes they stood for. -/
theorem denotes (h : Retained a retained ranges) (hWf : WellFormed sha256 a) {t : Rope UInt8}
    {root : V2RootRecord} (hDenotes : Denotes sha256 a t root) (hMem : root.nodeId ∈ retained) :
    Denotes sha256 (compactArena a retained ranges) t (root.renumber (rank retained)) := by
  induction t generalizing root with
  | leaf bytes =>
    obtain ⟨hId, offset, record, hNode, hSlice, hRecord, hRoot⟩ := hDenotes
    have hRange := h.mem_ranges hMem hNode
    obtain ⟨⟨hPos, hMax, hEnd⟩, rfl⟩ := leaf_eq_ok.mp hRecord
    obtain ⟨hNe, hRootEq⟩ := fromNode_eq_ok.mp hRoot
    have hLe := rank_le h.sorted root.nodeId
    have hPlace : place ranges offset ≤ offset := place_le h.ordered (h.length_pos hWf) hRange
    have hBytes : rangeBytes a.payload ⟨offset, bytes.length⟩ = bytes := by
      rw [rangeBytes, hSlice]
      rfl
    refine ⟨lt_of_le_of_lt hLe hId, place ranges offset, _, h.node_at hMem hNode, ?_,
      leaf_eq_ok.mpr ⟨⟨hPos, hMax, by omega⟩, rfl⟩, fromNode_eq_ok.mpr ⟨?_, ?_⟩⟩
    · have hMoved := h.slice_place hWf hRange
      rwa [hBytes] at hMoved
    · exact (lt_of_le_of_lt hLe (hWf.id_lt hNode)).ne
    · rw [hRootEq]
      rfl
  | node l r ihl ihr =>
    obtain ⟨hId, left, right, record, hNode, hRecord, hRoot, hLeft, hRight, hl, hr⟩ := hDenotes
    obtain ⟨⟨hLeftNe, hLeftLen, hLeftHeight⟩, ⟨hRightNe, hRightLen, hRightHeight⟩, hBal, hHeight,
      hLen, rfl⟩ := branch_eq_ok.mp hRecord
    obtain ⟨hNe, hRootEq⟩ := fromNode_eq_ok.mp hRoot
    have hLe := rank_le h.sorted root.nodeId
    have hLt := hWf.id_lt hNode
    have hLeftMem := h.closed _ hMem left.nodeId ⟨left, right, _, hNode, Or.inl rfl⟩
    have hRightMem := h.closed _ hMem right.nodeId ⟨left, right, _, hNode, Or.inr rfl⟩
    have hLeftRank := rank_lt hLeft hLeftMem
    have hRightRank := rank_lt hRight hRightMem
    refine ⟨lt_of_le_of_lt hLe hId, left.renumber (rank retained), right.renumber (rank retained),
      _, h.node_at hMem hNode, branch_eq_ok.mpr ⟨⟨?_, hLeftLen, hLeftHeight⟩,
        ⟨?_, hRightLen, hRightHeight⟩, hBal, hHeight, hLen, rfl⟩, fromNode_eq_ok.mpr ⟨?_, ?_⟩,
      hLeftRank, hRightRank, ihl hl hLeftMem, ihr hr hRightMem⟩
    · exact (hLeftRank.trans_le (hLe.trans hLt.le)).ne
    · exact (hRightRank.trans_le (hLe.trans hLt.le)).ne
    · exact (lt_of_le_of_lt hLe hLt).ne
    · rw [hRootEq]
      rfl

theorem wellFormed (h : Retained a retained ranges) (hWf : WellFormed sha256 a) :
    WellFormed sha256 (compactArena a retained ranges) := by
  intro k node hNode
  rw [h.getElem?_nodes] at hNode
  obtain ⟨i, hGet, hRelocated⟩ := Option.bind_eq_some_iff.mp hNode
  obtain ⟨old, hOld, -⟩ := Option.map_eq_some_iff.mp hRelocated
  have hMem := List.mem_of_getElem? hGet
  obtain ⟨t, root, hRoot, hDenotes⟩ := hWf i old hOld
  obtain ⟨hId, -, -⟩ := fromNode_fields hRoot
  have hNew := h.denotes hWf hDenotes (hId ▸ hMem)
  have hRank : (root.renumber (rank retained)).nodeId = k := by
    rw [V2RootRecord.renumber, hId]
    exact rank_of_getElem? h.sorted hGet
  obtain ⟨node', hNode', hFrom⟩ := hNew.root_eq
  rw [hRank, h.getElem?_nodes, hNode] at hNode'
  cases hNode'
  exact ⟨t, _, hRank ▸ hFrom, hNew⟩

/-- The leaves of the compact arena own the moved ranges. -/
theorem leafRanges_eq (h : Retained a retained ranges) :
    leafRanges (compactArena a retained ranges).nodes =
      (retained.filterMap fun i => a.nodes[i]?.bind leafRange).map (moved ranges) := by
  rw [leafRanges, compactArena, List.filterMap_filterMap, List.map_filterMap]
  refine List.filterMap_congr fun i hMem => ?_
  obtain ⟨node, hNode⟩ : ∃ node, a.nodes[i]? = some node :=
    ⟨_, List.getElem?_eq_getElem (h.inside i hMem)⟩
  rw [retainedNode, hNode]
  cases node with
  | leaf => rfl
  | branch => rfl

/-- The leaves of the compact arena divide its payload. -/
theorem tiles (h : Retained a retained ranges) (hWf : WellFormed sha256 a) :
    Tiles 0 (ranges.map (moved ranges)) (compactArena a retained ranges).payload.length ∧
      (leafRanges (compactArena a retained ranges).nodes).Perm (ranges.map (moved ranges)) := by
  refine ⟨?_, ?_⟩
  · rw [h.length_payload hWf]
    exact tiles_moved h.ordered (h.length_pos hWf)
  · rw [h.leafRanges_eq]
    exact (h.owned.map _).symm

/-- Everything retained is reached again from the renumbered seeds. -/
theorem reaches (h : Retained a retained ranges) {seeds : List Nat}
    (hReached : ∀ i, i ∈ retained ↔ Reaches (ChildOf a) seeds i) {k : Nat}
    (hLt : k < (compactArena a retained ranges).nodes.length) :
    Reaches (ChildOf (compactArena a retained ranges)) (seeds.map (rank retained)) k := by
  rw [h.length_nodes] at hLt
  have hGet : retained[k]? = some retained[k] := List.getElem?_eq_getElem hLt
  have hAll : ∀ i, Reaches (ChildOf a) seeds i → i ∈ retained ∧
      Reaches (ChildOf (compactArena a retained ranges)) (seeds.map (rank retained))
        (rank retained i) := by
    intro i hi
    refine Reaches.induction (P := fun i => i ∈ retained ∧
      Reaches (ChildOf (compactArena a retained ranges)) (seeds.map (rank retained))
        (rank retained i)) ?_ ?_ hi
    · intro s hSeed
      exact ⟨(hReached s).mpr (.seed hSeed), .seed (List.mem_map_of_mem hSeed)⟩
    · rintro x y ⟨hMem, hPath⟩ hChild
      refine ⟨h.closed x hMem y hChild, hPath.step ?_⟩
      obtain ⟨left, right, record, hNode, hy⟩ := hChild
      refine ⟨_, _, _, h.node_at hMem hNode, ?_⟩
      rcases hy with rfl | rfl
      · exact Or.inl rfl
      · exact Or.inr rfl
  have hRank := (hAll _ ((hReached _).mp (List.getElem_mem hLt))).2
  rwa [rank_of_getElem? h.sorted hGet] at hRank

/-- Leaves that own the payload in the order of their nodes still do. -/
theorem tiled (h : Retained a retained ranges) (hWf : WellFormed sha256 a) (hTiled : Tiled a) :
    Tiled (compactArena a retained ranges) := by
  have hOwned : (retained.filterMap fun i => a.nodes[i]?.bind leafRange).Pairwise Before := by
    have hBefore : (leafRanges a.nodes).Pairwise Before := Tiles.pairwise hTiled
    exact hBefore.sublist (leafRanges_sublist h.sorted h.inside)
  have hEq : ranges = retained.filterMap fun i => a.nodes[i]?.bind leafRange := by
    refine h.owned.eq_of_pairwise (fun r s hr hs hrs hsr => ?_) h.ordered hOwned
    have := h.length_pos hWf r hr
    unfold Before at hrs hsr
    omega
  unfold Tiled
  rw [h.leafRanges_eq, ← hEq]
  exact (h.tiles hWf).1

end Retained

/-- Relocation of a node that does not move. -/
theorem relocateNode_self {sha256 : Bytes → Digest} {a : V2AvlSequence} (hWf : WellFormed sha256 a)
    {number move : Nat → Nat} {i : Nat} {node : ArenaNode} (hNode : a.nodes[i]? = some node)
    (hNumber : ∀ j < i, number j = j)
    (hMove : ∀ r, leafRange node = some r → move r.offset = r.offset) :
    relocateNode number move node = node := by
  rcases hWf.node_cases hNode with ⟨offset, bytes, record, rfl, -, hRecord⟩ |
    ⟨left, right, record, rfl, hRecord, ⟨hLeft, -⟩, ⟨hRight, -⟩⟩
  · have hSame : move offset = offset := hMove ⟨offset, bytes.length⟩ rfl
    obtain ⟨-, rfl⟩ := leaf_eq_ok.mp hRecord
    simp only [relocateNode, hSame]
  · obtain ⟨-, -, -, -, -, rfl⟩ := branch_eq_ok.mp hRecord
    simp only [relocateNode, V2RootRecord.renumber, hNumber _ hLeft, hNumber _ hRight]

/-- Nothing changes when everything is retained. -/
theorem compactArena_all {sha256 : Bytes → Digest} {a : V2AvlSequence} (hWf : WellFormed sha256 a)
    {ranges : List V2RetainedPayloadRange}
    (h : Retained a (List.range a.nodes.length) ranges) (hTiles : Tiles 0 ranges a.payload.length) :
    compactArena a (List.range a.nodes.length) ranges = a := by
  have hPayload : (compactArena a (List.range a.nodes.length) ranges).payload = a.payload := by
    have hAll := Tiles.flatMap_slice hTiles (Nat.le_refl _)
    rw [List.drop_zero, Nat.sub_zero, List.take_length] at hAll
    exact hAll
  have hNodes : (compactArena a (List.range a.nodes.length) ranges).nodes = a.nodes := by
    refine List.ext_getElem? fun i => ?_
    rw [h.getElem?_nodes]
    by_cases hi : i < a.nodes.length
    · have hNode : a.nodes[i]? = some a.nodes[i] := List.getElem?_eq_getElem hi
      rw [List.getElem?_range hi, Option.bind_some, retainedNode, hNode, Option.map_some,
        relocateNode_self hWf hNode]
      · exact fun j hj => rank_range (by omega)
      · intro r hLeaf
        refine place_tiles hTiles (h.length_pos hWf) ?_
        rw [h.owned.mem_iff]
        exact List.mem_filterMap.mpr ⟨i, List.mem_range.mpr hi, by rw [hNode]; exact hLeaf⟩
    · rw [List.getElem?_eq_none (Nat.not_lt.mp hi), List.getElem?_eq_none (by simpa using hi)]
      rfl
  cases hArena : compactArena a (List.range a.nodes.length) ranges
  rw [hArena] at hPayload hNodes
  rw [← show V2AvlSequence.mk a.payload a.nodes = a from rfl, ← hPayload, ← hNodes]

end TulyaStore.Sequence
