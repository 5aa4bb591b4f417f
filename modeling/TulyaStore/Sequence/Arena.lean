import TulyaStore.Lib.Rope
import TulyaStore.Sequence.Avl

/-!
# What an arena node stands for

`Denotes a t root` says that the in-memory arena `a` resolves `root` to the rope `t`: the
node `root.nodeId` exists, its record is the one the constructors recompute from its
content, its children come earlier in the arena and stand for the children of `t`. Height,
length, balance and the leaf bound of the rope are read off the records.

An arena only grows during an edit (`Grows`), and a growing arena keeps what its nodes
stand for (`Denotes.grows`). `WellFormed` arenas have no node that stands for nothing.
-/

namespace TulyaStore.Sequence

open Lib ArenaStore

namespace V2AvlSequence

variable {a b c : V2AvlSequence}

theorem loadNode_eq_ok {nodeId : Nat} {node : ArenaNode} :
    arenaLoadNode a nodeId = .ok node ↔ nodeId < width 64 ∧ a.nodes[nodeId]? = some node := by
  change loadNode a nodeId = .ok node ↔ _
  simp only [loadNode, bind_eq_ok, okOr_eq_ok, tryFrom_eq_some]
  constructor
  · rintro ⟨_, ⟨hLt, rfl⟩, hGet⟩
    exact ⟨hLt, hGet⟩
  · rintro ⟨hLt, hGet⟩
    exact ⟨nodeId, ⟨hLt, rfl⟩, hGet⟩

theorem readPayload_eq_ok {start stop : Nat} {bytes : Bytes} :
    arenaReadPayload a start stop = .ok bytes ↔
      start < width 64 ∧ stop < width 64 ∧ slice a.payload start stop = some bytes := by
  change payloadSlice a start stop = .ok bytes ↔ _
  simp only [payloadSlice, bind_eq_ok, okOr_eq_ok, tryFrom_eq_some]
  constructor
  · rintro ⟨_, ⟨hStart, rfl⟩, _, ⟨hStop, rfl⟩, hSlice⟩
    exact ⟨hStart, hStop, hSlice⟩
  · rintro ⟨hStart, hStop, hSlice⟩
    exact ⟨start, ⟨hStart, rfl⟩, stop, ⟨hStop, rfl⟩, hSlice⟩

/-- `b` holds everything `a` holds, at the same places. -/
def Grows (a b : V2AvlSequence) : Prop := a.payload <+: b.payload ∧ a.nodes <+: b.nodes

theorem Grows.refl (a : V2AvlSequence) : Grows a a := ⟨List.prefix_rfl, List.prefix_rfl⟩

theorem Grows.trans (hab : Grows a b) (hbc : Grows b c) : Grows a c :=
  ⟨hab.1.trans hbc.1, hab.2.trans hbc.2⟩

theorem Grows.getElem? (h : Grows a b) {i : Nat} {node : ArenaNode}
    (hNode : a.nodes[i]? = some node) : b.nodes[i]? = some node := by
  obtain ⟨rest, hRest⟩ := h.2
  rw [← hRest, List.getElem?_append_left (List.getElem?_eq_some_iff.mp hNode).1, hNode]

theorem Grows.slice (h : Grows a b) {start stop : Nat} {bytes : Bytes}
    (hSlice : Lib.slice a.payload start stop = some bytes) :
    Lib.slice b.payload start stop = some bytes := by
  obtain ⟨rest, hRest⟩ := h.1
  rw [← hRest]
  exact slice_append hSlice

/-- Cutting a grown arena back to the old counts gives the old arena. -/
theorem Grows.truncate (h : Grows a b) :
    arenaTruncate b (arenaPayloadLen a) (arenaNodeCount a) = a := by
  change V2AvlSequence.mk (b.payload.take a.payload.length) (b.nodes.take a.nodes.length) = a
  rw [← List.prefix_iff_eq_take.mp h.1, ← List.prefix_iff_eq_take.mp h.2]

end V2AvlSequence

open V2AvlSequence

section Denotes

variable (sha256 : Bytes → Digest)

/-- The root `root` of the arena `a` stands for the rope. -/
def Denotes (a : V2AvlSequence) : Rope UInt8 → V2RootRecord → Prop
  | .leaf bytes, root => root.nodeId < width 64 ∧ ∃ offset record,
      a.nodes[root.nodeId]? = some (.leaf offset bytes.length record) ∧
      slice a.payload offset (offset + bytes.length) = some bytes ∧
      V2NodeRecord.leaf sha256 offset bytes = .ok record ∧
      V2RootRecord.fromNode root.nodeId record = .ok root
  | .node l r, root => root.nodeId < width 64 ∧ ∃ left right record,
      a.nodes[root.nodeId]? = some (.branch left right record) ∧
      V2NodeRecord.branch sha256 left right = .ok record ∧
      V2RootRecord.fromNode root.nodeId record = .ok root ∧
      left.nodeId < root.nodeId ∧ right.nodeId < root.nodeId ∧
      Denotes a l left ∧ Denotes a r right

/-- Every node of the arena stands for some rope. -/
def WellFormed (a : V2AvlSequence) : Prop :=
  ∀ i node, a.nodes[i]? = some node →
    ∃ t root, V2RootRecord.fromNode i node.record = .ok root ∧ Denotes sha256 a t root

end Denotes

section Facts

variable {sha256 : Bytes → Digest} {a b : V2AvlSequence} {t : Rope UInt8} {root : V2RootRecord}

theorem Denotes.grows (hGrows : Grows a b) (h : Denotes sha256 a t root) :
    Denotes sha256 b t root := by
  induction t generalizing root with
  | leaf bytes =>
    obtain ⟨hId, offset, record, hNode, hSlice, hRecord, hRoot⟩ := h
    exact ⟨hId, offset, record, hGrows.getElem? hNode, hGrows.slice hSlice, hRecord, hRoot⟩
  | node l r ihl ihr =>
    obtain ⟨hId, left, right, record, hNode, hRecord, hRoot, hLeft, hRight, hl, hr⟩ := h
    exact ⟨hId, left, right, record, hGrows.getElem? hNode, hRecord, hRoot, hLeft, hRight,
      ihl hl, ihr hr⟩

/-- The metadata of a root describes its rope. -/
theorem Denotes.metadata (h : Denotes sha256 a t root) :
    root.height = t.height ∧ root.logicalLen = t.length ∧ t.length < width 64 := by
  induction t generalizing root with
  | leaf bytes =>
    obtain ⟨-, offset, record, -, -, hRecord, hRoot⟩ := h
    obtain ⟨⟨-, -, hEnd⟩, rfl⟩ := leaf_eq_ok.mp hRecord
    obtain ⟨-, hLen, hHeight⟩ := fromNode_fields hRoot
    exact ⟨hHeight, hLen, by rw [Rope.length_leaf]; omega⟩
  | node l r ihl ihr =>
    obtain ⟨-, left, right, record, -, hRecord, hRoot, -, -, hl, hr⟩ := h
    obtain ⟨-, -, -, -, hLen, rfl⟩ := branch_eq_ok.mp hRecord
    obtain ⟨-, hRootLen, hRootHeight⟩ := fromNode_fields hRoot
    obtain ⟨hlHeight, hlLen, -⟩ := ihl hl
    obtain ⟨hrHeight, hrLen, -⟩ := ihr hr
    rw [hlLen, hrLen] at hLen
    exact ⟨by simp [hRootHeight, hlHeight, hrHeight], by simp [hRootLen, hlLen, hrLen],
      by simpa using hLen⟩

theorem Denotes.height (h : Denotes sha256 a t root) : root.height = t.height := h.metadata.1

theorem Denotes.logicalLen (h : Denotes sha256 a t root) : root.logicalLen = t.length :=
  h.metadata.2.1

theorem Denotes.balanced (h : Denotes sha256 a t root) : t.Balanced := by
  induction t generalizing root with
  | leaf bytes => trivial
  | node l r ihl ihr =>
    obtain ⟨-, left, right, record, -, hRecord, -, -, -, hl, hr⟩ := h
    obtain ⟨-, -, hBal, -⟩ := branch_eq_ok.mp hRecord
    rw [hl.height, hr.height] at hBal
    exact ⟨hBal, ihl hl, ihr hr⟩

theorem Denotes.chunked (h : Denotes sha256 a t root) : t.Chunked maxLeafPayloadBytes := by
  induction t generalizing root with
  | leaf bytes =>
    obtain ⟨-, offset, record, -, -, hRecord, -⟩ := h
    obtain ⟨⟨hPos, hMax, -⟩, -⟩ := leaf_eq_ok.mp hRecord
    exact ⟨hPos, hMax⟩
  | node l r ihl ihr =>
    obtain ⟨-, left, right, record, -, -, -, -, -, hl, hr⟩ := h
    exact ⟨ihl hl, ihr hr⟩

theorem Denotes.length_pos (h : Denotes sha256 a t root) : 1 ≤ t.length := Rope.length_pos h.chunked

theorem Denotes.id_lt (h : Denotes sha256 a t root) : root.nodeId < width 64 := by
  cases t with
  | leaf bytes => exact h.1
  | node l r => exact h.1

theorem Denotes.root_eq (h : Denotes sha256 a t root) :
    ∃ node, a.nodes[root.nodeId]? = some node ∧
      V2RootRecord.fromNode root.nodeId node.record = .ok root := by
  cases t with
  | leaf bytes =>
    obtain ⟨-, offset, record, hNode, -, -, hRoot⟩ := h
    exact ⟨_, hNode, hRoot⟩
  | node l r =>
    obtain ⟨-, left, right, record, hNode, -, hRoot, -⟩ := h
    exact ⟨_, hNode, hRoot⟩

theorem nodeForRootOn_eq_ok {node : ArenaNode} :
    nodeForRootOn a root = .ok node ↔ root.nodeId < width 64 ∧
      a.nodes[root.nodeId]? = some node ∧
      V2RootRecord.fromNode root.nodeId node.record = .ok root := by
  simp only [nodeForRootOn, liftFormat, bind_eq_ok, loadNode_eq_ok, mapErr_eq_ok, failIf_eq_ok,
    pure_eq_ok]
  constructor
  · rintro ⟨_, ⟨hId, hNode⟩, canonical, hRoot, _, hSame, rfl⟩
    rw [not_ne_iff] at hSame
    subst hSame
    exact ⟨hId, hNode, hRoot⟩
  · rintro ⟨hId, hNode, hRoot⟩
    exact ⟨node, ⟨hId, hNode⟩, root, hRoot, (), by simp, rfl⟩

/-- A root that resolves stands for a rope, also when it was forged. -/
theorem WellFormed.denotes (hWf : WellFormed sha256 a) {node : ArenaNode}
    (h : nodeForRootOn a root = .ok node) : ∃ t, Denotes sha256 a t root := by
  obtain ⟨-, hNode, hRoot⟩ := nodeForRootOn_eq_ok.mp h
  obtain ⟨t, root', hRoot', hDenotes⟩ := hWf _ _ hNode
  rw [hRoot] at hRoot'
  cases hRoot'
  exact ⟨t, hDenotes⟩

theorem Denotes.nodeForRootOn (h : Denotes sha256 a t root) :
    ∃ node, nodeForRootOn a root = .ok node := by
  obtain ⟨node, hNode, hRoot⟩ := h.root_eq
  exact ⟨node, nodeForRootOn_eq_ok.mpr ⟨h.id_lt, hNode, hRoot⟩⟩

/-- A root stands for one rope only. -/
theorem Denotes.unique {t' : Rope UInt8} (h : Denotes sha256 a t root)
    (h' : Denotes sha256 a t' root) : t = t' := by
  induction t generalizing root t' with
  | leaf bytes =>
    obtain ⟨-, offset, record, hNode, hSlice, -, -⟩ := h
    cases t' with
    | leaf bytes' =>
      obtain ⟨-, offset', record', hNode', hSlice', -, -⟩ := h'
      rw [hNode] at hNode'
      simp only [Option.some.injEq, ArenaNode.leaf.injEq] at hNode'
      obtain ⟨rfl, hLen, rfl⟩ := hNode'
      rw [← hLen, hSlice] at hSlice'
      cases hSlice'
      rfl
    | node l r =>
      obtain ⟨-, left, right, record', hNode', -⟩ := h'
      rw [hNode] at hNode'
      cases hNode'
  | node l r ihl ihr =>
    obtain ⟨-, left, right, record, hNode, -, -, -, -, hl, hr⟩ := h
    cases t' with
    | leaf bytes' =>
      obtain ⟨-, offset', record', hNode', -⟩ := h'
      rw [hNode] at hNode'
      cases hNode'
    | node l' r' =>
      obtain ⟨-, left', right', record', hNode', -, -, -, -, hl', hr'⟩ := h'
      rw [hNode] at hNode'
      cases hNode'
      rw [ihl hl hl', ihr hr hr']

theorem validateNodeOn_leaf {offset : Nat} {record : V2NodeRecord} {bytes : Bytes}
    (hSlice : slice a.payload offset (offset + bytes.length) = some bytes)
    (hRecord : V2NodeRecord.leaf sha256 offset bytes = .ok record) :
    validateNodeOn sha256 a (.leaf offset bytes.length record) = .ok () := by
  obtain ⟨⟨-, -, hEnd⟩, -⟩ := leaf_eq_ok.mp hRecord
  simp only [validateNodeOn, checkedAdd_of_lt hEnd, okOr_some, ok_bind,
    readPayload_eq_ok.mpr ⟨by omega, hEnd, hSlice⟩, hRecord, liftFormat, mapErr_ok]
  exact failIf_neg (by simp)

theorem validateNodeOn_branch {left right : V2RootRecord} {record : V2NodeRecord}
    (hRecord : V2NodeRecord.branch sha256 left right = .ok record) :
    validateNodeOn sha256 a (.branch left right record) = .ok () := by
  simp only [validateNodeOn, hRecord, liftFormat, mapErr_ok, ok_bind]
  exact failIf_neg (by simp)

/-- A sequence of less than `2 ^ 64` bytes has fewer than 94 levels. -/
theorem height_lt_of_chunked {t : Rope UInt8} (hBal : t.Balanced)
    (hChunk : t.Chunked maxLeafPayloadBytes) (hLen : t.length < width 64) : t.height < 94 := by
  refine Rope.height_lt_of_length_lt hBal hChunk (lt_of_lt_of_le hLen ?_)
  decide +kernel

theorem Denotes.height_lt (h : Denotes sha256 a t root) : t.height < 94 :=
  height_lt_of_chunked h.balanced h.chunked h.metadata.2.2

end Facts

end TulyaStore.Sequence
