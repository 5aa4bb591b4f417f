import TulyaStore.Checkpoint.Encoders
import TulyaStore.Checkpoint.ReaderSpec

/-!
# The node table

`TableOk s`: every node of an eager state decodes, its leaf lies inside the arena and its
children come before it, so every node denotes bytes (`TableOk.denotes`). `NodesOk s` is the
same of a state that only the store's own encoders filled. A state that only grows keeps all
denotations (`Extends.denotes`). The slots of an addition decode to the nodes they were written
for, so appending keeps `NodesOk`.
-/

namespace TulyaStore.Checkpoint

open Lib

/-- The number of compact nodes. -/
def StoreState.nodeCount (s : StoreState) : Nat := s.compactNodes.length / compactNodeSize

/-- The node lies inside the state: leaf bytes in the arena, children before the node. -/
def DecodedNode.Within (i arenaLen : Nat) : DecodedNode → Prop
  | .leaf offset length => offset + length ≤ arenaLen ∧ length < 2 ^ 32
  | .binary left right => left < i ∧ right < i

theorem DecodedNode.Within.mono {node : DecodedNode} {i a b : Nat} (h : node.Within i a)
    (hab : a ≤ b) : node.Within i b := by
  cases node with
  | leaf offset length => exact ⟨h.1.trans hab, h.2⟩
  | binary left right => exact h

/-- A wide record as the store writes it: kind, four zero bytes, three fields. -/
def wideRecord (kind a b c : Nat) : Bytes :=
  leBytes 4 kind ++ leBytes 4 0 ++ leBytes 8 a ++ leBytes 8 b ++ leBytes 8 c

/-- The record is one the store writes. -/
def CanonicalWide (record : Bytes) : Prop :=
  ∃ kind a b c, (kind = wideKindLeaf ∨ kind = wideKindBinary) ∧ record = wideRecord kind a b c

structure NodesOk (s : StoreState) : Prop where
  base : s.baseGeometry = none
  compactAligned : compactNodeSize ∣ s.compactNodes.length
  wideAligned : wideRecordSize ∣ s.wideNodes.length
  arenaLt : s.arenaBytes.length < 2 ^ 64
  nodesLt : s.nodeCount < 2 ^ 64
  wideLt : s.wideNodes.length < 2 ^ 64
  node : ∀ i < s.nodeCount, ∃ node, decodeNode s i = .ok node ∧ node.Within i s.arenaBytes.length
  wide : ∀ record ∈ chunksExact wideRecordSize s.wideNodes, CanonicalWide record

/-- The node refers to bytes of the arena or to earlier nodes. -/
def DecodedNode.Inside (i arenaLen : Nat) : DecodedNode → Prop
  | .leaf offset length => offset + length ≤ arenaLen
  | .binary left right => left < i ∧ right < i

structure TableOk (s : StoreState) : Prop where
  base : s.baseGeometry = none
  compactAligned : compactNodeSize ∣ s.compactNodes.length
  wideAligned : wideRecordSize ∣ s.wideNodes.length
  arenaLt : s.arenaBytes.length < 2 ^ 64
  node : ∀ i < s.nodeCount, ∃ node, decodeNode s i = .ok node ∧ node.Inside i s.arenaBytes.length

theorem NodesOk.tableOk {s : StoreState} (h : NodesOk s) : TableOk s where
  base := h.base
  compactAligned := h.compactAligned
  wideAligned := h.wideAligned
  arenaLt := h.arenaLt
  node i hi := by
    obtain ⟨node, hDecode, hWithin⟩ := h.node i hi
    refine ⟨node, hDecode, ?_⟩
    cases node with
    | leaf offset length => exact hWithin.1
    | binary left right => exact hWithin

/-! ## Growth -/

/-- `s'` holds the bytes and nodes of `s`, followed by more. -/
structure Extends (s s' : StoreState) : Prop where
  base : s.baseGeometry = none
  base' : s'.baseGeometry = none
  arena : s.arenaBytes <+: s'.arenaBytes
  compact : s.compactNodes <+: s'.compactNodes
  wide : s.wideNodes <+: s'.wideNodes

theorem Extends.refl {s : StoreState} (h : s.baseGeometry = none) : Extends s s :=
  ⟨h, h, List.prefix_rfl, List.prefix_rfl, List.prefix_rfl⟩

theorem Extends.trans {s t u : StoreState} (h : Extends s t) (h' : Extends t u) : Extends s u :=
  ⟨h.base, h'.base', h.arena.trans h'.arena, h.compact.trans h'.compact, h.wide.trans h'.wide⟩

theorem slice_of_prefix {α : Type} {xs ys zs : List α} {a b : Nat} (h : xs <+: ys)
    (hs : slice xs a b = some zs) : slice ys a b = some zs := by
  obtain ⟨t, rfl⟩ := h
  exact slice_append hs

@[simp] theorem lazyBaseGeometry_of_none {s : StoreState} (h : s.baseGeometry = none) :
    s.lazyBaseGeometry = .zero := by
  simp [StoreState.lazyBaseGeometry, h]

/-- Decoding in an eager state: the slot at the node's place. -/
theorem decodeNode_eq {s : StoreState} (h : s.baseGeometry = none) (i : Nat) :
    decodeNode s i = (do
      let slot ← okOr (slice s.compactNodes (i * compactNodeSize)
        (i * compactNodeSize + compactNodeSize)) (.format "node id outside committed compact nodes")
      decodeSlot s i slot) := by
  simp only [decodeNode, lazyBaseGeometry_of_none h, Geometry.zero, Nat.sub_zero]
  rw [failIf_neg (by omega), ok_bind]

theorem Extends.decodeSlot {s s' : StoreState} (h : Extends s s') {i : Nat} {slot : Bytes}
    {node : DecodedNode} (hd : decodeSlot s i slot = .ok node) :
    decodeSlot s' i slot = .ok node := by
  simp only [Checkpoint.decodeSlot, lazyBaseGeometry_of_none h.base,
    lazyBaseGeometry_of_none h.base', Geometry.zero] at hd ⊢
  obtain ⟨kind, hKind, hd⟩ := bind_eq_ok.mp hd
  rw [hKind, ok_bind]
  by_cases hLeaf : kind = kindLeaf
  · rw [if_pos hLeaf] at hd ⊢
    exact hd
  rw [if_neg hLeaf] at hd ⊢
  by_cases hBinary : kind = kindBinary
  · rw [if_pos hBinary] at hd ⊢
    exact hd
  rw [if_neg hBinary] at hd ⊢
  by_cases hWide : kind = kindWide
  · rw [if_pos hWide] at hd ⊢
    obtain ⟨index, hIndex, hd⟩ := bind_eq_ok.mp hd
    obtain ⟨_, hBase, hd⟩ := bind_eq_ok.mp hd
    obtain ⟨record, hRecord, hd⟩ := bind_eq_ok.mp hd
    rw [okOr_eq_ok] at hRecord
    rw [hIndex, ok_bind, hBase, ok_bind, slice_of_prefix h.wide hRecord, okOr_some, ok_bind]
    exact hd
  · rw [if_neg hWide] at hd
    exact absurd hd (by simp)

theorem Extends.decodeNode {s s' : StoreState} (h : Extends s s') {i : Nat} {node : DecodedNode}
    (hd : decodeNode s i = .ok node) : decodeNode s' i = .ok node := by
  rw [decodeNode_eq h.base] at hd
  obtain ⟨slot, hSlot, hd⟩ := bind_eq_ok.mp hd
  rw [okOr_eq_ok] at hSlot
  rw [decodeNode_eq h.base', slice_of_prefix h.compact hSlot, okOr_some, ok_bind]
  exact h.decodeSlot hd

theorem Extends.denotes {s s' : StoreState} (h : Extends s s') {n : Nat} {bs : Bytes}
    (hd : Denotes (eagerReader s) n bs) : Denotes (eagerReader s') n bs := by
  have hBytes : ∀ (a b : Nat) (xs : Bytes) (e : StoreError),
      okOr (slice s.arenaBytes a b) e = .ok xs →
      okOr (slice s'.arenaBytes a b) e = .ok xs := by
    intro a b xs e hs
    rw [okOr_eq_ok] at hs ⊢
    exact slice_of_prefix h.arena hs
  induction hd with
  | leaf hDecode hLeaf hRange hBound =>
    refine .leaf (h.decodeNode hDecode) (hBytes _ _ _ _ hLeaf) ?_ hBound
    intro o l hIn
    have hOld := hRange o l hIn
    simp only [eagerReader, lazyBaseGeometry_of_none h.base, lazyBaseGeometry_of_none h.base',
      Geometry.zero, Nat.not_lt_zero, if_false, Nat.sub_zero] at hOld ⊢
    exact hBytes _ _ _ _ hOld
  | binary hDecode hLeft hRight _ _ ihx ihy =>
    exact .binary (h.decodeNode hDecode) hLeft hRight ihx ihy

/-! ## Denotations -/

/-- A leaf that lies in the arena denotes its bytes. -/
theorem denotes_leaf {s : StoreState} (hBase : s.baseGeometry = none)
    (hLt : s.arenaBytes.length < 2 ^ 64) {i offset : Nat} {bs : Bytes}
    (hDecode : decodeNode s i = .ok (.leaf offset bs.length))
    (hBytes : slice s.arenaBytes offset (offset + bs.length) = some bs) :
    Denotes (eagerReader s) i bs := by
  have hIn := (slice_eq_some.mp hBytes).2.1
  refine .leaf hDecode ?_ ?_ (by omega)
  · simp [eagerReader, hBytes]
  · intro o l hLen
    have hSub := slice_slice hBytes (Nat.le_add_right o l) hLen
    simp only [eagerReader, lazyBaseGeometry_of_none hBase, Geometry.zero, Nat.not_lt_zero,
      if_false, Nat.sub_zero]
    rw [Nat.add_assoc, hSub, okOr_some, Nat.add_sub_cancel_left]

/-- Every node of the table denotes bytes. -/
theorem TableOk.denotes {s : StoreState} (h : TableOk s) (i : Nat) (hi : i < s.nodeCount) :
    ∃ bs, Denotes (eagerReader s) i bs := by
  induction i using Nat.strongRecOn with
  | ind i ih =>
    obtain ⟨node, hDecode, hInside⟩ := h.node i hi
    cases node with
    | leaf offset length =>
      obtain ⟨bs, hBytes⟩ : ∃ bs, slice s.arenaBytes offset (offset + length) = some bs :=
        ⟨_, slice_eq_some.mpr ⟨by omega, hInside, rfl⟩⟩
      have hLen := length_of_slice hBytes
      rw [Nat.add_sub_cancel_left] at hLen
      subst hLen
      exact ⟨bs, denotes_leaf h.base h.arenaLt hDecode hBytes⟩
    | binary left right =>
      obtain ⟨x, hx⟩ := ih left hInside.1 (hInside.1.trans hi)
      obtain ⟨y, hy⟩ := ih right hInside.2 (hInside.2.trans hi)
      exact ⟨x ++ y, .binary hDecode hInside.1 hInside.2 hx hy⟩

theorem NodesOk.denotes {s : StoreState} (h : NodesOk s) (i : Nat) (hi : i < s.nodeCount) :
    ∃ bs, Denotes (eagerReader s) i bs := h.tableOk.denotes i hi

theorem Denotes.unique {R : NodeReader} {n : Nat} {x y : Bytes} (hx : Denotes R n x)
    (hy : Denotes R n y) : x = y := by
  have hRead : ∀ bs, Denotes R n bs → bs.length ≤ x.length + y.length →
      extractRoot R (x.length + y.length) n = .ok bs := by
    intro bs hDenotes hLe
    rw [extractRoot_eq hDenotes, if_pos hLe]
  exact Except.ok.inj ((hRead x hx (by omega)).symm.trans (hRead y hy (by omega)))

/-! ## Slots -/

theorem compactLeaf_fields {offset length : Nat} (hOffset : offset < 2 ^ 64)
    (hLength : length < 2 ^ 32) : readU32 (compactLeaf offset length) 12 = .ok kindLeaf ∧
      readU64 (compactLeaf offset length) 0 = .ok offset ∧
      readU32 (compactLeaf offset length) 8 = .ok length := by
  refine ⟨?_, ?_, ?_⟩
  · apply readU32_of
    simp only [compactLeaf, List.append_assoc, readLe_leBytes_skip, Nat.reduceLeDiff, Nat.reduceSub]
    exact readLe_last (by decide)
  · apply readU64_of
    simp only [compactLeaf, List.append_assoc]
    exact readLe_here _ hOffset
  · apply readU32_of
    simp only [compactLeaf, List.append_assoc, readLe_leBytes_skip, Nat.reduceLeDiff, Nat.reduceSub]
    exact readLe_here _ hLength

theorem compactBinary_fields {l r : Nat} (hl : l < 2 ^ 32) (hr : r < 2 ^ 32) :
    readU32 (compactBinary l r) 12 = .ok kindBinary ∧ readU32 (compactBinary l r) 0 = .ok l ∧
      readU32 (compactBinary l r) 4 = .ok r := by
  refine ⟨?_, ?_, ?_⟩
  · apply readU32_of
    simp only [compactBinary, List.append_assoc, readLe_leBytes_skip, Nat.reduceLeDiff,
      Nat.reduceSub]
    exact readLe_last (by decide)
  · apply readU32_of
    simp only [compactBinary, List.append_assoc]
    exact readLe_here _ hl
  · apply readU32_of
    simp only [compactBinary, List.append_assoc, readLe_leBytes_skip, Nat.reduceLeDiff,
      Nat.reduceSub]
    exact readLe_here _ hr

theorem decodeSlot_compactLeaf (s : StoreState) {i offset length : Nat} (hOffset : offset < 2 ^ 64)
    (hLength : length < 2 ^ 32) :
    decodeSlot s i (compactLeaf offset length) = .ok (.leaf offset length) := by
  obtain ⟨hKind, h0, h8⟩ := compactLeaf_fields hOffset hLength
  rw [decodeSlot, hKind, ok_bind, if_pos rfl, h0, ok_bind, h8, ok_bind]

theorem decodeSlot_compactBinary (s : StoreState) {i l r : Nat} (hl : l < 2 ^ 32)
    (hr : r < 2 ^ 32) (hl0 : 0 < l) (hr0 : 0 < r) (hli : l ≤ i) (hri : r ≤ i) :
    decodeSlot s i (compactBinary l r) = .ok (.binary (i - l) (i - r)) := by
  obtain ⟨hKind, h0, h4⟩ := compactBinary_fields hl hr
  have hDeltas : ¬ (l = 0 ∨ r = 0 ∨ l > i ∨ r > i) := by omega
  rw [decodeSlot, hKind, ok_bind, if_neg (by decide), if_pos rfl, h0, ok_bind, h4, ok_bind,
    failIf_neg hDeltas, ok_bind]

/-! ## Appending slots -/

theorem nodeCount_mul {s : StoreState} (h : compactNodeSize ∣ s.compactNodes.length) :
    s.compactNodes.length = s.nodeCount * compactNodeSize := by
  rw [StoreState.nodeCount, Nat.div_mul_cancel h]

/-- A node of an appended slot decodes to what the slot says. -/
theorem decodeNode_appended {s s' : StoreState} {slots : List Bytes}
    (hBase : s'.baseGeometry = none) (hAligned : compactNodeSize ∣ s.compactNodes.length)
    (hCompact : s'.compactNodes = s.compactNodes ++ slots.flatten)
    (hSlots : ∀ slot ∈ slots, slot.length = compactNodeSize) {k : Nat} {slot : Bytes}
    (hk : slots[k]? = some slot) :
    decodeNode s' (s.nodeCount + k) = decodeSlot s' (s.nodeCount + k) slot := by
  have hSlice : slice s'.compactNodes ((s.nodeCount + k) * compactNodeSize)
      ((s.nodeCount + k) * compactNodeSize + compactNodeSize) = some slot := by
    have hRecord := slice_record hSlots hk []
    rw [List.append_nil] at hRecord
    rw [hCompact, Nat.add_mul, ← nodeCount_mul hAligned, Nat.add_assoc, slice_skip]
    exact hRecord
  rw [decodeNode_eq hBase, hSlice, okOr_some, ok_bind]

/-- The number of nodes behind appended slots. -/
theorem nodeCount_appended {s s' : StoreState} {slots : List Bytes}
    (hAligned : compactNodeSize ∣ s.compactNodes.length)
    (hCompact : s'.compactNodes = s.compactNodes ++ slots.flatten)
    (hSlots : ∀ slot ∈ slots, slot.length = compactNodeSize) :
    s'.nodeCount = s.nodeCount + slots.length := by
  have hPos : 0 < compactNodeSize := by decide
  rw [StoreState.nodeCount, hCompact, List.length_append, nodeCount_mul hAligned,
    length_flatten_records hSlots, ← Nat.add_mul, Nat.mul_div_cancel _ hPos]

/-- Every new slot decodes to a node inside the grown state. -/
def SlotsOk (s' : StoreState) (start : Nat) (slots : List Bytes) : Prop :=
  ∀ k slot, slots[k]? = some slot → slot.length = compactNodeSize ∧
    ∃ node, decodeSlot s' (start + k) slot = .ok node ∧
      node.Within (start + k) s'.arenaBytes.length

section Append

variable {s s' : StoreState} {payload : Bytes} {slots : List Bytes}

theorem SlotsOk.length {start : Nat} (h : SlotsOk s' start slots) :
    ∀ slot ∈ slots, slot.length = compactNodeSize := by
  intro slot hSlot
  obtain ⟨k, hk⟩ := List.mem_iff_getElem?.mp hSlot
  exact (h k slot hk).1

/-- The state with a payload and node slots appended. -/
structure Grown (s s' : StoreState) (payload : Bytes) (slots : List Bytes) : Prop where
  base : s'.baseGeometry = s.baseGeometry
  arena : s'.arenaBytes = s.arenaBytes ++ payload
  compact : s'.compactNodes = s.compactNodes ++ slots.flatten
  wide : s'.wideNodes = s.wideNodes
  slots : SlotsOk s' s.nodeCount slots

theorem Grown.extends (hg : Grown s s' payload slots) (h : s.baseGeometry = none) :
    Extends s s' where
  base := h
  base' := hg.base.trans h
  arena := hg.arena ▸ List.prefix_append _ _
  compact := hg.compact ▸ List.prefix_append _ _
  wide := hg.wide ▸ List.prefix_rfl

theorem Grown.nodeCount (hg : Grown s s' payload slots) (h : NodesOk s) :
    s'.nodeCount = s.nodeCount + slots.length :=
  nodeCount_appended h.compactAligned hg.compact hg.slots.length

/-- A new node decodes to what its slot says. -/
theorem Grown.decodeNode (hg : Grown s s' payload slots) (h : NodesOk s) {k : Nat} {slot : Bytes}
    (hk : slots[k]? = some slot) :
    decodeNode s' (s.nodeCount + k) = decodeSlot s' (s.nodeCount + k) slot :=
  decodeNode_appended (hg.base.trans h.base) h.compactAligned hg.compact hg.slots.length hk

theorem NodesOk.append (h : NodesOk s) (hg : Grown s s' payload slots)
    (hArena : (s.arenaBytes ++ payload).length < 2 ^ 64)
    (hNodes : s.nodeCount + slots.length < 2 ^ 64) : NodesOk s' where
  base := hg.base.trans h.base
  compactAligned := by
    rw [hg.compact, List.length_append, length_flatten_records hg.slots.length]
    exact Nat.dvd_add h.compactAligned (Nat.dvd_mul_left _ _)
  wideAligned := hg.wide ▸ h.wideAligned
  arenaLt := hg.arena ▸ hArena
  nodesLt := by rwa [hg.nodeCount h]
  wideLt := hg.wide ▸ h.wideLt
  node := by
    intro i hi
    rw [hg.nodeCount h] at hi
    by_cases hOld : i < s.nodeCount
    · obtain ⟨node, hDecode, hWithin⟩ := h.node i hOld
      have hGrow : s.arenaBytes.length ≤ s'.arenaBytes.length := by simp [hg.arena]
      exact ⟨node, (hg.extends h.base).decodeNode hDecode, hWithin.mono hGrow⟩
    · obtain ⟨k, rfl⟩ : ∃ k, i = s.nodeCount + k := ⟨i - s.nodeCount, by omega⟩
      have hk : slots[k]? = some slots[k] := List.getElem?_eq_getElem (by omega)
      obtain ⟨_, node, hDecode, hWithin⟩ := hg.slots k _ hk
      exact ⟨node, (hg.decodeNode h hk).trans hDecode, hWithin⟩
  wide := hg.wide ▸ h.wide

/-- A new leaf slot over a part of the payload denotes that part. -/
theorem Grown.denotes_leaf (hg : Grown s s' payload slots) (h : NodesOk s)
    (hArena : (s.arenaBytes ++ payload).length < 2 ^ 64) {k o : Nat} {bs : Bytes}
    (hk : slots[k]? = some (compactLeaf (s.arenaBytes.length + o) bs.length))
    (hLen : bs.length < 2 ^ 32) (hBytes : slice payload o (o + bs.length) = some bs) :
    Denotes (eagerReader s') (s.nodeCount + k) bs := by
  have hSlice : slice s'.arenaBytes (s.arenaBytes.length + o)
      (s.arenaBytes.length + o + bs.length) = some bs := by
    rw [hg.arena, Nat.add_assoc, slice_skip]
    exact hBytes
  have hIn := (slice_eq_some.mp hBytes).2.1
  rw [List.length_append] at hArena
  have hDecode : Checkpoint.decodeNode s' (s.nodeCount + k) =
      .ok (.leaf (s.arenaBytes.length + o) bs.length) := by
    rw [hg.decodeNode h hk]
    exact decodeSlot_compactLeaf s' (by omega) hLen
  refine Checkpoint.denotes_leaf (hg.base.trans h.base) ?_ hDecode hSlice
  rw [hg.arena, List.length_append]
  exact hArena

end Append

end TulyaStore.Checkpoint
