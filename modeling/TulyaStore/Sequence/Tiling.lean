import TulyaStore.Sequence.Atomicity
import TulyaStore.Sequence.Compaction

/-!
# How the leaves divide the payload

Every leaf owns a range of the payload. `Tiles` says that ranges follow each other without a
gap, and an arena is `Tiled` when the ranges of its leaves, in the order of the nodes, do so
from the first to the last byte. An edit appends the payload of a leaf together with its node,
so a successful edit keeps the tiling and a failed one is undone.
-/

namespace TulyaStore.Sequence

open Lib ArenaStore V2AvlSequence

/-! ## Ranges -/

/-- The first range ends where the second starts, or earlier. -/
def Before (r s : V2RetainedPayloadRange) : Prop := r.offset + r.length ≤ s.offset

/-- Two ranges share no byte. -/
def Apart (r s : V2RetainedPayloadRange) : Prop := Before r s ∨ Before s r

theorem Apart.symm {r s : V2RetainedPayloadRange} (h : Apart r s) : Apart s r := Or.symm h

/-- The ranges follow each other from `start` to `stop`. -/
def Tiles : Nat → List V2RetainedPayloadRange → Nat → Prop
  | start, [], stop => start = stop
  | start, r :: ranges, stop => r.offset = start ∧ Tiles (start + r.length) ranges stop

section Ranges

variable {start stop : Nat} {ranges : List V2RetainedPayloadRange}

theorem tiles_append {rs : List V2RetainedPayloadRange} :
    Tiles start (ranges ++ rs) stop ↔ ∃ middle, Tiles start ranges middle ∧ Tiles middle rs stop := by
  induction ranges generalizing start with
  | nil => simp [Tiles]
  | cons r ranges ih => simp [Tiles, ih, and_assoc]

theorem Tiles.le (h : Tiles start ranges stop) : start ≤ stop := by
  induction ranges generalizing start with
  | nil => exact Nat.le_of_eq h
  | cons r ranges ih =>
    have hRest := ih h.2
    omega

/-- Where the ranges end is decided by where they start. -/
theorem Tiles.stop_eq {stop' : Nat} (h : Tiles start ranges stop) (h' : Tiles start ranges stop') :
    stop = stop' := by
  induction ranges generalizing start with
  | nil => exact Eq.trans (Eq.symm h) h'
  | cons r ranges ih => exact ih h.2 h'.2

theorem Tiles.mem (h : Tiles start ranges stop) {r : V2RetainedPayloadRange} (hMem : r ∈ ranges) :
    start ≤ r.offset ∧ r.offset + r.length ≤ stop := by
  induction ranges generalizing start with
  | nil => exact absurd hMem List.not_mem_nil
  | cons head ranges ih =>
    obtain ⟨hOffset, hRest⟩ := h
    rcases List.mem_cons.mp hMem with rfl | hMem
    · have := hRest.le
      omega
    · have := ih hRest hMem
      omega

theorem Tiles.pairwise (h : Tiles start ranges stop) : ranges.Pairwise Before := by
  induction ranges generalizing start with
  | nil => exact List.Pairwise.nil
  | cons r ranges ih =>
    obtain ⟨hOffset, hRest⟩ := h
    refine List.pairwise_cons.mpr ⟨?_, ih hRest⟩
    intro s hMem
    have := (hRest.mem hMem).1
    unfold Before
    omega

/-- A tiling is empty or ends with its last range. -/
theorem Tiles.eq_or_last (h : Tiles start ranges stop) :
    start = stop ∨ ∃ r ∈ ranges, r.offset + r.length = stop := by
  induction ranges generalizing start with
  | nil => exact Or.inl h
  | cons r ranges ih =>
    obtain ⟨rfl, hRest⟩ := h
    rcases ih hRest with hEnd | ⟨s, hMem, hEnd⟩
    · exact Or.inr ⟨r, List.mem_cons_self, hEnd⟩
    · exact Or.inr ⟨s, List.mem_cons_of_mem r hMem, hEnd⟩

/-- What the ranges of a tiling hold, put together. -/
theorem Tiles.flatMap_slice {payload : Bytes} (h : Tiles start ranges stop)
    (hInside : stop ≤ payload.length) :
    ranges.flatMap (fun r => (slice payload r.offset (r.offset + r.length)).getD []) =
      (payload.drop start).take (stop - start) := by
  induction ranges generalizing start with
  | nil =>
    obtain rfl : start = stop := h
    simp
  | cons r ranges ih =>
    obtain ⟨rfl, hRest⟩ := h
    have hLe := hRest.le
    have hSlice : slice payload r.offset (r.offset + r.length) =
        some ((payload.drop r.offset).take r.length) :=
      slice_eq_some.mpr ⟨by omega, by omega, by rw [Nat.add_sub_cancel_left]⟩
    rw [List.flatMap_cons, hSlice, ih hRest, Option.getD_some, ← List.drop_drop]
    rw [show stop - r.offset = r.length + (stop - (r.offset + r.length)) by omega,
      ← List.take_add]

end Ranges

/-! ## The leaves of an arena -/

def leafRange : ArenaNode → Option V2RetainedPayloadRange
  | .leaf offset len _ => some ⟨offset, len⟩
  | .branch .. => none

/-- The ranges of the leaves, in the order of the nodes. -/
def leafRanges (nodes : List ArenaNode) : List V2RetainedPayloadRange := nodes.filterMap leafRange

/-- The leaves in the order of their nodes own the payload, each byte once. -/
def Tiled (a : V2AvlSequence) : Prop := Tiles 0 (leafRanges a.nodes) a.payload.length

theorem tiled_empty : Tiled empty := rfl

/-! ## Edits -/

/-- The nodes a successful edit adds tile the payload it adds. -/
def TilesOn (a b : V2AvlSequence) : Prop :=
  ∃ nodes, b.nodes = a.nodes ++ nodes ∧ Tiles a.payload.length (leafRanges nodes) b.payload.length

theorem TilesOn.refl (a : V2AvlSequence) : TilesOn a a := ⟨[], by simp, rfl⟩

theorem TilesOn.trans {a b c : V2AvlSequence} (hab : TilesOn a b) (hbc : TilesOn b c) :
    TilesOn a c := by
  obtain ⟨xs, hNodes, hTiles⟩ := hab
  obtain ⟨ys, hNodes', hTiles'⟩ := hbc
  refine ⟨xs ++ ys, by rw [hNodes', hNodes, List.append_assoc], ?_⟩
  rw [leafRanges, List.filterMap_append]
  exact tiles_append.mpr ⟨_, hTiles, hTiles'⟩

theorem TilesOn.tiled {a b : V2AvlSequence} (h : TilesOn a b) (hTiled : Tiled a) : Tiled b := by
  obtain ⟨nodes, hNodes, hTiles⟩ := h
  unfold Tiled
  rw [hNodes, leafRanges, List.filterMap_append]
  exact tiles_append.mpr ⟨_, hTiled, hTiles⟩

section Edits

variable {sha256 : Bytes → Digest}

/-- A pushed node is the only change. -/
theorem allocateNodeOn_run {node : ArenaNode} {s s' : EditState V2AvlSequence}
    {root : V2RootRecord} (h : allocateNodeOn node s = .ok root s') :
    s'.arena.payload = s.arena.payload ∧ s'.arena.nodes = s.arena.nodes ++ [node] := by
  unfold allocateNodeOn at h
  obtain ⟨nodeId, s₁, hId, h⟩ := bind_run_eq_ok.mp h
  obtain ⟨-, rfl⟩ := attempt_run_eq_ok.mp hId
  obtain ⟨root', s₂, hRoot, h⟩ := bind_run_eq_ok.mp h
  obtain ⟨-, rfl⟩ := attempt_run_eq_ok.mp hRoot
  obtain ⟨placed, s₃, hPush, h⟩ := bind_run_eq_ok.mp h
  obtain ⟨_, s₄, hCheck, h⟩ := bind_run_eq_ok.mp h
  obtain ⟨-, rfl⟩ := attempt_run_eq_ok.mp hCheck
  obtain ⟨-, rfl⟩ := pure_run_eq_ok.mp h
  unfold onArena at hPush
  simp only [arenaPushNode, pushNode] at hPush
  cases hFits : tryFrom 64 s.arena.nodes.length with
  | none =>
    rw [hFits] at hPush
    cases hPush
  | some n =>
    rw [hFits] at hPush
    cases hPush
    exact ⟨rfl, rfl⟩

theorem allocateLeafOn_run {bytes : Bytes} {s s' : EditState V2AvlSequence} {root : V2RootRecord}
    (h : allocateLeafOn sha256 bytes s = .ok root s') : TilesOn s.arena s'.arena := by
  unfold allocateLeafOn at h
  obtain ⟨offset, s₁, hOffset, h⟩ := bind_run_eq_ok.mp h
  obtain ⟨hLen, rfl⟩ := attempt_run_eq_ok.mp hOffset
  obtain ⟨record, s₂, hRecord, h⟩ := bind_run_eq_ok.mp h
  obtain ⟨hLeaf, rfl⟩ := attempt_run_eq_ok.mp hRecord
  obtain ⟨placed, s₃, hAppend, h⟩ := bind_run_eq_ok.mp h
  obtain ⟨_, s₄, hCheck, h⟩ := bind_run_eq_ok.mp h
  obtain ⟨-, rfl⟩ := attempt_run_eq_ok.mp hCheck
  obtain ⟨-, rfl⟩ := tryFrom_eq_some.mp (okOr_eq_ok.mp hLen)
  obtain ⟨-, hRecordEq⟩ := leaf_eq_ok.mp (mapErr_eq_ok.mp hLeaf)
  unfold onArena at hAppend
  simp only [arenaAppendPayload, appendPayload] at hAppend
  cases hFits : tryFrom 64 s.arena.payload.length with
  | none =>
    rw [hFits] at hAppend
    cases hAppend
  | some n =>
    rw [hFits] at hAppend
    cases hAppend
    obtain ⟨hPayload, hNodes⟩ := allocateNodeOn_run h
    refine ⟨_, hNodes, ?_⟩
    rw [hPayload, hRecordEq]
    simp [leafRanges, leafRange, Tiles, arenaPayloadLen]

theorem allocateBranchOn_run {left right : V2RootRecord} {s s' : EditState V2AvlSequence}
    {root : V2RootRecord} (h : allocateBranchOn sha256 left right s = .ok root s') :
    TilesOn s.arena s'.arena := by
  unfold allocateBranchOn at h
  obtain ⟨_, s₁, hInspect, h⟩ := bind_run_eq_ok.mp h
  cases hInspect
  obtain ⟨_, s₂, hLeft, h⟩ := bind_run_eq_ok.mp h
  obtain ⟨-, rfl⟩ := attempt_run_eq_ok.mp hLeft
  obtain ⟨_, s₃, hRight, h⟩ := bind_run_eq_ok.mp h
  obtain ⟨-, rfl⟩ := attempt_run_eq_ok.mp hRight
  obtain ⟨record, s₄, hRecord, h⟩ := bind_run_eq_ok.mp h
  obtain ⟨-, rfl⟩ := attempt_run_eq_ok.mp hRecord
  obtain ⟨hPayload, hNodes⟩ := allocateNodeOn_run h
  refine ⟨_, hNodes, ?_⟩
  rw [hPayload]
  exact rfl

theorem leads_of_run {α : Type} {R : V2AvlSequence → V2AvlSequence → Prop}
    {x : EditM V2AvlSequence α} (h : ∀ s s' r, x s = .ok r s' → R s.arena s'.arena) :
    Leads (fun s s' => R s.arena s'.arena) (fun _ _ => True) x := by
  intro s
  unfold Post
  cases hRun : x s with
  | ok r s' => exact h s s' r hRun
  | error e s' => trivial

/-- Successful edits tile what they append. -/
theorem editRelation_tilesOn (sha256 : Bytes → Digest) :
    EditRelation sha256 (fun s s' => TilesOn s.arena s'.arena) (fun _ _ => True) where
  refl _ := TilesOn.refl _
  trans _ _ _ hFirst hRest := hFirst.trans hRest
  stop _ := trivial
  after _ _ _ _ _ := trivial
  inspected _ _ := TilesOn.refl _
  leaf _ := leads_of_run fun _ _ _ hRun => allocateLeafOn_run hRun
  branch _ _ := leads_of_run fun _ _ _ hRun => allocateBranchOn_run hRun

theorem spliceOn_tilesOn {a b : V2AvlSequence} {parent : Option V2RootRecord}
    {offset deleteLen : Nat} {insert : Bytes} {result : V2SpliceResult}
    (h : spliceOn sha256 parent offset deleteLen insert a = .ok result b) : TilesOn a b := by
  unfold spliceOn at h
  have hInner := spliceInnerOn_leads (editRelation_tilesOn sha256) parent offset deleteLen insert
    ⟨a, 0⟩
  unfold Post at hInner
  cases hCheck : checkSplice sha256 a parent offset deleteLen insert with
  | error e =>
    rw [hCheck] at h
    cases h
  | ok u =>
    rw [hCheck] at h
    dsimp only at h
    cases hRun : spliceInnerOn sha256 parent offset deleteLen insert
        (⟨a, 0⟩ : EditState V2AvlSequence) with
    | error e s =>
      rw [hRun] at h
      cases h
    | ok root s =>
      rw [hRun] at h hInner
      cases h
      exact hInner

end Edits

end TulyaStore.Sequence
