import TulyaStore.Sequence.ArenaRuns
import TulyaStore.Sequence.Compacted
import TulyaStore.Sequence.ContentFiles

/-!
# The compaction of a generation follows the compaction in memory

Over files that hold an arena, what `compact_physical_generation` plans is what
`compact_to_roots` builds: the same payload, the records of the same nodes, and the same roots.
-/

namespace TulyaStore.Sequence

open Lib V2AvlSequence

variable {sha256 : Bytes → Digest} {a : V2AvlSequence} {payload nodes : Option Bytes}
  {generation : Nat}

theorem HoldsArena.readAllPayload (h : HoldsArena payload nodes generation a)
    (hAddressable : Addressable a) :
    (boundStore payload nodes generation a).readAllPayload = .ok a.payload := by
  have hRepresents := h.represents
  cases hPayload : a.payload with
  | cons byte rest =>
    have hAll := hRepresents.readPayloadRange hAddressable (by rw [hPayload]; simp)
      (slice_all a.payload)
    rw [hPayload] at hAll
    rw [PhysicalContentStore.readAllPayload, hRepresents.payloadEnd, hPayload]
    exact hAll
  | nil =>
    obtain ⟨tail, hFile⟩ := h.payload
    have hOpen : (boundStore payload nodes generation a).payloadFile =
        .ok (encodeHeader physicalPayloadMagic generation ++ (a.payload ++ tail)) := by
      rw [PhysicalContentStore.payloadFile, boundStore, hFile]
      rfl
    have hOffset : physicalHeaderSize + 0 < width 64 := by decide
    rw [PhysicalContentStore.readAllPayload, hRepresents.payloadEnd, hPayload,
      PhysicalContentStore.readPayloadRange, failIf_neg (by simp), ok_bind,
      failIf_neg (by simp), ok_bind, checkedAdd_of_lt hOffset, okOr_some, ok_bind, hOpen, ok_bind]
    rfl

/-- A root of the arena passes as a seed. -/
theorem HoldsArena.checkSeed (h : HoldsArena payload nodes generation a)
    (hWf : WellFormed sha256 a) (hAddressable : Addressable a) {t : Rope UInt8}
    {root : V2RootRecord} (hRoot : Denotes sha256 a t root) :
    Sequence.checkSeed (boundStore payload nodes generation a) root = .ok () := by
  obtain ⟨node, hNode, hFrom⟩ := hRoot.root_eq
  rw [Sequence.checkSeed, h.represents.loadRecord hWf hAddressable hNode, ok_bind, liftFormat,
    hFrom, mapErr_ok, ok_bind, failIf_neg (by simp)]

variable {roots : List V2RootRecord} {retained : List Nat} {ranges : List V2RetainedPayloadRange}

/-- The content of the next generation is that of the compact arena. -/
theorem HoldsArena.planPhysicalGeneration (h : HoldsArena payload nodes generation a)
    (hWf : WellFormed sha256 a) (hAddressable : Addressable a) (hLen : a.payload.length < width 64)
    (hRetained : Retained a retained ranges)
    (hRoots : ∀ root ∈ roots, ∃ t, Denotes sha256 a t root)
    (hPlan : planReachableArena a.payload (records a) (roots.map V2RootRecord.nodeId) =
      .ok (retained, ranges)) :
    Sequence.planPhysicalGeneration sha256 (boundStore payload nodes generation a) roots =
      .ok ((compactArena a retained ranges).payload, records (compactArena a retained ranges),
        retained.map (rankedEntry retained)) := by
  have hSeeds : roots.forM (Sequence.checkSeed (boundStore payload nodes generation a)) = .ok () :=
    forM_eq_ok fun root hMem => h.checkSeed hWf hAddressable (hRoots root hMem).choose_spec
  have hRecords : (boundStore payload nodes generation a).loadAllRecords = .ok (records a) :=
    h.represents.loadAllRecords hWf hAddressable
  have hCount : (records (compactArena a retained ranges)).length = retained.length := by
    rw [records, List.length_map, hRetained.length_nodes]
  rw [Sequence.planPhysicalGeneration, hSeeds, ok_bind, hRecords, ok_bind,
    h.readAllPayload hAddressable, ok_bind, hPlan, ok_bind]
  dsimp only
  rw [repackCompactRanges_ok hRetained hWf hLen, ok_bind]
  dsimp only
  rw [rebuildCompactRecords_ok hRetained hWf, ok_bind]
  dsimp only
  rw [failIf_neg (by rw [hCount]; simp), ok_bind]
  rfl

/-- The seeds in the next generation are the roots in the compact arena. -/
theorem relocateSeeds_ok (hWf : WellFormed sha256 a) (h : Retained a retained ranges)
    (hRoots : ∀ root ∈ roots, ∃ t, Denotes sha256 a t root)
    (hKept : ∀ root ∈ roots, root.nodeId ∈ retained) :
    relocateSeeds roots (records (compactArena a retained ranges))
        (retained.map (rankedEntry retained)) =
      .ok (roots.map (V2RootRecord.renumber (rank retained))) := by
  have hRemapped : roots.mapM (remappedSeed (records (compactArena a retained ranges))
      (retained.map (rankedEntry retained))) =
        .ok (roots.map (V2RootRecord.renumber (rank retained))) := by
    rw [mapM_eq_ok, List.forall₂_map_right_iff, List.forall₂_same]
    intro root hMem
    obtain ⟨t, hDenotes⟩ := hRoots root hMem
    have hIn := hKept root hMem
    obtain ⟨node, hNode, hFrom⟩ := (h.denotes hWf hDenotes hIn).root_eq
    have hRecord : (records (compactArena a retained ranges))[rank retained root.nodeId]? =
        some node.record := getElem?_records hNode
    rw [remappedSeed, remappedNodeId_ok hIn, ok_bind, remappedChild, hRecord, okOr_some, ok_bind,
      liftFormat]
    exact mapErr_eq_ok.mpr hFrom
  have hRelocated : (roots.zip (roots.map (V2RootRecord.renumber (rank retained)))).forM
      checkRelocated = .ok () := by
    refine forM_eq_ok fun pair hMem => ?_
    obtain ⟨root, -, rfl⟩ := List.mem_map.mp (zip_map_self _ roots ▸ hMem)
    exact failIf_neg (by simp [V2RootRecord.renumber])
  rw [relocateSeeds, hRemapped, ok_bind, hRelocated, ok_bind]
  rfl

end TulyaStore.Sequence
