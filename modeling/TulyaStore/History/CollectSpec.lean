import TulyaStore.History.Collect
import TulyaStore.Sequence.GenerationImage

/-!
# Compaction keeps the roots

What a compaction to roots of an arena returns, in memory and over the files of a generation:
the nodes the roots reach, each once, and the roots with what they stand for.
-/

namespace TulyaStore.History

open Lib Sequence V2AvlSequence

/-! ## The files of the next generation -/

section Written

variable {files : HistoryFiles}

theorem recordBytes_records (a : V2AvlSequence) : recordBytes (records a) = nodeBytes a.nodes := by
  rw [recordBytes, records, List.map_map]
  rfl

theorem applyAll_recordWrites {name : HistoryFile} {file : Bytes} (hFile : files name = some file)
    {start : Nat} (hLen : file.length = physicalHeaderSize + start * physicalNodeRecordSize)
    (records : List V2NodeRecord) :
    applyAll files ((records.zipIdx start).map fun entry => .write name
        (physicalHeaderSize + entry.2 * physicalNodeRecordSize) (encodeV2Node entry.1)) =
      setFile files name (some (file ++ recordBytes records)) := by
  induction records generalizing files file start with
  | nil =>
    rw [recordBytes, List.map_nil, List.flatten_nil, List.append_nil, setFile_same hFile]
    rfl
  | cons record records ih =>
    have hRecord : (encodeV2Node record).length = physicalNodeRecordSize :=
      length_encodeV2Node record
    have hNext : (file ++ encodeV2Node record).length =
        physicalHeaderSize + (start + 1) * physicalNodeRecordSize := by
      rw [List.length_append, hLen, hRecord, Nat.add_mul, Nat.one_mul, Nat.add_assoc]
    rw [List.zipIdx_cons, List.map_cons, applyAll_cons]
    dsimp only
    rw [← hLen, FileStep.apply_write_end hFile, ih (setFile_self _ _ _) hNext, setFile_setFile,
      List.append_assoc]
    rfl

/-- The next generation consists of a header and the compact content each, and no other file is
touched. -/
theorem applyAll_writeGeneration (generation : Nat) (payload : Bytes)
    (records : List V2NodeRecord) :
    applyAll files (writeGeneration generation payload records) =
      setFile (setFile files (.payload generation)
          (some (encodeHeader physicalPayloadMagic generation ++ payload)))
        (.nodes generation)
        (some (encodeHeader physicalNodeMagic generation ++ recordBytes records)) := by
  have hNe : HistoryFile.payload generation ≠ .nodes generation := nofun
  have hHeaders : applyAll files [.createEmpty (.payload generation),
      .createEmpty (.nodes generation),
      .write (.payload generation) 0 (encodeHeader physicalPayloadMagic generation),
      .write (.nodes generation) 0 (encodeHeader physicalNodeMagic generation)] =
        setFile (setFile files (.payload generation)
            (some (encodeHeader physicalPayloadMagic generation)))
          (.nodes generation) (some (encodeHeader physicalNodeMagic generation)) := by
    have hFirst : setFile (setFile files (.payload generation) (some [])) (.nodes generation)
        (some []) (.payload generation) = some [] := by
      rw [setFile_of_ne hNe, setFile_self]
    have hSecond : setFile (setFile (setFile files (.payload generation) (some []))
        (.nodes generation) (some [])) (.payload generation)
          (some (encodeHeader physicalPayloadMagic generation)) (.nodes generation) = some [] := by
      rw [setFile_of_ne hNe.symm, setFile_self]
    have hPayload := FileStep.apply_write_end hFirst (encodeHeader physicalPayloadMagic generation)
    have hNodes := FileStep.apply_write_end hSecond (encodeHeader physicalNodeMagic generation)
    rw [List.length_nil, List.nil_append] at hPayload hNodes
    simp only [applyAll_cons, applyAll_nil, FileStep.apply] at hPayload hNodes ⊢
    rw [hPayload, hNodes, setFile_comm hNe.symm, setFile_setFile, setFile_setFile]
  have hBody : ∀ content : Bytes,
      applyAll (setFile (setFile files (.payload generation)
          (some (encodeHeader physicalPayloadMagic generation)))
        (.nodes generation) (some (encodeHeader physicalNodeMagic generation)))
        (if content.isEmpty then []
          else [.write (.payload generation) physicalHeaderSize content]) =
      setFile (setFile files (.payload generation)
          (some (encodeHeader physicalPayloadMagic generation ++ content)))
        (.nodes generation) (some (encodeHeader physicalNodeMagic generation)) := by
    intro content
    split
    case isTrue hEmpty =>
      rw [List.isEmpty_iff.mp hEmpty, List.append_nil]
      rfl
    case isFalse =>
      have hFile : setFile (setFile files (.payload generation)
          (some (encodeHeader physicalPayloadMagic generation)))
          (.nodes generation) (some (encodeHeader physicalNodeMagic generation))
            (.payload generation) = some (encodeHeader physicalPayloadMagic generation) := by
        rw [setFile_of_ne hNe, setFile_self]
      have hWrite := FileStep.apply_write_end hFile content
      rw [length_encodeHeader_payload] at hWrite
      rw [applyAll_cons, applyAll_nil, physicalHeaderSize, hWrite, setFile_comm hNe.symm,
        setFile_setFile, setFile_comm hNe]
  have hHeaderLen : (encodeHeader physicalNodeMagic generation).length =
      physicalHeaderSize + 0 * physicalNodeRecordSize := length_encodeHeader_node generation
  rw [writeGeneration, applyAll_append, applyAll_append, applyAll_append, hHeaders, hBody,
    recordWrites, applyAll_recordWrites (setFile_self _ _ _) hHeaderLen, setFile_setFile]
  rfl

end Written

/-! ## What a compaction keeps -/

/-- A node in the compact arena: the same record over renumbered children, or over the same bytes
at another place. -/
def SameNode (a c : V2AvlSequence) (number : Nat → Nat) : ArenaNode → ArenaNode → Prop
  | .leaf offset len record, .leaf offset' len' record' =>
    len' = len ∧ record'.height = record.height ∧ record'.logicalLen = record.logicalLen ∧
      record'.commitment = record.commitment ∧
      slice c.payload offset' (offset' + len) = slice a.payload offset (offset + len)
  | .branch left right record, .branch left' right' record' =>
    left' = left.renumber number ∧ right' = right.renumber number ∧
      record'.height = record.height ∧ record'.logicalLen = record.logicalLen ∧
      record'.commitment = record.commitment
  | _, _ => False

/-- The arena `c` holds exactly what the roots reach in `a`: the nodes `retained`, in their
order, and the bytes of their leaves, each byte once. -/
structure HoldsExactly (a c : V2AvlSequence) (roots : List V2RootRecord) (retained : List Nat) :
    Prop where
  sorted : retained.Pairwise (· < ·)
  reached : ∀ i, i ∈ retained ↔ Reaches (ChildOf a) (roots.map V2RootRecord.nodeId) i
  count : c.nodes.length = retained.length
  nodes : ∀ (k i : Nat), retained[k]? = some i → ∃ old new, a.nodes[i]? = some old ∧
    c.nodes[k]? = some new ∧ SameNode a c (rank retained) old new
  tiled : Tiled c

section Kept

variable {sha256 : Bytes → Digest} {a : V2AvlSequence} {roots : List V2RootRecord}
  {retained : List Nat} {ranges : List V2RetainedPayloadRange}

theorem sameNode_relocated (h : Retained a retained ranges) (hWf : WellFormed sha256 a) {i : Nat}
    (hMem : i ∈ retained) {node : ArenaNode} (hNode : a.nodes[i]? = some node) :
    SameNode a (compactArena a retained ranges) (rank retained) node
      (relocateNode (rank retained) (place ranges) node) := by
  cases node with
  | leaf offset len record =>
    have hRange := h.mem_ranges hMem hNode
    have hOld := (h.range_inside hWf hRange).2.2.2
    exact ⟨rfl, rfl, rfl, rfl, (h.slice_place hWf hRange).trans hOld.symm⟩
  | branch left right record => exact ⟨rfl, rfl, rfl, rfl, rfl⟩

theorem holdsExactly (h : Retained a retained ranges) (hWf : WellFormed sha256 a)
    (hTiled : Tiled a)
    (hReached : ∀ i, i ∈ retained ↔ Reaches (ChildOf a) (roots.map V2RootRecord.nodeId) i) :
    HoldsExactly a (compactArena a retained ranges) roots retained where
  sorted := h.sorted
  reached := hReached
  count := h.length_nodes
  nodes := by
    intro k i hGet
    have hMem := List.mem_of_getElem? hGet
    have hOld : a.nodes[i]? = some (a.nodes.get ⟨i, h.inside i hMem⟩) :=
      List.getElem?_eq_getElem (h.inside i hMem)
    obtain ⟨node, hOld⟩ : ∃ node, a.nodes[i]? = some node := ⟨_, hOld⟩
    have hNew := h.node_at hMem hOld
    rw [rank_of_getElem? h.sorted hGet] at hNew
    exact ⟨node, _, hOld, hNew, sameNode_relocated h hWf hMem hOld⟩
  tiled := h.tiled hWf hTiled

/-- The program for files: it plans, writes the next generation and relocates the seeds. -/
theorem compactPhysicalGeneration_run {source : PhysicalContentStore} {payload : Bytes}
    {records : List V2NodeRecord} {mapping : List V2NodeIdMapping}
    {relocated : List V2RootRecord}
    (hPlan : planPhysicalGeneration sha256 source roots = .ok (payload, records, mapping))
    (hSeeds : relocateSeeds roots records mapping = .ok relocated) (generation : Nat)
    (state : WritableHistoryAuthority) (files : HistoryFiles) :
    compactPhysicalGeneration sha256 source roots generation state files =
      (writeGeneration generation payload records,
        .ok (writtenStore generation payload records, relocated), state) := by
  have hPlanned : (FileM.attempt (planPhysicalGeneration sha256 source roots) :
      ContentM WritableHistoryAuthority _) state files =
        ([], .ok (payload, records, mapping), state) := by
    rw [hPlan]
    rfl
  have hRelocated : (FileM.attempt (relocateSeeds roots records mapping) :
      ContentM WritableHistoryAuthority _) state
        (applyAll files (writeGeneration generation payload records)) =
          ([], .ok relocated, state) := by
    rw [hSeeds]
    rfl
  have hReturn : (FileM.attempt (relocateSeeds roots records mapping) >>= fun roots =>
      pure (writtenStore generation payload records, roots) :
        ContentM WritableHistoryAuthority _) state
          (applyAll files (writeGeneration generation payload records)) =
        ([], .ok (writtenStore generation payload records, relocated), state) :=
    FileM.bind_run_ok hRelocated rfl
  refine (FileM.bind_run_quiet hPlanned).trans ?_
  conv_rhs => rw [← List.append_nil (writeGeneration generation payload records)]
  exact FileM.bind_run_ok (FileM.perform_run (writeGeneration generation payload records)) hReturn

end Kept

/-- The files of a generation that hold `a` compact to those that hold `c`. -/
def CompactsFiles (sha256 : Bytes → Digest) (a c : V2AvlSequence)
    (roots relocated : List V2RootRecord) : Prop :=
  ∀ payload nodes generation, HoldsArena payload nodes generation a → Addressable a →
    ∀ newGeneration state files,
      ∃ steps, compactPhysicalGeneration sha256 (boundStore payload nodes generation a) roots
          newGeneration state files =
        (steps, .ok (writtenStore newGeneration c.payload (records c), relocated), state) ∧
      applyAll files steps (.payload newGeneration) =
        some (encodeHeader physicalPayloadMagic newGeneration ++ c.payload) ∧
      applyAll files steps (.nodes newGeneration) =
        some (encodeHeader physicalNodeMagic newGeneration ++ nodeBytes c.nodes)

/-- In every arena a run reaches, a compaction to roots of it succeeds, in memory and over any
files that hold the arena: the result holds exactly what the roots reach, the roots come back in
their order with what they stood for, and both compactions give the same. -/
theorem root_preserving_compaction (sha256 : Bytes → Digest) (calls : List ArenaCall)
    (roots : List V2RootRecord)
    (hRoots : ∀ root ∈ roots, ∃ node,
      nodeForRootOn (runArenaCalls sha256 calls).arena root = .ok node) :
    ∃ compact relocated retained,
      compactToRoots sha256 (runArenaCalls sha256 calls).arena roots = .ok (compact, relocated) ∧
      HoldsExactly (runArenaCalls sha256 calls).arena compact roots retained ∧
      List.Forall₂ (fun root moved => moved = root.renumber (rank retained) ∧
        (∃ node, nodeForRootOn compact moved = .ok node) ∧
        ∃ bytes, content (runArenaCalls sha256 calls).arena root = some bytes ∧
          content compact moved = some bytes) roots relocated ∧
      CompactsFiles sha256 (runArenaCalls sha256 calls).arena compact roots relocated := by
  obtain ⟨⟨hWf, -⟩, hTiled⟩ := arenaReached sha256 calls
  generalize (runArenaCalls sha256 calls).arena = a at *
  have hLen := hTiled.length_lt hWf
  have hDenotes : ∀ root ∈ roots, ∃ t, Denotes sha256 a t root := fun root hMem =>
    hWf.denotes (hRoots root hMem).choose_spec
  obtain ⟨retained, ranges, hPlan, h, hReached⟩ :=
    planRoots_ok hWf hLen (hTiled.pairwise.imp Or.inl) hDenotes
  have hKept : ∀ root ∈ roots, root.nodeId ∈ retained := fun root hMem =>
    (hReached _).mpr (.seed (List.mem_map_of_mem hMem))
  refine ⟨_, _, retained, compactToRoots_run h hWf hLen hDenotes hKept hPlan,
    holdsExactly h hWf hTiled hReached, ?_, ?_⟩
  · rw [List.forall₂_map_right_iff, List.forall₂_same]
    intro root hMem
    obtain ⟨t, hRoot⟩ := hDenotes root hMem
    have hMoved := h.denotes hWf hRoot (hKept root hMem)
    exact ⟨rfl, hMoved.nodeForRootOn, t.toList, content_of_denotes hRoot,
      content_of_denotes hMoved⟩
  · intro payload nodes generation hHolds hAddressable newGeneration state files
    have hNe : HistoryFile.payload newGeneration ≠ .nodes newGeneration := nofun
    refine ⟨_, compactPhysicalGeneration_run
      (hHolds.planPhysicalGeneration hWf hAddressable hLen h hDenotes hPlan)
      (relocateSeeds_ok hWf h hDenotes hKept) newGeneration state files, ?_, ?_⟩
    · rw [applyAll_writeGeneration, setFile_of_ne hNe, setFile_self]
    · rw [applyAll_writeGeneration, setFile_self, recordBytes_records]

theorem root_preserving_compaction_sample :
    ∃ compact relocated,
      compactToRoots sampleSha256 (runArenaCalls sampleSha256 sampleArenaCalls).arena
        [sampleBranch, sampleBranch] = .ok (compact, relocated) ∧ relocated.length = 2 := by
  have hOk : (nodeForRootOn (runArenaCalls sampleSha256 sampleArenaCalls).arena
      sampleBranch).isOk = true := by decide +kernel
  have hRoots : ∀ root ∈ [sampleBranch, sampleBranch], ∃ node,
      nodeForRootOn (runArenaCalls sampleSha256 sampleArenaCalls).arena root = .ok node := by
    intro root hMem
    obtain rfl : root = sampleBranch := by simpa using hMem
    cases hNode : nodeForRootOn (runArenaCalls sampleSha256 sampleArenaCalls).arena sampleBranch with
    | ok node => exact ⟨node, rfl⟩
    | error e =>
      rw [hNode] at hOk
      cases hOk
  obtain ⟨compact, relocated, retained, hRun, -, hSame, -⟩ :=
    root_preserving_compaction sampleSha256 sampleArenaCalls _ hRoots
  exact ⟨compact, relocated, hRun, hSame.length_eq.symm⟩

end TulyaStore.History
