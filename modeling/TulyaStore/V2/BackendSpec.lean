import TulyaStore.V2.Backend
import TulyaStore.V2.Canonical
import TulyaStore.V2.Compacted

/-!
# Sealing a state

When a valid state is exported, and that the sealed snapshot is imported as the same state
(`StateOk.import_export`). An export fails on a valid state in two cases only: the snapshot is too
long to be addressed, or the leaves of the arena do not stand in the order of their payload, which
the importer of the image demands and the checks of a commit do not (`export_iff`).
-/

namespace TulyaStore.V2

open Lib Sequence
open Sequence.V2AvlSequence

section Seal

variable {sha256 : Bytes → Digest} {a : V2AvlSequence} {state : V2CommittedState} {image : Bytes}

/-! ## The snapshot of a state -/

/-- The snapshot an export writes, over the image of the arena. -/
def stateSnapshot (image : Bytes) (state : V2CommittedState) : V2SealedSnapshot where
  image := image
  versions := state.versions
  checkpoints := state.checkpoints
  activeRequests := state.requestRecords.entries.map fun entry =>
    ⟨entry.1, entry.2.operationDigest, entry.2.checkpointOrdinal⟩
  retiredRequests := state.retiredRequests.entries.map fun entry => ⟨entry.1, entry.2⟩
  deletedCheckpoints := state.deletedCheckpoints.entries.map fun entry =>
    ⟨(ofLex entry.1).1, (ofLex entry.1).2⟩

/-- The image of a state is the one of its arena with the roots of its versions. -/
def stateImage (state : V2CommittedState) : V2SequenceImage :=
  ⟨state.payload, state.nodes, state.versions.map V2VersionRecord.root⟩

theorem activeRequestRecords_ok (image : Bytes) (h : LedgersOk sha256 state) :
    activeRequestRecords state = .ok (stateSnapshot image state).activeRequests := by
  refine mapM_map_ok fun entry hMem => ?_
  have hId := (h.active entry.1 entry.2 (KeyMap.mem_entries.mp hMem)).1
  rw [V2ActiveRequestRecord.new, validateLedgerRequestId_eq_ok (u := ()) |>.mpr hId, ok_bind]
  rfl

theorem retiredRequestRecords_ok (image : Bytes) (h : LedgersOk sha256 state) :
    retiredRequestRecords state = .ok (stateSnapshot image state).retiredRequests := by
  refine mapM_map_ok fun entry hMem => ?_
  have hId := h.retired entry.1 entry.2 (KeyMap.mem_entries.mp hMem)
  rw [V2RetiredRequestRecord.new, validateLedgerRequestId_eq_ok (u := ()) |>.mpr hId, ok_bind]
  rfl

theorem deletedCheckpointRecords_ok (image : Bytes) (h : LedgersOk sha256 state) :
    deletedCheckpointRecords state = .ok (stateSnapshot image state).deletedCheckpoints := by
  refine mapM_map_ok fun entry hMem => ?_
  have hKey : state.deletedCheckpoints.containsKey entry.1 = true :=
    KeyMap.containsKey_eq_true.mpr ⟨entry.2, KeyMap.mem_entries.mp hMem⟩
  obtain ⟨hThread, hCheckpoint, -⟩ := h.deleted entry.1 hKey
  rw [V2DeletedCheckpointRecord.new, validateLedgerIdentifier_eq_ok (u := ()) |>.mpr hThread, ok_bind,
    validateLedgerIdentifier_eq_ok (u := ()) |>.mpr hCheckpoint, ok_bind]
  rfl

/-- The ledgers of a state are listed in the order of their keys. -/
theorem stateSnapshot_sorted (image : Bytes) (state : V2CommittedState) :
    (stateSnapshot image state).Sorted where
  active := List.pairwise_map.mpr state.requestRecords.sorted
  retired := List.pairwise_map.mpr state.retiredRequests.sorted
  deleted := List.pairwise_map.mpr state.deletedCheckpoints.sorted

theorem increasing_nodup {α K : Type} [LinearOrder K] {key : α → K} {records : List α}
    (h : Increasing key records) : (records.map key).Nodup :=
  List.pairwise_map.mpr (h.imp fun hLt => hLt.ne)

/-- The snapshot of a valid state is valid when its image is. -/
theorem stateSnapshot_valid (h : StateOk sha256 a state)
    (hSequence : SequenceOk sha256 (stateSnapshot image state)) :
    ValidSnapshot sha256 (stateSnapshot image state) where
  sequence := hSequence
  checkpoints := h.table
  deleted record hMem := by
    obtain ⟨entry, hEntry, rfl⟩ := List.mem_map.mp hMem
    have hKey : state.deletedCheckpoints.containsKey entry.1 = true :=
      KeyMap.containsKey_eq_true.mpr ⟨entry.2, KeyMap.mem_entries.mp hEntry⟩
    exact h.ledgers.deleted entry.1 hKey
  deleted_nodup := increasing_nodup (stateSnapshot_sorted image state).deleted
  active record hMem := by
    obtain ⟨entry, hEntry, rfl⟩ := List.mem_map.mp hMem
    obtain ⟨hId, -, checkpoint, hGet, hDigest⟩ :=
      h.ledgers.active entry.1 entry.2 (KeyMap.mem_entries.mp hEntry)
    exact ⟨hId, checkpoint, hGet, h.table.valid checkpoint (List.mem_of_getElem? hGet), hDigest⟩
  active_nodup := increasing_nodup (stateSnapshot_sorted image state).active
  retired record hMem := by
    obtain ⟨entry, hEntry, rfl⟩ := List.mem_map.mp hMem
    have hRetired := KeyMap.mem_entries.mp hEntry
    refine ⟨h.ledgers.retired entry.1 entry.2 hRetired, fun hActive => ?_⟩
    obtain ⟨record, hRecord, hSame⟩ := List.mem_map.mp hActive
    obtain ⟨active, hActiveEntry, rfl⟩ := List.mem_map.mp hRecord
    have hNone := (h.ledgers.active active.1 active.2 (KeyMap.mem_entries.mp hActiveEntry)).2.1
    dsimp only at hSame
    rw [hSame, hRetired] at hNone
    cases hNone
  retired_nodup := increasing_nodup (stateSnapshot_sorted image state).retired

/-! ## Export -/

theorem validateCheckpointIndex_ok (h : StateOk sha256 a state) :
    validateCheckpointIndex state = .ok () := by
  have hLength : (checkpointKeys state.checkpoints).length = state.checkpoints.length :=
    List.length_map _
  have hSize : state.checkpointOrdinals.size = state.checkpoints.length := by
    rw [h.ledgers.ordinals, KeyMap.size_indexOf h.table.nodup, hLength]
  rw [validateCheckpointIndex, failIf_neg (not_not_intro hSize), ok_bind, forM_zipIdx_eq_ok]
  intro i checkpoint hGet
  have hLt := (List.getElem?_eq_some_iff.mp hGet).1
  have hCount := h.ledgers.count
  have hOrdinal : state.checkpointOrdinals.get checkpoint.key = some i :=
    (h.ledgers.get_ordinal h.table.nodup).mpr ⟨checkpoint, hGet, rfl⟩
  have hLive : ¬ state.deletedCheckpoints.containsKey checkpoint.key = true := by
    intro hDeleted
    exact (h.ledgers.deleted _ hDeleted).2.2
      (mem_checkpointKeys.mpr ⟨checkpoint, List.mem_of_getElem? hGet, rfl⟩)
  rw [Nat.zero_add, validateIndexed, tryFrom_of_lt (by omega), okOr_some, ok_bind,
    failIf_neg (not_not_intro hOrdinal), ok_bind, failIf_neg hLive]

theorem exportV2SealedState_eq (h : StateOk sha256 a state) :
    exportV2SealedState sha256 state =
      if state.checkpoints.length = 0 then exportTombstones sha256 state
        ⟨state.payload.length, state.nodes.length, state.versions.length, state.checkpoints.length⟩
      else exportLive sha256 state
        ⟨state.payload.length, state.nodes.length, state.versions.length,
          state.checkpoints.length⟩ := by
  rw [exportV2SealedState, validateCheckpointIndex_ok h, ok_bind, h.geometry, mapErr_ok, ok_bind]

/-- The export of a valid state with live checkpoints. -/
theorem exportLive_eq_ok (h : StateOk sha256 a state) (hSome : state.checkpoints ≠ [])
    {sealed : Option Bytes} : exportV2SealedState sha256 state = .ok sealed ↔
      ∃ image bytes, encodeV2Image sha256 (stateImage state) = .ok image ∧
        encodeV2SealedSnapshot sha256 (stateSnapshot image state) = .ok bytes ∧
        sealed = some bytes := by
  obtain ⟨hPayload, hNodes, hVersions⟩ := h.nonempty hSome
  have hNonempty : ¬ (state.versions.length = 0 ∨ state.nodes.length = 0 ∨
      state.payload.length = 0) := by
    simp only [List.length_eq_zero_iff, not_or]
    exact ⟨hVersions, hNodes, hPayload⟩
  have hCount : ¬ state.checkpoints.length = 0 := by
    rwa [List.length_eq_zero_iff]
  rw [exportV2SealedState_eq h, if_neg hCount, exportLive, failIf_neg hNonempty, ok_bind]
  simp only [bind_eq_ok, mapErr_eq_ok, pure_eq_ok]
  constructor
  · rintro ⟨image, hImage, active, hActive, retired, hRetired, deleted, hDeleted, bytes, hBytes, rfl⟩
    rw [activeRequestRecords_ok image h.ledgers] at hActive
    rw [retiredRequestRecords_ok image h.ledgers] at hRetired
    rw [deletedCheckpointRecords_ok image h.ledgers] at hDeleted
    cases hActive
    cases hRetired
    cases hDeleted
    exact ⟨image, bytes, hImage, hBytes, rfl⟩
  · rintro ⟨image, bytes, hImage, hBytes, rfl⟩
    exact ⟨image, hImage, _, activeRequestRecords_ok image h.ledgers, _, retiredRequestRecords_ok image h.ledgers,
      _, deletedCheckpointRecords_ok image h.ledgers, bytes, hBytes, rfl⟩

/-- Without checkpoints there is no active request. -/
theorem LedgersOk.no_active (h : LedgersOk sha256 state) (hNil : state.checkpoints = []) :
    state.requestRecords.entries = [] := by
  rw [List.eq_nil_iff_forall_not_mem]
  intro entry hMem
  obtain ⟨-, -, checkpoint, hGet, -⟩ := h.active entry.1 entry.2 (KeyMap.mem_entries.mp hMem)
  rw [hNil] at hGet
  cases hGet

/-- The export of a valid state without checkpoints. -/
theorem exportTombstones_eq_ok (h : StateOk sha256 a state) (hNil : state.checkpoints = [])
    {sealed : Option Bytes} : exportV2SealedState sha256 state = .ok sealed ↔
      ((state.retiredRequests.size = 0 ∧ state.deletedCheckpoints.size = 0) ∧ sealed = none) ∨
      (¬ (state.retiredRequests.size = 0 ∧ state.deletedCheckpoints.size = 0) ∧ ∃ bytes,
        encodeV2SealedSnapshot sha256 (stateSnapshot [] state) = .ok bytes ∧
        sealed = some bytes) := by
  obtain ⟨hPayload, hNodes, hVersions⟩ := h.cleared hNil
  have hActive := h.ledgers.no_active hNil
  have hEmpty : ¬ (state.payload.length ≠ 0 ∨ state.nodes.length ≠ 0 ∨ state.versions.length ≠ 0 ∨
      state.requestRecords.size ≠ 0) := by
    rw [hPayload, hNodes, hVersions, KeyMap.size, hActive]
    decide
  have hSnapshot : stateSnapshot [] state = ⟨[], [], [], [], (stateSnapshot [] state).retiredRequests,
      (stateSnapshot [] state).deletedCheckpoints⟩ := by
    rw [stateSnapshot, hVersions, hNil, hActive]
    rfl
  rw [exportV2SealedState_eq h, if_pos (by rw [hNil]; rfl), exportTombstones, failIf_neg hEmpty,
    ok_bind]
  split
  case isTrue hNone =>
    rw [pure_eq_ok, and_iff_right hNone, or_iff_left fun hOther => hOther.1 hNone, eq_comm]
  case isFalse hSome =>
    rw [and_iff_right hSome, or_iff_right fun hOther => hSome hOther.1,
      retiredRequestRecords_ok [] h.ledgers, ok_bind, deletedCheckpointRecords_ok [] h.ledgers,
      ok_bind, ← hSnapshot]
    simp only [bind_eq_ok, mapErr_eq_ok, pure_eq_ok]
    exact exists_congr fun bytes => and_congr_right fun _ => eq_comm

/-! ## Import -/

theorem insertDistinct_eq_ok {K V : Type} [LinearOrder K] {message : String} {map map' : KeyMap K V}
    {entry : K × V} : insertDistinct message map entry = .ok map' ↔
      map.containsKey entry.1 = false ∧ map' = map.insert entry.1 entry.2 := by
  simp only [insertDistinct, bind_eq_ok, failIf_eq_ok, Bool.not_eq_true, exists_const, pure_eq_ok]
  exact and_congr_right fun _ => eq_comm

/-- The entries of a map are entered again one after the other. -/
theorem foldlM_insertDistinct {K V : Type} [LinearOrder K] (message : String) (map : KeyMap K V) :
    map.entries.foldlM (insertDistinct message) .empty = .ok map := by
  have hTurn : ∀ (m : KeyMap K V) entry m', insertDistinct message m entry = .ok m' ↔
      True ∧ m.containsKey entry.1 = false ∧ m' = m.insert entry.1 entry.2 := by
    intro m entry m'
    rw [insertDistinct_eq_ok, true_and]
  refine (foldlM_insert_eq_ok hTurn).mpr ⟨⟨fun _ _ _ => trivial, ?_, fun _ _ => rfl⟩, ?_⟩
  · exact map.nodup_keys
  · rw [List.map_id'', KeyMap.insertAll_entries]
    exact fun _ => rfl

theorem indexImported_ok {checkpoints : List V2CheckpointRecord}
    (hNodup : (checkpointKeys checkpoints).Nodup) (hCount : checkpoints.length < width 64) :
    checkpoints.zipIdx.foldlM indexImported .empty =
      .ok (KeyMap.indexOf (checkpointKeys checkpoints)) := by
  have hTurn : ∀ (m : KeyMap V2CheckpointKey Nat) (entry : V2CheckpointRecord × Nat) m',
      indexImported m entry = .ok m' ↔ entry.2 < width 64 ∧ m.containsKey entry.1.key = false ∧
        m' = m.insert entry.1.key entry.2 := by
    intro m entry m'
    simp only [indexImported, bind_eq_ok, okOr_eq_ok, tryFrom_eq_some, insertDistinct_eq_ok]
    constructor
    · rintro ⟨_, ⟨hLt, rfl⟩, hNew, rfl⟩
      exact ⟨hLt, hNew, rfl⟩
    · rintro ⟨hLt, hNew, rfl⟩
      exact ⟨_, ⟨hLt, rfl⟩, hNew, rfl⟩
  have hKeys : (checkpoints.zipIdx.map fun entry => entry.1.key) = checkpointKeys checkpoints := by
    have hFst := List.zipIdx_map_fst 0 checkpoints
    conv_rhs => rw [← hFst, checkpointKeys, List.map_map]
    rfl
  refine (foldlM_insert_eq_ok hTurn).mpr ⟨⟨fun i entry hGet => ?_, ?_, fun _ _ => rfl⟩, ?_⟩
  · obtain ⟨hCheckpoint, hIndex⟩ := getElem?_zipIdx_zero hGet
    have hLt := (List.getElem?_eq_some_iff.mp hCheckpoint).1
    omega
  · rw [hKeys]
    exact hNodup
  · rw [KeyMap.indexOf, checkpointKeys, List.zipIdx_map]
    rfl

/-- What is imported from the snapshot of a valid state is the state. -/
theorem importV2SealedState_ok (h : StateOk sha256 a state) {bytes : Bytes}
    (hDecode : decodeV2SealedSnapshot sha256 bytes = .ok (stateSnapshot image state))
    (hArena : importedArena sha256 image = .ok (state.payload, state.nodes)) :
    importV2SealedState sha256 bytes = .ok state := by
  have hActive : ((stateSnapshot image state).activeRequests.map fun record =>
      (record.requestId, (⟨record.operationDigest, record.checkpointOrdinal⟩ : V2RequestRecord))) =
      state.requestRecords.entries := by
    rw [stateSnapshot, List.map_map]
    exact List.map_id'' (fun _ => rfl) _
  have hRetired : ((stateSnapshot image state).retiredRequests.map fun record =>
      (record.requestId, record.operationDigest)) = state.retiredRequests.entries := by
    rw [stateSnapshot, List.map_map]
    exact List.map_id'' (fun _ => rfl) _
  have hDeleted : ((stateSnapshot image state).deletedCheckpoints.map fun record =>
      (record.key, ())) = state.deletedCheckpoints.entries := by
    rw [stateSnapshot, List.map_map]
    exact List.map_id'' (fun _ => rfl) _
  have hOrdinals := indexImported_ok h.table.nodup h.ledgers.count
  rw [← h.ledgers.ordinals] at hOrdinals
  rw [importV2SealedState, hDecode, mapErr_ok, ok_bind]
  change (importedArena sha256 image >>= _) = _
  rw [hArena, ok_bind]
  dsimp only
  rw [hActive, hRetired, hDeleted]
  change (state.checkpoints.zipIdx.foldlM indexImported .empty >>= _) = _
  rw [hOrdinals, ok_bind, foldlM_insertDistinct, ok_bind, foldlM_insertDistinct, ok_bind,
    foldlM_insertDistinct, ok_bind]
  change (mapErr V2BackendError.apply state.geometry >>= _) = _
  rw [h.geometry, mapErr_ok, ok_bind]
  rfl

theorem StateOk.records_canonical (h : StateOk sha256 a state) :
    ∀ node ∈ state.nodes, node.Canonical := by
  intro record hMem
  rw [← h.nodes] at hMem
  obtain ⟨node, hNode, rfl⟩ := List.mem_map.mp hMem
  obtain ⟨i, hGet⟩ := List.mem_iff_getElem?.mp hNode
  exact h.wellFormed.canonical hGet

theorem StateOk.roots_denote (h : StateOk sha256 a state) :
    ∀ root ∈ state.versions.map V2VersionRecord.root, ∃ t, Denotes sha256 a t root := by
  intro root hMem
  obtain ⟨version, hVersion, rfl⟩ := List.mem_map.mp hMem
  exact h.roots version hVersion

/-- The image of a valid state is decoded to its arena. -/
theorem decodeV2Image_state (h : StateOk sha256 a state)
    (hImage : encodeV2Image sha256 (stateImage state) = .ok image) :
    decodeV2Image sha256 image = .ok (stateImage state) := by
  refine decodeV2Image_eq_ok.mpr ⟨h.records_canonical, fun root hMem => ?_, hImage⟩
  obtain ⟨t, hDenotes⟩ := h.roots_denote root hMem
  exact fits_of_denotes h.wellFormed hDenotes

theorem decodeV2SealedSnapshot_state (h : StateOk sha256 a state) {bytes : Bytes}
    (hEncode : encodeV2SealedSnapshot sha256 (stateSnapshot image state) = .ok bytes) :
    decodeV2SealedSnapshot sha256 bytes = .ok (stateSnapshot image state) :=
  decodeV2SealedSnapshot_eq_ok.mpr ⟨h.numbers, stateSnapshot_sorted image state, hEncode⟩

theorem encodeV2Image_ne_nil {image : V2SequenceImage} {bytes : Bytes}
    (h : encodeV2Image sha256 image = .ok bytes) : bytes ≠ [] := by
  obtain ⟨-, -, rfl⟩ := encodeV2Image_eq_ok.mp h
  refine List.ne_nil_of_length_pos ?_
  rw [length_imageBytes]
  exact Nat.lt_of_lt_of_le (show 0 < v2ImageHeaderSize by decide) (Nat.le_add_right _ _)

/-- What is exported from a valid state is imported as this state. -/
theorem StateOk.import_export (h : StateOk sha256 a state) {sealed : Option Bytes}
    (hExport : exportV2SealedState sha256 state = .ok sealed) :
    sealedBase sha256 sealed = .ok state := by
  by_cases hNil : state.checkpoints = []
  · obtain ⟨hPayload, hNodes, hVersions⟩ := h.cleared hNil
    rcases (exportTombstones_eq_ok h hNil).mp hExport with
      ⟨⟨hRetired, hDeleted⟩, rfl⟩ | ⟨-, bytes, hEncode, rfl⟩
    · -- a state with nothing in it is the empty one
      have hNone : ∀ {V K : Type} [LinearOrder K] (m : KeyMap K V), m.size = 0 → m = .empty := by
        intro V K _ m hSize
        refine KeyMap.ext_get fun k => ?_
        rw [KeyMap.get, List.length_eq_zero_iff.mp hSize]
        rfl
      have hActive := h.ledgers.no_active hNil
      have hOrdinals := h.ledgers.ordinals
      have hState : state = .empty := by
        obtain ⟨payload, nodes, versions, checkpoints, ordinals, active, retired, deleted⟩ := state
        dsimp only at hPayload hNodes hVersions hNil hRetired hDeleted hActive hOrdinals
        subst hPayload hNodes hVersions hNil
        rw [hOrdinals, hNone active (by rw [KeyMap.size, hActive]; rfl), hNone retired hRetired,
          hNone deleted hDeleted]
        rfl
      rw [hState]
      rfl
    · refine importV2SealedState_ok h (decodeV2SealedSnapshot_state h hEncode) ?_
      rw [importedArena, if_pos rfl, hPayload, hNodes]
  · obtain ⟨image, bytes, hImage, hEncode, rfl⟩ := (exportLive_eq_ok h hNil).mp hExport
    refine importV2SealedState_ok h (decodeV2SealedSnapshot_state h hEncode) ?_
    rw [importedArena, if_neg (encodeV2Image_ne_nil hImage), decodeV2Image_state h hImage, mapErr_ok,
      ok_bind]
    rfl

/-! ## When an export succeeds -/

/-- The leaves of the state own its payload in the order of their nodes. -/
def InOrder (state : V2CommittedState) : Prop :=
  Tiles 0 (recordRanges state.nodes) state.payload.length

/-- The image in the snapshot of a state. -/
def sealedImage (sha256 : Bytes → Digest) (state : V2CommittedState) : Bytes :=
  if state.checkpoints = [] then [] else imageBytes sha256 (stateImage state)

/-- The length of the sealed snapshot of a state. -/
def exportLength (sha256 : Bytes → Digest) (state : V2CommittedState) : Nat :=
  v2SnapshotHeaderSize + (snapshotBody (stateSnapshot (sealedImage sha256 state) state)).length

theorem StateOk.tiled_iff (h : StateOk sha256 a state) : Tiled a ↔ InOrder state := by
  rw [Tiled, InOrder, leafRanges_eq_recordRanges h.wellFormed, h.nodes, h.payload]

/-- An image that can be imported lists its leaves in the order of their payload. -/
theorem inOrder_of_import (h : StateOk sha256 a state)
    (hImage : encodeV2Image sha256 (stateImage state) = .ok image) {b : V2AvlSequence}
    (hImport : importImage sha256 image = .ok (b, state.versions.map V2VersionRecord.root)) :
    InOrder state := by
  obtain ⟨decoded, hDecode, hArena, -⟩ := importImage_eq_ok.mp hImport
  rw [decodeV2Image_state h hImage] at hDecode
  cases hDecode
  have hLen : (stateImage state).nodes.length ≤ v2NoneNode := by
    have hBound := h.nodes_lt
    have hCount : a.nodes.length = state.nodes.length := by
      rw [← h.nodes, records, List.length_map]
    have hNone : v2NoneNode + 1 = width 64 := by decide
    show state.nodes.length ≤ _
    omega
  obtain ⟨hPayload, hNodes, hWf, hTiled, -⟩ := (importArena_eq_ok hLen h.records_canonical).mp hArena
  have hRecords : records b = state.nodes := hNodes
  have hBytes : b.payload = state.payload := hPayload
  rw [InOrder, ← hRecords, ← leafRanges_eq_recordRanges hWf, ← hBytes]
  exact hTiled

/-- Leaves in order make an image that can be imported. -/
theorem StateOk.sequenceOk (h : StateOk sha256 a state) (hSome : state.checkpoints ≠ [])
    (hOrder : InOrder state) (hImage : encodeV2Image sha256 (stateImage state) = .ok image) :
    SequenceOk sha256 (stateSnapshot image state) := by
  obtain ⟨-, -, hVersions⟩ := h.nonempty hSome
  have hRoots : state.versions.map V2VersionRecord.root ≠ [] := by
    intro hNil
    exact hVersions (List.map_eq_nil_iff.mp hNil)
  obtain ⟨-, hSize, hBytes⟩ := encodeV2Image_eq_ok.mp hImage
  rw [length_imageBody] at hSize
  have hImageSize : imageSize a (state.versions.map V2VersionRecord.root) < width 64 := by
    have hCount : a.nodes.length = state.nodes.length := by
      rw [← h.nodes, records, List.length_map]
    rw [imageSize, h.payload, hCount]
    dsimp only [stateImage] at hSize
    omega
  have hExport : exportImage sha256 a (state.versions.map V2VersionRecord.root) = .ok image := by
    refine (exportImage_eq_ok h.wellFormed).mpr ⟨⟨hRoots, h.roots_denote⟩, hImageSize, ?_⟩
    rw [hBytes, stateImage, ← h.payload, ← h.nodes]
    rfl
  rw [SequenceOk, if_neg (show (stateSnapshot image state).checkpoints ≠ [] from hSome)]
  exact ⟨encodeV2Image_ne_nil hImage, hVersions,
    ⟨a, importImage_export h.wellFormed (h.tiled_iff.mpr hOrder) hExport⟩, h.numbered⟩

theorem length_image_le (image : Bytes) (state : V2CommittedState) :
    image.length ≤ (snapshotBody (stateSnapshot image state)).length := by
  rw [length_snapshotBody]
  show image.length ≤ image.length + _ + _ + _ + _ + _
  omega

theorem encodeSnapshot_state (h : StateOk sha256 a state)
    (hSequence : SequenceOk sha256 (stateSnapshot image state)) {bytes : Bytes} :
    encodeV2SealedSnapshot sha256 (stateSnapshot image state) = .ok bytes ↔
      v2SnapshotHeaderSize + (snapshotBody (stateSnapshot image state)).length < width 64 ∧
        bytes = snapshotBytes sha256 (stateSnapshot image state) := by
  rw [encodeV2SealedSnapshot_eq_ok, (stateSnapshot_sorted image state).sorted_eq,
    and_iff_right (stateSnapshot_valid h hSequence)]

/-- A valid state can be exported when its leaves stand in the order of their payload and the
snapshot is not too long. -/
theorem export_iff (h : StateOk sha256 a state) :
    (∃ sealed, exportV2SealedState sha256 state = .ok sealed) ↔
      InOrder state ∧ exportLength sha256 state < width 64 := by
  by_cases hNil : state.checkpoints = []
  · obtain ⟨hPayload, hNodes, hVersions⟩ := h.cleared hNil
    have hOrder : InOrder state := by
      rw [InOrder, hNodes, hPayload]
      rfl
    rw [and_iff_right hOrder, exportLength, sealedImage, if_pos hNil]
    simp only [exportTombstones_eq_ok h hNil]
    by_cases hNone : state.retiredRequests.size = 0 ∧ state.deletedCheckpoints.size = 0
    · refine iff_of_true ⟨none, Or.inl ⟨hNone, rfl⟩⟩ ?_
      have hBody : snapshotBody (stateSnapshot [] state) = [] := by
        rw [snapshotBody, stateSnapshot, hVersions, hNil, h.ledgers.no_active hNil,
          List.length_eq_zero_iff.mp hNone.1, List.length_eq_zero_iff.mp hNone.2]
        rfl
      rw [hBody]
      decide
    · have hSequence : SequenceOk sha256 (stateSnapshot [] state) := by
        rw [SequenceOk, if_pos (show (stateSnapshot [] state).checkpoints = [] from hNil)]
        refine ⟨rfl, hVersions, ?_, fun hBoth => hNone ?_⟩
        · show state.requestRecords.entries.map _ = []
          rw [h.ledgers.no_active hNil]
          rfl
        · exact ⟨List.length_eq_zero_iff.mpr (List.map_eq_nil_iff.mp hBoth.1),
            List.length_eq_zero_iff.mpr (List.map_eq_nil_iff.mp hBoth.2)⟩
      simp only [encodeSnapshot_state h hSequence]
      constructor
      · rintro ⟨sealed, hOther | ⟨-, bytes, ⟨hLt, -⟩, -⟩⟩
        · exact absurd hOther.1 hNone
        · exact hLt
      · exact fun hLt => ⟨_, Or.inr ⟨hNone, _, ⟨hLt, rfl⟩, rfl⟩⟩
  · rw [exportLength, sealedImage, if_neg hNil]
    simp only [exportLive_eq_ok h hNil]
    constructor
    · rintro ⟨sealed, image, bytes, hImage, hEncode, -⟩
      obtain ⟨hValid, hLt, -⟩ := encodeV2SealedSnapshot_eq_ok.mp hEncode
      rw [(stateSnapshot_sorted image state).sorted_eq] at hLt
      obtain ⟨-, -, rfl⟩ := encodeV2Image_eq_ok.mp hImage
      have hSequence := hValid.sequence
      rw [SequenceOk, if_neg (show (stateSnapshot _ state).checkpoints ≠ [] from hNil)] at hSequence
      obtain ⟨-, -, ⟨b, hImport⟩, -⟩ := hSequence
      exact ⟨inOrder_of_import h hImage hImport, hLt⟩
    · rintro ⟨hOrder, hLt⟩
      obtain ⟨hPayload, hNodes, hVersions⟩ := h.nonempty hNil
      have hImage : encodeV2Image sha256 (stateImage state) =
          .ok (imageBytes sha256 (stateImage state)) := by
        refine encodeV2Image_eq_ok.mpr ⟨⟨hPayload, hNodes, fun hRoots => hVersions ?_⟩, ?_, rfl⟩
        · exact List.map_eq_nil_iff.mp hRoots
        · have hLe := length_image_le (imageBytes sha256 (stateImage state)) state
          rw [length_imageBytes] at hLe
          omega
      exact ⟨_, _, _, hImage,
        (encodeSnapshot_state h (h.sequenceOk hNil hOrder hImage)).mpr ⟨hLt, rfl⟩, rfl⟩

/-! ## Recovery with an empty hot log -/

theorem recoverV2HotWal_nil (sha256 : Bytes → Digest) (state : V2CommittedState) :
    recoverV2HotWal sha256 [] state = .ok ⟨state, 0, 0, .endOfBytes⟩ := rfl

/-- What is exported is recovered. -/
theorem StateOk.recover_export (h : StateOk sha256 a state) {sealed : Option Bytes}
    (hExport : exportV2SealedState sha256 state = .ok sealed) :
    recoverV2Backend sha256 sealed [] = .ok ⟨state, ⟨state.payload.length, state.nodes.length,
      state.versions.length, state.checkpoints.length⟩, 0, 0, .endOfBytes⟩ := by
  rw [recoverV2Backend, h.import_export hExport, ok_bind, h.geometry, mapErr_ok, ok_bind,
    recoverV2HotWal_nil, mapErr_ok, ok_bind]
  rfl

end Seal

end TulyaStore.V2
