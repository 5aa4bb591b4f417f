import TulyaStore.Lib.Distinct
import TulyaStore.V2.CommitCodec
import TulyaStore.V2.Snapshot

/-!
# Valid snapshots

`ValidSnapshot` says what `validate_snapshot` checks (`validateSnapshot_eq_ok`). The order of the
ledgers does not matter to it (`ValidSnapshot.perm`).
-/

namespace TulyaStore.V2

open Lib Sequence
open Checkpoint (utf8)

/-- A request identity that can stand in a ledger. -/
def LedgerIdOk (requestId : Bytes) : Prop :=
  requestId ≠ [] ∧ requestId.length ≤ v2MaxRequestIdBytes

theorem validateLedgerRequestId_eq_ok {requestId : Bytes} {u : Unit} :
    validateLedgerRequestId requestId = .ok u ↔ LedgerIdOk requestId := by
  simp only [validateLedgerRequestId, failIf_eq_ok, not_or, gt_iff_lt, Nat.not_lt, LedgerIdOk, ne_eq]

theorem validateLedgerIdentifier_eq_ok {value message : String} {u : Unit} :
    validateLedgerIdentifier value message = .ok u ↔ IdentifierOk value := by
  simp only [validateLedgerIdentifier, failIf_eq_ok, not_or, gt_iff_lt, Nat.not_lt, IdentifierOk,
    ne_eq]

/-- The keys of the checkpoints of a table, in its order. -/
def checkpointKeys (checkpoints : List V2CheckpointRecord) : List V2CheckpointKey :=
  checkpoints.map V2CheckpointRecord.key

/-- The versions are numbered by their position, each behind its parent. -/
def VersionsNumbered (versions : List V2VersionRecord) : Prop :=
  ∀ i version, versions[i]? = some version →
    version.versionId = i ∧ ParentVersionOk i version.parentVersion

/-- The state of a checkpoint is the one over the roots of its versions. -/
def StateAgrees (sha256 : Bytes → Digest) (versions : List V2VersionRecord)
    (checkpoint : V2CheckpointRecord) : Prop :=
  ∃ identity messages result,
    resolveVersionRoot versions checkpoint.identityVersion = .ok identity ∧
    resolveOptionalRoot versions checkpoint.messagesVersion = .ok messages ∧
    resolveOptionalRoot versions checkpoint.resultVersion = .ok result ∧
    checkpointStateMetadata sha256 identity messages result = .ok checkpoint.state

/-- The parent of a checkpoint is one of the given keys. -/
def ParentAmong (keys : List V2CheckpointKey) (checkpoint : V2CheckpointRecord) : Prop :=
  ∀ parent ∈ checkpoint.parentCheckpointId, checkpointKey checkpoint.threadId parent ∈ keys

/-- The sequence state a snapshot needs. -/
def SequenceOk (sha256 : Bytes → Digest) (snapshot : V2SealedSnapshot) : Prop :=
  if snapshot.checkpoints = [] then
    snapshot.image = [] ∧ snapshot.versions = [] ∧ snapshot.activeRequests = [] ∧
      ¬ (snapshot.retiredRequests = [] ∧ snapshot.deletedCheckpoints = [])
  else
    snapshot.image ≠ [] ∧ snapshot.versions ≠ [] ∧
      (∃ arena, importImage sha256 snapshot.image =
        .ok (arena, snapshot.versions.map V2VersionRecord.root)) ∧
      VersionsNumbered snapshot.versions

/-- A checkpoint table: valid records with states over the versions, parents in front of their
children, no key twice. -/
structure CheckpointTable (sha256 : Bytes → Digest) (versions : List V2VersionRecord)
    (checkpoints : List V2CheckpointRecord) : Prop where
  valid : ∀ checkpoint ∈ checkpoints, checkpoint.Valid
  state : ∀ checkpoint ∈ checkpoints, StateAgrees sha256 versions checkpoint
  parent : ∀ i checkpoint, checkpoints[i]? = some checkpoint →
    ParentAmong ((checkpointKeys checkpoints).take i) checkpoint
  nodup : (checkpointKeys checkpoints).Nodup

/-- An active request names a checkpoint with its digest. -/
def ActiveOk (sha256 : Bytes → Digest) (checkpoints : List V2CheckpointRecord)
    (record : V2ActiveRequestRecord) : Prop :=
  LedgerIdOk record.requestId ∧ ∃ checkpoint, checkpoints[record.checkpointOrdinal]? =
    some checkpoint ∧ checkpoint.Valid ∧ operationDigestOf sha256 checkpoint = record.operationDigest

structure ValidSnapshot (sha256 : Bytes → Digest) (snapshot : V2SealedSnapshot) : Prop where
  sequence : SequenceOk sha256 snapshot
  checkpoints : CheckpointTable sha256 snapshot.versions snapshot.checkpoints
  deleted : ∀ record ∈ snapshot.deletedCheckpoints, IdentifierOk record.threadId ∧
    IdentifierOk record.checkpointId ∧ record.key ∉ checkpointKeys snapshot.checkpoints
  deleted_nodup : (snapshot.deletedCheckpoints.map V2DeletedCheckpointRecord.key).Nodup
  active : ∀ record ∈ snapshot.activeRequests, ActiveOk sha256 snapshot.checkpoints record
  active_nodup : (snapshot.activeRequests.map V2ActiveRequestRecord.requestId).Nodup
  retired : ∀ record ∈ snapshot.retiredRequests, LedgerIdOk record.requestId ∧
    record.requestId ∉ snapshot.activeRequests.map V2ActiveRequestRecord.requestId
  retired_nodup : (snapshot.retiredRequests.map V2RetiredRequestRecord.requestId).Nodup

/-! ## The checks -/

section Checks

variable {sha256 : Bytes → Digest} {snapshot : V2SealedSnapshot}

theorem validateSnapshotVersion_eq_ok {root : V2RootRecord} {version : V2VersionRecord} {i : Nat}
    {u : Unit} :
    validateSnapshotVersion ((root, version), i) = .ok u ↔
      (version.versionId = i ∧ ParentVersionOk i version.parentVersion ∧ i < width 32) ∧
        root = version.root := by
  simp only [validateSnapshotVersion, bind_eq_ok, okOr_eq_ok, tryFrom_eq_some, failIf_eq_ok,
    not_not, mapErr_eq_ok, encodeV2Version_eq_ok, exists_const]
  constructor
  · rintro ⟨_, ⟨hLt, rfl⟩, hId, _, ⟨hParent, -⟩, hRoot⟩
    exact ⟨⟨hId, hId ▸ hParent, hLt⟩, hRoot⟩
  · rintro ⟨⟨hId, hParent, hLt⟩, hRoot⟩
    exact ⟨_, ⟨hLt, rfl⟩, hId, _, ⟨hId ▸ hParent, rfl⟩, hRoot⟩

/-- Versions numbered behind their parents have identifiers of 32 bits when there are not too many
of them. -/
theorem zip_validate_eq_ok {roots : List V2RootRecord} {versions : List V2VersionRecord}
    (hLen : roots.length = versions.length) {u : PUnit} :
    (roots.zip versions).zipIdx.forM validateSnapshotVersion = .ok u ↔
      (∀ i version, versions[i]? = some version → version.versionId = i ∧
        ParentVersionOk i version.parentVersion ∧ i < width 32) ∧
      roots = versions.map V2VersionRecord.root := by
  rw [forM_zipIdx_eq_ok]
  simp only [Nat.zero_add, Prod.forall, validateSnapshotVersion_eq_ok, List.getElem?_zip_eq_some]
  constructor
  · intro h
    have hRootAt : ∀ (i : Nat) version, versions[i]? = some version → ∃ root, roots[i]? = some root := by
      intro i version hGet
      have hLt := (List.getElem?_eq_some_iff.mp hGet).1
      exact ⟨_, List.getElem?_eq_getElem (hLen ▸ hLt)⟩
    refine ⟨fun i version hGet => ?_, List.ext_getElem? fun i => ?_⟩
    · obtain ⟨root, hRoot⟩ := hRootAt i version hGet
      exact (h i root version ⟨hRoot, hGet⟩).1
    · rw [List.getElem?_map]
      cases hGet : versions[i]? with
      | none =>
        rw [List.getElem?_eq_none_iff] at hGet
        rw [Option.map_none, List.getElem?_eq_none_iff, hLen]
        exact hGet
      | some version =>
        obtain ⟨root, hRoot⟩ := hRootAt i version hGet
        rw [hRoot, (h i root version ⟨hRoot, hGet⟩).2]
        rfl
  · rintro ⟨hAll, rfl⟩ i root version ⟨hRoot, hGet⟩
    rw [List.getElem?_map, hGet] at hRoot
    cases hRoot
    exact ⟨hAll i version hGet, rfl⟩

theorem resolveVersionRoot_eq_ok {versions : List V2VersionRecord} {id : Nat} {root : V2RootRecord} :
    resolveVersionRoot versions id = .ok root ↔
      ∃ version, versions[id]? = some version ∧ version.root = root := by
  simp only [resolveVersionRoot, okOr_eq_ok, Option.map_eq_some_iff]

/-- The numbered versions of a table that is validated are below the reserved identifier. -/
theorem VersionsNumbered.lt {versions : List V2VersionRecord} (h : VersionsNumbered versions) :
    versions.length ≤ v2NoneVersion := by
  by_contra hNot
  obtain ⟨-, hParent⟩ := h v2NoneVersion _ (List.getElem?_eq_getElem (Nat.lt_of_not_le hNot))
  exact hParent.1 rfl

theorem validateSnapshotSequence_eq_ok {u : Unit} :
    validateSnapshotSequence sha256 snapshot = .ok u ↔ SequenceOk sha256 snapshot := by
  unfold validateSnapshotSequence SequenceOk
  split
  case isTrue =>
    simp only [bind_eq_ok, failIf_eq_ok, not_or, not_not, exists_const, and_assoc]
  case isFalse =>
    simp only [bind_eq_ok, failIf_eq_ok, not_or, not_not, exists_const, mapErr_eq_ok]
    constructor
    · rintro ⟨⟨hImage, hVersions⟩, ⟨arena, roots⟩, hImport, hLen, hAll⟩
      obtain ⟨hNumbered, rfl⟩ := (zip_validate_eq_ok hLen).mp hAll
      exact ⟨hImage, hVersions, ⟨arena, hImport⟩,
        fun i version hGet => ⟨(hNumbered i version hGet).1, (hNumbered i version hGet).2.1⟩⟩
    · rintro ⟨hImage, hVersions, ⟨arena, hImport⟩, hNumbered⟩
      refine ⟨⟨hImage, hVersions⟩, (arena, _), hImport, by simp,
        (zip_validate_eq_ok (by simp)).mpr ⟨fun i version hGet => ?_, rfl⟩⟩
      have hLt := (List.getElem?_eq_some_iff.mp hGet).1
      have hMax := hNumbered.lt
      have hNone : v2NoneVersion + 1 = width 32 := by decide
      exact ⟨(hNumbered i version hGet).1, (hNumbered i version hGet).2, by omega⟩

theorem containsKey_parents {keys : List V2CheckpointKey} {checkpoint : V2CheckpointRecord} :
    (¬ ∃ parent ∈ checkpoint.parentCheckpointId, (KeyMap.empty.insertAll keys.zipIdx).containsKey
      (checkpointKey checkpoint.threadId parent) = false) ↔ ParentAmong keys checkpoint := by
  simp only [not_exists, not_and, Bool.not_eq_false, KeyMap.containsKey_insertAll_empty,
    List.zipIdx_map_fst, ParentAmong]

/-- What a round of the checkpoint loop accepts. -/
theorem validateSnapshotCheckpoint_eq_ok {versions : List V2VersionRecord}
    {ordinals ordinals' : KeyMap V2CheckpointKey Nat} {entry : V2CheckpointRecord × Nat} :
    validateSnapshotCheckpoint sha256 versions ordinals entry = .ok ordinals' ↔
      ((entry.1.Valid ∧ StateAgrees sha256 versions entry.1 ∧ entry.2 < width 64) ∧
        ¬ ∃ parent ∈ entry.1.parentCheckpointId, ordinals.containsKey
          (checkpointKey entry.1.threadId parent) = false) ∧
      ordinals.containsKey entry.1.key = false ∧ ordinals' = ordinals.insert entry.1.key entry.2 := by
  obtain ⟨checkpoint, i⟩ := entry
  simp only [validateSnapshotCheckpoint, bind_eq_ok, mapErr_eq_ok, encodeV2Checkpoint_eq_ok,
    failIf_eq_ok, not_not, okOr_eq_ok, tryFrom_eq_some, pure_eq_ok, exists_const,
    Bool.not_eq_true]
  constructor
  · rintro ⟨_, ⟨hValid, -⟩, identity, hIdentity, messages, hMessages, result, hResult, state, hState,
      hSame, hParent, _, ⟨hLt, rfl⟩, hNew, rfl⟩
    exact ⟨⟨⟨hValid, ⟨identity, messages, result, hIdentity, hMessages, hResult, hSame ▸ hState⟩, hLt⟩,
      hParent⟩, hNew, rfl⟩
  · rintro ⟨⟨⟨hValid, ⟨identity, messages, result, hIdentity, hMessages, hResult, hState⟩, hLt⟩,
      hParent⟩, hNew, rfl⟩
    exact ⟨_, ⟨hValid, rfl⟩, identity, hIdentity, messages, hMessages, result, hResult, _, hState, rfl,
      hParent, _, ⟨hLt, rfl⟩, hNew, rfl⟩

/-- The checkpoint loop leaves the index of the table. -/
theorem validateSnapshotCheckpoints_eq_ok {versions : List V2VersionRecord}
    {checkpoints : List V2CheckpointRecord} {ordinals : KeyMap V2CheckpointKey Nat} :
    checkpoints.zipIdx.foldlM (validateSnapshotCheckpoint sha256 versions) .empty = .ok ordinals ↔
      (CheckpointTable sha256 versions checkpoints ∧ checkpoints.length ≤ width 64) ∧
        ordinals = KeyMap.indexOf (checkpointKeys checkpoints) := by
  rw [@foldlM_insert_eq_ok _ _ _ _ _ _ (fun entry => entry.1.key) Prod.snd _
    fun m entry m' => validateSnapshotCheckpoint_eq_ok]
  have hEntries : ∀ table : List V2CheckpointRecord,
      (table.zipIdx.map fun entry => (entry.1.key, entry.2)) = (checkpointKeys table).zipIdx :=
    fun table => List.zipIdx_map.symm
  have hKeys : (checkpoints.zipIdx.map fun entry => entry.1.key) = checkpointKeys checkpoints := by
    rw [checkpointKeys, ← List.zipIdx_map_fst 0 checkpoints, List.map_map, List.zipIdx_map_fst]
    rfl
  have hTake : ∀ i, ((checkpoints.zipIdx.take i).map fun entry => (entry.1.key, entry.2)) =
      ((checkpointKeys checkpoints).take i).zipIdx := by
    intro i
    rw [take_zipIdx, hEntries, checkpointKeys, checkpointKeys, List.map_take]
  simp only [hTake, containsKey_parents, hKeys, hEntries, KeyMap.containsKey_empty, implies_true,
    and_true, List.getElem?_zipIdx, Option.map_eq_some_iff, KeyMap.indexOf]
  refine and_congr_left fun _ => ⟨?_, ?_⟩
  · rintro ⟨hAll, hDistinct⟩
    have hAt : ∀ (i : Nat) checkpoint, checkpoints[i]? = some checkpoint →
        (checkpoint.Valid ∧ StateAgrees sha256 versions checkpoint ∧ i < width 64) ∧
          ParentAmong ((checkpointKeys checkpoints).take i) checkpoint := by
      intro i checkpoint hGet
      obtain ⟨⟨hValid, hState, hLt⟩, hParent⟩ := hAll i _ ⟨checkpoint, hGet, rfl⟩
      rw [Nat.zero_add] at hLt
      exact ⟨⟨hValid, hState, hLt⟩, hParent⟩
    refine ⟨⟨fun checkpoint hMem => ?_, fun checkpoint hMem => ?_,
      fun i checkpoint hGet => (hAt i checkpoint hGet).2, hDistinct⟩, ?_⟩
    · obtain ⟨i, hGet⟩ := List.mem_iff_getElem?.mp hMem
      exact (hAt i checkpoint hGet).1.1
    · obtain ⟨i, hGet⟩ := List.mem_iff_getElem?.mp hMem
      exact (hAt i checkpoint hGet).1.2.1
    · by_contra hNot
      have hLt := Nat.lt_of_not_le hNot
      exact absurd (hAt (width 64) _ (List.getElem?_eq_getElem hLt)).1.2.2 (Nat.lt_irrefl _)
  · rintro ⟨hTable, hCount⟩
    refine ⟨?_, hTable.nodup⟩
    rintro i _ ⟨checkpoint, hGet, rfl⟩
    have hMem := List.mem_of_getElem? hGet
    have hLt := (List.getElem?_eq_some_iff.mp hGet).1
    exact ⟨⟨hTable.valid checkpoint hMem, hTable.state checkpoint hMem, by dsimp only; omega⟩,
      hTable.parent i checkpoint hGet⟩

theorem validateSnapshotDeleted_eq_ok {ordinals : KeyMap V2CheckpointKey Nat}
    {ids ids' : KeyMap V2CheckpointKey Unit} {record : V2DeletedCheckpointRecord} :
    validateSnapshotDeleted ordinals ids record = .ok ids' ↔
      (IdentifierOk record.threadId ∧ IdentifierOk record.checkpointId ∧
        ordinals.containsKey record.key = false) ∧
      ids.containsKey record.key = false ∧ ids' = ids.insert record.key () := by
  simp only [validateSnapshotDeleted, bind_eq_ok, validateLedgerIdentifier_eq_ok, failIf_eq_ok,
    Bool.not_eq_true, pure_eq_ok, exists_const, and_assoc]
  rw [eq_comm (a := ids')]

theorem validateSnapshotActive_eq_ok {checkpoints : List V2CheckpointRecord}
    {ids ids' : KeyMap Bytes Unit} {record : V2ActiveRequestRecord} :
    validateSnapshotActive sha256 checkpoints ids record = .ok ids' ↔
      ActiveOk sha256 checkpoints record ∧
      ids.containsKey record.requestId = false ∧ ids' = ids.insert record.requestId () := by
  simp only [validateSnapshotActive, bind_eq_ok, validateLedgerRequestId_eq_ok, okOr_eq_ok,
    mapErr_eq_ok, checkpointOperationDigest_eq_ok, failIf_eq_ok, not_not, Bool.not_eq_true,
    pure_eq_ok, exists_const, ActiveOk]
  constructor
  · rintro ⟨hId, checkpoint, hGet, digest, ⟨hValid, rfl⟩, hSame, hNew, rfl⟩
    exact ⟨⟨hId, checkpoint, hGet, hValid, hSame⟩, hNew, rfl⟩
  · rintro ⟨⟨hId, checkpoint, hGet, hValid, hSame⟩, hNew, rfl⟩
    exact ⟨hId, checkpoint, hGet, _, ⟨hValid, rfl⟩, hSame, hNew, rfl⟩

theorem validateSnapshotRetired_eq_ok {activeIds ids ids' : KeyMap Bytes Unit}
    {record : V2RetiredRequestRecord} :
    validateSnapshotRetired activeIds ids record = .ok ids' ↔
      (LedgerIdOk record.requestId ∧ activeIds.containsKey record.requestId = false) ∧
      ids.containsKey record.requestId = false ∧ ids' = ids.insert record.requestId () := by
  simp only [validateSnapshotRetired, bind_eq_ok, validateLedgerRequestId_eq_ok, failIf_eq_ok,
    Bool.not_eq_true, pure_eq_ok, exists_const, and_assoc]
  rw [eq_comm (a := ids')]

/-- A loop over a ledger whose turns do not depend on the entries made before. -/
theorem foldlM_ledger_eq_ok {K α : Type} [LinearOrder K] {key : α → K}
    {f : KeyMap K Unit → α → Except V2SnapshotError (KeyMap K Unit)} {Ok : α → Prop}
    (hTurn : ∀ m x m', f m x = .ok m' ↔
      Ok x ∧ m.containsKey (key x) = false ∧ m' = m.insert (key x) ()) {xs : List α}
    {m : KeyMap K Unit} :
    xs.foldlM f .empty = .ok m ↔ ((∀ x ∈ xs, Ok x) ∧ (xs.map key).Nodup) ∧
      m = KeyMap.empty.insertAll (xs.map fun x => (key x, ())) := by
  rw [@foldlM_insert_eq_ok _ _ _ _ _ f key (fun _ => ()) (fun _ => Ok) hTurn]
  refine and_congr_left fun _ => ?_
  simp only [KeyMap.containsKey_empty, implies_true, and_true]
  refine and_congr_left fun _ => ⟨fun h x hMem => ?_, fun h i x hGet => ?_⟩
  · obtain ⟨i, hGet⟩ := List.mem_iff_getElem?.mp hMem
    exact h i x hGet
  · exact h x (List.mem_of_getElem? hGet)

theorem validateDeletedLoop_eq_ok {ordinals : KeyMap V2CheckpointKey Nat}
    {records : List V2DeletedCheckpointRecord} {ids : KeyMap V2CheckpointKey Unit} :
    records.foldlM (validateSnapshotDeleted ordinals) .empty = .ok ids ↔
      ((∀ record ∈ records, IdentifierOk record.threadId ∧ IdentifierOk record.checkpointId ∧
        ordinals.containsKey record.key = false) ∧
        (records.map V2DeletedCheckpointRecord.key).Nodup) ∧
      ids = KeyMap.empty.insertAll (records.map fun record => (record.key, ())) :=
  foldlM_ledger_eq_ok fun _ record _ => @validateSnapshotDeleted_eq_ok _ _ _ record

theorem validateActiveLoop_eq_ok {checkpoints : List V2CheckpointRecord}
    {records : List V2ActiveRequestRecord} {ids : KeyMap Bytes Unit} :
    records.foldlM (validateSnapshotActive sha256 checkpoints) .empty = .ok ids ↔
      ((∀ record ∈ records, ActiveOk sha256 checkpoints record) ∧
        (records.map V2ActiveRequestRecord.requestId).Nodup) ∧
      ids = KeyMap.empty.insertAll (records.map fun record => (record.requestId, ())) :=
  foldlM_ledger_eq_ok fun _ record _ => @validateSnapshotActive_eq_ok _ _ _ _ record

theorem validateRetiredLoop_eq_ok {activeIds : KeyMap Bytes Unit}
    {records : List V2RetiredRequestRecord} {ids : KeyMap Bytes Unit} :
    records.foldlM (validateSnapshotRetired activeIds) .empty = .ok ids ↔
      ((∀ record ∈ records, LedgerIdOk record.requestId ∧
        activeIds.containsKey record.requestId = false) ∧
        (records.map V2RetiredRequestRecord.requestId).Nodup) ∧
      ids = KeyMap.empty.insertAll (records.map fun record => (record.requestId, ())) :=
  foldlM_ledger_eq_ok fun _ record _ => @validateSnapshotRetired_eq_ok _ _ _ record

/-- `validate_snapshot` accepts the valid snapshots. -/
theorem validateSnapshot_eq_ok {u : Unit} :
    validateSnapshot sha256 snapshot = .ok u ↔
      ValidSnapshot sha256 snapshot ∧ snapshot.checkpoints.length ≤ width 64 := by
  have hLive : ∀ key, (KeyMap.indexOf (checkpointKeys snapshot.checkpoints)).containsKey key =
      false ↔ key ∉ checkpointKeys snapshot.checkpoints := by
    intro key
    rw [← Bool.not_eq_true, KeyMap.indexOf, KeyMap.containsKey_insertAll_empty,
      List.zipIdx_map_fst]
  have hActive : ∀ id, ((KeyMap.empty : KeyMap Bytes Unit).insertAll
      (snapshot.activeRequests.map fun record => (record.requestId, ()))).containsKey id = false ↔
        id ∉ snapshot.activeRequests.map V2ActiveRequestRecord.requestId := by
    intro id
    rw [← Bool.not_eq_true, KeyMap.containsKey_insertAll_empty, List.map_map]
    rfl
  simp only [validateSnapshot, bind_eq_ok, validateSnapshotSequence_eq_ok,
    validateSnapshotCheckpoints_eq_ok, validateDeletedLoop_eq_ok,
    validateActiveLoop_eq_ok, validateRetiredLoop_eq_ok, exists_const]
  constructor
  · rintro ⟨hSequence, _, ⟨⟨hTable, hCount⟩, rfl⟩, _, ⟨⟨hDeleted, hDeletedNodup⟩, -⟩, _,
      ⟨⟨hActiveOk, hActiveNodup⟩, rfl⟩, _, ⟨⟨hRetired, hRetiredNodup⟩, -⟩, -⟩
    refine ⟨⟨hSequence, hTable, fun record hMem => ?_, hDeletedNodup, hActiveOk, hActiveNodup,
      fun record hMem => ?_, hRetiredNodup⟩, hCount⟩
    · obtain ⟨hThread, hCheckpoint, hNew⟩ := hDeleted record hMem
      exact ⟨hThread, hCheckpoint, (hLive _).mp hNew⟩
    · obtain ⟨hId, hNew⟩ := hRetired record hMem
      exact ⟨hId, (hActive _).mp hNew⟩
  · rintro ⟨h, hCount⟩
    refine ⟨h.sequence, _, ⟨⟨h.checkpoints, hCount⟩, rfl⟩, _, ⟨⟨fun record hMem => ?_, h.deleted_nodup⟩, rfl⟩,
      _, ⟨⟨h.active, h.active_nodup⟩, rfl⟩, _, ⟨⟨fun record hMem => ?_, h.retired_nodup⟩, rfl⟩, rfl⟩
    · obtain ⟨hThread, hCheckpoint, hNew⟩ := h.deleted record hMem
      exact ⟨hThread, hCheckpoint, (hLive _).mpr hNew⟩
    · obtain ⟨hId, hNew⟩ := h.retired record hMem
      exact ⟨hId, (hActive _).mpr hNew⟩

/-- A snapshot stays valid when its ledgers are put into another order. -/
theorem ValidSnapshot.perm (h : ValidSnapshot sha256 snapshot)
    {active : List V2ActiveRequestRecord} {retired : List V2RetiredRequestRecord}
    {deleted : List V2DeletedCheckpointRecord} (hActive : active.Perm snapshot.activeRequests)
    (hRetired : retired.Perm snapshot.retiredRequests)
    (hDeleted : deleted.Perm snapshot.deletedCheckpoints) :
    ValidSnapshot sha256 ⟨snapshot.image, snapshot.versions, snapshot.checkpoints, active, retired,
      deleted⟩ where
  sequence := by
    have hSequence := h.sequence
    unfold SequenceOk at hSequence ⊢
    dsimp only
    split at hSequence
    case isTrue hNone =>
      rw [if_pos hNone]
      refine ⟨hSequence.1, hSequence.2.1, ?_, fun hEmpty => hSequence.2.2.2 ⟨?_, ?_⟩⟩
      · exact (hSequence.2.2.1 ▸ hActive).eq_nil
      · exact (hEmpty.1 ▸ hRetired).symm.eq_nil
      · exact (hEmpty.2 ▸ hDeleted).symm.eq_nil
    case isFalse hSome =>
      rw [if_neg hSome]
      exact hSequence
  checkpoints := h.checkpoints
  deleted record hMem := h.deleted record (hDeleted.mem_iff.mp hMem)
  deleted_nodup := (hDeleted.map _).nodup_iff.mpr h.deleted_nodup
  active record hMem := h.active record (hActive.mem_iff.mp hMem)
  active_nodup := (hActive.map _).nodup_iff.mpr h.active_nodup
  retired record hMem := by
    obtain ⟨hId, hNew⟩ := h.retired record (hRetired.mem_iff.mp hMem)
    exact ⟨hId, fun hActiveMem => hNew ((hActive.map _).mem_iff.mp hActiveMem)⟩
  retired_nodup := (hRetired.map _).nodup_iff.mpr h.retired_nodup

end Checks

end TulyaStore.V2
