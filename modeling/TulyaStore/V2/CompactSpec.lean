import TulyaStore.V2.CompactPlan

/-!
# Compaction of a valid state

From a valid state `compact_v2_state` succeeds (`StateOk.compact`). What it leaves is the planned
part of the old state: every table in its old order, numbered anew by the rank among what is
retained. The content of a version is the one it had, and a second compaction changes nothing.
-/

namespace TulyaStore.V2

open Lib Sequence
open Sequence.V2AvlSequence

section Compact

variable {sha256 : Bytes → Digest} {a : V2AvlSequence} {state : V2CommittedState}
  {plan : V2CompactionPlan}

/-! ## The compact tables -/

def renumberVersion (versionRank nodeRank : Nat → Nat) (version : V2VersionRecord) :
    V2VersionRecord :=
  ⟨versionRank version.versionId, version.parentVersion.map versionRank,
    version.root.renumber nodeRank⟩

/-- The retained versions under their new numbers. -/
def compactVersions (versions : List V2VersionRecord) (plan : V2CompactionPlan) :
    List V2VersionRecord :=
  plan.retainedVersions.filterMap fun i => (versions[i]?).map
    (renumberVersion (rank plan.retainedVersions) (rank plan.retainedNodes))

def renumberCheckpoint (versionRank : Nat → Nat) (checkpoint : V2CheckpointRecord) :
    V2CheckpointRecord :=
  { checkpoint with
    identityVersion := versionRank checkpoint.identityVersion
    messagesVersion := checkpoint.messagesVersion.map versionRank
    resultVersion := checkpoint.resultVersion.map versionRank }

/-- The arena a plan leaves. -/
def planArena (a : V2AvlSequence) (plan : V2CompactionPlan) : V2AvlSequence :=
  compactArena a plan.retainedNodes plan.retainedPayloadRanges

/-- The state a plan leaves. -/
def V2CommittedState.compacted (state : V2CommittedState) (a : V2AvlSequence)
    (plan : V2CompactionPlan) : V2CommittedState :=
  { state with
    payload := (planArena a plan).payload
    nodes := records (planArena a plan)
    versions := compactVersions state.versions plan
    checkpoints := state.checkpoints.map (renumberCheckpoint (rank plan.retainedVersions)) }

theorem PlanOk.isSome (h : PlanOk a state plan) : ∀ i ∈ plan.retainedVersions,
    ((state.versions[i]?).map
      (renumberVersion (rank plan.retainedVersions) (rank plan.retainedNodes))).isSome := by
  intro i hMem
  rw [List.getElem?_eq_getElem (h.versions.inside i hMem)]
  rfl

theorem PlanOk.length_versions (h : PlanOk a state plan) :
    (compactVersions state.versions plan).length = plan.retainedVersions.length :=
  length_filterMap h.isSome

theorem PlanOk.getElem?_versions (h : PlanOk a state plan) (k : Nat) :
    (compactVersions state.versions plan)[k]? = plan.retainedVersions[k]?.bind fun i =>
      (state.versions[i]?).map
        (renumberVersion (rank plan.retainedVersions) (rank plan.retainedNodes)) :=
  getElem?_filterMap h.isSome k

/-- A retained version under its new number. -/
theorem PlanOk.version_at (h : PlanOk a state plan) {i : Nat} (hMem : i ∈ plan.retainedVersions)
    {version : V2VersionRecord} (hGet : state.versions[i]? = some version) :
    (compactVersions state.versions plan)[rank plan.retainedVersions i]? =
      some (renumberVersion (rank plan.retainedVersions) (rank plan.retainedNodes) version) := by
  rw [h.getElem?_versions, getElem?_rank h.versions.sorted hMem, Option.bind_some, hGet]
  rfl

/-- The node under the root of a retained version is retained. -/
theorem PlanOk.root_mem (h : PlanOk a state plan) {i : Nat} (hMem : i ∈ plan.retainedVersions)
    {version : V2VersionRecord} (hGet : state.versions[i]? = some version) :
    version.root.nodeId ∈ plan.retainedNodes :=
  (h.nodes _).mpr (.seed (List.mem_map_of_mem (mem_retainedRoots.mpr ⟨i, hMem, version, hGet, rfl⟩)))

/-- The root of a retained version in the compact arena. -/
theorem PlanOk.root_denotes (h : PlanOk a state plan) (hWf : WellFormed sha256 a) {i : Nat}
    (hMem : i ∈ plan.retainedVersions) {version : V2VersionRecord}
    (hGet : state.versions[i]? = some version) {t : Rope UInt8}
    (hDenotes : Denotes sha256 a t version.root) :
    Denotes sha256 (planArena a plan) t (version.root.renumber (rank plan.retainedNodes)) :=
  h.arena.denotes hWf hDenotes (h.root_mem hMem hGet)

/-! ## Rebuilding the versions -/

/-- The entry of the mapping for a version. -/
def versionEntry (retained : List Nat) (i : Nat) : V2VersionIdMapping := ⟨i, rank retained i⟩

theorem remappedVersionId_ok {retained ids : List Nat} {i : Nat} (hMem : i ∈ ids) :
    remappedVersionId (ids.map (versionEntry retained)) i = .ok (rank retained i) := by
  have hFound : ((ids.map (versionEntry retained)).find? fun entry => entry.oldVersion = i) =
      some (versionEntry retained i) := by
    induction ids with
    | nil => exact absurd hMem List.not_mem_nil
    | cons j ids ih =>
      rw [List.map_cons, List.find?_cons]
      by_cases hSame : j = i
      · simp [versionEntry, hSame]
      · have hTail : i ∈ ids := (List.mem_cons.mp hMem).resolve_left fun h => hSame h.symm
        simpa [versionEntry, hSame] using ih hTail
  rw [remappedVersionId, hFound]
  rfl

theorem remappedOptionalVersion_ok (retained : List Nat) {ids : List Nat} {version : Option Nat}
    (h : ∀ i ∈ version, i ∈ ids) :
    remappedOptionalVersion (ids.map (versionEntry retained)) version =
      .ok (version.map (rank retained)) := by
  cases version with
  | none => rfl
  | some i =>
    rw [remappedOptionalVersion, remappedVersionId_ok (h i rfl), ok_bind]
    rfl

/-- The root of a retained version is found again in the compact records. -/
theorem rebuildRoot_ok (h : PlanOk a state plan) (hWf : WellFormed sha256 a) {i : Nat}
    (hMem : i ∈ plan.retainedVersions) {version : V2VersionRecord}
    (hGet : state.versions[i]? = some version) {t : Rope UInt8}
    (hDenotes : Denotes sha256 a t version.root) :
    rebuildRoot (records (planArena a plan))
        (plan.retainedNodes.map (rankedEntry plan.retainedNodes)) version.root =
      .ok (version.root.renumber (rank plan.retainedNodes)) := by
  obtain ⟨node, hNode, hRoot⟩ := (h.root_denotes hWf hMem hGet hDenotes).root_eq
  have hSame : ¬ ((version.root.renumber (rank plan.retainedNodes)).logicalLen ≠
      version.root.logicalLen ∨
      (version.root.renumber (rank plan.retainedNodes)).height ≠ version.root.height ∨
      (version.root.renumber (rank plan.retainedNodes)).commitment ≠ version.root.commitment) := by
    rintro (hLen | hHeight | hCommitment)
    · exact hLen rfl
    · exact hHeight rfl
    · exact hCommitment rfl
  have hRecord : (records (planArena a plan))[rank plan.retainedNodes version.root.nodeId]? =
      some node.record := getElem?_records hNode
  rw [rebuildRoot, remappedNodeId_ok (h.root_mem hMem hGet), mapErr_ok, ok_bind, hRecord, okOr_some,
    ok_bind]
  have hFrom : V2RootRecord.fromNode (rank plan.retainedNodes version.root.nodeId) node.record =
      .ok (version.root.renumber (rank plan.retainedNodes)) := hRoot
  rw [hFrom, mapErr_ok, ok_bind, failIf_neg hSame, ok_bind]
  rfl

/-- What holds of the loop in front of its turn `k`. -/
structure VersionsRebuilt (versions : List V2VersionRecord) (plan : V2CompactionPlan) (k : Nat)
    (rebuilt : RebuiltVersions) : Prop where
  versions : rebuilt.versions = (compactVersions versions plan).take k
  mapping : rebuilt.mapping =
    (plan.retainedVersions.take k).map (versionEntry plan.retainedVersions)

/-- What stands in front of a retained number. -/
theorem mem_take_of_lt {retained : List Nat} (hSorted : retained.Pairwise (· < ·)) {k i j : Nat}
    (hGet : retained[k]? = some i) (hMem : j ∈ retained) (hLt : j < i) : j ∈ retained.take k := by
  have hRank := rank_lt hLt hMem
  rw [rank_of_getElem? hSorted hGet] at hRank
  refine List.mem_of_getElem? (i := rank retained j) ?_
  rw [List.getElem?_take_of_lt hRank, getElem?_rank hSorted hMem]

theorem rebuildVersion_ok (h : PlanOk a state plan) (hState : StateOk sha256 a state) {k i : Nat}
    (hGet : plan.retainedVersions[k]? = some i) {rebuilt : RebuiltVersions}
    (hRebuilt : VersionsRebuilt state.versions plan k rebuilt) :
    ∃ next, rebuildVersion state.versions (records (planArena a plan))
        (plan.retainedNodes.map (rankedEntry plan.retainedNodes)) rebuilt i = .ok next ∧
      VersionsRebuilt state.versions plan (k + 1) next := by
  have hNone : v2NoneVersion + 1 = width 32 := by decide
  have hMem := List.mem_of_getElem? hGet
  have hRank := rank_of_getElem? h.versions.sorted hGet
  obtain ⟨version, hVersion⟩ : ∃ version, state.versions[i]? = some version :=
    ⟨_, List.getElem?_eq_getElem (h.versions.inside i hMem)⟩
  obtain ⟨hId, hIdNone, hParentNone, hParent⟩ := hState.numbered i version hVersion
  obtain ⟨t, hDenotes⟩ := hState.roots version (List.mem_of_getElem? hVersion)
  have hNew := h.version_at hMem hVersion
  rw [hRank] at hNew
  have hCount : rebuilt.versions.length = k := by
    have hLt := (List.getElem?_eq_some_iff.mp hNew).1
    rw [hRebuilt.versions, List.length_take]
    omega
  have hSmall : k < v2NoneVersion := by
    have hLe := rank_le h.versions.sorted i
    have hInside := h.versions.inside i hMem
    have hMax := hState.versions_le
    omega
  have hParents : ∀ parent ∈ version.parentVersion, parent ∈ plan.retainedVersions.take k := by
    intro parent hSome
    exact mem_take_of_lt h.versions.sorted hGet
      (h.versions.parent hMem ⟨version, hVersion, hSome⟩) (hParent parent hSome)
  have hBelow : ∀ parent ∈ version.parentVersion, rank plan.retainedVersions parent < k := by
    intro parent hSome
    rw [← hRank]
    exact rank_lt (hParent parent hSome) (h.versions.parent hMem ⟨version, hVersion, hSome⟩)
  have hOk : ParentVersionOk k (version.parentVersion.map (rank plan.retainedVersions)) := by
    refine ⟨by omega, ?_, ?_⟩
    · intro hSome
      obtain ⟨parent, hMemParent, hEq⟩ := Option.map_eq_some_iff.mp hSome
      have hLt := hBelow parent hMemParent
      omega
    · intro parent hSome
      obtain ⟨old, hMemParent, rfl⟩ := Option.map_eq_some_iff.mp hSome
      exact hBelow old hMemParent
  have hMapping := remappedOptionalVersion_ok plan.retainedVersions hParents
  rw [← hRebuilt.mapping] at hMapping
  refine ⟨⟨rebuilt.versions ++ [⟨k, version.parentVersion.map (rank plan.retainedVersions),
    version.root.renumber (rank plan.retainedNodes)⟩], rebuilt.mapping ++ [⟨i, k⟩]⟩, ?_, ?_, ?_⟩
  · rw [rebuildVersion, hVersion, okOr_some, ok_bind, failIf_neg (not_not_intro hId), ok_bind, hMapping,
      ok_bind, rebuildRoot_ok h hState.wellFormed hMem hVersion hDenotes, ok_bind, hCount,
      tryFrom_of_lt (by omega), okOr_some, ok_bind, V2VersionRecord.new,
      validateParentVersion_eq_ok (u := ()) |>.mpr hOk, ok_bind]
    rfl
  · rw [List.take_add_one, hNew, ← hRebuilt.versions, renumberVersion, hId, hRank]
    rfl
  · rw [List.take_add_one, hGet, List.map_append, ← hRebuilt.mapping, ← hRank]
    rfl

/-- The versions are rebuilt. -/
theorem rebuildCompactVersions_ok (h : PlanOk a state plan) (hState : StateOk sha256 a state) :
    rebuildCompactVersions state plan.retainedVersions (records (planArena a plan))
        (plan.retainedNodes.map (rankedEntry plan.retainedNodes)) =
      .ok (compactVersions state.versions plan,
        plan.retainedVersions.map (versionEntry plan.retainedVersions)) := by
  have hTurn : ∀ (k i : Nat) rebuilt, plan.retainedVersions[k]? = some i →
      VersionsRebuilt state.versions plan k rebuilt →
      ∃ next, rebuildVersion state.versions (records (planArena a plan))
        (plan.retainedNodes.map (rankedEntry plan.retainedNodes)) rebuilt i = .ok next ∧
        VersionsRebuilt state.versions plan (k + 1) next :=
    fun k i rebuilt hGet hRebuilt => rebuildVersion_ok h hState hGet hRebuilt
  have hStart : VersionsRebuilt state.versions plan 0 ⟨[], []⟩ := ⟨rfl, rfl⟩
  obtain ⟨final, hRun, hVersions, hMapping⟩ := foldlM_indexed hTurn hStart
  rw [← h.length_versions, List.take_length] at hVersions
  rw [List.take_length] at hMapping
  rw [rebuildCompactVersions, hRun, ok_bind, hVersions, hMapping]
  rfl

/-! ## Rebuilding the checkpoints -/

/-- The state of a checkpoint does not depend on where its roots stand. -/
theorem checkpointStateMetadata_renumber (number : Nat → Nat) (identity : V2RootRecord)
    (messages result : Option V2RootRecord) :
    checkpointStateMetadata sha256 (identity.renumber number)
        (messages.map (V2RootRecord.renumber number)) (result.map (V2RootRecord.renumber number)) =
      checkpointStateMetadata sha256 identity messages result := by
  cases messages <;> cases result <;> rfl

/-- Numbering the versions anew does not touch the operation. -/
theorem operationDigestOf_renumber (number : Nat → Nat) (checkpoint : V2CheckpointRecord) :
    operationDigestOf sha256 (renumberCheckpoint number checkpoint) =
      operationDigestOf sha256 checkpoint := rfl

theorem rank_ne_none {retained : List Nat} (hSorted : retained.Pairwise (· < ·)) {i : Nat}
    (hLt : i < v2NoneVersion) : rank retained i ≠ v2NoneVersion :=
  (lt_of_le_of_lt (rank_le hSorted i) hLt).ne

theorem V2CheckpointRecord.Valid.renumber {checkpoint : V2CheckpointRecord} (h : checkpoint.Valid)
    {retained : List Nat} (hSorted : retained.Pairwise (· < ·))
    (hNamed : ∀ id ∈ checkpoint.versions, id < v2NoneVersion) :
    (renumberCheckpoint (rank retained) checkpoint).Valid where
  threadId := h.threadId
  checkpointId := h.checkpointId
  parent := h.parent
  identityVersion := rank_ne_none hSorted (hNamed _ (by simp [V2CheckpointRecord.versions]))
  messagesVersion := by
    intro hSome
    obtain ⟨id, hId, hNone⟩ := Option.map_eq_some_iff.mp hSome
    exact rank_ne_none hSorted (hNamed id (by simp [V2CheckpointRecord.versions, hId])) hNone
  resultVersion := by
    intro hSome
    obtain ⟨id, hId, hNone⟩ := Option.map_eq_some_iff.mp hSome
    exact rank_ne_none hSorted (hNamed id (by simp [V2CheckpointRecord.versions, hId])) hNone
  logicalLen := h.logicalLen

/-- The root of a retained version in the compact version table. -/
theorem compactRoot_ok (h : PlanOk a state plan) {id : Nat} (hMem : id ∈ plan.retainedVersions)
    {root : V2RootRecord} (hRoot : resolveVersionRoot state.versions id = .ok root) :
    (compactVersions state.versions plan)[rank plan.retainedVersions id]?.map V2VersionRecord.root =
      some (root.renumber (rank plan.retainedNodes)) := by
  obtain ⟨version, hGet, rfl⟩ := resolveVersionRoot_eq_ok.mp hRoot
  rw [h.version_at hMem hGet]
  rfl

theorem compactVersionRoot_ok {versions : List V2VersionRecord} {id : Nat} {root : V2RootRecord}
    (h : versions[id]?.map V2VersionRecord.root = some root) :
    compactVersionRoot versions id = .ok root := by
  obtain ⟨version, hGet, rfl⟩ := Option.map_eq_some_iff.mp h
  rw [compactVersionRoot, hGet]
  rfl

theorem resolveVersionRoot_ok {versions : List V2VersionRecord} {id : Nat} {root : V2RootRecord}
    (h : versions[id]?.map V2VersionRecord.root = some root) :
    resolveVersionRoot versions id = .ok root := by
  obtain ⟨version, hGet, rfl⟩ := Option.map_eq_some_iff.mp h
  exact resolveVersionRoot_eq_ok.mpr ⟨version, hGet, rfl⟩

theorem compactOptionalRoot_ok (h : PlanOk a state plan) {version : Option Nat}
    (hMem : ∀ id ∈ version, id ∈ plan.retainedVersions) {root : Option V2RootRecord}
    (hRoot : resolveOptionalRoot state.versions version = .ok root) :
    compactOptionalRoot (compactVersions state.versions plan)
        (version.map (rank plan.retainedVersions)) =
      .ok (root.map (V2RootRecord.renumber (rank plan.retainedNodes))) := by
  cases version with
  | none =>
    cases hRoot
    rfl
  | some id =>
    simp only [resolveOptionalRoot, bind_eq_ok, pure_eq_ok] at hRoot
    obtain ⟨root, hResolved, rfl⟩ := hRoot
    rw [Option.map_some, compactOptionalRoot,
      compactVersionRoot_ok (compactRoot_ok h (hMem id rfl) hResolved), ok_bind]
    rfl

theorem resolveOptionalRoot_compact (h : PlanOk a state plan) {version : Option Nat}
    (hMem : ∀ id ∈ version, id ∈ plan.retainedVersions) {root : Option V2RootRecord}
    (hRoot : resolveOptionalRoot state.versions version = .ok root) :
    resolveOptionalRoot (compactVersions state.versions plan)
        (version.map (rank plan.retainedVersions)) =
      .ok (root.map (V2RootRecord.renumber (rank plan.retainedNodes))) := by
  cases version with
  | none =>
    cases hRoot
    rfl
  | some id =>
    simp only [resolveOptionalRoot, bind_eq_ok, pure_eq_ok] at hRoot
    obtain ⟨root, hResolved, rfl⟩ := hRoot
    rw [Option.map_some, resolveOptionalRoot,
      resolveVersionRoot_ok (compactRoot_ok h (hMem id rfl) hResolved), ok_bind]
    rfl

/-- The versions a checkpoint of the state names are retained. -/
structure NamesRetained (retained : List Nat) (checkpoint : V2CheckpointRecord) : Prop where
  identityVersion : checkpoint.identityVersion ∈ retained
  messagesVersion : ∀ id ∈ checkpoint.messagesVersion, id ∈ retained
  resultVersion : ∀ id ∈ checkpoint.resultVersion, id ∈ retained

theorem PlanOk.names (h : PlanOk a state plan) {checkpoint : V2CheckpointRecord}
    (hMem : checkpoint ∈ state.checkpoints) : NamesRetained plan.retainedVersions checkpoint where
  identityVersion := h.versions.named hMem (by simp [V2CheckpointRecord.versions])
  messagesVersion id hId := by
    refine h.versions.named hMem ?_
    rw [Option.mem_def] at hId
    simp [V2CheckpointRecord.versions, hId]
  resultVersion id hId := by
    refine h.versions.named hMem ?_
    rw [Option.mem_def] at hId
    simp [V2CheckpointRecord.versions, hId]

theorem StateAgrees.compact (h : PlanOk a state plan) {checkpoint : V2CheckpointRecord}
    (hMem : checkpoint ∈ state.checkpoints) (hState : StateAgrees sha256 state.versions checkpoint) :
    StateAgrees sha256 (compactVersions state.versions plan)
      (renumberCheckpoint (rank plan.retainedVersions) checkpoint) := by
  obtain ⟨identity, messages, result, hIdentity, hMessages, hResult, hMade⟩ := hState
  have hNames := h.names hMem
  exact ⟨_, _, _, resolveVersionRoot_ok (compactRoot_ok h hNames.identityVersion hIdentity),
    resolveOptionalRoot_compact h hNames.messagesVersion hMessages,
    resolveOptionalRoot_compact h hNames.resultVersion hResult,
    (checkpointStateMetadata_renumber _ identity messages result).trans hMade⟩

theorem StateOk.renumber_valid (hState : StateOk sha256 a state) (h : PlanOk a state plan)
    {checkpoint : V2CheckpointRecord} (hMem : checkpoint ∈ state.checkpoints) :
    (renumberCheckpoint (rank plan.retainedVersions) checkpoint).Valid := by
  refine (hState.table.valid checkpoint hMem).renumber h.versions.sorted fun id hId => ?_
  have hLt := hState.named_lt id (List.mem_flatMap.mpr ⟨checkpoint, hMem, hId⟩)
  have hMax := hState.versions_le
  omega

theorem rebuildCheckpoint_ok (h : PlanOk a state plan) (hState : StateOk sha256 a state)
    {checkpoint : V2CheckpointRecord} (hMem : checkpoint ∈ state.checkpoints) :
    rebuildCheckpoint sha256 (compactVersions state.versions plan)
        (plan.retainedVersions.map (versionEntry plan.retainedVersions)) checkpoint =
      .ok (renumberCheckpoint (rank plan.retainedVersions) checkpoint) := by
  have hNames := h.names hMem
  have hValid := hState.table.valid checkpoint hMem
  have hNewValid := hState.renumber_valid h hMem
  obtain ⟨identity, messages, result, hIdentity, hMessages, hResult, hMade⟩ :=
    hState.table.state checkpoint hMem
  have hDigest : checkpointOperationDigest sha256 checkpoint =
      .ok (operationDigestOf sha256 checkpoint) := checkpointOperationDigest_eq_ok.mpr ⟨hValid, rfl⟩
  have hNewDigest : checkpointOperationDigest sha256
      (renumberCheckpoint (rank plan.retainedVersions) checkpoint) =
        .ok (operationDigestOf sha256 checkpoint) :=
    checkpointOperationDigest_eq_ok.mpr ⟨hNewValid, (operationDigestOf_renumber _ _).symm⟩
  rw [rebuildCheckpoint, remappedVersionId_ok hNames.identityVersion, ok_bind,
    remappedOptionalVersion_ok _ hNames.messagesVersion, ok_bind,
    remappedOptionalVersion_ok _ hNames.resultVersion, ok_bind,
    compactVersionRoot_ok (compactRoot_ok h hNames.identityVersion hIdentity), ok_bind,
    compactOptionalRoot_ok h hNames.messagesVersion hMessages, ok_bind,
    compactOptionalRoot_ok h hNames.resultVersion hResult, ok_bind, checkpointStateMetadata_renumber,
    hMade, mapErr_ok, ok_bind, failIf_neg (not_not_intro rfl), ok_bind]
  change (mapErr _ (checkpointOperationDigest sha256
    (renumberCheckpoint (rank plan.retainedVersions) checkpoint)) >>= _) = _
  rw [hNewDigest, mapErr_ok, ok_bind, hDigest, mapErr_ok, ok_bind, failIf_neg (not_not_intro rfl),
    ok_bind]
  rfl

/-- A loop that collects the results of a function that succeeds. -/
theorem mapM_map_ok {ε α β : Type} {f : α → Except ε β} {g : α → β} {xs : List α}
    (h : ∀ x ∈ xs, f x = .ok (g x)) : xs.mapM f = .ok (xs.map g) := by
  rw [mapM_eq_ok]
  induction xs with
  | nil => exact .nil
  | cons x xs ih =>
    exact .cons (h x List.mem_cons_self) (ih fun y hMem => h y (List.mem_cons_of_mem _ hMem))

/-! ## The whole compaction -/

/-- From a valid state a compaction leaves the state of its plan. -/
theorem StateOk.compact (h : StateOk sha256 a state) : ∃ plan, PlanOk a state plan ∧
    planV2Compaction state = .ok plan ∧
    compactV2State sha256 state = .ok () (state.compacted a plan) := by
  obtain ⟨plan, hPlan, hOk⟩ := planV2Compaction_ok h
  have hPayload := repackCompactRanges_ok hOk.arena h.wellFormed h.payload_lt
  have hNodes := rebuildCompactRecords_ok hOk.arena h.wellFormed
  rw [h.payload] at hPayload
  rw [h.nodes] at hNodes
  have hCheckpoints : rebuildCompactCheckpoints sha256 state (compactVersions state.versions plan)
      (plan.retainedVersions.map (versionEntry plan.retainedVersions)) =
      .ok (state.checkpoints.map (renumberCheckpoint (rank plan.retainedVersions))) :=
    mapM_map_ok fun checkpoint hMem => rebuildCheckpoint_ok hOk h hMem
  have hPrepare : prepareV2Compaction sha256 state = .ok ⟨(planArena a plan).payload,
      records (planArena a plan), compactVersions state.versions plan,
      state.checkpoints.map (renumberCheckpoint (rank plan.retainedVersions)),
      plan.retainedVersions.map (versionEntry plan.retainedVersions),
      plan.retainedNodes.map (rankedEntry plan.retainedNodes),
      plan.retainedPayloadRanges.map (movedEntry plan.retainedPayloadRanges)⟩ := by
    rw [prepareV2Compaction, hPlan, ok_bind, hPayload, mapErr_ok, ok_bind]
    dsimp only
    rw [hNodes, mapErr_ok, ok_bind]
    dsimp only
    change (rebuildCompactVersions state plan.retainedVersions (records (planArena a plan)) _ >>= _) =
      _
    rw [rebuildCompactVersions_ok hOk h, ok_bind]
    dsimp only
    rw [hCheckpoints, ok_bind]
    rfl
  exact ⟨plan, hOk, hPlan, attempt_bind_ok (s := state) hPrepare⟩

end Compact

end TulyaStore.V2
