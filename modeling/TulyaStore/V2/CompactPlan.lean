import TulyaStore.Sequence.ArenaRuns
import TulyaStore.V2.Compaction
import TulyaStore.V2.DeleteSpec

/-!
# What a compaction retains

The plan of a compaction of a valid state: the versions the checkpoints name with all their
ancestors (`planRetainedVersions_ok`), then the nodes under the roots of these versions and the
payload of the leaves among them (`planV2Compaction_ok`).
-/

namespace TulyaStore.V2

open Lib Sequence
open Sequence.V2AvlSequence

section Plan

variable {sha256 : Bytes → Digest} {a : V2AvlSequence} {state : V2CommittedState}
  {versions : List V2VersionRecord} {checkpoints : List V2CheckpointRecord}
  {seeds done : List Nat} {plan : VersionPlanState}

/-- `j` is the parent of the version `i`. -/
def VersionParent (versions : List V2VersionRecord) (i j : Nat) : Prop :=
  ∃ version, versions[i]? = some version ∧ version.parentVersion = some j

/-- The versions named by checkpoints. -/
def namedVersions (checkpoints : List V2CheckpointRecord) : List Nat :=
  checkpoints.flatMap V2CheckpointRecord.versions

/-! ## Versions -/

theorem claimVersion_eq (plan : VersionPlanState) (versionId : Nat) :
    claimVersion plan versionId = ⟨(claim versionId (plan.retained, plan.worklist)).1,
      (claim versionId (plan.retained, plan.worklist)).2⟩ := by
  unfold claimVersion claim
  split <;> rfl

theorem foldl_claimVersion (ids : List Nat) (marks : List Nat × List Nat) :
    ids.foldl claimVersion ⟨marks.1, marks.2⟩ =
      ⟨(ids.foldl (fun marks x => claim x marks) marks).1,
        (ids.foldl (fun marks x => claim x marks) marks).2⟩ := by
  induction ids generalizing marks with
  | nil => rfl
  | cons id ids ih =>
    rw [List.foldl_cons, List.foldl_cons, claimVersion_eq]
    exact ih _

theorem foldl_claimCheckpoint (checkpoints : List V2CheckpointRecord) (plan : VersionPlanState) :
    checkpoints.foldl claimCheckpoint plan = (namedVersions checkpoints).foldl claimVersion plan := by
  rw [namedVersions, List.foldl_flatMap]
  rfl

/-- What holds of the loop when the versions `done` were visited. -/
structure VersionsMarked (versions : List V2VersionRecord) (seeds done : List Nat)
    (plan : VersionPlanState) : Prop where
  marking : Marking (VersionParent versions) seeds done plan.worklist
  claimed : plan.retained.Perm (done ++ plan.worklist)

theorem versionsMarked_start (versions : List V2VersionRecord)
    (checkpoints : List V2CheckpointRecord) :
    VersionsMarked versions (namedVersions checkpoints) []
      (checkpoints.foldl claimCheckpoint ⟨[], []⟩) := by
  obtain ⟨hPerm, hNodup, hMem⟩ := foldl_claim_spec (namedVersions checkpoints)
  rw [foldl_claimCheckpoint, foldl_claimVersion _ ([], [])]
  exact ⟨.start hNodup hMem, hPerm⟩

/-- Parents stand in front of their children, so nothing outside the table is reached. -/
theorem versionReaches_lt (hNumbered : VersionsNumbered versions)
    (hSeeds : ∀ s ∈ seeds, s < versions.length) {i : Nat}
    (h : Reaches (VersionParent versions) seeds i) : i < versions.length := by
  refine Reaches.induction (P := fun i => i < versions.length) hSeeds ?_ h
  intro i j hLt hParent
  obtain ⟨version, hGet, hSome⟩ := hParent
  have hBefore := (hNumbered i version hGet).2.2.2 j hSome
  omega

/-- The visit of a version. -/
theorem planVersion_ok (hNumbered : VersionsNumbered versions)
    (hSeeds : ∀ s ∈ seeds, s < versions.length) {i : Nat} {rest : List Nat}
    (h : VersionsMarked versions seeds done plan) (hWork : plan.worklist = i :: rest) :
    ∃ next, planVersion versions { plan with worklist := rest } i = .ok next ∧
      VersionsMarked versions seeds (done ++ [i]) next := by
  obtain ⟨hMarking, hClaimed⟩ := h
  rw [hWork] at hMarking hClaimed
  have hLt := versionReaches_lt hNumbered hSeeds (hMarking.reached i (by simp))
  obtain ⟨version, hGet⟩ : ∃ version, versions[i]? = some version :=
    ⟨_, List.getElem?_eq_getElem hLt⟩
  obtain ⟨hId, -, -, hParent⟩ := hNumbered i version hGet
  have hAssoc : ∀ work : List Nat, done ++ [i] ++ work = done ++ i :: work := fun work => by simp
  have hOnly : ∀ j, VersionParent versions i j ↔ version.parentVersion = some j := by
    intro j
    constructor
    · rintro ⟨other, hOther, hSome⟩
      rw [hGet] at hOther
      cases hOther
      exact hSome
    · exact fun hSome => ⟨version, hGet, hSome⟩
  rw [planVersion, hGet, okOr_some, ok_bind, failIf_neg (not_not_intro hId), ok_bind]
  cases hSome : version.parentVersion with
  | none =>
    refine ⟨_, rfl, hMarking.visit hMarking.nodup fun j => ⟨Or.inl, ?_⟩, ?_⟩
    · rintro (hMem | hLink)
      · exact hMem
      · rw [hOnly, hSome] at hLink
        cases hLink
    · rw [hAssoc]
      exact hClaimed
  | some parent =>
    have hBefore := hParent parent hSome
    dsimp only
    rw [failIf_neg (by omega), ok_bind, failIf_neg (by omega), ok_bind, claimVersion_eq]
    rw [← hAssoc] at hClaimed
    have hNodup := hMarking.nodup
    rw [← hAssoc] at hNodup
    have hStart : (plan.retained, rest).1.Perm (done ++ [i] ++ (plan.retained, rest).2) := hClaimed
    obtain ⟨hPerm, hDistinct, hMem⟩ := claim_spec hStart hNodup parent
    refine ⟨_, rfl, hMarking.visit (by rwa [← hAssoc]) fun j => ?_, hPerm⟩
    rw [← hAssoc, hMem, hAssoc, hOnly, hSome, Option.some.injEq, eq_comm]

/-- The loop ends with every reached version visited. -/
theorem planVersionLoop_ok (hNumbered : VersionsNumbered versions)
    (hSeeds : ∀ s ∈ seeds, s < versions.length) {fuel : Nat}
    (h : VersionsMarked versions seeds done plan) (hFuel : versions.length < fuel + done.length) :
    ∃ final visited, planVersionLoop versions fuel plan = .ok final ∧
      VersionsMarked versions seeds visited final ∧ final.worklist = [] := by
  have hBound := h.marking.length_le fun _ hReached => versionReaches_lt hNumbered hSeeds hReached
  induction fuel generalizing done plan with
  | zero => omega
  | succ fuel ih =>
    unfold planVersionLoop
    cases hWork : plan.worklist with
    | nil => exact ⟨plan, done, rfl, h, hWork⟩
    | cons i rest =>
      obtain ⟨next, hNext, hMarked⟩ := planVersion_ok hNumbered hSeeds h hWork
      have hLen : (done ++ [i]).length = done.length + 1 := by simp
      obtain ⟨final, visited, hRun, hDone⟩ := ih hMarked (by omega)
        (hMarked.marking.length_le fun _ hReached => versionReaches_lt hNumbered hSeeds hReached)
      refine ⟨final, visited, ?_, hDone⟩
      dsimp only
      rw [hNext, ok_bind, hRun]

/-- The retained versions: in ascending order, those the checkpoints name and their ancestors. -/
structure VersionsRetained (state : V2CommittedState) (retained : List Nat) : Prop where
  sorted : retained.Pairwise (· < ·)
  inside : ∀ i ∈ retained, i < state.versions.length
  exact : ∀ i, i ∈ retained ↔
    Reaches (VersionParent state.versions) (namedVersions state.checkpoints) i

theorem resolveOptionalRoot_some {id : Nat} {root : Option V2RootRecord}
    (h : resolveOptionalRoot versions (some id) = .ok root) :
    ∃ version, versions[id]? = some version ∧ root = some version.root := by
  simp only [resolveOptionalRoot, bind_eq_ok, resolveVersionRoot_eq_ok, pure_eq_ok] at h
  obtain ⟨_, ⟨version, hGet, rfl⟩, rfl⟩ := h
  exact ⟨version, hGet, rfl⟩

/-- The versions a checkpoint names exist. -/
theorem StateAgrees.named {checkpoint : V2CheckpointRecord} (h : StateAgrees sha256 versions checkpoint)
    {id : Nat} (hMem : id ∈ checkpoint.versions) : ∃ version, versions[id]? = some version := by
  obtain ⟨identity, messages, result, hIdentity, hMessages, hResult, -⟩ := h
  rw [V2CheckpointRecord.versions, List.mem_append, List.mem_append, List.mem_singleton,
    Option.mem_toList, Option.mem_toList] at hMem
  rcases hMem with (rfl | hMem) | hMem
  · obtain ⟨version, hGet, -⟩ := resolveVersionRoot_eq_ok.mp hIdentity
    exact ⟨version, hGet⟩
  · rw [hMem] at hMessages
    obtain ⟨version, hGet, -⟩ := resolveOptionalRoot_some hMessages
    exact ⟨version, hGet⟩
  · rw [hMem] at hResult
    obtain ⟨version, hGet, -⟩ := resolveOptionalRoot_some hResult
    exact ⟨version, hGet⟩

theorem StateOk.named_lt (h : StateOk sha256 a state) :
    ∀ s ∈ namedVersions state.checkpoints, s < state.versions.length := by
  intro s hMem
  obtain ⟨checkpoint, hCheckpoint, hNamed⟩ := List.mem_flatMap.mp hMem
  obtain ⟨version, hGet⟩ := (h.table.state checkpoint hCheckpoint).named hNamed
  exact (List.getElem?_eq_some_iff.mp hGet).1

/-- The version part of the plan. -/
theorem planRetainedVersions_ok (h : StateOk sha256 a state) :
    ∃ retained, planRetainedVersions state = .ok retained ∧ VersionsRetained state retained := by
  have hFuel : state.versions.length < state.versions.length + 2 + ([] : List Nat).length := by omega
  obtain ⟨plan, visited, hRun, ⟨hMarking, hClaimed⟩, hEnd⟩ := planVersionLoop_ok h.numbered
    h.named_lt (versionsMarked_start state.versions state.checkpoints) hFuel
  rw [hEnd] at hMarking hClaimed
  rw [List.append_nil] at hClaimed
  have hPerm : (plan.retained.insertionSort (· ≤ ·)).Perm visited :=
    (List.perm_insertionSort _ _).trans hClaimed
  have hNodup : visited.Nodup := by simpa using hMarking.nodup
  have hMem : ∀ i, i ∈ plan.retained.insertionSort (· ≤ ·) ↔
      Reaches (VersionParent state.versions) (namedVersions state.checkpoints) i := by
    intro i
    rw [hPerm.mem_iff, hMarking.complete]
  refine ⟨_, ?_, ?_, ?_, hMem⟩
  · unfold planRetainedVersions
    rw [hRun, ok_bind]
    rfl
  · have hLe := List.pairwise_insertionSort (· ≤ ·) plan.retained
    have hNe : (plan.retained.insertionSort (· ≤ ·)).Nodup := hPerm.nodup_iff.mpr hNodup
    exact (hLe.and hNe).imp fun h => Nat.lt_of_le_of_ne h.1 h.2
  · exact fun i hIn => versionReaches_lt h.numbered h.named_lt ((hMem i).mp hIn)

/-- The ancestors of a retained version are retained. -/
theorem VersionsRetained.parent {retained : List Nat} (h : VersionsRetained state retained) {i j : Nat}
    (hMem : i ∈ retained) (hParent : VersionParent state.versions i j) : j ∈ retained :=
  (h.exact j).mpr (((h.exact i).mp hMem).step hParent)

theorem VersionsRetained.named {retained : List Nat} (h : VersionsRetained state retained)
    {checkpoint : V2CheckpointRecord} (hCheckpoint : checkpoint ∈ state.checkpoints) {id : Nat}
    (hId : id ∈ checkpoint.versions) : id ∈ retained :=
  (h.exact id).mpr (.seed (List.mem_flatMap.mpr ⟨checkpoint, hCheckpoint, hId⟩))

/-! ## Nodes and payload -/

/-- The roots of the retained versions. -/
def retainedRoots (versions : List V2VersionRecord) (retained : List Nat) : List V2RootRecord :=
  retained.filterMap fun i => (versions[i]?).map V2VersionRecord.root

theorem mem_retainedRoots {retained : List Nat} {root : V2RootRecord} :
    root ∈ retainedRoots versions retained ↔
      ∃ i ∈ retained, ∃ version, versions[i]? = some version ∧ version.root = root := by
  rw [retainedRoots, List.mem_filterMap]
  simp only [Option.map_eq_some_iff]

theorem retainedSeeds_ok {retained : List Nat} (hInside : ∀ i ∈ retained, i < versions.length) :
    retained.mapM (retainedSeed versions) =
      .ok ((retainedRoots versions retained).map V2RootRecord.nodeId) := by
  induction retained with
  | nil => rfl
  | cons i retained ih =>
    obtain ⟨version, hGet⟩ : ∃ version, versions[i]? = some version :=
      ⟨_, List.getElem?_eq_getElem (hInside i List.mem_cons_self)⟩
    have hCons : retainedRoots versions (i :: retained) =
        version.root :: retainedRoots versions retained := by
      rw [retainedRoots, List.filterMap_cons, hGet]
      rfl
    rw [List.mapM_cons, retainedSeed, hGet, okOr_some, ok_bind,
      ih fun j hMem => hInside j (List.mem_cons_of_mem _ hMem), hCons]
    rfl

/-- A whole plan: `retainedVersions`, the nodes reached from their roots, the ranges of the leaves
among these. -/
structure PlanOk (a : V2AvlSequence) (state : V2CommittedState) (plan : V2CompactionPlan) : Prop where
  versions : VersionsRetained state plan.retainedVersions
  arena : Retained a plan.retainedNodes plan.retainedPayloadRanges
  nodes : ∀ i, i ∈ plan.retainedNodes ↔ Reaches (ChildOf a)
    ((retainedRoots state.versions plan.retainedVersions).map V2RootRecord.nodeId) i

/-- Every valid state has a plan. -/
theorem planV2Compaction_ok (h : StateOk sha256 a state) :
    ∃ plan, planV2Compaction state = .ok plan ∧ PlanOk a state plan := by
  obtain ⟨versions, hVersions, hRetained⟩ := planRetainedVersions_ok h
  have hRoots : ∀ root ∈ retainedRoots state.versions versions, ∃ t, Denotes sha256 a t root := by
    intro root hMem
    obtain ⟨i, -, version, hGet, rfl⟩ := mem_retainedRoots.mp hMem
    exact h.roots version (List.mem_of_getElem? hGet)
  obtain ⟨nodes, ranges, hArena, hKept, hReached⟩ :=
    planRoots_ok h.wellFormed h.payload_lt h.apart hRoots
  rw [h.payload, h.nodes] at hArena
  refine ⟨⟨versions, nodes, ranges⟩, ?_, hRetained, hKept, hReached⟩
  rw [planV2Compaction, hVersions, ok_bind, planRetainedArena, retainedSeeds_ok hRetained.inside,
    ok_bind, hArena, mapErr_ok, ok_bind]
  rfl

end Plan

end TulyaStore.V2
