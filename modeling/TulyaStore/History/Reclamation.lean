import TulyaStore.History.CollectSpec
import TulyaStore.History.Publish

/-!
# The collection of an authority

A collection copies what the retained versions reach into the content files of the next physical
generation, gives every retained version its renumbered root and publishes the result as a
generation of its own. The model of the store does not change (`view_collected`), and wherever the
call stops the directory recovers to the store in front or to the one behind, which look the same
to a client (`Live.collect`). What was retained is all the new content files hold.
-/

namespace TulyaStore.History

open Lib FileM Sequence V2AvlSequence PersistentHistoryStore

/-! ## The catalogue behind a collection -/

section Catalogue

/-- An entry behind a collection: an expired version loses its root, any other root is
renumbered. -/
def collectRecord (number : Nat → Nat) (expired : Finset VersionId) (record : VersionRecord) :
    VersionRecord :=
  { record with root :=
      if record.version.id ∈ expired then none
      else record.root.map fun root => { root with nodeId := number root.nodeId } }

/-- The store behind a collection. -/
def PersistentHistoryStore.collected (s : PersistentHistoryStore) (number : Nat → Nat)
    (backend : SequenceBackend) : PersistentHistoryStore :=
  { s with backend, versions := s.versions.map (collectRecord number s.expiredVersions) }

variable {sha256 : Bytes → Digest} {s : PersistentHistoryStore} {a c : V2AvlSequence}
  {number : Nat → Nat} {expired : Finset VersionId} {backend : SequenceBackend}

/-- The seed of a retained version. -/
def SeedOf (sha256 : Bytes → Digest) (a : V2AvlSequence) (record : VersionRecord)
    (seed : V2RootRecord) : Prop :=
  record.root = some (.balancedV2 seed.nodeId seed.logicalLen) ∧ seed.logicalLen = record.len ∧
    ∃ t, Denotes sha256 a t seed

theorem remapVersions_ok {records : List VersionRecord} {seeds : List V2RootRecord}
    (hSeeds : List.Forall₂ (SeedOf sha256 a)
      (records.filter fun record => record.version.id ∉ expired) seeds) :
    remapVersions expired records (seeds.map (V2RootRecord.renumber number)) =
      .ok (records.map (collectRecord number expired)) := by
  induction records generalizing seeds with
  | nil =>
    cases hSeeds
    rfl
  | cons record records ih =>
    by_cases hExpired : record.version.id ∈ expired
    · rw [List.filter_cons_of_neg (by simp [hExpired])] at hSeeds
      have hRecord : collectRecord number expired record = { record with root := none } := by
        rw [collectRecord, if_pos hExpired]
      rw [remapVersions.eq_def]
      dsimp only
      rw [if_pos hExpired, ih hSeeds, ok_bind, List.map_cons, hRecord]
      rfl
    · rw [List.filter_cons_of_pos (by simp [hExpired])] at hSeeds
      obtain ⟨seed, rest, ⟨hRoot, hLen, -⟩, hRest, rfl⟩ := List.forall₂_cons_left_iff.mp hSeeds
      have hRecord : collectRecord number expired record = { record with
          root := some (.balancedV2 (number seed.nodeId) seed.logicalLen) } := by
        rw [collectRecord, if_neg hExpired, hRoot]
        rfl
      rw [List.map_cons, remapVersions, if_neg hExpired]
      have hSame : (seed.renumber number).logicalLen = record.len := hLen
      rw [failIf_neg (not_not.mpr hSame), ok_bind, ih hRest, ok_bind, List.map_cons, hRecord]
      rfl

theorem collectRecord_root {record : VersionRecord} {root : PersistentRoot}
    (h : (collectRecord number expired record).root = some root) :
    record.version.id ∉ expired ∧ ∃ old, record.root = some old ∧
      root = { old with nodeId := number old.nodeId } := by
  unfold collectRecord at h
  dsimp only at h
  split at h
  case isTrue => cases h
  case isFalse hRetained =>
    obtain ⟨old, hOld, rfl⟩ := Option.map_eq_some_iff.mp h
    exact ⟨hRetained, old, hOld, rfl⟩

theorem collected_getElem? {i : Nat} {record : VersionRecord}
    (h : (s.collected number backend).versions[i]? = some record) :
    ∃ old, s.versions[i]? = some old ∧ record = collectRecord number s.expiredVersions old := by
  change (s.versions.map _)[i]? = some record at h
  rw [List.getElem?_map] at h
  obtain ⟨old, hOld, rfl⟩ := Option.map_eq_some_iff.mp h
  exact ⟨old, hOld, rfl⟩

theorem mem_collected {record : VersionRecord}
    (h : record ∈ (s.collected number backend).versions) :
    ∃ old ∈ s.versions, record = collectRecord number s.expiredVersions old := by
  obtain ⟨old, hOld, rfl⟩ := List.mem_map.mp h
  exact ⟨old, hOld, rfl⟩

theorem length_collected : (s.collected number backend).versions.length = s.versions.length :=
  List.length_map _

/-- A collection keeps the invariant of the store. -/
theorem StoreInv.collected (h : StoreInv s) (number : Nat → Nat) (backend : SequenceBackend) :
    StoreInv (s.collected number backend) where
  ledger := {
    tables := h.ledger.tables
    horizon := h.ledger.horizon
    valid := h.ledger.valid
    retained := by
      intro request entry hGet
      rw [length_collected]
      exact h.ledger.retained request entry hGet
    single := h.ledger.single }
  catalogue := {
    dense := by
      intro i record hGet
      obtain ⟨old, hOld, rfl⟩ := collected_getElem? hGet
      exact h.catalogue.dense i old hOld
    nextVersion := by
      rw [length_collected]
      exact h.catalogue.nextVersion
    versionLimit := h.catalogue.versionLimit
    histories := h.catalogue.histories
    historyLimit := h.catalogue.historyLimit
    history := by
      intro record hMem
      obtain ⟨old, hOld, rfl⟩ := mem_collected hMem
      exact h.catalogue.history old hOld
    parent := by
      intro i record parent hGet hParent
      obtain ⟨old, hOld, rfl⟩ := collected_getElem? hGet
      obtain ⟨hLt, found, hFound, hHistory⟩ := h.catalogue.parent i old parent hOld hParent
      refine ⟨hLt, collectRecord number s.expiredVersions found, ?_, hHistory⟩
      change (s.versions.map _)[parent.id]? = _
      rw [List.getElem?_map, hFound]
      rfl
    len := by
      intro record hMem
      obtain ⟨old, hOld, rfl⟩ := mem_collected hMem
      exact h.catalogue.len old hOld
    expired := by
      intro version hMem
      rw [length_collected]
      exact h.catalogue.expired version hMem
    materialized := by
      intro record hMem hRetained
      obtain ⟨old, hOld, rfl⟩ := mem_collected hMem
      have hSome := h.catalogue.materialized old hOld hRetained
      have hNot : old.version.id ∉ s.expiredVersions := hRetained
      rw [collectRecord, if_neg hNot, Option.isSome_map]
      exact hSome
    root := by
      intro record hMem root hRoot
      obtain ⟨old, hOld, rfl⟩ := mem_collected hMem
      obtain ⟨-, oldRoot, hOldRoot, rfl⟩ := collectRecord_root hRoot
      exact h.catalogue.root old hOld oldRoot hOldRoot }
  bindings := {
    history := h.bindings.history
    unique := h.bindings.unique
    version := by
      intro version bytes hGet
      rw [length_collected]
      exact h.bindings.version version bytes hGet }

/-- The roots that a collection keeps stand for the same bytes in the new arena. -/
def Renumbers (sha256 : Bytes → Digest) (s : PersistentHistoryStore) (a c : V2AvlSequence)
    (number : Nat → Nat) : Prop :=
  ∀ record ∈ s.versions, record.version.id ∉ s.expiredVersions → ∀ t canonical,
    record.root = some (.balancedV2 canonical.nodeId canonical.logicalLen) →
    Denotes sha256 a t canonical → Denotes sha256 c t (canonical.renumber number)

theorem RootsIn.collected (h : RootsIn sha256 a s) (hNumber : Renumbers sha256 s a c number) :
    RootsIn sha256 c (s.collected number backend) := by
  intro record hMem root hRoot
  obtain ⟨old, hOld, rfl⟩ := mem_collected hMem
  obtain ⟨hRetained, oldRoot, hOldRoot, rfl⟩ := collectRecord_root hRoot
  obtain ⟨t, canonical, hDenotes, rfl⟩ := h old hOld oldRoot hOldRoot
  exact ⟨t, canonical.renumber number, hNumber old hOld hRetained t canonical hOldRoot hDenotes,
    rfl⟩

/-- To a client nothing has changed. -/
theorem view_collected (h : RootsIn sha256 a s) (hNumber : Renumbers sha256 s a c number) :
    (s.collected number backend).view c = s.view a := by
  have hVersion : ∀ record ∈ s.versions, (s.collected number backend).versionView c
      (collectRecord number s.expiredVersions record) = s.versionView a record := by
    intro record hMem
    unfold versionView
    refine congrArg (ModelVersion.mk record.version record.len
      (s.versionBindings.get record.version.id)) ?_
    unfold contentView
    by_cases hExpired : record.version.id ∈ s.expiredVersions
    · exact (if_pos hExpired).trans (if_pos hExpired).symm
    · refine (if_neg hExpired).trans (Eq.trans ?_ (if_neg hExpired).symm)
      rw [collectRecord, if_neg hExpired]
      cases hRoot : record.root with
      | none => rfl
      | some root =>
        obtain ⟨t, canonical, hDenotes, rfl⟩ := h record hMem root hRoot
        have hMoved := hNumber record hMem hExpired t canonical hRoot hDenotes
        exact (bytesOf_denotes hMoved).trans (bytesOf_denotes hDenotes).symm
  have hVersions : (s.collected number backend).versions.map
      ((s.collected number backend).versionView c) = s.versions.map (s.versionView a) := by
    change (s.versions.map _).map _ = _
    rw [List.map_map]
    exact List.map_congr_left hVersion
  unfold view
  rw [hVersions]
  rfl

end Catalogue

/-! ## The preparation -/

section Prepare

variable {sha256 : Bytes → Digest} {files : HistoryFiles} {physical : Nat} {a : V2AvlSequence}
  {auth : WritableHistoryAuthority}

/-- The versions a collection keeps. -/
def PersistentHistoryStore.retainedVersions (s : PersistentHistoryStore) : List VersionRecord :=
  s.versions.filter fun record => record.version.id ∉ s.expiredVersions

theorem mem_retainedVersions {s : PersistentHistoryStore} {record : VersionRecord} :
    record ∈ s.retainedVersions ↔
      record ∈ s.versions ∧ record.version.id ∉ s.expiredVersions := by
  simp [retainedVersions]

/-- Every retained version has a root that resolves. -/
theorem Live.seeds_ok (h : Live sha256 auth files physical a) {records : List VersionRecord}
    (hRecords : ∀ record ∈ records, record ∈ auth.store.retainedVersions) :
    ∃ roots seeds, (records.mapM fun record => okOr record.root (HistoryError.invalid
        "persistent GC retained version has no materialized root")) = .ok roots ∧
      roots.mapM auth.store.backend.resolve = .ok seeds ∧
      List.Forall₂ (SeedOf sha256 a) records seeds := by
  induction records with
  | nil => exact ⟨[], [], rfl, rfl, .nil⟩
  | cons record records ih =>
    obtain ⟨roots, seeds, hRoots, hSeeds, hAll⟩ :=
      ih fun other hMem => hRecords other (List.mem_cons_of_mem _ hMem)
    obtain ⟨hMem, hRetained⟩ := mem_retainedVersions.mp (hRecords record List.mem_cons_self)
    have hCatalogue := h.recoverable.inv.catalogue
    obtain ⟨root, hRoot⟩ :=
      Option.isSome_iff_exists.mp (hCatalogue.materialized record hMem hRetained)
    obtain ⟨t, canonical, hDenotes, rfl, hResolve⟩ := h.overArena.resolve hMem hRoot
    refine ⟨.balancedV2 canonical.nodeId canonical.logicalLen :: roots, canonical :: seeds, ?_, ?_,
      .cons ⟨hRoot, ?_, t, hDenotes⟩ hAll⟩
    · rw [List.mapM_cons, hRoot, okOr_some, ok_bind, hRoots, ok_bind]
      rfl
    · rw [List.mapM_cons, hResolve, ok_bind, hSeeds, ok_bind]
      rfl
    · exact (hCatalogue.root record hMem _ hRoot).1

theorem Live.gcSeeds_ok (h : Live sha256 auth files physical a)
    (hLimit : physical + 1 < width 64) :
    ∃ seeds, gcSeeds auth.store = .ok (boundContent files physical a, physical + 1, seeds) ∧
      List.Forall₂ (SeedOf sha256 a) auth.store.retainedVersions seeds := by
  obtain ⟨roots, seeds, hRoots, hSeeds, hAll⟩ := h.seeds_ok fun _ hMem => hMem
  refine ⟨seeds, ?_, hAll⟩
  have hLengths : auth.store.versions.forM checkMaterializedLength = .ok () := by
    refine forM_eq_ok fun record hMem => ?_
    unfold checkMaterializedLength
    cases hRoot : record.root with
    | none => rfl
    | some root =>
      exact failIf_neg (not_not.mpr (h.recoverable.inv.catalogue.root record hMem root
        hRoot).1.symm)
  have hGeneration : checkedAdd 64 (boundContent files physical a).generation 1 =
      some (physical + 1) := checkedAdd_of_lt hLimit
  have hRetained : retainedRoots auth.store = .ok roots := hRoots
  rw [gcSeeds, hLengths, ok_bind, h.backend]
  dsimp only
  rw [hGeneration, okOr_some, ok_bind, hRetained, ok_bind, ← h.backend, hSeeds, mapErr_ok, ok_bind]
  rfl

theorem Live.gcSeeds_rejects (h : Live sha256 auth files physical a)
    (hLimit : ¬ physical + 1 < width 64) : ∃ e, gcSeeds auth.store = .error e := by
  have hNone : checkedAdd 64 (boundContent files physical a).generation 1 = none := if_neg hLimit
  cases hSeeds : gcSeeds auth.store with
  | error e => exact ⟨e, rfl⟩
  | ok seeds =>
    obtain ⟨_, -, hRest⟩ := bind_eq_ok.mp hSeeds
    rw [h.backend] at hRest
    obtain ⟨generation, hGeneration, -⟩ := bind_eq_ok.mp hRest
    rw [hNone] at hGeneration
    cases hGeneration

/-- The collection of a live authority: which nodes it keeps, and their numbers. -/
structure Collection (sha256 : Bytes → Digest) (s : PersistentHistoryStore) (a : V2AvlSequence)
    (seeds : List V2RootRecord) (retained : List Nat) (ranges : List V2RetainedPayloadRange) :
    Prop where
  versions : List.Forall₂ (SeedOf sha256 a) s.retainedVersions seeds
  closed : Retained a retained ranges
  reached : ∀ i, i ∈ retained ↔ Reaches (ChildOf a) (seeds.map V2RootRecord.nodeId) i

variable {seeds : List V2RootRecord} {retained : List Nat} {ranges : List V2RetainedPayloadRange}
  {s : PersistentHistoryStore}

theorem Collection.denotes (h : Collection sha256 s a seeds retained ranges) :
    ∀ seed ∈ seeds, ∃ t, Denotes sha256 a t seed := by
  intro seed hMem
  obtain ⟨i, hGet⟩ := List.mem_iff_getElem?.mp hMem
  obtain ⟨record, -, -, -, hDenotes⟩ := forall₂_getElem? h.versions hGet
  exact hDenotes

theorem Collection.kept (h : Collection sha256 s a seeds retained ranges) :
    ∀ seed ∈ seeds, seed.nodeId ∈ retained := fun _ hMem =>
  (h.reached _).mpr (.seed (List.mem_map_of_mem hMem))

theorem Collection.renumbers (h : Collection sha256 s a seeds retained ranges)
    (hWf : WellFormed sha256 a) :
    Renumbers sha256 s a (compactArena a retained ranges) (rank retained) := by
  intro record hMem hRetained t canonical hRoot hDenotes
  obtain ⟨i, hGet⟩ := List.mem_iff_getElem?.mp (mem_retainedVersions.mpr ⟨hMem, hRetained⟩)
  obtain ⟨seed, hSeed, hSame, -, -⟩ := forall₂_getElem? h.versions.flip hGet
  rw [hRoot] at hSame
  have hId : canonical.nodeId = seed.nodeId :=
    congrArg PersistentRoot.nodeId (Option.some.inj hSame)
  exact h.closed.denotes hWf hDenotes (hId ▸ h.kept seed (List.mem_of_getElem? hSeed))

theorem Collection.addressable (h : Collection sha256 s a seeds retained ranges)
    (hWf : WellFormed sha256 a) (hAddressable : Addressable a) :
    (compactArena a retained ranges).payload.length ≤ a.payload.length ∧
      (compactArena a retained ranges).nodes.length ≤ a.nodes.length ∧
      Addressable (compactArena a retained ranges) := by
  have hPayload : (compactArena a retained ranges).payload.length ≤ a.payload.length := by
    rw [h.closed.length_payload hWf]
    exact h.closed.sum_le hWf
  have hNodes : (compactArena a retained ranges).nodes.length ≤ a.nodes.length := by
    rw [h.closed.length_nodes]
    have hNodup : retained.Nodup := h.closed.sorted.imp fun hLt => Nat.ne_of_lt hLt
    have hSub : retained ⊆ List.range a.nodes.length :=
      fun i hMem => List.mem_range.mpr (h.closed.inside i hMem)
    exact (List.length_range (n := a.nodes.length)) ▸ hNodup.length_le_of_subset hSub
  obtain ⟨hPayloadLimit, hNodeLimit⟩ := hAddressable
  exact ⟨hPayload, hNodes, by omega, by omega⟩

/-- A live authority has a collection. -/
theorem Live.collection (h : Live sha256 auth files physical a)
    (hSeeds : List.Forall₂ (SeedOf sha256 a) auth.store.retainedVersions seeds) :
    ∃ retained ranges, planReachableArena a.payload (records a) (seeds.map V2RootRecord.nodeId) =
        .ok (retained, ranges) ∧ Collection sha256 auth.store a seeds retained ranges := by
  have hDenotes : ∀ seed ∈ seeds, ∃ t, Denotes sha256 a t seed := by
    intro seed hMem
    obtain ⟨i, hGet⟩ := List.mem_iff_getElem?.mp hMem
    obtain ⟨record, -, -, -, hDenotes⟩ := forall₂_getElem? hSeeds hGet
    exact hDenotes
  have hTiled := h.recoverable.tiled
  obtain ⟨retained, ranges, hPlan, hClosed, hReached⟩ := planRoots_ok h.recoverable.wellFormed
    (hTiled.length_lt h.recoverable.wellFormed) (hTiled.pairwise.imp Or.inl) hDenotes
  exact ⟨retained, ranges, hPlan, hSeeds, hClosed, hReached⟩

/-- The directory with the content files of the next physical generation. -/
def collectedFiles (files : HistoryFiles) (physical : Nat) (c : V2AvlSequence) : HistoryFiles :=
  applyAll files (writeGeneration (physical + 1) c.payload (records c))

theorem collectedFiles_holds (files : HistoryFiles) (physical : Nat) (c : V2AvlSequence) :
    writtenStore (physical + 1) c.payload (records c) =
        boundContent (collectedFiles files physical c) (physical + 1) c ∧
      HoldsArena (collectedFiles files physical c (.payload (physical + 1)))
        (collectedFiles files physical c (.nodes (physical + 1))) (physical + 1) c := by
  have hPayload : collectedFiles files physical c (.payload (physical + 1)) =
      some (encodeHeader physicalPayloadMagic (physical + 1) ++ c.payload) := by
    rw [collectedFiles, applyAll_writeGeneration, setFile_of_ne (payload_ne_nodes _ _),
      setFile_self]
  have hNodes : collectedFiles files physical c (.nodes (physical + 1)) =
      some (encodeHeader physicalNodeMagic (physical + 1) ++ nodeBytes c.nodes) := by
    rw [collectedFiles, applyAll_writeGeneration, setFile_self, recordBytes_records]
  refine ⟨?_, ⟨[], ?_⟩, ⟨[], ?_⟩⟩
  · rw [boundContent, hPayload, hNodes, writtenStore, recordBytes_records, boundStore, records,
      List.length_map]
  · rw [hPayload, List.append_nil]
  · rw [hNodes, List.append_nil]

theorem gcStats_ok {before after : PhysicalContentStore}
    (hNodes : after.committedNodeCount ≤ before.committedNodeCount)
    (hPayload : after.committedPayloadEnd ≤ before.committedPayloadEnd) :
    ∃ stats, gcStats s before after = .ok stats := by
  rw [gcStats, failIf_neg (by omega), ok_bind, failIf_neg (by omega), ok_bind]
  exact ⟨_, rfl⟩

theorem touched_writeGeneration {generation : Nat} {payload : Bytes}
    {records : List V2NodeRecord} :
    ∀ step ∈ writeGeneration generation payload records, ∀ name ∈ step.touched,
      name = .payload generation ∨ name = .nodes generation := by
  intro step hMem name hName
  simp only [writeGeneration, recordWrites, List.mem_append, List.mem_map] at hMem
  rcases hMem with ((hMem | hMem) | ⟨entry, -, rfl⟩) | hMem
  · simp only [List.mem_cons, List.not_mem_nil, or_false] at hMem
    rcases hMem with rfl | rfl | rfl | rfl <;>
    · simp only [FileStep.touched, List.mem_singleton] at hName
      simp [hName]
  · split at hMem
    case isTrue => cases hMem
    case isFalse =>
      cases List.mem_singleton.mp hMem
      exact .inl (List.mem_singleton.mp hName)
  · exact .inr (List.mem_singleton.mp hName)
  · simp only [List.mem_cons, List.not_mem_nil, or_false] at hMem
    rcases hMem with rfl | rfl <;> cases hName

/-- The preparation writes the next physical generation and has the collected store; a refused step
leaves the authority as it stands. -/
theorem Live.preparePhysicalGc (h : Live sha256 auth files physical a)
    (hLimit : physical + 1 < width 64) :
    ∃ seeds retained ranges stats, Collection sha256 auth.store a seeds retained ranges ∧
      CrashSafe (fun image => Live sha256 auth image physical a)
        (preparePhysicalGc sha256 auth.store) auth files
        (fun prepared auth' fs => prepared = ⟨auth.store.collected (rank retained) (.physical
            (boundContent (collectedFiles files physical (compactArena a retained ranges))
              (physical + 1) (compactArena a retained ranges))), stats⟩ ∧
          Onward auth auth' ∧
          fs = collectedFiles files physical (compactArena a retained ranges))
        (Unstaged sha256 auth physical a) := by
  obtain ⟨seeds, hSeeds, hVersions⟩ := h.gcSeeds_ok hLimit
  obtain ⟨retained, ranges, hPlan, hCollection⟩ := h.collection hVersions
  have hWf := h.recoverable.wellFormed
  have hAddressable := h.recoverable.addressable
  obtain ⟨hPayload, hNodes, -⟩ := hCollection.addressable hWf hAddressable
  obtain ⟨hWritten, -⟩ := collectedFiles_holds files physical (compactArena a retained ranges)
  obtain ⟨stats, hStats⟩ : ∃ stats, gcStats auth.store (boundContent files physical a)
      (boundContent (collectedFiles files physical (compactArena a retained ranges))
        (physical + 1) (compactArena a retained ranges)) = .ok stats := gcStats_ok hNodes hPayload
  have hCompact := compactPhysicalGeneration_run
    (h.recoverable.holds.planPhysicalGeneration hWf hAddressable
      (h.recoverable.tiled.length_lt hWf) hCollection.closed hCollection.denotes hPlan)
    (relocateSeeds_ok hWf hCollection.closed hCollection.denotes hCollection.kept) (physical + 1)
    auth files
  rw [hWritten] at hCompact
  have hAssemble : assembleGc auth.store (boundContent files physical a)
      (boundContent (collectedFiles files physical (compactArena a retained ranges)) (physical + 1)
        (compactArena a retained ranges)) (seeds.map (V2RootRecord.renumber (rank retained))) =
        .ok ⟨auth.store.collected (rank retained) (.physical (boundContent
          (collectedFiles files physical (compactArena a retained ranges)) (physical + 1)
            (compactArena a retained ranges))), stats⟩ := by
    rw [assembleGc, remapVersions_ok hVersions, ok_bind, hStats, ok_bind, collected,
      ← h.recoverable.unpoisoned]
    rfl
  refine ⟨seeds, retained, ranges, stats, hCollection, ?_⟩
  generalize hArena : compactArena a retained ranges = c at hCompact hAssemble ⊢
  have hAlong := h.foreign (writeGeneration (physical + 1) c.payload (records c)) (by
    intro step hMem name hName
    rcases touched_writeGeneration step hMem name hName with rfl | rfl <;> simp [Authoritative])
  refine CrashSafe.bind_quiet (by rw [hSeeds]; exact attempt_run _) ?_
  refine CrashSafe.bind ((CrashSafe.liftContent (CrashSafe.refusableAlong hCompact hAlong
    compactionFailure) fun e => .rejected (.sequence (.avl e))).mono_error ?_) ?_
  · intro e auth' fs hError
    rcases hError with ⟨_, rfl, -, hOnward, hLive⟩
    exact ⟨⟨_, rfl⟩, hOnward, hLive⟩
  intro result auth' fs hOk
  rcases hOk with ⟨rfl, ⟨left, rfl⟩, rfl⟩
  dsimp only
  rw [hAssemble]
  exact .of_quiet (attempt_run _) hAlong.finish ⟨rfl, ⟨left, rfl⟩, rfl⟩

end Prepare

/-! ## The collection -/

section Collect

variable {sha256 : Bytes → Digest} {fromSlice : Bytes → Option JsonValue} {files : HistoryFiles}
  {physical : Nat} {a : V2AvlSequence} {auth : WritableHistoryAuthority}

/-- The files of superseded generations are no longer read. -/
theorem not_authoritative_of_superseded {generation : Nat} {name : HistoryFile}
    (h : HistoryFile.superseded generation physical name = true) :
    ¬ Authoritative generation physical name := by
  rintro (rfl | rfl | rfl | rfl | rfl) <;> simp [HistoryFile.superseded] at h

/-- The new arena holds exactly what the retained versions of the old store reach. -/
def HoldsRetained (sha256 : Bytes → Digest) (s : PersistentHistoryStore) (a b : V2AvlSequence) :
    Prop :=
  ∃ seeds retained, List.Forall₂ (SeedOf sha256 a) s.retainedVersions seeds ∧
    HoldsExactly a b seeds retained

/-- The collected store can be published. -/
theorem Live.sealable_collected (h : Live sha256 auth files physical a)
    (hLimit : physical + 1 < width 64) {seeds : List V2RootRecord} {retained : List Nat}
    {ranges : List V2RetainedPayloadRange}
    (hCollection : Collection sha256 auth.store a seeds retained ranges) :
    Sealable sha256 (collectedFiles files physical (compactArena a retained ranges)) (physical + 1)
      (auth.store.collected (rank retained) (.physical (boundContent
        (collectedFiles files physical (compactArena a retained ranges)) (physical + 1)
          (compactArena a retained ranges)))) (compactArena a retained ranges) where
  inv := h.recoverable.inv.collected _ _
  unpoisoned := h.recoverable.unpoisoned
  backend := rfl
  limit := hLimit
  wellFormed := hCollection.closed.wellFormed h.recoverable.wellFormed
  addressable := (hCollection.addressable h.recoverable.wellFormed h.recoverable.addressable).2.2
  tiled := hCollection.closed.tiled h.recoverable.wellFormed h.recoverable.tiled
  roots := h.recoverable.roots.collected (hCollection.renumbers h.recoverable.wellFormed)
  holds := (collectedFiles_holds _ _ _).2

theorem Live.removeFiles (h : Live sha256 auth files physical a) {names : List HistoryFile}
    (hNames : ∀ name ∈ names, ¬ Authoritative auth.generation physical name)
    {auth₁ : WritableHistoryAuthority} (hOnward : Onward auth auth₁)
    {E : DurableError → WritableHistoryAuthority → HistoryFiles → Prop} :
    CrashSafe (fun image => Live sha256 auth image physical a) (removeFiles names) auth₁ files
      (fun _ auth' fs => Onward auth auth' ∧ Live sha256 auth fs physical a) E := by
  induction names generalizing files auth₁ with
  | nil => exact .pure h ⟨hOnward, h⟩
  | cons name names ih =>
    have hRemove : ∀ other ∈ (FileStep.remove name).touched,
        ¬ Authoritative auth.generation physical other := by
      intro other hMem
      obtain rfl := List.mem_singleton.mp hMem
      exact hNames _ List.mem_cons_self
    refine CrashSafe.bind (h.stepSucceeds hOnward (.remove name) (fun _ hTorn => hTorn) hRemove) ?_
    intro removed auth₂ fs hOk
    rcases hOk with ⟨hOnward₂, hLive⟩
    refine CrashSafe.bind (ih hLive (fun other hMem => hNames _ (List.mem_cons_of_mem _ hMem))
      hOnward₂) ?_
    intro others auth₃ fs' hOk
    rcases hOk with ⟨hOnward₃, hLive'⟩
    exact .pure hLive' ⟨hOnward₃, hLive'⟩

theorem Live.cleanup (h : Live sha256 auth files physical a) (entries : List HistoryFile)
    {E : DurableError → WritableHistoryAuthority → HistoryFiles → Prop} :
    CrashSafe (fun image => Live sha256 auth image physical a)
      (cleanupSupersededGenerations entries auth.generation physical) auth files
      (fun _ auth' fs => Onward auth auth' ∧ Live sha256 auth fs physical a) E := by
  refine CrashSafe.bind (h.removeFiles (fun name hMem =>
    not_authoritative_of_superseded (List.mem_filter.mp hMem).2) (.refl auth)) ?_
  intro removed auth₁ fs hOk
  rcases hOk with ⟨hOnward, hLive⟩
  refine CrashSafe.bind (hLive.stepSucceeds hOnward .syncDir (fun _ hTorn => hTorn)
    fun _ hName => by cases hName) ?_
  intro synced auth₂ fs' hOk
  rcases hOk with ⟨hOnward₂, hLive'⟩
  exact .pure hLive' ⟨hOnward₂, hLive'⟩

/-- A collection changes nothing a client sees, and what it publishes holds exactly what the
retained versions reach. -/
theorem Live.collect (h : Live sha256 auth files physical a) (hReads : ReadsManifests fromSlice)
    (entries : List HistoryFile) :
    ∃ s' b, s'.view b = auth.store.view a ∧
      Served sha256 (WritableHistoryAuthority.gcWithSync sha256 fromSlice entries) auth files
        a s' b fun summary => HoldsRetained sha256 auth.store a b ∧
          s'.backend = .physical (writtenStore (physical + 1) b.payload (records b)) ∧
          summary.generation = auth.generation + 1 ∧
          summary.representedWalEnd = auth.hot.tail := by
  by_cases hLimit : physical + 1 < width 64
  · obtain ⟨seeds, retained, ranges, stats, hCollection, hPrepare⟩ := h.preparePhysicalGc hLimit
    have hSealable := h.sealable_collected hLimit hCollection
    have hRetained : HoldsRetained sha256 auth.store a (compactArena a retained ranges) :=
      ⟨seeds, retained, hCollection.versions, holdsExactly hCollection.closed
        h.recoverable.wellFormed h.recoverable.tiled hCollection.reached⟩
    generalize hArena : compactArena a retained ranges = c at hPrepare hSealable hRetained
    refine ⟨auth.store.collected (rank retained) (.physical (boundContent
      (collectedFiles files physical c) (physical + 1) c)), c, ?_⟩
    have hView : (auth.store.collected (rank retained) (.physical (boundContent
        (collectedFiles files physical c) (physical + 1) c))).view c = auth.store.view a := by
      rw [← hArena]
      exact view_collected h.recoverable.roots (hCollection.renumbers h.recoverable.wellFormed)
    refine ⟨hView, ?_⟩
    have hWritten : (auth.store.collected (rank retained) (.physical (boundContent
        (collectedFiles files physical c) (physical + 1) c))).backend =
          .physical (writtenStore (physical + 1) c.payload (records c)) :=
      congrArg SequenceBackend.physical (collectedFiles_holds _ _ c).1.symm
    generalize hStore : auth.store.collected (rank retained) (.physical (boundContent
      (collectedFiles files physical c) (physical + 1) c)) = t at hPrepare hSealable hView hWritten
    refine Served.bind_quiet h.requireUnpoisoned_run ?_
    refine Served.bind_quiet get_run ?_
    refine CrashSafe.bind (hPrepare.mono (fun image hImage => .inl hImage.recoverable.recovers)
      (fun _ _ _ hQ => hQ) fun _ _ _ hError => Unstaged.failed hError h) ?_
    intro prepared auth₁ fs hOk
    rcases hOk with ⟨rfl, hOnward, rfl⟩
    have hLive : Live sha256 auth₁ (collectedFiles files physical c) physical a := by
      have hSame : ∀ name, Authoritative auth.generation physical name →
          collectedFiles files physical c name = files name := fun name hName =>
        applyAll_untouched fun step hMem hTouched => by
          rcases touched_writeGeneration step hMem name hTouched with rfl | rfl <;>
            simp [Authoritative] at hName
      exact (h.of_same hSame).onward hOnward
    obtain ⟨left, rfl⟩ := hOnward
    have hResult : ∃ summary : GcSummary, HoldsRetained sha256 auth.store a c ∧
        t.backend = .physical (writtenStore (physical + 1) c.payload (records c)) ∧
        summary.generation = auth.generation + 1 ∧ summary.representedWalEnd = auth.hot.tail :=
      ⟨⟨auth.generation + 1, auth.hot.tail, 0, stats, true⟩, hRetained, hWritten, rfl, rfl⟩
    refine CrashSafe.bind ((hLive.publishGeneration hReads hSealable).mono
      (fun _ hImage => hImage.imp id (And.intro hResult)) (fun _ _ _ hQ => hQ)
      fun _ _ _ hError => (Unpublished.failed hError hLive hView :)) ?_
    intro result auth₂ fs hOk
    rcases result with ⟨staged, nextHot⟩
    rcases hOk with ⟨⟨left₂, rfl⟩, hPublished⟩
    dsimp only at hPublished
    have hNext := hPublished.live hSealable.backend ⟨t.versions.length, 0⟩ left₂
    obtain ⟨hPrevious, hGeneration, hEnd, -⟩ := hPublished
    dsimp only at hPrevious hGeneration hEnd hNext ⊢
    refine CrashSafe.bind_quiet (a := PUnit.unit) (modify_run _) ?_
    have hApplied : applyPreparedGc auth.store ⟨t, stats⟩ = t := by
      rw [← hStore]
      rfl
    have hPhysical : t.physicalGeneration.getD 0 = physical + 1 := by
      rw [← hStore]
      rfl
    rw [hPrevious, hGeneration, hEnd, hApplied, hPhysical]
    refine CrashSafe.bind ((hNext.recycle auth.generation (by simp)).mono_along
      fun _ hImage => .inr ⟨hResult, hImage.recoverable.recovers⟩) ?_
    intro recycled auth₃ fs' hOk
    rcases hOk with ⟨hOnward₃, hLive'⟩
    have hLive₃ := hLive'.onward hOnward₃
    obtain ⟨left₃, rfl⟩ := hOnward₃
    refine CrashSafe.bind ((hLive₃.cleanup entries).mono_along
      fun _ hImage => .inr ⟨hResult, hImage.recoverable.recovers⟩) ?_
    intro complete auth₄ fs'' hOk
    rcases hOk with ⟨hOnward₄, hLive''⟩
    exact .pure (.inr ⟨hResult, hLive''.recoverable.recovers⟩)
      ⟨⟨hRetained, hWritten, rfl, rfl⟩, ⟨physical + 1, hLive''.onward hOnward₄⟩, hOnward₄.store⟩
  · obtain ⟨e, hSeeds⟩ := h.gcSeeds_rejects hLimit
    refine ⟨auth.store, a, rfl, h.served_rejected (e := e) ?_⟩
    refine (bind_run_quiet h.requireUnpoisoned_run).trans ?_
    refine (bind_run_quiet get_run).trans ?_
    refine bind_run_error (bind_run_error ?_)
    rw [hSeeds]
    exact attempt_rejects

end Collect

end TulyaStore.History
