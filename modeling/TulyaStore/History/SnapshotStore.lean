import TulyaStore.History.Import
import TulyaStore.History.Invariant
import TulyaStore.History.SnapshotCodec
import TulyaStore.Lib.Folds

/-!
# The snapshot of a store

A store that keeps the invariant and reads from an arena has a canonical snapshot, and the import
of the snapshot over files that hold the arena gives the store again.
-/

namespace TulyaStore.History

open Lib Sequence V2AvlSequence

/-! ## Stores over an arena -/

section Over

variable (sha256 : Bytes → Digest)

/-- The roots of the catalogue stand for ropes of the arena. -/
def RootsIn (a : V2AvlSequence) (store : PersistentHistoryStore) : Prop :=
  ∀ record ∈ store.versions, ∀ root, record.root = some root →
    ∃ t canonical, Denotes sha256 a t canonical ∧
      root = .balancedV2 canonical.nodeId canonical.logicalLen

/-- The store reads from files that represent the arena. -/
structure OverArena (store : PersistentHistoryStore) (content : PhysicalContentStore)
    (a : V2AvlSequence) : Prop where
  backend : store.backend = .physical content
  represents : Represents content a
  generation : content.generation < width 64
  wellFormed : WellFormed sha256 a
  addressable : Addressable a
  roots : RootsIn sha256 a store

end Over

/-- A descriptor tells the root of a version, if it has one. -/
def Describes (root : Option PersistentRoot) (descriptor : Option RootBytes) : Prop :=
  (root = none ∧ descriptor = none) ∨ ∃ r bytes, root = some r ∧ descriptor = some bytes ∧
    decodeCanonicalRootBytes bytes.toList = .ok r

theorem Describes.isSome {root : Option PersistentRoot} {descriptor : Option RootBytes}
    (h : Describes root descriptor) : descriptor.isSome = root.isSome := by
  rcases h with ⟨rfl, rfl⟩ | ⟨_, _, rfl, rfl, -⟩ <;> rfl

section Descriptors

variable {sha256 : Bytes → Digest} {store : PersistentHistoryStore}
  {content : PhysicalContentStore} {a : V2AvlSequence}

theorem decodeCanonicalRootBytes_rootBytes {t : Rope UInt8} {canonical : V2RootRecord}
    (h : Denotes sha256 a t canonical) :
    decodeCanonicalRootBytes (rootBytes canonical).toList =
      .ok (.balancedV2 canonical.nodeId canonical.logicalLen) := by
  have hBytes : (rootBytes canonical).toList = encodeV2Root canonical := rfl
  rw [hBytes, decodeCanonicalRootBytes, h.decode_encode]
  rfl

theorem OverArena.resolve (h : OverArena sha256 store content a) {record : VersionRecord}
    (hMem : record ∈ store.versions) {root : PersistentRoot} (hRoot : record.root = some root) :
    ∃ t canonical, Denotes sha256 a t canonical ∧
      root = .balancedV2 canonical.nodeId canonical.logicalLen ∧
      store.backend.resolve root = .ok canonical := by
  obtain ⟨t, canonical, hDenotes, rfl⟩ := h.roots record hMem root hRoot
  refine ⟨t, canonical, hDenotes, rfl, ?_⟩
  rw [h.backend]
  exact h.represents.resolve_ok h.wellFormed h.addressable (resolve_denotes hDenotes)

theorem OverArena.describes (h : OverArena sha256 store content a) {record : VersionRecord}
    (hMem : record ∈ store.versions) {descriptor : Option RootBytes}
    (hDescriptor : store.rootDescriptor record = .ok descriptor) :
    Describes record.root descriptor ∧
      ∀ root, record.root = some root → record.len = root.logicalLen := by
  cases hRoot : record.root with
  | none =>
    simp only [PersistentHistoryStore.rootDescriptor, hRoot, bind_eq_ok, pure_eq_ok] at hDescriptor
    obtain ⟨_, -, rfl⟩ := hDescriptor
    refine ⟨.inl ⟨rfl, rfl⟩, fun root hSome => ?_⟩
    cases hSome
  | some root =>
    obtain ⟨t, canonical, hDenotes, hEq, hResolve⟩ := h.resolve hMem hRoot
    simp only [PersistentHistoryStore.rootDescriptor, hRoot, bind_eq_ok, failIf_eq_ok, pure_eq_ok,
      not_not, mapErr_eq_ok] at hDescriptor
    obtain ⟨_, hLen, canonical', hResolve', rfl⟩ := hDescriptor
    rw [hResolve] at hResolve'
    cases hResolve'
    refine ⟨.inr ⟨root, _, rfl, rfl, ?_⟩, ?_⟩
    · rw [hEq]
      exact decodeCanonicalRootBytes_rootBytes hDenotes
    · rintro _ ⟨⟩
      exact hLen

end Descriptors

/-! ## The tables of the snapshot -/

/-- What the snapshot of a store says. -/
structure IsSnapshot (store : PersistentHistoryStore) (generation representedWalEnd : Nat)
    (snapshot : HistorySnapshot) : Prop where
  generation : snapshot.generation = generation
  representedWalEnd : snapshot.representedWalEnd = representedWalEnd
  physicalGeneration : snapshot.physicalGeneration = store.physicalGeneration.getD 0
  payloadEnd : snapshot.payloadEnd = store.contentFrontiers.1
  nodeCount : snapshot.nodeCount = store.contentFrontiers.2
  nextHistoryId : snapshot.nextHistoryId = store.nextHistoryId
  nextVersionId : snapshot.nextVersionId = store.nextVersionId
  historyBindings : snapshot.historyBindings =
    (List.range store.nextHistoryId).map fun index => store.historyBindings.get ⟨index⟩
  versions : List.Forall₂ (fun record entry => ∃ descriptor,
    store.rootDescriptor record = .ok descriptor ∧ entry = store.snapshotVersion record descriptor)
    store.versions snapshot.versions
  active : snapshot.active = store.activeRequests.entries.map fun entry =>
    ⟨entry.1, entry.2.digest, entry.2.version⟩
  retired : snapshot.retired = store.retiredRequests.entries.map fun entry => ⟨entry.1, entry.2⟩
  receiptOrder : snapshot.receiptOrder = store.receiptOrder

section Tables

variable {store : PersistentHistoryStore} {generation representedWalEnd : Nat}
  {snapshot : HistorySnapshot}

theorem forall₂_zipWith {α β γ : Type} {R : α → β → Prop} {f : α → β → γ} {xs : List α}
    {ys : List β} (h : List.Forall₂ R xs ys) :
    List.Forall₂ (fun x z => ∃ y, R x y ∧ z = f x y) xs (List.zipWith f xs ys) := by
  induction h with
  | nil => exact .nil
  | cons hHead _ ih => exact .cons ⟨_, hHead, rfl⟩ ih

theorem isSnapshot_of_ok (h : store.snapshot generation representedWalEnd = .ok snapshot) :
    IsSnapshot store generation representedWalEnd snapshot := by
  simp only [PersistentHistoryStore.snapshot, bind_eq_ok, failIf_eq_ok, pure_eq_ok, not_not,
    mapM_eq_ok] at h
  obtain ⟨_, -, _, -, _, -, descriptors, hDescriptors, _, -, rfl⟩ := h
  exact ⟨rfl, rfl, rfl, rfl, rfl, rfl, rfl, rfl, forall₂_zipWith hDescriptors, rfl, rfl, rfl⟩

end Tables

/-! ## The receipts of the snapshot -/

namespace Snapshot

theorem checkActiveReceipts_ok {ordered seen : List Bytes} {active : List SnapshotActive}
    (hEach : ∀ record ∈ active, record.requestId ∈ ordered ∧ record.requestId ∉ seen)
    (hNodup : (active.map SnapshotActive.requestId).Nodup) :
    checkActiveReceipts ordered seen active = .ok () := by
  induction active generalizing seen with
  | nil => rfl
  | cons record active ih =>
    obtain ⟨hIn, hUnseen⟩ := hEach record List.mem_cons_self
    obtain ⟨hHead, hRest⟩ := List.nodup_cons.mp hNodup
    rw [checkActiveReceipts, failIf_neg (not_not.mpr hIn), ok_bind, failIf_neg hUnseen, ok_bind]
    refine ih (fun other hMem => ?_) hRest
    obtain ⟨hOther, hOtherUnseen⟩ := hEach other (List.mem_cons_of_mem _ hMem)
    refine ⟨hOther, ?_⟩
    rw [List.mem_cons, not_or]
    refine ⟨?_, hOtherUnseen⟩
    intro hSame
    exact hHead (List.mem_map.mpr ⟨other, hMem, hSame⟩)

theorem checkClaims_ok {versions : List SnapshotVersion} {claimed : List Nat}
    {active : List SnapshotActive}
    (hEach : ∀ record ∈ active, record.version.id ∉ claimed ∧ ∃ entry,
      versions[record.version.id]? = some entry ∧ entry.lifecycle = .retained)
    (hNodup : (active.map fun record => record.version.id).Nodup) :
    checkClaims versions claimed active = .ok () := by
  induction active generalizing claimed with
  | nil => rfl
  | cons record active ih =>
    obtain ⟨hUnclaimed, entry, hEntry, hRetained⟩ := hEach record List.mem_cons_self
    obtain ⟨hHead, hRest⟩ := List.nodup_cons.mp hNodup
    rw [checkClaims, hEntry, okOr_some, ok_bind, failIf_neg (not_not.mpr hRetained), ok_bind,
      failIf_neg hUnclaimed, ok_bind]
    refine ih (fun other hMem => ?_) hRest
    obtain ⟨hOther, hOtherEntry⟩ := hEach other (List.mem_cons_of_mem _ hMem)
    refine ⟨?_, hOtherEntry⟩
    rw [List.mem_cons, not_or]
    refine ⟨?_, hOther⟩
    intro hSame
    exact hHead (List.mem_map.mpr ⟨other, hMem, hSame⟩)

end Snapshot

section Canonical

variable {sha256 : Bytes → Digest} {store : PersistentHistoryStore}
  {content : PhysicalContentStore} {a : V2AvlSequence} {generation representedWalEnd : Nat}
  {snapshot : HistorySnapshot}

theorem IsSnapshot.entry (h : IsSnapshot store generation representedWalEnd snapshot)
    (hOver : OverArena sha256 store content a) {i : Nat} {entry : SnapshotVersion}
    (hGet : snapshot.versions[i]? = some entry) :
    ∃ record descriptor, store.versions[i]? = some record ∧ Describes record.root descriptor ∧
      (∀ root, record.root = some root → record.len = root.logicalLen) ∧
      entry = store.snapshotVersion record descriptor := by
  obtain ⟨record, hRecord, descriptor, hDescriptor, rfl⟩ := forall₂_getElem? h.versions hGet
  obtain ⟨hDescribes, hLen⟩ := hOver.describes (List.mem_of_getElem? hRecord) hDescriptor
  exact ⟨record, descriptor, hRecord, hDescribes, hLen, rfl⟩

theorem IsSnapshot.entryOf (h : IsSnapshot store generation representedWalEnd snapshot) {i : Nat}
    {record : VersionRecord} (hGet : store.versions[i]? = some record) :
    ∃ descriptor, snapshot.versions[i]? = some (store.snapshotVersion record descriptor) := by
  obtain ⟨hLt, -⟩ := List.getElem?_eq_some_iff.mp hGet
  have hLen := h.versions.length_eq
  have hEntry := List.getElem?_eq_getElem (l := snapshot.versions) (i := i) (by omega)
  obtain ⟨record', hRecord, descriptor, -, hEq⟩ := forall₂_getElem? h.versions hEntry
  rw [hGet] at hRecord
  cases hRecord
  exact ⟨descriptor, by rw [hEntry, hEq]⟩

theorem IsSnapshot.activeIds (h : IsSnapshot store generation representedWalEnd snapshot) :
    snapshot.active.map SnapshotActive.requestId = store.activeRequests.keys := by
  rw [h.active, List.map_map]
  rfl

theorem IsSnapshot.mem_active (h : IsSnapshot store generation representedWalEnd snapshot)
    {record : SnapshotActive} (hMem : record ∈ snapshot.active) :
    store.activeRequests.get record.requestId = some ⟨record.digest, record.version⟩ := by
  rw [h.active] at hMem
  obtain ⟨⟨request, entry⟩, hEntry, rfl⟩ := List.mem_map.mp hMem
  exact KeyMap.mem_entries.mp hEntry

theorem IsSnapshot.mem_retired (h : IsSnapshot store generation representedWalEnd snapshot)
    {record : SnapshotRetired} (hMem : record ∈ snapshot.retired) :
    store.retiredRequests.get record.requestId = some record.digest := by
  rw [h.retired] at hMem
  obtain ⟨⟨request, digest⟩, hEntry, rfl⟩ := List.mem_map.mp hMem
  exact KeyMap.mem_entries.mp hEntry

theorem IsSnapshot.retired_not_active (h : IsSnapshot store generation representedWalEnd snapshot)
    (hInv : StoreInv store) {record : SnapshotRetired} (hMem : record ∈ snapshot.retired) :
    record.requestId ∉ store.activeRequests.keys := by
  have hGet := h.mem_retired hMem
  rw [KeyMap.not_mem_keys]
  cases hBoth : store.activeRequests.get record.requestId with
  | none => rfl
  | some entry =>
    rw [hInv.ledger.tables.disjoint hBoth] at hGet
    cases hGet

/-- No two active requests name one version. -/
theorem IsSnapshot.nodup_claims (h : IsSnapshot store generation representedWalEnd snapshot)
    (hInv : StoreInv store) : (snapshot.active.map fun record => record.version.id).Nodup := by
  have hIds : snapshot.active.Pairwise fun r r' => r.requestId ≠ r'.requestId := by
    have hNodup := KeyMap.nodup_keys store.activeRequests
    rw [← h.activeIds] at hNodup
    exact List.pairwise_map.mp hNodup
  refine List.pairwise_map.mpr (hIds.imp_of_mem ?_)
  intro r r' hMem hMem' hNe hSame
  have hVersion : r.version = r'.version := by
    cases hr : r.version
    cases hr' : r'.version
    simpa [hr, hr'] using hSame
  exact hNe (hInv.ledger.single _ _ _ _ (h.mem_active hMem) (h.mem_active hMem') hVersion)

theorem IsSnapshot.receipts (h : IsSnapshot store generation representedWalEnd snapshot)
    (hInv : StoreInv store) :
    Snapshot.validateReceiptConsistency snapshot.versions snapshot.active snapshot.retired
      snapshot.receiptOrder = .ok () := by
  have hTables := hInv.ledger.tables
  have hOrder := h.receiptOrder
  have hLen : snapshot.receiptOrder.length = snapshot.active.length + snapshot.retired.length := by
    rw [hOrder, h.active, h.retired, List.length_map, List.length_map]
    exact hTables.length
  have hActive : Snapshot.checkActiveReceipts snapshot.receiptOrder [] snapshot.active =
      .ok () := by
    refine Snapshot.checkActiveReceipts_ok (fun record hMem => ?_) ?_
    · rw [hOrder]
      exact ⟨hTables.mem.mpr (.inl ⟨_, h.mem_active hMem⟩), List.not_mem_nil⟩
    · rw [h.activeIds]
      exact KeyMap.nodup_keys _
  have hRetired : ∀ record ∈ snapshot.retired, Snapshot.checkRetiredReceipt snapshot.receiptOrder
      (snapshot.active.map SnapshotActive.requestId) record = .ok () := by
    intro record hMem
    have hGet := h.mem_retired hMem
    rw [Snapshot.checkRetiredReceipt, failIf_neg, ok_bind, failIf_neg]
    · rw [h.activeIds]
      exact h.retired_not_active hInv hMem
    · rw [not_not, hOrder]
      exact hTables.mem.mpr (.inr ⟨_, hGet⟩)
  have hClaims : Snapshot.checkClaims snapshot.versions [] snapshot.active = .ok () := by
    refine Snapshot.checkClaims_ok (fun record hMem => ⟨List.not_mem_nil, ?_⟩)
      (h.nodup_claims hInv)
    obtain ⟨hKnown, hNotExpired⟩ := hInv.ledger.retained _ _ (h.mem_active hMem)
    have hRecord := List.getElem?_eq_getElem hKnown
    obtain ⟨descriptor, hEntry⟩ := h.entryOf hRecord
    refine ⟨_, hEntry, ?_⟩
    have hId := hInv.catalogue.dense _ _ hRecord
    rw [PersistentHistoryStore.snapshotVersion, hId]
    exact if_neg hNotExpired
  rw [Snapshot.validateReceiptConsistency, failIf_neg, ok_bind, failIf_neg, ok_bind,
    failIf_neg (by rw [hLen]; simp), ok_bind, hActive, ok_bind, forM_eq_ok hRetired, ok_bind,
    hClaims]
  · rw [not_not, hOrder]
    exact hTables.nodup
  · rw [hOrder]
    exact Nat.not_lt.mpr hInv.ledger.horizon

theorem IsSnapshot.canonicalVersion (h : IsSnapshot store generation representedWalEnd snapshot)
    (hInv : StoreInv store) (hOver : OverArena sha256 store content a) {i : Nat}
    {entry : SnapshotVersion} (hGet : snapshot.versions[i]? = some entry) :
    Snapshot.CanonicalVersion (snapshot.versions.take i) entry := by
  obtain ⟨record, descriptor, hRecord, hDescribes, -, rfl⟩ := h.entry hOver hGet
  have hCatalogue := hInv.catalogue
  have hMem := List.mem_of_getElem? hRecord
  have hHistory := (hCatalogue.histories _).mp (hCatalogue.history record hMem)
  have hHistoryLimit := hCatalogue.historyLimit
  have hVersionLimit := hCatalogue.versionLimit
  have hNext := hCatalogue.nextVersion
  have hLast : noParent + 1 = width 64 := by decide
  obtain ⟨hLt, -⟩ := List.getElem?_eq_some_iff.mp hRecord
  have hId := hCatalogue.dense i record hRecord
  refine ⟨hHistory.trans hHistoryLimit, ?_, ?_, hCatalogue.len record hMem, ?_, ?_⟩
  · cases hParent : record.version.parent with
    | none =>
      simp only [PersistentHistoryStore.snapshotVersion, hParent, Option.map_none, Option.getD_none]
      exact if_pos rfl
    | some parent =>
      obtain ⟨hBefore, parentRecord, hParentRecord, hSame⟩ :=
        hCatalogue.parent i record parent hRecord hParent
      obtain ⟨parentDescriptor, hParentEntry⟩ := h.entryOf hParentRecord
      have hFound : (snapshot.versions.take i)[parent.id]? =
          some (store.snapshotVersion parentRecord parentDescriptor) := by
        rw [List.getElem?_take_of_lt hBefore, hParentEntry]
      simp only [PersistentHistoryStore.snapshotVersion, hParent, Option.map_some,
        Option.getD_some] at hFound ⊢
      rw [Snapshot.decodeParent, if_neg (by omega), hFound, okOr_some, ok_bind,
        failIf_neg (by rw [hSame]; simp), ok_bind]
      rfl
  · cases hParent : record.version.parent with
    | none =>
      simp only [PersistentHistoryStore.snapshotVersion, hParent, Option.map_none, Option.getD_none]
      omega
    | some parent =>
      obtain ⟨hBefore, -⟩ := hCatalogue.parent i record parent hRecord hParent
      simp only [PersistentHistoryStore.snapshotVersion, hParent, Option.map_some, Option.getD_some]
      omega
  · intro hRetained
    refine hCatalogue.materialized record hMem fun hExpired => ?_
    rw [PersistentHistoryStore.snapshotVersion, if_pos hExpired] at hRetained
    cases hRetained
  · intro bytes hBytes
    rcases hDescribes with ⟨-, rfl⟩ | ⟨root, found, -, rfl, hDecode⟩
    · cases hBytes
    · cases hBytes
      exact ⟨root, hDecode⟩

theorem canonicalVersions_of_index {before rest : List SnapshotVersion}
    (h : ∀ i entry, rest[i]? = some entry →
      Snapshot.CanonicalVersion (before ++ rest.take i) entry) :
    Snapshot.CanonicalVersions before rest := by
  induction rest generalizing before with
  | nil => trivial
  | cons entry rest ih =>
    have hHead := h 0 entry rfl
    rw [List.take_zero, List.append_nil] at hHead
    refine ⟨hHead, ih fun i other hGet => ?_⟩
    have hOther := h (i + 1) other hGet
    rwa [List.take_succ_cons, List.append_cons] at hOther

/-- The snapshot of a store is canonical. -/
theorem IsSnapshot.canonical (h : IsSnapshot store generation representedWalEnd snapshot)
    (hInv : StoreInv store) (hOver : OverArena sha256 store content a)
    (hGeneration : generation < width 64) (hEnd : representedWalEnd < width 64) :
    snapshot.Canonical := by
  have hBounds := hOver.addressable
  have hFrontiers : store.contentFrontiers = (a.payload.length, a.nodes.length) := by
    rw [PersistentHistoryStore.contentFrontiers, hOver.backend, ← hOver.represents.payloadEnd,
      ← hOver.represents.nodeCount]
  unfold Addressable at hBounds
  refine ⟨?_, ?_, ?_, ?_, ?_, ?_, ?_, ?_, h.receipts hInv⟩
  · rw [h.generation]
    exact hGeneration
  · rw [h.representedWalEnd]
    exact hEnd
  · rw [h.physicalGeneration, PersistentHistoryStore.physicalGeneration, hOver.backend]
    exact hOver.generation
  · rw [h.payloadEnd, hFrontiers]
    unfold width
    omega
  · rw [h.nodeCount, hFrontiers]
    unfold width
    omega
  · rw [h.historyBindings, List.filterMap_map]
    refine List.Nodup.filterMap ?_ List.nodup_range
    intro i j bytes hi hj
    have hSame := hInv.bindings.unique _ _ _ hi hj
    cases hSame
    rfl
  · refine canonicalVersions_of_index fun i entry hGet => ?_
    rw [List.nil_append]
    exact h.canonicalVersion hInv hOver hGet
  · intro record hMem
    rw [h.activeIds]
    exact h.retired_not_active hInv hMem

end Canonical

/-! ## The import of the snapshot -/

namespace PersistentHistoryStore

theorem checkImportedBindings_ok {seen bindings : List Bytes}
    (hEach : ∀ binding ∈ bindings, 0 < binding.length ∧ binding ∉ seen) (hNodup : bindings.Nodup) :
    checkImportedBindings seen bindings = .ok () := by
  induction bindings generalizing seen with
  | nil => rfl
  | cons binding bindings ih =>
    obtain ⟨hPos, hUnseen⟩ := hEach binding List.mem_cons_self
    obtain ⟨hHead, hRest⟩ := List.nodup_cons.mp hNodup
    have hNonempty : ¬ binding.isEmpty = true := by
      rw [List.isEmpty_iff_length_eq_zero]
      omega
    rw [checkImportedBindings, failIf_neg hNonempty, ok_bind, failIf_neg hUnseen, ok_bind]
    refine ih (fun other hMem => ?_) hRest
    obtain ⟨hOther, hOtherUnseen⟩ := hEach other (List.mem_cons_of_mem _ hMem)
    refine ⟨hOther, ?_⟩
    rw [List.mem_cons, not_or]
    refine ⟨?_, hOtherUnseen⟩
    rintro rfl
    exact hHead hMem

end PersistentHistoryStore

section Import

open PersistentHistoryStore

variable {sha256 : Bytes → Digest} {store : PersistentHistoryStore}
  {content : PhysicalContentStore} {a : V2AvlSequence} {generation representedWalEnd : Nat}
  {snapshot : HistorySnapshot}

theorem IsSnapshot.checkBindings (h : IsSnapshot store generation representedWalEnd snapshot)
    (hInv : StoreInv store) (hCanonical : snapshot.Canonical) :
    checkImportedBindings [] (snapshot.historyBindings.filterMap id) = .ok () := by
  refine checkImportedBindings_ok (fun binding hMem => ?_) hCanonical.bindings
  rw [h.historyBindings, List.filterMap_map, List.mem_filterMap] at hMem
  obtain ⟨index, -, hGet⟩ := hMem
  have hValid := (hInv.bindings.history _ _ hGet).2
  exact ⟨(validateBinding_eq_ok.mp hValid).1, List.not_mem_nil⟩

/-- The loop over the histories. -/
theorem IsSnapshot.importHistories (h : IsSnapshot store generation representedWalEnd snapshot)
    (hInv : StoreInv store) {base : PersistentHistoryStore} (hHistories : base.histories = ∅)
    (hBindings : base.historyBindings = .empty) :
    snapshot.historyBindings.zipIdx.foldl importHistory base =
      { base with histories := store.histories, historyBindings := store.historyBindings } := by
  have hLoop := foldl_indexed (f := importHistory) (l := snapshot.historyBindings.zipIdx)
    (P := fun i t => t = { base with
        histories := t.histories
        historyBindings := t.historyBindings } ∧
      (∀ history, history ∈ t.histories ↔ history.id < i) ∧
      ∀ history, t.historyBindings.get history =
        if history.id < i then store.historyBindings.get history else none)
    (t := base) ?_ ?_
  · obtain ⟨hFrame, hMem, hGet⟩ := hLoop
    have hLen : snapshot.historyBindings.zipIdx.length = store.nextHistoryId := by
      rw [List.length_zipIdx, h.historyBindings, List.length_map, List.length_range]
    rw [hLen] at hMem hGet
    rw [hFrame]
    congr 1
    · ext history
      rw [hMem, hInv.catalogue.histories]
    · refine KeyMap.ext_get fun history => ?_
      rw [hGet]
      split
      case isTrue => rfl
      case isFalse hOut =>
        cases hBound : store.historyBindings.get history with
        | none => rfl
        | some bytes =>
          have hKnown := (hInv.bindings.history history bytes hBound).1
          exact absurd ((hInv.catalogue.histories history).mp hKnown) hOut
  · rintro i ⟨binding, j⟩ t hAt ⟨hFrame, hMem, hGet⟩
    obtain ⟨hBinding, rfl⟩ : snapshot.historyBindings[i]? = some binding ∧ i = j := by
      simpa [List.getElem?_zipIdx] using hAt
    obtain ⟨index, hIndex, rfl⟩ : ∃ index, (List.range store.nextHistoryId)[i]? = some index ∧
        store.historyBindings.get ⟨index⟩ = binding := by
      rw [h.historyBindings, List.getElem?_map] at hBinding
      exact Option.map_eq_some_iff.mp hBinding
    obtain ⟨hLt, hSame⟩ := List.getElem?_eq_some_iff.mp hIndex
    obtain rfl : i = index := by rwa [List.getElem_range] at hSame
    refine ⟨?_, ?_, ?_⟩
    · rw [hFrame]
      rfl
    · intro history
      have hEq : history = ⟨i⟩ ↔ history.id = i := by
        cases history
        simp
      simp only [importHistory, Finset.mem_insert, hMem, hEq]
      omega
    · intro history
      have hEq : history = ⟨i⟩ ↔ history.id = i := by
        cases history
        simp
      have hOld := hGet history
      cases hBound : store.historyBindings.get ⟨i⟩ with
      | none =>
        simp only [importHistory]
        grind
      | some bytes =>
        simp only [importHistory, KeyMap.get_insert]
        grind
  · refine ⟨rfl, ?_, ?_⟩
    · intro history
      rw [hHistories]
      simp
    · intro history
      rw [hBindings, if_neg (by omega), KeyMap.get_empty]

/-- The root of a version behind its descriptor. -/
theorem importedRoot_snapshotVersion (hInv : StoreInv store) {record : VersionRecord}
    (hMem : record ∈ store.versions) {descriptor : Option RootBytes}
    (hDescribes : Describes record.root descriptor)
    (hLen : ∀ root, record.root = some root → record.len = root.logicalLen) :
    importedRoot (store.snapshotVersion record descriptor) = .ok record.root := by
  rcases hDescribes with ⟨hRoot, rfl⟩ | ⟨root, bytes, hRoot, rfl, hDecode⟩
  · have hExpired : record.version.id ∈ store.expiredVersions := by
      by_contra hRetained
      have hSome := hInv.catalogue.materialized record hMem hRetained
      rw [hRoot] at hSome
      cases hSome
    have hLifecycle : (store.snapshotVersion record none).lifecycle = .expired := if_pos hExpired
    have hAbsent : (store.snapshotVersion record none).rootPresent = false := by
      rw [PersistentHistoryStore.snapshotVersion, hRoot]
      rfl
    rw [importedRoot, hAbsent, if_neg (by simp), hLifecycle, failIf_neg (by simp), ok_bind, hRoot]
    rfl
  · have hPresent : (store.snapshotVersion record (some bytes)).rootPresent = true := by
      rw [PersistentHistoryStore.snapshotVersion, hRoot]
      rfl
    have hBytes : (store.snapshotVersion record (some bytes)).root = some bytes := rfl
    have hSameLen : (store.snapshotVersion record (some bytes)).len = root.logicalLen :=
      hLen root hRoot
    rw [importedRoot, hPresent, if_pos rfl, hBytes, okOr_some, ok_bind, hDecode, mapErr_ok, ok_bind,
      hSameLen, failIf_neg (by simp), ok_bind, hRoot]
    rfl

/-- The parent of a version is found among the versions of the snapshot. -/
theorem IsSnapshot.checkParent (h : IsSnapshot store generation representedWalEnd snapshot)
    (hInv : StoreInv store) {i : Nat} {record : VersionRecord}
    (hRecord : store.versions[i]? = some record) (descriptor : Option RootBytes) :
    checkImportedParent snapshot.versions (store.snapshotVersion record descriptor) = .ok () := by
  have hParent : (store.snapshotVersion record descriptor).parent = record.version.parent := rfl
  unfold checkImportedParent
  rw [hParent]
  cases hCase : record.version.parent with
  | none => rfl
  | some parent =>
    obtain ⟨-, parentRecord, hParentRecord, hSame⟩ :=
      hInv.catalogue.parent i record parent hRecord hCase
    obtain ⟨parentDescriptor, hEntry⟩ := h.entryOf hParentRecord
    change (okOr snapshot.versions[parent.id]? _ >>= fun parentEntry => _) = _
    rw [hEntry, okOr_some, ok_bind]
    exact failIf_neg (not_not.mpr hSame)

/-- The loop over the versions. -/
theorem IsSnapshot.importVersions (h : IsSnapshot store generation representedWalEnd snapshot)
    (hInv : StoreInv store) (hOver : OverArena sha256 store content a)
    {base : PersistentHistoryStore} (hVersions : base.versions = [])
    (hExpired : base.expiredVersions = ∅) (hBindings : base.versionBindings = .empty) :
    snapshot.versions.zipIdx.foldlM (importVersion snapshot.versions) base =
      .ok { base with
        versions := store.versions
        expiredVersions := store.expiredVersions
        versionBindings := store.versionBindings } := by
  have hLoop := foldlM_indexed (f := importVersion snapshot.versions)
    (l := snapshot.versions.zipIdx)
    (P := fun i t => t = { base with
        versions := store.versions.take i
        expiredVersions := t.expiredVersions
        versionBindings := t.versionBindings } ∧
      (∀ version, version ∈ t.expiredVersions ↔
        version ∈ store.expiredVersions ∧ version.id < i) ∧
      ∀ version, t.versionBindings.get version =
        if version.id < i then store.versionBindings.get version else none)
    (t := base) ?_ ?_
  · obtain ⟨t, hRun, hFrame, hMem, hGet⟩ := hLoop
    have hLen : snapshot.versions.zipIdx.length = store.versions.length := by
      rw [List.length_zipIdx, h.versions.length_eq]
    rw [hLen] at hFrame hMem hGet
    rw [hRun, hFrame, List.take_length]
    congr 2
    · ext version
      rw [hMem]
      exact ⟨And.left, fun hIn => ⟨hIn, hInv.catalogue.expired version hIn⟩⟩
    · refine KeyMap.ext_get fun version => ?_
      rw [hGet]
      split
      case isTrue => rfl
      case isFalse hOut =>
        cases hBound : store.versionBindings.get version with
        | none => rfl
        | some bytes => exact absurd (hInv.bindings.version version bytes hBound).1 hOut
  · rintro i ⟨entry, j⟩ t hAt ⟨hFrame, hMem, hGet⟩
    obtain ⟨hEntry, rfl⟩ : snapshot.versions[i]? = some entry ∧ i = j := by
      simpa [List.getElem?_zipIdx] using hAt
    obtain ⟨record, descriptor, hRecord, hDescribes, hLen, rfl⟩ := h.entry hOver hEntry
    have hIn := List.mem_of_getElem? hRecord
    have hId := hInv.catalogue.dense i record hRecord
    have hPos := (hInv.catalogue.len record hIn).1
    have hParent := h.checkParent hInv hRecord descriptor
    have hRoot := importedRoot_snapshotVersion hInv hIn hDescribes hLen
    have hNonzero : ¬ (store.snapshotVersion record descriptor).len = 0 :=
      Nat.pos_iff_ne_zero.mp hPos
    refine ⟨_, by
      rw [importVersion, hParent, ok_bind, failIf_neg hNonzero, ok_bind, hRoot, ok_bind]
      rfl, ?_, ?_, ?_⟩
    · rw [hFrame, List.take_add_one, hRecord]
      obtain ⟨⟨history, id, parent⟩, root, len⟩ := record
      obtain rfl : id = ⟨i⟩ := hId
      rfl
    · intro version
      have hEq : version = ⟨i⟩ ↔ version.id = i := by
        cases version
        simp
      have hOld := hMem version
      simp only [PersistentHistoryStore.snapshotVersion, hId]
      by_cases hExpiredNow : (VersionId.mk i) ∈ store.expiredVersions
      · rw [if_pos hExpiredNow]
        grind
      · rw [if_neg hExpiredNow]
        grind
    · intro version
      have hEq : version = ⟨i⟩ ↔ version.id = i := by
        cases version
        simp
      have hOld := hGet version
      simp only [PersistentHistoryStore.snapshotVersion, hId]
      cases hBound : store.versionBindings.get ⟨i⟩ with
      | none => grind
      | some bytes =>
        simp only [KeyMap.get_insert]
        grind
  · refine ⟨?_, ?_, ?_⟩
    · rw [List.take_zero, ← hVersions]
    · intro version
      rw [hExpired]
      simp
    · intro version
      rw [hBindings, if_neg (by omega), KeyMap.get_empty]

/-- The loop over the active requests. -/
theorem IsSnapshot.importActive (h : IsSnapshot store generation representedWalEnd snapshot)
    (hInv : StoreInv store) {base : PersistentHistoryStore}
    (hVersions : base.versions = store.versions) (hActive : base.activeRequests = .empty) :
    snapshot.active.foldlM PersistentHistoryStore.importActive base =
      .ok { base with activeRequests := store.activeRequests } := by
  have hLoop := foldlM_indexed (f := PersistentHistoryStore.importActive) (l := snapshot.active)
    (P := fun i t => t = { base with
      activeRequests := KeyMap.empty.insertAll (store.activeRequests.entries.take i) })
    (t := base) ?_ (by rw [List.take_zero, ← hActive]; rfl)
  · obtain ⟨t, hRun, hFrame⟩ := hLoop
    rw [hRun, hFrame, h.active, List.length_map, List.take_length, KeyMap.insertAll_entries]
  · rintro i record t hAt rfl
    rw [h.active, List.getElem?_map] at hAt
    obtain ⟨⟨request, entry⟩, hEntry, rfl⟩ := Option.map_eq_some_iff.mp hAt
    have hGet := KeyMap.mem_entries.mp (List.mem_of_getElem? hEntry)
    have hKnown := (hInv.ledger.retained request entry hGet).1
    have hRecord := List.getElem?_eq_getElem hKnown
    have hId := hInv.catalogue.dense _ _ hRecord
    have hFresh := KeyMap.get_insertAll_take hEntry
    have hFound : PersistentHistoryStore.versionRecord { base with
        activeRequests := KeyMap.empty.insertAll (store.activeRequests.entries.take i) }
          entry.version = .ok (store.versions[entry.version.id]) :=
      versionRecord_eq_ok.mpr ⟨by rw [← hRecord, ← hVersions], hId⟩
    refine ⟨_, ?_, rfl⟩
    rw [PersistentHistoryStore.importActive]
    dsimp only
    rw [hFound, ok_bind, failIf_neg (by rw [KeyMap.containsKey, hFresh]; simp), ok_bind,
      KeyMap.insertAll_take_succ _ hEntry, hId]
    rfl

/-- The loop over the retired requests. -/
theorem IsSnapshot.importRetired (h : IsSnapshot store generation representedWalEnd snapshot)
    (hInv : StoreInv store) {base : PersistentHistoryStore}
    (hActive : base.activeRequests = store.activeRequests)
    (hRetired : base.retiredRequests = .empty) :
    snapshot.retired.foldlM PersistentHistoryStore.importRetired base =
      .ok { base with retiredRequests := store.retiredRequests } := by
  have hLoop := foldlM_indexed (f := PersistentHistoryStore.importRetired) (l := snapshot.retired)
    (P := fun i t => t = { base with
      retiredRequests := KeyMap.empty.insertAll (store.retiredRequests.entries.take i) })
    (t := base) ?_ (by rw [List.take_zero, ← hRetired]; rfl)
  · obtain ⟨t, hRun, hFrame⟩ := hLoop
    rw [hRun, hFrame, h.retired, List.length_map, List.take_length, KeyMap.insertAll_entries]
  · rintro i record t hAt rfl
    have hNotActive := h.retired_not_active hInv (List.mem_of_getElem? hAt)
    rw [h.retired, List.getElem?_map] at hAt
    obtain ⟨⟨request, digest⟩, hEntry, rfl⟩ := Option.map_eq_some_iff.mp hAt
    have hFresh := KeyMap.get_insertAll_take hEntry
    have hAbsent := KeyMap.not_mem_keys.mp hNotActive
    refine ⟨_, ?_, rfl⟩
    rw [PersistentHistoryStore.importRetired]
    dsimp only
    rw [hActive, failIf_neg (by rw [KeyMap.containsKey, hAbsent]; simp), ok_bind,
      failIf_neg (by rw [KeyMap.containsKey, hFresh]; simp), ok_bind,
      KeyMap.insertAll_take_succ _ hEntry]
    rfl

theorem card_expired_le (hInv : StoreInv store) :
    store.expiredVersions.card ≤ store.versions.length := by
  have hInjective : Function.Injective VersionId.id := by
    rintro ⟨i⟩ ⟨j⟩ hSame
    exact congrArg VersionId.mk hSame
  have hSubset : store.expiredVersions.image VersionId.id ⊆ Finset.range store.versions.length := by
    intro i hMem
    obtain ⟨version, hIn, rfl⟩ := Finset.mem_image.mp hMem
    exact Finset.mem_range.mpr (hInv.catalogue.expired version hIn)
  have hCard := Finset.card_le_card hSubset
  rwa [Finset.card_image_of_injective _ hInjective, Finset.card_range] at hCard

/-- The store behind its snapshot, over the content it is bound to. -/
theorem IsSnapshot.importSnapshot (h : IsSnapshot store generation representedWalEnd snapshot)
    (hInv : StoreInv store) (hOver : OverArena sha256 store content a)
    (hCanonical : snapshot.Canonical) (bound : PhysicalContentStore) :
    importSnapshot bound snapshot =
      .ok { store with backend := .physical bound, poisoned := false } := by
  have hReceipts : snapshot.receiptOrder.forM Snapshot.checkRequestBounds = .ok () := by
    refine forM_eq_ok fun request hMem => ?_
    rw [h.receiptOrder] at hMem
    have hValid := hInv.ledger.valid request hMem
    unfold validateRequestIdentity at hValid
    exact failIf_neg (failIf_eq_ok.mp hValid)
  have hCard : ¬ store.expiredVersions.card > store.versions.length :=
    Nat.not_lt.mpr (card_expired_le hInv)
  rw [PersistentHistoryStore.importSnapshot, h.checkBindings hInv hCanonical, ok_bind]
  dsimp only
  rw [h.importHistories hInv (by rfl) (by rfl),
    h.importVersions hInv hOver (by rfl) (by rfl) (by rfl), ok_bind,
    h.importActive hInv (by rfl) (by rfl), ok_bind, h.importRetired hInv (by rfl) (by rfl), ok_bind,
    hReceipts, ok_bind, h.receipts hInv, ok_bind]
  dsimp only
  rw [failIf_neg hCard, ok_bind, h.receiptOrder, h.nextHistoryId, h.nextVersionId]
  rfl

/-- The import of the snapshot over files that hold the arena. -/
theorem IsSnapshot.importPhysicalSnapshot
    (h : IsSnapshot store generation representedWalEnd snapshot) (hInv : StoreInv store)
    (hOver : OverArena sha256 store content a) (hCanonical : snapshot.Canonical)
    {payload nodes : Option Bytes} (hHolds : HoldsArena payload nodes content.generation a) :
    importPhysicalSnapshot payload nodes snapshot =
      .ok { store with
        backend := .physical (boundStore payload nodes content.generation a)
        poisoned := false } := by
  have hGeneration : snapshot.physicalGeneration = content.generation := by
    rw [h.physicalGeneration, PersistentHistoryStore.physicalGeneration, hOver.backend]
    rfl
  have hFrontiers : store.contentFrontiers = (a.payload.length, a.nodes.length) := by
    rw [PersistentHistoryStore.contentFrontiers, hOver.backend, ← hOver.represents.payloadEnd,
      ← hOver.represents.nodeCount]
  rw [PersistentHistoryStore.importPhysicalSnapshot, hGeneration, h.payloadEnd, h.nodeCount,
    hFrontiers, hHolds.openExisting hOver.addressable hOver.generation, mapErr_ok, ok_bind,
    h.importSnapshot hInv hOver hCanonical]

end Import

end TulyaStore.History
