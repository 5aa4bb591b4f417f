import Mathlib.Data.Finset.Sort
import TulyaStore.History.Mutations

/-!
# What the queries answer

The queries of a history store, and what they answer on a live authority: exactly what its model
says (`Live.serves`). Bytes come back as ranges of the bytes of the version, retained versions
verify, an expired version is refused, and the listings are those of the model.
-/

namespace TulyaStore.History

open Lib Sequence V2AvlSequence PersistentHistoryStore

/-! ## Queries -/

namespace PersistentHistoryStore

/-- `version_lifecycle` -/
def versionLifecycle (store : PersistentHistoryStore) (id : VersionId) :
    Except HistoryError VersionLifecycle := do
  let _ ← store.versionRecord id
  return if id ∈ store.expiredVersions then .expired else .retained

/-- `is_retained` -/
def isRetained (store : PersistentHistoryStore) (id : VersionId) : Except HistoryError Bool := do
  let lifecycle ← store.versionLifecycle id
  return lifecycle = .retained

/-- `is_expired` -/
def isExpired (store : PersistentHistoryStore) (id : VersionId) : Except HistoryError Bool := do
  let lifecycle ← store.versionLifecycle id
  return lifecycle = .expired

/-- `logical_len` -/
def logicalLen (store : PersistentHistoryStore) (version : Version) : Except HistoryError Nat := do
  let record ← store.committedVersion version
  return record.len

/-- `version_count` -/
def versionCount (store : PersistentHistoryStore) : Nat := store.versions.length

/-- `request_receipt_count` -/
def requestReceiptCount (store : PersistentHistoryStore) : Nat :=
  store.activeRequests.size + store.retiredRequests.size

/-- `all_histories` -/
def allHistories (store : PersistentHistoryStore) : List HistoryId := store.histories.sort (· ≤ ·)

/-- `history_binding` -/
def historyBinding (store : PersistentHistoryStore) (id : HistoryId) : Option Bytes :=
  store.historyBindings.get id

/-- `all_versions` -/
def allVersions (store : PersistentHistoryStore) : List Version :=
  store.versions.map VersionRecord.version

/-- `version_binding` -/
def versionBinding (store : PersistentHistoryStore) (id : VersionId) : Option Bytes :=
  store.versionBindings.get id

/-- `committed_version_for_adapter` -/
def committedVersionForAdapter (store : PersistentHistoryStore) (id : VersionId)
    (history : HistoryId) : Except HistoryError Version := do
  let record ← store.versionRecord id
  failIf (record.version.history ≠ history)
    (.invalid "persistent version belongs to a different history")
  failIf (id ∈ store.expiredVersions) .versionExpired
  return record.version

end PersistentHistoryStore

/-! ## The answers of the model -/

/-- The queries of the store answer as the model says. -/
structure Serves (sha256 : Bytes → Digest) (s : PersistentHistoryStore) (m : HistoryModel) :
    Prop where
  versions : s.allVersions = m.versions.map ModelVersion.version
  histories : s.allHistories = (List.range m.histories.length).map HistoryId.mk
  historyBinding : ∀ id, s.historyBinding id = m.histories[id.id]?.join
  versionBinding : ∀ id, s.versionBinding id = m.versions[id.id]?.bind ModelVersion.binding
  retained : ∀ id, s.isRetained id = .ok true ↔
    ∃ entry, m.versions[id.id]? = some entry ∧ entry.content.isSome
  expired : ∀ id, s.isExpired id = .ok true ↔
    ∃ entry, m.versions[id.id]? = some entry ∧ entry.content = none
  lookupVersion : ∀ id version, s.lookupVersion id = .ok version ↔
    ∃ entry, m.versions[id.id]? = some entry ∧ entry.content.isSome ∧ version = entry.version
  lookup : ∀ id history version, s.committedVersionForAdapter id history = .ok version ↔
    ∃ entry, m.lookup history id = some entry ∧ entry.content.isSome ∧ version = entry.version
  len : ∀ version len, s.logicalLen version = .ok len ↔
    ∃ entry content, m.versions[version.id.id]? = some entry ∧ entry.version = version ∧
      entry.content = some content ∧ len = content.length
  verify : ∀ version, s.verify sha256 version = .ok () ↔
    ∃ entry, m.versions[version.id.id]? = some entry ∧ entry.version = version ∧
      entry.content.isSome
  read : ∀ version offset length bytes, s.read sha256 version offset length = .ok bytes ↔
    ∃ entry content, m.versions[version.id.id]? = some entry ∧ entry.version = version ∧
      entry.content = some content ∧ offset + length ≤ content.length ∧
      bytes = (content.drop offset).take length
  readExpired : ∀ version entry, m.versions[version.id.id]? = some entry → entry.version = version →
    entry.content = none → ∀ offset length,
      s.read sha256 version offset length = .error .versionExpired
  active : ∀ request id, s.requestReceiptStatus request = .active id ↔
    ∃ digest, ⟨request, digest, some id⟩ ∈ m.receipts
  retired : ∀ request, s.requestReceiptStatus request = .retired ↔
    ∃ digest, ⟨request, digest, none⟩ ∈ m.receipts
  receipts : s.requestReceiptCount = m.receipts.length

section Answers

variable {sha256 : Bytes → Digest} {s : PersistentHistoryStore} {a : V2AvlSequence}

/-- The records behind the versions of the model. -/
theorem view_versions_eq_some {i : Nat} {entry : ModelVersion} :
    (s.view a).versions[i]? = some entry ↔
      ∃ record, s.versions[i]? = some record ∧ s.versionView a record = entry := by
  change (s.versions.map _)[i]? = some entry ↔ _
  rw [List.getElem?_map]
  exact Option.map_eq_some_iff

/-- A version has its bytes as long as it is not expired. -/
theorem contentView_iff (h : Sound sha256 s a) {record : VersionRecord}
    (hMem : record ∈ s.versions) :
    (record.version.id ∈ s.expiredVersions ∧ s.contentView a record = none) ∨
    (record.version.id ∉ s.expiredVersions ∧ ∃ t canonical, Denotes sha256 a t canonical ∧
      record.root = some (.balancedV2 canonical.nodeId canonical.logicalLen) ∧
      s.contentView a record = some t.toList ∧ record.len = t.toList.length) := by
  by_cases hExpired : record.version.id ∈ s.expiredVersions
  · exact .inl ⟨hExpired, by rw [contentView, if_pos hExpired]⟩
  · refine .inr ⟨hExpired, ?_⟩
    obtain ⟨root, hRoot⟩ := Option.isSome_iff_exists.mp
      (h.inv.catalogue.materialized record hMem hExpired)
    obtain ⟨t, canonical, hDenotes, rfl⟩ := h.roots record hMem root hRoot
    refine ⟨t, canonical, hDenotes, hRoot, ?_, ?_⟩
    · rw [contentView, if_neg hExpired, hRoot]
      exact bytesOf_denotes hDenotes
    · rw [← (h.inv.catalogue.root record hMem _ hRoot).1]
      exact hDenotes.logicalLen

/-- The committed version a caller names. -/
theorem committedVersion_eq_ok {version : Version} {record : VersionRecord} (h : StoreInv s) :
    s.committedVersion version = .ok record ↔ s.versions[version.id.id]? = some record ∧
      record.version = version ∧ version.id ∉ s.expiredVersions := by
  simp only [committedVersion, bind_eq_ok, failIf_eq_ok, pure_eq_ok, not_not, exists_const,
    versionRecord_eq_ok]
  constructor
  · rintro ⟨found, ⟨hGet, -⟩, hVersion, hRetained, rfl⟩
    exact ⟨hGet, hVersion, hRetained⟩
  · rintro ⟨hGet, hVersion, hRetained⟩
    exact ⟨record, ⟨hGet, h.catalogue.dense _ _ hGet⟩, hVersion, hRetained, rfl⟩

theorem versionLifecycle_eq_ok {id : VersionId} {lifecycle : VersionLifecycle} (h : StoreInv s) :
    s.versionLifecycle id = .ok lifecycle ↔ id.id < s.versions.length ∧
      lifecycle = if id ∈ s.expiredVersions then .expired else .retained := by
  simp only [versionLifecycle, bind_eq_ok, pure_eq_ok, versionRecord_eq_ok]
  constructor
  · rintro ⟨record, ⟨hGet, -⟩, rfl⟩
    exact ⟨(List.getElem?_eq_some_iff.mp hGet).1, rfl⟩
  · rintro ⟨hLt, rfl⟩
    have hGet := List.getElem?_eq_getElem hLt
    exact ⟨_, ⟨hGet, h.catalogue.dense _ _ hGet⟩, rfl⟩

/-- A committed version that a caller names is a version of the model that has its bytes. -/
theorem committed_view (h : Sound sha256 s a) {version : Version} :
    (∃ record, s.committedVersion version = .ok record) ↔
      ∃ entry, (s.view a).versions[version.id.id]? = some entry ∧ entry.version = version ∧
        entry.content.isSome := by
  simp only [committedVersion_eq_ok h.inv]
  constructor
  · rintro ⟨record, hGet, rfl, hRetained⟩
    refine ⟨_, view_version s a hGet, rfl, ?_⟩
    rcases contentView_iff h (List.mem_of_getElem? hGet) with ⟨hExpired, -⟩ | ⟨-, t, _, -, -, hView,
      -⟩
    · exact absurd hExpired hRetained
    · rw [versionView, hView]
      rfl
  · rintro ⟨entry, hEntry, hVersion, hSome⟩
    obtain ⟨record, hGet, rfl⟩ := view_versions_eq_some.mp hEntry
    refine ⟨record, hGet, hVersion, ?_⟩
    rcases contentView_iff h (List.mem_of_getElem? hGet) with ⟨-, hView⟩ | ⟨hRetained, -⟩
    · rw [versionView, hView] at hSome
      cases hSome
    · rw [← hVersion]
      exact hRetained

/-- The list a finite set of history identifiers is sorted into. -/
theorem allHistories_eq (h : CatalogueInv s) :
    s.allHistories = (List.range s.nextHistoryId).map HistoryId.mk := by
  refine List.Perm.eq_of_pairwise' (r := (· ≤ ·)) ?_ ?_ ?_
  · exact s.histories.pairwise_sort (· ≤ ·)
  · rw [List.pairwise_map]
    exact List.pairwise_lt_range.imp fun hLt => Nat.le_of_lt hLt
  · rw [allHistories, List.perm_ext_iff_of_nodup (s.histories.sort_nodup _)]
    · intro history
      rw [Finset.mem_sort, h.histories, List.mem_map]
      constructor
      · intro hLt
        exact ⟨history.id, List.mem_range.mpr hLt, rfl⟩
      · rintro ⟨id, hMem, rfl⟩
        exact List.mem_range.mp hMem
    · refine List.nodup_range.map ?_
      intro i j hSame
      exact congrArg HistoryId.id hSame

/-- A version that is not in the catalogue has no binding. -/
theorem versionBinding_none (h : BindingInv s) {id : VersionId}
    (hNone : s.versions[id.id]? = none) :
    s.versionBindings.get id = none := by
  cases hGet : s.versionBindings.get id with
  | none => rfl
  | some bytes =>
    have hLt := (h.version id bytes hGet).1
    have hLe := List.getElem?_eq_none_iff.mp hNone
    omega

theorem historyBinding_view (h : StoreInv s) (id : HistoryId) :
    s.historyBinding id = (s.view a).histories[id.id]?.join := by
  change s.historyBindings.get id = ((List.range s.nextHistoryId).map _)[id.id]?.join
  rw [List.getElem?_map]
  by_cases hLt : id.id < s.nextHistoryId
  · rw [List.getElem?_range hLt]
    rfl
  · rw [List.getElem?_eq_none (by rw [List.length_range]; omega)]
    cases hGet : s.historyBindings.get id with
    | none => rfl
    | some bytes =>
      have hKnown := (h.catalogue.histories _).mp (h.bindings.history id bytes hGet).1
      exact absurd hKnown hLt

theorem receiptStatus_active (h : LedgerInv s) {request : Bytes} {id : VersionId} :
    s.requestReceiptStatus request = .active id ↔
      ∃ digest, ⟨request, digest, some id⟩ ∈ (s.view a).receipts := by
  simp only [mem_view_active h]
  unfold requestReceiptStatus
  cases hActive : s.activeRequests.get request with
  | some entry =>
    constructor
    · intro hSame
      cases hSame
      exact ⟨entry.digest, rfl⟩
    · rintro ⟨digest, hSame⟩
      cases hSame
      rfl
  | none =>
    constructor
    · intro hSame
      dsimp only at hSame
      split at hSame
      case isTrue => cases hSame
      case isFalse => cases hSame
    · rintro ⟨digest, hSame⟩
      cases hSame

theorem receiptStatus_retired (h : LedgerInv s) {request : Bytes} :
    s.requestReceiptStatus request = .retired ↔
      ∃ digest, ⟨request, digest, none⟩ ∈ (s.view a).receipts := by
  simp only [mem_view_retired h, ← KeyMap.containsKey_eq_true]
  unfold requestReceiptStatus
  cases hActive : s.activeRequests.get request with
  | some entry =>
    have hNone := KeyMap.containsKey_eq_false.mpr (h.tables.disjoint hActive)
    rw [hNone]
    constructor
    · intro hSame
      cases hSame
    · intro hSame
      cases hSame
  | none =>
    dsimp only
    split
    case isTrue hIn => exact ⟨fun _ => hIn, fun _ => rfl⟩
    case isFalse hOut =>
      constructor
      · intro hSame
        cases hSame
      · intro hIn
        exact absurd hIn hOut

variable {files : HistoryFiles} {physical : Nat} {auth : WritableHistoryAuthority}

/-- A read of a retained version. -/
theorem Live.read_retained (h : Live sha256 auth files physical a) {version : Version}
    {record : VersionRecord} {t : Rope UInt8} {canonical : V2RootRecord}
    (hCommitted : auth.store.committedVersion version = .ok record)
    (hDenotes : Denotes sha256 a t canonical)
    (hRoot : record.root = some (.balancedV2 canonical.nodeId canonical.logicalLen))
    (offset length : Nat) (bytes : Bytes) :
    auth.store.read sha256 version offset length = .ok bytes ↔
      offset + length ≤ t.toList.length ∧ bytes = (t.toList.drop offset).take length := by
  have hRange := h.overArena.represents.readRange_ok h.recoverable.wellFormed
    h.recoverable.addressable
    hDenotes offset length
  have hWidth : t.toList.length < width 64 := hDenotes.metadata.2.2
  rw [PersistentHistoryStore.read, hCommitted, ok_bind, hRoot, okOr_some, ok_bind, h.backend,
    hRange]
  simp only [bind_eq_ok, failIf_eq_ok, mapErr_eq_ok, liftAvl, rangeOf_eq_ok, exists_const]
  constructor
  · rintro ⟨-, -, hInside, rfl⟩
    exact ⟨hInside, rfl⟩
  · rintro ⟨hInside, rfl⟩
    have hFits : offset + length < width 64 := by omega
    refine ⟨?_, hFits, hInside, rfl⟩
    rw [checkedAdd_of_lt hFits]
    simp

theorem Live.verify_retained (h : Live sha256 auth files physical a) {version : Version}
    {record : VersionRecord} {t : Rope UInt8} {canonical : V2RootRecord}
    (hCommitted : auth.store.committedVersion version = .ok record)
    (hDenotes : Denotes sha256 a t canonical)
    (hRoot : record.root = some (.balancedV2 canonical.nodeId canonical.logicalLen)) :
    auth.store.verify sha256 version = .ok () := by
  rw [PersistentHistoryStore.verify, hCommitted, ok_bind, hRoot, okOr_some, ok_bind, h.backend,
    h.overArena.represents.verify_ok h.recoverable.wellFormed h.recoverable.addressable hDenotes]
  rfl

/-- A committed version with the bytes the model has for it. -/
theorem Live.committed (h : Live sha256 auth files physical a) {version : Version}
    {entry : ModelVersion} {content : Bytes}
    (hEntry : (auth.store.view a).versions[version.id.id]? = some entry)
    (hVersion : entry.version = version) (hContent : entry.content = some content) :
    ∃ record t canonical, auth.store.committedVersion version = .ok record ∧
      Denotes sha256 a t canonical ∧
      record.root = some (.balancedV2 canonical.nodeId canonical.logicalLen) ∧
      t.toList = content ∧ record.len = content.length := by
  obtain ⟨record, hGet, rfl⟩ := view_versions_eq_some.mp hEntry
  rcases contentView_iff h.sound (List.mem_of_getElem? hGet) with
    ⟨-, hView⟩ | ⟨hRetained, t, canonical, hDenotes, hRoot, hView, hLen⟩
  · rw [versionView, hView] at hContent
    cases hContent
  · rw [versionView, hView] at hContent
    cases hContent
    refine ⟨record, t, canonical, ?_, hDenotes, hRoot, rfl, hLen⟩
    refine (committedVersion_eq_ok h.recoverable.inv).mpr ⟨hGet, hVersion, ?_⟩
    rw [← hVersion]
    exact hRetained

/-- What is read of a committed version is in the model. -/
theorem Live.of_committed (h : Live sha256 auth files physical a) {version : Version}
    {record : VersionRecord} (hCommitted : auth.store.committedVersion version = .ok record) :
    ∃ entry content t canonical, (auth.store.view a).versions[version.id.id]? = some entry ∧
      entry.version = version ∧ entry.content = some content ∧ Denotes sha256 a t canonical ∧
      record.root = some (.balancedV2 canonical.nodeId canonical.logicalLen) ∧
      t.toList = content ∧ record.len = content.length := by
  obtain ⟨entry, hEntry, hVersion, hSome⟩ := (committed_view h.sound).mp ⟨record, hCommitted⟩
  obtain ⟨content, hContent⟩ := Option.isSome_iff_exists.mp hSome
  obtain ⟨record', t, canonical, hCommitted', hDenotes, hRoot, hBytes, hLen⟩ :=
    h.committed hEntry hVersion hContent
  rw [hCommitted] at hCommitted'
  cases hCommitted'
  exact ⟨entry, content, t, canonical, hEntry, hVersion, hContent, hDenotes, hRoot, hBytes, hLen⟩

/-- A query that succeeds for committed versions only is answered from their bytes. -/
theorem Live.committed_iff (h : Live sha256 auth files physical a) {version : Version} {Q : Prop}
    {P : Bytes → Prop} (hNeeds : Q → ∃ record, auth.store.committedVersion version = .ok record)
    (hQuery : ∀ record t canonical, auth.store.committedVersion version = .ok record →
      Denotes sha256 a t canonical →
      record.root = some (.balancedV2 canonical.nodeId canonical.logicalLen) →
      record.len = t.toList.length → (Q ↔ P t.toList)) :
    Q ↔ ∃ entry content, (auth.store.view a).versions[version.id.id]? = some entry ∧
      entry.version = version ∧ entry.content = some content ∧ P content := by
  constructor
  · intro hQ
    obtain ⟨record, hCommitted⟩ := hNeeds hQ
    obtain ⟨entry, content, t, canonical, hEntry, hVersion, hContent, hDenotes, hRoot, rfl, hLen⟩ :=
      h.of_committed hCommitted
    exact ⟨entry, _, hEntry, hVersion, hContent, (hQuery _ _ _ hCommitted hDenotes hRoot hLen).mp
      hQ⟩
  · rintro ⟨entry, content, hEntry, hVersion, hContent, hP⟩
    obtain ⟨record, t, canonical, hCommitted, hDenotes, hRoot, rfl, hLen⟩ :=
      h.committed hEntry hVersion hContent
    exact (hQuery _ _ _ hCommitted hDenotes hRoot hLen).mpr hP

/-! ## All queries -/

theorem Live.lookup_iff (h : Live sha256 auth files physical a) {id : VersionId}
    {history : HistoryId} {version : Version} :
    auth.store.committedVersionForAdapter id history = .ok version ↔
      ∃ entry, (auth.store.view a).lookup history id = some entry ∧ entry.content.isSome ∧
        version = entry.version := by
  simp only [committedVersionForAdapter, bind_eq_ok, failIf_eq_ok, pure_eq_ok, not_not,
    exists_const,
    versionRecord_eq_ok]
  constructor
  · rintro ⟨record, ⟨hGet, hId⟩, hHistory, hRetained, rfl⟩
    refine ⟨_, view_lookup auth.store a (versionRecord_eq_ok.mpr ⟨hGet, hId⟩) hHistory, ?_, rfl⟩
    rcases contentView_iff h.sound (List.mem_of_getElem? hGet) with
      ⟨hExpired, -⟩ | ⟨-, t, _, -, -, hView, -⟩
    · rw [hId] at hExpired
      exact absurd hExpired hRetained
    · rw [versionView, hView]
      rfl
  · rintro ⟨entry, hLookup, hSome, rfl⟩
    obtain ⟨found, hEntry, hIf⟩ := Option.bind_eq_some_iff.mp hLookup
    split at hIf
    case isTrue hHistory =>
      cases hIf
      obtain ⟨record, hGet, rfl⟩ := view_versions_eq_some.mp hEntry
      have hId := h.recoverable.inv.catalogue.dense _ _ hGet
      refine ⟨record, ⟨hGet, hId⟩, hHistory, ?_, rfl⟩
      rcases contentView_iff h.sound (List.mem_of_getElem? hGet) with ⟨-, hView⟩ | ⟨hRetained, -⟩
      · rw [versionView, hView] at hSome
        cases hSome
      · rw [hId] at hRetained
        exact hRetained
    case isFalse => cases hIf

theorem Live.lookupVersion_iff (h : Live sha256 auth files physical a) {id : VersionId}
    {version : Version} : auth.store.lookupVersion id = .ok version ↔
      ∃ entry, (auth.store.view a).versions[id.id]? = some entry ∧ entry.content.isSome ∧
        version = entry.version := by
  simp only [PersistentHistoryStore.lookupVersion, bind_eq_ok, failIf_eq_ok, pure_eq_ok,
    exists_const,
    versionRecord_eq_ok]
  constructor
  · rintro ⟨record, ⟨hGet, hId⟩, hRetained, rfl⟩
    refine ⟨_, view_version auth.store a hGet, ?_, rfl⟩
    rcases contentView_iff h.sound (List.mem_of_getElem? hGet) with
      ⟨hExpired, -⟩ | ⟨-, t, _, -, -, hView, -⟩
    · rw [hId] at hExpired
      exact absurd hExpired hRetained
    · rw [versionView, hView]
      rfl
  · rintro ⟨entry, hEntry, hSome, rfl⟩
    obtain ⟨record, hGet, rfl⟩ := view_versions_eq_some.mp hEntry
    have hId := h.recoverable.inv.catalogue.dense _ _ hGet
    refine ⟨record, ⟨hGet, hId⟩, ?_, rfl⟩
    rcases contentView_iff h.sound (List.mem_of_getElem? hGet) with ⟨-, hView⟩ | ⟨hRetained, -⟩
    · rw [versionView, hView] at hSome
      cases hSome
    · rw [hId] at hRetained
      exact hRetained

/-- Whether a version is expired, in the store and in the model. -/
theorem Live.lifecycle_iff (h : Live sha256 auth files physical a) (id : VersionId) (lost : Bool) :
    (auth.store.versionLifecycle id = .ok (if lost then .expired else .retained)) ↔
      ∃ entry, (auth.store.view a).versions[id.id]? = some entry ∧ entry.content.isNone = lost := by
  rw [versionLifecycle_eq_ok h.recoverable.inv]
  have hDense := h.recoverable.inv.catalogue.dense
  constructor
  · rintro ⟨hLt, hSame⟩
    have hGet := List.getElem?_eq_getElem hLt
    refine ⟨_, view_version auth.store a hGet, ?_⟩
    rcases contentView_iff h.sound (List.mem_of_getElem? hGet) with
      ⟨hExpired, hView⟩ | ⟨hRetained, t, _, -, -, hView, -⟩
    · rw [hDense _ _ hGet] at hExpired
      rw [if_pos hExpired] at hSame
      rw [versionView, hView]
      cases lost
      · cases hSame
      · rfl
    · rw [hDense _ _ hGet] at hRetained
      rw [if_neg hRetained] at hSame
      rw [versionView, hView]
      cases lost
      · rfl
      · cases hSame
  · rintro ⟨entry, hEntry, rfl⟩
    obtain ⟨record, hGet, rfl⟩ := view_versions_eq_some.mp hEntry
    refine ⟨(List.getElem?_eq_some_iff.mp hGet).1, ?_⟩
    rcases contentView_iff h.sound (List.mem_of_getElem? hGet) with
      ⟨hExpired, hView⟩ | ⟨hRetained, t, _, -, -, hView, -⟩
    · rw [hDense _ _ hGet] at hExpired
      rw [versionView, hView, if_pos hExpired]
      rfl
    · rw [hDense _ _ hGet] at hRetained
      rw [versionView, hView, if_neg hRetained]
      rfl

theorem Live.read_expired (h : Live sha256 auth files physical a) {version : Version}
    {entry : ModelVersion} (hEntry : (auth.store.view a).versions[version.id.id]? = some entry)
    (hVersion : entry.version = version) (hLost : entry.content = none) (offset length : Nat) :
    auth.store.read sha256 version offset length = .error .versionExpired := by
  obtain ⟨record, hGet, rfl⟩ := view_versions_eq_some.mp hEntry
  have hId := h.recoverable.inv.catalogue.dense _ _ hGet
  have hRecord := versionRecord_eq_ok.mpr ⟨hGet, hId⟩
  have hExpired : version.id ∈ auth.store.expiredVersions := by
    rcases contentView_iff h.sound (List.mem_of_getElem? hGet) with
      ⟨hExpired, -⟩ | ⟨-, t, _, -, -, hView, -⟩
    · rw [← hVersion]
      exact hExpired
    · rw [versionView, hView] at hLost
      cases hLost
  have hCommitted : auth.store.committedVersion version = .error .versionExpired := by
    have hSame : record.version = version := hVersion
    rw [committedVersion, hRecord, ok_bind, failIf_neg (not_not.mpr hSame), ok_bind,
      failIf_pos hExpired]
    rfl
  rw [PersistentHistoryStore.read, hCommitted, error_bind]

theorem isRetained_iff {id : VersionId} :
    s.isRetained id = .ok true ↔ s.versionLifecycle id = .ok .retained := by
  rw [isRetained, bind_eq_ok]
  constructor
  · rintro ⟨lifecycle, hOk, hSame⟩
    rw [pure_eq_ok] at hSame
    rw [hOk, of_decide_eq_true hSame]
  · intro hOk
    exact ⟨.retained, hOk, rfl⟩

theorem isExpired_iff {id : VersionId} :
    s.isExpired id = .ok true ↔ s.versionLifecycle id = .ok .expired := by
  rw [isExpired, bind_eq_ok]
  constructor
  · rintro ⟨lifecycle, hOk, hSame⟩
    rw [pure_eq_ok] at hSame
    rw [hOk, of_decide_eq_true hSame]
  · intro hOk
    exact ⟨.expired, hOk, rfl⟩

/-- The queries of a live authority answer as its model says. -/
theorem Live.serves (h : Live sha256 auth files physical a) :
    Serves sha256 auth.store (auth.store.view a) where
  versions := by
    rw [allVersions, view, List.map_map]
    rfl
  histories := by
    rw [allHistories_eq h.recoverable.inv.catalogue, view, List.length_map, List.length_range]
  historyBinding := historyBinding_view h.recoverable.inv
  versionBinding id := by
    change auth.store.versionBindings.get id = _
    cases hGet : auth.store.versions[id.id]? with
    | none =>
      have hView : (auth.store.view a).versions[id.id]? = none := by
        change (auth.store.versions.map _)[id.id]? = none
        rw [List.getElem?_map, hGet]
        rfl
      rw [hView, versionBinding_none h.recoverable.inv.bindings hGet]
      rfl
    | some record =>
      rw [view_version auth.store a hGet, Option.bind_some, versionView,
        h.recoverable.inv.catalogue.dense _ _ hGet]
  retained id := by
    have hIff := h.lifecycle_iff id false
    rw [if_neg Bool.false_ne_true] at hIff
    rw [isRetained_iff, hIff]
    simp only [Option.isNone_eq_false_iff]
  expired id := by
    have hIff := h.lifecycle_iff id true
    rw [if_pos rfl] at hIff
    rw [isExpired_iff, hIff]
    simp only [Option.isNone_iff_eq_none]
  lookupVersion _ _ := h.lookupVersion_iff
  lookup _ _ _ := h.lookup_iff
  len version len := by
    refine h.committed_iff (fun hOk => ?_) fun record t canonical hCommitted _ _ hLen => ?_
    · obtain ⟨record, hCommitted, -⟩ := bind_eq_ok.mp hOk
      exact ⟨record, hCommitted⟩
    · rw [logicalLen, hCommitted, ok_bind, ← hLen, pure_eq_ok, eq_comm]
  verify version := by
    constructor
    · intro hOk
      obtain ⟨record, hCommitted, -⟩ := bind_eq_ok.mp hOk
      exact (committed_view h.sound).mp ⟨record, hCommitted⟩
    · rintro ⟨entry, hEntry, hVersion, hSome⟩
      obtain ⟨content, hContent⟩ := Option.isSome_iff_exists.mp hSome
      obtain ⟨record, t, canonical, hCommitted, hDenotes, hRoot, -, -⟩ :=
        h.committed hEntry hVersion hContent
      exact h.verify_retained hCommitted hDenotes hRoot
  read version offset length bytes := by
    refine h.committed_iff (fun hOk => ?_) fun record t canonical hCommitted hDenotes hRoot _ =>
      h.read_retained hCommitted hDenotes hRoot offset length bytes
    obtain ⟨record, hCommitted, -⟩ := bind_eq_ok.mp hOk
    exact ⟨record, hCommitted⟩
  readExpired _ _ hEntry hVersion hLost := h.read_expired hEntry hVersion hLost
  active _ _ := receiptStatus_active h.recoverable.inv.ledger
  retired _ := receiptStatus_retired h.recoverable.inv.ledger
  receipts := by
    rw [requestReceiptCount, ← h.recoverable.inv.ledger.tables.length, view, List.length_map]

end Answers

end TulyaStore.History
