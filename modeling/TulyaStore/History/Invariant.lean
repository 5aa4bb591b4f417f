import TulyaStore.History.Ledger

/-!
# The invariant of the history store

`StoreInv` is what holds of the catalogue, the ledger and the bindings of every store that live
operations or the replay of a log build. A `Transition` is one such step: it creates a
history, records a version, expires one or retires a request, and `StoreInv.transition` keeps
the invariant over it. The sequence backend is not looked at here.
-/

namespace TulyaStore.History

open Lib Sequence

/-- The request ledger: every active request resolves to a retained version of its own. -/
structure LedgerInv (s : PersistentHistoryStore) : Prop where
  tables : LedgerTables s.activeRequests s.retiredRequests s.receiptOrder
  horizon : s.receiptOrder.length ≤ stagingRequestReceiptCapacity
  valid : ∀ request ∈ s.receiptOrder, validateRequestIdentity request = .ok ()
  retained : ∀ request entry, s.activeRequests.get request = some entry →
    entry.version.id < s.versions.length ∧ entry.version ∉ s.expiredVersions
  single : ∀ request other entry entry', s.activeRequests.get request = some entry →
    s.activeRequests.get other = some entry' → entry.version = entry'.version → request = other

/-- The catalogue: a dense table of versions with lineage inside each history. -/
structure CatalogueInv (s : PersistentHistoryStore) : Prop where
  dense : ∀ (i : Nat) (record : VersionRecord), s.versions[i]? = some record → record.version.id = ⟨i⟩
  nextVersion : s.nextVersionId = s.versions.length
  versionLimit : s.nextVersionId < width 64
  histories : ∀ history, history ∈ s.histories ↔ history.id < s.nextHistoryId
  historyLimit : s.nextHistoryId < width 64
  history : ∀ record ∈ s.versions, record.version.history ∈ s.histories
  parent : ∀ (i : Nat) (record : VersionRecord) (parent : VersionId), s.versions[i]? = some record →
    record.version.parent = some parent →
    parent.id < i ∧ ∃ parentRecord : VersionRecord,
      s.versions[parent.id]? = some parentRecord ∧
      parentRecord.version.history = record.version.history
  len : ∀ record ∈ s.versions, 0 < record.len ∧ record.len < width 64
  expired : ∀ version ∈ s.expiredVersions, version.id < s.versions.length
  materialized : ∀ record ∈ s.versions, record.version.id ∉ s.expiredVersions →
    record.root.isSome
  root : ∀ record ∈ s.versions, ∀ root, record.root = some root →
    root.logicalLen = record.len ∧ root.representation = .balancedV2

/-- The bindings: of known histories and versions, and no two histories share one. -/
structure BindingInv (s : PersistentHistoryStore) : Prop where
  history : ∀ history bytes, s.historyBindings.get history = some bytes →
    history ∈ s.histories ∧ validateBinding bytes = .ok ()
  unique : ∀ history other bytes, s.historyBindings.get history = some bytes →
    s.historyBindings.get other = some bytes → history = other
  version : ∀ version bytes, s.versionBindings.get version = some bytes →
    version.id < s.versions.length ∧ validateBinding bytes = .ok ()

structure StoreInv (s : PersistentHistoryStore) : Prop where
  ledger : LedgerInv s
  catalogue : CatalogueInv s
  bindings : BindingInv s

/-! ## Looking versions up -/

theorem versionRecord_eq_ok {s : PersistentHistoryStore} {id : VersionId}
    {record : VersionRecord} :
    s.versionRecord id = .ok record ↔ s.versions[id.id]? = some record ∧ record.version.id = id := by
  simp only [PersistentHistoryStore.versionRecord, bind_eq_ok, okOr_eq_ok, failIf_eq_ok, pure_eq_ok,
    not_not]
  constructor
  · rintro ⟨found, hFound, _, hId, rfl⟩
    exact ⟨hFound, hId⟩
  · rintro ⟨hFound, hId⟩
    exact ⟨record, hFound, (), hId, rfl⟩

/-! ## Transitions -/

namespace PersistentHistoryStore

/-- The store with one more history. -/
def withHistory (s : PersistentHistoryStore) (binding : Option Bytes) : PersistentHistoryStore :=
  { s with
    nextHistoryId := s.nextHistoryId + 1
    histories := insert (HistoryId.mk s.nextHistoryId) s.histories
    historyBindings := match binding with
      | some bytes => s.historyBindings.insert ⟨s.nextHistoryId⟩ bytes
      | none => s.historyBindings }

/-- The store with one more version, over a new backend. -/
def withVersion (s : PersistentHistoryStore) (backend : SequenceBackend) (record : VersionRecord)
    (requestId : Option Bytes) (digest : Digest) (binding : Option Bytes) :
    PersistentHistoryStore :=
  { s with nextVersionId := s.nextVersionId + 1, backend }.recordVersion record requestId digest
    binding

/-- The store with one more expired version, whose receipt is retired. -/
def withExpired (s : PersistentHistoryStore) (version : VersionId) : PersistentHistoryStore :=
  let marked := { s with expiredVersions := insert version s.expiredVersions }
  match s.receiptOf version with
  | some (id, digest) => marked.retireReceipt id digest
  | none => marked

end PersistentHistoryStore

open PersistentHistoryStore

/-- What is checked of a binding before a history is created under it. -/
def FreshBinding (s : PersistentHistoryStore) (binding : Option Bytes) : Prop :=
  ∀ bytes, binding = some bytes →
    validateBinding bytes = .ok () ∧ ∀ history, s.historyBindings.get history ≠ some bytes

/-- What is checked of a version before it is recorded. -/
structure FreshVersion (s : PersistentHistoryStore) (record : VersionRecord)
    (requestId binding : Option Bytes) : Prop where
  identity : record.version.id = ⟨s.nextVersionId⟩
  limit : s.nextVersionId + 1 < width 64
  history : record.version.history ∈ s.histories
  parent : ∀ parent, record.version.parent = some parent → parent ∉ s.expiredVersions ∧
    ∃ parentRecord : VersionRecord,
      s.versions[parent.id]? = some parentRecord ∧
      parentRecord.version.history = record.version.history
  len : 0 < record.len ∧ record.len < width 64
  root : ∃ root, record.root = some root ∧ root.logicalLen = record.len ∧
    root.representation = .balancedV2
  request : ∀ request, requestId = some request →
    validateRequestIdentity request = .ok () ∧ request ∉ s.receiptOrder
  binding : ∀ bytes, binding = some bytes → validateBinding bytes = .ok ()

/-- One step of the store. -/
inductive Transition (s : PersistentHistoryStore) : PersistentHistoryStore → Prop where
  | history {binding : Option Bytes} (hLimit : s.nextHistoryId + 1 < width 64)
      (hBinding : FreshBinding s binding) : Transition s (s.withHistory binding)
  | version {backend : SequenceBackend} {record : VersionRecord} {requestId : Option Bytes}
      {digest : Digest} {binding : Option Bytes} (h : FreshVersion s record requestId binding) :
      Transition s (s.withVersion backend record requestId digest binding)
  | expired {version : VersionId} (hKnown : version.id < s.versions.length)
      (hRetained : version ∉ s.expiredVersions) : Transition s (s.withExpired version)
  | retired {request : Bytes} {entry : ActiveRequest}
      (hActive : s.activeRequests.get request = some entry) :
      Transition s (s.retireReceipt request entry.digest)

/-! ## The steps keep the invariant -/

section Steps

variable {s : PersistentHistoryStore}

theorem storeInv_new : StoreInv .new where
  ledger := {
    tables := ⟨List.nodup_nil, List.Perm.nil⟩
    horizon := Nat.zero_le _
    valid := fun _ hMem => (by cases hMem)
    retained := fun _ _ hGet => (by cases hGet)
    single := fun _ _ _ _ hGet => (by cases hGet) }
  catalogue := {
    dense := fun _ _ hGet => (by cases hGet)
    nextVersion := rfl
    versionLimit := by decide
    histories := fun history => (by
      change history ∈ (∅ : Finset HistoryId) ↔ history.id < 0
      simp)
    historyLimit := by decide
    history := fun _ hMem => (by cases hMem)
    parent := fun _ _ _ hGet => (by cases hGet)
    len := fun _ hMem => (by cases hMem)
    expired := fun version hMem => absurd hMem (Finset.notMem_empty version)
    materialized := fun _ hMem => (by cases hMem)
    root := fun _ hMem => (by cases hMem) }
  bindings := {
    history := fun _ _ hGet => (by cases hGet)
    unique := fun _ _ _ hGet => (by cases hGet)
    version := fun _ _ hGet => (by cases hGet) }

theorem StoreInv.withHistory (h : StoreInv s) {binding : Option Bytes}
    (hLimit : s.nextHistoryId + 1 < width 64) (hBinding : FreshBinding s binding) :
    StoreInv (s.withHistory binding) := by
  obtain ⟨hLedger, hCatalogue, hBindings⟩ := h
  have hNew : (⟨s.nextHistoryId⟩ : HistoryId) ∉ s.histories := by
    rw [hCatalogue.histories]
    exact Nat.lt_irrefl _
  refine ⟨⟨hLedger.tables, hLedger.horizon, hLedger.valid, hLedger.retained, hLedger.single⟩,
    { hCatalogue with
      historyLimit := hLimit
      histories := fun history => ?_
      history := fun record hMem => Finset.mem_insert_of_mem (hCatalogue.history record hMem) },
    { version := hBindings.version, history := ?_, unique := ?_ }⟩
  · have hEq : history = ⟨s.nextHistoryId⟩ ↔ history.id = s.nextHistoryId := by
      cases history
      simp
    simp only [PersistentHistoryStore.withHistory, Finset.mem_insert, hCatalogue.histories, hEq]
    omega
  · intro history bytes hGet
    cases binding with
    | none =>
      obtain ⟨hMem, hValid⟩ := hBindings.history history bytes hGet
      exact ⟨Finset.mem_insert_of_mem hMem, hValid⟩
    | some bound =>
      simp only [PersistentHistoryStore.withHistory, KeyMap.get_insert] at hGet
      split at hGet
      case isTrue hSelf =>
        cases hGet
        exact ⟨hSelf ▸ Finset.mem_insert_self _ _, (hBinding bytes rfl).1⟩
      case isFalse =>
        obtain ⟨hMem, hValid⟩ := hBindings.history history bytes hGet
        exact ⟨Finset.mem_insert_of_mem hMem, hValid⟩
  · intro history other bytes hGet hOther
    cases binding with
    | none => exact hBindings.unique history other bytes hGet hOther
    | some bound =>
      simp only [PersistentHistoryStore.withHistory, KeyMap.get_insert] at hGet hOther
      split at hGet
      case isTrue hSelf =>
        split at hOther
        case isTrue hSelf' => rw [hSelf, hSelf']
        case isFalse =>
          cases hGet
          exact absurd hOther ((hBinding bytes rfl).2 other)
      case isFalse =>
        split at hOther
        case isTrue =>
          cases hOther
          exact absurd hGet ((hBinding bytes rfl).2 history)
        case isFalse => exact hBindings.unique history other bytes hGet hOther

/-- The receipt of a version is the request that resolves to it. -/
theorem receiptOf_eq_some {version : VersionId} {request : Bytes} {digest : Digest}
    (h : s.receiptOf version = some (request, digest)) :
    s.activeRequests.get request = some ⟨digest, version⟩ := by
  unfold receiptOf at h
  obtain ⟨⟨key, entry⟩, hFind, hPair⟩ := Option.map_eq_some_iff.mp h
  have hVersion := List.find?_some hFind
  have hMem := List.mem_of_find?_eq_some hFind
  rw [KeyMap.mem_entries] at hMem
  simp only [decide_eq_true_eq] at hVersion
  cases hPair
  rw [hMem, ← hVersion]

theorem receiptOf_eq_none {version : VersionId} (h : s.receiptOf version = none) {request : Bytes}
    {entry : ActiveRequest} (hGet : s.activeRequests.get request = some entry) :
    entry.version ≠ version := by
  unfold receiptOf at h
  rw [Option.map_eq_none_iff, List.find?_eq_none] at h
  have hEntry := h (request, entry) (KeyMap.mem_entries.mpr hGet)
  simpa using hEntry

theorem LedgerInv.retireReceipt (h : LedgerInv s) {request : Bytes} {entry : ActiveRequest}
    (hActive : s.activeRequests.get request = some entry) :
    LedgerInv (s.retireReceipt request entry.digest) where
  tables := h.tables.retire hActive entry.digest
  horizon := h.horizon
  valid := h.valid
  retained := by
    intro other entry' hGet
    simp only [PersistentHistoryStore.retireReceipt, KeyMap.get_erase] at hGet
    split at hGet
    case isTrue => cases hGet
    case isFalse => exact h.retained other entry' hGet
  single := by
    intro r r' e e' hGet hGet' hVersion
    simp only [PersistentHistoryStore.retireReceipt, KeyMap.get_erase] at hGet hGet'
    split at hGet
    case isTrue => cases hGet
    case isFalse =>
      split at hGet'
      case isTrue => cases hGet'
      case isFalse => exact h.single r r' e e' hGet hGet' hVersion

theorem StoreInv.retireReceipt (h : StoreInv s) {request : Bytes} {entry : ActiveRequest}
    (hActive : s.activeRequests.get request = some entry) :
    StoreInv (s.retireReceipt request entry.digest) :=
  ⟨h.ledger.retireReceipt hActive, { h.catalogue with }, { h.bindings with }⟩

theorem CatalogueInv.withExpired (h : CatalogueInv s) {version : VersionId}
    (hKnown : version.id < s.versions.length) : CatalogueInv (s.withExpired version) := by
  have hMarked : CatalogueInv
      { s with expiredVersions := insert version s.expiredVersions } :=
    { h with
      expired := by
        intro other hMem
        rcases Finset.mem_insert.mp hMem with rfl | hMem
        · exact hKnown
        · exact h.expired other hMem
      materialized := fun record hMem hNot =>
        h.materialized record hMem fun hIn => hNot (Finset.mem_insert_of_mem hIn) }
  unfold PersistentHistoryStore.withExpired
  dsimp only
  split
  · exact { hMarked with }
  · exact hMarked

theorem LedgerInv.withExpired (h : LedgerInv s) {version : VersionId} :
    LedgerInv (s.withExpired version) := by
  unfold PersistentHistoryStore.withExpired
  dsimp only
  split
  case h_1 request digest hReceipt =>
    have hActive := receiptOf_eq_some hReceipt
    have hRetired := h.retireReceipt hActive
    refine ⟨hRetired.tables, hRetired.horizon, hRetired.valid, ?_, hRetired.single⟩
    intro other entry hGet
    obtain ⟨hLt, hNot⟩ := hRetired.retained other entry hGet
    refine ⟨hLt, ?_⟩
    rw [PersistentHistoryStore.retireReceipt, Finset.mem_insert, not_or]
    refine ⟨?_, hNot⟩
    rintro hVersion
    simp only [PersistentHistoryStore.retireReceipt, KeyMap.get_erase] at hGet
    split at hGet
    case isTrue => cases hGet
    case isFalse hNe => exact hNe (h.single _ _ _ _ hGet hActive hVersion)
  case h_2 hReceipt =>
    refine ⟨h.tables, h.horizon, h.valid, ?_, h.single⟩
    intro other entry hGet
    obtain ⟨hLt, hNot⟩ := h.retained other entry hGet
    refine ⟨hLt, ?_⟩
    rw [Finset.mem_insert, not_or]
    exact ⟨receiptOf_eq_none hReceipt hGet, hNot⟩

theorem StoreInv.withExpired (h : StoreInv s) {version : VersionId}
    (hKnown : version.id < s.versions.length) : StoreInv (s.withExpired version) := by
  refine ⟨h.ledger.withExpired, h.catalogue.withExpired hKnown, ?_⟩
  unfold PersistentHistoryStore.withExpired
  dsimp only
  split
  · exact { h.bindings with }
  · exact { h.bindings with }

/-! ## Recording a version -/

/-- The ledger after a fresh receipt for a version no other receipt names. -/
theorem LedgerInv.pushed {t t' : PersistentHistoryStore} (h : LedgerInv t) {request : Bytes}
    {entry : ActiveRequest} (hPushed : Pushed t t' request entry)
    (hValid : validateRequestIdentity request = .ok ())
    (hKnown : entry.version.id < t.versions.length)
    (hRetained : entry.version ∉ t.expiredVersions)
    (hUnclaimed : ∀ r e, t.activeRequests.get r = some e → e.version ≠ entry.version) :
    LedgerInv t' := by
  have hVersions : t'.versions = t.versions := by rw [hPushed.frame]
  have hExpired : t'.expiredVersions = t.expiredVersions := by rw [hPushed.frame]
  have hOrder := hPushed.order
  have hGet : ∀ r e, t'.activeRequests.get r = some e →
      (r = request ∧ e = entry) ∨ t.activeRequests.get r = some e := by
    intro r e hActive
    have hMem : r ∈ t'.receiptOrder := hPushed.tables.mem.mpr (Or.inl ⟨e, hActive⟩)
    rw [hPushed.active r hMem, KeyMap.get_insert] at hActive
    split at hActive
    case isTrue hSelf =>
      cases hActive
      exact Or.inl ⟨hSelf, rfl⟩
    case isFalse => exact Or.inr hActive
  have hTail : ∀ r ∈ t.receiptOrder.tail, r ∈ t.receiptOrder := fun r => List.mem_of_mem_tail
  refine ⟨hPushed.tables, ?_, ?_, ?_, ?_⟩
  · have hLe := h.horizon
    have hPos : 0 < stagingRequestReceiptCapacity := by decide
    rw [hOrder]
    split
    · rw [List.length_append, List.length_singleton]
      omega
    · rw [List.length_append, List.length_singleton, List.length_tail]
      omega
  · intro r hMem
    have hCases : r ∈ t.receiptOrder ∨ r = request := by
      rw [hOrder] at hMem
      split at hMem
      · simpa using hMem
      · rcases List.mem_append.mp hMem with hOld | hNew
        · exact Or.inl (hTail r hOld)
        · exact Or.inr (List.mem_singleton.mp hNew)
    rcases hCases with hOld | rfl
    · exact h.valid r hOld
    · exact hValid
  · intro r e hActive
    rw [hVersions, hExpired]
    rcases hGet r e hActive with ⟨-, rfl⟩ | hOld
    · exact ⟨hKnown, hRetained⟩
    · exact h.retained r e hOld
  · intro r r' e e' hActive hActive' hSame
    rcases hGet r e hActive with ⟨rfl, rfl⟩ | hOld
    · rcases hGet r' e' hActive' with ⟨rfl, -⟩ | hOld'
      · rfl
      · exact absurd hSame.symm (hUnclaimed r' e' hOld')
    · rcases hGet r' e' hActive' with ⟨rfl, rfl⟩ | hOld'
      · exact absurd hSame (hUnclaimed r e hOld)
      · exact h.single r r' e e' hOld hOld' hSame

variable {backend : SequenceBackend} {record : VersionRecord} {requestId : Option Bytes}
  {digest : Digest} {binding : Option Bytes}

/-- The catalogue part of recording a version. -/
def PersistentHistoryStore.withEntry (s : PersistentHistoryStore) (backend : SequenceBackend)
    (record : VersionRecord) : PersistentHistoryStore :=
  { s with nextVersionId := s.nextVersionId + 1, backend, versions := s.versions ++ [record] }

theorem LedgerInv.withEntry (h : LedgerInv s) (backend : SequenceBackend)
    (record : VersionRecord) : LedgerInv (s.withEntry backend record) where
  tables := h.tables
  horizon := h.horizon
  valid := h.valid
  retained := by
    intro r e hActive
    obtain ⟨hLt, hNot⟩ := h.retained r e hActive
    refine ⟨?_, hNot⟩
    rw [PersistentHistoryStore.withEntry, List.length_append]
    omega
  single := h.single

theorem CatalogueInv.withEntry (h : CatalogueInv s)
    (hFresh : FreshVersion s record requestId binding) :
    CatalogueInv (s.withEntry backend record) := by
  have hLast : ∀ (i : Nat) (r : VersionRecord), (s.versions ++ [record])[i]? = some r →
      s.versions[i]? = some r ∨ (i = s.versions.length ∧ r = record) := by
    intro i r hGet
    rcases Nat.lt_or_ge i s.versions.length with hLt | hGe
    · exact Or.inl (by rwa [List.getElem?_append_left hLt] at hGet)
    · rw [List.getElem?_append_right hGe, List.getElem?_singleton] at hGet
      split at hGet
      case isTrue hZero =>
        cases hGet
        exact Or.inr ⟨by omega, rfl⟩
      case isFalse => cases hGet
  have hOld : ∀ (i : Nat) (r : VersionRecord), s.versions[i]? = some r →
      (s.versions ++ [record])[i]? = some r := by
    intro i r hGet
    obtain ⟨hLt, -⟩ := List.getElem?_eq_some_iff.mp hGet
    rwa [List.getElem?_append_left hLt]
  have hMem : ∀ r ∈ s.versions ++ [record], r ∈ s.versions ∨ r = record := by
    intro r hIn
    simpa using hIn
  refine ⟨?_, ?_, hFresh.limit, h.histories, h.historyLimit, ?_, ?_, ?_, ?_, ?_, ?_⟩
  · intro i r hGet
    rcases hLast i r hGet with hGet | ⟨rfl, rfl⟩
    · exact h.dense i r hGet
    · rw [hFresh.identity, h.nextVersion]
  · simp only [PersistentHistoryStore.withEntry, List.length_append, List.length_singleton,
      h.nextVersion]
  · intro r hIn
    rcases hMem r hIn with hIn | rfl
    · exact h.history r hIn
    · exact hFresh.history
  · intro i r parent hGet hParent
    rcases hLast i r hGet with hGet | ⟨rfl, rfl⟩
    · obtain ⟨hLt, parentRecord, hParentGet, hSame⟩ := h.parent i r parent hGet hParent
      exact ⟨hLt, parentRecord, hOld _ _ hParentGet, hSame⟩
    · obtain ⟨-, parentRecord, hParentGet, hSame⟩ := hFresh.parent parent hParent
      obtain ⟨hLt, -⟩ := List.getElem?_eq_some_iff.mp hParentGet
      exact ⟨hLt, parentRecord, hOld _ _ hParentGet, hSame⟩
  · intro r hIn
    rcases hMem r hIn with hIn | rfl
    · exact h.len r hIn
    · exact hFresh.len
  · intro version hIn
    have hLt := h.expired version hIn
    rw [PersistentHistoryStore.withEntry, List.length_append]
    omega
  · intro r hIn hNot
    rcases hMem r hIn with hIn | rfl
    · exact h.materialized r hIn hNot
    · obtain ⟨root, hRoot, -⟩ := hFresh.root
      rw [hRoot]
      rfl
  · intro r hIn root hRoot
    rcases hMem r hIn with hIn | rfl
    · exact h.root r hIn root hRoot
    · obtain ⟨root', hRoot', hLen, hRepresentation⟩ := hFresh.root
      rw [hRoot] at hRoot'
      cases hRoot'
      exact ⟨hLen, hRepresentation⟩

theorem BindingInv.withEntry (h : BindingInv s) (backend : SequenceBackend)
    (record : VersionRecord) : BindingInv (s.withEntry backend record) where
  history := h.history
  unique := h.unique
  version := by
    intro version bytes hGet
    obtain ⟨hLt, hValid⟩ := h.version version bytes hGet
    refine ⟨?_, hValid⟩
    rw [PersistentHistoryStore.withEntry, List.length_append]
    omega

/-- The receipt part of recording a version. -/
def PersistentHistoryStore.withReceipt (t : PersistentHistoryStore) (requestId : Option Bytes)
    (digest : Digest) (version : VersionId) : PersistentHistoryStore :=
  match requestId with
  | some request => t.pushFreshReceipt request digest version
  | none => t

/-- The binding part of recording a version. -/
def PersistentHistoryStore.withBinding (t : PersistentHistoryStore) (version : VersionId)
    (binding : Option Bytes) : PersistentHistoryStore :=
  match binding with
  | some bytes => { t with versionBindings := t.versionBindings.insert version bytes }
  | none => t

theorem withVersion_eq (s : PersistentHistoryStore) (backend : SequenceBackend)
    (record : VersionRecord) (requestId : Option Bytes) (digest : Digest)
    (binding : Option Bytes) :
    s.withVersion backend record requestId digest binding =
      ((s.withEntry backend record).withReceipt requestId digest record.version.id).withBinding
        record.version.id binding := rfl

theorem StoreInv.withReceipt {t : PersistentHistoryStore} (h : StoreInv t) (digest : Digest)
    {version : VersionId} (hRequest : ∀ request, requestId = some request →
      validateRequestIdentity request = .ok () ∧ request ∉ t.receiptOrder)
    (hKnown : version.id < t.versions.length) (hRetained : version ∉ t.expiredVersions)
    (hUnclaimed : ∀ r e, t.activeRequests.get r = some e → e.version ≠ version) :
    StoreInv (t.withReceipt requestId digest version) ∧
      (t.withReceipt requestId digest version).versions = t.versions := by
  cases requestId with
  | none => exact ⟨h, rfl⟩
  | some request =>
    obtain ⟨hValid, hNew⟩ := hRequest request rfl
    have hPush : Pushed t (t.withReceipt (some request) digest version) request
        ⟨digest, version⟩ :=
      pushFreshReceipt_pushed ⟨digest, version⟩ h.ledger.tables h.ledger.horizon hNew
    have hLedger := h.ledger.pushed hPush hValid hKnown hRetained hUnclaimed
    refine ⟨⟨hLedger, ?_, ?_⟩, ?_⟩
    · rw [hPush.frame]
      exact { h.catalogue with }
    · rw [hPush.frame]
      exact { h.bindings with }
    · rw [hPush.frame]

theorem StoreInv.withBinding {t : PersistentHistoryStore} (h : StoreInv t) {version : VersionId}
    (hKnown : version.id < t.versions.length)
    (hValid : ∀ bytes, binding = some bytes → validateBinding bytes = .ok ()) :
    StoreInv (t.withBinding version binding) := by
  cases binding with
  | none => exact h
  | some bytes =>
    refine ⟨{ h.ledger with }, { h.catalogue with },
      { history := h.bindings.history, unique := h.bindings.unique, version := ?_ }⟩
    intro other bound hGet
    simp only [PersistentHistoryStore.withBinding, KeyMap.get_insert] at hGet
    split at hGet
    case isTrue hSelf =>
      cases hGet
      exact ⟨hSelf ▸ hKnown, hValid bytes rfl⟩
    case isFalse => exact h.bindings.version other bound hGet

theorem StoreInv.withVersion (h : StoreInv s) (hFresh : FreshVersion s record requestId binding) :
    StoreInv (s.withVersion backend record requestId digest binding) := by
  have hEntered : StoreInv (s.withEntry backend record) :=
    ⟨h.ledger.withEntry backend record, h.catalogue.withEntry hFresh,
      h.bindings.withEntry backend record⟩
  have hId : record.version.id.id = s.versions.length := by
    rw [hFresh.identity, h.catalogue.nextVersion]
  have hKnown : record.version.id.id < (s.withEntry backend record).versions.length := by
    rw [PersistentHistoryStore.withEntry, List.length_append, List.length_singleton]
    omega
  have hRetained : record.version.id ∉ s.expiredVersions := by
    intro hMem
    have hLt := h.catalogue.expired _ hMem
    omega
  have hUnclaimed : ∀ r e, s.activeRequests.get r = some e → e.version ≠ record.version.id := by
    intro r e hActive hSame
    have hLt := (h.ledger.retained r e hActive).1
    rw [hSame] at hLt
    omega
  obtain ⟨hInv, hVersions⟩ := hEntered.withReceipt digest hFresh.request hKnown
    hRetained hUnclaimed
  rw [withVersion_eq]
  exact hInv.withBinding (by rwa [hVersions]) hFresh.binding

theorem StoreInv.transition (h : StoreInv s) {s' : PersistentHistoryStore}
    (hStep : Transition s s') : StoreInv s' := by
  cases hStep with
  | history hLimit hBinding => exact h.withHistory hLimit hBinding
  | version hFresh => exact h.withVersion hFresh
  | expired hKnown _ => exact h.withExpired hKnown
  | retired hActive => exact h.retireReceipt hActive

end Steps

end TulyaStore.History
