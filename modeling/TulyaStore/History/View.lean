import TulyaStore.History.Logged
import TulyaStore.History.Model

/-!
# The model of a store

`view s a` is the model of the store `s` over the arena `a`. Each step of a store is the operation
of the model, and other content files, a grown arena or a compaction do not change the view.
-/

namespace TulyaStore.History

open Lib Sequence V2AvlSequence PersistentHistoryStore

namespace PersistentHistoryStore

/-- The receipt the ledgers have for a request. -/
def receiptView (s : PersistentHistoryStore) (request : Bytes) : Receipt :=
  match s.activeRequests.get request with
  | some entry => ⟨request, entry.digest, some entry.version⟩
  | none => ⟨request, (s.retiredRequests.get request).getD (Vector.replicate 32 0), none⟩

/-- The bytes of a version that is not expired. -/
def contentView (s : PersistentHistoryStore) (a : V2AvlSequence) (record : VersionRecord) :
    Option Bytes :=
  if record.version.id ∈ s.expiredVersions then none else record.root.bind (bytesOf a)

def versionView (s : PersistentHistoryStore) (a : V2AvlSequence) (record : VersionRecord) :
    ModelVersion :=
  ⟨record.version, record.len, s.versionBindings.get record.version.id, s.contentView a record⟩

def view (s : PersistentHistoryStore) (a : V2AvlSequence) : HistoryModel where
  histories := (List.range s.nextHistoryId).map fun id => s.historyBindings.get ⟨id⟩
  versions := s.versions.map (s.versionView a)
  receipts := s.receiptOrder.map s.receiptView

variable {s : PersistentHistoryStore} {a b : V2AvlSequence} {content : PhysicalContentStore}

theorem view_onContent : (s.onContent content).view a = s.view a := rfl

theorem receiptView_request (request : Bytes) : (s.receiptView request).request = request := by
  unfold receiptView
  split <;> rfl

theorem view_requests : (s.view a).receipts.map Receipt.request = s.receiptOrder := by
  rw [view, List.map_map]
  exact List.map_id'' receiptView_request s.receiptOrder

/-- The active receipts. -/
theorem mem_view_active (h : LedgerInv s) {request : Bytes} {digest : Digest} {id : VersionId} :
    ⟨request, digest, some id⟩ ∈ (s.view a).receipts ↔
      s.activeRequests.get request = some ⟨digest, id⟩ := by
  rw [view, List.mem_map]
  constructor
  · rintro ⟨other, -, hView⟩
    have hSame : other = request := by
      rw [← receiptView_request (s := s) other, hView]
    subst hSame
    unfold receiptView at hView
    split at hView
    case h_1 entry hGet =>
      cases hView
      exact hGet
    case h_2 => cases hView
  · intro hGet
    refine ⟨request, h.tables.mem.mpr (.inl ⟨_, hGet⟩), ?_⟩
    rw [receiptView, hGet]

theorem active_of_receipt (h : LedgerInv s) {receipt : Receipt}
    (hMem : receipt ∈ (s.view a).receipts)
    {id : VersionId} (hVersion : receipt.version = some id) :
    s.activeRequests.get receipt.request = some ⟨receipt.digest, id⟩ := by
  obtain ⟨request, digest, version⟩ := receipt
  dsimp only at hVersion
  subst hVersion
  exact (mem_view_active h).mp hMem

theorem mem_view_retired (h : LedgerInv s) {request : Bytes} {digest : Digest} :
    ⟨request, digest, none⟩ ∈ (s.view a).receipts ↔ s.retiredRequests.get request =
      some digest := by
  rw [view, List.mem_map]
  constructor
  · rintro ⟨other, hMem, hView⟩
    have hSame : other = request := by
      rw [← receiptView_request (s := s) other, hView]
    subst hSame
    unfold receiptView at hView
    split at hView
    case h_1 => cases hView
    case h_2 hGet =>
      rcases h.tables.mem.mp hMem with ⟨entry, hActive⟩ | ⟨found, hRetired⟩
      · rw [hGet] at hActive
        cases hActive
      · rw [hRetired] at hView
        cases hView
        exact hRetired
  · intro hGet
    have hNone : s.activeRequests.get request = none := by
      cases hActive : s.activeRequests.get request with
      | none => rfl
      | some entry =>
        have hOther := h.tables.disjoint hActive
        rw [hGet] at hOther
        cases hOther
    refine ⟨request, h.tables.mem.mpr (.inr ⟨_, hGet⟩), ?_⟩
    rw [receiptView, hNone, hGet]
    rfl

/-! ## The steps of the store in the model -/

theorem receiptView_congr {s' : PersistentHistoryStore} {request : Bytes}
    (hActive : s'.activeRequests.get request = s.activeRequests.get request)
    (hRetired : s'.retiredRequests.get request = s.retiredRequests.get request) :
    s'.receiptView request = s.receiptView request := by
  rw [receiptView, receiptView, hActive, hRetired]

theorem view_retireReceipt {request : Bytes} {entry : ActiveRequest}
    (hActive : s.activeRequests.get request = some entry) :
    (s.retireReceipt request entry.digest).view a = (s.view a).retire request := by
  have hReceipt : ∀ other, (s.retireReceipt request entry.digest).receiptView other =
      if (s.receiptView other).request = request then
        { s.receiptView other with version := none } else s.receiptView other := by
    intro other
    rw [receiptView_request]
    by_cases hSame : other = request
    · subst hSame
      rw [if_pos rfl, receiptView, receiptView, hActive]
      simp [retireReceipt]
    · rw [if_neg hSame]
      refine receiptView_congr ?_ ?_
      · rw [retireReceipt, KeyMap.get_erase, if_neg hSame]
      · rw [retireReceipt, KeyMap.get_insert, if_neg hSame]
  have hReceipts : s.receiptOrder.map (s.retireReceipt request entry.digest).receiptView =
      (s.receiptOrder.map s.receiptView).map fun receipt =>
        if receipt.request = request then { receipt with version := none } else receipt := by
    rw [List.map_map]
    exact List.map_congr_left fun other _ => hReceipt other
  unfold view HistoryModel.retire
  rw [← hReceipts]
  rfl

/-- The mark of an expired version, without its receipt. -/
theorem view_marked {id : VersionId} :
    ({ s with expiredVersions := insert id s.expiredVersions } : PersistentHistoryStore).view a =
      { s.view a with
        versions := (s.view a).versions.map fun entry =>
          if entry.version.id = id then { entry with content := none } else entry } := by
  unfold view
  dsimp only
  rw [List.map_map]
  congr 1
  refine List.map_congr_left fun record _ => ?_
  unfold versionView contentView
  simp only [Function.comp_apply, Finset.mem_insert]
  by_cases hSame : record.version.id = id
  · rw [if_pos (Or.inl hSame), if_pos hSame]
  · rw [if_neg hSame]
    congr 1
    simp [hSame]

/-- A version has one receipt at most, so the one of an expired version is found. -/
theorem receipts_of_version (h : LedgerInv s) {request : Bytes} {digest : Digest} {id : VersionId}
    (hActive : s.activeRequests.get request = some ⟨digest, id⟩) :
    ((s.view a).receipts.map fun receipt =>
        if receipt.request = request then { receipt with version := none } else receipt) =
      (s.view a).receipts.map fun receipt =>
        if receipt.version = some id then { receipt with version := none } else receipt := by
  refine List.map_congr_left fun receipt hMem => ?_
  by_cases hVersion : receipt.version = some id
  · have hGet := active_of_receipt h hMem hVersion
    rw [if_pos (h.single _ _ _ _ hGet hActive rfl), if_pos hVersion]
  · rw [if_neg hVersion]
    by_cases hRequest : receipt.request = request
    · obtain ⟨found, receiptDigest, version⟩ := receipt
      dsimp only at hRequest hVersion
      subst hRequest
      cases version with
      | none => rw [if_pos rfl]
      | some other =>
        have hGet := (mem_view_active (a := a) h).mp hMem
        rw [hActive] at hGet
        cases hGet
        exact absurd rfl hVersion
    · rw [if_neg hRequest]

theorem view_withExpired (h : LedgerInv s) {id : VersionId} :
    (s.withExpired id).view a = (s.view a).expire id := by
  unfold withExpired HistoryModel.expire
  cases hReceipt : s.receiptOf id with
  | some found =>
    obtain ⟨request, digest⟩ := found
    have hActive := receiptOf_eq_some hReceipt
    have hRetired := view_retireReceipt (a := a)
      (s := { s with expiredVersions := insert id s.expiredVersions }) hActive
    refine hRetired.trans ?_
    rw [view_marked, HistoryModel.retire, receipts_of_version h hActive]
  | none =>
    have hNone : ((s.view a).receipts.map fun receipt =>
        if receipt.version = some id then { receipt with version := none } else receipt) =
          (s.view a).receipts := by
      refine (List.map_congr_left fun receipt hMem => ?_).trans (List.map_id' _)
      refine if_neg fun hVersion => ?_
      exact receiptOf_eq_none hReceipt (active_of_receipt h hMem hVersion) rfl
    rw [hNone]
    exact view_marked

theorem view_withHistory (h : StoreInv s) (binding : Option Bytes) :
    (s.withHistory binding).view a = (s.view a).createHistory binding := by
  have hOld : ∀ id ∈ List.range s.nextHistoryId,
      (s.withHistory binding).historyBindings.get ⟨id⟩ = s.historyBindings.get ⟨id⟩ := by
    intro id hMem
    have hLt := List.mem_range.mp hMem
    cases binding with
    | none => rfl
    | some bytes =>
      rw [withHistory, KeyMap.get_insert, if_neg]
      intro hSame
      cases hSame
      exact Nat.lt_irrefl _ hLt
  have hNew : (s.withHistory binding).historyBindings.get ⟨s.nextHistoryId⟩ = binding := by
    cases binding with
    | some bytes => exact KeyMap.get_insert_self _ _ _
    | none =>
      cases hGet : s.historyBindings.get ⟨s.nextHistoryId⟩ with
      | none => exact hGet
      | some bytes =>
        obtain ⟨hMem, -⟩ := h.bindings.history _ _ hGet
        exact absurd ((h.catalogue.histories _).mp hMem) (Nat.lt_irrefl _)
  have hHistories : (List.range (s.nextHistoryId + 1)).map
      (fun id => (s.withHistory binding).historyBindings.get ⟨id⟩) =
        ((List.range s.nextHistoryId).map fun id => s.historyBindings.get ⟨id⟩) ++ [binding] := by
    rw [List.range_succ, List.map_append, List.map_singleton, hNew, List.map_congr_left hOld]
  unfold view HistoryModel.createHistory
  rw [← hHistories]
  rfl

variable {sha256 : Bytes → Digest} {record : VersionRecord} {requestId binding : Option Bytes}
  {digest : Digest} {backend : SequenceBackend}

/-- Old versions keep their bytes in a grown arena. -/
theorem contentView_grows (hRoots : RootsIn sha256 a s) (hGrows : Grows a b)
    (hMem : record ∈ s.versions) : s.contentView b record = s.contentView a record := by
  unfold contentView
  split
  case isTrue => rfl
  case isFalse =>
    cases hRoot : record.root with
    | none => rfl
    | some root =>
      obtain ⟨t, canonical, hDenotes, rfl⟩ := hRoots record hMem root hRoot
      exact bytesOf_grows hDenotes hGrows

/-- The receipts with a fresh one. -/
theorem receipts_pushed {s' : PersistentHistoryStore} {request : Bytes} {entry : ActiveRequest}
    (h : LedgerInv s) (hNew : request ∉ s.receiptOrder) (hPushed : Pushed s s' request entry) :
    s'.receiptOrder.map s'.receiptView = newest (s.receiptOrder.map s.receiptView ++
      [⟨request, entry.digest, some entry.version⟩]) := by
  have hOrder : s'.receiptOrder = newest (s.receiptOrder ++ [request]) := by
    have hLe := h.horizon
    rw [hPushed.order, newest, List.length_append, List.length_singleton]
    split
    case isTrue hRoom => rw [Nat.sub_eq_zero_of_le hRoom, List.drop_zero]
    case isFalse hFull =>
      have hPos : 0 < stagingRequestReceiptCapacity := by decide
      have hOne : s.receiptOrder.length + 1 - stagingRequestReceiptCapacity = 1 := by omega
      rw [hOne, List.drop_one, List.tail_append_of_ne_nil (by
        intro hNil
        rw [hNil, List.length_nil] at hFull
        omega)]
  have hView : ∀ other ∈ s'.receiptOrder, s'.receiptView other =
      if other = request then ⟨request, entry.digest, some entry.version⟩
        else s.receiptView other := by
    intro other hMem
    have hActive := hPushed.active other hMem
    have hRetired := hPushed.retired other hMem
    rw [KeyMap.get_insert] at hActive
    split
    case isTrue hSame =>
      subst hSame
      rw [if_pos rfl] at hActive
      rw [receiptView, hActive]
    case isFalse hNe =>
      rw [if_neg hNe] at hActive
      exact receiptView_congr hActive hRetired
  have hOld : s.receiptOrder.map (fun other => if other = request then
      ⟨request, entry.digest, some entry.version⟩ else s.receiptView other) =
        s.receiptOrder.map s.receiptView := by
    refine List.map_congr_left fun other hMem => if_neg ?_
    intro hSame
    exact hNew (hSame ▸ hMem)
  rw [List.map_congr_left hView, hOrder, newest_map, List.map_append, hOld, List.map_singleton,
    if_pos rfl]

/-- What recording a version leaves as it is, or changes in the bindings only. -/
structure Recorded (s s' : PersistentHistoryStore) (record : VersionRecord)
    (binding : Option Bytes) : Prop where
  histories : s'.nextHistoryId = s.nextHistoryId ∧ s'.historyBindings = s.historyBindings
  versions : s'.versions = s.versions ++ [record]
  expired : s'.expiredVersions = s.expiredVersions
  bindings : s'.versionBindings = match binding with
    | some bytes => s.versionBindings.insert record.version.id bytes
    | none => s.versionBindings

theorem recorded_withVersion (h : LedgerInv s) (hFresh : FreshVersion s record requestId binding) :
    Recorded s (s.withVersion backend record requestId digest binding) record binding := by
  rw [withVersion_eq]
  cases requestId with
  | none => cases binding <;> exact ⟨⟨rfl, rfl⟩, rfl, rfl, rfl⟩
  | some request =>
    have hPush := pushFreshReceipt_pushed (s := s.withEntry backend record)
      ⟨digest, record.version.id⟩ h.tables h.horizon (hFresh.request request rfl).2
    have hFrame := hPush.frame
    unfold withReceipt
    dsimp only at hFrame ⊢
    rw [hFrame]
    cases binding <;> exact ⟨⟨rfl, rfl⟩, rfl, rfl, rfl⟩

theorem receipts_withVersion (h : LedgerInv s) (hFresh : FreshVersion s record requestId binding) :
    (s.withVersion backend record requestId digest binding).receiptOrder.map
        (s.withVersion backend record requestId digest binding).receiptView =
      HistoryModel.withReceipt (s.receiptOrder.map s.receiptView) requestId digest
        record.version.id := by
  rw [withVersion_eq]
  cases requestId with
  | none => cases binding <;> rfl
  | some request =>
    have hNew := (hFresh.request request rfl).2
    have hPush := pushFreshReceipt_pushed (s := s.withEntry backend record)
      ⟨digest, record.version.id⟩ h.tables h.horizon hNew
    have hReceipts := receipts_pushed (h.withEntry backend record) hNew hPush
    cases binding <;> exact hReceipts

/-- A recorded version is one more version of the model. -/
theorem view_withVersion (h : StoreInv s) (hRoots : RootsIn sha256 a s) (hGrows : Grows a b)
    (hFresh : FreshVersion s record requestId binding) {root : PersistentRoot} {bytes : Bytes}
    (hRoot : record.root = some root) (hBytes : bytesOf b root = some bytes)
    (hLen : record.len = bytes.length) :
    (s.withVersion backend record requestId digest binding).view b =
      (s.view a).record ⟨record.version.history, record.version.parent, requestId, binding, digest,
        some bytes⟩ bytes := by
  have hRecorded : Recorded s (s.withVersion backend record requestId digest binding) record
      binding :=
    recorded_withVersion h.ledger hFresh
  have hReceipts : (s.withVersion backend record requestId digest binding).receiptOrder.map
      (s.withVersion backend record requestId digest binding).receiptView =
        HistoryModel.withReceipt (s.receiptOrder.map s.receiptView) requestId digest
          record.version.id := receipts_withVersion h.ledger hFresh
  generalize s.withVersion backend record requestId digest binding = s' at hRecorded hReceipts ⊢
  have hId : record.version.id = ⟨s.versions.length⟩ := by
    rw [hFresh.identity, h.catalogue.nextVersion]
  have hCount : (s.view a).versions.length = s.versions.length := List.length_map _
  have hOld : ∀ old ∈ s.versions, s'.versionView b old = s.versionView a old := by
    intro old hMem
    obtain ⟨i, hGet⟩ := List.mem_iff_getElem?.mp hMem
    have hLt := (List.getElem?_eq_some_iff.mp hGet).1
    have hOldId := h.catalogue.dense i old hGet
    have hNe : old.version.id ≠ record.version.id := by
      rw [hOldId, hId]
      intro hSame
      cases hSame
      exact Nat.lt_irrefl _ hLt
    have hBinding : s'.versionBindings.get old.version.id =
        s.versionBindings.get old.version.id := by
      rw [hRecorded.bindings]
      cases binding with
      | none => rfl
      | some bound => exact (KeyMap.get_insert _ _ _ _).trans (if_neg hNe)
    have hContent : s'.contentView b old = s.contentView a old := by
      rw [← contentView_grows hRoots hGrows hMem, contentView, contentView, hRecorded.expired]
    rw [versionView, versionView, hBinding, hContent]
  have hNew : s'.versionView b record =
      ⟨record.version, bytes.length, binding, some bytes⟩ := by
    have hBinding : s'.versionBindings.get record.version.id = binding := by
      rw [hRecorded.bindings]
      cases binding with
      | some bound => exact KeyMap.get_insert_self _ _ _
      | none =>
        cases hGet : s.versionBindings.get record.version.id with
        | none => rfl
        | some bound =>
          have hLt := (h.bindings.version _ _ hGet).1
          rw [hId] at hLt
          exact absurd hLt (Nat.lt_irrefl _)
    have hRetained : record.version.id ∉ s'.expiredVersions := by
      rw [hRecorded.expired]
      intro hMem
      have hLt := h.catalogue.expired _ hMem
      rw [hId] at hLt
      exact Nat.lt_irrefl _ hLt
    rw [versionView, hBinding, hLen, contentView, if_neg hRetained, hRoot]
    exact congrArg (ModelVersion.mk record.version bytes.length binding) hBytes
  have hVersion : record.version = (s.view a).freshVersion ⟨record.version.history,
      record.version.parent, requestId, binding, digest, some bytes⟩ := by
    rw [HistoryModel.freshVersion, hCount, ← hId]
  unfold HistoryModel.record
  rw [← hVersion, hCount, ← hId]
  have hVersions : (s'.view b).versions = (s.view a).versions ++
      [⟨record.version, bytes.length, binding, some bytes⟩] := by
    change s'.versions.map (s'.versionView b) = s.versions.map (s.versionView a) ++ _
    rw [hRecorded.versions, List.map_append, List.map_congr_left hOld, List.map_singleton, hNew]
  have hHistories : (s'.view b).histories = (s.view a).histories := by
    change List.map _ (List.range s'.nextHistoryId) = List.map _ (List.range s.nextHistoryId)
    rw [hRecorded.histories.1, hRecorded.histories.2]
  rw [← hVersions]
  change HistoryModel.mk (s'.view b).histories (s'.view b).versions
    (s'.receiptOrder.map s'.receiptView) = _
  rw [hReceipts, hHistories]
  rfl

end PersistentHistoryStore

end TulyaStore.History
