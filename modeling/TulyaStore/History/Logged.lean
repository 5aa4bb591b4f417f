import TulyaStore.History.SnapshotStore
import TulyaStore.History.Replay
import TulyaStore.Sequence.Contents

/-!
# Live operations and their records

What a live operation checks before it commits is what the replay of its record checks again.
`Logged` puts the two sides of one record together: the step the store takes, and the replay that
takes the same step over any files that hold the content of the new store.
-/

namespace TulyaStore.History

open Lib Sequence V2AvlSequence

namespace PersistentHistoryStore

/-- The store bound to other content. -/
def onContent (store : PersistentHistoryStore) (content : PhysicalContentStore) :
    PersistentHistoryStore :=
  { store with backend := .physical content }

variable {s : PersistentHistoryStore} {content : PhysicalContentStore}

theorem onContent_self (h : s.backend = .physical content) : s.onContent content = s := by
  cases s
  cases h
  rfl

theorem enforceHorizonOver_onContent (order : List Bytes) :
    (s.onContent content).enforceHorizonOver order =
      (s.enforceHorizonOver order).onContent content := by
  induction order generalizing s with
  | nil => rfl
  | cons oldest rest ih =>
    have hEvict : (s.onContent content).evictOldest oldest rest =
        (s.evictOldest oldest rest).onContent content := by
      change (if s.activeRequests.containsKey oldest then _ else _) = _
      unfold evictOldest
      split <;> rfl
    rw [enforceHorizonOver, enforceHorizonOver]
    change (if s.activeRequests.size + s.retiredRequests.size > stagingRequestReceiptCapacity
      then _ else _) = _
    split
    · rw [hEvict, ih]
    · rfl

theorem recordVersion_onContent (record : VersionRecord) (requestId : Option Bytes)
    (digest : Digest) (binding : Option Bytes) :
    (s.onContent content).recordVersion record requestId digest binding =
      (s.recordVersion record requestId digest binding).onContent content := by
  cases requestId with
  | none => cases binding <;> rfl
  | some request =>
    have hPush : ∀ t : PersistentHistoryStore,
        (t.onContent content).pushFreshReceipt request digest record.version.id =
          (t.pushFreshReceipt request digest record.version.id).onContent content :=
      fun t => enforceHorizonOver_onContent (s := { t with
        activeRequests := t.activeRequests.insert request ⟨digest, record.version.id⟩
        receiptOrder := t.receiptOrder ++ [request] }) _
    have hPushed := hPush { s with versions := s.versions ++ [record] }
    cases binding with
    | none => exact hPushed
    | some bytes =>
      exact congrArg (fun t : PersistentHistoryStore =>
        { t with versionBindings := t.versionBindings.insert record.version.id bytes }) hPushed

theorem receiptOf_onContent (version : VersionId) :
    (s.onContent content).receiptOf version = s.receiptOf version := rfl

theorem withExpired_onContent (version : VersionId) :
    (s.onContent content).withExpired version = (s.withExpired version).onContent content := by
  unfold withExpired
  rw [receiptOf_onContent]
  split <;> rfl

end PersistentHistoryStore

open PersistentHistoryStore

/-! ## Records of steps -/

section Logged

variable (sha256 : Bytes → Digest)

/-- The step from `s` to `s'` is logged as `record`: over any files that hold the content of
`s'`, the replay of the record takes the same step. -/
structure Logged (generation : Nat) (s : PersistentHistoryStore) (a : V2AvlSequence)
    (record : HistoryLogRecord) (s' : PersistentHistoryStore) (b : V2AvlSequence) : Prop where
  transition : Transition s s'
  unpoisoned : s'.poisoned = false
  fits : record.Fits
  grows : Grows a b
  wellFormed : WellFormed sha256 b
  addressable : Addressable b
  roots : RootsIn sha256 b s'
  replay : ∀ payload nodes, HoldsArena payload nodes generation b →
    applyRecoveredRecord sha256 (s.onContent (boundStore payload nodes generation a)) record =
      .ok (s'.onContent (boundStore payload nodes generation b))

end Logged

/-! ## The replay of what was checked -/

section Replayed

variable {sha256 : Bytes → Digest} {s : PersistentHistoryStore}

theorem validateOptionalBinding_eq_ok {binding : Option Bytes} :
    validateOptionalBinding binding = .ok () ↔ BindingInBounds binding := by
  cases binding with
  | none =>
    constructor
    · intro _ _ hSome
      cases hSome
    · exact fun _ => rfl
  | some bytes =>
    constructor
    · rintro h _ ⟨⟩
      exact h
    · exact fun h => h bytes rfl

theorem replayCreate_ok (hUnpoisoned : s.poisoned = false) {binding : Option Bytes}
    (hBinding : BindingInBounds binding) (hLimit : s.nextHistoryId + 1 < width 64) :
    s.replayCreate ⟨s.nextHistoryId⟩ binding = .ok (s.withHistory binding) := by
  rw [replayCreate, validateOptionalBinding_eq_ok.mpr hBinding, ok_bind, requireUnpoisoned,
    failIf_neg (by rw [hUnpoisoned]; simp), ok_bind, checkedAdd_of_lt hLimit, okOr_some, ok_bind,
    failIf_neg (by simp), ok_bind]
  cases binding <;> rfl

theorem replayRetire_ok (hInv : LedgerInv s) {request : Bytes} {entry : ActiveRequest}
    (hActive : s.activeRequests.get request = some entry) :
    s.replayRetire request entry.digest = .ok (s.retireReceipt request entry.digest) := by
  have hValid := hInv.valid request (hInv.tables.mem.mpr (.inl ⟨entry, hActive⟩))
  have hNotRetired := hInv.tables.disjoint hActive
  rw [replayRetire, hValid, ok_bind, failIf_neg (by rw [hActive]; simp), ok_bind,
    failIf_neg (by rw [KeyMap.containsKey, hNotRetired]; simp), ok_bind]
  rfl

theorem replayExpire_ok {record : VersionRecord} {version : VersionId}
    (hHistory : record.version.history ∈ s.histories)
    (hRecord : s.versionRecord version = .ok record) (hRetained : version ∉ s.expiredVersions) :
    s.replayExpire record.version.history version = .ok (s.withExpired version) := by
  rw [replayExpire, failIf_neg (not_not.mpr hHistory), ok_bind, hRecord, mapErr_ok, ok_bind,
    failIf_neg (by simp), ok_bind, if_neg hRetained]
  unfold withExpired
  cases s.receiptOf version with
  | none => rfl
  | some found => rfl

theorem checkReplayedRequest_ok (hInv : LedgerInv s) {requestId : Option Bytes}
    (hRequest : ∀ request, requestId = some request →
      validateRequestIdentity request = .ok () ∧ request ∉ s.receiptOrder) :
    s.checkReplayedRequest requestId = .ok () := by
  cases requestId with
  | none => rfl
  | some request =>
    obtain ⟨hValid, hNew⟩ := hRequest request rfl
    rw [hInv.tables.mem, not_or] at hNew
    rw [checkReplayedRequest, hValid, ok_bind, failIf_neg]
    rw [KeyMap.containsKey_eq_true, KeyMap.containsKey_eq_true, not_or]
    exact hNew

theorem replayIdentity_ok (hLimit : s.nextVersionId + 1 < width 64) :
    s.replayIdentity ⟨s.nextVersionId⟩ = .ok (s.nextVersionId + 1) := by
  rw [replayIdentity, failIf_neg (by simp), ok_bind, checkedAdd_of_lt hLimit, okOr_some]

theorem replayFork_ok (hInv : LedgerInv s) {history : HistoryId} {parent : VersionId}
    {record : VersionRecord} {root : PersistentRoot} {requestId binding : Option Bytes}
    (hRecord : s.versionRecord parent = .ok record) (hRoot : record.root = some root)
    (hFresh : FreshVersion s ⟨⟨history, ⟨s.nextVersionId⟩, some parent⟩, some root, record.len⟩
      requestId binding) (hSame : record.version.history = history) :
    s.replayFork sha256 history ⟨s.nextVersionId⟩ parent requestId binding
        (historyForkDigest sha256 history parent binding) =
      .ok (s.withVersion s.backend
        ⟨⟨history, ⟨s.nextVersionId⟩, some parent⟩, some root, record.len⟩ requestId
        (historyForkDigest sha256 history parent binding) binding) := by
  have hHistory : history ∈ s.histories := hFresh.history
  have hRetained := (hFresh.parent parent rfl).1
  rw [replayFork, failIf_neg (not_not.mpr hHistory), ok_bind, hRecord, mapErr_ok, ok_bind,
    failIf_neg (not_not.mpr hSame), ok_bind, failIf_neg hRetained, ok_bind, hRoot, okOr_some,
    ok_bind, failIf_neg (by simp), ok_bind, validateOptionalBinding_eq_ok.mpr hFresh.binding,
    ok_bind, replayIdentity_ok hFresh.limit, ok_bind, checkReplayedRequest_ok hInv hFresh.request,
    ok_bind]
  rfl

/-- The texts of the coordinate check do not change its outcome. -/
theorem checkSpliceCoordinates_texts {texts other : SpliceTexts} {parent : Option VersionId}
    {parentLen offset deleteLen : Nat} {insert : Bytes} {len : Nat}
    (h : checkSpliceCoordinates texts parent parentLen offset deleteLen insert = .ok len) :
    checkSpliceCoordinates other parent parentLen offset deleteLen insert = .ok len := by
  simp only [checkSpliceCoordinates, bind_eq_ok, failIf_eq_ok, okOr_eq_ok, pure_eq_ok] at h ⊢
  obtain ⟨_, hOffset, _, hDelete, insertLen, hInsert, resultLen, hResult, _, hEffect, _, hLen,
    rfl⟩ := h
  refine ⟨(), hOffset, (), hDelete, insertLen, hInsert, resultLen, hResult, (), ?_, (), hLen, rfl⟩
  cases parent with
  | none => simpa only [checkSpliceEffect, bind_eq_ok, failIf_eq_ok] using hEffect
  | some id => simpa only [checkSpliceEffect, failIf_eq_ok] using hEffect

theorem replaySplice_ok (hInv : LedgerInv s) {history : HistoryId} {parent : Option VersionId}
    {parentRoot : Option PersistentRoot} {parentLen offset deleteLen len : Nat} {insert : Bytes}
    {root : PersistentRoot} {requestId binding : Option Bytes} {backend : SequenceBackend}
    {physical : Option PhysicalPlacement}
    (hFresh : FreshVersion s ⟨⟨history, ⟨s.nextVersionId⟩, parent⟩, some root, len⟩ requestId
      binding)
    (hParent : s.replayParent history parent = .ok (parentRoot, parentLen))
    (hCoordinates : checkSpliceCoordinates previewSpliceTexts parent parentLen offset deleteLen
      insert = .ok len)
    (hEdit : replayEdit sha256 s.backend parentRoot offset deleteLen insert len physical =
      .ok (root, backend)) :
    s.replaySplice sha256 history ⟨s.nextVersionId⟩ parent offset deleteLen insert requestId binding
        (historySpliceDigest sha256 history parent offset deleteLen insert binding) physical =
      .ok (s.withVersion backend ⟨⟨history, ⟨s.nextVersionId⟩, parent⟩, some root, len⟩ requestId
        (historySpliceDigest sha256 history parent offset deleteLen insert binding) binding) := by
  have hHistory : history ∈ s.histories := hFresh.history
  rw [replaySplice, failIf_neg (not_not.mpr hHistory), ok_bind, hParent, ok_bind]
  dsimp only
  rw [checkSpliceCoordinates_texts hCoordinates, ok_bind, failIf_neg (by simp), ok_bind,
    validateOptionalBinding_eq_ok.mpr hFresh.binding, ok_bind, replayIdentity_ok hFresh.limit,
    ok_bind, hEdit, ok_bind]
  dsimp only
  rw [checkReplayedRequest_ok hInv hFresh.request, ok_bind]
  rfl

end Replayed

/-! ## What the live operations have checked -/

section Previews

variable {sha256 : Bytes → Digest} {s : PersistentHistoryStore} {content : PhysicalContentStore}
  {a : V2AvlSequence}

/-- A request the ledger does not know. -/
theorem classifyRequest_unknown (hInv : LedgerInv s) {requestId : Option Bytes} {digest : Digest}
    (h : s.classifyRequest requestId digest = .ok .unknown) :
    ∀ request, requestId = some request →
      validateRequestIdentity request = .ok () ∧ request ∉ s.receiptOrder := by
  rintro request rfl
  obtain ⟨_, hValid, hClass⟩ := bind_eq_ok.mp h
  refine ⟨hValid, ?_⟩
  rw [hInv.tables.mem, not_or]
  cases hActive : s.activeRequests.get request with
  | some active =>
    rw [hActive] at hClass
    dsimp only at hClass
    split at hClass
    · obtain ⟨_, -, hReplayed⟩ := bind_eq_ok.mp hClass
      cases hReplayed
    · cases hClass
  | none =>
    refine ⟨nofun, ?_⟩
    rw [hActive] at hClass
    cases hRetired : s.retiredRequests.get request with
    | none => exact nofun
    | some retired =>
      rw [hRetired] at hClass
      dsimp only at hClass
      split at hClass <;> cases hClass

theorem parentRecord_eq_ok {history : HistoryId} {parent : VersionId} {foreign : String}
    {record : VersionRecord} :
    s.parentRecord history parent foreign = .ok record ↔
      s.versionRecord parent = .ok record ∧ record.version.history = history := by
  simp only [parentRecord, bind_eq_ok, failIf_eq_ok, pure_eq_ok, not_not]
  constructor
  · rintro ⟨found, hFound, _, hHistory, rfl⟩
    exact ⟨hFound, hHistory⟩
  · rintro ⟨hFound, hHistory⟩
    exact ⟨record, hFound, (), hHistory, rfl⟩

theorem requireRetained_eq_ok {version : VersionId} :
    s.requireRetained version = .ok () ↔
      (∃ record, s.versionRecord version = .ok record) ∧ version ∉ s.expiredVersions := by
  simp only [requireRetained, bind_eq_ok, failIf_eq_ok]
  constructor
  · rintro ⟨record, hRecord, hRetained⟩
    exact ⟨⟨record, hRecord⟩, hRetained⟩
  · rintro ⟨⟨record, hRecord⟩, hRetained⟩
    exact ⟨record, hRecord, hRetained⟩

theorem prepareVersionIdentity_eq_ok {next : Nat} {identity : PreparedVersionIdentity} :
    prepareVersionIdentity next = .ok identity ↔
      next + 1 < width 64 ∧ identity = ⟨⟨next⟩, next + 1⟩ := by
  simp only [prepareVersionIdentity, bind_eq_ok, okOr_eq_ok, pure_eq_ok, checkedAdd_eq_some]
  constructor
  · rintro ⟨_, ⟨hLt, rfl⟩, rfl⟩
    exact ⟨hLt, rfl⟩
  · rintro ⟨hLt, rfl⟩
    exact ⟨_, ⟨hLt, rfl⟩, rfl⟩

/-- What a fork has checked when it is fresh. -/
theorem previewFork_fresh (hInv : StoreInv s) {history : HistoryId} {parent : VersionId}
    {requestId binding : Option Bytes} {prepared : PreparedFork}
    (h : s.previewFork sha256 history parent requestId binding = .ok (.fresh prepared)) :
    ∃ record root, s.versionRecord parent = .ok record ∧ record.root = some root ∧
      record.version.history = history ∧
      prepared = ⟨⟨s.nextVersionId⟩, s.nextVersionId + 1, history, parent, some root, record.len,
        requestId, binding, historyForkDigest sha256 history parent binding⟩ ∧
      FreshVersion s ⟨⟨history, ⟨s.nextVersionId⟩, some parent⟩, some root, record.len⟩ requestId
        binding := by
  simp only [previewFork, bind_eq_ok, failIf_eq_ok, not_not] at h
  obtain ⟨_, -, _, hHistory, _, hBinding, record, hParent, found, hClass, hPrepared⟩ := h
  obtain ⟨hRecord, hSame⟩ := parentRecord_eq_ok.mp hParent
  cases found with
  | replayed version => cases hPrepared
  | retired => cases hPrepared
  | unknown =>
    simp only [prepareFork, bind_eq_ok, pure_eq_ok] at hPrepared
    obtain ⟨prepared', ⟨_, hRetained, identity, hIdentity, rfl⟩, hEq⟩ := hPrepared
    cases hEq
    obtain ⟨hLimit, rfl⟩ := prepareVersionIdentity_eq_ok.mp hIdentity
    obtain ⟨-, hNotExpired⟩ := requireRetained_eq_ok.mp hRetained
    obtain ⟨hGet, hId⟩ := versionRecord_eq_ok.mp hRecord
    have hMem := List.mem_of_getElem? hGet
    obtain ⟨root, hRoot⟩ := Option.isSome_iff_exists.mp
      (hInv.catalogue.materialized record hMem (by rwa [hId]))
    refine ⟨record, root, hRecord, hRoot, hSame, by rw [hRoot], ⟨rfl, hLimit, hHistory, ?_,
      hInv.catalogue.len record hMem, ⟨root, rfl, hInv.catalogue.root record hMem root hRoot⟩,
      classifyRequest_unknown hInv.ledger hClass, validateOptionalBinding_eq_ok.mp hBinding⟩⟩
    rintro _ ⟨⟩
    exact ⟨hNotExpired, record, hGet, hSame⟩

theorem checkSpliceCoordinates_eq_ok {texts : SpliceTexts} {parent : Option VersionId}
    {parentLen offset deleteLen len : Nat} {insert : Bytes}
    (h : checkSpliceCoordinates texts parent parentLen offset deleteLen insert = .ok len) :
    offset ≤ parentLen ∧ deleteLen ≤ parentLen - offset ∧ insert.length < width 64 ∧
      len = parentLen - deleteLen + insert.length ∧ 0 < len ∧ len < width 64 := by
  simp only [checkSpliceCoordinates, bind_eq_ok, failIf_eq_ok, okOr_eq_ok, pure_eq_ok,
    tryFrom_eq_some, checkedAdd_eq_some] at h
  obtain ⟨_, hOffset, _, hDelete, _, ⟨hInsert, rfl⟩, _, ⟨hResult, rfl⟩, _, -, _, hLen, rfl⟩ := h
  exact ⟨Nat.not_lt.mp hOffset, Nat.not_lt.mp hDelete, hInsert, rfl, Nat.pos_of_ne_zero hLen,
    hResult⟩

/-- The content a splice builds stays within what files can hold: below `2 ^ 63` bytes each. -/
def SpliceFits (sha256 : Bytes → Digest) (s : PersistentHistoryStore) (history : HistoryId)
    (parent : Option VersionId) (offset deleteLen : Nat) (insert : Bytes) : Prop :=
  ∀ content a parentRoot parentLen resolved, s.backend = .physical content →
    WellFormed sha256 a → Represents content a →
    s.spliceParent history parent = .ok (parentRoot, parentLen) →
    (SequenceBackend.memory a).resolveParent parentRoot = .ok resolved →
    Addressable (editedArena sha256 a resolved offset deleteLen insert)

/-- A prepared splice that is fresh, with the delta that leads to the arena `b`. -/
structure FreshSplice (sha256 : Bytes → Digest) (s : PersistentHistoryStore) (generation : Nat)
    (a b : V2AvlSequence) (delta : PhysicalDelta) (prepared : PreparedSplice) : Prop where
  applied : ∃ result, DeltaFor sha256 generation a b result delta
  tiles : TilesOn a b
  physical : prepared.physical = some delta
  root : delta.root.logicalLen = prepared.len
  version : prepared.version = ⟨s.nextVersionId⟩
  after : prepared.nextVersionIdAfter = s.nextVersionId + 1
  digest : prepared.digest = historySpliceDigest sha256 prepared.history prepared.parent
    prepared.offset prepared.deleteLen prepared.insert prepared.binding
  coordinates : ∃ parentRoot parentLen, parentLen < width 64 ∧
    s.replayParent prepared.history prepared.parent = .ok (parentRoot, parentLen) ∧
    checkSpliceCoordinates previewSpliceTexts prepared.parent parentLen prepared.offset
      prepared.deleteLen prepared.insert = .ok prepared.len ∧
    ∃ old, parentBytes a parentRoot = some old ∧ old.length = parentLen ∧
      bytesOf b (.balancedV2 delta.root.nodeId prepared.len) =
        some (editBytes old prepared.offset prepared.deleteLen prepared.insert)
  fresh : FreshVersion s ⟨⟨prepared.history, prepared.version, prepared.parent⟩,
    some (.balancedV2 delta.root.nodeId prepared.len), prepared.len⟩ prepared.requestId
    prepared.binding

/-- The parent of a splice, retained and with its root. -/
theorem spliceParent_retained (hInv : StoreInv s) {history : HistoryId} {parent : Option VersionId}
    {parentRoot : Option PersistentRoot} {parentLen : Nat}
    (hParent : s.spliceParent history parent = .ok (parentRoot, parentLen))
    (hRetained : s.requireRetainedParent parent = .ok ()) :
    s.replayParent history parent = .ok (parentRoot, parentLen) ∧ parentLen < width 64 ∧
      (∀ id, parent = some id → id ∉ s.expiredVersions ∧ ∃ record : VersionRecord,
        s.versions[id.id]? = some record ∧ record.version.history = history) ∧
      ((parentRoot = none ∧ parentLen = 0) ∨ ∃ record ∈ s.versions, ∃ root,
        record.root = some root ∧ parentRoot = some root ∧ parentLen = root.logicalLen) := by
  cases parent with
  | none =>
    cases hParent
    exact ⟨rfl, by decide, nofun, .inl ⟨rfl, rfl⟩⟩
  | some id =>
    simp only [spliceParent, bind_eq_ok, pure_eq_ok] at hParent
    obtain ⟨record, hRecord, hPair⟩ := hParent
    cases hPair
    obtain ⟨hFound, hHistory⟩ := parentRecord_eq_ok.mp hRecord
    obtain ⟨hGet, hId⟩ := versionRecord_eq_ok.mp hFound
    obtain ⟨-, hNotExpired⟩ := requireRetained_eq_ok.mp hRetained
    have hMem := List.mem_of_getElem? hGet
    obtain ⟨root, hRoot⟩ := Option.isSome_iff_exists.mp
      (hInv.catalogue.materialized record hMem (by rwa [hId]))
    have hLen := (hInv.catalogue.root record hMem root hRoot).1
    refine ⟨?_, (hInv.catalogue.len record hMem).2, ?_, .inr ⟨record, hMem, root, hRoot, hRoot,
      hLen.symm⟩⟩
    · rw [replayParent, parentRecord_eq_ok.mpr ⟨hFound, hHistory⟩, ok_bind, failIf_neg hNotExpired,
        ok_bind, hRoot, okOr_some, ok_bind]
      rfl
    · rintro _ ⟨⟩
      exact ⟨hNotExpired, record, hGet, hHistory⟩

/-- The delta a splice has prepared over its content. -/
theorem preparePhysical_delta (hOver : OverArena sha256 s content a)
    {parentRoot : Option PersistentRoot} {parentLen offset deleteLen resultLen : Nat}
    {insert : Bytes}
    (hParent : (parentRoot = none ∧ parentLen = 0) ∨ ∃ record ∈ s.versions, ∃ root,
      record.root = some root ∧ parentRoot = some root ∧ parentLen = root.logicalLen)
    (hLen : resultLen = parentLen - deleteLen + insert.length)
    (hFits : ∀ resolved, (SequenceBackend.memory a).resolveParent parentRoot = .ok resolved →
      Addressable (editedArena sha256 a resolved offset deleteLen insert))
    {physical : Option PhysicalDelta}
    (h : s.preparePhysical sha256 parentRoot offset deleteLen insert resultLen = .ok physical) :
    ∃ b result delta, physical = some delta ∧ DeltaFor sha256 content.generation a b result delta ∧
      TilesOn a b ∧ delta.root.logicalLen = resultLen ∧ ∃ old, parentBytes a parentRoot = some old ∧
      old.length = parentLen ∧ bytesOf b (.balancedV2 delta.root.nodeId delta.root.logicalLen) =
        some (editBytes old offset deleteLen insert) := by
  obtain ⟨resolved, hMemory, hResolvedLen, hResolvedRoot⟩ : ∃ resolved,
      (SequenceBackend.memory a).resolveParent parentRoot = .ok resolved ∧
        resolved.elim 0 V2RootRecord.logicalLen = parentLen ∧
        ∀ root, resolved = some root → ∃ t, Denotes sha256 a t root := by
    rcases hParent with ⟨rfl, rfl⟩ | ⟨record, hMem, root, hRoot, rfl, rfl⟩
    · exact ⟨none, rfl, rfl, fun _ hSome => by cases hSome⟩
    · obtain ⟨t, canonical, hDenotes, rfl⟩ := hOver.roots record hMem root hRoot
      refine ⟨some canonical, ?_, rfl, fun _ hSome => ?_⟩
      · rw [SequenceBackend.resolveParent, resolve_denotes hDenotes, ok_bind]
        rfl
      · cases hSome
        exact ⟨t, hDenotes⟩
  obtain ⟨old, hOld, hOldLen, hOldDenotes⟩ := parentBytes_resolved hMemory hResolvedRoot
  obtain ⟨hPhysical, hResolves⟩ := hOver.represents.resolveParent_ok hOver.wellFormed
    hOver.addressable hMemory
  have hEdited := hFits resolved hMemory
  simp only [preparePhysical, hOver.backend, bind_eq_ok, mapErr_eq_ok, pure_eq_ok, liftAvl] at h
  obtain ⟨delta, ⟨resolved', hResolved', hDelta⟩, rfl⟩ := h
  rw [hPhysical] at hResolved'
  cases hResolved'
  cases hRun : spliceOn sha256 resolved offset deleteLen insert a with
  | error e b =>
    have hView := spliceOn_view_error hOver.represents hOver.wellFormed hEdited hOver.addressable
      hResolves hRun
    rw [preparePhysicalDelta, hView] at hDelta
    cases hDelta
  | ok result b =>
    rw [editedArena_of_ok hRun] at hEdited
    have hResult := (spliceOn_length hOver.wellFormed hRun).2.1
    rw [hResolvedLen, ← hLen] at hResult
    obtain ⟨delta', hPrepare, hFor⟩ :=
      preparePhysicalDelta_ok hOver.represents hOver.wellFormed hEdited hRun hResult
    rw [hPrepare] at hDelta
    cases hDelta
    obtain ⟨t, hDenotes, hBytes⟩ := spliceOn_edits hOver.wellFormed hRun hOldLen hOldDenotes
    refine ⟨b, result, delta, rfl, hFor, spliceOn_tilesOn hRun, by rw [hFor.root, hResult], old, hOld,
      hOldLen.trans hResolvedLen, ?_⟩
    rw [hFor.root, bytesOf_denotes hDenotes, hBytes]

/-- What a splice has checked when it is fresh. -/
theorem previewSplice_fresh (hInv : StoreInv s) (hOver : OverArena sha256 s content a)
    {history : HistoryId} {parent : Option VersionId} {offset deleteLen : Nat} {insert : Bytes}
    {requestId binding : Option Bytes} {prepared : PreparedSplice}
    (hFits : SpliceFits sha256 s history parent offset deleteLen insert)
    (h : s.previewSplice sha256 history parent offset deleteLen insert requestId binding =
      .ok (.fresh prepared)) :
    ∃ b delta, FreshSplice sha256 s content.generation a b delta prepared := by
  simp only [previewSplice, bind_eq_ok, failIf_eq_ok, not_not] at h
  obtain ⟨_, -, _, hHistory, _, hBinding, ⟨parentRoot, parentLen⟩, hParent, resultLen, hCoordinates,
    found, hClass, hPrepared⟩ := h
  cases found with
  | replayed version => cases hPrepared
  | retired => cases hPrepared
  | unknown =>
    simp only [prepareSplice, bind_eq_ok, pure_eq_ok] at hPrepared
    obtain ⟨_, ⟨_, hRetained, identity, hIdentity, physical, hPhysical, rfl⟩, hEq⟩ := hPrepared
    cases hEq
    obtain ⟨hLimit, rfl⟩ := prepareVersionIdentity_eq_ok.mp hIdentity
    obtain ⟨hReplay, hParentLen, hKnown, hCases⟩ := spliceParent_retained hInv hParent hRetained
    obtain ⟨-, -, -, hLen, hPos, hLt⟩ := checkSpliceCoordinates_eq_ok hCoordinates
    obtain ⟨b, result, delta, rfl, hDelta, hTiles, hRoot, hBytes⟩ := preparePhysical_delta hOver hCases hLen
      (fun resolved hResolved => hFits content a parentRoot parentLen resolved hOver.backend
        hOver.wellFormed hOver.represents hParent hResolved) hPhysical
    exact ⟨b, delta, ⟨result, hDelta⟩, hTiles, rfl, hRoot, rfl, rfl, rfl,
      ⟨parentRoot, parentLen, hParentLen, hReplay, hCoordinates, hRoot ▸ hBytes⟩,
      ⟨rfl, hLimit, hHistory, hKnown, ⟨hPos, hLt⟩, ⟨_, rfl, rfl, rfl⟩,
        classifyRequest_unknown hInv.ledger hClass, validateOptionalBinding_eq_ok.mp hBinding⟩⟩

end Previews

end TulyaStore.History
