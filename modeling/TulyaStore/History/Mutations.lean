import TulyaStore.History.RecordCommit
import TulyaStore.History.View

/-!
# The mutations of the authority

Every mutation checks its call on the store, logs it as a record and takes the step of the record.
The record of each is `Logged`: over any files that hold the content its replay takes the same step.
So a call ends with its step taken, or fails with nothing changed, or is left open by a sync that
was refused, and wherever it stops the directory recovers to one of the two stores (`Served`).
-/

namespace TulyaStore.History

open Lib FileM Sequence V2AvlSequence PersistentHistoryStore

/-! ## The records of the steps -/

section Records

variable {sha256 : Bytes → Digest} {s : PersistentHistoryStore} {a b : V2AvlSequence}
  {generation : Nat} {content : PhysicalContentStore}

theorem FreshVersion.onContent {record : VersionRecord} {requestId binding : Option Bytes}
    (h : FreshVersion s record requestId binding) :
    FreshVersion (s.onContent content) record requestId binding :=
  ⟨h.identity, h.limit, h.history, h.parent, h.len, h.root, h.request, h.binding⟩

theorem withVersion_onContent (content : PhysicalContentStore) (record : VersionRecord)
    (requestId : Option Bytes)
    (digest : Digest) (binding : Option Bytes) (backend : SequenceBackend)
    (other : PhysicalContentStore) :
    (s.onContent content).withVersion (.physical other) record requestId digest binding =
      (s.withVersion backend record requestId digest binding).onContent other :=
  recordVersion_onContent (s := { s with nextVersionId := s.nextVersionId + 1, backend }) record
    requestId digest binding

/-- What a store and its arena bring along into a step. -/
structure Sound (sha256 : Bytes → Digest) (s : PersistentHistoryStore) (a : V2AvlSequence) :
    Prop where
  inv : StoreInv s
  unpoisoned : s.poisoned = false
  wellFormed : WellFormed sha256 a
  addressable : Addressable a
  roots : RootsIn sha256 a s

theorem RootsIn.retireReceipt {request : Bytes} {digest : Digest} (h : RootsIn sha256 a s) :
    RootsIn sha256 a (s.retireReceipt request digest) := h

theorem versions_withExpired (version : VersionId) :
    (s.withExpired version).versions = s.versions := by
  unfold withExpired
  cases s.receiptOf version with
  | none => rfl
  | some found => rfl

theorem poisoned_withExpired (version : VersionId) :
    (s.withExpired version).poisoned = s.poisoned := by
  unfold withExpired
  cases s.receiptOf version with
  | none => rfl
  | some found => rfl

theorem enforceHorizonOver_frame (order : List Bytes) :
    (s.enforceHorizonOver order).versions = s.versions ∧
      (s.enforceHorizonOver order).poisoned = s.poisoned ∧
      (s.enforceHorizonOver order).backend = s.backend := by
  induction order generalizing s with
  | nil => exact ⟨rfl, rfl, rfl⟩
  | cons oldest rest ih =>
    rw [enforceHorizonOver]
    split
    case isTrue =>
      obtain ⟨hVersions, hPoisoned, hBackend⟩ := ih (s := s.evictOldest oldest rest)
      rw [hVersions, hPoisoned, hBackend]
      unfold evictOldest
      split <;> exact ⟨rfl, rfl, rfl⟩
    case isFalse => exact ⟨rfl, rfl, rfl⟩

theorem withVersion_frame (backend : SequenceBackend) (record : VersionRecord)
    (requestId : Option Bytes) (digest : Digest) (binding : Option Bytes) :
    (s.withVersion backend record requestId digest binding).versions = s.versions ++ [record] ∧
      (s.withVersion backend record requestId digest binding).poisoned = s.poisoned ∧
      (s.withVersion backend record requestId digest binding).backend = backend := by
  have hReceipt : ∀ t : PersistentHistoryStore,
      (t.withReceipt requestId digest record.version.id).versions = t.versions ∧
        (t.withReceipt requestId digest record.version.id).poisoned = t.poisoned ∧
        (t.withReceipt requestId digest record.version.id).backend = t.backend := by
    intro t
    cases requestId with
    | none => exact ⟨rfl, rfl, rfl⟩
    | some request => exact enforceHorizonOver_frame _
  rw [withVersion_eq]
  obtain ⟨hVersions, hPoisoned, hBackend⟩ := hReceipt (s.withEntry backend record)
  cases binding with
  | none => exact ⟨hVersions, hPoisoned, hBackend⟩
  | some bytes => exact ⟨hVersions, hPoisoned, hBackend⟩

theorem logged_create (generation : Nat) (h : Sound sha256 s a) {binding : Option Bytes}
    (hBinding : FreshBinding s binding) (hLimit : s.nextHistoryId + 1 < width 64) :
    Logged sha256 generation s a (.createHistory ⟨s.nextHistoryId⟩ binding)
      (s.withHistory binding) a where
  transition := .history hLimit hBinding
  unpoisoned := h.unpoisoned
  fits := ⟨Nat.lt_of_succ_lt hLimit, fun bytes hSome => (hBinding bytes hSome).1⟩
  grows := Grows.refl a
  wellFormed := h.wellFormed
  addressable := h.addressable
  roots := h.roots
  replay payload nodes _ := replayCreate_ok (s :=
    s.onContent (boundStore payload nodes generation a))
    h.unpoisoned (fun bytes hSome => (hBinding bytes hSome).1) hLimit

theorem logged_retire (h : Sound sha256 s a) {request : Bytes} {entry : ActiveRequest}
    (hActive : s.activeRequests.get request = some entry) :
    Logged sha256 generation s a (.retire request entry.digest)
      (s.retireReceipt request entry.digest) a where
  transition := .retired hActive
  unpoisoned := h.unpoisoned
  fits := h.inv.ledger.valid request (h.inv.ledger.tables.mem.mpr (.inl ⟨entry, hActive⟩))
  grows := Grows.refl a
  wellFormed := h.wellFormed
  addressable := h.addressable
  roots := h.roots
  replay payload nodes _ := replayRetire_ok
    (s := s.onContent (boundStore payload nodes generation a)) h.inv.onContent.ledger hActive

theorem logged_expire (h : Sound sha256 s a) {version : VersionId} {record : VersionRecord}
    (hRecord : s.versionRecord version = .ok record) (hRetained : version ∉ s.expiredVersions) :
    Logged sha256 generation s a (.expireVersion record.version.history version)
      (s.withExpired version) a := by
  obtain ⟨hGet, hId⟩ := versionRecord_eq_ok.mp hRecord
  have hKnown : version.id < s.versions.length := (List.getElem?_eq_some_iff.mp hGet).1
  have hHistory := h.inv.catalogue.history record (List.mem_of_getElem? hGet)
  have hHistoryLt := (h.inv.catalogue.histories _).mp hHistory
  have hLimit := h.inv.catalogue.historyLimit
  have hVersionLimit := h.inv.catalogue.versionLimit
  have hNext := h.inv.catalogue.nextVersion
  refine {
    transition := .expired hKnown hRetained
    unpoisoned := (poisoned_withExpired version).trans h.unpoisoned
    fits := ⟨by omega, by omega⟩
    grows := Grows.refl a
    wellFormed := h.wellFormed
    addressable := h.addressable
    roots := ?_
    replay := ?_ }
  · unfold RootsIn
    rw [versions_withExpired]
    exact h.roots
  · intro payload nodes _
    rw [← withExpired_onContent]
    exact replayExpire_ok (s := s.onContent (boundStore payload nodes generation a)) hHistory
      hRecord hRetained

theorem logged_fork (h : Sound sha256 s a) {history : HistoryId} {parent : VersionId}
    {record : VersionRecord} {root : PersistentRoot} {requestId binding : Option Bytes}
    (hRecord : s.versionRecord parent = .ok record) (hRoot : record.root = some root)
    (hFresh : FreshVersion s ⟨⟨history, ⟨s.nextVersionId⟩, some parent⟩, some root, record.len⟩
      requestId binding) (hSame : record.version.history = history) :
    Logged sha256 generation s a (.fork history ⟨s.nextVersionId⟩ parent requestId binding
        (historyForkDigest sha256 history parent binding))
      (s.withVersion s.backend ⟨⟨history, ⟨s.nextVersionId⟩, some parent⟩, some root, record.len⟩
        requestId (historyForkDigest sha256 history parent binding) binding) a := by
  obtain ⟨hVersions, hPoisoned, -⟩ := withVersion_frame (s := s) s.backend
    ⟨⟨history, ⟨s.nextVersionId⟩, some parent⟩, some root, record.len⟩ requestId
      (historyForkDigest sha256 history parent binding) binding
  obtain ⟨hGet, -⟩ := versionRecord_eq_ok.mp hRecord
  have hKnown : parent.id < s.versions.length := (List.getElem?_eq_some_iff.mp hGet).1
  have hHistoryLt : history.id < s.nextHistoryId :=
    (h.inv.catalogue.histories _).mp hFresh.history
  have hLimit := h.inv.catalogue.historyLimit
  have hVersionLimit := hFresh.limit
  have hNext := h.inv.catalogue.nextVersion
  refine {
    transition := .version hFresh
    unpoisoned := hPoisoned.trans h.unpoisoned
    fits := ⟨by omega, Nat.lt_of_succ_lt hVersionLimit, by omega,
      fun request hSome => (hFresh.request request hSome).1, hFresh.binding⟩
    grows := Grows.refl a
    wellFormed := h.wellFormed
    addressable := h.addressable
    roots := ?_
    replay := ?_ }
  · intro other hMem
    rw [hVersions, List.mem_append, List.mem_singleton] at hMem
    rcases hMem with hMem | rfl
    · exact h.roots other hMem
    · intro other hOther
      cases hOther
      exact h.roots record (List.mem_of_getElem? hGet) root hRoot
  · intro payload nodes _
    rw [← withVersion_onContent (boundStore payload nodes generation a)]
    exact replayFork_ok (s := s.onContent (boundStore payload nodes generation a))
      h.inv.onContent.ledger hRecord hRoot hFresh.onContent hSame

/-- Where the delta of a splice stands in the content files. -/
def placementOf (generation : Nat) (delta : PhysicalDelta) : PhysicalPlacement :=
  ⟨generation, delta.oldPayloadEnd, delta.newPayloadEnd, delta.oldNodeCount, delta.newNodeCount,
    delta.deltaDigest, rootBytes delta.root⟩

/-- The catalogue entry of a prepared splice. -/
def PreparedSplice.entry (prepared : PreparedSplice) (delta : PhysicalDelta) : VersionRecord :=
  ⟨⟨prepared.history, prepared.version, prepared.parent⟩,
    some (.balancedV2 delta.root.nodeId prepared.len), prepared.len⟩

/-- The store behind a prepared splice. -/
def PreparedSplice.applied (prepared : PreparedSplice) (delta : PhysicalDelta)
    (s : PersistentHistoryStore) (backend : SequenceBackend) : PersistentHistoryStore :=
  s.withVersion backend (prepared.entry delta) prepared.requestId prepared.digest prepared.binding

theorem placement_fits {delta : PhysicalDelta} {result : V2SpliceResult}
    (hLimit : generation < width 64) (hDelta : DeltaFor sha256 generation a b result delta) :
    (placementOf generation delta).Fits := by
  have hBounds := hDelta.leads.addressable
  have hPayload := hDelta.leads.grows.1.length_le
  have hNodes := hDelta.leads.grows.2.length_le
  obtain ⟨hOldPayload, hOldNodes⟩ := hDelta.old
  obtain ⟨hNewPayload, hNewNodes⟩ := hDelta.new
  unfold Addressable at hBounds
  have hWidth : (2 : Nat) ^ 63 < width 64 := by decide
  have hPayloadStart : delta.oldPayloadEnd < width 64 := by omega
  have hPayloadEnd : delta.newPayloadEnd < width 64 := by omega
  have hNodeStart : delta.oldNodeCount < width 64 := by omega
  have hNodeEnd : delta.newNodeCount < width 64 := by omega
  exact ⟨hLimit, hPayloadStart, hPayloadEnd, hNodeStart, hNodeEnd⟩

/-- The replay of a placement adopts what the files hold. -/
theorem replayEdit_ok {payload nodes : Option Bytes}
    (hHolds : HoldsArena payload nodes generation b)
    (hWf : WellFormed sha256 a) {result : V2SpliceResult} {delta : PhysicalDelta}
    (hDelta : DeltaFor sha256 generation a b result delta) (parentRoot : Option PersistentRoot)
    (offset deleteLen : Nat) (insert : Bytes) :
    replayEdit sha256 (.physical (boundStore payload nodes generation a)) parentRoot offset
      deleteLen
        insert delta.root.logicalLen (some (placementOf generation delta)) =
      .ok (.balancedV2 delta.root.nodeId delta.root.logicalLen,
        .physical (boundStore payload nodes generation b)) := by
  have hValid := hHolds.validateCommittedDelta hWf hDelta
  have hBytes : (rootBytes delta.root).toList = encodeV2Root delta.root := rfl
  have hReplay : SequenceBackend.replayPhysicalDelta sha256 (boundStore payload nodes generation a)
      generation delta.oldPayloadEnd delta.newPayloadEnd delta.oldNodeCount delta.newNodeCount
      delta.deltaDigest (rootBytes delta.root).toList delta.root.logicalLen =
        .ok (.balancedV2 delta.root.nodeId delta.root.logicalLen,
          boundStore payload nodes generation b) := by
    rw [SequenceBackend.replayPhysicalDelta, hBytes, hValid, liftAvl, mapErr_ok, ok_bind,
      hDelta.new.1, hDelta.new.2]
    rfl
  rw [replayEdit]
  simp only [placementOf, okOr_some, ok_bind]
  rw [hReplay, mapErr_ok, ok_bind]
  rfl

theorem logged_splice (h : Sound sha256 s a) (hGeneration : generation < width 64)
    {prepared : PreparedSplice} {delta : PhysicalDelta}
    (hSplice : FreshSplice sha256 s generation a b delta prepared) (backend : SequenceBackend) :
    Logged sha256 generation s a (prepared.logRecord (some (placementOf generation delta)))
      (prepared.applied delta s backend) b := by
  obtain ⟨result, hDelta⟩ := hSplice.applied
  obtain ⟨t, hDenotes⟩ := hDelta.leads.root
  obtain ⟨parentRoot, parentLen, hParentLt, hParent, hCoordinates, -⟩ := hSplice.coordinates
  obtain ⟨hOffset, hDelete, hInsert, -, -, hLen⟩ := checkSpliceCoordinates_eq_ok hCoordinates
  obtain ⟨hVersions, hPoisoned, -⟩ := withVersion_frame (s := s) backend (prepared.entry delta)
    prepared.requestId prepared.digest prepared.binding
  have hFresh := hSplice.fresh
  have hHistoryLt : prepared.history.id < s.nextHistoryId :=
    (h.inv.catalogue.histories _).mp hFresh.history
  have hLimit := h.inv.catalogue.historyLimit
  have hVersionLimit := hFresh.limit
  have hNext := h.inv.catalogue.nextVersion
  have hNone : noParent + 1 = width 64 := by decide
  refine {
    transition := .version hFresh
    unpoisoned := hPoisoned.trans h.unpoisoned
    fits := ⟨by omega, ?_, ?_, by omega, by omega, hInsert,
      fun request hSome => (hFresh.request request hSome).1, hFresh.binding, ?_⟩
    grows := hDelta.leads.grows
    wellFormed := hDelta.leads.wellFormed
    addressable := hDelta.leads.addressable
    roots := ?_
    replay := ?_ }
  · rw [hSplice.version]
    exact Nat.lt_of_succ_lt hVersionLimit
  · intro id hSome
    obtain ⟨-, record, hGet, -⟩ := hFresh.parent id hSome
    have hKnown := (List.getElem?_eq_some_iff.mp hGet).1
    omega
  · intro placement hSome
    cases hSome
    exact placement_fits hGeneration hDelta
  · intro record hMem
    rw [PreparedSplice.applied, hVersions, List.mem_append, List.mem_singleton] at hMem
    rcases hMem with hMem | rfl
    · intro root hRoot
      obtain ⟨t', canonical, hOld, hEq⟩ := h.roots record hMem root hRoot
      exact ⟨t', canonical, hOld.grows hDelta.leads.grows, hEq⟩
    · intro root hRoot
      cases hRoot
      exact ⟨t, delta.root, hDenotes, by rw [hSplice.root]⟩
  · intro payload nodes hHolds
    have hEdit := replayEdit_ok hHolds h.wellFormed hDelta parentRoot prepared.offset
      prepared.deleteLen prepared.insert
    rw [hSplice.root] at hEdit
    have hReplay := replaySplice_ok
      (s := s.onContent (boundStore payload nodes generation a)) h.inv.onContent.ledger
      (hSplice.version ▸ hFresh.onContent) hParent hCoordinates hEdit
    have hRecord : prepared.logRecord (some (placementOf generation delta)) =
        .splice prepared.history ⟨s.nextVersionId⟩ prepared.parent prepared.offset
          prepared.deleteLen prepared.insert prepared.requestId prepared.binding
          (historySpliceDigest sha256 prepared.history prepared.parent prepared.offset
            prepared.deleteLen prepared.insert prepared.binding)
          (some (placementOf generation delta)) := by
      rw [PreparedSplice.logRecord, hSplice.version, ← hSplice.digest]
    have hEntry : prepared.entry delta = ⟨⟨prepared.history, ⟨s.nextVersionId⟩, prepared.parent⟩,
        some (.balancedV2 delta.root.nodeId prepared.len), prepared.len⟩ := by
      rw [PreparedSplice.entry, hSplice.version]
    rw [hRecord, PreparedSplice.applied,
      ← withVersion_onContent (boundStore payload nodes generation a), hEntry,
      hSplice.digest]
    exact hReplay

end Records

/-! ## What a call may leave behind -/

section Served

variable (sha256 : Bytes → Digest) {α β : Type}

/-- A failed call. Nothing has changed, or a last sync was refused, which poisons the store: that of
a manifest, behind which a client sees the same, or that of the log, with the record already in it
(`R`). -/
inductive Failed (R : Prop) (s : PersistentHistoryStore) (a : V2AvlSequence)
    (s' : PersistentHistoryStore) (b : V2AvlSequence) :
    DurableError → WritableHistoryAuthority → HistoryFiles → Prop where
  | unchanged {e : DurableError} {auth : WritableHistoryAuthority} {files : HistoryFiles}
      (hError : (∃ error, e = .rejected error) ∨ e = .recoveryRequired)
      (hLive : ∃ physical, Live sha256 auth files physical a)
      (hStore : ∃ content, auth.store = s.onContent content) : Failed R s a s' b e auth files
  | manifest {auth : WritableHistoryAuthority} {files : HistoryFiles}
      (hPoisoned : auth.store.poisoned = true) (hView : s'.view b = s.view a)
      (hRecovers : Recovers sha256 files s' b) :
      Failed R s a s' b (.indeterminate .directorySync) auth files
  | log {auth : WritableHistoryAuthority} {files : HistoryFiles}
      (hPoisoned : auth.store.poisoned = true) (hAnswer : R)
      (hRecovers : Recovers sha256 files s' b) :
      Failed R s a s' b (.indeterminate .fileSyncAll) auth files

/-- A call on a live authority. Wherever it stops, the directory recovers to the store in front of
the call or, when there is an answer to give, to `s'`; when it succeeds, the authority is live
with `s'`. -/
def Served (x : AuthorityM α) (auth : WritableHistoryAuthority) (files : HistoryFiles)
    (a : V2AvlSequence) (s' : PersistentHistoryStore) (b : V2AvlSequence) (R : α → Prop) : Prop :=
  CrashSafe (fun image => Recovers sha256 image auth.store a ∨
      ((∃ r, R r) ∧ Recovers sha256 image s' b)) x auth files
    (fun r auth' fs => R r ∧ (∃ physical, Live sha256 auth' fs physical b) ∧ auth'.store = s')
    (Failed sha256 (∃ r, R r) auth.store a s' b)

variable {sha256} {files : HistoryFiles} {physical : Nat} {a b : V2AvlSequence}
  {auth : WritableHistoryAuthority} {s' : PersistentHistoryStore} {x : AuthorityM α} {R : α → Prop}

theorem Failed.imp {R R' : Prop} {s : PersistentHistoryStore} {e : DurableError}
    (h : Failed sha256 R s a s' b e auth files) (hR : R → R') :
    Failed sha256 R' s a s' b e auth files := by
  cases h with
  | unchanged hError hLive hStore => exact .unchanged hError hLive hStore
  | manifest hPoisoned hView hRecovers => exact .manifest hPoisoned hView hRecovers
  | log hPoisoned hAnswer hRecovers => exact .log hPoisoned (hR hAnswer) hRecovers

theorem Live.backend_self (h : Live sha256 auth files physical a) :
    ∃ content, auth.store = auth.store.onContent content :=
  ⟨_, (onContent_self h.backend).symm⟩

theorem Live.requireUnpoisoned_run (h : Live sha256 auth files physical a) :
    requireUnpoisonedDurable auth files = ([], .ok (), auth) := by
  refine (bind_run_quiet get_run).trans ?_
  rw [failIf_neg (by rw [h.recoverable.unpoisoned]; simp)]
  rfl

/-- A call that is rejected before its first step. -/
theorem Live.served_rejected (h : Live sha256 auth files physical a) {e : HistoryError}
    (hRun : x auth files = ([], .error (.rejected e), auth)) :
    Served sha256 x auth files a auth.store a R := by
  refine .of_run hRun (.inl h.recoverable.recovers) ?_ ?_
  · intro _ hSame
    cases hSame
  · intro _ hSame
    cases hSame
    exact .unchanged (.inl ⟨e, rfl⟩) ⟨physical, h⟩ h.backend_self

/-- A call that answers without a step. -/
theorem Live.served_quiet (h : Live sha256 auth files physical a) {r : α}
    (hRun : x auth files = ([], .ok r, auth)) (hR : R r) :
    Served sha256 x auth files a auth.store a R :=
  .of_quiet hRun (.inl h.recoverable.recovers) ⟨hR, ⟨physical, h⟩, rfl⟩

theorem Served.imp {R' : α → Prop} (h : Served sha256 x auth files a s' b R)
    (hR : ∀ r, R r → R' r) : Served sha256 x auth files a s' b R' := by
  refine h.mono ?_ ?_ fun _ _ _ hE => hE.imp fun ⟨r, hResult⟩ => ⟨r, hR r hResult⟩
  · intro image hImage
    rcases hImage with hOld | ⟨⟨r, hResult⟩, hNew⟩
    · exact .inl hOld
    · exact .inr ⟨⟨r, hR r hResult⟩, hNew⟩
  · intro r auth' fs hOk
    rcases hOk with ⟨hResult, hRest⟩
    exact ⟨hR r hResult, hRest⟩

theorem Served.map (h : Served sha256 x auth files a s' b R) {f : α → β} {R' : β → Prop}
    (hR : ∀ r, R r → R' (f r)) :
    Served sha256 (do let r ← x; return f r) auth files a s' b R' := by
  refine .bind (h.mono ?_ (fun _ _ _ hQ => hQ)
    fun _ _ _ hE => hE.imp fun ⟨r, hResult⟩ => ⟨f r, hR r hResult⟩) ?_
  · intro image hImage
    rcases hImage with hOld | ⟨⟨r, hResult⟩, hNew⟩
    · exact .inl hOld
    · exact .inr ⟨⟨f r, hR r hResult⟩, hNew⟩
  intro r auth' fs hOk
  rcases hOk with ⟨hResult, ⟨physical, hLive⟩, hStore⟩
  refine .pure (.inr ⟨⟨f r, hR r hResult⟩, ?_⟩) ⟨hR r hResult, ⟨physical, hLive⟩, hStore⟩
  rw [← hStore]
  exact hLive.recoverable.recovers

/-- A call whose first part does nothing. -/
theorem Served.bind_quiet {y : AuthorityM β} {f : β → AuthorityM α} {r : β}
    (hy : y auth files = ([], .ok r, auth)) (h : Served sha256 (f r) auth files a s' b R) :
    Served sha256 (y >>= f) auth files a s' b R :=
  CrashSafe.bind_quiet hy h

/-- A record and its step. -/
theorem Live.served_record (h : Live sha256 auth files physical a) {record : HistoryLogRecord}
    (hLogged : Logged sha256 physical auth.store a record s' a)
    (hBackend : s'.backend = auth.store.backend)
    {step : EStateM HistoryError PersistentHistoryStore α} {r : α}
    (hStep : step auth.store = .ok r s') (hR : R r) :
    Served sha256 (do
      let frame ← FileM.attempt (recordFrame sha256 record)
      writeAndSync frame
      applyAfterBarrier step) auth files a s' a R := by
  have hCommit := h.commitRecord hLogged h.recoverable.tiled h.recoverable.holds
    (hBackend.trans h.backend) hStep
  refine hCommit.mono ?_ ?_ ?_
  · intro image hImage
    exact hImage.imp Recoverable.recovers fun hNew => ⟨⟨r, hR⟩, hNew.recovers⟩
  · intro result auth' fs hOk
    rcases hOk with ⟨rfl, hLive, hStore⟩
    exact ⟨hR, ⟨physical, hLive⟩, hStore⟩
  · intro e auth' fs hError
    rcases hError with ⟨hError, hLive, hStore⟩ | ⟨rfl, hPoisoned, hRecoverable⟩
    · exact .unchanged (.inl hError) ⟨physical, hLive⟩ (hStore ▸ h.backend_self)
    · exact .log hPoisoned ⟨r, hR⟩ hRecoverable.recovers

end Served

/-! ## The operations -/

section Operations

variable {sha256 : Bytes → Digest} {files : HistoryFiles} {physical : Nat} {a : V2AvlSequence}
  {auth : WritableHistoryAuthority}

theorem Live.sound (h : Live sha256 auth files physical a) : Sound sha256 auth.store a :=
  ⟨h.recoverable.inv, h.recoverable.unpoisoned, h.recoverable.wellFormed, h.recoverable.addressable,
    h.recoverable.roots⟩

theorem attempt_rejects {α : Type} {e : HistoryError} :
    (FileM.attempt (rejecting (.error e : Except HistoryError α)) : AuthorityM α) auth files =
      ([], .error (.rejected e), auth) := rfl

theorem retireDigest_eq_ok {s : PersistentHistoryStore} {request : Bytes} {digest : Digest}
    (h : WritableHistoryAuthority.retireDigest s request = .ok digest) :
    ∃ entry, s.activeRequests.get request = some entry ∧ entry.digest = digest := by
  obtain ⟨_, -, hFound⟩ := bind_eq_ok.mp h
  cases hActive : s.activeRequests.get request with
  | some entry =>
    rw [hActive] at hFound
    cases hFound
    exact ⟨entry, rfl, rfl⟩
  | none =>
    rw [hActive] at hFound
    dsimp only at hFound
    split at hFound <;> cases hFound

theorem getStore_run (s : PersistentHistoryStore) :
    (get : EStateM HistoryError PersistentHistoryStore PersistentHistoryStore) s = .ok s s := rfl

theorem modifyStore_run (g : PersistentHistoryStore → PersistentHistoryStore)
    (s : PersistentHistoryStore) :
    (modify g : EStateM HistoryError PersistentHistoryStore PUnit) s = .ok PUnit.unit (g s) := rfl

theorem retireRequest_run {s : PersistentHistoryStore} (h : Sound sha256 s a) {request : Bytes}
    {entry : ActiveRequest} (hActive : s.activeRequests.get request = some entry) :
    PersistentHistoryStore.retireRequest request s =
      .ok () (s.retireReceipt request entry.digest) := by
  have hValid := h.inv.ledger.valid request (h.inv.ledger.tables.mem.mpr (.inl ⟨entry, hActive⟩))
  have hRetired := h.inv.ledger.tables.disjoint hActive
  have hUnpoisoned : s.requireUnpoisoned = .ok () := by
    rw [requireUnpoisoned, failIf_neg (by rw [h.unpoisoned]; simp)]
  have hAbsent : failIf (s.retiredRequests.containsKey request)
      (HistoryError.invalid "persistent request identity is already retired") = .ok () := by
    rw [failIf_neg (by rw [KeyMap.containsKey, hRetired]; simp)]
  have hFound : okOr (s.activeRequests.get request)
      (HistoryError.invalid "persistent active request identity is absent") = .ok entry := by
    rw [hActive, okOr_some]
  refine (Lib.bind_run_ok (getStore_run s)).trans ?_
  refine (attempt_bind_ok hUnpoisoned).trans ((attempt_bind_ok hValid).trans ?_)
  exact (attempt_bind_ok hAbsent).trans (attempt_bind_ok hFound)

/-- The retirement of a request. -/
theorem Live.retire (h : Live sha256 auth files physical a) (request : Bytes) :
    ∃ s' b, Served sha256 (WritableHistoryAuthority.retire sha256 request) auth files a s' b
      fun _ => HistoryModel.Step sha256 (auth.store.view a) (.retire request) .retired
        (s'.view b) := by
  cases hDigest : WritableHistoryAuthority.retireDigest auth.store request with
  | error e =>
    refine ⟨_, _, h.served_rejected (e := e) ?_⟩
    refine (bind_run_quiet h.requireUnpoisoned_run).trans ?_
    refine (bind_run_quiet get_run).trans ?_
    rw [hDigest]
    exact bind_run_error attempt_rejects
  | ok digest =>
    obtain ⟨entry, hActive, rfl⟩ := retireDigest_eq_ok hDigest
    refine ⟨auth.store.retireReceipt request entry.digest, a, ?_⟩
    refine Served.bind_quiet h.requireUnpoisoned_run ?_
    refine Served.bind_quiet get_run ?_
    refine Served.bind_quiet (r := entry.digest) (by rw [hDigest]; exact attempt_run _) ?_
    refine h.served_record (logged_retire h.sound hActive) rfl (retireRequest_run h.sound hActive)
      ?_
    rw [view_retireReceipt hActive]
    exact .retired ((mem_view_active h.recoverable.inv.ledger).mpr hActive)

/-! ### Expiring a version -/

theorem view_version (s : PersistentHistoryStore) (a : V2AvlSequence) {i : Nat}
    {record : VersionRecord} (hGet : s.versions[i]? = some record) :
    (s.view a).versions[i]? = some (s.versionView a record) := by
  rw [view, List.getElem?_map, hGet]
  rfl

/-- A retained version with its bytes. -/
theorem content_of_retained {s : PersistentHistoryStore} (h : Sound sha256 s a)
    {record : VersionRecord} (hMem : record ∈ s.versions)
    (hRetained : record.version.id ∉ s.expiredVersions) {root : PersistentRoot}
    (hRoot : record.root = some root) :
    ∃ bytes, s.contentView a record = some bytes ∧ bytesOf a root = some bytes ∧
      bytes.length = record.len := by
  obtain ⟨t, canonical, hDenotes, rfl⟩ := h.roots record hMem root hRoot
  have hBytes := bytesOf_denotes hDenotes
  refine ⟨t.toList, ?_, hBytes, ?_⟩
  · rw [contentView, if_neg hRetained, hRoot]
    exact hBytes
  · rw [← (h.inv.catalogue.root record hMem _ hRoot).1]
    exact hDenotes.logicalLen.symm

theorem applyPreparedExpire_run {s : PersistentHistoryStore} {version : VersionId}
    {record : VersionRecord} (hRecord : s.versionRecord version = .ok record)
    (hRetained : version ∉ s.expiredVersions) :
    applyPreparedExpire ⟨record.version.history, version, s.receiptOf version⟩ s =
      .ok .expired (s.withExpired version) := by
  have hHistory : failIf (record.version.history ≠ record.version.history)
      (HistoryError.invalid "prepared expiration disagrees with committed history") = .ok () := by
    rw [failIf_neg (by simp)]
  have hNotYet : failIf (version ∈ s.expiredVersions)
      (HistoryError.invalid "prepared expiration identity is already expired") = .ok () := by
    rw [failIf_neg hRetained]
  refine (Lib.bind_run_ok (getStore_run s)).trans ?_
  refine (attempt_bind_ok hRecord).trans ((attempt_bind_ok hHistory).trans ?_)
  refine (attempt_bind_ok hNotYet).trans ?_
  refine (Lib.bind_run_ok (modifyStore_run _ s)).trans ?_
  unfold withExpired
  dsimp only
  cases hReceipt : s.receiptOf version with
  | none => rfl
  | some found =>
    obtain ⟨request, digest⟩ := found
    have hActive := receiptOf_eq_some hReceipt
    refine attempt_bind_ok (a := ()) ?_
    rw [failIf_neg (not_not.mpr hActive)]

theorem previewExpire_eq_ok {s : PersistentHistoryStore} {version : VersionId}
    {preview : ExpirePreview} (h : s.previewExpire version = .ok preview) :
    ∃ record, s.versionRecord version = .ok record ∧
      ((version ∈ s.expiredVersions ∧ preview = .alreadyExpired) ∨
        (version ∉ s.expiredVersions ∧
          preview = .fresh ⟨record.version.history, version, s.receiptOf version⟩)) := by
  obtain ⟨_, -, h⟩ := bind_eq_ok.mp h
  obtain ⟨record, hRecord, h⟩ := bind_eq_ok.mp h
  refine ⟨record, hRecord, ?_⟩
  split at h
  case isTrue hExpired =>
    cases h
    exact .inl ⟨hExpired, rfl⟩
  case isFalse hRetained =>
    cases h
    exact .inr ⟨hRetained, rfl⟩

/-- The expiration of a version. -/
theorem Live.expire (h : Live sha256 auth files physical a) (version : VersionId) :
    ∃ s' b, Served sha256 (WritableHistoryAuthority.expire sha256 version) auth files a s' b
      fun outcome => HistoryModel.Step sha256 (auth.store.view a) (.expire version)
        (.expire outcome) (s'.view b) := by
  cases hPreview : auth.store.previewExpire version with
  | error e =>
    refine ⟨auth.store, a, h.served_rejected (e := e) ?_⟩
    refine (bind_run_quiet h.requireUnpoisoned_run).trans ?_
    refine (bind_run_quiet get_run).trans ?_
    rw [hPreview]
    exact bind_run_error attempt_rejects
  | ok preview =>
    obtain ⟨record, hRecord, hCases⟩ := previewExpire_eq_ok hPreview
    obtain ⟨hGet, hId⟩ := versionRecord_eq_ok.mp hRecord
    have hVersion := view_version auth.store a hGet
    rcases hCases with ⟨hExpired, rfl⟩ | ⟨hRetained, rfl⟩
    · refine ⟨auth.store, a, h.served_quiet (r := .alreadyExpired) ?_ ?_⟩
      · refine (bind_run_quiet h.requireUnpoisoned_run).trans ?_
        refine (bind_run_quiet get_run).trans ?_
        rw [hPreview]
        exact bind_run_quiet (attempt_run _)
      · refine .alreadyExpired hVersion ?_
        rw [versionView, contentView, hId, if_pos hExpired]
    · refine ⟨auth.store.withExpired version, a, ?_⟩
      refine Served.bind_quiet h.requireUnpoisoned_run ?_
      refine Served.bind_quiet get_run ?_
      refine Served.bind_quiet (r := .fresh ⟨record.version.history, version,
        auth.store.receiptOf version⟩) (by rw [hPreview]; exact attempt_run _) ?_
      have hMem := List.mem_of_getElem? hGet
      obtain ⟨root, hRoot⟩ := Option.isSome_iff_exists.mp
        (h.recoverable.inv.catalogue.materialized record hMem (by rwa [hId]))
      obtain ⟨bytes, hContent, -⟩ := content_of_retained h.sound hMem (by rwa [hId]) hRoot
      refine h.served_record (logged_expire h.sound hRecord hRetained) ?_
        (applyPreparedExpire_run hRecord hRetained) ?_
      · unfold withExpired
        cases auth.store.receiptOf version with
        | none => rfl
        | some found => rfl
      · rw [view_withExpired h.recoverable.inv.ledger]
        refine .expired hVersion ?_
        rw [versionView, hContent]
        rfl

/-! ### Commits -/

theorem view_lookup (s : PersistentHistoryStore) (a : V2AvlSequence) {id : VersionId}
    {record : VersionRecord} {history : HistoryId} (hRecord : s.versionRecord id = .ok record)
    (hHistory : record.version.history = history) :
    (s.view a).lookup history id = some (s.versionView a record) := by
  rw [HistoryModel.lookup, view_version s a (versionRecord_eq_ok.mp hRecord).1]
  exact if_pos hHistory

/-- A fresh version is one the model admits. -/
theorem admits_view {s : PersistentHistoryStore} (h : StoreInv s) {record : VersionRecord}
    {requestId binding : Option Bytes} (hFresh : FreshVersion s record requestId binding)
    {digest : Digest} {content : Option Bytes} :
    (s.view a).Admits ⟨record.version.history, record.version.parent, requestId, binding, digest,
      content⟩ := by
  refine ⟨?_, hFresh.binding⟩
  change record.version.history.id < (List.map _ (List.range s.nextHistoryId)).length
  rw [List.length_map, List.length_range]
  exact (h.catalogue.histories _).mp hFresh.history

/-- What the ledger has found a request to be. -/
theorem classifyRequest_known {s : PersistentHistoryStore} {requestId : Option Bytes}
    {digest : Digest} {found : RequestClass} (h : s.classifyRequest requestId digest = .ok found)
    (hKnown : found ≠ .unknown) :
    ∃ request, requestId = some request ∧
      ((∃ id record, s.activeRequests.get request = some ⟨digest, id⟩ ∧
          s.versionRecord id = .ok record ∧ found = .replayed record.version) ∨
        (s.retiredRequests.get request = some digest ∧ found = .retired)) := by
  cases requestId with
  | none =>
    cases h
    exact absurd rfl hKnown
  | some request =>
    refine ⟨request, rfl, ?_⟩
    obtain ⟨_, -, h⟩ := bind_eq_ok.mp h
    cases hActive : s.activeRequests.get request with
    | some active =>
      rw [hActive] at h
      dsimp only at h
      split at h
      case isTrue hDigest =>
        obtain ⟨record, hRecord, h⟩ := bind_eq_ok.mp h
        cases h
        subst hDigest
        exact .inl ⟨active.version, record, rfl, hRecord, rfl⟩
      case isFalse => cases h
    | none =>
      rw [hActive] at h
      cases hRetired : s.retiredRequests.get request with
      | some retired =>
        rw [hRetired] at h
        dsimp only at h
        split at h
        case isTrue hDigest =>
          cases h
          exact .inr ⟨by rw [hDigest], rfl⟩
        case isFalse => cases h
      | none =>
        rw [hRetired] at h
        cases h
        exact absurd rfl hKnown

/-- The answer to a request the ledger knows. -/
def knownOutcome : RequestClass → CommitOutcome
  | .replayed version => .replayed version
  | _ => .retired

theorem step_known {s : PersistentHistoryStore} (h : LedgerInv s) {operation : Operation}
    {commit : Commit} (hCommit : (s.view a).commitOf sha256 operation = some commit)
    {found : RequestClass} (hClass : s.classifyRequest commit.requestId commit.digest = .ok found)
    (hKnown : found ≠ .unknown) :
    HistoryModel.Step sha256 (s.view a) operation (.commit (knownOutcome found)) (s.view a) := by
  obtain ⟨request, hRequest, hCases⟩ := classifyRequest_known hClass hKnown
  rcases hCases with ⟨id, record, hActive, hRecord, rfl⟩ | ⟨hRetired, rfl⟩
  · exact .replayed hCommit hRequest ((mem_view_active h).mpr hActive)
      (view_version s a (versionRecord_eq_ok.mp hRecord).1)
  · exact .replayedRetired hCommit hRequest ((mem_view_retired h).mpr hRetired)

theorem applyPreparedFork_run {s : PersistentHistoryStore} {history : HistoryId}
    {parent : VersionId} {root : PersistentRoot} {len : Nat} {requestId binding : Option Bytes}
    {digest : Digest} :
    applyPreparedFork ⟨⟨s.nextVersionId⟩, s.nextVersionId + 1, history, parent, some root, len,
        requestId, binding, digest⟩ s =
      .ok (.committed ⟨history, ⟨s.nextVersionId⟩, some parent⟩)
        (s.withVersion s.backend ⟨⟨history, ⟨s.nextVersionId⟩, some parent⟩, some root, len⟩
          requestId
          digest binding) := by
  have hIdentity : failIf (s.nextVersionId ≠ s.nextVersionId)
      (HistoryError.invalid "prepared fork identity disagrees with the allocation counter") =
        .ok () := by
    rw [failIf_neg (by simp)]
  refine (Lib.bind_run_ok (getStore_run s)).trans ?_
  exact (attempt_bind_ok hIdentity).trans (Lib.bind_run_ok (modifyStore_run _ s))

/-- The parts of the preview of a fork. -/
theorem previewFork_eq_ok {s : PersistentHistoryStore} {history : HistoryId} {parent : VersionId}
    {requestId binding : Option Bytes} {preview : Preview PreparedFork}
    (h : s.previewFork sha256 history parent requestId binding = .ok preview) :
    ∃ record found, s.versionRecord parent = .ok record ∧ record.version.history = history ∧
      s.classifyRequest requestId (historyForkDigest sha256 history parent binding) = .ok found ∧
      (found ≠ .unknown → preview = match found with
        | .replayed version => .replayed version
        | _ => .retired) ∧
      (found = .unknown → ∃ prepared, preview = .fresh prepared ∧
        prepared.requestId = requestId ∧
        prepared.digest = historyForkDigest sha256 history parent binding) := by
  simp only [previewFork, bind_eq_ok] at h
  obtain ⟨_, -, _, -, _, -, record, hParent, found, hClass, hPreview⟩ := h
  obtain ⟨hRecord, hHistory⟩ := parentRecord_eq_ok.mp hParent
  refine ⟨record, found, hRecord, hHistory, hClass, ?_, ?_⟩
  · intro hKnown
    cases found with
    | unknown => exact absurd rfl hKnown
    | replayed version =>
      cases hPreview
      rfl
    | retired =>
      cases hPreview
      rfl
  · rintro rfl
    obtain ⟨prepared, hPrepared, hEq⟩ := bind_eq_ok.mp hPreview
    cases hEq
    simp only [prepareFork, bind_eq_ok, pure_eq_ok] at hPrepared
    obtain ⟨_, -, identity, -, rfl⟩ := hPrepared
    exact ⟨_, rfl, rfl, rfl⟩

/-- The fork of a version. -/
theorem Live.fork (h : Live sha256 auth files physical a) (history : HistoryId)
    (parent : VersionId) (requestId binding : Option Bytes) :
    ∃ s' b, Served sha256 (WritableHistoryAuthority.fork sha256 history parent requestId binding)
      auth files a s' b fun outcome => HistoryModel.Step sha256 (auth.store.view a)
        (.fork history parent requestId binding) (.commit outcome) (s'.view b) := by
  cases hPreview : auth.store.previewFork sha256 history parent requestId binding with
  | error e =>
    refine ⟨auth.store, a, h.served_rejected (e := e) ?_⟩
    refine (bind_run_quiet h.requireUnpoisoned_run).trans ?_
    refine (bind_run_quiet get_run).trans ?_
    rw [hPreview]
    exact bind_run_error attempt_rejects
  | ok preview =>
    obtain ⟨record, found, hRecord, hHistory, hClass, hKnown, hUnknown⟩ :=
      previewFork_eq_ok hPreview
    have hCommit : (auth.store.view a).commitOf sha256 (.fork history parent requestId binding) =
        some ⟨history, some parent, requestId, binding,
          historyForkDigest sha256 history parent binding, auth.store.contentView a record⟩ := by
      rw [HistoryModel.commitOf, view_lookup auth.store a hRecord hHistory]
      rfl
    by_cases hFound : found = .unknown
    · obtain ⟨prepared, rfl, -⟩ := hUnknown hFound
      obtain ⟨record', root, hRecord', hRoot, hSame, rfl, hFresh⟩ :=
        previewFork_fresh h.recoverable.inv hPreview
      rw [hRecord] at hRecord'
      cases hRecord'
      obtain ⟨hGet, hId⟩ := versionRecord_eq_ok.mp hRecord
      have hMem := List.mem_of_getElem? hGet
      have hRetained : record.version.id ∉ auth.store.expiredVersions := by
        rw [hId]
        exact (hFresh.parent parent rfl).1
      obtain ⟨bytes, hContent, hBytes, hLen⟩ := content_of_retained h.sound hMem hRetained hRoot
      refine ⟨auth.store.withVersion auth.store.backend
        ⟨⟨history, ⟨auth.store.nextVersionId⟩, some parent⟩, some root, record.len⟩ requestId
          (historyForkDigest sha256 history parent binding) binding, a, ?_⟩
      refine Served.bind_quiet h.requireUnpoisoned_run ?_
      refine Served.bind_quiet get_run ?_
      refine Served.bind_quiet (by rw [hPreview]; exact attempt_run _) ?_
      refine h.served_record (logged_fork h.sound hRecord hRoot hFresh hSame)
        (withVersion_frame _ _ _ _ _).2.2 applyPreparedFork_run ?_
      rw [view_withVersion h.recoverable.inv h.recoverable.roots (Grows.refl a) hFresh rfl hBytes
        hLen.symm]
      have hVersion : (⟨history, ⟨auth.store.nextVersionId⟩, some parent⟩ : Version) =
          (auth.store.view a).freshVersion ⟨history, some parent, requestId, binding,
            historyForkDigest sha256 history parent binding, some bytes⟩ := by
        rw [HistoryModel.freshVersion, h.recoverable.inv.catalogue.nextVersion, view,
          List.length_map]
      rw [hVersion]
      refine .committed (hContent ▸ hCommit) ?_ rfl ?_
      · exact admits_view h.recoverable.inv hFresh
      · intro request hSome
        rw [view_requests]
        exact (hFresh.request request hSome).2
    · have hStep := step_known h.recoverable.inv.ledger hCommit hClass hFound
      refine ⟨auth.store, a, h.served_quiet (r := knownOutcome found) ?_ hStep⟩
      refine (bind_run_quiet h.requireUnpoisoned_run).trans ?_
      refine (bind_run_quiet get_run).trans ?_
      rw [hPreview, hKnown hFound]
      cases found with
      | unknown => exact absurd rfl hFound
      | replayed version => exact bind_run_quiet (attempt_run _)
      | retired => exact bind_run_quiet (attempt_run _)

/-! ### Splices -/

theorem FreshSplice.onContent {s : PersistentHistoryStore} {generation : Nat} {b : V2AvlSequence}
    {delta : PhysicalDelta} {prepared : PreparedSplice}
    (h : FreshSplice sha256 s generation a b delta prepared) (content : PhysicalContentStore) :
    FreshSplice sha256 (s.onContent content) generation a b delta prepared :=
  ⟨h.applied, h.tiles, h.physical, h.root, h.version, h.after, h.digest, h.coordinates,
    h.fresh.onContent⟩

/-- The parent of a splice in the model. -/
theorem parentOf_view {s : PersistentHistoryStore} (a : V2AvlSequence) {history : HistoryId}
    {parent : Option VersionId} {parentRoot : Option PersistentRoot} {parentLen : Nat}
    (h : s.spliceParent history parent = .ok (parentRoot, parentLen)) :
    ∃ bytes, (s.view a).parentOf history parent = some (parentLen, bytes) ∧
      (s.replayParent history parent = .ok (parentRoot, parentLen) →
        bytes = parentBytes a parentRoot) := by
  cases parent with
  | none =>
    cases h
    exact ⟨some [], rfl, fun _ => rfl⟩
  | some id =>
    simp only [spliceParent, bind_eq_ok, pure_eq_ok] at h
    obtain ⟨record, hParent, hPair⟩ := h
    cases hPair
    obtain ⟨hRecord, hHistory⟩ := parentRecord_eq_ok.mp hParent
    refine ⟨s.contentView a record, ?_, ?_⟩
    · rw [HistoryModel.parentOf, view_lookup s a hRecord hHistory]
      rfl
    · intro hReplay
      simp only [replayParent, bind_eq_ok, failIf_eq_ok, okOr_eq_ok, pure_eq_ok] at hReplay
      obtain ⟨record', hParent', _, hRetained, root, hRoot, hPair⟩ := hReplay
      obtain ⟨hRecord', -⟩ := parentRecord_eq_ok.mp hParent'
      rw [hRecord] at hRecord'
      cases hRecord'
      rw [contentView, (versionRecord_eq_ok.mp hRecord).2, if_neg hRetained, hRoot]
      rfl

theorem spliceParent_of_replay {s : PersistentHistoryStore} {history : HistoryId}
    {parent : Option VersionId} {parentRoot : Option PersistentRoot} {parentLen : Nat}
    (h : s.replayParent history parent = .ok (parentRoot, parentLen)) :
    s.spliceParent history parent = .ok (parentRoot, parentLen) := by
  cases parent with
  | none => exact h
  | some id =>
    simp only [replayParent, bind_eq_ok, okOr_eq_ok, pure_eq_ok] at h
    obtain ⟨record, hParent, _, -, root, hRoot, hPair⟩ := h
    cases hPair
    rw [spliceParent, parentRecord_eq_ok.mpr (parentRecord_eq_ok.mp hParent), ok_bind, hRoot]
    rfl

/-- The parts of the preview of a splice. -/
theorem previewSplice_eq_ok {s : PersistentHistoryStore} {history : HistoryId}
    {parent : Option VersionId} {offset deleteLen : Nat} {insert : Bytes}
    {requestId binding : Option Bytes} {preview : Preview PreparedSplice}
    (h : s.previewSplice sha256 history parent offset deleteLen insert requestId binding =
      .ok preview) :
    ∃ parentRoot parentLen resultLen found,
      s.spliceParent history parent = .ok (parentRoot, parentLen) ∧
      checkSpliceCoordinates previewSpliceTexts parent parentLen offset deleteLen insert =
        .ok resultLen ∧
      s.classifyRequest requestId
        (historySpliceDigest sha256 history parent offset deleteLen insert binding) = .ok found ∧
      (found ≠ .unknown → preview = match found with
        | .replayed version => .replayed version
        | _ => .retired) ∧
      (found = .unknown → ∃ physical, preview = .fresh ⟨⟨s.nextVersionId⟩, s.nextVersionId + 1,
        history, parent, parentRoot, offset, deleteLen, insert, resultLen, requestId, binding,
        historySpliceDigest sha256 history parent offset deleteLen insert binding, physical⟩) := by
  simp only [previewSplice, bind_eq_ok] at h
  obtain ⟨_, -, _, -, _, -, ⟨parentRoot, parentLen⟩, hParent, resultLen, hCoordinates, found,
    hClass,
    hPreview⟩ := h
  refine ⟨parentRoot, parentLen, resultLen, found, hParent, hCoordinates, hClass, ?_, ?_⟩
  · intro hKnown
    cases found with
    | unknown => exact absurd rfl hKnown
    | replayed version =>
      cases hPreview
      rfl
    | retired =>
      cases hPreview
      rfl
  · rintro rfl
    obtain ⟨prepared, hPrepared, hEq⟩ := bind_eq_ok.mp hPreview
    cases hEq
    simp only [prepareSplice, bind_eq_ok, pure_eq_ok] at hPrepared
    obtain ⟨_, -, identity, hIdentity, physical, -, rfl⟩ := hPrepared
    obtain ⟨-, rfl⟩ := prepareVersionIdentity_eq_ok.mp hIdentity
    exact ⟨physical, rfl⟩

/-- The checks of a splice are the bounds of the model. -/
theorem checkSpliceCoordinates_iff {texts : SpliceTexts} {parent : Option VersionId}
    {parentLen offset deleteLen len : Nat} {insert : Bytes}
    (hRoot : parent = none → parentLen = 0) :
    checkSpliceCoordinates texts parent parentLen offset deleteLen insert = .ok len ↔
      HistoryModel.SpliceInBounds parentLen offset deleteLen insert ∧
        len = parentLen - deleteLen + insert.length := by
  have hEffect : checkSpliceEffect texts parent offset deleteLen insert = .ok () ↔
      (parent = none → offset = 0 ∧ deleteLen = 0) ∧ (deleteLen = 0 → insert ≠ []) := by
    cases parent with
    | none =>
      simp only [checkSpliceEffect, bind_eq_ok, failIf_eq_ok, not_or, not_not, exists_const,
        List.isEmpty_iff, forall_const]
      constructor
      · rintro ⟨hStart, hInsert⟩
        exact ⟨hStart, fun _ => hInsert⟩
      · rintro ⟨hStart, hInsert⟩
        exact ⟨hStart, hInsert hStart.2⟩
    | some id =>
      simp [checkSpliceEffect, failIf_eq_ok, List.isEmpty_iff]
  unfold HistoryModel.SpliceInBounds
  simp only [checkSpliceCoordinates, bind_eq_ok, failIf_eq_ok, okOr_eq_ok, pure_eq_ok,
    tryFrom_eq_some, checkedAdd_eq_some]
  constructor
  · rintro ⟨_, hOffset, _, hDelete, _, ⟨hInsert, rfl⟩, _, ⟨hResult, rfl⟩, _, hEff, _, hLen, rfl⟩
    obtain ⟨-, hInsertNe⟩ := hEffect.mp hEff
    exact ⟨⟨Nat.not_lt.mp hOffset, Nat.not_lt.mp hDelete, hInsertNe, Nat.pos_of_ne_zero hLen,
      hResult⟩, rfl⟩
  · rintro ⟨⟨hOffset, hDelete, hInsert, hPos, hLt⟩, rfl⟩
    refine ⟨(), Nat.not_lt.mpr hOffset, (), Nat.not_lt.mpr hDelete, insert.length,
      ⟨by omega, rfl⟩, _, ⟨hLt, rfl⟩, (), hEffect.mpr ⟨?_, hInsert⟩, (), Nat.pos_iff_ne_zero.mp
        hPos,
      rfl⟩
    intro hNone
    have hZero := hRoot hNone
    omega

theorem spliceParent_root {s : PersistentHistoryStore} {history : HistoryId}
    {parent : Option VersionId} {parentRoot : Option PersistentRoot} {parentLen : Nat}
    (h : s.spliceParent history parent = .ok (parentRoot, parentLen)) :
    parent = none → parentLen = 0 := by
  rintro rfl
  cases h
  rfl

/-- What a splice on a known parent commits in the model. -/
theorem spliceCommit_view {s : PersistentHistoryStore} {history : HistoryId}
    {parent : Option VersionId} {parentLen offset deleteLen resultLen : Nat} {insert : Bytes}
    {bytes : Option Bytes} (hParent : (s.view a).parentOf history parent = some (parentLen, bytes))
    (hRoot : parent = none → parentLen = 0)
    (hCoordinates : checkSpliceCoordinates previewSpliceTexts parent parentLen offset deleteLen
      insert = .ok resultLen) (requestId binding : Option Bytes) :
    (s.view a).spliceCommit sha256 history parent offset deleteLen insert requestId binding =
      some ⟨history, parent, requestId, binding,
        historySpliceDigest sha256 history parent offset deleteLen insert binding,
        bytes.map fun old => editBytes old offset deleteLen insert⟩ := by
  rw [HistoryModel.spliceCommit, hParent]
  exact if_pos ((checkSpliceCoordinates_iff hRoot).mp hCoordinates).1

theorem applyPreparedSplice_run (sha256 : Bytes → Digest) {s : PersistentHistoryStore}
    {prepared : PreparedSplice}
    {delta : PhysicalDelta} (hVersion : prepared.version = ⟨s.nextVersionId⟩)
    (hAfter : prepared.nextVersionIdAfter = s.nextVersionId + 1)
    (hPhysical : prepared.physical = some delta) {content : PhysicalContentStore}
    (hBackend : s.backend = .physical content) :
    applyPreparedSplice sha256 prepared prepared.physical.isSome s =
      .ok (.committed ⟨prepared.history, prepared.version, prepared.parent⟩)
        (prepared.applied delta s (.physical (adoptPhysicalDelta content delta))) := by
  have hIdentity : failIf (s.nextVersionId ≠ prepared.version.id)
      (HistoryError.invalid "prepared splice identity disagrees with the allocation counter") =
        .ok () := by
    rw [hVersion, failIf_neg (by simp)]
  have hEdit : applyEdit sha256 prepared prepared.physical.isSome s =
      .ok (.balancedV2 delta.root.nodeId prepared.len)
        { s with backend := .physical (adoptPhysicalDelta content delta) } := by
    unfold applyEdit
    rw [hPhysical, hBackend]
    rfl
  refine (Lib.bind_run_ok (getStore_run s)).trans ((attempt_bind_ok hIdentity).trans ?_)
  refine (Lib.bind_run_ok hEdit).trans ?_
  refine (Lib.bind_run_ok (modifyStore_run _ _)).trans ?_
  rw [hAfter]
  rfl

/-- The authority over the files that have the delta of a splice behind its frontier. -/
def withDelta (auth : WritableHistoryAuthority) (files : HistoryFiles) (physical : Nat)
    (a : V2AvlSequence) : WritableHistoryAuthority :=
  { auth with store := auth.store.onContent (boundContent files physical a) }

theorem ContentOnly.recoverable {image : HistoryFiles} {generation : Nat}
    {s : PersistentHistoryStore} (hImage : ContentOnly files physical a image)
    (h : Recoverable sha256 files generation physical s a) :
    Recoverable sha256 image generation physical s a := by
  refine h.frame (hImage.same _ ?_ ?_) (hImage.same _ ?_ ?_) (hImage.same _ ?_ ?_) hImage.holds
  all_goals
    intro hSame
    cases hSame

theorem reread_bound {s : PersistentHistoryStore} {image : HistoryFiles}
    (h : s.backend = .physical (boundContent files physical a))
    (hHolds : HoldsArena (files (.payload physical)) (files (.nodes physical)) physical a) :
    s.reread image = s.onContent (boundContent image physical a) := by
  obtain ⟨payloadTail, hPayload⟩ := hHolds.payload
  obtain ⟨nodeTail, hNodes⟩ := hHolds.nodes
  rw [PersistentHistoryStore.reread, h]
  dsimp only [boundContent, boundStore]
  rw [hPayload, hNodes]
  rfl

/-- The content of a prepared splice: in the files and synced, or the files hold what they held. -/
theorem Live.commitPrepared (h : Live sha256 auth files physical a) {b : V2AvlSequence}
    {prepared : PreparedSplice} {delta : PhysicalDelta}
    (hSplice : FreshSplice sha256 auth.store physical a b delta prepared) :
    CrashSafe (ContentOnly files physical a) (commitPrepared prepared) auth files
      (fun placement auth' fs => placement = some (placementOf physical delta) ∧
        Onward (withDelta auth fs physical a) auth' ∧ fs = exactContent files physical b)
      (fun e auth' fs => ((∃ error, e = .rejected error) ∨ e = .recoveryRequired) ∧
        Onward (withDelta auth fs physical a) auth' ∧ ContentOnly files physical a fs) := by
  obtain ⟨result, hDelta⟩ := hSplice.applied
  have hCommit : CrashSafe (ContentOnly files physical a) (liftContent (fun _ => commitFailed)
      (commitContent (boundContent files physical a) delta)) auth files _ _ :=
    CrashSafe.liftContent (commitContent_safe h.recoverable.holds hDelta.leads) _
  refine CrashSafe.bind_quiet get_run ?_
  rw [hSplice.physical, h.backend]
  refine CrashSafe.catching (E := fun e auth' fs =>
    ((∃ error, e = .rejected error) ∨ e = .recoveryRequired) ∧
      Refusing auth files physical a auth' fs) ?_ ?_
  · refine CrashSafe.bind (hCommit.mono_error ?_) ?_
    · intro e auth' fs hError
      rcases hError with ⟨_, rfl, hRefusing⟩
      exact ⟨.inl ⟨_, rfl⟩, hRefusing⟩
    intro content auth₁ fs hOk
    rcases hOk with ⟨hOnward, rfl, rfl⟩
    have hOnly : ContentOnly files physical a (exactContent files physical b) :=
      contentOnly_exact hDelta.leads.grows
    refine CrashSafe.bind ((contentBarrier_safe hOnly _).mono_error
      fun _ _ _ hE => ⟨hE.1, hOnward.trans hE.2.1, hE.2.2⟩) ?_
    intro _ auth₂ fs hOk
    rcases hOk with ⟨hOnward₂, rfl⟩
    refine CrashSafe.bind_quiet (modify_run _) ?_
    refine .pure hOnly ⟨rfl, ?_, rfl⟩
    obtain ⟨left, rfl⟩ := hOnward.trans hOnward₂
    exact ⟨left, rfl⟩
  · intro e auth' fs hError
    rcases hError with ⟨hError, ⟨left, rfl⟩, hOnly⟩
    have hReread : rereadContent { auth with answers := left } fs =
        ([], .ok (), { withDelta auth fs physical a with answers := left }) := by
      refine (bind_run_quiet readDir_run).trans ((modify_run _).trans ?_)
      dsimp only
      rw [reread_bound h.backend h.recoverable.holds]
      rfl
    exact .bind_quiet hReread (.throw hOnly ⟨hError, ⟨left, rfl⟩, hOnly⟩)

/-- The store behind a fresh splice. -/
def splicedStore (auth : WritableHistoryAuthority) (files : HistoryFiles) (physical : Nat)
    (a b : V2AvlSequence) (prepared : PreparedSplice) (delta : PhysicalDelta) :
    PersistentHistoryStore :=
  prepared.applied delta (withDelta auth (exactContent files physical b) physical a).store
    (.physical (boundContent (exactContent files physical b) physical b))

/-- The authority over files that hold its content. -/
theorem Live.onDelta (h : Live sha256 auth files physical a) {image : HistoryFiles}
    (hOnly : ContentOnly files physical a image) :
    Live sha256 (withDelta auth image physical a) image physical a :=
  ⟨(hOnly.recoverable h.recoverable).onContent _, rfl, ⟨by
    rw [hOnly.same _ (hot_ne_payload _).symm (hot_ne_nodes _).symm]
    exact h.hot.file, h.hot.tail⟩⟩

/-- A fresh splice: its content, and then its record. -/
theorem Live.spliceFresh (h : Live sha256 auth files physical a) {b : V2AvlSequence}
    {prepared : PreparedSplice} {delta : PhysicalDelta}
    (hSplice : FreshSplice sha256 auth.store physical a b delta prepared) {R : CommitOutcome → Prop}
    (hR : R (.committed ⟨prepared.history, prepared.version, prepared.parent⟩)) :
    Served sha256 (WritableHistoryAuthority.spliceFresh sha256 prepared) auth files a
      (splicedStore auth files physical a b prepared delta) b R := by
  obtain ⟨result, hDelta⟩ := hSplice.applied
  have hOnly : ContentOnly files physical a (exactContent files physical b) :=
    contentOnly_exact hDelta.leads.grows
  refine CrashSafe.bind ((h.commitPrepared hSplice).mono
    (fun image hImage => .inl (hImage.recoverable h.recoverable).recovers) (fun _ _ _ hQ => hQ)
      ?_) ?_
  · intro e auth' fs hError
    rcases hError with ⟨hError, hOnward, hContent⟩
    refine .unchanged hError ⟨physical, (h.onDelta hContent).onward hOnward⟩ ?_
    exact ⟨_, hOnward.store⟩
  intro placement auth' fs hOk
  rcases hOk with ⟨rfl, hOnward, rfl⟩
  have hLive := (h.onDelta hOnly).onward hOnward
  have hStore := hOnward.store
  have hNext := hSplice.onContent (boundContent (exactContent files physical b) physical a)
  have hAdopt : adoptPhysicalDelta (boundContent (exactContent files physical b) physical a) delta =
      boundContent (exactContent files physical b) physical b := by
    rw [adoptPhysicalDelta, hDelta.new.1, hDelta.new.2]
    rfl
  have hStep := applyPreparedSplice_run sha256 hNext.version hNext.after hNext.physical rfl
  rw [hAdopt] at hStep
  have hTiled := hSplice.tiles.tiled h.recoverable.tiled
  have hLogged := logged_splice (h.onDelta hOnly).sound h.recoverable.physicalLimit hNext
    (.physical (boundContent (exactContent files physical b) physical b))
  obtain ⟨left, rfl⟩ := hOnward
  have hCommit := hLive.commitRecord hLogged hTiled exactContent_holds
    (withVersion_frame _ _ _ _ _).2.2 hStep
  refine hCommit.mono ?_ ?_ ?_
  · intro image hImage
    refine hImage.imp (fun hOld => ?_) fun hNew => ⟨⟨_, hR⟩, hNew.recovers⟩
    have hBack := hOld.onContent (boundContent files physical a)
    have hSelf : ((withDelta auth (exactContent files physical b) physical a).store).onContent
        (boundContent files physical a) = auth.store := onContent_self h.backend
    rw [hSelf] at hBack
    exact hBack.recovers
  · intro outcome auth' fs hOk
    rcases hOk with ⟨rfl, hLive', hStore⟩
    exact ⟨hR, ⟨physical, hLive'⟩, hStore⟩
  · intro e auth' fs hError
    rcases hError with ⟨hError, hLive', hStore⟩ | ⟨rfl, hPoisoned, hRecoverable⟩
    · exact .unchanged (.inl hError) ⟨physical, hLive'⟩ ⟨_, hStore⟩
    · exact .log hPoisoned ⟨_, hR⟩ hRecoverable.recovers

/-- What a fresh splice is in the model. -/
theorem step_spliced (h : Live sha256 auth files physical a) {b : V2AvlSequence}
    {prepared : PreparedSplice} {delta : PhysicalDelta}
    (hSplice : FreshSplice sha256 auth.store physical a b delta prepared) {operation : Operation}
    {old : Bytes}
    (hCommit : (auth.store.view a).commitOf sha256 operation = some ⟨prepared.history,
      prepared.parent, prepared.requestId, prepared.binding, prepared.digest,
      some (editBytes old prepared.offset prepared.deleteLen prepared.insert)⟩)
    (hBytes : bytesOf b (.balancedV2 delta.root.nodeId prepared.len) =
      some (editBytes old prepared.offset prepared.deleteLen prepared.insert))
    (hLen : prepared.len =
      (editBytes old prepared.offset prepared.deleteLen prepared.insert).length) :
    HistoryModel.Step sha256 (auth.store.view a) operation
      (.commit (.committed ⟨prepared.history, prepared.version, prepared.parent⟩))
      ((splicedStore auth files physical a b prepared delta).view b) := by
  obtain ⟨result, hDelta⟩ := hSplice.applied
  have hInv : StoreInv (auth.store.onContent (boundContent (exactContent files physical b)
      physical a)) := h.recoverable.inv.onContent
  have hView : (splicedStore auth files physical a b prepared delta).view b =
      (auth.store.view a).record ⟨prepared.history, prepared.parent, prepared.requestId,
        prepared.binding, prepared.digest,
        some (editBytes old prepared.offset prepared.deleteLen prepared.insert)⟩
        (editBytes old prepared.offset prepared.deleteLen prepared.insert) :=
    view_withVersion hInv h.recoverable.roots hDelta.leads.grows hSplice.fresh.onContent rfl
      hBytes hLen
  have hVersion : (⟨prepared.history, prepared.version, prepared.parent⟩ : Version) =
      (auth.store.view a).freshVersion ⟨prepared.history, prepared.parent, prepared.requestId,
        prepared.binding, prepared.digest,
        some (editBytes old prepared.offset prepared.deleteLen prepared.insert)⟩ := by
    rw [HistoryModel.freshVersion, hSplice.version, h.recoverable.inv.catalogue.nextVersion, view,
      List.length_map]
  rw [hView, hVersion]
  refine .committed hCommit ?_ rfl ?_
  · exact admits_view h.recoverable.inv hSplice.fresh
  · intro request hSome
    rw [view_requests]
    exact (hSplice.fresh.request request hSome).2

/-- The splice of a version. -/
theorem Live.splice (h : Live sha256 auth files physical a) {history : HistoryId}
    {parent : Option VersionId} {offset deleteLen : Nat} {insert : Bytes}
    (requestId binding : Option Bytes)
    (hFits : SpliceFits sha256 auth.store history parent offset deleteLen insert) :
    ∃ s' b, Served sha256 (WritableHistoryAuthority.splice sha256 history parent offset deleteLen
        insert requestId binding) auth files a s' b fun outcome => HistoryModel.Step sha256
      (auth.store.view a) (.splice history parent offset deleteLen insert requestId binding)
      (.commit outcome) (s'.view b) := by
  cases hPreview : auth.store.previewSplice sha256 history parent offset deleteLen insert requestId
      binding with
  | error e =>
    refine ⟨auth.store, a, h.served_rejected (e := e) ?_⟩
    refine (bind_run_quiet h.requireUnpoisoned_run).trans ?_
    refine (bind_run_quiet get_run).trans ?_
    rw [hPreview]
    exact bind_run_error attempt_rejects
  | ok preview =>
    obtain ⟨parentRoot, parentLen, resultLen, found, hParent, hCoordinates, hClass, hKnown,
      hUnknown⟩ := previewSplice_eq_ok hPreview
    obtain ⟨bytes, hView, hBytes⟩ := parentOf_view a hParent
    have hCommit : (auth.store.view a).commitOf sha256
        (.splice history parent offset deleteLen insert
        requestId binding) = _ :=
      spliceCommit_view hView (spliceParent_root hParent) hCoordinates requestId binding
    by_cases hFound : found = .unknown
    · obtain ⟨planned, rfl⟩ := hUnknown hFound
      obtain ⟨b, delta, hSplice⟩ := previewSplice_fresh h.recoverable.inv h.overArena hFits hPreview
      obtain ⟨parentRoot', parentLen', -, hReplay, -, old, hOld, hOldLen, hEdited⟩ :=
        hSplice.coordinates
      have hSame := spliceParent_of_replay hReplay
      dsimp only at hSame hReplay hEdited
      rw [hParent] at hSame
      cases hSame
      have hContent := hBytes hReplay
      rw [hOld] at hContent
      subst hContent
      have hLen : resultLen = (editBytes old offset deleteLen insert).length := by
        obtain ⟨hOffset, hDelete, -, hLen, -⟩ := checkSpliceCoordinates_eq_ok hCoordinates
        rw [hLen, ← hOldLen, editBytes]
        simp only [List.length_append, List.length_take, List.length_drop]
        omega
      refine ⟨splicedStore auth files physical a b ⟨⟨auth.store.nextVersionId⟩,
        auth.store.nextVersionId + 1, history, parent, parentRoot, offset, deleteLen, insert,
          resultLen,
        requestId, binding, historySpliceDigest sha256 history parent offset deleteLen insert
          binding,
        planned⟩ delta, b, ?_⟩
      refine Served.bind_quiet h.requireUnpoisoned_run ?_
      refine Served.bind_quiet get_run ?_
      refine Served.bind_quiet (by rw [hPreview]; exact attempt_run _) ?_
      exact h.spliceFresh hSplice (step_spliced h hSplice hCommit hEdited hLen)
    · have hStep := step_known h.recoverable.inv.ledger hCommit hClass hFound
      refine ⟨auth.store, a, h.served_quiet (r := knownOutcome found) ?_ hStep⟩
      refine (bind_run_quiet h.requireUnpoisoned_run).trans ?_
      refine (bind_run_quiet get_run).trans ?_
      rw [hPreview, hKnown hFound]
      cases found with
      | unknown => exact absurd rfl hFound
      | replayed version => exact bind_run_quiet (attempt_run _)
      | retired => exact bind_run_quiet (attempt_run _)

/-- A commit of the model goes by what is committed. -/
theorem step_commit_congr {m m' : HistoryModel} {operation other : Operation}
    {outcome : CommitOutcome} (h : HistoryModel.Step sha256 m operation (.commit outcome) m')
    (hSame : m.commitOf sha256 other = m.commitOf sha256 operation) :
    HistoryModel.Step sha256 m other (.commit outcome) m' := by
  cases h with
  | committed hCommit hAdmits hBytes hNew =>
    exact .committed (hSame.trans hCommit) hAdmits hBytes hNew
  | replayed hCommit hRequest hReceipt hVersion =>
    exact .replayed (hSame.trans hCommit) hRequest hReceipt hVersion
  | replayedRetired hCommit hRequest hReceipt =>
    exact .replayedRetired (hSame.trans hCommit) hRequest hReceipt

/-- An append is a splice at the end of its parent. -/
theorem Live.append (h : Live sha256 auth files physical a) {history : HistoryId}
    {parent : Option VersionId} {bytes : Bytes} (requestId binding : Option Bytes)
    (hFits : ∀ offset, auth.store.appendOffset history parent = .ok offset →
      SpliceFits sha256 auth.store history parent offset 0 bytes) :
    ∃ s' b, Served sha256 (WritableHistoryAuthority.append sha256 history parent bytes requestId
        binding) auth files a s' b fun outcome => HistoryModel.Step sha256 (auth.store.view a)
      (.append history parent bytes requestId binding) (.commit outcome) (s'.view b) := by
  cases hOffset : auth.store.appendOffset history parent with
  | error e =>
    refine ⟨auth.store, a, h.served_rejected (e := e) ?_⟩
    refine (bind_run_quiet h.requireUnpoisoned_run).trans ?_
    refine (bind_run_quiet get_run).trans ?_
    rw [hOffset]
    exact bind_run_error attempt_rejects
  | ok offset =>
    obtain ⟨s', b, hServed⟩ := h.splice requestId binding
      (hFits offset hOffset)
    obtain ⟨⟨parentRoot, parentLen⟩, hParent, hLen⟩ := bind_eq_ok.mp hOffset
    cases hLen
    obtain ⟨content, hView, -⟩ := parentOf_view a hParent
    refine ⟨s', b, ?_⟩
    refine Served.bind_quiet h.requireUnpoisoned_run ?_
    refine Served.bind_quiet get_run ?_
    refine Served.bind_quiet (by rw [hOffset]; exact attempt_run _) ?_
    refine hServed.imp fun outcome hStep => step_commit_congr hStep ?_
    change ((auth.store.view a).parentOf history parent).bind _ = _
    rw [hView]
    rfl

/-! ### New histories -/

theorem historyOfBinding_eq_some {s : PersistentHistoryStore} {bytes : Bytes} {id : HistoryId}
    (h : s.historyOfBinding bytes = some id) : s.historyBindings.get id = some bytes := by
  obtain ⟨⟨key, bound⟩, hFind, rfl⟩ := Option.map_eq_some_iff.mp h
  have hBound := List.find?_some hFind
  have hMem := List.mem_of_find?_eq_some hFind
  rw [KeyMap.mem_entries] at hMem
  simp only [decide_eq_true_eq] at hBound
  rw [hMem, hBound]

theorem historyOfBinding_eq_none {s : PersistentHistoryStore} {bytes : Bytes}
    (h : s.historyOfBinding bytes = none) (id : HistoryId) :
    s.historyBindings.get id ≠ some bytes := by
  intro hGet
  unfold historyOfBinding at h
  rw [Option.map_eq_none_iff, List.find?_eq_none] at h
  have hEntry := h (id, bytes) (KeyMap.mem_entries.mpr hGet)
  simp at hEntry

theorem view_history (s : PersistentHistoryStore) (a : V2AvlSequence) {i : Nat}
    (h : i < s.nextHistoryId) : (s.view a).histories[i]? = some (s.historyBindings.get ⟨i⟩) := by
  rw [view, List.getElem?_map, List.getElem?_range h]
  rfl

theorem finishCreate_run {s : PersistentHistoryStore} (h : StoreInv s)
    (hLimit : s.nextHistoryId + 1 < width 64) (binding : Option Bytes) :
    WritableHistoryAuthority.finishCreate ⟨s.nextHistoryId⟩ binding
        { s with nextHistoryId := s.nextHistoryId + 1 } =
      .ok ⟨s.nextHistoryId⟩ (s.withHistory binding) := by
  have hNew : failIf ((⟨s.nextHistoryId⟩ : HistoryId) ∈ s.histories)
      (HistoryError.invalid "prepared history identity is already applied") = .ok () := by
    rw [failIf_neg]
    intro hMem
    exact Nat.lt_irrefl _ ((h.catalogue.histories _).mp hMem)
  have hAdopted : okOr (checkedAdd 64 s.nextHistoryId 1)
      (HistoryError.invalid "prepared history identity exceeds the allocation counter") =
        .ok (s.nextHistoryId + 1) := by
    rw [checkedAdd_of_lt hLimit, okOr_some]
  have hCounter : failIf (s.nextHistoryId + 1 ≠ s.nextHistoryId + 1) (HistoryError.invalid
      "prepared history identity disagrees with the allocation counter") = .ok () := by
    rw [failIf_neg (by simp)]
  refine (Lib.bind_run_ok (getStore_run _)).trans ?_
  refine (attempt_bind_ok hNew).trans ((attempt_bind_ok hAdopted).trans ?_)
  exact (attempt_bind_ok hCounter).trans rfl

theorem view_histories_new {s : PersistentHistoryStore} (a : V2AvlSequence) {bytes : Bytes}
    (hNone : s.historyOfBinding bytes = none) :
    some bytes ∉ (s.view a).histories := by
  intro hMem
  obtain ⟨i, -, hGet⟩ := List.mem_map.mp hMem
  exact historyOfBinding_eq_none hNone _ hGet

/-- The counter of the histories goes back when the write is rejected. -/
theorem Live.createFresh (h : Live sha256 auth files physical a) (binding : Option Bytes)
    (hBinding : FreshBinding auth.store binding) :
    ∃ s' b, Served sha256 (WritableHistoryAuthority.createFresh sha256 binding) auth files a s' b
      fun id => id = ⟨auth.store.nextHistoryId⟩ ∧
        s'.view b = (auth.store.view a).createHistory binding := by
  have hStart : ∀ {e : HistoryError} {x : AuthorityM HistoryId},
      x auth files = ([], .error (.rejected e), auth) → ∃ s' b, Served sha256 x auth files a s' b
        fun id => id = ⟨auth.store.nextHistoryId⟩ ∧
          s'.view b = (auth.store.view a).createHistory binding :=
    fun hRun => ⟨auth.store, a, h.served_rejected hRun⟩
  cases hFrame : recordFrame sha256 (.createHistory ⟨auth.store.nextHistoryId⟩ binding) with
  | error e =>
    obtain ⟨error, rfl⟩ := recordFrame_rejects hFrame
    refine hStart (e := error) ?_
    refine (bind_run_quiet get_run).trans ?_
    exact bind_run_error (by rw [hFrame]; exact attempt_run _)
  | ok frame =>
    by_cases hLimit : auth.store.nextHistoryId + 1 < width 64
    · have hLogged := logged_create physical h.sound hBinding hLimit
      refine ⟨auth.store.withHistory binding, a, ?_⟩
      refine Served.bind_quiet get_run ?_
      refine Served.bind_quiet (r := frame) (by rw [hFrame]; exact attempt_run _) ?_
      refine Served.bind_quiet (r := auth.store.nextHistoryId + 1) ?_ ?_
      · rw [checkedAdd_of_lt hLimit, okOr_some]
        exact attempt_run _
      refine CrashSafe.bind_quiet (modify_run _) ?_
      have hWrite := Recoverable.writeAndSync { auth with
        store := { auth.store with nextHistoryId := auth.store.nextHistoryId + 1 } }
        h.recoverable h.hot hLogged h.recoverable.tiled h.recoverable.holds hFrame
      have hResult : ∃ id : HistoryId, id = ⟨auth.store.nextHistoryId⟩ ∧
          (auth.store.withHistory binding).view a = (auth.store.view a).createHistory binding :=
        ⟨_, rfl, view_withHistory h.recoverable.inv binding⟩
      have hSafe := hWrite.mono_along fun _ hImage => hImage.imp Recoverable.recovers
        fun hNew => And.intro hResult hNew.recovers
      refine CrashSafe.bind (CrashSafe.catching hSafe ?_) ?_
      · intro e auth' fs hError
        rcases hError with ⟨next, left, rfl, rfl, rfl, hOver, hRecoverable⟩ |
          ⟨rfl, hStore, hRecoverable⟩
        · refine CrashSafe.bind_quiet (a := PUnit.unit) (modify_run _) ?_
          refine .throw (.inl hRecoverable.recovers) ?_
          refine .unchanged (.inl ⟨_, rfl⟩) ⟨physical, hRecoverable, ?_, hOver⟩ h.backend_self
          rw [boundContent_setHot]
          exact h.backend
        · refine CrashSafe.throw (.inr ⟨hResult, hRecoverable.recovers⟩) ?_
          exact .log (by rw [hStore]; rfl) hResult hRecoverable.recovers
      · intro _ auth' fs hOk
        rcases hOk with ⟨next, left, rfl, rfl, hOver, hRecoverable⟩
        have hApply : applyAfterBarrier
            (WritableHistoryAuthority.finishCreate ⟨auth.store.nextHistoryId⟩ binding)
            { auth with
              store := { auth.store with nextHistoryId := auth.store.nextHistoryId + 1 }
              hot := next
              answers := left }
            (setFile files (.hot auth.generation) (some next.file)) =
              ([], .ok ⟨auth.store.nextHistoryId⟩, { auth with
                hot := next
                store := auth.store.withHistory binding
                answers := left }) := by
          unfold applyAfterBarrier
          rw [finishCreate_run h.recoverable.inv hLimit]
        refine .of_quiet hApply (.inr ⟨hResult, hRecoverable.recovers⟩) ?_
        refine ⟨⟨rfl, view_withHistory h.recoverable.inv binding⟩, ⟨physical, hRecoverable, ?_,
          hOver⟩, rfl⟩
        rw [boundContent_setHot]
        exact h.backend
    · refine hStart (e := .overflow "persistent history count exceeds u64") ?_
      refine (bind_run_quiet get_run).trans ?_
      refine (bind_run_quiet (a := frame) (by rw [hFrame]; exact attempt_run _)).trans ?_
      have hNone : checkedAdd 64 auth.store.nextHistoryId 1 = none := if_neg hLimit
      rw [hNone]
      exact bind_run_error (attempt_run _)

/-- The creation of a history, or the one that has the binding. -/
theorem Live.createHistory (h : Live sha256 auth files physical a) (binding : Option Bytes) :
    ∃ s' b, Served sha256 (WritableHistoryAuthority.createHistory sha256 binding) auth files a s' b
      fun id => HistoryModel.Step sha256 (auth.store.view a) (.createHistory binding) (.history id)
        (s'.view b) := by
  cases hValid : validateOptionalBinding binding with
  | error e =>
    refine ⟨auth.store, a, h.served_rejected (e := e) ?_⟩
    refine (bind_run_quiet h.requireUnpoisoned_run).trans ?_
    refine (bind_run_quiet get_run).trans ?_
    rw [hValid]
    exact bind_run_error attempt_rejects
  | ok valid =>
    have hFits := validateOptionalBinding_eq_ok.mp hValid
    cases hKnown : binding.bind auth.store.historyOfBinding with
    | some existing =>
      refine ⟨auth.store, a, h.served_quiet (r := existing) ?_ ?_⟩
      · refine (bind_run_quiet h.requireUnpoisoned_run).trans ?_
        refine (bind_run_quiet get_run).trans ?_
        rw [hValid]
        refine (bind_run_quiet (attempt_run _)).trans ?_
        rw [hKnown]
        rfl
      · obtain ⟨bytes, rfl, hFound⟩ := Option.bind_eq_some_iff.mp hKnown
        have hGet := historyOfBinding_eq_some hFound
        obtain ⟨hMem, -⟩ := h.recoverable.inv.bindings.history _ _ hGet
        refine .known ?_
        rw [view_history _ _ ((h.recoverable.inv.catalogue.histories _).mp hMem)]
        exact congrArg some hGet
    | none =>
      have hNew : ∀ bytes, binding = some bytes → auth.store.historyOfBinding bytes = none := by
        intro bytes hSome
        rw [hSome] at hKnown
        exact hKnown
      obtain ⟨s', b, hServed⟩ := h.createFresh binding fun bytes hSome =>
        ⟨hFits bytes hSome, fun id => historyOfBinding_eq_none (hNew bytes hSome) id⟩
      refine ⟨s', b, ?_⟩
      refine Served.bind_quiet h.requireUnpoisoned_run ?_
      refine Served.bind_quiet get_run ?_
      refine Served.bind_quiet (by rw [hValid]; exact attempt_run _) ?_
      rw [hKnown]
      refine hServed.imp ?_
      rintro id ⟨rfl, hView⟩
      rw [hView]
      have hCount : auth.store.nextHistoryId = (auth.store.view a).histories.length := by
        rw [view, List.length_map, List.length_range]
      rw [hCount]
      refine .created ?_
      cases binding with
      | none => exact .inl rfl
      | some bytes => exact .inr (view_histories_new a (hNew bytes rfl))

end Operations

/-! ## Any operation -/

section Perform

variable (sha256 : Bytes → Digest)

/-- The call of the authority for an operation. -/
def perform : Operation → AuthorityM Answer
  | .createHistory binding => do
    let id ← WritableHistoryAuthority.createHistory sha256 binding
    return .history id
  | .splice history parent offset deleteLen insert requestId binding => do
    let outcome ← WritableHistoryAuthority.splice sha256 history parent offset deleteLen insert
      requestId binding
    return .commit outcome
  | .append history parent bytes requestId binding => do
    let outcome ← WritableHistoryAuthority.append sha256 history parent bytes requestId binding
    return .commit outcome
  | .fork history parent requestId binding => do
    let outcome ← WritableHistoryAuthority.fork sha256 history parent requestId binding
    return .commit outcome
  | .expire version => do
    let outcome ← WritableHistoryAuthority.expire sha256 version
    return .expire outcome
  | .retire requestId => do
    WritableHistoryAuthority.retire sha256 requestId
    return .retired

/-- The content files have room for what an operation adds to them. -/
def Operation.Fits (s : PersistentHistoryStore) : Operation → Prop
  | .splice history parent offset deleteLen insert _ _ =>
    SpliceFits sha256 s history parent offset deleteLen insert
  | .append history parent bytes _ _ => ∀ offset, s.appendOffset history parent = .ok offset →
      SpliceFits sha256 s history parent offset 0 bytes
  | _ => True

variable {sha256} {files : HistoryFiles} {physical : Nat} {a : V2AvlSequence}
  {auth : WritableHistoryAuthority}

/-- Every operation on a live authority is a step of the model, or is rejected. -/
theorem Live.perform (h : Live sha256 auth files physical a) (operation : Operation)
    (hFits : operation.Fits sha256 auth.store) :
    ∃ s' b, Served sha256 (perform sha256 operation) auth files a s' b fun answer =>
      HistoryModel.Step sha256 (auth.store.view a) operation answer (s'.view b) := by
  cases operation with
  | createHistory binding =>
    obtain ⟨s', b, hServed⟩ := h.createHistory binding
    exact ⟨s', b, hServed.map fun _ hStep => hStep⟩
  | splice history parent offset deleteLen insert requestId binding =>
    obtain ⟨s', b, hServed⟩ := h.splice requestId binding hFits
    exact ⟨s', b, hServed.map fun _ hStep => hStep⟩
  | append history parent bytes requestId binding =>
    obtain ⟨s', b, hServed⟩ := h.append requestId binding hFits
    exact ⟨s', b, hServed.map fun _ hStep => hStep⟩
  | fork history parent requestId binding =>
    obtain ⟨s', b, hServed⟩ := h.fork history parent requestId binding
    exact ⟨s', b, hServed.map fun _ hStep => hStep⟩
  | expire version =>
    obtain ⟨s', b, hServed⟩ := h.expire version
    exact ⟨s', b, hServed.map fun _ hStep => hStep⟩
  | retire requestId =>
    obtain ⟨s', b, hServed⟩ := h.retire requestId
    exact ⟨s', b, hServed.map fun _ hStep => hStep⟩

/-- A poisoned authority refuses every call in front of its first step. -/
theorem requireUnpoisoned_refuses (hPoisoned : auth.store.poisoned = true) {α : Type}
    {f : Unit → AuthorityM α} :
    (requireUnpoisonedDurable >>= f) auth files = ([], .error .recoveryRequired, auth) := by
  refine bind_run_error ((bind_run_quiet get_run).trans ?_)
  rw [failIf_pos hPoisoned]
  rfl

theorem perform_refuses (hPoisoned : auth.store.poisoned = true) (operation : Operation) :
    History.perform sha256 operation auth files = ([], .error .recoveryRequired, auth) := by
  cases operation with
  | _ => exact bind_run_error (requireUnpoisoned_refuses hPoisoned)

end Perform

end TulyaStore.History
