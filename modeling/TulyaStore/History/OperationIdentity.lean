import TulyaStore.History.Mutations
import TulyaStore.Lib.Preimage
import TulyaStore.V2.CommitCodec

/-!
# The identity of an operation

A request is bound to the digest of its operation (`history_splice_digest`,
`history_fork_digest`, `checkpoint_operation_digest`), and a retry replays when the digests are
equal. Here the digests are as good as the operations: two mutations of one store have equal
digests exactly when they are the same logical operation (`LogicalOperation.digest_eq_iff`), and
two checkpoints exactly when they agree on what they publish (`checkpointOperationDigest_eq_iff`),
as long as the messages hashed for the two are no collision. The ledger answers a mutation by that
digest and by no other (`HistoryMutation.decided`).
-/

namespace TulyaStore.History

open Lib Sequence

/-! ## Operations -/

/-- What an operation does, with the version it creates and the request that asks for it left
out. -/
inductive LogicalOperation where
  | splice (history : HistoryId) (parent : Option VersionId) (offset deleteLen : Nat)
      (insert : Bytes) (binding : Option Bytes)
  | fork (history : HistoryId) (parent : VersionId) (binding : Option Bytes)
deriving DecidableEq, Repr

/-- The mutations of a store that take a request. -/
inductive HistoryMutation where
  | splice (history : HistoryId) (parent : Option VersionId) (offset deleteLen : Nat)
      (insert : Bytes) (binding : Option Bytes)
  | append (history : HistoryId) (parent : Option VersionId) (bytes : Bytes)
      (binding : Option Bytes)
  | fork (history : HistoryId) (parent : VersionId) (binding : Option Bytes)
deriving DecidableEq, Repr

/-- An append is the splice at the end of its parent. -/
def HistoryMutation.logical (store : PersistentHistoryStore) :
    HistoryMutation → Except HistoryError LogicalOperation
  | .splice history parent offset deleteLen insert binding =>
    .ok (.splice history parent offset deleteLen insert binding)
  | .append history parent bytes binding => do
    let offset ← store.appendOffset history parent
    return .splice history parent offset 0 bytes binding
  | .fork history parent binding => .ok (.fork history parent binding)

section Digests

variable (sha256 : Bytes → Digest)

def LogicalOperation.digest : LogicalOperation → Digest
  | .splice history parent offset deleteLen insert binding =>
    historySpliceDigest sha256 history parent offset deleteLen insert binding
  | .fork history parent binding => historyForkDigest sha256 history parent binding

/-- The digest a mutation is looked up with in the ledger. -/
def HistoryMutation.digest (store : PersistentHistoryStore) (mutation : HistoryMutation) :
    Except HistoryError Digest := do
  let operation ← mutation.logical store
  return operation.digest sha256

/-- The mutation with a request. -/
def HistoryMutation.run (mutation : HistoryMutation) (requestId : Option Bytes) :
    EStateM HistoryError PersistentHistoryStore CommitOutcome :=
  match mutation with
  | .splice history parent offset deleteLen insert binding =>
    PersistentHistoryStore.splice sha256 history parent offset deleteLen insert requestId binding
  | .append history parent bytes binding =>
    PersistentHistoryStore.append sha256 history parent bytes requestId binding
  | .fork history parent binding =>
    PersistentHistoryStore.fork sha256 history parent requestId binding

end Digests

/-- What is hashed for an operation. -/
def LogicalOperation.preimage : LogicalOperation → Bytes
  | .splice history parent offset deleteLen insert binding =>
    historySpliceDigestDomain ++ leBytes 8 history.id ++ digestedParent parent ++
      leBytes 8 offset ++ leBytes 8 deleteLen ++ leBytes 8 (saturatedLen insert) ++ insert ++
      digestedBinding binding
  | .fork history parent binding =>
    historyForkDigestDomain ++ leBytes 8 history.id ++ leBytes 8 parent.id ++
      digestedBinding binding

/-- The numbers of an operation are of 64 bits, and so are the lengths of its bytes. -/
def LogicalOperation.Fits : LogicalOperation → Prop
  | .splice history parent offset deleteLen insert binding =>
    history.id < width 64 ∧ (∀ id ∈ parent, id.id < width 64) ∧ offset < width 64 ∧
      deleteLen < width 64 ∧ insert.length < width 64 ∧ ∀ bytes ∈ binding, bytes.length < width 64
  | .fork history parent binding =>
    history.id < width 64 ∧ parent.id < width 64 ∧ ∀ bytes ∈ binding, bytes.length < width 64

/-! ## Equal preimages -/

section Preimages

variable {xs ys : Bytes}

theorem HistoryId.eq_of_id {a b : HistoryId} (h : a.id = b.id) : a = b := by
  cases a
  exact congrArg HistoryId.mk h

theorem VersionId.eq_of_id {a b : VersionId} (h : a.id = b.id) : a = b := by
  cases a
  exact congrArg VersionId.mk h

theorem saturatedLen_of_lt {bytes : Bytes} (h : bytes.length < width 64) :
    saturatedLen bytes = bytes.length := by
  rw [saturatedLen, tryFrom_of_lt h, Option.getD_some]

theorem digestedParent_append_inj {a b : Option VersionId} (ha : ∀ id ∈ a, id.id < width 64)
    (hb : ∀ id ∈ b, id.id < width 64) (h : digestedParent a ++ xs = digestedParent b ++ ys) :
    a = b ∧ xs = ys := by
  cases a with
  | none =>
    cases b with
    | none => exact ⟨rfl, List.append_cancel_left h⟩
    | some right => exact absurd (List.head_eq_of_cons_eq h) (by decide)
  | some left =>
    cases b with
    | none => exact absurd (List.head_eq_of_cons_eq h) (by decide)
    | some right =>
      obtain ⟨hId, hRest⟩ := leBytes_append_inj (ha left rfl) (hb right rfl)
        (List.tail_eq_of_cons_eq h)
      exact ⟨congrArg some (VersionId.eq_of_id hId), hRest⟩

theorem digestedBinding_inj {a b : Option Bytes} (ha : ∀ bytes ∈ a, bytes.length < width 64)
    (hb : ∀ bytes ∈ b, bytes.length < width 64) (h : digestedBinding a = digestedBinding b) :
    a = b := by
  cases a with
  | none =>
    cases b with
    | none => rfl
    | some right => exact absurd (List.head_eq_of_cons_eq h) (by decide)
  | some left =>
    cases b with
    | none => exact absurd (List.head_eq_of_cons_eq h) (by decide)
    | some right =>
      have hTail := List.tail_eq_of_cons_eq h
      rw [saturatedLen_of_lt (ha left rfl), saturatedLen_of_lt (hb right rfl)] at hTail
      obtain ⟨-, hBytes⟩ := leBytes_append_inj (ha left rfl) (hb right rfl) hTail
      exact congrArg some hBytes

/-- The domains differ in front of everything else. -/
theorem domain_ne (xs ys : Bytes) :
    historySpliceDigestDomain ++ xs ≠ historyForkDigestDomain ++ ys := by
  intro h
  have hTake := congrArg (List.take 23) h
  rw [List.take_append_of_le_length (by decide), List.take_append_of_le_length (by decide)] at hTake
  revert hTake
  decide

theorem preimage_injective {a b : LogicalOperation} (ha : a.Fits) (hb : b.Fits)
    (h : a.preimage = b.preimage) : a = b := by
  cases a with
  | splice history parent offset deleteLen insert binding =>
    cases b with
    | splice history' parent' offset' deleteLen' insert' binding' =>
      obtain ⟨hHistory, hParent, hOffset, hDelete, hInsert, hBinding⟩ := ha
      obtain ⟨hHistory', hParent', hOffset', hDelete', hInsert', hBinding'⟩ := hb
      simp only [LogicalOperation.preimage, List.append_assoc, saturatedLen_of_lt hInsert,
        saturatedLen_of_lt hInsert'] at h
      obtain ⟨hHistoryEq, h⟩ := leBytes_append_inj hHistory hHistory' (List.append_cancel_left h)
      obtain ⟨hParentEq, h⟩ := digestedParent_append_inj hParent hParent' h
      obtain ⟨hOffsetEq, h⟩ := leBytes_append_inj hOffset hOffset' h
      obtain ⟨hDeleteEq, h⟩ := leBytes_append_inj hDelete hDelete' h
      obtain ⟨hInsertEq, h⟩ := prefixed_append_inj hInsert hInsert' h
      have hBindingEq := digestedBinding_inj hBinding hBinding' h
      rw [HistoryId.eq_of_id hHistoryEq, hParentEq, hOffsetEq, hDeleteEq, hInsertEq, hBindingEq]
    | fork history' parent' binding' =>
      simp only [LogicalOperation.preimage, List.append_assoc] at h
      exact absurd h (domain_ne _ _)
  | fork history parent binding =>
    cases b with
    | splice history' parent' offset' deleteLen' insert' binding' =>
      simp only [LogicalOperation.preimage, List.append_assoc] at h
      exact absurd h.symm (domain_ne _ _)
    | fork history' parent' binding' =>
      obtain ⟨hHistory, hParent, hBinding⟩ := ha
      obtain ⟨hHistory', hParent', hBinding'⟩ := hb
      simp only [LogicalOperation.preimage, List.append_assoc] at h
      obtain ⟨hHistoryEq, h⟩ := leBytes_append_inj hHistory hHistory' (List.append_cancel_left h)
      obtain ⟨hParentEq, h⟩ := leBytes_append_inj hParent hParent' h
      have hBindingEq := digestedBinding_inj hBinding hBinding' h
      rw [HistoryId.eq_of_id hHistoryEq, VersionId.eq_of_id hParentEq, hBindingEq]

end Preimages

/-! ## Digests in the ledger -/

section Ledger

open PersistentHistoryStore

variable {sha256 : Bytes → Digest} {store store' : PersistentHistoryStore} {request : Bytes}

/-- The digest a request is bound to, in the active or in the retired ledger. -/
def PersistentHistoryStore.boundDigest (store : PersistentHistoryStore) (request : Bytes) :
    Option Digest :=
  match store.activeRequests.get request with
  | some active => some active.digest
  | none => store.retiredRequests.get request

/-- An answer to a request under a digest: a commit binds an unbound request to the digest, any
other answer finds the request bound to it. -/
def Decided (store store' : PersistentHistoryStore) (request : Bytes) (digest : Digest) :
    CommitOutcome → Prop
  | .committed _ => store.boundDigest request = none ∧ store'.boundDigest request = some digest
  | _ => store.boundDigest request = some digest ∧ store' = store

/-- Whatever the answer, the request is bound to the digest behind it. -/
theorem Decided.bound {digest : Digest} {outcome : CommitOutcome}
    (h : Decided store store' request digest outcome) :
    store'.boundDigest request = some digest := by
  cases outcome with
  | committed version => exact h.2
  | replayed version => exact h.2 ▸ h.1
  | retired => exact h.2 ▸ h.1

/-- A bound request is answered under its own digest only, and without a commit. -/
theorem Decided.of_bound {digest bound : Digest} {outcome : CommitOutcome}
    (h : Decided store store' request digest outcome)
    (hBound : store.boundDigest request = some bound) :
    bound = digest ∧ ∀ version, outcome ≠ .committed version := by
  cases outcome with
  | committed version =>
    rw [Decided, hBound] at h
    exact absurd h.1 (Option.some_ne_none bound)
  | replayed version => exact ⟨Option.some.inj (hBound.symm.trans h.1), fun _ hEq => by cases hEq⟩
  | retired => exact ⟨Option.some.inj (hBound.symm.trans h.1), fun _ hEq => by cases hEq⟩

theorem boundDigest_of_new (hInv : LedgerInv store) (hNew : request ∉ store.receiptOrder) :
    store.boundDigest request = none := by
  rw [hInv.tables.mem, not_or] at hNew
  have hActive : store.activeRequests.get request = none :=
    Option.eq_none_iff_forall_ne_some.mpr fun entry hSome => hNew.1 ⟨entry, hSome⟩
  have hRetired : store.retiredRequests.get request = none :=
    Option.eq_none_iff_forall_ne_some.mpr fun digest hSome => hNew.2 ⟨digest, hSome⟩
  rw [boundDigest, hActive, hRetired]

theorem boundDigest_of_known {digest : Digest} {found : RequestClass}
    (hInv : LedgerInv store)
    (h : store.classifyRequest (some request) digest = .ok found) (hKnown : found ≠ .unknown) :
    store.boundDigest request = some digest := by
  obtain ⟨_, hRequest, hCases⟩ := classifyRequest_known h hKnown
  obtain rfl := Option.some.inj hRequest
  rcases hCases with ⟨id, -, hActive, -, -⟩ | ⟨hRetired, -⟩
  · rw [boundDigest, hActive]
  · cases hActive : store.activeRequests.get request with
    | none => rw [boundDigest, hActive, hRetired]
    | some active =>
      rw [hInv.tables.disjoint hActive] at hRetired
      cases hRetired

/-- The last part of a commit binds its request to its digest. -/
theorem recordVersion_bound (h : LedgerInv store) (hNew : request ∉ store.receiptOrder)
    (next : Nat) (backend : SequenceBackend) (record : VersionRecord) (digest : Digest)
    (binding : Option Bytes) :
    ({ store with nextVersionId := next, backend }.recordVersion record (some request) digest
      binding).boundDigest request = some digest := by
  let entered := { store with nextVersionId := next, backend, versions := store.versions ++ [record] }
  have hPush := pushFreshReceipt_pushed (s := entered) ⟨digest, record.version.id⟩ h.tables
    h.horizon hNew
  have hMem : request ∈
      (entered.pushFreshReceipt request digest record.version.id).receiptOrder := by
    rw [hPush.order]
    split <;> exact List.mem_append_right _ (List.mem_singleton_self request)
  have hActive := hPush.active request hMem
  rw [KeyMap.get_insert_self] at hActive
  have hBound : (entered.pushFreshReceipt request digest record.version.id).boundDigest request =
      some digest := by
    rw [boundDigest, hActive]
  cases binding with
  | none => exact hBound
  | some bytes => exact hBound

theorem applyEdit_eq_ok {prepared : PreparedSplice} {durable : Bool} {root : PersistentRoot}
    (h : applyEdit sha256 prepared durable store = .ok root store') :
    ∃ backend, store' = { store with backend } := by
  unfold applyEdit at h
  split at h
  · split at h
    · cases h
    · cases h
      exact ⟨_, rfl⟩
  · cases h
  · split at h
    · cases h
      exact ⟨_, rfl⟩
    · cases h
  · split at h
    · cases h
    · cases h
      exact ⟨_, rfl⟩

theorem applyPreparedSplice_eq_ok {prepared : PreparedSplice} {durable : Bool}
    {outcome : CommitOutcome}
    (h : applyPreparedSplice sha256 prepared durable store = .ok outcome store') :
    ∃ version backend record, outcome = .committed version ∧
      store' = { store with nextVersionId := prepared.nextVersionIdAfter, backend }.recordVersion
        record prepared.requestId prepared.digest prepared.binding := by
  obtain ⟨_, _, hGet, h⟩ := bind_run_eq_ok.mp h
  cases hGet
  obtain ⟨_, _, hIdentity, h⟩ := bind_run_eq_ok.mp h
  obtain ⟨-, rfl⟩ := attempt_run_eq_ok.mp hIdentity
  obtain ⟨root, _, hEdit, h⟩ := bind_run_eq_ok.mp h
  obtain ⟨backend, rfl⟩ := applyEdit_eq_ok hEdit
  cases h
  exact ⟨_, backend, _, rfl, rfl⟩

theorem applyPreparedFork_eq_ok {prepared : PreparedFork} {outcome : CommitOutcome}
    (h : applyPreparedFork prepared store = .ok outcome store') :
    ∃ version record, outcome = .committed version ∧
      store' = { store with nextVersionId := prepared.nextVersionIdAfter }.recordVersion
        record prepared.requestId prepared.digest prepared.binding := by
  obtain ⟨_, _, hGet, h⟩ := bind_run_eq_ok.mp h
  cases hGet
  obtain ⟨_, _, hIdentity, h⟩ := bind_run_eq_ok.mp h
  obtain ⟨-, rfl⟩ := attempt_run_eq_ok.mp hIdentity
  obtain ⟨_, _, hModify, h⟩ := bind_run_eq_ok.mp h
  cases hModify
  obtain ⟨root, _, hRoot, h⟩ := bind_run_eq_ok.mp h
  obtain ⟨-, rfl⟩ := attempt_run_eq_ok.mp hRoot
  cases h
  exact ⟨_, _, rfl, rfl⟩

theorem splice_decided (hInv : LedgerInv store) {history : HistoryId} {parent : Option VersionId}
    {offset deleteLen : Nat} {insert : Bytes} {binding : Option Bytes} {outcome : CommitOutcome}
    (h : PersistentHistoryStore.splice sha256 history parent offset deleteLen insert (some request)
      binding store = .ok outcome store') :
    Decided store store' request
      (historySpliceDigest sha256 history parent offset deleteLen insert binding) outcome := by
  obtain ⟨_, _, hGet, h⟩ := bind_run_eq_ok.mp h
  cases hGet
  obtain ⟨preview, _, hAttempt, h⟩ := bind_run_eq_ok.mp h
  obtain ⟨hPreview, rfl⟩ := attempt_run_eq_ok.mp hAttempt
  obtain ⟨_, _, _, found, -, -, hClass, hKnown, hUnknown⟩ := previewSplice_eq_ok hPreview
  by_cases hFound : found = .unknown
  · obtain ⟨physical, rfl⟩ := hUnknown hFound
    subst hFound
    obtain ⟨version, backend, record, rfl, rfl⟩ := applyPreparedSplice_eq_ok h
    have hNew := (classifyRequest_unknown hInv hClass request rfl).2
    exact ⟨boundDigest_of_new hInv hNew, recordVersion_bound hInv hNew _ _ _ _ _⟩
  · have hBound := boundDigest_of_known hInv hClass hFound
    obtain rfl := hKnown hFound
    cases found with
    | unknown => exact absurd rfl hFound
    | replayed version =>
      cases h
      exact ⟨hBound, rfl⟩
    | retired =>
      cases h
      exact ⟨hBound, rfl⟩

theorem fork_decided (hInv : LedgerInv store) {history : HistoryId} {parent : VersionId}
    {binding : Option Bytes} {outcome : CommitOutcome}
    (h : PersistentHistoryStore.fork sha256 history parent (some request) binding store =
      .ok outcome store') :
    Decided store store' request (historyForkDigest sha256 history parent binding) outcome := by
  obtain ⟨_, _, hGet, h⟩ := bind_run_eq_ok.mp h
  cases hGet
  obtain ⟨preview, _, hAttempt, h⟩ := bind_run_eq_ok.mp h
  obtain ⟨hPreview, rfl⟩ := attempt_run_eq_ok.mp hAttempt
  obtain ⟨_, found, -, -, hClass, hKnown, hUnknown⟩ := previewFork_eq_ok hPreview
  by_cases hFound : found = .unknown
  · obtain ⟨prepared, rfl, hRequest, hDigest⟩ := hUnknown hFound
    subst hFound
    obtain ⟨version, record, rfl, rfl⟩ := applyPreparedFork_eq_ok h
    have hNew := (classifyRequest_unknown hInv hClass request rfl).2
    refine ⟨boundDigest_of_new hInv hNew, ?_⟩
    rw [hRequest, hDigest]
    exact recordVersion_bound hInv hNew _ store.backend _ _ _
  · have hBound := boundDigest_of_known hInv hClass hFound
    obtain rfl := hKnown hFound
    cases found with
    | unknown => exact absurd rfl hFound
    | replayed version =>
      cases h
      exact ⟨hBound, rfl⟩
    | retired =>
      cases h
      exact ⟨hBound, rfl⟩

/-- Whatever a mutation answers, it answers for the logical operation it is. -/
theorem HistoryMutation.decided (hInv : LedgerInv store) {mutation : HistoryMutation}
    {outcome : CommitOutcome}
    (h : mutation.run sha256 (some request) store = .ok outcome store') :
    ∃ operation, mutation.logical store = .ok operation ∧
      Decided store store' request (operation.digest sha256) outcome := by
  cases mutation with
  | splice history parent offset deleteLen insert binding =>
    exact ⟨_, rfl, splice_decided hInv h⟩
  | append history parent bytes binding =>
    obtain ⟨_, _, hGet, h⟩ := bind_run_eq_ok.mp h
    cases hGet
    obtain ⟨offset, _, hAttempt, h⟩ := bind_run_eq_ok.mp h
    obtain ⟨hOffset, rfl⟩ := attempt_run_eq_ok.mp hAttempt
    refine ⟨.splice history parent offset 0 bytes binding, ?_, splice_decided hInv h⟩
    rw [HistoryMutation.logical, hOffset]
    rfl
  | fork history parent binding => exact ⟨_, rfl, fork_decided hInv h⟩

end Ledger

/-! ## Equal digests -/

section Identity

variable {sha256 : Bytes → Digest}

theorem LogicalOperation.digest_eq (operation : LogicalOperation) :
    operation.digest sha256 = sha256 operation.preimage := by
  cases operation <;> rfl

theorem LogicalOperation.digest_eq_iff {a b : LogicalOperation} (ha : a.Fits) (hb : b.Fits)
    (hFree : CollisionFree sha256 a.preimage b.preimage) :
    a.digest sha256 = b.digest sha256 ↔ a = b := by
  rw [a.digest_eq, b.digest_eq, hFree.iff]
  constructor
  · exact preimage_injective ha hb
  · exact congrArg _

/-- An answered request stands for one operation: what answers it again is the same operation, and
commits nothing. -/
theorem eq_of_answered {store store' store'' : PersistentHistoryStore} (hInv : LedgerInv store)
    (hInv' : LedgerInv store') {left right : HistoryMutation} {a b : LogicalOperation}
    (hLeft : left.logical store = .ok a) (hRight : right.logical store' = .ok b) (ha : a.Fits)
    (hb : b.Fits) (hFree : CollisionFree sha256 a.preimage b.preimage) {request : Bytes}
    {first second : CommitOutcome} (hFirst : left.run sha256 (some request) store = .ok first store')
    (hSecond : right.run sha256 (some request) store' = .ok second store'') :
    a = b ∧ ∀ version, second ≠ .committed version := by
  obtain ⟨_, hLogical, hDecided⟩ := HistoryMutation.decided hInv hFirst
  obtain rfl := Except.ok.inj (hLeft.symm.trans hLogical)
  obtain ⟨_, hLogical', hDecided'⟩ := HistoryMutation.decided hInv' hSecond
  obtain rfl := Except.ok.inj (hRight.symm.trans hLogical')
  obtain ⟨hDigest, hQuiet⟩ := hDecided'.of_bound hDecided.bound
  exact ⟨(LogicalOperation.digest_eq_iff ha hb hFree).mp hDigest, hQuiet⟩

/-- The offset of an append is the length of its parent. -/
theorem appendOffset_of_record {store : PersistentHistoryStore} {history : HistoryId}
    {id : VersionId} {record : VersionRecord} (hRecord : store.versionRecord id = .ok record)
    (hHistory : record.version.history = history) :
    store.appendOffset history (some id) = .ok record.len := by
  have hParent : store.parentRecord history id
      "persistent parent version belongs to a different history" = .ok record :=
    parentRecord_eq_ok.mpr ⟨hRecord, hHistory⟩
  rw [PersistentHistoryStore.appendOffset, PersistentHistoryStore.spliceParent, hParent]
  rfl

/-- An append runs as the splice at its offset. -/
theorem append_run {store : PersistentHistoryStore} {history : HistoryId}
    {parent : Option VersionId} {offset : Nat}
    (hOffset : store.appendOffset history parent = .ok offset) (bytes : Bytes)
    (request binding : Option Bytes) :
    (HistoryMutation.append history parent bytes binding).run sha256 request store =
      (HistoryMutation.splice history parent offset 0 bytes binding).run sha256 request store := by
  refine (bind_run_ok (getStore_run store)).trans ?_
  exact attempt_bind_ok hOffset

/-- And it is the same operation. -/
theorem append_digest {store : PersistentHistoryStore} {history : HistoryId}
    {parent : Option VersionId} {offset : Nat}
    (hOffset : store.appendOffset history parent = .ok offset) (bytes : Bytes)
    (binding : Option Bytes) :
    (HistoryMutation.append history parent bytes binding).digest sha256 store =
      (HistoryMutation.splice history parent offset 0 bytes binding).digest sha256 store := by
  rw [HistoryMutation.digest, HistoryMutation.logical, hOffset]
  rfl

end Identity

end TulyaStore.History

namespace TulyaStore.V2

open Lib Sequence
open Checkpoint (utf8 utf8_injective)

/-! ## Checkpoints -/

/-- Two checkpoints publish the same: the versions they are stored under do not count. -/
def SamePublication (a b : V2CheckpointRecord) : Prop :=
  a.checkpointNo = b.checkpointNo ∧ a.threadId = b.threadId ∧ a.checkpointId = b.checkpointId ∧
    a.parentCheckpointId = b.parentCheckpointId ∧ a.state.logicalLen = b.state.logicalLen ∧
    a.state.commitment = b.state.commitment

/-- What is hashed for a checkpoint. -/
def operationPreimage (checkpoint : V2CheckpointRecord) : Bytes :=
  v2OperationDomain ++ leBytes 4 v2CommitSchema ++ leBytes 4 checkpoint.checkpointNo ++
    prefixed (utf8 checkpoint.threadId) ++ prefixed (utf8 checkpoint.checkpointId) ++
    prefixed (parentBytes checkpoint.parentCheckpointId) ++ leBytes 8 checkpoint.state.logicalLen ++
    checkpoint.state.commitment.toList

theorem operationDigestOf_eq (sha256 : Bytes → Digest) (checkpoint : V2CheckpointRecord) :
    operationDigestOf sha256 checkpoint = sha256 (operationPreimage checkpoint) := rfl

/-- No parent has no bytes, and a parent has some. -/
theorem parentBytes_injective {a b : Option String} (ha : ∀ parent ∈ a, IdentifierOk parent)
    (hb : ∀ parent ∈ b, IdentifierOk parent) (h : parentBytes a = parentBytes b) : a = b := by
  cases a with
  | none =>
    cases b with
    | none => rfl
    | some right => exact absurd h.symm (hb right rfl).1
  | some left =>
    cases b with
    | none => exact absurd h (ha left rfl).1
    | some right => exact congrArg some (utf8_injective h)

theorem operationPreimage_eq_iff {a b : V2CheckpointRecord} (ha : a.Valid) (hb : b.Valid)
    (hNo : a.checkpointNo < width 32 ∧ b.checkpointNo < width 32)
    (hLen : a.state.logicalLen < width 64 ∧ b.state.logicalLen < width 64) :
    operationPreimage a = operationPreimage b ↔ SamePublication a b := by
  have hMax : v2MaxIdentifierBytes = 4096 := rfl
  have hBound : ∀ bytes : Bytes, bytes.length ≤ 4096 → bytes.length < 256 ^ 4 :=
    fun bytes h => h.trans_lt (by decide)
  constructor
  · intro h
    simp only [operationPreimage, prefixed, List.append_assoc] at h
    have h := List.append_cancel_left (List.append_cancel_left h)
    obtain ⟨hNoEq, h⟩ := leBytes_append_inj hNo.1 hNo.2 h
    obtain ⟨hThread, h⟩ := prefixed_append_inj (hBound _ (hMax ▸ ha.threadId.2))
      (hBound _ (hMax ▸ hb.threadId.2)) h
    obtain ⟨hId, h⟩ := prefixed_append_inj (hBound _ (hMax ▸ ha.checkpointId.2))
      (hBound _ (hMax ▸ hb.checkpointId.2)) h
    obtain ⟨hParent, h⟩ := prefixed_append_inj
      (hBound _ (hMax ▸ length_parentBytes_le ha.parent))
      (hBound _ (hMax ▸ length_parentBytes_le hb.parent)) h
    obtain ⟨hLenEq, hCommitment⟩ := leBytes_append_inj hLen.1 hLen.2 h
    exact ⟨hNoEq, utf8_injective hThread, utf8_injective hId,
      parentBytes_injective ha.parent hb.parent hParent, hLenEq, Vector.toList_inj.mp hCommitment⟩
  · rintro ⟨hNoEq, hThread, hId, hParent, hLenEq, hCommitment⟩
    rw [operationPreimage, operationPreimage, hNoEq, hThread, hId, hParent, hLenEq, hCommitment]

theorem checkpointOperationDigest_eq_iff {sha256 : Bytes → Digest} {a b : V2CheckpointRecord}
    {left right : Digest} (ha : checkpointOperationDigest sha256 a = .ok left)
    (hb : checkpointOperationDigest sha256 b = .ok right)
    (hNo : a.checkpointNo < width 32 ∧ b.checkpointNo < width 32)
    (hLen : a.state.logicalLen < width 64 ∧ b.state.logicalLen < width 64)
    (hFree : CollisionFree sha256 (operationPreimage a) (operationPreimage b)) :
    left = right ↔ SamePublication a b := by
  obtain ⟨hValidA, rfl⟩ := checkpointOperationDigest_eq_ok.mp ha
  obtain ⟨hValidB, rfl⟩ := checkpointOperationDigest_eq_ok.mp hb
  rw [operationDigestOf_eq, operationDigestOf_eq, hFree.iff,
    operationPreimage_eq_iff hValidA hValidB hNo hLen]

end TulyaStore.V2

/-! ## Identity -/

namespace TulyaStore.History

open Lib Sequence V2

/-- A digest stands for one operation: two mutations of a store have equal digests when they are
the same operation, and the digest is the one the ledger answers them by; an append is the splice
at the end of its parent; and likewise for two checkpoints of the other format. -/
theorem operation_identity {sha256 : Bytes → Digest} {store : PersistentHistoryStore}
    {left right : HistoryMutation} {a b : LogicalOperation}
    (hLeft : left.logical store = .ok a) (hRight : right.logical store = .ok b) (ha : a.Fits)
    (hb : b.Fits) (hFree : CollisionFree sha256 a.preimage b.preimage)
    {c d : V2CheckpointRecord} {digestC digestD : Digest}
    (hc : checkpointOperationDigest sha256 c = .ok digestC)
    (hd : checkpointOperationDigest sha256 d = .ok digestD)
    (hNo : c.checkpointNo < width 32 ∧ d.checkpointNo < width 32)
    (hLen : c.state.logicalLen < width 64 ∧ d.state.logicalLen < width 64)
    (hFree' : CollisionFree sha256 (operationPreimage c) (operationPreimage d)) :
    (left.digest sha256 store = right.digest sha256 store ↔ a = b) ∧
      (LedgerInv store → ∀ request outcome store',
        left.run sha256 (some request) store = .ok outcome store' →
          Decided store store' request (a.digest sha256) outcome ∧
            (LedgerInv store' → right.logical store' = .ok b → ∀ retry store'',
              right.run sha256 (some request) store' = .ok retry store'' →
                a = b ∧ ∀ version, retry ≠ .committed version)) ∧
      (∀ history id record bytes binding, store.versionRecord id = .ok record →
        record.version.history = history →
          (HistoryMutation.append history (some id) bytes binding).digest sha256 store =
              (HistoryMutation.splice history (some id) record.len 0 bytes binding).digest sha256
                store ∧
            ∀ request,
              (HistoryMutation.append history (some id) bytes binding).run sha256 request store =
                (HistoryMutation.splice history (some id) record.len 0 bytes binding).run sha256
                  request store) ∧
      (∀ history bytes binding,
        (HistoryMutation.append history none bytes binding).digest sha256 store =
            (HistoryMutation.splice history none 0 0 bytes binding).digest sha256 store ∧
          ∀ request,
            (HistoryMutation.append history none bytes binding).run sha256 request store =
              (HistoryMutation.splice history none 0 0 bytes binding).run sha256 request store) ∧
      (digestC = digestD ↔ SamePublication c d) := by
  refine ⟨?_, ?_, ?_, ?_, checkpointOperationDigest_eq_iff hc hd hNo hLen hFree'⟩
  · have hDigest : ∀ {mutation : HistoryMutation} {operation : LogicalOperation},
        mutation.logical store = .ok operation →
          mutation.digest sha256 store = .ok (operation.digest sha256) := by
      intro mutation operation h
      rw [HistoryMutation.digest, h]
      rfl
    rw [hDigest hLeft, hDigest hRight, Except.ok.injEq]
    exact LogicalOperation.digest_eq_iff ha hb hFree
  · intro hInv request outcome store' hRun
    obtain ⟨_, hLogical, hDecided⟩ := HistoryMutation.decided hInv hRun
    obtain rfl := Except.ok.inj (hLeft.symm.trans hLogical)
    refine ⟨hDecided, fun hInv' hRight' retry store'' hRetry => ?_⟩
    exact eq_of_answered hInv hInv' hLeft hRight' ha hb hFree hRun hRetry
  · intro history id record bytes binding hRecord hHistory
    have hOffset := appendOffset_of_record hRecord hHistory
    exact ⟨append_digest hOffset bytes binding, fun request => append_run hOffset bytes request _⟩
  · intro history bytes binding
    exact ⟨append_digest rfl bytes binding, fun request => append_run rfl bytes request _⟩

/-- SHA-256 on the messages of the sample below, told apart by their lengths. -/
def sampleIdentitySha256 (message : Bytes) : Digest :=
  if message.length = 72 then
    digestOfNat 0x1d7a82cea23beb4fd29069108e415c585a130c7dbb0a22a5c4db7136d2cbf1fd
  else if message.length = 44 then
    digestOfNat 0xd06c4bc3f5471080f2c0a2962becff736d90316cca515f4b64d07a2f54cfb9b7
  else if message.length = 32 then
    digestOfNat 0xd275a63d620cf29ebad8c0df28d15e9d07ff13e1f019a36550718b8abbde8508
  else if message.length = 103 then
    digestOfNat 0x96c8d9dc9effea8d47f04600659368b6a8380568814cc96c2282ac261f468a0c
  else digestOfNat 0xc4641e74a0cc6882cc11592f88c142d07248c9768e7f6efdfb15089fc2b4b50d

/-- A store with one history. -/
def sampleIdentityStore : PersistentHistoryStore :=
  { PersistentHistoryStore.new with nextHistoryId := 1, histories := {⟨0⟩} }

def sampleAppend : HistoryMutation := .append ⟨0⟩ none [97] none

def sampleCheckpoint (parent : Option String) : V2CheckpointRecord :=
  ⟨0, "t", "a", parent, 0, none, none, ⟨28, digestOfNat 1⟩⟩

/-- An append with a request and a fork, in a store of one history. -/
theorem operation_identity_sample :
    (sampleAppend.digest sampleIdentitySha256 sampleIdentityStore =
        (HistoryMutation.fork ⟨0⟩ ⟨0⟩ none).digest sampleIdentitySha256 sampleIdentityStore ↔
      LogicalOperation.splice ⟨0⟩ none 0 0 [97] none = .fork ⟨0⟩ ⟨0⟩ none) ∧
    Decided sampleIdentityStore
      (finalState (sampleAppend.run sampleIdentitySha256 (some [1])) sampleIdentityStore) [1]
      (historySpliceDigest sampleIdentitySha256 ⟨0⟩ none 0 0 [97] none)
      (.committed ⟨⟨0⟩, ⟨0⟩, none⟩) ∧
    (operationDigestOf sampleIdentitySha256 (sampleCheckpoint none) =
        operationDigestOf sampleIdentitySha256 (sampleCheckpoint (some "p")) ↔
      SamePublication (sampleCheckpoint none) (sampleCheckpoint (some "p"))) := by
  have hSplice : (LogicalOperation.splice ⟨0⟩ none 0 0 [97] none).Fits :=
    ⟨by decide, by simp, by decide, by decide, by decide, by simp⟩
  have hFork : (LogicalOperation.fork ⟨0⟩ ⟨0⟩ none).Fits := ⟨by decide, by decide, by simp⟩
  have hIdentity := @operation_identity sampleIdentitySha256 sampleIdentityStore sampleAppend
    (.fork ⟨0⟩ ⟨0⟩ none) _ _ rfl rfl hSplice hFork (fun h => absurd h (by decide +kernel))
    (sampleCheckpoint none) (sampleCheckpoint (some "p")) _ _ rfl rfl (by decide) (by decide)
    (fun h => absurd h (by decide +kernel))
  have hInv : LedgerInv sampleIdentityStore :=
    ⟨storeInv_new.ledger.tables, storeInv_new.ledger.horizon, storeInv_new.ledger.valid,
      storeInv_new.ledger.retained, storeInv_new.ledger.single⟩
  have hCommits : yields (fun outcome _ => outcome = .committed ⟨⟨0⟩, ⟨0⟩, none⟩)
      (sampleAppend.run sampleIdentitySha256 (some [1]) sampleIdentityStore) = true := by
    decide +kernel
  refine ⟨hIdentity.1, ?_, hIdentity.2.2.2.2⟩
  cases hRun : sampleAppend.run sampleIdentitySha256 (some [1]) sampleIdentityStore with
  | error e store' =>
    rw [hRun] at hCommits
    cases hCommits
  | ok outcome store' =>
    rw [hRun] at hCommits
    obtain rfl := of_decide_eq_true hCommits
    have hFinal : finalState (sampleAppend.run sampleIdentitySha256 (some [1]))
        sampleIdentityStore = store' := by
      rw [finalState, hRun]
    rw [hFinal]
    exact (hIdentity.2.1 hInv [1] _ store' hRun).1

end TulyaStore.History
