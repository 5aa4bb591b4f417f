import Mathlib.Data.Finset.Card
import TulyaStore.History.Record
import TulyaStore.Lib.KeyMap
import TulyaStore.Lib.Outcome

/-!
# The persistent history store

`PersistentHistoryStore` (`persistent_history/mod.rs`): versions over one sequence backend, the
request ledger with its bounded horizon, lifecycle marks and adapter bindings. Every mutation
is previewed without touching the state and then applied.

Versions share one table, in which a version stands at its own identifier. Memory is not
exhausted here: the reservations in front of the mutations do not fail. A hash map is a
`KeyMap`, so a search through one meets the keys in order.
-/

namespace TulyaStore.History

open Lib Sequence

instance : LinearOrder HistoryId :=
  LinearOrder.lift' HistoryId.id fun a b h => by cases a; cases b; simpa using h

instance : LinearOrder VersionId :=
  LinearOrder.lift' VersionId.id fun a b h => by cases a; cases b; simpa using h

/-- One committed version: a logical handle without placement. -/
structure Version where
  history : HistoryId
  id : VersionId
  parent : Option VersionId
deriving DecidableEq, Repr

/-- A catalogue entry. The root may be missing once the version is expired and its content
reclaimed; the length never is. -/
structure VersionRecord where
  version : Version
  root : Option PersistentRoot
  len : Nat
deriving DecidableEq, Repr

inductive VersionLifecycle where
  | retained
  | expired
deriving DecidableEq, Repr

inductive ExpireOutcome where
  | expired
  | alreadyExpired
deriving DecidableEq, Repr

/-- `STAGING_REQUEST_RECEIPT_CAPACITY` -/
def stagingRequestReceiptCapacity : Nat := 4096

inductive RequestReceiptStatus where
  | active (version : VersionId)
  | retired
  | unknown
deriving DecidableEq, Repr

structure ActiveRequest where
  digest : Digest
  version : VersionId
deriving DecidableEq, Repr

inductive CommitOutcome where
  | committed (version : Version)
  | replayed (version : Version)
  | retired
deriving DecidableEq, Repr

def CommitOutcome.version : CommitOutcome → Option Version
  | .committed version => some version
  | .replayed version => some version
  | .retired => none

structure PersistentHistoryStore where
  backend : SequenceBackend
  histories : Finset HistoryId
  versions : List VersionRecord
  nextHistoryId : Nat
  nextVersionId : Nat
  activeRequests : KeyMap Bytes ActiveRequest
  retiredRequests : KeyMap Bytes Digest
  /-- Oldest to newest. -/
  receiptOrder : List Bytes
  expiredVersions : Finset VersionId
  historyBindings : KeyMap HistoryId Bytes
  versionBindings : KeyMap VersionId Bytes
  poisoned : Bool
deriving DecidableEq

/-! ## Digests and identities -/

def historySpliceDigestDomain : Bytes := ascii "tulya-history/staging/splice\x00"

def historyForkDigestDomain : Bytes := ascii "tulya-history/staging/fork\x00"

/-- `u64::try_from(len).unwrap_or(u64::MAX)` -/
def saturatedLen (bytes : Bytes) : Nat := (tryFrom 64 bytes.length).getD (maxValue 64)

def digestedParent (parent : Option VersionId) : Bytes :=
  match parent with
  | some id => 1 :: leBytes 8 id.id
  | none => 0 :: leBytes 8 0

def digestedBinding (binding : Option Bytes) : Bytes :=
  match binding with
  | some bytes => 1 :: (leBytes 8 (saturatedLen bytes) ++ bytes)
  | none => [0]

section Digests

variable (sha256 : Bytes → Digest)

def historySpliceDigest (history : HistoryId) (parent : Option VersionId)
    (offset deleteLen : Nat) (insert : Bytes) (binding : Option Bytes) : Digest :=
  sha256 (historySpliceDigestDomain ++ leBytes 8 history.id ++ digestedParent parent ++
    leBytes 8 offset ++ leBytes 8 deleteLen ++ leBytes 8 (saturatedLen insert) ++ insert ++
    digestedBinding binding)

def historyForkDigest (history : HistoryId) (parent : VersionId) (binding : Option Bytes) :
    Digest :=
  sha256 (historyForkDigestDomain ++ leBytes 8 history.id ++ leBytes 8 parent.id ++
    digestedBinding binding)

end Digests

structure PreparedVersionIdentity where
  version : VersionId
  nextVersionIdAfter : Nat
deriving DecidableEq, Repr

def prepareVersionIdentity (nextVersionId : Nat) :
    Except HistoryError PreparedVersionIdentity := do
  let after ← okOr (checkedAdd 64 nextVersionId 1)
    (.overflow "persistent version count exceeds u64")
  return ⟨⟨nextVersionId⟩, after⟩

def validateRequestIdentity (requestId : Bytes) : Except HistoryError Unit :=
  failIf (requestId.isEmpty ∨ requestId.length > maxHistoryRequestIdBytes)
    (.invalid "persistent request identity is empty or exceeds the byte limit")

def validateBinding (binding : Bytes) : Except HistoryError Unit :=
  failIf (binding.isEmpty ∨ binding.length > maxHistoryBindingBytes)
    (.invalid "persistent adapter binding is empty or exceeds the byte limit")

def validateOptionalBinding (binding : Option Bytes) : Except HistoryError Unit :=
  match binding with
  | some bytes => validateBinding bytes
  | none => .ok ()

/-! ## Splice coordinates -/

/-- The texts of the errors of a splice coordinate check: the live path and the replay of a
logged splice make the same checks under their own texts. -/
structure SpliceTexts where
  offset : String
  deleteRange : String
  insertLength : String
  resultLength : String
  rootCoordinates : String
  rootInsert : String
  withoutEffect : String
  emptyResult : String

def previewSpliceTexts : SpliceTexts where
  offset := "persistent splice offset exceeds parent length"
  deleteRange := "persistent splice delete range exceeds parent length"
  insertLength := "persistent splice insert length exceeds u64"
  resultLength := "persistent splice result length exceeds u64"
  rootCoordinates := "persistent root creation requires zero offset and delete length"
  rootInsert := "persistent root creation requires non-empty insert"
  withoutEffect := "persistent splice without effect is rejected"
  emptyResult := "persistent splice result must be non-empty"

def replaySpliceTexts : SpliceTexts where
  offset := "history log splice offset exceeds parent length"
  deleteRange := "history log splice delete range exceeds parent length"
  insertLength := "history log splice insert length exceeds u64"
  resultLength := "history log splice result length exceeds u64"
  rootCoordinates := "history log root creation requires zero offset and delete length"
  rootInsert := "history log root creation requires non-empty insert"
  withoutEffect := "history log splice without effect is rejected"
  emptyResult := "history log splice result must be non-empty"

/-- A root needs an insert at its start, any other splice an effect. -/
def checkSpliceEffect (texts : SpliceTexts) (parent : Option VersionId) (offset deleteLen : Nat)
    (insert : Bytes) : Except HistoryError Unit :=
  match parent with
  | none => do
    failIf (offset ≠ 0 ∨ deleteLen ≠ 0) (.invalid texts.rootCoordinates)
    failIf insert.isEmpty (.invalid texts.rootInsert)
  | some _ => failIf (deleteLen = 0 ∧ insert.isEmpty) (.invalid texts.withoutEffect)

/-- The coordinates of a splice on a parent of the given length, and the resulting length. -/
def checkSpliceCoordinates (texts : SpliceTexts) (parent : Option VersionId)
    (parentLen offset deleteLen : Nat) (insert : Bytes) : Except HistoryError Nat := do
  failIf (offset > parentLen) (.invalid texts.offset)
  failIf (deleteLen > parentLen - offset) (.invalid texts.deleteRange)
  let insertLen ← okOr (tryFrom 64 insert.length) (.overflow texts.insertLength)
  let resultLen ← okOr (checkedAdd 64 (parentLen - deleteLen) insertLen)
    (.overflow texts.resultLength)
  checkSpliceEffect texts parent offset deleteLen insert
  failIf (resultLen = 0) (.invalid texts.emptyResult)
  return resultLen

/-! ## Prepared operations -/

structure PreparedSplice where
  version : VersionId
  nextVersionIdAfter : Nat
  history : HistoryId
  parent : Option VersionId
  parentRoot : Option PersistentRoot
  offset : Nat
  deleteLen : Nat
  insert : Bytes
  len : Nat
  requestId : Option Bytes
  binding : Option Bytes
  digest : Digest
  physical : Option PhysicalDelta
deriving DecidableEq

structure PreparedFork where
  version : VersionId
  nextVersionIdAfter : Nat
  history : HistoryId
  parent : VersionId
  root : Option PersistentRoot
  len : Nat
  requestId : Option Bytes
  binding : Option Bytes
  digest : Digest
deriving DecidableEq

/-- `PreparedExpire`; the receipt is the request that resolves to the version, if any. -/
structure PreparedExpire where
  history : HistoryId
  version : VersionId
  receipt : Option (Bytes × Digest)
deriving DecidableEq

/-- What validating an operation has found: `SplicePreview` and `ForkPreview`. -/
inductive Preview (P : Type) where
  | replayed (version : Version)
  | retired
  | fresh (prepared : P)
deriving DecidableEq

inductive ExpirePreview where
  | alreadyExpired
  | fresh (prepared : PreparedExpire)
deriving DecidableEq

/-- What the ledger knows of a request offered with a digest. -/
inductive RequestClass where
  | unknown
  | replayed (version : Version)
  | retired
deriving DecidableEq, Repr

namespace PersistentHistoryStore

/-- `PersistentHistoryStore::new` -/
def new : PersistentHistoryStore where
  backend := .memory .empty
  histories := ∅
  versions := []
  nextHistoryId := 0
  nextVersionId := 0
  activeRequests := .empty
  retiredRequests := .empty
  receiptOrder := []
  expiredVersions := ∅
  historyBindings := .empty
  versionBindings := .empty
  poisoned := false

def requireUnpoisoned (store : PersistentHistoryStore) : Except HistoryError Unit :=
  failIf store.poisoned .poisoned

def setPoisoned (store : PersistentHistoryStore) : PersistentHistoryStore :=
  { store with poisoned := true }

def versionRecord (store : PersistentHistoryStore) (id : VersionId) :
    Except HistoryError VersionRecord := do
  let record ← okOr store.versions[id.id]? (.invalid "persistent version is unknown")
  failIf (record.version.id ≠ id)
    (.invalid "persistent version disagrees with its table coordinate")
  return record

def requireRetained (store : PersistentHistoryStore) (id : VersionId) :
    Except HistoryError Unit := do
  let _ ← store.versionRecord id
  failIf (id ∈ store.expiredVersions) .versionExpired

/-- The parent's record, which must belong to the history. -/
def parentRecord (store : PersistentHistoryStore) (history : HistoryId) (parent : VersionId)
    (foreign : String) : Except HistoryError VersionRecord := do
  let record ← store.versionRecord parent
  failIf (record.version.history ≠ history) (.invalid foreign)
  return record

/-- The ledger's answer to a request, if the call carries one. -/
def classifyRequest (store : PersistentHistoryStore) (requestId : Option Bytes)
    (digest : Digest) : Except HistoryError RequestClass :=
  match requestId with
  | none => return .unknown
  | some request => do
    validateRequestIdentity request
    match store.activeRequests.get request with
    | some active =>
      if active.digest = digest then do
        let record ← store.versionRecord active.version
        return .replayed record.version
      else throw .requestConflict
    | none =>
      match store.retiredRequests.get request with
      | some retired => if retired = digest then return .retired else throw .requestConflict
      | none => return .unknown

/-! ## Receipts -/

/-- One turn of `enforce_receipt_horizon`: the oldest receipt is forgotten. -/
def evictOldest (store : PersistentHistoryStore) (oldest : Bytes) (rest : List Bytes) :
    PersistentHistoryStore :=
  if store.activeRequests.containsKey oldest then
    { store with receiptOrder := rest, activeRequests := store.activeRequests.erase oldest }
  else
    { store with receiptOrder := rest, retiredRequests := store.retiredRequests.erase oldest }

/-- The eviction loop over the receipts in order; it stops within the capacity, or when none
is left. -/
def enforceHorizonOver (store : PersistentHistoryStore) : List Bytes → PersistentHistoryStore
  | [] => store
  | oldest :: rest =>
    if store.activeRequests.size + store.retiredRequests.size > stagingRequestReceiptCapacity then
      enforceHorizonOver (store.evictOldest oldest rest) rest
    else store

def enforceReceiptHorizon (store : PersistentHistoryStore) : PersistentHistoryStore :=
  store.enforceHorizonOver store.receiptOrder

def pushFreshReceipt (store : PersistentHistoryStore) (requestId : Bytes) (digest : Digest)
    (version : VersionId) : PersistentHistoryStore :=
  { store with
    activeRequests := store.activeRequests.insert requestId ⟨digest, version⟩
    receiptOrder := store.receiptOrder ++ [requestId] }.enforceReceiptHorizon

/-- The move of a receipt from the active to the retired ledger. -/
def retireReceipt (store : PersistentHistoryStore) (requestId : Bytes) (digest : Digest) :
    PersistentHistoryStore :=
  { store with
    activeRequests := store.activeRequests.erase requestId
    retiredRequests := store.retiredRequests.insert requestId digest }

/-- The request that resolves to a version: the first one the search meets. -/
def receiptOf (store : PersistentHistoryStore) (version : VersionId) : Option (Bytes × Digest) :=
  (store.activeRequests.entries.find? fun entry => entry.2.version = version).map fun entry =>
    (entry.1, entry.2.digest)

/-- The last part of every commit: the catalogue entry, the receipt and the binding. -/
def recordVersion (store : PersistentHistoryStore) (record : VersionRecord)
    (requestId : Option Bytes) (digest : Digest) (binding : Option Bytes) :
    PersistentHistoryStore :=
  let store := { store with versions := store.versions ++ [record] }
  let store := match requestId with
    | some request => store.pushFreshReceipt request digest record.version.id
    | none => store
  match binding with
  | some bytes =>
    { store with versionBindings := store.versionBindings.insert record.version.id bytes }
  | none => store

/-! ## Splice -/

section Operations

variable (sha256 : Bytes → Digest)

/-- The physical delta of a splice, on a backend that has files. -/
def preparePhysical (store : PersistentHistoryStore) (parentRoot : Option PersistentRoot)
    (offset deleteLen : Nat) (insert : Bytes) (resultLen : Nat) :
    Except HistoryError (Option PhysicalDelta) :=
  match store.backend with
  | .memory _ => return none
  | .physical content => do
    let delta ← mapErr HistoryError.sequence (do
      let resolved ← (SequenceBackend.physical content).resolveParent parentRoot
      liftAvl (preparePhysicalDelta sha256 content resolved offset deleteLen insert resultLen))
    return some delta

/-- The root and the length of the parent of a splice; a root version has neither. -/
def spliceParent (store : PersistentHistoryStore) (history : HistoryId)
    (parent : Option VersionId) : Except HistoryError (Option PersistentRoot × Nat) :=
  match parent with
  | none => return (none, 0)
  | some id => do
    let record ← store.parentRecord history id
      "persistent parent version belongs to a different history"
    return (record.root, record.len)

def requireRetainedParent (store : PersistentHistoryStore) (parent : Option VersionId) :
    Except HistoryError Unit :=
  match parent with
  | some id => store.requireRetained id
  | none => .ok ()

/-- The fresh outcome of `preview_splice`: the identity first, the physical delta last. -/
def prepareSplice (store : PersistentHistoryStore) (history : HistoryId)
    (parent : Option VersionId) (parentRoot : Option PersistentRoot) (offset deleteLen : Nat)
    (insert : Bytes) (resultLen : Nat) (requestId binding : Option Bytes) (digest : Digest) :
    Except HistoryError PreparedSplice := do
  store.requireRetainedParent parent
  let identity ← prepareVersionIdentity store.nextVersionId
  let physical ← store.preparePhysical sha256 parentRoot offset deleteLen insert resultLen
  return {
    version := identity.version
    nextVersionIdAfter := identity.nextVersionIdAfter
    history, parent, parentRoot, offset, deleteLen, insert
    len := resultLen
    requestId, binding, digest, physical }

def previewSplice (store : PersistentHistoryStore) (history : HistoryId)
    (parent : Option VersionId) (offset deleteLen : Nat) (insert : Bytes)
    (requestId binding : Option Bytes) : Except HistoryError (Preview PreparedSplice) := do
  store.requireUnpoisoned
  failIf (history ∉ store.histories) (.invalid "persistent splice targets an unknown history")
  validateOptionalBinding binding
  let (parentRoot, parentLen) ← store.spliceParent history parent
  let resultLen ← checkSpliceCoordinates previewSpliceTexts parent parentLen offset deleteLen insert
  let digest := historySpliceDigest sha256 history parent offset deleteLen insert binding
  match ← store.classifyRequest requestId digest with
  | .replayed version => return .replayed version
  | .retired => return .retired
  | .unknown =>
    let prepared ← store.prepareSplice sha256 history parent parentRoot offset deleteLen insert
      resultLen requestId binding digest
    return .fresh prepared

/-- The edit of the backend in `apply_prepared_splice`. A delta that is not durable yet is
committed here. -/
def applyEdit (prepared : PreparedSplice) (physicalAlreadyDurable : Bool) :
    EStateM HistoryError PersistentHistoryStore PersistentRoot := fun store =>
  match prepared.physical, store.backend with
  | some delta, .physical content =>
    match if physicalAlreadyDurable then .ok content else commitPhysicalDelta content delta with
    | .error e => .error (.sequence (.avl e)) store
    | .ok content =>
      .ok (.balancedV2 delta.root.nodeId prepared.len)
        { store with backend := .physical (adoptPhysicalDelta content delta) }
  | some _, .memory _ =>
    .error (.sequence (.invalid "physical delta commit requires a durable physical backend")) store
  | none, .memory inner =>
    match SequenceBackend.spliceMemory sha256 prepared.parentRoot prepared.offset
        prepared.deleteLen prepared.insert inner with
    | .ok result inner =>
      .ok (.balancedV2 result.root.nodeId result.root.logicalLen)
        { store with backend := .memory inner }
    | .error e inner => .error (.sequence e) { store with backend := .memory inner }
  | none, .physical content =>
    match (do
      let delta ← SequenceBackend.prepareSplice sha256 content prepared.parentRoot
        prepared.offset prepared.deleteLen prepared.insert
      let content ← liftAvl (commitPhysicalDelta content delta)
      return (delta, content) : Except SequenceError (PhysicalDelta × PhysicalContentStore)) with
    | .error e => .error (.sequence e) store
    | .ok (delta, content) =>
      .ok (.balancedV2 delta.root.nodeId prepared.len)
        { store with backend := .physical (adoptPhysicalDelta content delta) }

def applyPreparedSplice (prepared : PreparedSplice) (physicalAlreadyDurable : Bool) :
    EStateM HistoryError PersistentHistoryStore CommitOutcome := do
  let store ← get
  attempt (failIf (store.nextVersionId ≠ prepared.version.id)
    (.invalid "prepared splice identity disagrees with the allocation counter"))
  let root ← applyEdit sha256 prepared physicalAlreadyDurable
  let version : Version := ⟨prepared.history, prepared.version, prepared.parent⟩
  modify fun store =>
    { store with nextVersionId := prepared.nextVersionIdAfter }.recordVersion
      ⟨version, some root, prepared.len⟩ prepared.requestId prepared.digest prepared.binding
  return .committed version

def splice (history : HistoryId) (parent : Option VersionId) (offset deleteLen : Nat)
    (insert : Bytes) (requestId binding : Option Bytes) :
    EStateM HistoryError PersistentHistoryStore CommitOutcome := do
  let store ← get
  match ← attempt (store.previewSplice sha256 history parent offset deleteLen insert requestId
      binding) with
  | .replayed version => return .replayed version
  | .retired => return .retired
  | .fresh prepared => applyPreparedSplice sha256 prepared false

/-- The offset of an append: the length of the parent. -/
def appendOffset (store : PersistentHistoryStore) (history : HistoryId)
    (parent : Option VersionId) : Except HistoryError Nat := do
  let (_, parentLen) ← store.spliceParent history parent
  return parentLen

def append (history : HistoryId) (parent : Option VersionId) (bytes : Bytes)
    (requestId binding : Option Bytes) :
    EStateM HistoryError PersistentHistoryStore CommitOutcome := do
  let store ← get
  let offset ← attempt (store.appendOffset history parent)
  splice sha256 history parent offset 0 bytes requestId binding

/-! ## Fork -/

/-- The fresh outcome of `preview_fork`. -/
def prepareFork (store : PersistentHistoryStore) (history : HistoryId) (parent : VersionId)
    (record : VersionRecord) (requestId binding : Option Bytes) (digest : Digest) :
    Except HistoryError PreparedFork := do
  store.requireRetained parent
  let identity ← prepareVersionIdentity store.nextVersionId
  return {
    version := identity.version
    nextVersionIdAfter := identity.nextVersionIdAfter
    history, parent
    root := record.root
    len := record.len
    requestId, binding, digest }

def previewFork (store : PersistentHistoryStore) (history : HistoryId) (parent : VersionId)
    (requestId binding : Option Bytes) : Except HistoryError (Preview PreparedFork) := do
  store.requireUnpoisoned
  failIf (history ∉ store.histories) (.invalid "persistent fork targets an unknown history")
  validateOptionalBinding binding
  let record ← store.parentRecord history parent
    "persistent fork parent belongs to a different history"
  let digest := historyForkDigest sha256 history parent binding
  match ← store.classifyRequest requestId digest with
  | .replayed version => return .replayed version
  | .retired => return .retired
  | .unknown =>
    let prepared ← store.prepareFork history parent record requestId binding digest
    return .fresh prepared

/-- `apply_prepared_fork`: the counter moves before the root is looked at. -/
def applyPreparedFork (prepared : PreparedFork) :
    EStateM HistoryError PersistentHistoryStore CommitOutcome := do
  let store ← get
  attempt (failIf (store.nextVersionId ≠ prepared.version.id)
    (.invalid "prepared fork identity disagrees with the allocation counter"))
  modify fun store => { store with nextVersionId := prepared.nextVersionIdAfter }
  let root ← attempt (okOr prepared.root
    (.invalid "prepared fork parent has no materialized root"))
  let version : Version := ⟨prepared.history, prepared.version, some prepared.parent⟩
  modify fun store =>
    store.recordVersion ⟨version, some root, prepared.len⟩ prepared.requestId prepared.digest
      prepared.binding
  return .committed version

def fork (history : HistoryId) (parent : VersionId) (requestId binding : Option Bytes) :
    EStateM HistoryError PersistentHistoryStore CommitOutcome := do
  let store ← get
  match ← attempt (store.previewFork sha256 history parent requestId binding) with
  | .replayed version => return .replayed version
  | .retired => return .retired
  | .fresh prepared => applyPreparedFork prepared

end Operations

/-! ## Histories, lifecycle and retirement -/

def createHistory : EStateM HistoryError PersistentHistoryStore HistoryId := do
  let store ← get
  attempt store.requireUnpoisoned
  let after ← attempt (okOr (checkedAdd 64 store.nextHistoryId 1)
    (.overflow "persistent history count exceeds u64"))
  set { store with
    nextHistoryId := after
    histories := insert (HistoryId.mk store.nextHistoryId) store.histories }
  return ⟨store.nextHistoryId⟩

/-- The history an adapter binding already names. -/
def historyOfBinding (store : PersistentHistoryStore) (binding : Bytes) : Option HistoryId :=
  (store.historyBindings.entries.find? fun entry => entry.2 = binding).map Prod.fst

def createHistoryWithBinding (binding : Bytes) :
    EStateM HistoryError PersistentHistoryStore HistoryId := do
  let store ← get
  attempt store.requireUnpoisoned
  attempt (validateBinding binding)
  match store.historyOfBinding binding with
  | some existing => return existing
  | none =>
    let id ← createHistory
    modify fun store => { store with historyBindings := store.historyBindings.insert id binding }
    return id

def previewExpire (store : PersistentHistoryStore) (version : VersionId) :
    Except HistoryError ExpirePreview := do
  store.requireUnpoisoned
  let record ← store.versionRecord version
  if version ∈ store.expiredVersions then return .alreadyExpired
  else return .fresh ⟨record.version.history, version, store.receiptOf version⟩

/-- `apply_prepared_expire`: the mark is set before the receipt is looked at. -/
def applyPreparedExpire (prepared : PreparedExpire) :
    EStateM HistoryError PersistentHistoryStore ExpireOutcome := do
  let store ← get
  let record ← attempt (store.versionRecord prepared.version)
  attempt (failIf (record.version.history ≠ prepared.history)
    (.invalid "prepared expiration disagrees with committed history"))
  attempt (failIf (prepared.version ∈ store.expiredVersions)
    (.invalid "prepared expiration identity is already expired"))
  modify fun store =>
    { store with expiredVersions := insert prepared.version store.expiredVersions }
  match prepared.receipt with
  | none => return .expired
  | some (id, digest) =>
    attempt (failIf (store.activeRequests.get id ≠ some ⟨digest, prepared.version⟩)
      (.invalid "prepared expiration receipt disagrees with the active ledger"))
    modify fun store => store.retireReceipt id digest
    return .expired

def expire (version : VersionId) : EStateM HistoryError PersistentHistoryStore ExpireOutcome := do
  let store ← get
  match ← attempt (store.previewExpire version) with
  | .alreadyExpired => return .alreadyExpired
  | .fresh prepared => applyPreparedExpire prepared

def retireRequest (requestId : Bytes) : EStateM HistoryError PersistentHistoryStore Unit := do
  let store ← get
  attempt store.requireUnpoisoned
  attempt (validateRequestIdentity requestId)
  attempt (failIf (store.retiredRequests.containsKey requestId)
    (.invalid "persistent request identity is already retired"))
  let record ← attempt (okOr (store.activeRequests.get requestId)
    (.invalid "persistent active request identity is absent"))
  set (store.retireReceipt requestId record.digest)

/-! ## Queries -/

def requestReceiptStatus (store : PersistentHistoryStore) (requestId : Bytes) :
    RequestReceiptStatus :=
  match store.activeRequests.get requestId with
  | some active => .active active.version
  | none => if store.retiredRequests.containsKey requestId then .retired else .unknown

def committedVersion (store : PersistentHistoryStore) (version : Version) :
    Except HistoryError VersionRecord := do
  let record ← store.versionRecord version.id
  failIf (record.version ≠ version) (.invalid "persistent version does not match committed history")
  failIf (version.id ∈ store.expiredVersions) .versionExpired
  return record

def lookupVersion (store : PersistentHistoryStore) (id : VersionId) :
    Except HistoryError Version := do
  let record ← store.versionRecord id
  failIf (id ∈ store.expiredVersions) .versionExpired
  return record.version

section Reads

variable (sha256 : Bytes → Digest)

def read (store : PersistentHistoryStore) (version : Version) (offset length : Nat) :
    Except HistoryError Bytes := do
  let record ← store.committedVersion version
  let root ← okOr record.root (.invalid "persistent version has no materialized root")
  failIf (checkedAdd 64 offset length = none)
    (.invalid "persistent history read range exceeds u64")
  mapErr .sequence (store.backend.readRange sha256 root offset length)

def verify (store : PersistentHistoryStore) (version : Version) : Except HistoryError Unit := do
  let record ← store.committedVersion version
  let root ← okOr record.root (.invalid "persistent version has no materialized root")
  mapErr .sequence (store.backend.verify sha256 root)

end Reads

end PersistentHistoryStore

end TulyaStore.History
