import TulyaStore.History.Log
import TulyaStore.History.Store

/-!
# Replay of the history log

Recovery runs every record of the log through the `replay_*` methods of the store, which check
it as the live operation would have and assert the identity it was given. A store whose replay
fails is dropped, so a failure leaves no state here.
-/

namespace TulyaStore.History

open Lib Sequence

namespace PersistentHistoryStore

def replayCreate (store : PersistentHistoryStore) (history : HistoryId)
    (binding : Option Bytes) : Except HistoryError PersistentHistoryStore := do
  validateOptionalBinding binding
  store.requireUnpoisoned
  let after ← okOr (checkedAdd 64 store.nextHistoryId 1)
    (.overflow "persistent history count exceeds u64")
  failIf (HistoryId.mk store.nextHistoryId ≠ history)
    (.invalid "history log history identity disagrees with replay order")
  let store := { store with
    nextHistoryId := after
    histories := insert (HistoryId.mk store.nextHistoryId) store.histories }
  match binding with
  | some bytes =>
    return { store with historyBindings := store.historyBindings.insert history bytes }
  | none => return store

/-- The parent of a logged splice, which must be retained and have a root. -/
def replayParent (store : PersistentHistoryStore) (history : HistoryId)
    (parent : Option VersionId) : Except HistoryError (Option PersistentRoot × Nat) :=
  match parent with
  | none => return (none, 0)
  | some id => do
    let record ← store.parentRecord history id
      "history log parent version belongs to a different history"
    failIf (id ∈ store.expiredVersions) (.invalid "history log splice parent is expired")
    let root ← okOr record.root (.invalid "history log splice parent has no materialized root")
    return (some root, record.len)

/-- The identity the next version gets, which must be the logged one, and its successor. -/
def replayIdentity (store : PersistentHistoryStore) (version : VersionId) :
    Except HistoryError Nat := do
  failIf (VersionId.mk store.nextVersionId ≠ version)
    (.invalid "history log version identity disagrees with replay order")
  okOr (checkedAdd 64 store.nextVersionId 1) (.overflow "persistent version count exceeds u64")

/-- The checks in front of the receipt and the binding of a replayed version. -/
def checkReplayedRequest (store : PersistentHistoryStore) (requestId : Option Bytes) :
    Except HistoryError Unit :=
  match requestId with
  | some request => do
    validateRequestIdentity request
    failIf (store.activeRequests.containsKey request ∨ store.retiredRequests.containsKey request)
      (.invalid "history log request identity is already recorded")
  | none => .ok ()

/-- The root of a replayed splice and the backend that has it: memory runs the splice again,
files validate and adopt the logged placement. -/
def replayEdit (sha256 : Bytes → Digest) (backend : SequenceBackend)
    (parentRoot : Option PersistentRoot) (offset deleteLen : Nat) (insert : Bytes)
    (resultLen : Nat) (physical : Option PhysicalPlacement) :
    Except HistoryError (PersistentRoot × SequenceBackend) :=
  match backend with
  | .physical content => do
    let placement ← okOr physical
      (.invalid "history log splice has no physical placement for durable authority")
    let (root, content) ← mapErr .sequence (SequenceBackend.replayPhysicalDelta sha256 content
      placement.generation placement.payloadStart placement.payloadEnd placement.nodeStart
      placement.nodeEnd placement.deltaDigest placement.resultRoot.toList resultLen)
    return (root, .physical content)
  | .memory inner => do
    failIf physical.isSome
      (.invalid "history log splice physical placement disagrees with an ephemeral backend")
    match SequenceBackend.spliceMemory sha256 parentRoot offset deleteLen insert inner with
    | .ok result inner =>
      return (.balancedV2 result.root.nodeId result.root.logicalLen, .memory inner)
    | .error e _ => throw (.sequence e)

def replaySplice (sha256 : Bytes → Digest) (store : PersistentHistoryStore)
    (history : HistoryId) (version : VersionId) (parent : Option VersionId)
    (offset deleteLen : Nat) (insert : Bytes) (requestId binding : Option Bytes)
    (digest : Digest) (physical : Option PhysicalPlacement) :
    Except HistoryError PersistentHistoryStore := do
  failIf (history ∉ store.histories) (.invalid "history log splice targets an unknown history")
  let (parentRoot, parentLen) ← store.replayParent history parent
  let resultLen ← checkSpliceCoordinates replaySpliceTexts parent parentLen offset deleteLen insert
  failIf (historySpliceDigest sha256 history parent offset deleteLen insert binding ≠ digest)
    (.invalid "history log splice digest disagrees with its operation")
  validateOptionalBinding binding
  let after ← store.replayIdentity version
  let (root, backend) ← replayEdit sha256 store.backend parentRoot offset deleteLen insert
    resultLen physical
  store.checkReplayedRequest requestId
  return { store with nextVersionId := after, backend }.recordVersion
    ⟨⟨history, version, parent⟩, some root, resultLen⟩ requestId digest binding

def replayFork (sha256 : Bytes → Digest) (store : PersistentHistoryStore)
    (history : HistoryId) (version parent : VersionId) (requestId binding : Option Bytes)
    (digest : Digest) : Except HistoryError PersistentHistoryStore := do
  failIf (history ∉ store.histories) (.invalid "history log fork targets an unknown history")
  let record ← mapErr (fun _ => .invalid "history log fork parent version is unknown")
    (store.versionRecord parent)
  failIf (record.version.history ≠ history)
    (.invalid "history log fork parent belongs to a different history")
  failIf (parent ∈ store.expiredVersions) (.invalid "history log fork parent is expired")
  let root ← okOr record.root (.invalid "history log fork parent has no materialized root")
  failIf (historyForkDigest sha256 history parent binding ≠ digest)
    (.invalid "history log fork digest disagrees with its operation")
  validateOptionalBinding binding
  let after ← store.replayIdentity version
  store.checkReplayedRequest requestId
  return { store with nextVersionId := after }.recordVersion
    ⟨⟨history, version, some parent⟩, some root, record.len⟩ requestId digest binding

def replayExpire (store : PersistentHistoryStore) (history : HistoryId) (version : VersionId) :
    Except HistoryError PersistentHistoryStore := do
  failIf (history ∉ store.histories) (.invalid "history log expire targets an unknown history")
  let record ← mapErr (fun _ => .invalid "history log expire targets an unknown version")
    (store.versionRecord version)
  failIf (record.version.history ≠ history) (.invalid "history log expire crosses histories")
  if version ∈ store.expiredVersions then return store
  else
    let marked := { store with expiredVersions := insert version store.expiredVersions }
    match store.receiptOf version with
    | some (id, digest) => return marked.retireReceipt id digest
    | none => return marked

def replayRetire (store : PersistentHistoryStore) (requestId : Bytes) (digest : Digest) :
    Except HistoryError PersistentHistoryStore := do
  validateRequestIdentity requestId
  failIf ((store.activeRequests.get requestId).map ActiveRequest.digest ≠ some digest)
    (.invalid "history log retirement disagrees with replayed ledger")
  failIf (store.retiredRequests.containsKey requestId)
    (.invalid "history log retirement duplicates a retired identity")
  return store.retireReceipt requestId digest

/-- `validate_replayed_history_bindings`: the nonempty bindings are pairwise different. -/
def validateReplayedHistoryBindings (store : PersistentHistoryStore) : Except HistoryError Unit :=
  failIf (¬ (store.historyBindings.values.filter fun bound => ¬ bound.isEmpty).Nodup)
    (.invalid "replayed history bindings are not unique")

end PersistentHistoryStore

open PersistentHistoryStore

section Recovery

variable (sha256 : Bytes → Digest)

/-- `apply_recovered_record` -/
def applyRecoveredRecord (store : PersistentHistoryStore) (record : HistoryLogRecord) :
    Except HistoryError PersistentHistoryStore :=
  match record with
  | .createHistory history binding => store.replayCreate history binding
  | .splice history version parent offset deleteLen insert requestId binding digest physical =>
    store.replaySplice sha256 history version parent offset deleteLen insert requestId binding
      digest physical
  | .fork history version parent requestId binding digest =>
    store.replayFork sha256 history version parent requestId binding digest
  | .expireVersion history version => store.replayExpire history version
  | .retire requestId digest => store.replayRetire requestId digest

def applyRecoveredRecords (store : PersistentHistoryStore) (records : List HistoryLogRecord) :
    Except HistoryError PersistentHistoryStore :=
  records.foldlM (applyRecoveredRecord sha256) store

/-- `replay_history_suffix` -/
def replayHistorySuffix (store : PersistentHistoryStore) (bytes : Bytes) :
    Except HistoryError PersistentHistoryStore := do
  let (records, _) ← decodeHistoryLog sha256 bytes
  let store ← applyRecoveredRecords sha256 store records
  store.validateReplayedHistoryBindings
  return store

/-- `recover_history_store`: the replay of a whole log on a fresh store in memory. -/
def recoverHistoryStore (bytes : Bytes) : Except HistoryError PersistentHistoryStore :=
  replayHistorySuffix sha256 .new bytes

end Recovery

end TulyaStore.History
