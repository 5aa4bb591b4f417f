import TulyaStore.History.Snapshot
import TulyaStore.Sequence.ContentFiles

/-!
# Stores from a snapshot

`import_physical_genesis` and `import_physical_snapshot` bind a store to the content files of a
directory: to the files of generation zero, if any, or to the files of the generation a snapshot
names. Of a root record only the node and the length get into the catalogue; no content is read.

The source also counts the descriptors it consumes and compares the count with the number of
materialized versions; the two are the same number.
-/

namespace TulyaStore.History

open Lib Sequence

namespace PersistentHistoryStore

/-- An empty store over the given content. -/
def overContent (content : PhysicalContentStore) : PersistentHistoryStore :=
  { new with backend := .physical content }

/-- `import_physical_genesis` on the two content files of generation zero. -/
def importPhysicalGenesis (payload nodes : Option Bytes) :
    Except HistoryError PersistentHistoryStore :=
  if payload.isSome ∧ nodes.isSome then do
    let content ← mapErr (fun e => HistoryError.sequence (.avl e))
      (PhysicalContentStore.openExisting payload nodes 0 0 0)
    return overContent content
  else return overContent (.openDeferred 0)

/-- The bindings must be nonempty and pairwise different. -/
def checkImportedBindings : List Bytes → List Bytes → Except HistoryError Unit
  | _, [] => .ok ()
  | seen, binding :: rest => do
    failIf binding.isEmpty (.invalid "history snapshot history binding is empty")
    failIf (binding ∈ seen) (.invalid "history snapshot history bindings are not unique")
    checkImportedBindings (binding :: seen) rest

/-- The history with an index and its binding. -/
def importHistory (store : PersistentHistoryStore) (entry : Option Bytes × Nat) :
    PersistentHistoryStore :=
  let id : HistoryId := ⟨entry.2⟩
  { store with
    histories := insert id store.histories
    historyBindings := match entry.1 with
      | some bytes => store.historyBindings.insert id bytes
      | none => store.historyBindings }

/-- The parent of an imported version must be in the table, in the same history. -/
def checkImportedParent (versions : List SnapshotVersion) (entry : SnapshotVersion) :
    Except HistoryError Unit :=
  match entry.parent with
  | none => .ok ()
  | some parent => do
    let parentEntry ← okOr versions[parent.id]?
      (.invalid "history snapshot version parent is not topologically prior")
    failIf (parentEntry.history ≠ entry.history)
      (.invalid "history snapshot version parent belongs to a different history")

/-- The root of an imported version, decoded from its descriptor. -/
def importedRoot (entry : SnapshotVersion) : Except HistoryError (Option PersistentRoot) :=
  if entry.rootPresent then do
    let descriptor ← okOr entry.root
      (.invalid "history snapshot materialized version has no root descriptor")
    let root ← mapErr HistoryError.sequence (decodeCanonicalRootBytes descriptor.toList)
    failIf (entry.len ≠ root.logicalLen)
      (.invalid "history snapshot version length disagrees with its materialized root")
    return some root
  else do
    failIf (entry.lifecycle = .retained)
      (.invalid "history snapshot retained version has no materialized root")
    return none

/-- One turn of the loop over the versions of a snapshot. -/
def importVersion (versions : List SnapshotVersion) (store : PersistentHistoryStore)
    (item : SnapshotVersion × Nat) : Except HistoryError PersistentHistoryStore := do
  let (entry, index) := item
  let id : VersionId := ⟨index⟩
  checkImportedParent versions entry
  failIf (entry.len = 0) (.invalid "history snapshot version length is zero")
  let root ← importedRoot entry
  return { store with
    expiredVersions := match entry.lifecycle with
      | .expired => insert id store.expiredVersions
      | .retained => store.expiredVersions
    versions := store.versions ++ [⟨⟨entry.history, id, entry.parent⟩, root, entry.len⟩]
    versionBindings := match entry.binding with
      | some bytes => store.versionBindings.insert id bytes
      | none => store.versionBindings }

def importActive (store : PersistentHistoryStore) (record : SnapshotActive) :
    Except HistoryError PersistentHistoryStore := do
  let version ← store.versionRecord record.version
  failIf (store.activeRequests.containsKey record.requestId)
    (.invalid "history snapshot active request identity is duplicated")
  return { store with
    activeRequests :=
      store.activeRequests.insert record.requestId ⟨record.digest, version.version.id⟩ }

def importRetired (store : PersistentHistoryStore) (record : SnapshotRetired) :
    Except HistoryError PersistentHistoryStore := do
  failIf (store.activeRequests.containsKey record.requestId)
    (.invalid "history snapshot request identity is both active and retired")
  failIf (store.retiredRequests.containsKey record.requestId)
    (.invalid "history snapshot retired request identity is duplicated")
  return { store with
    retiredRequests := store.retiredRequests.insert record.requestId record.digest }

/-- Everything of `import_physical_snapshot` behind the opening of the content. -/
def importSnapshot (content : PhysicalContentStore) (snapshot : HistorySnapshot) :
    Except HistoryError PersistentHistoryStore := do
  checkImportedBindings [] (snapshot.historyBindings.filterMap id)
  let empty := { overContent content with
    nextHistoryId := snapshot.nextHistoryId
    nextVersionId := snapshot.nextVersionId }
  let withHistories := snapshot.historyBindings.zipIdx.foldl importHistory empty
  let withVersions ← snapshot.versions.zipIdx.foldlM (importVersion snapshot.versions)
    withHistories
  let withActive ← snapshot.active.foldlM importActive withVersions
  let withRetired ← snapshot.retired.foldlM importRetired withActive
  snapshot.receiptOrder.forM Snapshot.checkRequestBounds
  Snapshot.validateReceiptConsistency snapshot.versions snapshot.active snapshot.retired
    snapshot.receiptOrder
  failIf (withRetired.expiredVersions.card > withRetired.versions.length)
    (.invalid "history snapshot expired versions disagree with its table")
  return { withRetired with receiptOrder := snapshot.receiptOrder }

/-- `import_physical_snapshot` on the two content files of the generation it names. -/
def importPhysicalSnapshot (payload nodes : Option Bytes) (snapshot : HistorySnapshot) :
    Except HistoryError PersistentHistoryStore := do
  let content ← mapErr (fun e => HistoryError.sequence (.avl e))
    (PhysicalContentStore.openExisting payload nodes snapshot.physicalGeneration
      snapshot.payloadEnd snapshot.nodeCount)
  importSnapshot content snapshot

end PersistentHistoryStore

end TulyaStore.History
