import TulyaStore.History.Authority
import TulyaStore.Sequence.Compaction

/-!
# Quiescent collection

`prepare_physical_gc` and `gc_with_sync`: the retained content goes into the files of the next
physical generation, the catalogue is rebuilt over it, and the generation is published as a
sealed one. Then the files of superseded generations are removed.

An authority is always over files, so the collection of a store in memory is left out. The
listing of the directory is a parameter: the system gives it in an order of its own.
-/

namespace TulyaStore.History

open Lib Sequence

structure GcStats where
  nodesBefore : Nat
  nodesAfter : Nat
  nodesReclaimed : Nat
  payloadBytesBefore : Nat
  payloadBytesAfter : Nat
  payloadBytesReclaimed : Nat
  retainedVersions : Nat
  expiredVersions : Nat
deriving DecidableEq, Repr

structure GcSummary where
  generation : Nat
  representedWalEnd : Nat
  snapshotLen : Nat
  stats : GcStats
  cleanupComplete : Bool
deriving DecidableEq, Repr

structure PreparedGc where
  store : PersistentHistoryStore
  stats : GcStats
deriving DecidableEq

/-! ## The content of the next generation -/

/-- The node records of a compact table, as the file has them. -/
def recordBytes (records : List V2NodeRecord) : Bytes := (records.map encodeV2Node).flatten

/-- The writes of the node records, one after the other. -/
def recordWrites (name : HistoryFile) (records : List V2NodeRecord) : List (FileStep HistoryFile) :=
  records.zipIdx.map fun entry =>
    .write name (physicalHeaderSize + entry.2 * physicalNodeRecordSize) (encodeV2Node entry.1)

/-- `recreate` and the writes of `compact_physical_generation`. -/
def writeGeneration (generation : Nat) (payload : Bytes) (records : List V2NodeRecord) :
    List (FileStep HistoryFile) :=
  [.createEmpty (.payload generation), .createEmpty (.nodes generation),
    .write (.payload generation) 0 (encodeHeader physicalPayloadMagic generation),
    .write (.nodes generation) 0 (encodeHeader physicalNodeMagic generation)] ++
  (if payload.isEmpty then [] else [.write (.payload generation) physicalHeaderSize payload]) ++
  recordWrites (.nodes generation) records ++
  [.sync (.payload generation), .sync (.nodes generation)]

/-- The store bound to the generation just written. -/
def writtenStore (generation : Nat) (payload : Bytes) (records : List V2NodeRecord) :
    PhysicalContentStore :=
  ⟨generation, some (encodeHeader physicalPayloadMagic generation ++ payload),
    some (encodeHeader physicalNodeMagic generation ++ recordBytes records), payload.length,
    records.length⟩

section Prepare

variable (sha256 : Bytes → Digest)

/-- `compact_physical_generation` -/
def compactPhysicalGeneration (source : PhysicalContentStore) (seeds : List V2RootRecord)
    (newGeneration : Nat) :
    ContentM WritableHistoryAuthority (PhysicalContentStore × List V2RootRecord) := do
  let (payload, records, mapping) ← FileM.attempt (planPhysicalGeneration sha256 source seeds)
  FileM.perform (writeGeneration newGeneration payload records)
  let roots ← FileM.attempt (relocateSeeds seeds records mapping)
  return (writtenStore newGeneration payload records, roots)

/-- The roots of the versions that are not expired. -/
def retainedRoots (store : PersistentHistoryStore) : Except HistoryError (List PersistentRoot) :=
  (store.versions.filter fun record => record.version.id ∉ store.expiredVersions).mapM fun record =>
    okOr record.root (.invalid "persistent GC retained version has no materialized root")

/-- A length that disagrees with its root fails before the root could be dropped. -/
def checkMaterializedLength (record : VersionRecord) : Except HistoryError Unit :=
  match record.root with
  | some root => failIf (record.len ≠ root.logicalLen)
      (.invalid "persistent GC version length disagrees with its materialized root")
  | none => .ok ()

/-- The catalogue over the relocated roots: expired versions lose theirs, the others take the
next one. -/
def remapVersions (expired : Finset VersionId) :
    List VersionRecord → List V2RootRecord → Except HistoryError (List VersionRecord)
  | [], [] => return []
  | [], _ :: _ =>
    throw (.invalid "persistent GC remapped roots disagree with retained versions")
  | record :: records, roots =>
    if record.version.id ∈ expired then do
      let rest ← remapVersions expired records roots
      return { record with root := none } :: rest
    else
      match roots with
      | [] => throw (.invalid "persistent GC remapped roots disagree with retained versions")
      | root :: roots => do
        failIf (root.logicalLen ≠ record.len)
          (.invalid "persistent GC remapped root disagrees with catalogue length")
        let rest ← remapVersions expired records roots
        return { record with root := some (.balancedV2 root.nodeId root.logicalLen) } :: rest

def gcStats (store : PersistentHistoryStore) (before after : PhysicalContentStore) :
    Except HistoryError GcStats := do
  failIf (before.committedNodeCount < after.committedNodeCount)
    (.invalid "persistent GC reclaimed node count underflows")
  failIf (before.committedPayloadEnd < after.committedPayloadEnd)
    (.invalid "persistent GC reclaimed payload count underflows")
  return {
    nodesBefore := before.committedNodeCount
    nodesAfter := after.committedNodeCount
    nodesReclaimed := before.committedNodeCount - after.committedNodeCount
    payloadBytesBefore := before.committedPayloadEnd
    payloadBytesAfter := after.committedPayloadEnd
    payloadBytesReclaimed := before.committedPayloadEnd - after.committedPayloadEnd
    retainedVersions :=
      (store.versions.filter fun record => record.version.id ∉ store.expiredVersions).length
    expiredVersions :=
      (store.versions.filter fun record => record.version.id ∈ store.expiredVersions).length }

/-- What `prepare_physical_gc` finds in front of the compaction: the content, the next
generation and the seeds. -/
def gcSeeds (store : PersistentHistoryStore) :
    Except HistoryError (PhysicalContentStore × Nat × List V2RootRecord) := do
  store.versions.forM checkMaterializedLength
  match store.backend with
  | .memory _ => throw (.invalid "persistent physical GC requires a durable physical backend")
  | .physical content => do
    let newGeneration ← okOr (checkedAdd 64 content.generation 1)
      (.overflow "persistent physical generation exceeds u64")
    let roots ← retainedRoots store
    let seeds ← mapErr HistoryError.sequence (roots.mapM store.backend.resolve)
    return (content, newGeneration, seeds)

/-- What it builds behind it; the tables besides the catalogue are the same. -/
def assembleGc (store : PersistentHistoryStore) (before after : PhysicalContentStore)
    (roots : List V2RootRecord) : Except HistoryError PreparedGc := do
  let versions ← remapVersions store.expiredVersions store.versions roots
  let stats ← gcStats store before after
  return ⟨{ store with backend := .physical after, versions, poisoned := false }, stats⟩

/-- What a refused step of `compact_physical_generation` fails with. -/
def compactionFailure : FileStep HistoryFile → V2AvlError
  | .createEmpty _ => .invalid "history physical content recreation failed"
  | .write _ 0 _ => .invalid "history physical content recreation failed"
  | .write _ _ _ => .invalid "history physical GC generation write failed"
  | _ => contentSyncFailed

/-- `prepare_physical_gc` -/
def preparePhysicalGc (store : PersistentHistoryStore) : AuthorityM PreparedGc := do
  let (content, newGeneration, seeds) ← FileM.attempt (rejecting (gcSeeds store))
  let (after, roots) ← liftContent (fun e => .rejected (.sequence (.avl e)))
    (FileM.refusable compactionFailure
      (compactPhysicalGeneration sha256 content seeds newGeneration))
  FileM.attempt (rejecting (assembleGc store content after roots))

end Prepare

/-! ## Publication and cleanup -/

/-- The names `cleanup_superseded_generations` removes: `superseded_generation_file`,
`stale_tulya_temp_file` and `superseded_physical_content_file`. -/
def HistoryFile.superseded (current physicalGeneration : Nat) : HistoryFile → Bool
  | .lock => false
  | .manifest => false
  | .manifestTmp => true
  | .hot generation => generation ≠ current
  | .hotTmp _ => true
  | .snapshot generation => generation ≠ current
  | .snapshotTmp _ => true
  | .payload generation => generation ≠ physicalGeneration
  | .nodes generation => generation ≠ physicalGeneration

/-- Removes files, and goes on when one stays; whether all are gone. -/
def removeFiles : List HistoryFile → AuthorityM Bool
  | [] => return true
  | name :: names => do
    let removed ← stepSucceeds (.remove name)
    let others ← removeFiles names
    return removed && others

/-- `cleanup_superseded_generations` over a listing of the directory. -/
def cleanupSupersededGenerations (entries : List HistoryFile) (current physicalGeneration : Nat) :
    AuthorityM Bool := do
  let removed ← removeFiles (entries.filter (HistoryFile.superseded current physicalGeneration))
  let synced ← stepSucceeds .syncDir
  return removed && synced

/-- `apply_prepared_gc` -/
def applyPreparedGc (store : PersistentHistoryStore) (prepared : PreparedGc) :
    PersistentHistoryStore :=
  { store with backend := prepared.store.backend, versions := prepared.store.versions }

/-- `gc_with_sync` of the directory sync that `gc_quiescent` passes to it. -/
def WritableHistoryAuthority.gcWithSync (sha256 : Bytes → Digest)
    (fromSlice : Bytes → Option JsonValue) (entries : List HistoryFile) :
    AuthorityM GcSummary := do
  requireUnpoisonedDurable
  let auth ← get
  let prepared ← preparePhysicalGc sha256 auth.store
  let (staged, nextHot) ← publishGeneration sha256 fromSlice prepared.store
  modify fun auth => { auth with
    store := applyPreparedGc auth.store prepared
    hot := nextHot
    generation := staged.generation
    stats := ⟨prepared.store.versions.length, 0⟩ }
  let _ ← recycleSupersededHot staged.previous
  let cleanupComplete ← cleanupSupersededGenerations entries staged.generation
    (prepared.store.physicalGeneration.getD 0)
  return ⟨staged.generation, staged.representedWalEnd, staged.snapshotLen, prepared.stats,
    cleanupComplete⟩

end TulyaStore.History
