import TulyaStore.History.Import
import TulyaStore.History.Manifest
import TulyaStore.History.Replay
import TulyaStore.Lib.Refusals

/-!
# The writable history authority

`authority.rs` and the durable methods of the store, as programs over the history directory:
opening, the mutations through the owned hot log, and the seal. Every step on a file is
recorded, so an interruption can be taken anywhere.

One process at a time holds the lease, so locks are always granted. The system may refuse every
step of a call of an open authority (`FileM.refusable`): a write, a cut, a sync, a rename, a removal.
An opening ends at a refused step, and leaves what an interruption leaves there. Reads do not fail.
The store keeps the bytes behind its open handles; every step on such a file changes both, and a
failed call looks at the files again. A write goes to the end of its file.
-/

namespace TulyaStore.History

open Lib Sequence

/-- `DurabilityOperation` -/
inductive DurabilityOperation where
  | walFlush
  | walSyncData
  | fileSyncAll
  | rename
  | directorySync
deriving DecidableEq, Repr

inductive DurableError where
  | rejected (error : HistoryError)
  | alreadyOpen
  | recoveryRequired
  | indeterminate (operation : DurabilityOperation)
deriving DecidableEq, Repr

/-- The names of a history directory; each generation has its own. -/
inductive HistoryFile where
  | lock
  | manifest
  | manifestTmp
  | hot (generation : Nat)
  | hotTmp (generation : Nat)
  | snapshot (generation : Nat)
  | snapshotTmp (generation : Nat)
  | payload (generation : Nat)
  | nodes (generation : Nat)
deriving DecidableEq, Repr

abbrev HistoryFiles := Files HistoryFile

structure OpenedHistoryStats where
  snapshotVersions : Nat
  suffixBytes : Nat
deriving DecidableEq, Repr

structure OpenedHistory where
  store : PersistentHistoryStore
  generation : Nat
  stats : OpenedHistoryStats
deriving DecidableEq

structure SealSummary where
  generation : Nat
  representedWalEnd : Nat
  snapshotLen : Nat
  recycledHot : Bool
deriving DecidableEq, Repr

structure WritableHistoryAuthority where
  store : PersistentHistoryStore
  generation : Nat
  stats : OpenedHistoryStats
  hot : DurableHistoryLog
  /-- What the system answers to the next steps on the files. -/
  answers : List StepAnswer
deriving DecidableEq

instance : HasAnswers WritableHistoryAuthority where
  answers auth := auth.answers
  withAnswers auth answers := { auth with answers }

abbrev AuthorityM := FileM HistoryFile WritableHistoryAuthority DurableError

/-- A definite rejection. -/
def rejecting {α : Type} (x : Except HistoryError α) : Except DurableError α :=
  mapErr .rejected x

/-! ## Loading -/

section Loading

variable (sha256 : Bytes → Digest) (fromSlice : Bytes → Option JsonValue)

def readManifest (files : HistoryFiles) : Except HistoryError (Option HistoryManifest) :=
  match files .manifest with
  | none => return none
  | some bytes => do
    let manifest ← decodeHistoryManifest fromSlice bytes
    return some manifest

/-- The store of the sealed snapshot of a generation. -/
def loadSealed (files : HistoryFiles) (generation : Nat) (sealedBase : ManifestSealed) :
    Except HistoryError PersistentHistoryStore := do
  let bytes ← okOr (files (.snapshot generation)) (.invalid "history sealed snapshot is missing")
  failIf (bytes.length ≠ sealedBase.byteLen)
    (.invalid "history sealed snapshot length disagrees with manifest")
  failIf (sealedArtifactDigest sha256 bytes ≠ sealedBase.sha256)
    (.invalid "history sealed snapshot digest mismatch")
  let snapshot ← decodeHistorySnapshot sha256 bytes
  failIf (snapshot.generation ≠ generation)
    (.invalid "history snapshot generation disagrees with manifest")
  PersistentHistoryStore.importPhysicalSnapshot (files (.payload snapshot.physicalGeneration))
    (files (.nodes snapshot.physicalGeneration)) snapshot

/-- The store in front of the hot log: sealed, or the genesis of generation zero. -/
def loadBase (files : HistoryFiles) (manifest : Option HistoryManifest) :
    Except HistoryError PersistentHistoryStore :=
  match manifest.bind HistoryManifest.sealedBase with
  | none => do
    failIf ((manifest.map HistoryManifest.generation).getD 0 ≠ 0)
      (.invalid "history manifest without sealed base must be generation zero")
    PersistentHistoryStore.importPhysicalGenesis (files (.payload 0)) (files (.nodes 0))
  | some sealedBase =>
    loadSealed sha256 files ((manifest.map HistoryManifest.generation).getD 0) sealedBase

/-- The hot log of the generation; only before anything was published it may be missing. -/
def loadSuffix (files : HistoryFiles) (manifest : Option HistoryManifest) (generation : Nat) :
    Except HistoryError Bytes :=
  match files (.hot generation) with
  | some bytes => return bytes
  | none => do
    failIf manifest.isSome (.invalid "history hot log for the published generation is missing")
    return []

namespace PersistentHistoryStore

/-- `check_physical_frontiers_against_files` -/
def checkPhysicalFrontiers (store : PersistentHistoryStore) : Except HistoryError Unit :=
  match store.backend with
  | .memory _ => .ok ()
  | .physical content =>
    mapErr (fun e => .sequence (.avl e)) content.checkFilesCoverFrontiers

end PersistentHistoryStore

/-- `open_history_authority` -/
def openHistoryAuthority (files : HistoryFiles) : Except HistoryError OpenedHistory := do
  let manifest ← readManifest fromSlice files
  let generation := (manifest.map HistoryManifest.generation).getD 0
  let base ← loadBase sha256 files manifest
  let suffix ← loadSuffix files manifest generation
  let store ← replayHistorySuffix sha256 base suffix
  store.checkPhysicalFrontiers
  return ⟨store, generation, ⟨base.versions.length, suffix.length⟩⟩

end Loading

/-! ## Content files -/

section Content

variable {σ : Type}

abbrev ContentM (σ : Type) := FileM HistoryFile σ V2AvlError

def creationFailed : V2AvlError := .invalid "history physical content creation failed"

/-- A file that must not exist yet. -/
def createNewFile (name : HistoryFile) : ContentM σ Unit := do
  let files ← FileM.readDir
  FileM.attempt (failIf (files name).isSome creationFailed)
  FileM.step (.create name)

/-- `create_new` -/
def createContent (generation : Nat) : ContentM σ PhysicalContentStore := do
  createNewFile (.payload generation)
  createNewFile (.nodes generation)
  FileM.step (.write (.payload generation) 0 (encodeHeader physicalPayloadMagic generation))
  FileM.step (.write (.nodes generation) 0 (encodeHeader physicalNodeMagic generation))
  FileM.step (.sync (.payload generation))
  FileM.step (.sync (.nodes generation))
  return .createNew generation

/-- `ensure_open` and `ensure_writable` -/
def ensureContent (content : PhysicalContentStore) : ContentM σ PhysicalContentStore :=
  if content.payload = none ∨ content.nodes = none then do
    FileM.attempt (failIf (content.committedPayloadEnd ≠ 0 ∨ content.committedNodeCount ≠ 0)
      PhysicalContentStore.absent)
    createContent content.generation
  else return content

/-- Cuts a file that is longer than it should be. -/
def cutFile (name : HistoryFile) (before after : Option Bytes) : List (FileStep HistoryFile) :=
  if (before.getD []).length > (after.getD []).length then
    [.setLen name (after.getD []).length]
  else []

/-- `heal_for_write` -/
def healContent (content : PhysicalContentStore) : ContentM σ PhysicalContentStore := do
  let opened ← ensureContent content
  let healed ← FileM.attempt opened.healForWrite
  FileM.perform (cutFile (.payload opened.generation) opened.payload healed.payload)
  FileM.perform (cutFile (.nodes opened.generation) opened.nodes healed.nodes)
  return healed

/-- The write that takes a file to its new contents, if there is anything to write. -/
def appendFile (name : HistoryFile) (before : Option Bytes) (bytes : Bytes) :
    List (FileStep HistoryFile) :=
  if bytes.isEmpty then [] else [.write name (before.getD []).length bytes]

/-- What a refused step of `heal_for_write` fails with. -/
def healFailure : FileStep HistoryFile → V2AvlError
  | .setLen _ _ => .invalid "history physical orphan-tail healing failed"
  | _ => creationFailed

def payloadAppendFailed : V2AvlError := .invalid "history physical payload append failed"

def nodeAppendFailed : V2AvlError := .invalid "history physical node append failed"

def contentSyncFailed : V2AvlError := .invalid "history physical content sync failed"

/-- `rollback_to_committed`: both files cut to the frontier, if nothing is refused. -/
def rollbackContent (content : PhysicalContentStore) : ContentM WritableHistoryAuthority Bool :=
  match content.expectedPayload, content.expectedNodes with
  | .ok payloadLen, .ok nodesLen =>
    if content.payload = none then return true
    else FileM.succeeds do
      FileM.refusable healFailure (FileM.step (.setLen (.payload content.generation) payloadLen))
      FileM.attempt (failIf (content.nodes = none) PhysicalContentStore.absent)
      FileM.refusable healFailure (FileM.step (.setLen (.nodes content.generation) nodesLen))
  | _, _ => return false

/-- The nodes of a commit; when they fail, the content is rolled back. -/
def commitNodes (withPayload : PhysicalContentStore) (nodes : Bytes) :
    ContentM WritableHistoryAuthority PhysicalContentStore :=
  tryCatch (do
    let withNodes ← FileM.attempt (withPayload.appendNodeDelta nodes)
    FileM.refusable (fun _ => nodeAppendFailed)
      (FileM.perform (appendFile (.nodes withPayload.generation) withPayload.nodes nodes))
    return withNodes) fun e => do
    let _ ← rollbackContent withPayload
    throw e

/-- `commit_physical_delta`: heal, then the payload, then the nodes. -/
def commitContent (content : PhysicalContentStore) (delta : PhysicalDelta) :
    ContentM WritableHistoryAuthority PhysicalContentStore := do
  let healed ← FileM.refusable healFailure (healContent content)
  let withPayload ← FileM.attempt (healed.appendPayloadDelta delta.payload)
  FileM.refusable (fun _ => payloadAppendFailed)
    (FileM.perform (appendFile (.payload healed.generation) healed.payload delta.payload))
  commitNodes withPayload delta.nodes

/-- `sync_content` -/
def syncContent (content : PhysicalContentStore) : ContentM WritableHistoryAuthority Unit :=
  FileM.refusable (fun _ => contentSyncFailed) (FileM.perform
    [.sync (.payload content.generation), .sync (.nodes content.generation)])

/-- A content program inside the authority, with its error rewritten. -/
def liftContent {α : Type} (f : V2AvlError → DurableError) (x : ContentM σ α) :
    FileM HistoryFile σ DurableError α := fun s files =>
  match x s files with
  | (steps, result, s') => (steps, mapErr f result, s')

end Content

/-! ## Opening for writing -/

/-- `DurableHistoryLog::open_write` with `map_hot_open_error`: a missing log is created in
place. -/
def openHot {σ : Type} (sha256 : Bytes → Digest) (generation : Nat) :
    FileM HistoryFile σ DurableError DurableHistoryLog := do
  FileM.step (.create (.hot generation))
  let files ← FileM.readDir
  FileM.attempt (mapErr (fun _ => .rejected (.invalid "history hot log open failed"))
    (DurableHistoryLog.openWrite sha256 ((files (.hot generation)).getD [])))

/-- `heal_physical_for_write` -/
def healStore {σ : Type} (store : PersistentHistoryStore) :
    FileM HistoryFile σ DurableError PersistentHistoryStore :=
  match store.backend with
  | .memory _ => return store
  | .physical content => do
    let healed ← liftContent (fun e => .rejected (.sequence (.avl e))) (healContent content)
    return { store with backend := .physical healed }

/-- `WritableHistoryAuthority::open` -/
def WritableHistoryAuthority.open (sha256 : Bytes → Digest)
    (fromSlice : Bytes → Option JsonValue) :
    FileM HistoryFile Unit DurableError WritableHistoryAuthority := do
  FileM.step (.create .lock)
  let files ← FileM.readDir
  let opened ← FileM.attempt (rejecting (openHistoryAuthority sha256 fromSlice files))
  let store ← healStore opened.store
  let hot ← openHot sha256 opened.generation
  return ⟨store, opened.generation, opened.stats, hot, []⟩

/-! ## Mutations -/

section Mutations

variable (sha256 : Bytes → Digest)

/-- A program that fails with the error when one of its steps is refused. -/
def refusedWith {α : Type} (e : DurableError) (x : AuthorityM α) : AuthorityM α :=
  FileM.refusable (fun _ => e) x

/-- A sync whose refusal leaves it open what is durable: it poisons the authority. -/
def syncOrPoison (operation : DurabilityOperation) (sync : FileStep HistoryFile) :
    AuthorityM Unit :=
  tryCatch (refusedWith (.indeterminate operation) (FileM.step sync)) fun e => do
    modify fun auth => { auth with store := auth.store.setPoisoned }
    throw e

def appendRejected : DurableError :=
  .rejected (.invalid "history log append failed before any new authority")

/-- The handle of the hot log sees what is in the file. -/
def rereadHot : AuthorityM Unit := do
  let files ← FileM.readDir
  modify fun auth => { auth with
    hot := { auth.hot with file := (files (.hot auth.generation)).getD auth.hot.file } }

/-- `append_frame` on the hot log of the authority. No file reaches `2 ^ 64` bytes: a write that
would do so fails before it changes the file. -/
def appendHot (frame : Bytes) : AuthorityM Unit :=
  tryCatch (do
    let auth ← get
    refusedWith appendRejected (FileM.step (.setLen (.hot auth.generation) auth.hot.tail))
    let hot ← FileM.attempt (okOr (auth.hot.appendFrame frame) appendRejected)
    refusedWith appendRejected (FileM.step (.write (.hot auth.generation) auth.hot.tail frame))
    modify fun auth => { auth with hot }) fun e => do
    rereadHot
    throw e

/-- `write_and_sync` of the frame of a record. -/
def writeAndSync (frame : Bytes) : AuthorityM Unit := do
  appendHot frame
  let auth ← get
  syncOrPoison .fileSyncAll (.sync (.hot auth.generation))

def recordFrame (record : HistoryLogRecord) : Except DurableError Bytes :=
  rejecting (do
    let body ← encodeHistoryLogRecord record
    encodeHistoryLogFrame sha256 body)

/-- The application behind the barrier: a failure poisons the writer. -/
def applyAfterBarrier {α : Type} (x : EStateM HistoryError PersistentHistoryStore α) :
    AuthorityM α := fun auth _ =>
  match x auth.store with
  | .ok a store => ([], .ok a, { auth with store })
  | .error _ store =>
    ([], .error (.indeterminate .fileSyncAll), { auth with store := store.setPoisoned })

def requireUnpoisonedDurable : AuthorityM Unit := do
  let auth ← get
  FileM.attempt (failIf auth.store.poisoned .recoveryRequired)

/-- The open handles of the content see what is in the files. -/
def PersistentHistoryStore.reread (store : PersistentHistoryStore) (files : HistoryFiles) :
    PersistentHistoryStore :=
  match store.backend with
  | .memory _ => store
  | .physical content => { store with backend := .physical { content with
      payload := content.payload.bind fun _ => files (.payload content.generation)
      nodes := content.nodes.bind fun _ => files (.nodes content.generation) } }

def rereadContent : AuthorityM Unit := do
  let files ← FileM.readDir
  modify fun auth => { auth with store := auth.store.reread files }

def commitFailed : DurableError :=
  .rejected (.invalid "history physical content commit failed before any new authority")

def barrierFailed : DurableError :=
  .rejected (.invalid "history physical content barrier failed before any new authority")

/-- The sync of committed content; when it fails, the content is rolled back. -/
def contentBarrier (committed : PhysicalContentStore) : AuthorityM Unit :=
  tryCatch (liftContent (fun _ => barrierFailed) (syncContent committed)) fun _ => do
    let restored ← liftContent (fun _ => barrierFailed) (rollbackContent committed)
    throw (if restored then barrierFailed else .recoveryRequired)

/-- The physical half of a splice: the delta is in the files, synced, behind the frontier. -/
def commitPrepared (prepared : PreparedSplice) : AuthorityM (Option PhysicalPlacement) := do
  let auth ← get
  match prepared.physical, auth.store.backend with
  | some delta, .physical content =>
    tryCatch (do
      let committed ← liftContent (fun _ => commitFailed) (commitContent content delta)
      contentBarrier committed
      modify fun auth => { auth with
        store := { auth.store with backend := .physical committed } }
      return some ⟨committed.generation, delta.oldPayloadEnd, delta.newPayloadEnd,
        delta.oldNodeCount, delta.newNodeCount, delta.deltaDigest, rootBytes delta.root⟩) fun e => do
      rereadContent
      throw e
  | some _, .memory _ => throw commitFailed
  | none, _ => return none

def PreparedSplice.logRecord (prepared : PreparedSplice) (physical : Option PhysicalPlacement) :
    HistoryLogRecord :=
  .splice prepared.history prepared.version prepared.parent prepared.offset prepared.deleteLen
    prepared.insert prepared.requestId prepared.binding prepared.digest physical

namespace WritableHistoryAuthority

/-- The fresh part of `splice_durable`. -/
def spliceFresh (prepared : PreparedSplice) : AuthorityM CommitOutcome := do
  let physical ← commitPrepared prepared
  let frame ← FileM.attempt (recordFrame sha256 (prepared.logRecord physical))
  writeAndSync frame
  applyAfterBarrier
    (PersistentHistoryStore.applyPreparedSplice sha256 prepared prepared.physical.isSome)

/-- `splice_durable` -/
def splice (history : HistoryId) (parent : Option VersionId) (offset deleteLen : Nat)
    (insert : Bytes) (requestId binding : Option Bytes) : AuthorityM CommitOutcome := do
  requireUnpoisonedDurable
  let auth ← get
  match ← FileM.attempt (rejecting (auth.store.previewSplice sha256 history parent offset
      deleteLen insert requestId binding)) with
  | .replayed version => return .replayed version
  | .retired => return .retired
  | .fresh prepared => spliceFresh sha256 prepared

/-- `append_durable` -/
def append (history : HistoryId) (parent : Option VersionId) (bytes : Bytes)
    (requestId binding : Option Bytes) : AuthorityM CommitOutcome := do
  requireUnpoisonedDurable
  let auth ← get
  let offset ← FileM.attempt (rejecting (auth.store.appendOffset history parent))
  splice sha256 history parent offset 0 bytes requestId binding

/-- The fresh part of `fork_durable`. -/
def forkFresh (prepared : PreparedFork) : AuthorityM CommitOutcome := do
  let frame ← FileM.attempt (recordFrame sha256 (.fork prepared.history prepared.version
    prepared.parent prepared.requestId prepared.binding prepared.digest))
  writeAndSync frame
  applyAfterBarrier (PersistentHistoryStore.applyPreparedFork prepared)

/-- `fork_durable` -/
def fork (history : HistoryId) (parent : VersionId) (requestId binding : Option Bytes) :
    AuthorityM CommitOutcome := do
  requireUnpoisonedDurable
  let auth ← get
  match ← FileM.attempt (rejecting
      (auth.store.previewFork sha256 history parent requestId binding)) with
  | .replayed version => return .replayed version
  | .retired => return .retired
  | .fresh prepared => forkFresh sha256 prepared

/-- The fresh part of `expire_durable`. -/
def expireFresh (prepared : PreparedExpire) : AuthorityM ExpireOutcome := do
  let frame ← FileM.attempt
    (recordFrame sha256 (.expireVersion prepared.history prepared.version))
  writeAndSync frame
  applyAfterBarrier (PersistentHistoryStore.applyPreparedExpire prepared)

/-- `expire_durable` -/
def expire (version : VersionId) : AuthorityM ExpireOutcome := do
  requireUnpoisonedDurable
  let auth ← get
  match ← FileM.attempt (rejecting (auth.store.previewExpire version)) with
  | .alreadyExpired => return .alreadyExpired
  | .fresh prepared => expireFresh sha256 prepared

/-- What `retire_durable` finds in the ledger before it writes. -/
def retireDigest (store : PersistentHistoryStore) (requestId : Bytes) :
    Except HistoryError Digest := do
  validateRequestIdentity requestId
  match store.activeRequests.get requestId with
  | some record => return record.digest
  | none =>
    if store.retiredRequests.containsKey requestId then
      throw (.invalid "persistent request identity is already retired")
    else throw (.invalid "persistent active request identity is absent")

/-- `retire_durable` -/
def retire (requestId : Bytes) : AuthorityM Unit := do
  requireUnpoisonedDurable
  let auth ← get
  let digest ← FileM.attempt (rejecting (retireDigest auth.store requestId))
  let frame ← FileM.attempt (recordFrame sha256 (.retire requestId digest))
  writeAndSync frame
  applyAfterBarrier (PersistentHistoryStore.retireRequest requestId)

/-- The state change of `finish_durable_history_create`. -/
def finishCreate (history : HistoryId) (binding : Option Bytes) :
    EStateM HistoryError PersistentHistoryStore HistoryId := do
  let store ← get
  attempt (failIf (history ∈ store.histories)
    (.invalid "prepared history identity is already applied"))
  let adopted ← attempt (okOr (checkedAdd 64 history.id 1)
    (.invalid "prepared history identity exceeds the allocation counter"))
  attempt (failIf (store.nextHistoryId ≠ adopted)
    (.invalid "prepared history identity disagrees with the allocation counter"))
  set { store with
    histories := insert history store.histories
    historyBindings := match binding with
      | some bytes => store.historyBindings.insert history bytes
      | none => store.historyBindings }
  return history

/-- The creation of a history that no binding names yet: the counter moves before the frame is
written, and moves back when the write is rejected. -/
def createFresh (binding : Option Bytes) : AuthorityM HistoryId := do
  let auth ← get
  let id : HistoryId := ⟨auth.store.nextHistoryId⟩
  let frame ← FileM.attempt (recordFrame sha256 (.createHistory id binding))
  let after ← FileM.attempt (okOr (checkedAdd 64 auth.store.nextHistoryId 1)
    (.rejected (.overflow "persistent history count exceeds u64")))
  modify fun auth => { auth with store := { auth.store with nextHistoryId := after } }
  tryCatch (writeAndSync frame) fun e => do
    match e with
    | .rejected _ => modify fun auth' =>
        { auth' with store := { auth'.store with nextHistoryId := auth.store.nextHistoryId } }
    | _ => pure ()
    throw e
  applyAfterBarrier (finishCreate id binding)

/-- `create_history_durable` and `create_history_durable_with_binding` -/
def createHistory (binding : Option Bytes) : AuthorityM HistoryId := do
  requireUnpoisonedDurable
  let auth ← get
  FileM.attempt (rejecting (validateOptionalBinding binding))
  match binding.bind auth.store.historyOfBinding with
  | some existing => return existing
  | none => createFresh sha256 binding

end WritableHistoryAuthority

end Mutations

/-! ## Seal -/

section Seal

variable (sha256 : Bytes → Digest) (fromSlice : Bytes → Option JsonValue)

structure StagedSeal where
  previous : Nat
  generation : Nat
  representedWalEnd : Nat
  sealedBase : ManifestSealed
  snapshotLen : Nat
deriving DecidableEq

/-- `current_generation` -/
def currentGeneration : AuthorityM Nat := do
  let files ← FileM.readDir
  let manifest ← FileM.attempt (rejecting (readManifest fromSlice files))
  return (manifest.map HistoryManifest.generation).getD 0

/-- `current_hot_wal_end` -/
def currentHotWalEnd (current : Nat) : AuthorityM Nat := do
  let files ← FileM.readDir
  let bytes ← FileM.attempt (match files (.hot current) with
    | some bytes => .ok bytes
    | none => do
      failIf (current ≠ 0) (DurableError.rejected
        (.invalid "history hot log for the authoritative generation is missing"))
      return [])
  let (_, representedWalEnd) ← FileM.attempt (rejecting (decodeHistoryLog sha256 bytes))
  return representedWalEnd

/-- `write_file_synced`, which fails with the error. -/
def writeFileSynced (e : DurableError) (name : HistoryFile) (bytes : Bytes) : AuthorityM Unit :=
  refusedWith e (FileM.perform [.createEmpty name, .write name 0 bytes, .sync name])

/-- `publish_file`, which fails with the error. -/
def publishFile (e : DurableError) (tmp name : HistoryFile) : AuthorityM Unit :=
  refusedWith e (FileM.perform [.rename tmp name, .syncDir])

/-- The staged snapshot is read back, compared and decoded before it is published. -/
def publishSnapshot (generation : Nat) (snapshot : Bytes) : AuthorityM Unit := do
  writeFileSynced (.rejected (.invalid "history seal snapshot write failed"))
    (.snapshotTmp generation) snapshot
  let files ← FileM.readDir
  let sealedBack ← FileM.attempt (okOr (files (.snapshotTmp generation))
    (.rejected (.invalid "history seal snapshot re-read failed")))
  FileM.attempt (failIf (sealedBack ≠ snapshot)
    (.rejected (.invalid "history sealed snapshot did not survive its own write")))
  let _ ← FileM.attempt (rejecting (decodeHistorySnapshot sha256 sealedBack))
  publishFile (.rejected (.invalid "history seal snapshot publication failed"))
    (.snapshotTmp generation) (.snapshot generation)

/-- The empty hot log of the next generation; a stale one must be empty, too. -/
def publishHot (generation : Nat) : AuthorityM Unit := do
  let files ← FileM.readDir
  FileM.attempt (failIf ((files (.hot generation)).getD [] ≠ [])
    (.rejected (.invalid "history next-generation hot log is not empty")))
  writeFileSynced (.rejected (.invalid "history next hot log write failed")) (.hotTmp generation) []
  publishFile (.rejected (.invalid "history next hot log publication failed")) (.hotTmp generation)
    (.hot generation)

/-- `publish_staged_files` -/
def publishStagedFiles (current generation representedWalEnd : Nat) (snapshot : Bytes) :
    AuthorityM StagedSeal := do
  publishSnapshot sha256 generation snapshot
  publishHot generation
  return ⟨current, generation, representedWalEnd, .forSnapshot sha256 snapshot, snapshot.length⟩

/-- `commit_staged_manifest` -/
def commitStagedManifest (staged : StagedSeal) : AuthorityM Unit := do
  writeFileSynced (.rejected (.invalid "history manifest write failed")) .manifestTmp
    (encodeHistoryManifest ⟨staged.generation, some staged.sealedBase⟩)
  refusedWith (.rejected (.invalid "history manifest publication failed"))
    (FileM.step (.rename .manifestTmp .manifest))
  syncOrPoison .directorySync .syncDir

/-- A step whose refusal is told, and no more. -/
def stepSucceeds (step : FileStep HistoryFile) : AuthorityM Bool :=
  FileM.succeeds (refusedWith .recoveryRequired (FileM.step step))

/-- `recycle_superseded_hot`: whether a log was removed. -/
def recycleSupersededHot (previous : Nat) : AuthorityM Bool := do
  let files ← FileM.readDir
  if (files (.hot previous)).isSome then do
    let removed ← stepSucceeds (.remove (.hot previous))
    if removed then do
      let _ ← stepSucceeds .syncDir
      return true
    else return false
  else return false

/-- `current_generation` and its successor. -/
def nextGeneration : AuthorityM (Nat × Nat) := do
  let current ← currentGeneration fromSlice
  let generation ← FileM.attempt (okOr (checkedAdd 64 current 1)
    (.rejected (.overflow "history generation exceeds u64")))
  return (current, generation)

/-- `stage_sealed_generation`, for the snapshot of the given store. -/
def stageSealedGeneration (store : PersistentHistoryStore) : AuthorityM StagedSeal := do
  let (current, generation) ← nextGeneration fromSlice
  let representedWalEnd ← currentHotWalEnd sha256 current
  let snapshot ← FileM.attempt
    (rejecting (encodeHistorySnapshot sha256 store generation representedWalEnd))
  publishStagedFiles sha256 current generation representedWalEnd snapshot

/-- Staging, the opening of the next hot log, and the manifest: everything up to the point
where the new generation is durable. -/
def publishGeneration (store : PersistentHistoryStore) :
    AuthorityM (StagedSeal × DurableHistoryLog) := do
  let staged ← stageSealedGeneration sha256 fromSlice store
  let nextHot ← refusedWith (.rejected (.invalid "history hot log open failed"))
    (openHot sha256 staged.generation)
  commitStagedManifest staged
  return (staged, nextHot)

namespace WritableHistoryAuthority

/-- `seal_with_sync` of the directory sync that `seal` passes to it. -/
def sealWithSync : AuthorityM SealSummary := do
  requireUnpoisonedDurable
  let auth ← get
  let (staged, nextHot) ← publishGeneration sha256 fromSlice auth.store
  modify fun auth => { auth with
    hot := nextHot
    generation := staged.generation
    stats := ⟨auth.store.versions.length, 0⟩ }
  let recycledHot ← recycleSupersededHot staged.previous
  return ⟨staged.generation, staged.representedWalEnd, staged.snapshotLen, recycledHot⟩

end WritableHistoryAuthority

end Seal

end TulyaStore.History
