import TulyaStore.History.Store

/-!
# Sealed snapshots

The snapshot of one generation (`snapshot.rs`): the reconstructible metadata of a store with a
root record for every materialized version and the frontiers of the physical generation that
holds the content. Encoding takes it from a store, decoding checks everything the bytes can
show by themselves.
-/

namespace TulyaStore.History

open Lib Sequence

def historySnapshotMagic : Bytes := ascii "THS1"

/-- `HISTORY_SNAPSHOT_SCHEMA` -/
def historySnapshotSchema : Nat := 6

/-- `HISTORY_SNAPSHOT_HEADER_SIZE` -/
def historySnapshotHeaderSize : Nat := 112

def historySnapshotDigestDomain : Bytes := ascii "tulya-history/v1/snapshot\x00"

/-- A root record as it is stored. -/
abbrev RootBytes := Vector UInt8 v2RootRecordSize

/-- `encode_v2_root`, as the fixed-width array it is. -/
def rootBytes (root : V2RootRecord) : RootBytes :=
  ⟨(encodeV2Root root).toArray, by simp [v2RootRecordSize]⟩

structure SnapshotVersion where
  history : HistoryId
  parent : Option VersionId
  binding : Option Bytes
  lifecycle : VersionLifecycle
  rootPresent : Bool
  len : Nat
  root : Option RootBytes
deriving DecidableEq

structure SnapshotActive where
  requestId : Bytes
  digest : Digest
  version : VersionId
deriving DecidableEq

structure SnapshotRetired where
  requestId : Bytes
  digest : Digest
deriving DecidableEq

structure HistorySnapshot where
  generation : Nat
  representedWalEnd : Nat
  physicalGeneration : Nat
  payloadEnd : Nat
  nodeCount : Nat
  nextHistoryId : Nat
  nextVersionId : Nat
  historyBindings : List (Option Bytes)
  versions : List SnapshotVersion
  active : List SnapshotActive
  retired : List SnapshotRetired
  receiptOrder : List Bytes
deriving DecidableEq

/-! ## From a store to a snapshot -/

namespace PersistentHistoryStore

/-- `physical_generation` -/
def physicalGeneration (store : PersistentHistoryStore) : Option Nat :=
  match store.backend with
  | .memory _ => none
  | .physical content => some content.generation

/-- The committed frontiers of the files, or the sizes of the arena in memory. -/
def contentFrontiers (store : PersistentHistoryStore) : Nat × Nat :=
  match store.backend with
  | .memory inner => (inner.payload.length, inner.nodes.length)
  | .physical content => (content.committedPayloadEnd, content.committedNodeCount)

/-- The root record of a version, read from the backend. -/
def rootDescriptor (store : PersistentHistoryStore) (record : VersionRecord) :
    Except HistoryError (Option RootBytes) :=
  match record.root with
  | some root => do
    failIf (record.len ≠ root.logicalLen)
      (.invalid "history snapshot source version length disagrees with its materialized root")
    let canonical ← mapErr HistoryError.sequence (store.backend.resolve root)
    return some (rootBytes canonical)
  | none => do
    failIf (record.version.id ∉ store.expiredVersions)
      (.invalid "history snapshot source retained version has no materialized root")
    return none

def snapshotVersion (store : PersistentHistoryStore) (record : VersionRecord)
    (descriptor : Option RootBytes) : SnapshotVersion where
  history := record.version.history
  parent := record.version.parent
  binding := store.versionBindings.get record.version.id
  lifecycle := if record.version.id ∈ store.expiredVersions then .expired else .retained
  rootPresent := record.root.isSome
  len := record.len
  root := descriptor

/-- The snapshot struct `encode_history_snapshot` builds. -/
def snapshot (store : PersistentHistoryStore) (generation representedWalEnd : Nat) :
    Except HistoryError HistorySnapshot := do
  failIf (store.nextHistoryId ≠ store.histories.card)
    (.invalid "history snapshot source histories are not dense")
  failIf (store.nextVersionId ≠ store.versions.length)
    (.invalid "history snapshot source versions are not dense")
  failIf (store.versions.map (fun record => record.version.id.id) ≠
      List.range store.versions.length)
    (.invalid "history snapshot source version disagrees with its coordinate")
  let descriptors ← store.versions.mapM store.rootDescriptor
  failIf (store.receiptOrder.length ≠ store.activeRequests.size + store.retiredRequests.size)
    (.invalid "history snapshot source receipt order disagrees with its ledgers")
  return {
    generation, representedWalEnd
    physicalGeneration := store.physicalGeneration.getD 0
    payloadEnd := store.contentFrontiers.1
    nodeCount := store.contentFrontiers.2
    nextHistoryId := store.nextHistoryId
    nextVersionId := store.nextVersionId
    historyBindings := (List.range store.nextHistoryId).map fun index =>
      store.historyBindings.get ⟨index⟩
    versions := store.versions.zipWith store.snapshotVersion descriptors
    active := store.activeRequests.entries.map fun entry =>
      ⟨entry.1, entry.2.digest, entry.2.version⟩
    retired := store.retiredRequests.entries.map fun entry => ⟨entry.1, entry.2⟩
    receiptOrder := store.receiptOrder }

end PersistentHistoryStore

/-! ## Encoding -/

namespace Snapshot

/-- `put_optional_bytes` -/
def putOptionalBytes (bytes : Option Bytes) : Except HistoryError Bytes :=
  match bytes with
  | none => return leBytes 8 0
  | some bytes => do
    failIf (bytes.isEmpty ∨ bytes.length > maxHistoryBindingBytes)
      (.invalid "history snapshot binding is outside bounds")
    return leBytes 8 (bytes.length + 1) ++ bytes

/-- The bytes of every element, one after the other. -/
def putEach {α : Type} (put : α → Except HistoryError Bytes) : List α → Except HistoryError Bytes
  | [] => return []
  | x :: xs => do
    let head ← put x
    let rest ← putEach put xs
    return head ++ rest

def lifecycleByte : VersionLifecycle → UInt8
  | .retained => 0
  | .expired => 1

def putVersion (historyCount : Nat) (record : SnapshotVersion) : Except HistoryError Bytes := do
  failIf (record.history.id ≥ historyCount)
    (.invalid "history snapshot version references a missing history")
  failIf (record.rootPresent ≠ record.root.isSome)
    (.invalid "history snapshot version root presence disagrees with its descriptor")
  let binding ← putOptionalBytes record.binding
  return leBytes 8 record.history.id ++
    leBytes 8 ((record.parent.map VersionId.id).getD noParent) ++ binding ++
    [lifecycleByte record.lifecycle, if record.rootPresent then 1 else 0] ++
    leBytes 8 record.len ++ (record.root.map Vector.toList).getD []

def checkRequestBounds (requestId : Bytes) : Except HistoryError Unit :=
  failIf (requestId.isEmpty ∨ requestId.length > maxHistoryRequestIdBytes)
    (.invalid "history snapshot request identity is outside bounds")

/-- The order check of both ledgers: each request is above the one before it. -/
def checkAscending (message : String) (previous : Option Bytes) (requestId : Bytes) :
    Except HistoryError Unit :=
  match previous with
  | some before => failIf (requestId ≤ before) (.invalid message)
  | none => .ok ()

def activeOrderText : String := "history snapshot active requests are not strictly ordered"

def retiredOrderText : String := "history snapshot retired requests are not strictly ordered"

def putActive (versionCount : Nat) : Option Bytes → List SnapshotActive → Except HistoryError Bytes
  | _, [] => return []
  | previous, record :: rest => do
    checkRequestBounds record.requestId
    checkAscending activeOrderText previous record.requestId
    failIf (record.version.id ≥ versionCount)
      (.invalid "history snapshot active request references a missing version")
    let tail ← putActive versionCount (some record.requestId) rest
    return putBytes record.requestId ++ record.digest.toList ++ leBytes 8 record.version.id ++ tail

def putRetired : Option Bytes → List SnapshotRetired → Except HistoryError Bytes
  | _, [] => return []
  | previous, record :: rest => do
    checkRequestBounds record.requestId
    checkAscending retiredOrderText previous record.requestId
    let tail ← putRetired (some record.requestId) rest
    return putBytes record.requestId ++ record.digest.toList ++ tail

def putReceipt (requestId : Bytes) : Except HistoryError Bytes := do
  checkRequestBounds requestId
  return putBytes requestId

/-- Everything behind the header. -/
def putBody (snapshot : HistorySnapshot) : Except HistoryError Bytes := do
  let bindings ← putEach putOptionalBytes snapshot.historyBindings
  let versions ← putEach (putVersion snapshot.historyBindings.length) snapshot.versions
  let active ← putActive snapshot.versions.length none snapshot.active
  let retired ← putRetired none snapshot.retired
  let order ← putEach putReceipt snapshot.receiptOrder
  return bindings ++ versions ++ active ++ retired ++ order

def putHeader (snapshot : HistorySnapshot) (totalLen : Nat) : Bytes :=
  historySnapshotMagic ++ leBytes 8 totalLen ++ leBytes 4 historySnapshotSchema ++
    leBytes 8 snapshot.generation ++ leBytes 8 snapshot.representedWalEnd ++
    leBytes 8 snapshot.historyBindings.length ++ leBytes 8 snapshot.versions.length ++
    leBytes 8 snapshot.active.length ++ leBytes 8 snapshot.retired.length ++
    leBytes 8 snapshot.receiptOrder.length ++ leBytes 8 snapshot.physicalGeneration ++
    leBytes 8 snapshot.payloadEnd ++ leBytes 8 snapshot.nodeCount ++
    leBytes 8 snapshot.nextHistoryId ++ leBytes 8 snapshot.nextVersionId

end Snapshot

open Snapshot

section Encode

variable (sha256 : Bytes → Digest)

def snapshotDigest (pre : Bytes) : Digest := sha256 (historySnapshotDigestDomain ++ pre)

def encodeHistorySnapshotStruct (snapshot : HistorySnapshot) : Except HistoryError Bytes := do
  failIf (snapshot.nextHistoryId ≠ snapshot.historyBindings.length)
    (.invalid "history snapshot next history identity disagrees with its table")
  failIf (snapshot.nextVersionId ≠ snapshot.versions.length)
    (.invalid "history snapshot next version identity disagrees with its table")
  let body ← putBody snapshot
  let totalLen ← okOr (tryFrom 64 (historySnapshotHeaderSize + body.length + 32))
    (.overflow "history snapshot length exceeds usize")
  let pre := putHeader snapshot totalLen ++ body
  return pre ++ (snapshotDigest sha256 pre).toList

def encodeHistorySnapshot (store : PersistentHistoryStore) (generation representedWalEnd : Nat) :
    Except HistoryError Bytes := do
  let snapshot ← store.snapshot generation representedWalEnd
  encodeHistorySnapshotStruct sha256 snapshot

end Encode

/-! ## Receipt consistency -/

namespace Snapshot

def checkActiveReceipts (ordered : List Bytes) : List Bytes → List SnapshotActive →
    Except HistoryError Unit
  | _, [] => .ok ()
  | seen, record :: rest => do
    failIf (record.requestId ∉ ordered)
      (.invalid "history snapshot active request is absent from its receipt order")
    failIf (record.requestId ∈ seen)
      (.invalid "history snapshot active request identity is duplicated")
    checkActiveReceipts ordered (record.requestId :: seen) rest

def checkRetiredReceipt (ordered activeIds : List Bytes) (record : SnapshotRetired) :
    Except HistoryError Unit := do
  failIf (record.requestId ∉ ordered)
    (.invalid "history snapshot retired request is absent from its receipt order")
  failIf (record.requestId ∈ activeIds)
    (.invalid "history snapshot request identity is both active and retired")

def checkClaims (versions : List SnapshotVersion) : List Nat → List SnapshotActive →
    Except HistoryError Unit
  | _, [] => .ok ()
  | claimed, record :: rest => do
    let entry ← okOr versions[record.version.id]?
      (.invalid "history snapshot active request references a missing version")
    failIf (entry.lifecycle ≠ .retained)
      (.invalid "history snapshot active request references an expired version")
    failIf (record.version.id ∈ claimed)
      (.invalid "history snapshot active requests claim one version twice")
    checkClaims versions (record.version.id :: claimed) rest

/-- `validate_snapshot_receipt_consistency` -/
def validateReceiptConsistency (versions : List SnapshotVersion) (active : List SnapshotActive)
    (retired : List SnapshotRetired) (receiptOrder : List Bytes) : Except HistoryError Unit := do
  failIf (receiptOrder.length > stagingRequestReceiptCapacity)
    (.invalid "history snapshot receipt horizon exceeds its staging capacity")
  failIf (¬ receiptOrder.Nodup) (.invalid "history snapshot receipt order is duplicated")
  failIf (receiptOrder.length ≠ active.length + retired.length)
    (.invalid "history snapshot receipt order disagrees with its ledgers")
  checkActiveReceipts receiptOrder [] active
  retired.forM (checkRetiredReceipt receiptOrder (active.map SnapshotActive.requestId))
  checkClaims versions [] active

end Snapshot

/-! ## Decoding -/

/-- A step of the snapshot decoder over its cursor. -/
abbrev SnapshotReader := StateT LogCursor (Except HistoryError)

namespace SnapshotCursor

def take (len : Nat) : SnapshotReader Bytes := fun cursor => do
  let stop ← okOr (checkedAdd 64 cursor.pos len)
    (.overflow "history snapshot field range exceeds usize")
  let bytes ← okOr (slice cursor.bytes cursor.pos stop) (.invalid "history snapshot is truncated")
  return (bytes, { cursor with pos := stop })

def takeU64 : SnapshotReader Nat := do
  let bytes ← take 8
  return leValue bytes

def takeU32 : SnapshotReader Nat := do
  let bytes ← take 4
  return leValue bytes

def takeByte : SnapshotReader UInt8 := do
  let bytes ← take 1
  return bytes.headD 0

/-- A count, which can not exceed the bytes that are left. -/
def boundedCount (message : String) : SnapshotReader Nat := do
  let count ← takeU64
  let cursor ← get
  liftM (failIf (count > cursor.bytes.length - cursor.pos) (HistoryError.invalid message))
  return count

def takeArray (n : Nat) : SnapshotReader (Vector UInt8 n) := do
  let bytes ← take n
  liftM (okOr (asArray n bytes) (HistoryError.invalid "history snapshot field width mismatch"))

def takeRequestId : SnapshotReader Bytes := do
  let len ← takeU64
  liftM (failIf (len = 0 ∨ len > maxHistoryRequestIdBytes)
    (HistoryError.invalid "history snapshot request identity is outside bounds"))
  take len

def takeOptionalBytes : SnapshotReader (Option Bytes) := do
  let stored ← takeU64
  if stored = 0 then
    return none
  else
    liftM (failIf (stored - 1 = 0 ∨ stored - 1 > maxHistoryBindingBytes)
      (HistoryError.invalid "history snapshot binding is outside bounds"))
    let bytes ← take (stored - 1)
    return some bytes

/-- The same reader `n` times. -/
def takeMany {α : Type} (x : SnapshotReader α) : Nat → SnapshotReader (List α)
  | 0 => return []
  | n + 1 => do
    let head ← x
    let rest ← takeMany x n
    return head :: rest

end SnapshotCursor

namespace Snapshot

open SnapshotCursor

/-- The parent of the version at an index, looked up among the versions before it. -/
def decodeParent (before : List SnapshotVersion) (history rawParent : Nat) :
    Except HistoryError (Option VersionId) :=
  if rawParent = noParent then return none
  else do
    let parent ← okOr before[rawParent]?
      (.invalid "history snapshot version parent is not topologically prior")
    failIf (parent.history ≠ ⟨history⟩)
      (.invalid "history snapshot version parent belongs to a different history")
    return some ⟨rawParent⟩

def decodeLifecycle (byte : UInt8) : Except HistoryError VersionLifecycle :=
  if byte = 0 then .ok .retained
  else if byte = 1 then .ok .expired
  else .error (.invalid "history snapshot version lifecycle is unsupported")

def decodeRootPresence (byte : UInt8) : Except HistoryError Bool :=
  if byte = 0 then .ok false
  else if byte = 1 then .ok true
  else .error (.invalid "history snapshot version root presence is unsupported")

def takeRoot (rootPresent : Bool) : SnapshotReader (Option RootBytes) :=
  if rootPresent then do
    let descriptor ← takeArray v2RootRecordSize
    let _ ← liftM (mapErr
      (fun _ => HistoryError.invalid "history snapshot root descriptor is non-canonical")
      (decodeCanonicalRootBytes descriptor.toList))
    return some descriptor
  else return none

def takeVersion (historyCount : Nat) (before : List SnapshotVersion) :
    SnapshotReader SnapshotVersion := do
  let history ← takeU64
  liftM (failIf (history ≥ historyCount)
    (HistoryError.invalid "history snapshot version references a missing history"))
  let rawParent ← takeU64
  let parent ← liftM (decodeParent before history rawParent)
  let binding ← takeOptionalBytes
  let lifecycleByte ← takeByte
  let lifecycle ← liftM (decodeLifecycle lifecycleByte)
  let presenceByte ← takeByte
  let rootPresent ← liftM (decodeRootPresence presenceByte)
  let len ← takeU64
  liftM (failIf (len = 0) (HistoryError.invalid "history snapshot version length is zero"))
  liftM (failIf (lifecycle = .retained ∧ ¬ rootPresent)
    (HistoryError.invalid "history snapshot retained version has no materialized root"))
  let root ← takeRoot rootPresent
  return ⟨⟨history⟩, parent, binding, lifecycle, rootPresent, len, root⟩

def takeVersions (historyCount : Nat) : List SnapshotVersion → Nat →
    SnapshotReader (List SnapshotVersion)
  | before, 0 => return before
  | before, n + 1 => do
    let version ← takeVersion historyCount before
    takeVersions historyCount (before ++ [version]) n

def takeActive (versionCount : Nat) : List SnapshotActive → Nat →
    SnapshotReader (List SnapshotActive)
  | before, 0 => return before
  | before, n + 1 => do
    let requestId ← takeRequestId
    liftM (checkAscending activeOrderText (before.getLast?.map SnapshotActive.requestId) requestId)
    let digest ← takeArray 32
    let version ← takeU64
    liftM (failIf (version ≥ versionCount)
      (HistoryError.invalid "history snapshot active request references a missing version"))
    takeActive versionCount (before ++ [⟨requestId, digest, ⟨version⟩⟩]) n

def takeRetired (activeIds : List Bytes) : List SnapshotRetired → Nat →
    SnapshotReader (List SnapshotRetired)
  | before, 0 => return before
  | before, n + 1 => do
    let requestId ← takeRequestId
    liftM (checkAscending retiredOrderText (before.getLast?.map SnapshotRetired.requestId)
      requestId)
    liftM (failIf (requestId ∈ activeIds)
      (HistoryError.invalid "history snapshot request identity is both active and retired"))
    let digest ← takeArray 32
    takeRetired activeIds (before ++ [⟨requestId, digest⟩]) n

/-- The counts of the header. -/
structure Counts where
  histories : Nat
  versions : Nat
  active : Nat
  retired : Nat
  receiptOrder : Nat
deriving DecidableEq, Repr

def takeCounts : SnapshotReader Counts := do
  let histories ← boundedCount "history snapshot history count is excessive"
  let versions ← boundedCount "history snapshot version count is excessive"
  let active ← boundedCount "history snapshot active count is excessive"
  let retired ← boundedCount "history snapshot retired count is excessive"
  let receiptOrder ← boundedCount "history snapshot receipt order is excessive"
  return ⟨histories, versions, active, retired, receiptOrder⟩

/-- Everything in front of the digest. -/
def takeSnapshot : SnapshotReader HistorySnapshot := do
  let magic ← take 4
  liftM (failIf (magic ≠ historySnapshotMagic)
    (HistoryError.invalid "history snapshot magic mismatch"))
  let totalLen ← takeU64
  let cursor ← get
  liftM (failIf (totalLen ≠ cursor.bytes.length)
    (HistoryError.invalid "history snapshot length disagrees with its bytes"))
  let schema ← takeU32
  liftM (failIf (schema ≠ historySnapshotSchema)
    (HistoryError.invalid "history snapshot schema is unsupported"))
  let generation ← takeU64
  let representedWalEnd ← takeU64
  let counts ← takeCounts
  let physicalGeneration ← takeU64
  let payloadEnd ← takeU64
  let nodeCount ← takeU64
  let nextHistoryId ← takeU64
  let nextVersionId ← takeU64
  liftM (failIf (nextHistoryId ≠ counts.histories)
    (HistoryError.invalid "history snapshot next history identity disagrees with its table"))
  liftM (failIf (nextVersionId ≠ counts.versions)
    (HistoryError.invalid "history snapshot next version identity disagrees with its table"))
  let historyBindings ← takeMany takeOptionalBytes counts.histories
  liftM (failIf (¬ (historyBindings.filterMap id).Nodup)
    (HistoryError.invalid "history snapshot history bindings are not unique"))
  let versions ← takeVersions counts.histories [] counts.versions
  let active ← takeActive counts.versions [] counts.active
  let retired ← takeRetired (active.map SnapshotActive.requestId) [] counts.retired
  let receiptOrder ← takeMany takeRequestId counts.receiptOrder
  liftM (validateReceiptConsistency versions active retired receiptOrder)
  return {
    generation, representedWalEnd, physicalGeneration, payloadEnd, nodeCount, nextHistoryId
    nextVersionId, historyBindings, versions, active, retired, receiptOrder }

end Snapshot

def decodeHistorySnapshot (sha256 : Bytes → Digest) (bytes : Bytes) :
    Except HistoryError HistorySnapshot := do
  let (snapshot, cursor) ← takeSnapshot ⟨bytes, 0⟩
  failIf (bytes.length < 32) (.invalid "history snapshot digest is truncated")
  failIf (cursor.pos ≠ bytes.length - 32)
    (.invalid "history snapshot sections disagree with its digest boundary")
  failIf ((snapshotDigest sha256 (bytes.take (bytes.length - 32))).toList ≠
      bytes.drop (bytes.length - 32))
    (.invalid "history snapshot digest mismatch")
  return snapshot

end TulyaStore.History
