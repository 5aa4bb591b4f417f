import TulyaStore.Checkpoint.Route
import TulyaStore.Checkpoint.Segment

/-!
# The manifest and the store directory

The manifest names the authoritative generations (`manifest.rs`, `segment.rs`). Its JSON text is
represented by the value it stands for. A `Directory` is what the store keeps on disk: the
manifest, one segment and one route file per generation, and the hot write-ahead log. File names
carry nothing but the generation, so files are keyed by it; temporary files are never read.
-/

namespace TulyaStore.Checkpoint

open Lib

abbrev StoreId := Vector UInt8 16

structure RetiredRequestRecord where
  key : Bytes
  operationDigest : Digest
deriving DecidableEq, Repr

structure Manifest where
  generation : Nat
  sealedEndWalBytes : Nat
  checkpointCount : Nat
  versionCount : Nat
  threadCount : Nat
  streamSizes : Column → Nat
  segments : List SegmentMeta
  routes : List RouteMeta
  storeId : Option StoreId
  deletedCheckpoints : List CheckpointKey
  retiredRequests : List RetiredRequestRecord
deriving DecidableEq

/-- `Manifest::default()` -/
def Manifest.empty : Manifest where
  generation := 0
  sealedEndWalBytes := 0
  checkpointCount := 0
  versionCount := 0
  threadCount := 0
  streamSizes := fun _ => 0
  segments := []
  routes := []
  storeId := none
  deletedCheckpoints := []
  retiredRequests := []

/-- The files of a store. -/
structure Directory where
  manifest : Option Manifest
  segments : KeyMap Nat Bytes
  routes : KeyMap Nat Bytes
  hot : Option Bytes
deriving DecidableEq

def Directory.empty : Directory := ⟨none, .empty, .empty, none⟩

namespace Geometry

/-- The watermarks of the sealed generations. -/
def fromManifest (manifest : Manifest) : Geometry where
  byteLen := manifest.streamSizes .payload
  nodeCount := manifest.streamSizes .nodeKind
  wideCount := manifest.streamSizes .wideKind
  versionCount := manifest.versionCount
  checkpointCount := manifest.checkpointCount

/-- The watermarks before the last generation. -/
def previousGeneration (manifest : Manifest) : Option Geometry :=
  manifest.segments.getLast?.map (fun last =>
    { byteLen := last.streamStarts .payload, nodeCount := last.streamStarts .nodeKind,
      wideCount := last.streamStarts .wideKind, versionCount := last.versionStartCount,
      checkpointCount := last.checkpointStartCount })

end Geometry

/-! ## Checks -/

section Validate

variable (P : Primitives)

/-- Where the next generation has to start. -/
structure ExpectedStart where
  streams : Column → Nat
  wal : Nat
  checkpoints : Nat
  versions : Nat
  generation : Nat
deriving DecidableEq

def ExpectedStart.zero : ExpectedStart := ⟨fun _ => 0, 0, 0, 0, 0⟩

def ExpectedStart.after (segment : SegmentMeta) : ExpectedStart :=
  ⟨segment.streamEnds, segment.walEndBytes, segment.checkpointEndCount, segment.versionEndCount,
    segment.generation⟩

/-- One turn of the loop over the generations. -/
def validateGeneration (dir : Directory) (expected : ExpectedStart) (segment : SegmentMeta)
    (route : RouteMeta) : Except StoreError ExpectedStart := do
  failIf (segment.generation ≤ expected.generation ∨ segment.generation ≠ route.generation)
    (.format "manifest generation ordering mismatch")
  failIf (segment.walStartBytes ≠ expected.wal ∨
      segment.checkpointStartCount ≠ expected.checkpoints ∨
      segment.versionStartCount ≠ expected.versions ∨ segment.streamStarts ≠ expected.streams)
    (.format "manifest authority ranges are not contiguous")
  let segmentFile ← okOr (dir.segments.get segment.generation) .io
  let routeFile ← okOr (dir.routes.get route.generation) .io
  failIf (segmentFile.length ≠ segment.segmentFileBytes ∨ routeFile.length ≠ route.routeFileBytes)
    (.format "manifest referenced file size mismatch")
  validateRouteFile P routeFile route
  .ok (.after segment)

def validateGenerations (dir : Directory) : ExpectedStart → List (SegmentMeta × RouteMeta) →
    Except StoreError ExpectedStart
  | expected, [] => .ok expected
  | expected, (segment, route) :: rest => do
    let next ← validateGeneration P dir expected segment route
    validateGenerations dir next rest

/-- A sum that must stay a `u64`. -/
def checkedTotal (message : String) : Nat → List Nat → Except StoreError Nat
  | total, [] => .ok total
  | total, n :: rest => do
    let next ← okOr (checkedAdd 64 total n) (.format message)
    checkedTotal message next rest

def validateManifest (dir : Directory) (manifest : Manifest) : Except StoreError Unit := do
  failIf (manifest.segments.length ≠ manifest.routes.length)
    (.format "manifest stream or segment/route width mismatch")
  let reached ← validateGenerations P dir .zero (manifest.segments.zip manifest.routes)
  let routeCheckpoints ← checkedTotal "route checkpoint total overflow" 0
    (manifest.routes.map RouteMeta.checkpointEntryCount)
  let routeThreads ← checkedTotal "route thread total overflow" 0
    (manifest.routes.map RouteMeta.threadEntryCount)
  failIf (manifest.generation ≠ reached.generation ∨ manifest.sealedEndWalBytes ≠ reached.wal ∨
      manifest.checkpointCount ≠ reached.checkpoints ∨ manifest.versionCount ≠ reached.versions ∨
      manifest.streamSizes ≠ reached.streams ∨ manifest.checkpointCount ≠ routeCheckpoints ∨
      manifest.threadCount ≠ routeThreads)
    (.format "manifest top-level authority mismatch")

def validateTombstones : List CheckpointKey → Except StoreError Unit
  | [] => .ok ()
  | key :: rest => do
    validateCheckpointIdentifier key.threadId "thread id"
    validateCheckpointIdentifier key.checkpointId "checkpoint id"
    validateTombstones rest

def validateRetiredRequests : List RetiredRequestRecord → Except StoreError Unit
  | [] => .ok ()
  | record :: rest => do
    validateRequestId record.key
    validateRetiredRequests rest

/-- The manifest on disk, checked against the files it names. -/
def loadManifest (dir : Directory) : Except StoreError Manifest :=
  match dir.manifest with
  | none => .ok .empty
  | some manifest => do
    validateTombstones manifest.deletedCheckpoints
    validateRetiredRequests manifest.retiredRequests
    validateManifest P dir manifest
    .ok manifest

/-- A directory without a manifest gets one, with a fresh store id. -/
def ensureFormatV1Manifest (freshId : StoreId) (dir : Directory) (manifest : Manifest) :
    Directory × Manifest :=
  if dir.manifest.isSome ∧ manifest.storeId.isSome then (dir, manifest)
  else
    let manifest := { manifest with storeId := some (manifest.storeId.getD freshId) }
    ({ dir with manifest := some manifest }, manifest)

end Validate

end TulyaStore.Checkpoint
