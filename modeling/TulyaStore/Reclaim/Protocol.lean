import Mathlib.Data.Finset.Basic
import TulyaStore.Lib.Machine
import TulyaStore.Lib.Runs

/-!
# Publication, reclaim and readers

The three parties that touch the generation files of one store directory: the writer that
publishes a segment, a route and then a manifest naming both (`seal_through`,
`delete_checkpoint_set` in `store.rs`), the background worker that removes what its manifest
does not name (`reclaim_worker_poll`, `reclaim_unreferenced_generation_files` in `mod.rs`), and
the lazy readers (`LazyCheckpointStore::open_internal` in `lazy.rs`). One `Action` is one
access to the manifest, the gate or a file; `step` is `none` where the action is not enabled.

The gate is a file lock: readers hold it shared from before they load the manifest until they
are dropped, and a scan that removes files holds it exclusively. The lease of a lazy writer is
a reader's. An eager writer holds none while it publishes.
-/

namespace TulyaStore.Reclaim

open Lib

/-! ## Files and manifests -/

/-- The names in a store directory. The name of a generation file is fixed by its generation. -/
inductive FileName where
  | segment (generation : Nat)
  | route (generation : Nat)
  | segmentTmp (generation : Nat)
  | routeTmp (generation : Nat)
  | manifestTmp
  | other (name : String)
deriving DecidableEq, Repr

/-- The names a reclaim may remove. The temporary manifest it tests for is not the one a
publication stages, `.structured-segment-manifest.json.tmp`. -/
def FileName.generationArtifact : FileName → Bool
  | .segment _ | .route _ | .segmentTmp _ | .routeTmp _ => true
  | .manifestTmp => false
  | .other name => name == ".manifest.json.tmp"

/-- The generation of a published segment or route file. -/
def FileName.published : FileName → Option Nat
  | .segment generation => some generation
  | .route generation => some generation
  | _ => none

/-- What a manifest says about the directory: its generation, and the generations whose
segment and route files it names. -/
structure Manifest where
  generation : Nat
  segments : List Nat
  routes : List Nat
deriving DecidableEq, Repr

/-- `Manifest::default()` -/
def Manifest.initial : Manifest := ⟨0, [], []⟩

def Manifest.referenced (manifest : Manifest) : List FileName :=
  manifest.segments.map .segment ++ manifest.routes.map .route

/-- A seal adds one generation to the manifest; a prune leaves only the rewritten one. -/
inductive Publication where
  | sealing
  | pruning
deriving DecidableEq, Repr

def Publication.nextManifest (publication : Publication) (manifest : Manifest) : Manifest :=
  let generation := manifest.generation + 1
  match publication with
  | .sealing => ⟨generation, manifest.segments ++ [generation], manifest.routes ++ [generation]⟩
  | .pruning => ⟨generation, [generation], [generation]⟩

/-! ## The parties -/

/-- How far the writer is. `recovering` has a loaded manifest and is about to reclaim, as an
open and the end of a prune do; `failed` is a poisoned handle. -/
inductive WriterPhase where
  | idle
  | segmentStaged (publication : Publication)
  | segmentPublished (publication : Publication)
  | routeStaged (publication : Publication)
  | routePublished (publication : Publication)
  | manifestStaged (publication : Publication)
  | recycling
  | recovering
  | scanning (pending : List FileName)
  | failed
deriving DecidableEq, Repr

inductive WorkerPhase where
  | idle
  | loaded (manifest : Manifest)
  | scanning (manifest : Manifest) (pending : List FileName)
  | stopped
deriving DecidableEq, Repr

/-- A reader: with its lease, with its manifest, with its segments open, or dropped. -/
inductive ReaderPhase where
  | leased
  | loaded (manifest : Manifest)
  | opened (manifest : Manifest)
  | closed
deriving DecidableEq, Repr

/-- The manifest the reader loaded. -/
def ReaderPhase.manifest : ReaderPhase → Option Manifest
  | .loaded manifest => some manifest
  | .opened manifest => some manifest
  | _ => none

def WorkerPhase.manifest : WorkerPhase → Option Manifest
  | .loaded manifest => some manifest
  | .scanning manifest _ => some manifest
  | _ => none

/-- The directory and the parties. `manifest` is the authoritative one on disk,
`writerManifest` the one the writer holds in memory. -/
structure World where
  files : Finset FileName
  manifest : Manifest
  writerManifest : Manifest
  writer : WriterPhase
  worker : WorkerPhase
  readers : List ReaderPhase
deriving DecidableEq

/-- An empty directory with an idle writer and worker. -/
def World.initial : World := ⟨∅, .initial, .initial, .idle, .idle, []⟩

/-- Somebody scans the directory and so holds the gate exclusively. -/
def World.exclusiveHeld (w : World) : Bool :=
  (match w.writer with | .scanning _ => true | _ => false) ||
    (match w.worker with | .scanning _ _ => true | _ => false)

/-- Some reader holds its lease. -/
def World.sharedHeld (w : World) : Bool := w.readers.any (fun reader => reader ≠ .closed)

/-- `try_acquire_exclusive` succeeds. -/
def World.gateFree (w : World) : Bool := !w.exclusiveHeld && !w.sharedHeld

/-! ## Steps -/

inductive Action where
  | beginPublication (publication : Publication)
  | publishSegment
  | stageRoute
  | publishRoute
  | stageManifest
  | replaceManifest
  | recycleWal
  | reopen
  | writerTryGate
  | writerList (name : FileName)
  | writerRemove
  | writerFinish
  | workerStart
  | workerLoad
  | workerTryGate
  | workerList (name : FileName)
  | workerRemove
  | workerFinish
  | readerAcquire
  | readerLoad (reader : Nat)
  | readerOpen (reader : Nat)
  | readerClose (reader : Nat)
deriving DecidableEq, Repr

/-- The test of the reclaim loop on one directory entry. -/
def removable (manifest : Manifest) (name : FileName) : Bool :=
  name.generationArtifact && !manifest.referenced.contains name

/-- One turn of the reclaim loop; `none` when the file to remove is gone. -/
def removeEntry (manifest : Manifest) (name : FileName) (files : Finset FileName) :
    Option (Finset FileName) :=
  if removable manifest name then if name ∈ files then some (files.erase name) else none
  else some files

/-- `publish_existing_tmp`: rename the temporary file, or fail when it is missing. -/
def World.rename (w : World) (tmp name : FileName) (done : WriterPhase) : World :=
  if tmp ∈ w.files then { w with files := insert name (w.files.erase tmp), writer := done }
  else { w with writer := .failed }

/-- The steps of `seal_through` and `delete_checkpoint_set` up to the manifest. -/
def publicationStep (w : World) : Action → Option World
  | .beginPublication publication =>
    match w.writer, checkedAdd 64 w.writerManifest.generation 1 with
    | .idle, some generation => some { w with
        files := insert (.segmentTmp generation) w.files
        writer := .segmentStaged publication }
    | _, _ => none
  | .publishSegment =>
    match w.writer with
    | .segmentStaged publication =>
      let generation := w.writerManifest.generation + 1
      some (w.rename (.segmentTmp generation) (.segment generation) (.segmentPublished publication))
    | _ => none
  | .stageRoute =>
    match w.writer with
    | .segmentPublished publication => some { w with
        files := insert (.routeTmp (w.writerManifest.generation + 1)) w.files
        writer := .routeStaged publication }
    | _ => none
  | .publishRoute =>
    match w.writer with
    | .routeStaged publication =>
      let generation := w.writerManifest.generation + 1
      some (w.rename (.routeTmp generation) (.route generation) (.routePublished publication))
    | _ => none
  | .stageManifest =>
    match w.writer with
    | .routePublished publication => some { w with
        files := insert .manifestTmp w.files
        writer := .manifestStaged publication }
    | _ => none
  | .replaceManifest =>
    match w.writer with
    | .manifestStaged publication =>
      if .manifestTmp ∈ w.files then
        let next := publication.nextManifest w.writerManifest
        some { w with
          files := w.files.erase .manifestTmp
          manifest := next
          writerManifest := next
          -- a seal recycles the log next, a prune reclaims the old generation
          writer := match publication with | .sealing => .recycling | .pruning => .recovering }
      else some { w with writer := .failed }
    | _ => none
  | .recycleWal =>
    match w.writer with
    | .recycling => some { w with writer := .idle }
    | _ => none
  | _ => none

/-- The writer's own reclaim, and an open after any interruption. -/
def recoveryStep (w : World) : Action → Option World
  | .reopen => some { w with writerManifest := w.manifest, writer := .recovering }
  | .writerTryGate =>
    match w.writer with
    | .recovering => some { w with writer := if w.gateFree then .scanning [] else .idle }
    | _ => none
  | .writerList name =>
    match w.writer with
    | .scanning pending =>
      if name ∈ w.files then some { w with writer := .scanning (pending ++ [name]) } else none
    | _ => none
  | .writerRemove =>
    match w.writer with
    | .scanning (name :: pending) =>
      match removeEntry w.writerManifest name w.files with
      | some files => some { w with files := files, writer := .scanning pending }
      | none => some { w with writer := .failed }
    | _ => none
  | .writerFinish =>
    match w.writer with
    | .scanning [] => some { w with writer := .idle }
    | _ => none
  | _ => none

/-- `reclaim_worker_poll`: the manifest is loaded before the gate is tried. -/
def workerStep (w : World) : Action → Option World
  | .workerStart => some { w with worker := .idle }
  | .workerLoad =>
    match w.worker with
    | .idle => some { w with worker := .loaded w.manifest }
    | _ => none
  | .workerTryGate =>
    match w.worker with
    | .loaded manifest => some { w with
        worker := if w.gateFree then .scanning manifest [] else .idle }
    | _ => none
  | .workerList name =>
    match w.worker with
    | .scanning manifest pending =>
      if name ∈ w.files then some { w with worker := .scanning manifest (pending ++ [name]) }
      else none
    | _ => none
  | .workerRemove =>
    match w.worker with
    | .scanning manifest (name :: pending) =>
      match removeEntry manifest name w.files with
      | some files => some { w with files := files, worker := .scanning manifest pending }
      | none => some { w with worker := .stopped }
    | _ => none
  | .workerFinish =>
    match w.worker with
    | .scanning _ [] => some { w with worker := .idle }
    | _ => none
  | _ => none

/-- The segment files the manifest names are there to be opened. -/
def segmentsPresent (files : Finset FileName) (manifest : Manifest) : Bool :=
  manifest.segments.all (fun generation => FileName.segment generation ∈ files)

/-- `open_internal`: lease, manifest, segment files. A failed open drops the lease. -/
def readerStep (w : World) : Action → Option World
  | .readerAcquire =>
    if w.exclusiveHeld then none else some { w with readers := w.readers ++ [.leased] }
  | .readerLoad reader =>
    match w.readers[reader]? with
    | some .leased => some { w with readers := w.readers.set reader (.loaded w.manifest) }
    | _ => none
  | .readerOpen reader =>
    match w.readers[reader]? with
    | some (.loaded manifest) => some { w with
        readers := w.readers.set reader
          (if segmentsPresent w.files manifest then .opened manifest else .closed) }
    | _ => none
  | .readerClose reader =>
    match w.readers[reader]? with
    | some _ => some { w with readers := w.readers.set reader .closed }
    | none => none
  | _ => none

/-- An action is one of exactly one party. -/
def step (w : World) (action : Action) : Option World :=
  (publicationStep w action).or ((recoveryStep w action).or ((workerStep w action).or
    (readerStep w action)))

/-- The state after the actions, when each is enabled. -/
def run (actions : List Action) : Option World := runSteps step .initial actions

/-! ## What has to hold -/

/-- Every file the manifest names exists. -/
def Manifest.Present (manifest : Manifest) (files : Finset FileName) : Prop :=
  ∀ name ∈ manifest.referenced, name ∈ files

/-- The files of the authoritative manifest exist, and those of every open reader's. -/
def FilesPresent (w : World) : Prop :=
  w.manifest.Present w.files ∧
    ∀ reader ∈ w.readers, ∀ manifest, reader.manifest = some manifest → manifest.Present w.files

instance (manifest : Manifest) (files : Finset FileName) : Decidable (manifest.Present files) :=
  inferInstanceAs (Decidable (∀ name ∈ manifest.referenced, name ∈ files))

end TulyaStore.Reclaim
