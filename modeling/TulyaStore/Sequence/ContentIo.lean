import TulyaStore.Lib.Faults
import TulyaStore.Sequence.ContentFiles

/-!
# The content store on its files

`Physical` has the files of a content store at hand as byte strings, and nothing fails there.
Here the store of `physical.rs` has handles on two files of a directory, and each of its calls on
them may fail or be the last one before a crash. What the store can read through its handles is a
store of `Physical` (`OpenStore.view`).

The calls stand in the order of the source. Handles go on naming their files, since nothing here
removes or replaces one.
-/

namespace TulyaStore.Sequence

open Lib DiskM

inductive ContentName where
  | payload
  | nodes
deriving DecidableEq, Repr

/-- What `PhysicalContentStore` keeps in memory: whether it has its handles, whether they may
write, and the frontiers. -/
structure OpenStore where
  generation : Nat
  payload : Bool
  nodes : Bool
  writable : Bool
  committedPayloadEnd : Nat
  committedNodeCount : Nat
deriving DecidableEq, Repr

/-- The store as its handles see the files. -/
def OpenStore.view (store : OpenStore) (files : Files ContentName) : PhysicalContentStore where
  generation := store.generation
  payload := if store.payload then files .payload else none
  nodes := if store.nodes then files .nodes else none
  committedPayloadEnd := store.committedPayloadEnd
  committedNodeCount := store.committedNodeCount

abbrev ContentM : Type → Type := DiskM ContentName OpenStore V2AvlError

namespace ContentIo

def createFailed : V2AvlError := .invalid "history physical content creation failed"

def upgradeFailed : V2AvlError := .invalid "history physical content writable upgrade failed"

def healFailed : V2AvlError := .invalid "history physical orphan-tail healing failed"

def payloadAppendFailed : V2AvlError := .invalid "history physical payload append failed"

def nodeAppendFailed : V2AvlError := .invalid "history physical node append failed"

def syncFailed : V2AvlError := .invalid "history physical content sync failed"

/-- A sync changes nothing that later calls see. -/
def syncAll (e : V2AvlError) : ContentM Unit := touch e

/-- `create_new`: both files with their headers, which must not exist yet. -/
def createFiles (generation : Nat) : ContentM Unit := do
  createNew createFailed .payload
  createNew createFailed .nodes
  writeAll createFailed .payload (fun _ => 0) (encodeHeader physicalPayloadMagic generation)
  writeAll createFailed .nodes (fun _ => 0) (encodeHeader physicalNodeMagic generation)
  syncAll createFailed
  syncAll createFailed

/-- `ensure_open` -/
def ensureOpen : ContentM Unit := do
  let store := (← get).own
  if store.payload = false ∨ store.nodes = false then
    check (failIf (store.committedPayloadEnd ≠ 0 ∨ store.committedNodeCount ≠ 0)
      PhysicalContentStore.absent)
    createFiles store.generation
    modifyOwn fun store => { store with payload := true, nodes := true, writable := true }

/-- Opens a file that exists. -/
def openFile (e : V2AvlError) (name : ContentName) : ContentM Unit := do
  touch e
  check (failIf ((← get).files name).isNone e)

/-- `ensure_writable` -/
def ensureWritable : ContentM Unit := do
  ensureOpen
  if (← get).own.writable = false then
    openFile upgradeFailed .payload
    openFile upgradeFailed .nodes
    modifyOwn fun store => { store with payload := true, nodes := true, writable := true }

/-- The length of a file behind a handle, which may be missing. -/
def fileLen (missing e : V2AvlError) (handle : OpenStore → Bool) (name : ContentName) :
    ContentM Nat := do
  if handle (← get).own = false then fail missing
  touch e
  return fileEnd name (← get).files

/-- `set_len` of a handle: only of one that may write. -/
def cutFile (e : V2AvlError) (name : ContentName) (len : Nat) : ContentM Unit := do
  if (← get).own.writable = false then fail e
  setLen e name len

/-- The frontiers as file lengths. -/
def expectedPayload : ContentM Nat := do
  check ((← get).own.view fun _ => none).expectedPayload

def expectedNodes : ContentM Nat := do
  check ((← get).own.view fun _ => none).expectedNodes

/-- The cut of a heal: a file of exactly the expected length is left alone. -/
def cutTail (name : ContentName) (actual expected : Nat) : ContentM Unit :=
  if actual > expected then cutFile healFailed name expected else pure ()

/-- `heal_for_write` -/
def healForWrite : ContentM Unit := do
  ensureWritable
  let expectedPayload ← expectedPayload
  let expectedNodes ← expectedNodes
  let payloadLen ← fileLen healFailed healFailed OpenStore.payload .payload
  let nodesLen ← fileLen healFailed healFailed OpenStore.nodes .nodes
  check (failIf (payloadLen < expectedPayload ∨ nodesLen < expectedNodes)
    PhysicalContentStore.tooShort)
  cutTail .payload payloadLen expectedPayload
  cutTail .nodes nodesLen expectedNodes

/-- The write of an append: at the end of the file. -/
def appendAt (e : V2AvlError) (name : ContentName) (bytes : Bytes) : ContentM Unit := do
  touch e
  writeAll e name (fileEnd name) bytes

/-- `append_payload_delta` -/
def appendPayloadDelta (bytes : Bytes) : ContentM Unit := do
  ensureWritable
  if bytes ≠ [] then
    let expected ← expectedPayload
    let actual ← fileLen PhysicalContentStore.absent payloadAppendFailed OpenStore.payload .payload
    check (failIf (actual ≠ expected)
      (.invalid "history physical payload file disagrees with its committed frontier"))
    appendAt payloadAppendFailed .payload bytes

/-- `append_node_delta` -/
def appendNodeDelta (bytes : Bytes) : ContentM Unit := do
  if bytes ≠ [] then
    check (failIf (bytes.length % physicalNodeRecordSize ≠ 0)
      (.invalid "history physical node delta is not record-aligned"))
    let expected ← expectedNodes
    ensureWritable
    let actual ← fileLen PhysicalContentStore.absent nodeAppendFailed OpenStore.nodes .nodes
    check (failIf (actual ≠ expected)
      (.invalid "history physical node file disagrees with its committed frontier"))
    appendAt nodeAppendFailed .nodes bytes

/-- `sync_content` -/
def syncContent : ContentM Unit := do
  ensureWritable
  let store := (← get).own
  check (failIf (store.payload = false) PhysicalContentStore.absent)
  syncAll syncFailed
  check (failIf (store.nodes = false) PhysicalContentStore.absent)
  syncAll syncFailed

/-- The truncations of `rollback_to_committed`. -/
def rollbackTo (expectedPayload expectedNodes : Nat) : ContentM Bool := do
  if (← get).own.payload = false then return true
  if ← succeeds (cutFile healFailed .payload expectedPayload) then
    if (← get).own.nodes = false then return false
    succeeds (cutFile healFailed .nodes expectedNodes)
  else return false

/-- `rollback_to_committed`: whether the files match the frontier again. -/
def rollbackToCommitted : ContentM Bool := do
  let store := (← get).own.view fun _ => none
  match store.expectedPayload, store.expectedNodes with
  | .ok expectedPayload, .ok expectedNodes => rollbackTo expectedPayload expectedNodes
  | _, _ => return false

/-- `commit_physical_delta` -/
def commitPhysicalDelta (delta : PhysicalDelta) : ContentM Unit := do
  healForWrite
  appendPayloadDelta delta.payload
  onError (appendNodeDelta delta.nodes) fun e => do
    let _ ← rollbackToCommitted
    fail e

/-- The physical half of a durable splice: the commit, and the barrier with its rollback. -/
def commitAndSync (delta : PhysicalDelta) : ContentM Unit := do
  commitPhysicalDelta delta
  onError syncContent fun e => do
    let _ ← rollbackToCommitted
    fail e

/-- `adopt_physical_delta` -/
def adoptPhysicalDelta (delta : PhysicalDelta) (store : OpenStore) : OpenStore :=
  { store with
    committedPayloadEnd := delta.newPayloadEnd
    committedNodeCount := delta.newNodeCount }

/-! ## Opening -/

abbrev OpenM : Type → Type := DiskM ContentName Unit V2AvlError

/-- Opens a file for reading; its bytes stand for the handle. -/
def openForRead (name : ContentName) : OpenM Bytes := do
  touch PhysicalContentStore.openFailed
  check (okOr ((← get).files name) PhysicalContentStore.openFailed)

def readHeader (file : Bytes) : OpenM Bytes := do
  touch PhysicalContentStore.openFailed
  check (okOr (readExactAt file 0 physicalHeaderSize) PhysicalContentStore.openFailed)

def checkHeader (magic header : Bytes) (generation : Nat) : Except V2AvlError Unit := do
  let found ← decodeHeader magic header
  failIf (found ≠ generation)
    (.invalid "history physical content generation disagrees with its headers")

/-- `open_existing` -/
def openExisting (generation payloadEnd nodeCount : Nat) (writable : Bool) : OpenM OpenStore := do
  let payload ← openForRead .payload
  let nodes ← openForRead .nodes
  let payloadHeader ← readHeader payload
  let nodesHeader ← readHeader nodes
  check (checkHeader physicalPayloadMagic payloadHeader generation)
  check (checkHeader physicalNodeMagic nodesHeader generation)
  touch PhysicalContentStore.openFailed
  touch PhysicalContentStore.openFailed
  let store : OpenStore := ⟨generation, true, true, writable, payloadEnd, nodeCount⟩
  check ((store.view fun _ => none).checkLengths payload nodes)
  return store

/-- `open_deferred` -/
def openDeferred (generation : Nat) : OpenStore := ⟨generation, false, false, false, 0, 0⟩

/-- `is_file`: a question that fails is answered with no. -/
def isFile (name : ContentName) : OpenM Bool := do
  let asked ← succeeds (touch PhysicalContentStore.openFailed)
  return asked && ((← get).files name).isSome

/-- `import_physical_genesis`: generation 0 without any commit; the files may not exist yet. -/
def importPhysicalGenesis : OpenM OpenStore := do
  let present ← isFile .payload
  if present then
    let present ← isFile .nodes
    if present then openExisting 0 0 0 false else return openDeferred 0
  else return openDeferred 0

end ContentIo

end TulyaStore.Sequence
