import TulyaStore.Sequence.Physical

/-!
# The two backends of the balanced sequence

`BalancedSequence` of `persistent_sequence.rs` keeps its content in memory or in the files of
a physical generation. A root crosses its interface as a `PersistentRoot`, which names a node
and a length only; `resolve` reads the full root record back from the backend.

A splice on the physical backend is prepared as a delta, appended to the files and adopted;
the three steps are separate here, since the history store takes them separately. The work
counters and the I/O ledger are left out.
-/

namespace TulyaStore.Sequence

open Lib

inductive SequenceError where
  | avl (error : V2AvlError)
  | invalid (message : String)
  | capacity (message : String)
deriving DecidableEq, Repr

inductive SequenceRepresentation where
  | legacyV1
  | balancedV2
deriving DecidableEq, Repr

structure PersistentRoot where
  nodeId : Nat
  logicalLen : Nat
  representation : SequenceRepresentation
deriving DecidableEq, Repr

def PersistentRoot.balancedV2 (nodeId logicalLen : Nat) : PersistentRoot :=
  ⟨nodeId, logicalLen, .balancedV2⟩

inductive SequenceBackend where
  | memory (inner : V2AvlSequence)
  | physical (store : PhysicalContentStore)
deriving DecidableEq, Repr

/-- An error of the sequence core raised inside the backend. -/
def liftAvl {α : Type} (x : Except V2AvlError α) : Except SequenceError α := mapErr .avl x

/-- `decode_canonical_root_bytes`: of the stored root only the node and the length go on. -/
def decodeCanonicalRootBytes (bytes : Bytes) : Except SequenceError PersistentRoot := do
  let root ← liftAvl (liftFormat (decodeV2Root bytes))
  return .balancedV2 root.nodeId root.logicalLen

namespace SequenceBackend

/-- The root record a backend has for a node identifier. -/
def rootForNodeId (backend : SequenceBackend) (nodeId : Nat) : Except V2AvlError V2RootRecord :=
  match backend with
  | memory inner => rootForNodeIdOn inner nodeId
  | physical store => do
    let record ← store.loadRecord nodeId
    liftFormat (V2RootRecord.fromNode nodeId record)

def resolve (backend : SequenceBackend) (root : PersistentRoot) :
    Except SequenceError V2RootRecord := do
  failIf (root.representation ≠ .balancedV2)
    (.invalid "balanced sequence backend received an incompatible root")
  let canonical ← liftAvl (backend.rootForNodeId root.nodeId)
  failIf (canonical.logicalLen ≠ root.logicalLen)
    (.invalid "balanced sequence root length disagrees with arena")
  return canonical

def resolveParent (backend : SequenceBackend) (parent : Option PersistentRoot) :
    Except SequenceError (Option V2RootRecord) :=
  match parent with
  | none => return none
  | some root => do
    let canonical ← backend.resolve root
    return some canonical

/-- `canonical_root_bytes` -/
def canonicalRootBytes (backend : SequenceBackend) (root : PersistentRoot) :
    Except SequenceError Bytes := do
  let canonical ← backend.resolve root
  return encodeV2Root canonical

section Operations

variable (sha256 : Bytes → Digest)

def readRange (backend : SequenceBackend) (root : PersistentRoot) (offset length : Nat) :
    Except SequenceError Bytes := do
  let canonical ← backend.resolve root
  match backend with
  | memory inner => liftAvl (Sequence.readRange sha256 inner canonical offset length)
  | physical store => liftAvl (Sequence.readRange sha256 store canonical offset length)

def verify (backend : SequenceBackend) (root : PersistentRoot) : Except SequenceError Unit := do
  let canonical ← backend.resolve root
  match backend with
  | memory inner => liftAvl (verifyRoot sha256 inner canonical)
  | physical store => liftAvl (verifyRoot sha256 store canonical)

/-- The length a splice will have, taken from the resolved parent. -/
def spliceResultLen (parent : Option V2RootRecord) (deleteLen : Nat) (insert : Bytes) :
    Except SequenceError Nat := do
  let parentLen := parent.elim 0 V2RootRecord.logicalLen
  let insertLen ← okOr (tryFrom 64 insert.length)
    (.invalid "balanced sequence insert length exceeds u64")
  let remaining ← okOr (if deleteLen ≤ parentLen then some (parentLen - deleteLen) else none)
    (.invalid "balanced sequence splice result length is inconsistent")
  okOr (checkedAdd 64 remaining insertLen)
    (.invalid "balanced sequence splice result length is inconsistent")

/-- `splice` on the memory backend. -/
def spliceMemory (parent : Option PersistentRoot) (offset deleteLen : Nat) (insert : Bytes) :
    EStateM SequenceError V2AvlSequence V2SpliceResult := fun inner =>
  match (do
    let resolved ← (memory inner).resolveParent parent
    let _ ← spliceResultLen resolved deleteLen insert
    return resolved : Except SequenceError (Option V2RootRecord)) with
  | .error e => .error e inner
  | .ok resolved =>
    match spliceOn sha256 resolved offset deleteLen insert inner with
    | .ok result inner => .ok result inner
    | .error e inner => .error (.avl e) inner

/-- `splice` on the physical backend up to `prepare_physical_splice`; the files are only
read. -/
def prepareSplice (store : PhysicalContentStore) (parent : Option PersistentRoot)
    (offset deleteLen : Nat) (insert : Bytes) : Except SequenceError PhysicalDelta := do
  let resolved ← (physical store).resolveParent parent
  let resultLen ← spliceResultLen resolved deleteLen insert
  liftAvl (preparePhysicalDelta sha256 store resolved offset deleteLen insert resultLen)

/-- The offset of an append: the length of the resolved parent. -/
def appendOffset (backend : SequenceBackend) (parent : Option PersistentRoot) :
    Except SequenceError Nat := do
  let resolved ← backend.resolveParent parent
  return resolved.elim 0 V2RootRecord.logicalLen

def appendMemory (parent : Option PersistentRoot) (bytes : Bytes) :
    EStateM SequenceError V2AvlSequence V2SpliceResult := fun inner =>
  match (memory inner).appendOffset parent with
  | .error e => .error e inner
  | .ok offset => spliceMemory sha256 parent offset 0 bytes inner

def prepareAppend (store : PhysicalContentStore) (parent : Option PersistentRoot)
    (bytes : Bytes) : Except SequenceError PhysicalDelta := do
  let offset ← (physical store).appendOffset parent
  prepareSplice sha256 store parent offset 0 bytes

/-- `replay_physical_delta`: a committed delta is validated and adopted. -/
def replayPhysicalDelta (store : PhysicalContentStore)
    (generation payloadStart payloadEnd nodeStart nodeEnd : Nat) (deltaDigest : Digest)
    (resultRoot : Bytes) (resultLen : Nat) :
    Except SequenceError (PersistentRoot × PhysicalContentStore) := do
  let root ← liftAvl (validateCommittedDelta sha256 store generation payloadStart payloadEnd
    nodeStart nodeEnd deltaDigest resultRoot resultLen)
  return (.balancedV2 root.nodeId root.logicalLen, store.adoptFrontiers payloadEnd nodeEnd)

end Operations

end SequenceBackend

end TulyaStore.Sequence
