import TulyaStore.Checkpoint.Record

/-!
# Applying transactions

A parsed transaction is checked against the committed state and then appended to it
(`transaction.rs`): it has to continue the watermarks, name a committed parent and a fresh
key, reuse no request id, and bring only nodes that point at committed bytes and earlier
nodes. `prepareTransactionApply` makes every check; `applyPreparedTransaction` cannot fail.
-/

namespace TulyaStore.Checkpoint

open Lib

/-! ## New nodes -/

/-- The wide record a slot points at: in the state, or in the transaction behind it. -/
def wideRecordAt (state : StoreState) (tx : ParsedTransaction) (localIndex : Nat) :
    Except StoreError Bytes :=
  let start := localIndex * wideRecordSize
  let stop := start + wideRecordSize
  if stop ≤ state.wideNodes.length then
    okOr (slice state.wideNodes start stop) (.format "wide record outside base state")
  else
    okOr (slice tx.wideNodes (start - state.wideNodes.length) (stop - state.wideNodes.length))
      (.format "wide record outside transaction")

def validateWide (arenaLen nodeId : Nat) (record : Bytes) : Except StoreError Unit := do
  let kind ← readU32 record 0
  if kind = wideKindLeaf then do
    let offset ← readU64 record 8
    let length ← readU64 record 16
    let stop ← okOr (checkedAdd 64 offset length) (.format "wide leaf end overflow")
    failIf (stop > arenaLen) (.format "wide leaf references bytes beyond committed arena")
  else if kind = wideKindBinary then do
    let left ← readU64 record 8
    let right ← readU64 record 16
    failIf (nodeId ≤ left ∨ nodeId ≤ right)
      (.format "wide binary child is not topologically prior")
  else .error (.format "unknown wide node kind")

/-- The checks on one new slot, whose node id is `nodeId`. -/
def validateSlot (state : StoreState) (tx : ParsedTransaction) (arenaLen nodeId : Nat)
    (slot : Bytes) : Except StoreError Unit := do
  let kind ← readU32 slot 12
  if kind = kindLeaf then do
    let offset ← readU64 slot 0
    let length ← readU32 slot 8
    let stop ← okOr (checkedAdd 64 offset length) (.format "leaf end overflow")
    failIf (stop > arenaLen) (.format "leaf references bytes beyond committed arena")
  else if kind = kindBinary then do
    let leftDelta ← readU32 slot 0
    let rightDelta ← readU32 slot 4
    failIf (leftDelta = 0 ∨ rightDelta = 0 ∨ leftDelta > nodeId ∨ rightDelta > nodeId)
      (.format "compact binary delta is invalid")
  else if kind = kindWide then do
    let wideIndex ← readU64 slot 0
    let baseWideCount := state.lazyBaseGeometry.wideCount
    if wideIndex < baseWideCount then .ok ()
    else do
      let record ← wideRecordAt state tx (wideIndex - baseWideCount)
      validateWide arenaLen nodeId record
  else .error (.format "unknown compact node kind")

/-- The checks on the slots, the first of which is node `nodeId`. -/
def validateSlots (state : StoreState) (tx : ParsedTransaction) (arenaLen : Nat) :
    Nat → List Bytes → Except StoreError Unit
  | _, [] => .ok ()
  | nodeId, slot :: rest => do
    failIf (width 64 ≤ nodeId) (.format "global node id overflow")
    validateSlot state tx arenaLen nodeId slot
    validateSlots state tx arenaLen (nodeId + 1) rest

/-- Some root is not below the node watermark. -/
def rootsOutside (nodeEnd : Nat) (roots : List (Option Nat)) : Bool :=
  roots.any (fun root => root.any (fun id => decide (nodeEnd ≤ id)))

def validateNewNodes (state : StoreState) (tx : ParsedTransaction) : Except StoreError Unit := do
  let g ← state.geometry
  let arenaLen ← okOr (checkedAdd 64 g.byteLen tx.bytes.length)
    (.format "arena length after delta overflow")
  let combinedWideLen ← okOr ((checkedMul 64 g.wideCount wideRecordSize).bind
    (fun length => checkedAdd 64 length tx.wideNodes.length))
    (.format "combined wide-node length overflow")
  validateSlots state tx arenaLen g.nodeCount (chunksExact compactNodeSize tx.compactNodes)
  failIf (combinedWideLen % wideRecordSize ≠ 0) (.format "wide-node bytes are not record aligned")
  failIf (rootsOutside tx.nodeEnd tx.roots = true)
    (.format "version root is outside committed node range")

/-! ## Checks against the state -/

def validateParent (state : StoreState) (checkpoint : CheckpointInfo) : Except StoreError Unit :=
  match checkpoint.parentKey with
  | none => .ok ()
  | some key => do
    let parentOrdinal ← okOr (state.checkpointOrdinals.get key)
      (.format "checkpoint parent is not committed")
    failIf (checkpoint.ordinal ≤ parentOrdinal) (.format "checkpoint parent is not prior")

def rejectDeletedCheckpoint (state : StoreState) (tx : ParsedTransaction) :
    Except StoreError Unit :=
  failIf (state.deletedCheckpoints.containsKey tx.checkpoint.key = true) .checkpointDeleted

def validateRequest (state : StoreState) (tx : ParsedTransaction) : Except StoreError Unit :=
  match tx.requestId.bind state.requestRecords.get with
  | none => .ok ()
  | some existing => do
    failIf (existing.operationDigest ≠ tx.operationDigest) .requestIdConflict
    .error (.format "duplicate request id")

def validateTransactionAgainstState (state : StoreState) (tx : ParsedTransaction) :
    Except StoreError Unit := do
  validateParent state tx.checkpoint
  failIf (state.checkpointOrdinals.containsKey tx.checkpoint.key = true)
    (.format "duplicate checkpoint key")
  rejectDeletedCheckpoint state tx
  validateRequest state tx
  validateNewNodes state tx

/-! ## Apply -/

structure PreparedTransactionApply where
  tx : ParsedTransaction
  newThread : Option (String × Nat)
  checkpointKey : CheckpointKey
  requestRecord : Option (Bytes × RequestRecord)

/-- The thread to add when the transaction is the first of its thread. -/
def newThreadOf (state : StoreState) (threadId : String) :
    Except StoreError (Option (String × Nat)) :=
  if state.threadOrdinals.containsKey threadId then .ok none
  else do
    let ordinal ← okOr (tryFrom 32 state.threads.length) (.format "thread ordinal exceeds u32")
    .ok (some (threadId, ordinal))

def requestRecordOf (tx : ParsedTransaction) : Option (Bytes × RequestRecord) :=
  tx.requestId.map (fun requestId => (requestId,
    { key := requestId, operationDigest := tx.operationDigest,
      checkpointOrdinal := tx.checkpoint.ordinal }))

/-- The watermarks the transaction starts at. -/
def ParsedTransaction.startGeometry (tx : ParsedTransaction) (checkpointCount : Nat) : Geometry :=
  ⟨tx.byteStart, tx.nodeStart, tx.wideStart, tx.versionStart, checkpointCount⟩

def prepareTransactionApply (state : StoreState) (tx : ParsedTransaction) :
    Except StoreError PreparedTransactionApply := do
  failIf (tx.checkpointCount = 0) (.format "transaction checkpoint count underflow")
  let g ← state.geometry
  failIf (g ≠ tx.startGeometry (tx.checkpointCount - 1))
    (.format "transaction does not append to current state geometry")
  validateTransactionAgainstState state tx
  let newThread ← newThreadOf state tx.checkpoint.threadId
  .ok { tx := tx, newThread := newThread, checkpointKey := tx.checkpoint.key,
        requestRecord := requestRecordOf tx }

def applyPreparedTransaction (state : StoreState) (prepared : PreparedTransactionApply) :
    StoreState :=
  let tx := prepared.tx
  { state with
    arenaBytes := state.arenaBytes ++ tx.bytes
    compactNodes := state.compactNodes ++ tx.compactNodes
    wideNodes := state.wideNodes ++ tx.wideNodes
    versions := state.versions ++ tx.roots
    parents := state.parents ++ tx.parents
    threadOrdinals := match prepared.newThread with
      | some (thread, ordinal) => state.threadOrdinals.insert thread ordinal
      | none => state.threadOrdinals
    threads := match prepared.newThread with
      | some (thread, _) => state.threads ++ [thread]
      | none => state.threads
    checkpointOrdinals :=
      state.checkpointOrdinals.insert prepared.checkpointKey tx.checkpoint.ordinal
    requestRecords := match prepared.requestRecord with
      | some (requestId, record) => state.requestRecords.insert requestId record
      | none => state.requestRecords
    checkpoints := state.checkpoints ++ [tx.checkpoint] }

/-- Prepares and applies one transaction. -/
def applyTransaction (state : StoreState) (tx : ParsedTransaction) :
    Except StoreError StoreState := do
  let prepared ← prepareTransactionApply state tx
  .ok (applyPreparedTransaction state prepared)

/-- The transactions of a recovered log, one after the other. -/
def applyTransactions (state : StoreState) : List ParsedTransaction → Except StoreError StoreState
  | [] => .ok state
  | tx :: txs => do
    let next ← applyTransaction state tx
    applyTransactions next txs

end TulyaStore.Checkpoint
