import TulyaStore.Lib.Outcome
import TulyaStore.Sequence.Format

/-!
# The persistent AVL sequence core

The edits and reads of `avl.rs`, written once over any arena as the source writes them
over its `ArenaStore` trait, and the in-memory arena `V2AvlSequence`.

An edit runs in `EditM`: its state is the arena together with the counter of inspected
nodes, and it keeps both when it fails, so that a failed edit really leaves the nodes it
allocated behind until `spliceOn` truncates them. Reads only look at the arena and return
`Except`.

Recursions that follow child references of the arena carry a step bound, since nothing in
an arbitrary arena makes them end; running out of it is the error `diverged`, which the
source does not have. Every entry passes a bound taken from the heights in the roots.
Vector reservations always succeed here.
-/

namespace TulyaStore.Sequence

open Lib

inductive V2AvlError where
  | format (error : V2FormatError)
  | invalid (message : String)
  | overflow (message : String)
  | capacity (message : String)
  | diverged
deriving DecidableEq, Repr

inductive ArenaNode where
  | leaf (payloadOffset payloadLen : Nat) (record : V2NodeRecord)
  | branch (left right : V2RootRecord) (record : V2NodeRecord)
deriving DecidableEq, Repr

def ArenaNode.record : ArenaNode → V2NodeRecord
  | leaf _ _ record => record
  | branch _ _ record => record

/-- The content-access boundary shared by the in-memory and the file-backed arena. -/
class ArenaStore (A : Type) where
  arenaPayloadLen : A → Nat
  arenaNodeCount : A → Nat
  arenaLoadNode : A → Nat → Except V2AvlError ArenaNode
  arenaReadPayload : A → Nat → Nat → Except V2AvlError Bytes
  arenaAppendPayload : Bytes → EStateM V2AvlError A Nat
  arenaPushNode : ArenaNode → EStateM V2AvlError A Nat
  arenaTruncate : A → Nat → Nat → A

open ArenaStore

structure V2AppendResult where
  root : V2RootRecord
  allocatedNodes : Nat
  inspectedNodes : Nat
deriving DecidableEq, Repr

structure V2SpliceResult where
  root : V2RootRecord
  allocatedNodes : Nat
  inspectedNodes : Nat
  payloadBytesAllocated : Nat
deriving DecidableEq, Repr

/-! ## Resolving and validating nodes -/

section Reads

variable (sha256 : Bytes → Digest) {A : Type} [ArenaStore A]

/-- A format error raised inside the sequence core. -/
def liftFormat {α : Type} (x : Except V2FormatError α) : Except V2AvlError α :=
  mapErr .format x

def rootForNodeIdOn (arena : A) (nodeId : Nat) : Except V2AvlError V2RootRecord := do
  let node ← arenaLoadNode arena nodeId
  liftFormat (V2RootRecord.fromNode nodeId node.record)

def nodeForRootOn (arena : A) (root : V2RootRecord) : Except V2AvlError ArenaNode := do
  let node ← arenaLoadNode arena root.nodeId
  let canonical ← liftFormat (V2RootRecord.fromNode root.nodeId node.record)
  failIf (canonical ≠ root) (.invalid "v2 root metadata disagrees with its arena node")
  return node

def validateNodeOn (arena : A) (node : ArenaNode) : Except V2AvlError Unit :=
  match node with
  | .leaf payloadOffset payloadLen record => do
    let payloadEnd ← okOr (checkedAdd 64 payloadOffset payloadLen)
      (.overflow "v2 leaf payload range exceeds u64")
    let bytes ← arenaReadPayload arena payloadOffset payloadEnd
    let expected ← liftFormat (V2NodeRecord.leaf sha256 payloadOffset bytes)
    failIf (expected ≠ record) (.invalid "v2 leaf metadata or commitment verification failed")
  | .branch left right record => do
    let expected ← liftFormat (V2NodeRecord.branch sha256 left right)
    failIf (expected ≠ record) (.invalid "v2 branch metadata or commitment verification failed")

/-- `verify_node_on`, returning the number of visited nodes. -/
def verifyNodeOn (arena : A) : Nat → V2RootRecord → Nat → Except V2AvlError Nat
  | 0, _, _ => .error .diverged
  | fuel + 1, root, visited => do
    let visited := saturatingAdd 64 visited 1
    let node ← nodeForRootOn arena root
    validateNodeOn sha256 arena node
    match node with
    | .branch left right _ =>
      let visited ← verifyNodeOn arena fuel left visited
      verifyNodeOn arena fuel right visited
    | .leaf .. => return visited

def verifyRootCountedOn (arena : A) (root : V2RootRecord) : Except V2AvlError Nat :=
  verifyNodeOn sha256 arena root.height root 0

def verifyRoot (arena : A) (root : V2RootRecord) : Except V2AvlError Unit := do
  let _ ← verifyRootCountedOn sha256 arena root
  return ()

/-- One pending part of a range read: a root and a range inside it. -/
structure ReadTask where
  root : V2RootRecord
  offset : Nat
  length : Nat

/-- What visiting one task does: the bytes it emits and the tasks it pushes, the one to
pop first in front. -/
def readTaskOn (arena : A) (task : ReadTask) : Except V2AvlError (Bytes × List ReadTask) := do
  let node ← nodeForRootOn arena task.root
  validateNodeOn sha256 arena node
  match node with
  | .leaf payloadOffset payloadLen _ =>
    let localEnd ← okOr (checkedAdd 64 task.offset task.length)
      (.overflow "v2 leaf range exceeds u64")
    failIf (localEnd > payloadLen) (.invalid "v2 leaf range exceeds leaf payload")
    let start ← okOr (checkedAdd 64 payloadOffset task.offset)
      (.overflow "v2 payload start exceeds u64")
    let stop ← okOr (checkedAdd 64 start task.length) (.overflow "v2 payload end exceeds u64")
    let bytes ← arenaReadPayload arena start stop
    return (bytes, [])
  | .branch left right _ =>
    let leftLen := left.logicalLen
    if task.offset < leftLen then
      let leftLength := min task.length (leftLen - task.offset)
      let rightLength := task.length - leftLength
      let rightTasks := if rightLength > 0 then [⟨right, 0, rightLength⟩] else []
      let leftTasks := if leftLength > 0 then [⟨left, task.offset, leftLength⟩] else []
      return ([], leftTasks ++ rightTasks)
    else
      return ([], [⟨right, task.offset - leftLen, task.length⟩])

/-- The traversal loop of a range read: the stack with its top in front, the output so far
and the number of visited nodes. -/
def readStackOn (arena : A) : Nat → List ReadTask → Bytes → Nat → Except V2AvlError (Bytes × Nat)
  | _, [], output, visited => .ok (output, visited)
  | 0, _ :: _, _, _ => .error .diverged
  | fuel + 1, task :: stack, output, visited => do
    let (bytes, tasks) ← readTaskOn sha256 arena task
    readStackOn arena fuel (tasks ++ stack) (output ++ bytes) (saturatingAdd 64 visited 1)

def readRangeCountedOn (arena : A) (root : V2RootRecord) (offset length : Nat) :
    Except V2AvlError (Bytes × Nat) := do
  let _ ← nodeForRootOn arena root
  let stop ← okOr (checkedAdd 64 offset length) (.overflow "v2 range end exceeds u64")
  failIf (stop > root.logicalLen) (.invalid "v2 range exceeds root logical length")
  let capacity ← okOr (tryFrom 64 length) (.overflow "v2 range length exceeds usize")
  if length = 0 then
    return ([], 0)
  let (output, visited) ← readStackOn sha256 arena (3 ^ root.height) [⟨root, offset, length⟩] [] 0
  failIf (output.length ≠ capacity)
    (.invalid "v2 range traversal produced an unexpected byte count")
  return (output, visited)

def readRange (arena : A) (root : V2RootRecord) (offset length : Nat) :
    Except V2AvlError Bytes := do
  let (output, _) ← readRangeCountedOn sha256 arena root offset length
  return output

end Reads

/-! ## Edits -/

/-- The state of a running edit. -/
structure EditState (A : Type) where
  arena : A
  inspected : Nat

abbrev EditM (A : Type) := EStateM V2AvlError (EditState A)

section Edits

variable (sha256 : Bytes → Digest) {A : Type} [ArenaStore A]

/-- An arena operation as a step of an edit. -/
def onArena {α : Type} (x : EStateM V2AvlError A α) : EditM A α := fun s =>
  match x s.arena with
  | .ok a arena => .ok a { s with arena }
  | .error e arena => .error e { s with arena }

/-- A read of the current arena. -/
def reading {α : Type} (f : A → Except V2AvlError α) : EditM A α := fun s =>
  attempt (f s.arena) s

def inspect (n : Nat) : EditM A Unit :=
  modify fun s => { s with inspected := saturatingAdd 64 s.inspected n }

def allocateNodeOn (node : ArenaNode) : EditM A V2RootRecord := do
  let nodeId ← reading fun arena =>
    okOr (tryFrom 64 (arenaNodeCount arena)) (.overflow "v2 node arena length exceeds u64")
  let root ← attempt (liftFormat (V2RootRecord.fromNode nodeId node.record))
  let placed ← onArena (arenaPushNode node)
  attempt (failIf (placed ≠ nodeId) (.invalid "v2 node placement disagrees with its record"))
  return root

def allocateLeafOn (bytes : Bytes) : EditM A V2RootRecord := do
  let payloadOffset ← reading fun arena =>
    okOr (tryFrom 64 (arenaPayloadLen arena)) (.overflow "v2 payload arena length exceeds u64")
  let record ← attempt (liftFormat (V2NodeRecord.leaf sha256 payloadOffset bytes))
  let payloadLen := record.logicalLen
  let placed ← onArena (arenaAppendPayload bytes)
  attempt (failIf (placed ≠ payloadOffset)
    (.invalid "v2 leaf payload placement disagrees with its record"))
  allocateNodeOn (.leaf payloadOffset payloadLen record)

def allocateBranchOn (left right : V2RootRecord) : EditM A V2RootRecord := do
  inspect 2
  let _ ← reading fun arena => nodeForRootOn arena left
  let _ ← reading fun arena => nodeForRootOn arena right
  let record ← attempt (liftFormat (V2NodeRecord.branch sha256 left right))
  allocateNodeOn (.branch left right record)

def branchChildrenOn (root : V2RootRecord) : EditM A (V2RootRecord × V2RootRecord) := do
  inspect 1
  let node ← reading fun arena => nodeForRootOn arena root
  match node with
  | .branch left right _ => return (left, right)
  | .leaf .. => throw (.invalid "v2 AVL traversal expected a branch node")

def rebalanceOn (left right : V2RootRecord) : EditM A V2RootRecord := do
  if absDiff left.height right.height ≤ 1 then
    allocateBranchOn sha256 left right
  else if left.height > right.height then
    let (leftLeft, leftRight) ← branchChildrenOn left
    if leftLeft.height ≥ leftRight.height then
      let newRight ← allocateBranchOn sha256 leftRight right
      allocateBranchOn sha256 leftLeft newRight
    else
      let (middleLeft, middleRight) ← branchChildrenOn leftRight
      let newLeft ← allocateBranchOn sha256 leftLeft middleLeft
      let newRight ← allocateBranchOn sha256 middleRight right
      allocateBranchOn sha256 newLeft newRight
  else
    let (rightLeft, rightRight) ← branchChildrenOn right
    if rightRight.height ≥ rightLeft.height then
      let newLeft ← allocateBranchOn sha256 left rightLeft
      allocateBranchOn sha256 newLeft rightRight
    else
      let (middleLeft, middleRight) ← branchChildrenOn rightLeft
      let newLeft ← allocateBranchOn sha256 left middleLeft
      let newRight ← allocateBranchOn sha256 middleRight rightRight
      allocateBranchOn sha256 newLeft newRight

def concatSteps : Nat → V2RootRecord → V2RootRecord → EditM A V2RootRecord
  | 0, _, _ => throw .diverged
  | fuel + 1, left, right => do
    if left.height > saturatingAdd 16 right.height 1 then
      let (leftLeft, leftRight) ← branchChildrenOn left
      let joined ← concatSteps fuel leftRight right
      rebalanceOn sha256 leftLeft joined
    else if right.height > saturatingAdd 16 left.height 1 then
      let (rightLeft, rightRight) ← branchChildrenOn right
      let joined ← concatSteps fuel left rightLeft
      rebalanceOn sha256 joined rightRight
    else
      allocateBranchOn sha256 left right

def concatOn (left right : V2RootRecord) : EditM A V2RootRecord :=
  concatSteps sha256 (left.height + right.height) left right

def concatOptionalOn (left right : Option V2RootRecord) : EditM A (Option V2RootRecord) :=
  match left, right with
  | none, none => return none
  | none, some root => return some root
  | some root, none => return some root
  | some left, some right => do
    let root ← concatOn sha256 left right
    return some root

/-- The right part of a split: the near piece of the left child, if any, before `right`. -/
def joinRightOn (near : Option V2RootRecord) (right : V2RootRecord) : EditM A V2RootRecord :=
  match near with
  | none => pure right
  | some near => concatOn sha256 near right

/-- The left part of a split: the near piece of the right child, if any, after `left`. -/
def joinLeftOn (left : V2RootRecord) (near : Option V2RootRecord) : EditM A V2RootRecord :=
  match near with
  | none => pure left
  | some near => concatOn sha256 left near

def splitSteps : Nat → V2RootRecord → Nat → EditM A (Option V2RootRecord × Option V2RootRecord)
  | 0, _, _ => throw .diverged
  | fuel + 1, root, offset => do
    let len := root.logicalLen
    if offset > len then
      throw (.invalid "v2 sequence split offset exceeds root length")
    else if offset = 0 then
      return (none, some root)
    else if offset = len then
      return (some root, none)
    else
      inspect 1
      let node ← reading fun arena => nodeForRootOn arena root
      reading fun arena => validateNodeOn sha256 arena node
      match node with
      | .leaf payloadOffset payloadLen _ =>
        let leftEnd ← attempt (okOr (checkedAdd 64 payloadOffset offset)
          (.overflow "v2 leaf split range exceeds u64"))
        let leafEnd ← attempt (okOr (checkedAdd 64 payloadOffset payloadLen)
          (.overflow "v2 leaf split range exceeds u64"))
        let leftBytes ← reading fun arena => arenaReadPayload arena payloadOffset leftEnd
        let rightBytes ← reading fun arena => arenaReadPayload arena leftEnd leafEnd
        let left ← allocateLeafOn sha256 leftBytes
        let right ← allocateLeafOn sha256 rightBytes
        return (some left, some right)
      | .branch left right _ =>
        let leftLen := left.logicalLen
        if offset < leftLen then
          let (farLeft, near) ← splitSteps fuel left offset
          let joinedRight ← joinRightOn sha256 near right
          return (farLeft, some joinedRight)
        else if offset = leftLen then
          return (some left, some right)
        else
          let (near, farRight) ← splitSteps fuel right (offset - leftLen)
          let joinedLeft ← joinLeftOn sha256 left near
          return (some joinedLeft, farRight)

def splitOn (root : V2RootRecord) (offset : Nat) :
    EditM A (Option V2RootRecord × Option V2RootRecord) :=
  splitSteps sha256 (root.height + 1) root offset

/-- The leaves of an inserted payload, one for each chunk. -/
def allocateChunks : List Bytes → EditM A (List V2RootRecord)
  | [] => return []
  | chunk :: chunks => do
    let root ← allocateLeafOn sha256 chunk
    let roots ← allocateChunks chunks
    return root :: roots

/-- One pairing round over a level. -/
def pairRound : List V2RootRecord → EditM A (List V2RootRecord)
  | left :: right :: rest => do
    let root ← concatOn sha256 left right
    let roots ← pairRound rest
    return root :: roots
  | rest => return rest

/-- The pairing rounds, until the level has one root. -/
def pairRounds : Nat → List V2RootRecord → EditM A (List V2RootRecord)
  | 0, _ => throw .diverged
  | fuel + 1, level => do
    if level.length > 1 then
      let next ← pairRound sha256 level
      pairRounds fuel next
    else
      return level

def buildInsertSubtreeOn (insert : Bytes) : EditM A V2RootRecord := do
  let leaves ← allocateChunks sha256 (chunks maxLeafPayloadBytes insert)
  let level ← pairRounds sha256 (leaves.length + 1) leaves
  attempt (okOr level.getLast? (.invalid "v2 sequence insert produced no content"))

/-- The subtree of the inserted bytes, absent when there are none. -/
def insertMiddleOn (insert : Bytes) : EditM A (Option V2RootRecord) :=
  if insert.isEmpty then pure none
  else do
    let root ← buildInsertSubtreeOn sha256 insert
    return some root

/-- What is left of the part behind the offset once the deleted bytes are cut off. -/
def dropDeletedOn (midRight : Option V2RootRecord) (deleteLen : Nat) :
    EditM A (Option V2RootRecord) :=
  match midRight with
  | none => pure none
  | some mid =>
    if deleteLen = 0 then pure (some mid)
    else do
      let (_, right) ← splitOn sha256 mid deleteLen
      return right

def spliceInnerOn (parent : Option V2RootRecord) (offset deleteLen : Nat) (insert : Bytes) :
    EditM A V2RootRecord := do
  let middle ← insertMiddleOn sha256 insert
  match parent with
  | none =>
    attempt (okOr middle (.invalid "v2 sequence root creation produced no content"))
  | some root =>
    let (left, midRight) ← splitOn sha256 root offset
    let right ← dropDeletedOn sha256 midRight deleteLen
    let combined ← concatOptionalOn sha256 left middle
    let combined ← concatOptionalOn sha256 combined right
    attempt (okOr combined (.invalid "v2 sequence splice produced an empty root"))

/-- The checks of `splice_on` on the parent and the coordinates, before any allocation. -/
def checkSplice (arena : A) (parent : Option V2RootRecord) (offset deleteLen : Nat)
    (insert : Bytes) : Except V2AvlError Unit := do
  let sourceLen ← match parent with
    | none => pure 0
    | some root => do
      let _ ← nodeForRootOn arena root
      pure root.logicalLen
  failIf (offset > sourceLen) (.invalid "v2 sequence splice offset exceeds parent length")
  failIf (deleteLen > sourceLen - offset)
    (.invalid "v2 sequence splice delete range exceeds parent length")
  let insertLen ← okOr (tryFrom 64 insert.length) (.overflow "v2 sequence insert length exceeds u64")
  let resultLen ← okOr (checkedAdd 64 (sourceLen - deleteLen) insertLen)
    (.overflow "v2 sequence splice result length exceeds u64")
  match parent with
  | none =>
    failIf (offset ≠ 0 ∨ deleteLen ≠ 0)
      (.invalid "v2 sequence root creation requires zero offset and delete length")
    failIf (insert.isEmpty = true) (.invalid "v2 sequence root creation requires non-empty insert")
  | some _ =>
    failIf (deleteLen = 0 ∧ insert.isEmpty = true)
      (.invalid "v2 sequence splice without effect is rejected")
  failIf (resultLen = 0) (.invalid "v2 sequence splice result must be non-empty")
  match parent with
  | none => pure ()
  | some root =>
    let node ← nodeForRootOn arena root
    validateNodeOn sha256 arena node

def spliceOn (parent : Option V2RootRecord) (offset deleteLen : Nat) (insert : Bytes) :
    EStateM V2AvlError A V2SpliceResult := fun arena =>
  match checkSplice sha256 arena parent offset deleteLen insert with
  | .error e => .error e arena
  | .ok () =>
    let payloadStart := arenaPayloadLen arena
    let nodeStart := arenaNodeCount arena
    match spliceInnerOn sha256 parent offset deleteLen insert ⟨arena, 0⟩ with
    | .ok root s => .ok {
        root
        allocatedNodes := arenaNodeCount s.arena - nodeStart
        inspectedNodes := s.inspected
        payloadBytesAllocated := arenaPayloadLen s.arena - payloadStart } s.arena
    | .error e s => .error e (arenaTruncate s.arena payloadStart nodeStart)

def appendOn (parent : Option V2RootRecord) (bytes : Bytes) :
    EStateM V2AvlError A V2AppendResult := do
  let offset := parent.elim 0 V2RootRecord.logicalLen
  let result ← spliceOn sha256 parent offset 0 bytes
  return {
    root := result.root
    allocatedNodes := result.allocatedNodes
    inspectedNodes := result.inspectedNodes }

end Edits

/-! ## The in-memory arena -/

structure V2AvlSequence where
  payload : Bytes
  nodes : List ArenaNode
deriving DecidableEq, Repr

namespace V2AvlSequence

def empty : V2AvlSequence := ⟨[], []⟩

def payloadSlice (s : V2AvlSequence) (start stop : Nat) : Except V2AvlError Bytes := do
  let start ← okOr (tryFrom 64 start) (.overflow "v2 payload start exceeds usize")
  let stop ← okOr (tryFrom 64 stop) (.overflow "v2 payload end exceeds usize")
  okOr (slice s.payload start stop) (.invalid "v2 payload range is outside the arena")

def loadNode (s : V2AvlSequence) (nodeId : Nat) : Except V2AvlError ArenaNode := do
  let index ← okOr (tryFrom 64 nodeId) (.overflow "v2 node identifier exceeds usize")
  okOr s.nodes[index]? (.invalid "v2 root references a missing arena node")

def appendPayload (bytes : Bytes) : EStateM V2AvlError V2AvlSequence Nat := fun s =>
  match tryFrom 64 s.payload.length with
  | none => .error (.overflow "v2 payload arena length exceeds u64") s
  | some offset => .ok offset { s with payload := s.payload ++ bytes }

def pushNode (node : ArenaNode) : EStateM V2AvlError V2AvlSequence Nat := fun s =>
  match tryFrom 64 s.nodes.length with
  | none => .error (.overflow "v2 node arena length exceeds u64") s
  | some nodeId => .ok nodeId { s with nodes := s.nodes ++ [node] }

def truncate (s : V2AvlSequence) (payloadLen nodeCount : Nat) : V2AvlSequence :=
  ⟨s.payload.take payloadLen, s.nodes.take nodeCount⟩

instance : ArenaStore V2AvlSequence where
  arenaPayloadLen s := s.payload.length
  arenaNodeCount s := s.nodes.length
  arenaLoadNode := loadNode
  arenaReadPayload := payloadSlice
  arenaAppendPayload := appendPayload
  arenaPushNode := pushNode
  arenaTruncate := truncate

end V2AvlSequence

end TulyaStore.Sequence
