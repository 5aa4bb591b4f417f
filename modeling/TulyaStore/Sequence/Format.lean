import TulyaStore.Lib.Bytes
import TulyaStore.Lib.Check

/-!
# Format v2 sequence records

The metadata records of the balanced persistent sequence (`format_v2.rs`): node records,
root records, their constructors with every check, and the commitments they carry. A node
record is built from its content, a leaf from its payload and a branch from the roots of
its children, so two records agree exactly when the content they were built from gives the
same height, length, commitment and body.

SHA-256 is a parameter `sha256` of everything that computes a commitment.
-/

namespace TulyaStore.Sequence

open Lib

/-- The output of SHA-256. -/
abbrev Digest := Vector UInt8 32

/-- A digest written as one number, the first byte most significant. -/
def digestOfNat (n : Nat) : Digest := Vector.ofFn fun i => UInt8.ofNat (n / 256 ^ (31 - i.val) % 256)

abbrev V2Commitment := Digest

/-- `MAX_LEAF_PAYLOAD_BYTES` -/
def maxLeafPayloadBytes : Nat := 16 * 1024

/-- `V2_NONE_NODE`, the identifier no node may have. -/
def v2NoneNode : Nat := maxValue 64

def v2LeafDomain : Bytes := ascii "tulya-sequence-v2/leaf\x00"

def v2BranchDomain : Bytes := ascii "tulya-sequence-v2/branch\x00"

inductive V2FormatError where
  | recordLength (record : String) (expected actual : Nat)
  | invalid (message : String)
  | overflow (message : String)
deriving DecidableEq, Repr

inductive V2NodeBody where
  | leaf (payloadOffset payloadLen : Nat)
  | branch (leftNodeId rightNodeId leftLen : Nat)
deriving DecidableEq, Repr

structure V2NodeRecord where
  height : Nat
  logicalLen : Nat
  commitment : V2Commitment
  body : V2NodeBody
deriving DecidableEq, Repr

structure V2RootRecord where
  nodeId : Nat
  logicalLen : Nat
  height : Nat
  commitment : V2Commitment
deriving DecidableEq, Repr

section Records

variable (sha256 : Bytes → Digest)

def leafCommitment (logicalLen : Nat) (payload : Bytes) : V2Commitment :=
  sha256 (v2LeafDomain ++ leBytes 8 logicalLen ++ payload)

def branchCommitment (height leftLen : Nat) (left : V2Commitment) (rightLen : Nat)
    (right : V2Commitment) : V2Commitment :=
  sha256 (v2BranchDomain ++ leBytes 2 height ++ leBytes 8 leftLen ++ left.toList ++
    leBytes 8 rightLen ++ right.toList)

def validateChildRoot (root : V2RootRecord) : Except V2FormatError Unit := do
  failIf (root.nodeId = v2NoneNode) (.invalid "v2 root uses the reserved none-node identifier")
  failIf (root.logicalLen = 0) (.invalid "v2 root logical length must be positive")
  failIf (root.height = 0) (.invalid "v2 root height must be positive")

def V2NodeRecord.leaf (payloadOffset : Nat) (payload : Bytes) :
    Except V2FormatError V2NodeRecord := do
  failIf (payload.isEmpty = true) (.invalid "v2 sequence leaf payload must be non-empty")
  failIf (payload.length > maxLeafPayloadBytes)
    (.invalid "v2 sequence leaf payload exceeds the staging bound")
  let logicalLen ← okOr (tryFrom 64 payload.length)
    (.overflow "v2 sequence leaf payload length exceeds u64")
  let _ ← okOr (checkedAdd 64 payloadOffset logicalLen)
    (.overflow "v2 sequence leaf payload range exceeds u64")
  return {
    height := 1
    logicalLen
    commitment := leafCommitment sha256 logicalLen payload
    body := .leaf payloadOffset logicalLen }

def V2NodeRecord.branch (left right : V2RootRecord) : Except V2FormatError V2NodeRecord := do
  validateChildRoot left
  validateChildRoot right
  failIf (absDiff left.height right.height > 1)
    (.invalid "v2 sequence branch children are not AVL-balanced")
  let height ← okOr (checkedAdd 16 (max left.height right.height) 1)
    (.overflow "v2 sequence branch height exceeds u16")
  let logicalLen ← okOr (checkedAdd 64 left.logicalLen right.logicalLen)
    (.overflow "v2 sequence branch logical length exceeds u64")
  return {
    height
    logicalLen
    commitment := branchCommitment sha256 height left.logicalLen left.commitment
      right.logicalLen right.commitment
    body := .branch left.nodeId right.nodeId left.logicalLen }

end Records

def V2RootRecord.fromNode (nodeId : Nat) (node : V2NodeRecord) :
    Except V2FormatError V2RootRecord := do
  failIf (nodeId = v2NoneNode)
    (.invalid "v2 sequence root uses the reserved none-node identifier")
  return {
    nodeId
    logicalLen := node.logicalLen
    height := node.height
    commitment := node.commitment }

/-! ## What the constructors accept -/

theorem validateChildRoot_eq_ok {root : V2RootRecord} {u : Unit} :
    validateChildRoot root = .ok u ↔
      root.nodeId ≠ v2NoneNode ∧ root.logicalLen ≠ 0 ∧ root.height ≠ 0 := by
  simp [validateChildRoot, bind_eq_ok]

theorem fromNode_eq_ok {nodeId : Nat} {node : V2NodeRecord} {root : V2RootRecord} :
    V2RootRecord.fromNode nodeId node = .ok root ↔ nodeId ≠ v2NoneNode ∧
      root = ⟨nodeId, node.logicalLen, node.height, node.commitment⟩ := by
  simp only [V2RootRecord.fromNode, bind_eq_ok, failIf_eq_ok, pure_eq_ok, exists_const]
  rw [eq_comm (a := root)]

theorem fromNode_fields {nodeId : Nat} {node : V2NodeRecord} {root : V2RootRecord}
    (h : V2RootRecord.fromNode nodeId node = .ok root) :
    root.nodeId = nodeId ∧ root.logicalLen = node.logicalLen ∧ root.height = node.height := by
  obtain ⟨-, rfl⟩ := fromNode_eq_ok.mp h
  exact ⟨rfl, rfl, rfl⟩

/-- The only node identifier without a root record is the reserved one. -/
theorem fromNode_eq_error {nodeId : Nat} {node : V2NodeRecord} {e : V2FormatError} :
    V2RootRecord.fromNode nodeId node = .error e ↔ nodeId = v2NoneNode ∧
      e = .invalid "v2 sequence root uses the reserved none-node identifier" := by
  simp only [V2RootRecord.fromNode, bind_eq_error, failIf_eq_error, pure, Except.pure,
    reduceCtorEq, and_false, exists_const, or_false]
  rw [eq_comm (a := e)]

section Records

variable {sha256 : Bytes → Digest}

theorem leaf_eq_ok {payloadOffset : Nat} {payload : Bytes} {record : V2NodeRecord} :
    V2NodeRecord.leaf sha256 payloadOffset payload = .ok record ↔
      (1 ≤ payload.length ∧ payload.length ≤ maxLeafPayloadBytes ∧
        payloadOffset + payload.length < width 64) ∧
      record = ⟨1, payload.length, leafCommitment sha256 payload.length payload,
        .leaf payloadOffset payload.length⟩ := by
  simp only [V2NodeRecord.leaf, bind_eq_ok, failIf_eq_ok, okOr_eq_ok, tryFrom_eq_some,
    checkedAdd_eq_some, pure_eq_ok, List.isEmpty_iff, Nat.not_lt]
  constructor
  · rintro ⟨_, hNe, _, hMax, _, ⟨_, rfl⟩, _, ⟨hEnd, _⟩, rfl⟩
    exact ⟨⟨List.length_pos_of_ne_nil hNe, hMax, hEnd⟩, rfl⟩
  · rintro ⟨⟨hPos, hMax, hEnd⟩, rfl⟩
    exact ⟨(), List.ne_nil_of_length_pos hPos, (), hMax, _, ⟨by omega, rfl⟩, _, ⟨hEnd, rfl⟩, rfl⟩

theorem branch_eq_ok {left right : V2RootRecord} {record : V2NodeRecord} :
    V2NodeRecord.branch sha256 left right = .ok record ↔
      (left.nodeId ≠ v2NoneNode ∧ left.logicalLen ≠ 0 ∧ left.height ≠ 0) ∧
      (right.nodeId ≠ v2NoneNode ∧ right.logicalLen ≠ 0 ∧ right.height ≠ 0) ∧
      (left.height ≤ right.height + 1 ∧ right.height ≤ left.height + 1) ∧
      max left.height right.height + 1 < width 16 ∧
      left.logicalLen + right.logicalLen < width 64 ∧
      record = ⟨max left.height right.height + 1, left.logicalLen + right.logicalLen,
        branchCommitment sha256 (max left.height right.height + 1) left.logicalLen
          left.commitment right.logicalLen right.commitment,
        .branch left.nodeId right.nodeId left.logicalLen⟩ := by
  simp only [V2NodeRecord.branch, bind_eq_ok, failIf_eq_ok, okOr_eq_ok,
    checkedAdd_eq_some, pure_eq_ok, validateChildRoot_eq_ok, Nat.not_lt, absDiff_le_iff]
  constructor
  · rintro ⟨_, hLeft, _, hRight, _, hBal, _, ⟨hHeight, rfl⟩, _, ⟨hLen, rfl⟩, rfl⟩
    exact ⟨hLeft, hRight, hBal, hHeight, hLen, rfl⟩
  · rintro ⟨hLeft, hRight, hBal, hHeight, hLen, rfl⟩
    exact ⟨(), hLeft, (), hRight, (), hBal, _, ⟨hHeight, rfl⟩, _, ⟨hLen, rfl⟩, rfl⟩

end Records

end TulyaStore.Sequence
