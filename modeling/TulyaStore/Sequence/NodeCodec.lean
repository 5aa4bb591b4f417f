import TulyaStore.Lib.Layout
import TulyaStore.Sequence.Avl

/-!
# Codec of node and root records

The fixed-width encodings of the sequence records (`format_v2.rs`) and the projection of a
record's body out of its encoding (`v2_node_fields` of `image_v2.rs`). Records that satisfy
`V2NodeRecord.Canonical`, among them every record the constructors build, are read back
unchanged, and what the decoders accept is exactly what the encoders write for such records.
-/

namespace TulyaStore.Sequence

open Lib

def v2NodeMagic : Bytes := ascii "T2N2"

def v2RootMagic : Bytes := ascii "T2R2"

/-- `V2_NODE_RECORD_SIZE` -/
def v2NodeRecordSize : Nat := 72

/-- `V2_ROOT_RECORD_SIZE` -/
def v2RootRecordSize : Nat := 56

def v2RootRepresentationBalanced : UInt8 := 1

def v2NodeKindLeaf : UInt8 := 1

def v2NodeKindBranch : UInt8 := 2

/-- The fields of a node record behind its magic, in the order they are written. -/
def nodeRecordBytes (kind : UInt8) (height logicalLen a b c : Nat) (commitment : V2Commitment) :
    Bytes :=
  v2NodeMagic ++ ([kind, 0] ++ (leBytes 2 height ++ (leBytes 8 logicalLen ++ (leBytes 8 a ++
    (leBytes 8 b ++ (leBytes 8 c ++ commitment.toList))))))

def encodeV2Node (record : V2NodeRecord) : Bytes :=
  match record.body with
  | .leaf payloadOffset payloadLen =>
    nodeRecordBytes v2NodeKindLeaf record.height record.logicalLen payloadOffset payloadLen 0
      record.commitment
  | .branch leftNodeId rightNodeId leftLen =>
    nodeRecordBytes v2NodeKindBranch record.height record.logicalLen leftNodeId rightNodeId leftLen
      record.commitment

def requireRecordLen (record : String) (bytes : Bytes) (expected : Nat) :
    Except V2FormatError Unit :=
  failIf (bytes.length ≠ expected) (.recordLength record expected bytes.length)

def decodeV2LeafFields (height logicalLen fieldA fieldB fieldC : Nat) (commitment : V2Commitment) :
    Except V2FormatError V2NodeRecord := do
  failIf (height ≠ 1) (.invalid "v2 leaf height must be one")
  failIf (logicalLen = 0) (.invalid "v2 leaf logical length must be positive")
  failIf (fieldB ≠ logicalLen) (.invalid "v2 leaf payload length disagrees with logical length")
  failIf (logicalLen > maxLeafPayloadBytes) (.invalid "v2 leaf payload exceeds the staging bound")
  failIf (fieldC ≠ 0) (.invalid "v2 leaf reserved field must be zero")
  let _ ← okOr (checkedAdd 64 fieldA fieldB) (.overflow "v2 leaf payload range exceeds u64")
  return ⟨height, logicalLen, commitment, .leaf fieldA fieldB⟩

def decodeV2BranchFields (height logicalLen fieldA fieldB fieldC : Nat)
    (commitment : V2Commitment) : Except V2FormatError V2NodeRecord := do
  failIf (height < 2) (.invalid "v2 branch height must be at least two")
  failIf (fieldA = v2NoneNode ∨ fieldB = v2NoneNode)
    (.invalid "v2 branch uses the reserved none-node identifier")
  failIf (fieldC = 0 ∨ fieldC ≥ logicalLen)
    (.invalid "v2 branch left length must split two non-empty children")
  return ⟨height, logicalLen, commitment, .branch fieldA fieldB fieldC⟩

def decodeV2Node (bytes : Bytes) : Except V2FormatError V2NodeRecord := do
  requireRecordLen "v2 node" bytes v2NodeRecordSize
  let magic ← okOr (slice bytes 0 4) (.invalid "v2 node magic is truncated")
  failIf (magic ≠ v2NodeMagic) (.invalid "v2 node magic mismatch")
  let kind ← okOr bytes[4]? (.invalid "v2 node kind is truncated")
  let flags ← okOr bytes[5]? (.invalid "v2 node flags are truncated")
  failIf (flags ≠ 0) (.invalid "v2 node flags must be zero")
  let height ← okOr (readLe 2 bytes 6) (.invalid "v2 node height is truncated")
  let logicalLen ← okOr (readLe 8 bytes 8) (.invalid "v2 node logical length is truncated")
  let fieldA ← okOr (readLe 8 bytes 16) (.invalid "v2 node field A is truncated")
  let fieldB ← okOr (readLe 8 bytes 24) (.invalid "v2 node field B is truncated")
  let fieldC ← okOr (readLe 8 bytes 32) (.invalid "v2 node field C is truncated")
  let commitment ← okOr (readArray 32 bytes 40) (.invalid "v2 node commitment is truncated")
  if kind = v2NodeKindLeaf then
    decodeV2LeafFields height logicalLen fieldA fieldB fieldC commitment
  else if kind = v2NodeKindBranch then
    decodeV2BranchFields height logicalLen fieldA fieldB fieldC commitment
  else .error (.invalid "v2 node kind is unsupported")

def encodeV2Root (record : V2RootRecord) : Bytes :=
  v2RootMagic ++ ([v2RootRepresentationBalanced, 0] ++ (leBytes 2 record.height ++
    (leBytes 8 record.nodeId ++ (leBytes 8 record.logicalLen ++ record.commitment.toList))))

def decodeV2Root (bytes : Bytes) : Except V2FormatError V2RootRecord := do
  requireRecordLen "v2 root" bytes v2RootRecordSize
  let magic ← okOr (slice bytes 0 4) (.invalid "v2 root magic is truncated")
  failIf (magic ≠ v2RootMagic) (.invalid "v2 root magic mismatch")
  let representation ← okOr bytes[4]? (.invalid "v2 root representation is truncated")
  failIf (representation ≠ v2RootRepresentationBalanced)
    (.invalid "v2 root representation is unsupported")
  let flags ← okOr bytes[5]? (.invalid "v2 root flags are truncated")
  failIf (flags ≠ 0) (.invalid "v2 root flags must be zero")
  let height ← okOr (readLe 2 bytes 6) (.invalid "v2 root height is truncated")
  let nodeId ← okOr (readLe 8 bytes 8) (.invalid "v2 root node identifier is truncated")
  let logicalLen ← okOr (readLe 8 bytes 16) (.invalid "v2 root logical length is truncated")
  let commitment ← okOr (readArray 32 bytes 24) (.invalid "v2 root commitment is truncated")
  let root : V2RootRecord := ⟨nodeId, logicalLen, height, commitment⟩
  validateChildRoot root
  return root

/-- The body of a record as the readers of stored nodes see it. -/
inductive V2NodeFields where
  | leaf (payloadOffset payloadLen : Nat)
  | branch (leftNodeId rightNodeId leftLen : Nat)
deriving DecidableEq, Repr

/-- `v2_node_fields`: the height of the record decides between the two bodies. -/
def v2NodeFields (record : V2NodeRecord) : Except V2AvlError V2NodeFields := do
  let encoded := encodeV2Node record
  let fieldA ← okOr (readLe 8 encoded 16) (.invalid "v2 image node field A is truncated")
  let fieldB ← okOr (readLe 8 encoded 24) (.invalid "v2 image node field B is truncated")
  if record.height = 1 then
    return .leaf fieldA fieldB
  else
    let leftLen ← okOr (readLe 8 encoded 32) (.invalid "v2 image node field C is truncated")
    return .branch fieldA fieldB leftLen

/-! ## Reading back -/

/-- What the decoder demands of a record. -/
def V2NodeRecord.Canonical (record : V2NodeRecord) : Prop :=
  match record.body with
  | .leaf payloadOffset payloadLen =>
    record.height = 1 ∧ 1 ≤ record.logicalLen ∧ payloadLen = record.logicalLen ∧
      record.logicalLen ≤ maxLeafPayloadBytes ∧ payloadOffset + payloadLen < width 64
  | .branch leftNodeId rightNodeId leftLen =>
    2 ≤ record.height ∧ record.height < width 16 ∧ leftNodeId < v2NoneNode ∧
      rightNodeId < v2NoneNode ∧ 1 ≤ leftLen ∧ leftLen < record.logicalLen ∧
      record.logicalLen < width 64

@[simp] theorem length_v2NodeMagic : v2NodeMagic.length = 4 := by decide

@[simp] theorem length_v2RootMagic : v2RootMagic.length = 4 := by decide

section NodeBytes

variable {kind : UInt8} {height logicalLen a b c : Nat} {commitment : V2Commitment}

@[simp] theorem length_nodeRecordBytes :
    (nodeRecordBytes kind height logicalLen a b c commitment).length = 72 := by
  simp [nodeRecordBytes]

/-- The part in front of the numeric fields. -/
theorem nodeRecordBytes_eq : nodeRecordBytes kind height logicalLen a b c commitment =
    (v2NodeMagic ++ [kind, 0]) ++ (leBytes 2 height ++ (leBytes 8 logicalLen ++ (leBytes 8 a ++
      (leBytes 8 b ++ (leBytes 8 c ++ commitment.toList))))) := by
  simp [nodeRecordBytes]

theorem readLe_height (h : height < width 16) :
    readLe 2 (nodeRecordBytes kind height logicalLen a b c commitment) 6 = some height := by
  have hWidth : width 16 = 256 ^ 2 := by decide
  rw [nodeRecordBytes_eq, readLe_skip _ _ (by simp)]
  exact readLe_here _ (by omega)

theorem readLe_logicalLen (h : logicalLen < width 64) :
    readLe 8 (nodeRecordBytes kind height logicalLen a b c commitment) 8 = some logicalLen := by
  have hWidth : width 64 = 256 ^ 8 := by decide
  rw [nodeRecordBytes_eq, readLe_skip _ _ (by simp), readLe_leBytes_skip _ _ _ (by simp)]
  exact readLe_here _ (by omega)

theorem readLe_fieldA (h : a < width 64) :
    readLe 8 (nodeRecordBytes kind height logicalLen a b c commitment) 16 = some a := by
  have hWidth : width 64 = 256 ^ 8 := by decide
  rw [nodeRecordBytes_eq, readLe_skip _ _ (by simp), readLe_leBytes_skip _ _ _ (by simp),
    readLe_leBytes_skip _ _ _ (by simp)]
  exact readLe_here _ (by omega)

theorem readLe_fieldB (h : b < width 64) :
    readLe 8 (nodeRecordBytes kind height logicalLen a b c commitment) 24 = some b := by
  have hWidth : width 64 = 256 ^ 8 := by decide
  rw [nodeRecordBytes_eq, readLe_skip _ _ (by simp), readLe_leBytes_skip _ _ _ (by simp),
    readLe_leBytes_skip _ _ _ (by simp), readLe_leBytes_skip _ _ _ (by simp)]
  exact readLe_here _ (by omega)

theorem readLe_fieldC (h : c < width 64) :
    readLe 8 (nodeRecordBytes kind height logicalLen a b c commitment) 32 = some c := by
  have hWidth : width 64 = 256 ^ 8 := by decide
  rw [nodeRecordBytes_eq, readLe_skip _ _ (by simp), readLe_leBytes_skip _ _ _ (by simp),
    readLe_leBytes_skip _ _ _ (by simp), readLe_leBytes_skip _ _ _ (by simp),
    readLe_leBytes_skip _ _ _ (by simp)]
  exact readLe_here _ (by omega)

theorem readArray_commitment :
    readArray 32 (nodeRecordBytes kind height logicalLen a b c commitment) 40 =
      some commitment := by
  have hShape : nodeRecordBytes kind height logicalLen a b c commitment =
      (v2NodeMagic ++ ([kind, 0] ++ (leBytes 2 height ++ (leBytes 8 logicalLen ++ (leBytes 8 a ++
        (leBytes 8 b ++ leBytes 8 c)))))) ++ (commitment.toList ++ []) := by
    simp [nodeRecordBytes]
  rw [hShape]
  exact readArray_at commitment (by simp)

theorem slice_nodeMagic :
    slice (nodeRecordBytes kind height logicalLen a b c commitment) 0 4 = some v2NodeMagic := by
  have hAt : slice ([] ++ (v2NodeMagic ++ ([kind, 0] ++ (leBytes 2 height ++
      (leBytes 8 logicalLen ++ (leBytes 8 a ++ (leBytes 8 b ++ (leBytes 8 c ++
        commitment.toList)))))))) 0 4 = some v2NodeMagic := slice_at rfl (by simp)
  simpa [nodeRecordBytes] using hAt

theorem getElem?_kind :
    (nodeRecordBytes kind height logicalLen a b c commitment)[4]? = some kind := by
  rw [nodeRecordBytes, List.getElem?_append_right (by simp)]
  simp

theorem getElem?_flags :
    (nodeRecordBytes kind height logicalLen a b c commitment)[5]? = some 0 := by
  rw [nodeRecordBytes, List.getElem?_append_right (by simp)]
  simp

/-- The decoder on a record with fields of the right widths. -/
theorem decodeV2Node_bytes (hHeight : height < width 16) (hLen : logicalLen < width 64)
    (ha : a < width 64) (hb : b < width 64) (hc : c < width 64) :
    decodeV2Node (nodeRecordBytes kind height logicalLen a b c commitment) =
      if kind = v2NodeKindLeaf then decodeV2LeafFields height logicalLen a b c commitment
      else if kind = v2NodeKindBranch then
        decodeV2BranchFields height logicalLen a b c commitment
      else .error (.invalid "v2 node kind is unsupported") := by
  rw [decodeV2Node, requireRecordLen, failIf_neg (by simp [v2NodeRecordSize]), ok_bind,
    slice_nodeMagic, okOr_some, ok_bind, failIf_neg (by simp), ok_bind, getElem?_kind, okOr_some,
    ok_bind, getElem?_flags, okOr_some, ok_bind, failIf_neg (by simp), ok_bind,
    readLe_height hHeight, okOr_some, ok_bind, readLe_logicalLen hLen, okOr_some, ok_bind,
    readLe_fieldA ha, okOr_some, ok_bind, readLe_fieldB hb, okOr_some, ok_bind,
    readLe_fieldC hc, okOr_some, ok_bind, readArray_commitment, okOr_some, ok_bind]

theorem laid_nodeRecordBytes {bytes : Bytes} :
    bytes = nodeRecordBytes kind height logicalLen a b c commitment ↔
      slice bytes 0 4 = some v2NodeMagic ∧ slice bytes 4 5 = some [kind] ∧
      slice bytes 5 6 = some [0] ∧ slice bytes 6 8 = some (leBytes 2 height) ∧
      slice bytes 8 16 = some (leBytes 8 logicalLen) ∧ slice bytes 16 24 = some (leBytes 8 a) ∧
      slice bytes 24 32 = some (leBytes 8 b) ∧ slice bytes 32 40 = some (leBytes 8 c) ∧
      slice bytes 40 72 = some commitment.toList ∧ 72 = bytes.length := by
  have hParts : nodeRecordBytes kind height logicalLen a b c commitment =
      [v2NodeMagic, [kind], [0], leBytes 2 height, leBytes 8 logicalLen, leBytes 8 a, leBytes 8 b,
        leBytes 8 c, commitment.toList].flatten := by simp [nodeRecordBytes]
  rw [hParts, ← laid_iff]
  simp only [Laid, length_v2NodeMagic, length_leBytes, List.length_singleton, Vector.length_toList,
    Nat.reduceAdd]

end NodeBytes

theorem decodeV2LeafFields_eq_ok {height logicalLen a b c : Nat} {commitment : V2Commitment}
    {record : V2NodeRecord} :
    decodeV2LeafFields height logicalLen a b c commitment = .ok record ↔
      record = ⟨height, logicalLen, commitment, .leaf a b⟩ ∧ record.Canonical ∧ c = 0 := by
  simp only [decodeV2LeafFields, bind_eq_ok, failIf_eq_ok, not_not, okOr_eq_ok, checkedAdd_eq_some,
    pure_eq_ok]
  constructor
  · rintro ⟨_, rfl, _, hPos, _, rfl, _, hMax, _, rfl, _, ⟨hEnd, rfl⟩, rfl⟩
    exact ⟨rfl, ⟨rfl, Nat.pos_of_ne_zero hPos, rfl, Nat.not_lt.mp hMax, hEnd⟩, rfl⟩
  · rintro ⟨rfl, ⟨hHeight, hPos, hLen, hMax, hEnd⟩, rfl⟩
    exact ⟨(), hHeight, (), Nat.ne_of_gt hPos, (), hLen, (), Nat.not_lt.mpr hMax, (), rfl, _,
      ⟨hEnd, rfl⟩, rfl⟩

theorem decodeV2BranchFields_eq_ok {height logicalLen a b c : Nat} {commitment : V2Commitment}
    {record : V2NodeRecord} (hHeight : height < width 16) (hLen : logicalLen < width 64)
    (ha : a < width 64) (hb : b < width 64) :
    decodeV2BranchFields height logicalLen a b c commitment = .ok record ↔
      record = ⟨height, logicalLen, commitment, .branch a b c⟩ ∧ record.Canonical := by
  have hNone : v2NoneNode + 1 = width 64 := by decide
  simp only [decodeV2BranchFields, bind_eq_ok, failIf_eq_ok, not_or, pure_eq_ok, Nat.not_lt,
    Nat.not_le, ge_iff_le]
  constructor
  · rintro ⟨_, hLow, _, ⟨hLeft, hRight⟩, _, ⟨hPos, hLt⟩, rfl⟩
    exact ⟨rfl, hLow, hHeight, by omega, by omega, Nat.pos_of_ne_zero hPos, hLt, hLen⟩
  · rintro ⟨rfl, hLow, -, hLeft, hRight, hPos, hLt, -⟩
    exact ⟨(), hLow, (), ⟨Nat.ne_of_lt hLeft, Nat.ne_of_lt hRight⟩, (), ⟨Nat.ne_of_gt hPos, hLt⟩,
      rfl⟩

@[simp] theorem length_encodeV2Node (record : V2NodeRecord) : (encodeV2Node record).length = 72 := by
  unfold encodeV2Node
  split <;> simp

theorem decodeV2Node_encode {record : V2NodeRecord} (h : record.Canonical) :
    decodeV2Node (encodeV2Node record) = .ok record := by
  obtain ⟨height, logicalLen, commitment, body⟩ := record
  have hLeafWidth : maxLeafPayloadBytes < width 64 := by decide +kernel
  have hNone : v2NoneNode < width 64 := by decide +kernel
  cases body with
  | leaf payloadOffset payloadLen =>
    obtain ⟨rfl, hPos, rfl, hMax, hEnd⟩ := h
    dsimp only at hPos hMax hEnd
    simp only [encodeV2Node]
    rw [decodeV2Node_bytes (by decide) (by omega) (by omega) (by omega)
      (by decide), if_pos rfl, decodeV2LeafFields, failIf_neg (by simp), ok_bind,
      failIf_neg (by omega), ok_bind, failIf_neg (by simp), ok_bind, failIf_neg (by omega), ok_bind,
      failIf_neg (by simp), ok_bind, checkedAdd_of_lt hEnd, okOr_some, ok_bind]
    rfl
  | branch leftNodeId rightNodeId leftLen =>
    obtain ⟨hLow, hHigh, hLeft, hRight, hPos, hLt, hLen⟩ := h
    dsimp only at hLow hHigh hPos hLt hLen
    simp only [encodeV2Node]
    rw [decodeV2Node_bytes hHigh hLen (by omega) (by omega) (by omega),
      if_neg (by decide), if_pos rfl, decodeV2BranchFields, failIf_neg (by omega), ok_bind,
      failIf_neg (by omega), ok_bind, failIf_neg (by omega), ok_bind]
    rfl

/-- The decoder of nodes accepts exactly what the encoder writes. -/
theorem decodeV2Node_eq_ok {bytes : Bytes} {record : V2NodeRecord} :
    decodeV2Node bytes = .ok record ↔ record.Canonical ∧ bytes = encodeV2Node record := by
  refine ⟨fun h => ?_, fun ⟨hCanonical, hBytes⟩ => hBytes ▸ decodeV2Node_encode hCanonical⟩
  have hWidth : width 64 = 256 ^ 8 := by decide
  have hWidth16 : width 16 = 256 ^ 2 := by decide
  simp only [decodeV2Node, requireRecordLen, bind_eq_ok, okOr_eq_ok, failIf_eq_ok, not_not,
    readLe_eq_some, readArray_eq_some, getElem?_eq_slice, Nat.reduceAdd] at h
  obtain ⟨_, hLen, _, hMagic, _, rfl, kind, hKind, _, hFlags, _, rfl, height, ⟨hHeight, hHeightLt⟩,
    logicalLen, ⟨hLogical, hLogicalLt⟩, a, ⟨ha, haLt⟩, b, ⟨hb, hbLt⟩, c, ⟨hc, hcLt⟩, commitment,
    hCommitment, h⟩ := h
  have hBytes : bytes = nodeRecordBytes kind height logicalLen a b c commitment :=
    laid_nodeRecordBytes.mpr ⟨hMagic, hKind, hFlags, hHeight, hLogical, ha, hb, hc, hCommitment,
      hLen.symm⟩
  split at h
  case isTrue hLeaf =>
    obtain ⟨rfl, hCanonical, rfl⟩ := decodeV2LeafFields_eq_ok.mp h
    subst hLeaf
    exact ⟨hCanonical, hBytes⟩
  case isFalse =>
    split at h
    case isTrue hBranch =>
      obtain ⟨rfl, hCanonical⟩ := (decodeV2BranchFields_eq_ok (by omega) (by omega) (by omega)
        (by omega)).mp h
      subst hBranch
      exact ⟨hCanonical, hBytes⟩
    case isFalse => cases h

/-- The projection of a canonical record is its body. -/
theorem v2NodeFields_of_canonical {record : V2NodeRecord} (h : record.Canonical) :
    v2NodeFields record = .ok (match record.body with
      | .leaf payloadOffset payloadLen => .leaf payloadOffset payloadLen
      | .branch leftNodeId rightNodeId leftLen => .branch leftNodeId rightNodeId leftLen) := by
  obtain ⟨height, logicalLen, commitment, body⟩ := record
  have hNone : v2NoneNode < width 64 := by decide +kernel
  cases body with
  | leaf payloadOffset payloadLen =>
    obtain ⟨rfl, -, rfl, -, hEnd⟩ := h
    simp only [v2NodeFields, encodeV2Node]
    rw [readLe_fieldA (by omega), okOr_some, ok_bind, readLe_fieldB (by omega), okOr_some, ok_bind,
      if_pos trivial]
    rfl
  | branch leftNodeId rightNodeId leftLen =>
    obtain ⟨hLow, -, hLeft, hRight, -, hLt, hLen⟩ := h
    dsimp only at hLow hLt hLen
    simp only [v2NodeFields, encodeV2Node]
    rw [readLe_fieldA (by omega), okOr_some, ok_bind, readLe_fieldB (by omega), okOr_some, ok_bind,
      if_neg (by omega), readLe_fieldC (by omega), okOr_some, ok_bind]
    rfl

section Constructors

variable {sha256 : Bytes → Digest}

theorem canonical_of_leaf {payloadOffset : Nat} {payload : Bytes} {record : V2NodeRecord}
    (h : V2NodeRecord.leaf sha256 payloadOffset payload = .ok record) : record.Canonical := by
  obtain ⟨⟨hPos, hMax, hEnd⟩, rfl⟩ := leaf_eq_ok.mp h
  exact ⟨rfl, hPos, rfl, hMax, hEnd⟩

theorem canonical_of_branch {left right : V2RootRecord} {record : V2NodeRecord}
    (hLeft : left.nodeId < v2NoneNode) (hRight : right.nodeId < v2NoneNode)
    (h : V2NodeRecord.branch sha256 left right = .ok record) : record.Canonical := by
  obtain ⟨⟨-, hLeftLen, hLeftHeight⟩, ⟨-, hRightLen, hRightHeight⟩, -, hHeight, hLen, rfl⟩ :=
    branch_eq_ok.mp h
  refine ⟨?_, hHeight, hLeft, hRight, ?_, ?_, hLen⟩
  · dsimp only
    omega
  · omega
  · dsimp only
    omega

end Constructors

/-! ## Roots -/

@[simp] theorem length_encodeV2Root (root : V2RootRecord) : (encodeV2Root root).length = 56 := by
  simp [encodeV2Root]

/-- The values a root record can carry. -/
structure V2RootRecord.Fits (root : V2RootRecord) : Prop where
  nodeId : root.nodeId < v2NoneNode
  len_pos : 1 ≤ root.logicalLen
  len_lt : root.logicalLen < width 64
  height_pos : 1 ≤ root.height
  height_lt : root.height < width 16

theorem V2NodeRecord.Canonical.bounds {node : V2NodeRecord} (h : node.Canonical) :
    (1 ≤ node.height ∧ node.height < width 16) ∧ 1 ≤ node.logicalLen ∧
      node.logicalLen < width 64 := by
  obtain ⟨height, logicalLen, commitment, body⟩ := node
  have hLeafWidth : maxLeafPayloadBytes < width 64 := by decide +kernel
  have hOne : 1 < width 16 := by decide +kernel
  cases body with
  | leaf payloadOffset payloadLen =>
    obtain ⟨hHeight, hPos, -, hMax, -⟩ := h
    exact ⟨⟨Nat.le_of_eq hHeight.symm, hHeight ▸ hOne⟩, hPos, Nat.lt_of_le_of_lt hMax hLeafWidth⟩
  | branch leftNodeId rightNodeId leftLen =>
    obtain ⟨hLow, hHeight, -, -, hPos, hLt, hLen⟩ := h
    dsimp only at hLow hHeight hLt hLen ⊢
    exact ⟨⟨by omega, hHeight⟩, by omega, hLen⟩

theorem V2RootRecord.fits_of_fromNode {nodeId : Nat} {node : V2NodeRecord} {root : V2RootRecord}
    (hId : nodeId < width 64) (hNode : node.Canonical)
    (h : V2RootRecord.fromNode nodeId node = .ok root) : root.Fits := by
  have hNone : v2NoneNode + 1 = width 64 := by decide
  obtain ⟨hNotNone, rfl⟩ := fromNode_eq_ok.mp h
  obtain ⟨⟨hHeight, hHeightLt⟩, hLen, hLenLt⟩ := hNode.bounds
  exact ⟨by dsimp only; omega, hLen, hLenLt, hHeight, hHeightLt⟩

theorem laid_encodeV2Root {bytes : Bytes} {root : V2RootRecord} :
    bytes = encodeV2Root root ↔
      slice bytes 0 4 = some v2RootMagic ∧ slice bytes 4 5 = some [v2RootRepresentationBalanced] ∧
      slice bytes 5 6 = some [0] ∧ slice bytes 6 8 = some (leBytes 2 root.height) ∧
      slice bytes 8 16 = some (leBytes 8 root.nodeId) ∧
      slice bytes 16 24 = some (leBytes 8 root.logicalLen) ∧
      slice bytes 24 56 = some root.commitment.toList ∧ 56 = bytes.length := by
  have hParts : encodeV2Root root = [v2RootMagic, [v2RootRepresentationBalanced], [0],
      leBytes 2 root.height, leBytes 8 root.nodeId, leBytes 8 root.logicalLen,
      root.commitment.toList].flatten := by simp [encodeV2Root]
  rw [hParts, ← laid_iff]
  simp only [Laid, length_v2RootMagic, length_leBytes, List.length_singleton, Vector.length_toList,
    Nat.reduceAdd]

/-- The decoder of roots accepts exactly what the encoder writes. -/
theorem decodeV2Root_eq_ok {bytes : Bytes} {root : V2RootRecord} :
    decodeV2Root bytes = .ok root ↔ root.Fits ∧ bytes = encodeV2Root root := by
  rw [laid_encodeV2Root]
  simp only [decodeV2Root, requireRecordLen, bind_eq_ok, okOr_eq_ok, failIf_eq_ok, not_not,
    readLe_eq_some, readArray_eq_some, getElem?_eq_slice, pure_eq_ok, validateChildRoot_eq_ok,
    Nat.reduceAdd]
  have hWidth : width 64 = 256 ^ 8 := by decide
  have hWidth16 : width 16 = 256 ^ 2 := by decide
  have hNone : v2NoneNode + 1 = width 64 := by decide
  constructor
  · rintro ⟨_, hLen, _, hMagic, _, rfl, _, hRepresentation, _, rfl, _, hFlags, _, rfl, height,
      ⟨hHeight, hHeightLt⟩, nodeId, ⟨hId, hIdLt⟩, logicalLen, ⟨hLogical, hLogicalLt⟩, commitment,
      hCommitment, _, ⟨hIdNe, hLogicalNe, hHeightNe⟩, rfl⟩
    exact ⟨⟨by dsimp only; omega, by dsimp only; omega, by dsimp only; omega, by dsimp only; omega,
      by dsimp only; omega⟩, hMagic, hRepresentation, hFlags, hHeight, hId, hLogical, hCommitment,
      hLen.symm⟩
  · rintro ⟨⟨hId, hPos, hLt, hHeightPos, hHeightLt⟩, hMagic, hRepresentation, hFlags, hHeight, hIdAt,
      hLogical, hCommitment, hLen⟩
    exact ⟨(), hLen.symm, _, hMagic, (), rfl, _, hRepresentation, (), rfl, _, hFlags, (), rfl, _,
      ⟨hHeight, by omega⟩, _, ⟨hIdAt, by omega⟩, _, ⟨hLogical, by omega⟩, _, hCommitment, (),
      ⟨by omega, by omega, by omega⟩, rfl⟩

theorem decodeV2Root_encode {root : V2RootRecord} (hId : root.nodeId < v2NoneNode)
    (hLen : 1 ≤ root.logicalLen) (hLenMax : root.logicalLen < width 64) (hHeight : 1 ≤ root.height)
    (hHeightMax : root.height < width 16) : decodeV2Root (encodeV2Root root) = .ok root :=
  decodeV2Root_eq_ok.mpr ⟨⟨hId, hLen, hLenMax, hHeight, hHeightMax⟩, rfl⟩

end TulyaStore.Sequence
