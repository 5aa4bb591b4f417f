import TulyaStore.Sequence.BackendRuns

/-!
# Opening content files

The openings of a physical generation (`physical.rs`): existing files are bound to a frontier
when their headers name the generation and they are long enough; reads stay within the frontier,
so a tail behind it is ignored.
-/

namespace TulyaStore.Sequence

open Lib V2AvlSequence

/-- `decode_header` -/
def decodeHeader (expectedMagic header : Bytes) : Except V2AvlError Nat := do
  failIf (header.take 4 ≠ expectedMagic) (.invalid "history physical content magic mismatch")
  failIf ((header.drop 12).take 4 ≠ [0, 0, 0, 0])
    (.invalid "history physical content header reserves nonzero bytes")
  return leValue ((header.drop 4).take 8)

namespace PhysicalContentStore

def openFailed : V2AvlError := .invalid "history physical content open failed"

def tooShort : V2AvlError :=
  .invalid "history physical content is shorter than its authoritative frontier"

/-- The two files of the store cover its frontiers. -/
def checkLengths (store : PhysicalContentStore) (payload nodes : Bytes) :
    Except V2AvlError Unit := do
  let expectedPayload ← store.expectedPayload
  let expectedNodes ← store.expectedNodes
  failIf (payload.length < expectedPayload ∨ nodes.length < expectedNodes) tooShort

/-- `open_existing` on the contents of the two files. -/
def openExisting (payload nodes : Option Bytes) (generation payloadEnd nodeCount : Nat) :
    Except V2AvlError PhysicalContentStore := do
  let payload ← okOr payload openFailed
  let nodes ← okOr nodes openFailed
  let payloadHeader ← okOr (readExactAt payload 0 physicalHeaderSize) openFailed
  let nodesHeader ← okOr (readExactAt nodes 0 physicalHeaderSize) openFailed
  let payloadGeneration ← decodeHeader physicalPayloadMagic payloadHeader
  failIf (payloadGeneration ≠ generation)
    (.invalid "history physical content generation disagrees with its headers")
  let nodesGeneration ← decodeHeader physicalNodeMagic nodesHeader
  failIf (nodesGeneration ≠ generation)
    (.invalid "history physical content generation disagrees with its headers")
  let store : PhysicalContentStore :=
    ⟨generation, some payload, some nodes, payloadEnd, nodeCount⟩
  store.checkLengths payload nodes
  return store

/-- `check_files_cover_frontiers` -/
def checkFilesCoverFrontiers (store : PhysicalContentStore) : Except V2AvlError Unit :=
  match store.payload with
  | none =>
    failIf (¬ (store.committedPayloadEnd = 0 ∧ store.committedNodeCount = 0)) absent
  | some payload => do
    let nodes ← okOr store.nodes absent
    store.checkLengths payload nodes

end PhysicalContentStore

/-! ## Files that hold an arena -/

section Holds

variable {generation : Nat} {a : V2AvlSequence}

theorem decodeHeader_encode {magic : Bytes} (hMagic : magic.length = 4)
    (hGeneration : generation < width 64) :
    decodeHeader magic (encodeHeader magic generation) = .ok generation := by
  have hTake : (encodeHeader magic generation).take 4 = magic := by
    rw [encodeHeader, List.append_assoc, List.take_left' hMagic]
  have hDrop : (encodeHeader magic generation).drop 4 = leBytes 8 generation ++ [0, 0, 0, 0] := by
    rw [encodeHeader, List.append_assoc, List.drop_left' hMagic]
  have hDropMore : (encodeHeader magic generation).drop 12 = [0, 0, 0, 0] := by
    have hSplit : (encodeHeader magic generation).drop 12 =
        ((encodeHeader magic generation).drop 4).drop 8 := by rw [List.drop_drop]
    rw [hSplit, hDrop, List.drop_left' (length_leBytes 8 generation)]
  rw [decodeHeader, failIf_neg (by rw [hTake]; simp), ok_bind,
    failIf_neg (by rw [hDropMore]; simp), ok_bind, hDrop,
    List.take_left' (length_leBytes 8 generation)]
  change Except.ok (leValue (leBytes 8 generation)) = _
  rw [leValue_leBytes]
  unfold width at hGeneration
  omega

theorem readExactAt_header {header : Bytes} (hLen : header.length = 16) (rest : Bytes) :
    readExactAt (header ++ rest) 0 physicalHeaderSize = some header := by
  unfold readExactAt
  rw [if_neg (by decide)]
  have hSlice : slice (header ++ rest) 0 header.length = some header :=
    slice_append (slice_all header)
  rw [hLen] at hSlice
  exact hSlice

/-- The two files of a generation hold the arena, with anything behind it. -/
structure HoldsArena (payload nodes : Option Bytes) (generation : Nat) (a : V2AvlSequence) :
    Prop where
  payload : ∃ tail, payload = some (encodeHeader physicalPayloadMagic generation ++
    (a.payload ++ tail))
  nodes : ∃ tail, nodes = some (encodeHeader physicalNodeMagic generation ++
    (nodeBytes a.nodes ++ tail))

variable {payload nodes : Option Bytes}

/-- A smaller arena is held by the same files. -/
theorem HoldsArena.of_grows (h : HoldsArena payload nodes generation a) {b : V2AvlSequence}
    (hGrows : Grows b a) : HoldsArena payload nodes generation b := by
  obtain ⟨payloadTail, hPayload⟩ := h.payload
  obtain ⟨nodeTail, hNodes⟩ := h.nodes
  obtain ⟨morePayload, hMorePayload⟩ := hGrows.1
  obtain ⟨moreNodes, hMoreNodes⟩ := hGrows.2
  refine ⟨⟨morePayload ++ payloadTail, ?_⟩, ⟨nodeBytes moreNodes ++ nodeTail, ?_⟩⟩
  · rw [hPayload, ← hMorePayload, List.append_assoc]
  · rw [hNodes, ← hMoreNodes, nodeBytes_append, List.append_assoc]

/-- The store bound to the files at the frontier of the arena. -/
def boundStore (payload nodes : Option Bytes) (generation : Nat) (a : V2AvlSequence) :
    PhysicalContentStore :=
  ⟨generation, payload, nodes, a.payload.length, a.nodes.length⟩

theorem HoldsArena.represents (h : HoldsArena payload nodes generation a) :
    Represents (boundStore payload nodes generation a) a := by
  obtain ⟨payloadTail, hPayload⟩ := h.payload
  obtain ⟨nodeTail, hNodes⟩ := h.nodes
  exact ⟨rfl, rfl, Or.inr ⟨payloadTail, nodeTail, hPayload, hNodes⟩⟩

theorem HoldsArena.checkLengths (h : HoldsArena payload nodes generation a)
    (hAddressable : Addressable a) {payloadBytes nodesBytes : Bytes}
    (hPayload : payload = some payloadBytes) (hNodes : nodes = some nodesBytes) :
    (boundStore payload nodes generation a).checkLengths payloadBytes nodesBytes = .ok () := by
  obtain ⟨payloadTail, hPayload'⟩ := h.payload
  obtain ⟨nodeTail, hNodes'⟩ := h.nodes
  have hPayloadHeader := length_encodeHeader_payload generation
  have hNodeHeader := length_encodeHeader_node generation
  rw [hPayload] at hPayload'
  rw [hNodes] at hNodes'
  cases hPayload'
  cases hNodes'
  rw [PhysicalContentStore.checkLengths, h.represents.expectedPayload hAddressable, ok_bind,
    h.represents.expectedNodes hAddressable, ok_bind, failIf_neg]
  simp only [List.length_append, length_nodeBytes, hPayloadHeader, hNodeHeader]
  omega

/-- Files that hold the arena open at its frontier. -/
theorem HoldsArena.openExisting (h : HoldsArena payload nodes generation a)
    (hAddressable : Addressable a) (hGeneration : generation < width 64) :
    PhysicalContentStore.openExisting payload nodes generation a.payload.length a.nodes.length =
      .ok (boundStore payload nodes generation a) := by
  obtain ⟨payloadTail, hPayload⟩ := h.payload
  obtain ⟨nodeTail, hNodes⟩ := h.nodes
  have hPayloadMagic : physicalPayloadMagic.length = 4 := by decide
  have hNodeMagic : physicalNodeMagic.length = 4 := by decide
  have hLengths := h.checkLengths hAddressable hPayload hNodes
  unfold boundStore at hLengths ⊢
  subst hPayload hNodes
  rw [PhysicalContentStore.openExisting, okOr_some, ok_bind, okOr_some, ok_bind,
    readExactAt_header (length_encodeHeader_payload generation), okOr_some, ok_bind,
    readExactAt_header (length_encodeHeader_node generation), okOr_some, ok_bind,
    decodeHeader_encode hPayloadMagic hGeneration, ok_bind, failIf_neg (by simp), ok_bind,
    decodeHeader_encode hNodeMagic hGeneration, ok_bind, failIf_neg (by simp), ok_bind]
  dsimp only
  rw [hLengths, ok_bind]
  rfl

theorem HoldsArena.checkFilesCoverFrontiers (h : HoldsArena payload nodes generation a)
    (hAddressable : Addressable a) :
    (boundStore payload nodes generation a).checkFilesCoverFrontiers = .ok () := by
  obtain ⟨payloadTail, hPayload⟩ := h.payload
  obtain ⟨nodeTail, hNodes⟩ := h.nodes
  have hLengths := h.checkLengths hAddressable hPayload hNodes
  subst hPayload hNodes
  unfold PhysicalContentStore.checkFilesCoverFrontiers
  simp only [boundStore, okOr_some, ok_bind]
  exact hLengths

/-! ## Validating a delta that is not the last one -/

theorem readExactAt_middle (pre bytes post : Bytes) :
    readExactAt (pre ++ (bytes ++ post)) pre.length bytes.length = some bytes := by
  unfold readExactAt
  split
  case isTrue hEmpty => rw [List.length_eq_zero_iff.mp hEmpty]
  case isFalse =>
    rw [← List.append_assoc]
    exact slice_append slice_append_self

variable {sha256 : Bytes → Digest} {b : V2AvlSequence}

/-- The placement of a delta is accepted by files that hold its result, whatever was appended
to them since. -/
theorem HoldsArena.validateCommittedDelta (h : HoldsArena payload nodes generation b)
    (hWf : WellFormed sha256 a) {result : V2SpliceResult} {delta : PhysicalDelta}
    (hDelta : DeltaFor sha256 generation a b result delta) :
    validateCommittedDelta sha256 (boundStore payload nodes generation a) generation
      delta.oldPayloadEnd delta.newPayloadEnd delta.oldNodeCount delta.newNodeCount
      delta.deltaDigest (encodeV2Root delta.root) delta.root.logicalLen = .ok delta.root := by
  have hLeads := hDelta.leads
  have hRepresents := (h.of_grows hLeads.grows).represents
  obtain ⟨payloadTail, hPayload⟩ := h.payload
  obtain ⟨nodeTail, hNodes⟩ := h.nodes
  obtain ⟨hPayloadLen, hNodesLe, hNodesLen⟩ := hLeads.lengths
  obtain ⟨fresh, hFresh, hFreshBytes, -⟩ := hLeads.nodes
  obtain ⟨t, hDenotes⟩ := hLeads.root
  have hBounds := hLeads.addressable
  unfold Addressable at hBounds
  have hPayloadHeader := length_encodeHeader_payload generation
  have hNodeHeader := length_encodeHeader_node generation
  have hReadPayload : readExactAt (encodeHeader physicalPayloadMagic generation ++
      (b.payload ++ payloadTail)) (physicalHeaderSize + a.payload.length)
        (b.payload.length - a.payload.length) = some delta.payload := by
    have hMiddle := readExactAt_middle
      (encodeHeader physicalPayloadMagic generation ++ a.payload) delta.payload payloadTail
    rw [List.length_append, hPayloadHeader, List.append_assoc, ← List.append_assoc a.payload,
      ← hLeads.payload] at hMiddle
    rw [hPayloadLen, Nat.add_sub_cancel_left]
    exact hMiddle
  have hReadNodes : readExactAt (encodeHeader physicalNodeMagic generation ++
      (nodeBytes b.nodes ++ nodeTail)) (physicalHeaderSize + a.nodes.length * 72)
        ((b.nodes.length - a.nodes.length) * 72) = some delta.nodes := by
    have hMiddle := readExactAt_middle
      (encodeHeader physicalNodeMagic generation ++ nodeBytes a.nodes) delta.nodes nodeTail
    rw [List.length_append, hNodeHeader, length_nodeBytes, List.append_assoc,
      ← List.append_assoc (nodeBytes a.nodes), hNodesLen, hFreshBytes, ← nodeBytes_append,
      ← hFresh] at hMiddle
    rw [hFreshBytes]
    exact hMiddle
  have hValid := hLeads.validateFreshDelta hRepresents hWf
  have hRange : (b.nodes.length - a.nodes.length) * physicalNodeRecordSize < width 64 := by
    unfold width physicalNodeRecordSize v2NodeRecordSize
    omega
  have hPayloadOffset : physicalHeaderSize + a.payload.length < width 64 := by
    unfold width physicalHeaderSize
    omega
  have hNodeBytes : a.nodes.length * physicalNodeRecordSize < width 64 := by
    unfold width physicalNodeRecordSize v2NodeRecordSize
    omega
  have hNodeOffset :
      physicalHeaderSize + a.nodes.length * physicalNodeRecordSize < width 64 := by
    unfold width physicalHeaderSize physicalNodeRecordSize v2NodeRecordSize
    omega
  have hPayloadFile : (boundStore payload nodes generation a).payloadFile =
      .ok (encodeHeader physicalPayloadMagic generation ++ (b.payload ++ payloadTail)) := by
    rw [PhysicalContentStore.payloadFile, boundStore, hPayload]
    rfl
  have hNodesFile : (boundStore payload nodes generation a).nodesFile =
      .ok (encodeHeader physicalNodeMagic generation ++ (nodeBytes b.nodes ++ nodeTail)) := by
    rw [PhysicalContentStore.nodesFile, boundStore, hNodes]
    rfl
  rw [hDelta.old.1, hDelta.old.2, hDelta.new.1, hDelta.new.2, Sequence.validateCommittedDelta,
    failIf_neg (by simp [boundStore]), ok_bind, failIf_neg (by simp [boundStore]), ok_bind,
    failIf_neg (by omega), ok_bind, hDenotes.decode_encode, liftFormat, mapErr_ok, ok_bind,
    failIf_neg (by simp), ok_bind, checkedMul_of_lt hRange, okOr_some, ok_bind,
    checkedAdd_of_lt hPayloadOffset, okOr_some, ok_bind, checkedMul_of_lt hNodeBytes, okOr_some,
    ok_bind, checkedAdd_of_lt hNodeOffset, okOr_some, ok_bind, hPayloadFile, ok_bind, hReadPayload,
    okOr_some, ok_bind, hNodesFile, ok_bind]
  simp only [physicalNodeRecordSize, v2NodeRecordSize]
  rw [hReadNodes, okOr_some, ok_bind, hValid, ok_bind,
    failIf_neg (by rw [hDelta.digest]; simp), ok_bind]
  rfl

end Holds

end TulyaStore.Sequence
