import TulyaStore.Sequence.Refinement

/-!
# Runs of both backends

The same calls go to a memory backend and to a file-backed one. Each prepared delta is
adopted, dropped before it reaches the files, or left behind the frontier after its commit.
`physical_refines_memory` says that both backends answer alike in every reached state, and
that the placement of every committed delta, and with its digest no other, is accepted back.
-/

namespace TulyaStore.Sequence

open Lib ArenaStore V2AvlSequence SequenceBackend

/-! ## Placements -/

/-- What `physical_delta_digest` hashes. -/
def physicalDeltaMessage (generation oldPayloadEnd newPayloadEnd oldNodeCount newNodeCount : Nat)
    (payload nodes resultRoot : Bytes) : Bytes :=
  physicalDeltaDigestDomain ++ leBytes 8 generation ++ leBytes 8 oldPayloadEnd ++
    leBytes 8 newPayloadEnd ++ leBytes 8 oldNodeCount ++ leBytes 8 newNodeCount ++ payload ++
    nodes ++ resultRoot

section Placement

variable {sha256 : Bytes → Digest} {store : PhysicalContentStore} {a b : V2AvlSequence}

theorem readExactAt_tail (pre bytes : Bytes) :
    readExactAt (pre ++ bytes) pre.length bytes.length = some bytes := by
  unfold readExactAt
  split
  case isTrue h => rw [List.length_eq_zero_iff.mp h]
  case isFalse => exact slice_append_self

theorem Denotes.decode_encode {t : Rope UInt8} {root : V2RootRecord}
    (h : Denotes sha256 a t root) : decodeV2Root (encodeV2Root root) = .ok root := by
  obtain ⟨_, -, hRoot⟩ := h.root_eq
  have hId := h.id_lt
  have hNone := (fromNode_eq_ok.mp hRoot).1
  have hHeight := h.height_lt
  have hPos := h.length_pos
  have hHeightPos := t.height_pos
  have hWidth : (94 : Nat) ≤ width 16 := by decide +kernel
  refine decodeV2Root_encode ?_ ?_ ?_ ?_ ?_
  · unfold v2NoneNode maxValue at hNone ⊢
    unfold width at hId
    omega
  · rw [h.logicalLen]
    exact hPos
  · rw [h.logicalLen]
    exact h.metadata.2.2
  · rw [h.height]
    exact hHeightPos
  · rw [h.height]
    omega

/-- The placement a delta was committed with is accepted and gives its root. -/
theorem validateCommittedDelta_ok (h : Represents store a) (hWf : WellFormed sha256 a)
    {result : V2SpliceResult} {delta : PhysicalDelta}
    (hDelta : DeltaFor sha256 store.generation a b result delta) :
    validateCommittedDelta sha256
      (withFiles store (a.payload ++ delta.payload) (nodeBytes a.nodes ++ delta.nodes))
      store.generation delta.oldPayloadEnd delta.newPayloadEnd delta.oldNodeCount
      delta.newNodeCount delta.deltaDigest (encodeV2Root delta.root) delta.root.logicalLen =
        .ok delta.root := by
  have hLeads := hDelta.leads
  obtain ⟨hPayloadLen, hNodesLe, hNodesLen⟩ := hLeads.lengths
  obtain ⟨t, hDenotes⟩ := hLeads.root
  have hBounds := hLeads.addressable
  unfold Addressable at hBounds
  have hPayloadHeader := length_encodeHeader_payload store.generation
  have hNodeHeader := length_encodeHeader_node store.generation
  have hReadPayload : readExactAt (encodeHeader physicalPayloadMagic store.generation ++
      (a.payload ++ delta.payload)) (physicalHeaderSize + a.payload.length)
        (b.payload.length - a.payload.length) = some delta.payload := by
    have hTail := readExactAt_tail
      (encodeHeader physicalPayloadMagic store.generation ++ a.payload) delta.payload
    rw [List.length_append, hPayloadHeader, List.append_assoc] at hTail
    rw [hPayloadLen, Nat.add_sub_cancel_left]
    exact hTail
  have hReadNodes : readExactAt (encodeHeader physicalNodeMagic store.generation ++
      (nodeBytes a.nodes ++ delta.nodes)) (physicalHeaderSize + a.nodes.length * 72)
        ((b.nodes.length - a.nodes.length) * 72) = some delta.nodes := by
    have hTail := readExactAt_tail
      (encodeHeader physicalNodeMagic store.generation ++ nodeBytes a.nodes) delta.nodes
    rw [List.length_append, hNodeHeader, length_nodeBytes, List.append_assoc, hNodesLen] at hTail
    exact hTail
  have hValid := hLeads.validateFreshDelta (h.committed delta.payload delta.nodes) hWf
  have hPayloadFile : (withFiles store (a.payload ++ delta.payload)
      (nodeBytes a.nodes ++ delta.nodes)).payloadFile =
        .ok (encodeHeader physicalPayloadMagic store.generation ++
          (a.payload ++ delta.payload)) := rfl
  have hNodesFile : (withFiles store (a.payload ++ delta.payload)
      (nodeBytes a.nodes ++ delta.nodes)).nodesFile =
        .ok (encodeHeader physicalNodeMagic store.generation ++
          (nodeBytes a.nodes ++ delta.nodes)) := rfl
  have hGeneration : (withFiles store (a.payload ++ delta.payload)
      (nodeBytes a.nodes ++ delta.nodes)).generation = store.generation := rfl
  have hRange : (b.nodes.length - a.nodes.length) * physicalNodeRecordSize < width 64 := by
    unfold width physicalNodeRecordSize v2NodeRecordSize
    omega
  have hPayloadOffset : physicalHeaderSize + a.payload.length < width 64 := by
    unfold width physicalHeaderSize
    omega
  have hNodeBytes : a.nodes.length * physicalNodeRecordSize < width 64 := by
    unfold width physicalNodeRecordSize v2NodeRecordSize
    omega
  have hNodeOffset :
      physicalHeaderSize + a.nodes.length * physicalNodeRecordSize < width 64 := by
    unfold width physicalHeaderSize physicalNodeRecordSize v2NodeRecordSize
    omega
  have hCommitted := h.committed delta.payload delta.nodes
  rw [hDelta.old.1, hDelta.old.2, hDelta.new.1, hDelta.new.2, validateCommittedDelta,
    failIf_neg (by rw [hGeneration]; simp), ok_bind,
    failIf_neg (by rw [hCommitted.payloadEnd, hCommitted.nodeCount]; simp), ok_bind,
    failIf_neg (by omega), ok_bind, hDenotes.decode_encode, liftFormat, mapErr_ok, ok_bind,
    failIf_neg (by simp), ok_bind, checkedMul_of_lt hRange, okOr_some, ok_bind,
    checkedAdd_of_lt hPayloadOffset, okOr_some, ok_bind, checkedMul_of_lt hNodeBytes, okOr_some,
    ok_bind, checkedAdd_of_lt hNodeOffset, okOr_some, ok_bind, hPayloadFile, ok_bind, hReadPayload,
    okOr_some, ok_bind, hNodesFile, ok_bind]
  simp only [physicalNodeRecordSize, v2NodeRecordSize]
  rw [hReadNodes, okOr_some, ok_bind, hValid, ok_bind,
    failIf_neg (by rw [hDelta.digest]; simp), ok_bind]
  rfl

theorem readExactAt_eq_take {pre bytes out : Bytes} {len : Nat}
    (h : readExactAt (pre ++ bytes) pre.length len = some out) :
    out = bytes.take len ∧ out.length = len := by
  unfold readExactAt at h
  split at h
  case isTrue hZero =>
    cases h
    simp [hZero]
  case isFalse =>
    have hLen := length_of_slice h
    obtain ⟨-, -, rfl⟩ := slice_eq_some.mp h
    rw [Nat.add_sub_cancel_left, List.drop_left] at *
    exact ⟨rfl, hLen⟩

/-- The message fixes the placement: its numbers have fixed widths and say how long the
payload and the nodes are. -/
theorem physicalDeltaMessage_inj {g ps ns pe pe' ne ne' : Nat} {payload payload' nodes nodes' : Bytes}
    {root root' : Bytes} (hPe : pe < width 64) (hPe' : pe' < width 64) (hNe : ne < width 64)
    (hNe' : ne' < width 64) (hPayload : payload.length = pe - ps)
    (hPayload' : payload'.length = pe' - ps) (hNodes : nodes.length = (ne - ns) * 72)
    (hNodes' : nodes'.length = (ne' - ns) * 72)
    (h : physicalDeltaMessage g ps pe ns ne payload nodes root =
      physicalDeltaMessage g ps pe' ns ne' payload' nodes' root') :
    pe = pe' ∧ ne = ne' ∧ root = root' := by
  have hWidth : width 64 = 256 ^ 8 := by decide
  simp only [physicalDeltaMessage, List.append_assoc] at h
  obtain ⟨hPeBytes, hRest⟩ := List.append_inj (List.append_cancel_left (List.append_cancel_left
    (List.append_cancel_left h))) (by simp)
  obtain ⟨hNeBytes, hRest⟩ := List.append_inj (List.append_cancel_left hRest) (by simp)
  have hPeEq : pe = pe' := leBytes_injective (by omega) (by omega) hPeBytes
  have hNeEq : ne = ne' := leBytes_injective (by omega) (by omega) hNeBytes
  rw [hPeEq] at hPayload
  rw [hNeEq] at hNodes
  obtain ⟨-, hRest⟩ := List.append_inj hRest (by omega)
  exact ⟨hPeEq, hNeEq, (List.append_inj hRest (by omega)).2⟩

/-- With the digest of a committed delta no other placement is accepted, unless its message
collides with that of the delta. -/
theorem validateCommittedDelta_exact (h : Represents store a) {result : V2SpliceResult}
    {delta : PhysicalDelta} (hDelta : DeltaFor sha256 store.generation a b result delta)
    {generation payloadStart payloadEnd nodeStart nodeEnd resultLen : Nat} {resultRoot : Bytes}
    {root : V2RootRecord} (hPayloadEnd : payloadEnd < width 64) (hNodeEnd : nodeEnd < width 64)
    (hNoCollision :
      sha256 (physicalDeltaMessage generation payloadStart payloadEnd nodeStart nodeEnd
        (delta.payload.take (payloadEnd - payloadStart))
        (delta.nodes.take ((nodeEnd - nodeStart) * 72)) resultRoot) = delta.deltaDigest →
      physicalDeltaMessage generation payloadStart payloadEnd nodeStart nodeEnd
        (delta.payload.take (payloadEnd - payloadStart))
        (delta.nodes.take ((nodeEnd - nodeStart) * 72)) resultRoot =
      physicalDeltaMessage store.generation delta.oldPayloadEnd delta.newPayloadEnd
        delta.oldNodeCount delta.newNodeCount delta.payload delta.nodes
        (encodeV2Root delta.root))
    (hOk : validateCommittedDelta sha256
      (withFiles store (a.payload ++ delta.payload) (nodeBytes a.nodes ++ delta.nodes)) generation
      payloadStart payloadEnd nodeStart nodeEnd delta.deltaDigest resultRoot resultLen = .ok root) :
    generation = store.generation ∧ payloadStart = delta.oldPayloadEnd ∧
      payloadEnd = delta.newPayloadEnd ∧ nodeStart = delta.oldNodeCount ∧
      nodeEnd = delta.newNodeCount ∧ resultRoot = encodeV2Root delta.root ∧
      resultLen = delta.root.logicalLen ∧ root = delta.root := by
  have hLeads := hDelta.leads
  obtain ⟨hPayloadLen, hNodesLe, hNodesLen⟩ := hLeads.lengths
  obtain ⟨t, hDenotes⟩ := hLeads.root
  have hBounds := hLeads.addressable
  unfold Addressable at hBounds
  have hCommitted := h.committed delta.payload delta.nodes
  simp only [validateCommittedDelta, bind_eq_ok, okOr_eq_ok, failIf_eq_ok, pure_eq_ok, liftFormat,
    mapErr_eq_ok, not_not, not_or, hCommitted.payloadEnd, hCommitted.nodeCount] at hOk
  obtain ⟨_, hGeneration, _, ⟨hStart, hNodeStart⟩, _, hOrder, root', hDecode, _, hLen, nodesLen,
    hMul, payloadOffset, hPayloadOffset, nodeOffset, hNodeBytes, nodesOffset, hNodesOffset,
    payloadFile, hPayloadFile, payload, hReadPayload, nodesFile, hNodesFile, nodes, hReadNodes, _, -,
    _, hDigest, rfl⟩ := hOk
  obtain ⟨-, rfl⟩ := tryFrom_eq_some.mp hMul
  obtain ⟨-, rfl⟩ := checkedAdd_eq_some.mp hPayloadOffset
  obtain ⟨-, rfl⟩ := tryFrom_eq_some.mp hNodeBytes
  obtain ⟨-, rfl⟩ := checkedAdd_eq_some.mp hNodesOffset
  cases hPayloadFile
  cases hNodesFile
  subst hGeneration hStart hNodeStart
  -- what the files hold behind the frontier is a first part of the delta
  have hPayload : payload = delta.payload.take (payloadEnd - a.payload.length) ∧
      payload.length = payloadEnd - a.payload.length := by
    have hOffset : physicalHeaderSize + a.payload.length =
        (encodeHeader physicalPayloadMagic store.generation ++ a.payload).length := by
      rw [List.length_append, length_encodeHeader_payload, physicalHeaderSize]
    change readExactAt (encodeHeader physicalPayloadMagic store.generation ++
      (a.payload ++ delta.payload)) _ _ = _ at hReadPayload
    rw [← List.append_assoc, hOffset] at hReadPayload
    exact readExactAt_eq_take hReadPayload
  have hNodes : nodes = delta.nodes.take ((nodeEnd - a.nodes.length) * 72) ∧
      nodes.length = (nodeEnd - a.nodes.length) * 72 := by
    have hOffset : physicalHeaderSize + a.nodes.length * physicalNodeRecordSize =
        (encodeHeader physicalNodeMagic store.generation ++ nodeBytes a.nodes).length := by
      rw [List.length_append, length_encodeHeader_node, length_nodeBytes, physicalHeaderSize,
        physicalNodeRecordSize, v2NodeRecordSize]
    change readExactAt (encodeHeader physicalNodeMagic store.generation ++
      (nodeBytes a.nodes ++ delta.nodes)) _ _ = _ at hReadNodes
    rw [← List.append_assoc, hOffset] at hReadNodes
    exact readExactAt_eq_take hReadNodes
  have hMessage := hNoCollision (by rw [← hPayload.1, ← hNodes.1]; exact hDigest)
  rw [← hPayload.1, ← hNodes.1, hDelta.old.1, hDelta.old.2, hDelta.new.1, hDelta.new.2] at hMessage
  have hWidth : b.payload.length < width 64 ∧ b.nodes.length < width 64 := by
    unfold width
    omega
  obtain ⟨hEnd, hCount, hRoot⟩ := physicalDeltaMessage_inj hPayloadEnd hWidth.1 hNodeEnd hWidth.2
    hPayload.2 (by omega) hNodes.2 hNodesLen hMessage
  rw [hRoot, hDenotes.decode_encode] at hDecode
  cases hDecode
  exact ⟨rfl, hDelta.old.1.symm, by rw [hEnd, hDelta.new.1], hDelta.old.2.symm,
    by rw [hCount, hDelta.new.2], hRoot, hLen.symm, rfl⟩

end Placement

/-! ## One call on both backends -/

inductive SeamCall where
  | splice (parent : Option PersistentRoot) (offset deleteLen : Nat) (insert : Bytes)
  | append (parent : Option PersistentRoot) (bytes : Bytes)
deriving DecidableEq, Repr

def SeamCall.parent : SeamCall → Option PersistentRoot
  | splice parent _ _ _ => parent
  | append parent _ => parent

section Calls

variable (sha256 : Bytes → Digest)

def memoryCall (call : SeamCall) : EStateM SequenceError V2AvlSequence V2SpliceResult :=
  match call with
  | .splice parent offset deleteLen insert => spliceMemory sha256 parent offset deleteLen insert
  | .append parent bytes => appendMemory sha256 parent bytes

def prepareCall (store : PhysicalContentStore) (call : SeamCall) :
    Except SequenceError PhysicalDelta :=
  match call with
  | .splice parent offset deleteLen insert =>
    prepareSplice sha256 store parent offset deleteLen insert
  | .append parent bytes => prepareAppend sha256 store parent bytes

/-- The arena the call has built in memory when it ends, before any truncation. -/
def calledArena (a : V2AvlSequence) (call : SeamCall) : V2AvlSequence :=
  match (memory a).resolveParent call.parent with
  | .error _ => a
  | .ok resolved =>
    match call with
    | .splice _ offset deleteLen insert => editedArena sha256 a resolved offset deleteLen insert
    | .append _ bytes =>
      editedArena sha256 a resolved (resolved.elim 0 V2RootRecord.logicalLen) 0 bytes

end Calls

section Agreement

variable {sha256 : Bytes → Digest} {store : PhysicalContentStore} {a b : V2AvlSequence}

theorem grows_calledArena (sha256 : Bytes → Digest) (a : V2AvlSequence) (call : SeamCall) :
    Grows a (calledArena sha256 a call) := by
  unfold calledArena
  split
  · exact Grows.refl a
  · cases call with
    | splice => exact grows_editedArena _ _ _ _ _ _
    | append => exact grows_editedArena _ _ _ _ _ _

/-- What a root that resolves in memory names. -/
theorem resolve_memory_eq_ok {root : PersistentRoot} {canonical : V2RootRecord} :
    (memory a).resolve root = .ok canonical ↔ root.representation = .balancedV2 ∧
      canonical.logicalLen = root.logicalLen ∧ root.nodeId < width 64 ∧
      ∃ node, a.nodes[root.nodeId]? = some node ∧
        V2RootRecord.fromNode root.nodeId node.record = .ok canonical := by
  simp only [resolve, rootForNodeId, rootForNodeIdOn, liftAvl, liftFormat, bind_eq_ok, mapErr_eq_ok,
    failIf_eq_ok, pure_eq_ok, not_not, loadNode_eq_ok]
  constructor
  · rintro ⟨_, hRep, _, ⟨node, ⟨hLt, hNode⟩, hRoot⟩, _, hLen, rfl⟩
    exact ⟨hRep, hLen, hLt, node, hNode, hRoot⟩
  · rintro ⟨hRep, hLen, hLt, node, hNode, hRoot⟩
    exact ⟨(), hRep, canonical, ⟨node, ⟨hLt, hNode⟩, hRoot⟩, (), hLen, rfl⟩

theorem nodeForRootOn_of_resolve {root : PersistentRoot} {canonical : V2RootRecord}
    (h : (memory a).resolve root = .ok canonical) : ∃ node, nodeForRootOn a canonical = .ok node := by
  obtain ⟨-, -, hLt, node, hNode, hRoot⟩ := resolve_memory_eq_ok.mp h
  obtain ⟨hId, -, -⟩ := fromNode_fields hRoot
  rw [← hId] at hLt hNode hRoot
  exact ⟨node, nodeForRootOn_eq_ok.mpr ⟨hLt, hNode, hRoot⟩⟩

theorem resolve_grows {root : PersistentRoot} {canonical : V2RootRecord} (hGrows : Grows a b)
    (h : (memory a).resolve root = .ok canonical) : (memory b).resolve root = .ok canonical := by
  obtain ⟨hRep, hLen, hLt, node, hNode, hRoot⟩ := resolve_memory_eq_ok.mp h
  exact resolve_memory_eq_ok.mpr ⟨hRep, hLen, hLt, node, hGrows.getElem? hNode, hRoot⟩

theorem resolve_denotes {t : Rope UInt8} {root : V2RootRecord} (h : Denotes sha256 a t root) :
    (memory a).resolve (.balancedV2 root.nodeId root.logicalLen) = .ok root := by
  obtain ⟨node, hNode, hRoot⟩ := h.root_eq
  exact resolve_memory_eq_ok.mpr ⟨rfl, rfl, h.id_lt, node, hNode, hRoot⟩

/-- A root of a node both backends have resolves alike. -/
theorem Represents.resolve_eq (h : Represents store a) (hWf : WellFormed sha256 a)
    (hAddressable : Addressable a) {root : PersistentRoot} {node : ArenaNode}
    (hNode : a.nodes[root.nodeId]? = some node) :
    (physical store).resolve root = (memory a).resolve root := by
  have hBound := hAddressable.id_lt hNode
  have hLoad : arenaLoadNode a root.nodeId = .ok node :=
    loadNode_eq_ok.mpr ⟨by unfold width; omega, hNode⟩
  have hSame : (physical store).rootForNodeId root.nodeId = (memory a).rootForNodeId root.nodeId := by
    simp only [rootForNodeId, rootForNodeIdOn, h.loadRecord hWf hAddressable hNode, hLoad, ok_bind]
  rw [resolve, resolve, hSame]

theorem Represents.resolve_ok (h : Represents store a) (hWf : WellFormed sha256 a)
    (hAddressable : Addressable a) {root : PersistentRoot} {canonical : V2RootRecord}
    (hOk : (memory a).resolve root = .ok canonical) :
    (physical store).resolve root = .ok canonical := by
  obtain ⟨-, -, -, node, hNode, -⟩ := resolve_memory_eq_ok.mp hOk
  rw [h.resolve_eq hWf hAddressable hNode, hOk]

theorem Represents.resolve_error (h : Represents store a) (hWf : WellFormed sha256 a)
    (hAddressable : Addressable a) {root : PersistentRoot} {e : SequenceError}
    (hError : (memory a).resolve root = .error e) :
    ∃ e', (physical store).resolve root = .error e' := by
  cases hNode : a.nodes[root.nodeId]? with
  | some node => exact ⟨e, by rw [h.resolve_eq hWf hAddressable hNode, hError]⟩
  | none =>
    obtain ⟨e', hLoad⟩ := h.loadRecord_missing hNode
    unfold SequenceBackend.resolve
    by_cases hRep : root.representation ≠ .balancedV2
    · exact ⟨_, by rw [failIf_pos hRep, error_bind]⟩
    · refine ⟨.avl e', ?_⟩
      rw [failIf_neg hRep, ok_bind]
      simp only [rootForNodeId, hLoad, error_bind, liftAvl, mapErr_error]

theorem Represents.resolveParent_ok (h : Represents store a) (hWf : WellFormed sha256 a)
    (hAddressable : Addressable a) {parent : Option PersistentRoot}
    {resolved : Option V2RootRecord} (hOk : (memory a).resolveParent parent = .ok resolved) :
    (physical store).resolveParent parent = .ok resolved ∧ ParentResolves a resolved := by
  cases parent with
  | none =>
    cases hOk
    exact ⟨rfl, fun _ hNone => by cases hNone⟩
  | some root =>
    obtain ⟨canonical, hResolve, hSome⟩ := bind_eq_ok.mp hOk
    cases hSome
    refine ⟨?_, ?_⟩
    · rw [SequenceBackend.resolveParent, h.resolve_ok hWf hAddressable hResolve, ok_bind]
      rfl
    · rintro root' hSome
      cases hSome
      exact nodeForRootOn_of_resolve hResolve

theorem Represents.resolveParent_error (h : Represents store a) (hWf : WellFormed sha256 a)
    (hAddressable : Addressable a) {parent : Option PersistentRoot} {e : SequenceError}
    (hError : (memory a).resolveParent parent = .error e) :
    ∃ e', (physical store).resolveParent parent = .error e' := by
  cases parent with
  | none => cases hError
  | some root =>
    rcases bind_eq_error.mp hError with hResolve | ⟨canonical, -, hPure⟩
    · obtain ⟨e', hPhysical⟩ := h.resolve_error hWf hAddressable hResolve
      exact ⟨e', by rw [SequenceBackend.resolveParent, hPhysical, error_bind]⟩
    · cases hPure

/-- The outcome of a call in memory and of its preparation on the files. -/
structure CallsAgree (sha256 : Bytes → Digest) (generation : Nat) (a : V2AvlSequence)
    (parent : Option PersistentRoot)
    (inMemory : EStateM.Result SequenceError V2AvlSequence V2SpliceResult)
    (prepared : Except SequenceError PhysicalDelta) : Prop where
  ok : ∀ result b, inMemory = .ok result b → Grows a b ∧ WellFormed sha256 b ∧ Addressable b ∧
    ∃ delta, prepared = .ok delta ∧ DeltaFor sha256 generation a b result delta
  error : ∀ e b, inMemory = .error e b → b = a ∧ ∃ e', prepared = .error e' ∧
    ((∃ resolved, (memory a).resolveParent parent = .ok resolved) → e' = e)

theorem splice_agrees (h : Represents store a) (hWf : WellFormed sha256 a)
    (hAddressable : Addressable a) {parent : Option PersistentRoot} {offset deleteLen : Nat}
    {insert : Bytes}
    (hFits : ∀ resolved, (memory a).resolveParent parent = .ok resolved →
      Addressable (editedArena sha256 a resolved offset deleteLen insert)) :
    CallsAgree sha256 store.generation a parent
      (spliceMemory sha256 parent offset deleteLen insert a)
      (prepareSplice sha256 store parent offset deleteLen insert) := by
  unfold spliceMemory prepareSplice
  cases hResolve : (memory a).resolveParent parent with
  | error e =>
    obtain ⟨e', hPhysical⟩ := h.resolveParent_error hWf hAddressable hResolve
    rw [hPhysical, error_bind]
    refine ⟨fun result b hOk => (by cases hOk), ?_⟩
    rintro e'' b hErr
    cases hErr
    exact ⟨rfl, e', rfl, fun ⟨_, hOk⟩ => by rw [hResolve] at hOk; cases hOk⟩
  | ok resolved =>
    obtain ⟨hPhysical, hParent⟩ := h.resolveParent_ok hWf hAddressable hResolve
    have hEdited := hFits resolved hResolve
    rw [hPhysical, ok_bind, ok_bind]
    cases hLen : spliceResultLen resolved deleteLen insert with
    | error e =>
      rw [error_bind, error_bind]
      refine ⟨fun result b hOk => (by cases hOk), ?_⟩
      rintro e' b hErr
      cases hErr
      exact ⟨rfl, e, rfl, fun _ => rfl⟩
    | ok resultLen =>
      rw [ok_bind, ok_bind]
      dsimp only [pure, Except.pure]
      cases hRun : spliceOn sha256 resolved offset deleteLen insert a with
      | ok result b =>
        obtain ⟨hGrows, hWf', -⟩ := spliceOn_wellFormed hWf hRun
        rw [editedArena_of_ok hRun] at hEdited
        obtain ⟨hDelete, hResult, -⟩ := spliceOn_length hWf hRun
        have hResultLen : result.root.logicalLen = resultLen := by
          simp only [spliceResultLen, bind_eq_ok, okOr_eq_ok, tryFrom_eq_some, if_pos hDelete,
            Option.some.injEq, checkedAdd_eq_some] at hLen
          obtain ⟨_, ⟨-, rfl⟩, _, rfl, -, rfl⟩ := hLen
          exact hResult
        obtain ⟨delta, hPrepare, hDelta⟩ := preparePhysicalDelta_ok h hWf hEdited hRun hResultLen
        refine ⟨?_, fun e b' hErr => by cases hErr⟩
        rintro result' b' hOk
        cases hOk
        exact ⟨hGrows, hWf', hEdited, delta, by rw [hPrepare]; rfl, hDelta⟩
      | error e b =>
        have hView := spliceOn_view_error h hWf hEdited hAddressable hParent hRun
        have hSame : b = a := by
          rcases spliceOn_cases sha256 a resolved offset deleteLen insert with
            ⟨result, b', hOk, -⟩ | ⟨e', hErr⟩
          · rw [hRun] at hOk
            cases hOk
          · rw [hRun] at hErr
            cases hErr
            rfl
        refine ⟨fun result b' hOk => (by cases hOk), ?_⟩
        rintro e' b' hErr
        cases hErr
        refine ⟨hSame, .avl e, ?_, fun _ => rfl⟩
        rw [preparePhysicalDelta, hView]
        rfl

theorem call_agrees (h : Represents store a) (hWf : WellFormed sha256 a) {call : SeamCall}
    (hFits : Addressable (calledArena sha256 a call)) :
    CallsAgree sha256 store.generation a call.parent (memoryCall sha256 call a)
      (prepareCall sha256 store call) := by
  have hAddressable := hFits.of_grows (grows_calledArena sha256 a call)
  cases call with
  | splice parent offset deleteLen insert =>
    refine splice_agrees h hWf hAddressable fun resolved hResolve => ?_
    unfold calledArena at hFits
    change (memory a).resolveParent (SeamCall.splice parent offset deleteLen insert).parent = _
      at hResolve
    rwa [hResolve] at hFits
  | append parent bytes =>
    simp only [memoryCall, prepareCall, appendMemory, prepareAppend, appendOffset, SeamCall.parent]
    cases hResolve : (memory a).resolveParent parent with
    | error e =>
      obtain ⟨e', hPhysical⟩ := h.resolveParent_error hWf hAddressable hResolve
      rw [hPhysical, error_bind, error_bind]
      refine ⟨fun result b hOk => (by cases hOk), ?_⟩
      rintro e'' b hErr
      cases hErr
      exact ⟨rfl, e', rfl, fun ⟨_, hOk⟩ => by rw [hResolve] at hOk; cases hOk⟩
    | ok resolved =>
      obtain ⟨hPhysical, -⟩ := h.resolveParent_ok hWf hAddressable hResolve
      rw [hPhysical, ok_bind]
      refine splice_agrees h hWf hAddressable fun resolved' hResolve' => ?_
      rw [hResolve] at hResolve'
      cases hResolve'
      unfold calledArena at hFits
      change (memory a).resolveParent (SeamCall.append parent bytes).parent = _ at hResolve
      rwa [hResolve] at hFits

end Agreement

/-! ## Runs -/

/-- What becomes of a prepared delta. -/
inductive DeltaFate where
  | adopted
  | dropped
  | orphaned
deriving DecidableEq, Repr

/-- Both backends and the roots returned so far. -/
structure BackendRun where
  inner : V2AvlSequence
  store : PhysicalContentStore
  returned : List PersistentRoot
deriving DecidableEq, Repr

/-- The store after a prepared delta: an orphaned one was appended to the files and never
adopted. -/
def settleDelta (store : PhysicalContentStore) (delta : PhysicalDelta) (fate : DeltaFate) :
    PhysicalContentStore :=
  match fate, commitPhysicalDelta store delta with
  | .adopted, .ok committed => adoptPhysicalDelta committed delta
  | .orphaned, .ok committed => committed
  | _, _ => store

section Runs

variable (sha256 : Bytes → Digest)

/-- One call on both backends. A delta that is not adopted has no call in memory. -/
def backendStep (run : BackendRun) (step : SeamCall × DeltaFate) : BackendRun :=
  let store := match prepareCall sha256 run.store step.1 with
    | .ok delta => settleDelta run.store delta step.2
    | .error _ => run.store
  match step.2, memoryCall sha256 step.1 run.inner with
  | .adopted, .ok result inner =>
    ⟨inner, store, run.returned ++ [.balancedV2 result.root.nodeId result.root.logicalLen]⟩
  | _, _ => ⟨run.inner, store, run.returned⟩

def runBackends (start : PhysicalContentStore) (steps : List (SeamCall × DeltaFate)) :
    BackendRun :=
  steps.foldl (backendStep sha256) ⟨empty, start, []⟩

/-- Every arena the run builds in memory is one that vectors can hold. -/
def RunFits : BackendRun → List (SeamCall × DeltaFate) → Prop
  | _, [] => True
  | run, step :: steps =>
    Addressable (calledArena sha256 run.inner step.1) ∧ RunFits (backendStep sha256 run step) steps

instance : (run : BackendRun) → (steps : List (SeamCall × DeltaFate)) →
    Decidable (RunFits sha256 run steps)
  | _, [] => .isTrue trivial
  | run, step :: steps =>
    have : Decidable (RunFits sha256 (backendStep sha256 run step) steps) :=
      instDecidableRunFits (backendStep sha256 run step) steps
    inferInstanceAs (Decidable (_ ∧ _))

/-- The invariant of runs. -/
structure BackendsAgree (run : BackendRun) : Prop where
  wellFormed : WellFormed sha256 run.inner
  addressable : Addressable run.inner
  represents : Represents run.store run.inner
  returned : ∀ root ∈ run.returned, ∃ canonical, (memory run.inner).resolve root = .ok canonical

end Runs

section Invariant

variable {sha256 : Bytes → Digest}

theorem BackendsAgree.step {run : BackendRun} (h : BackendsAgree sha256 run)
    {step : SeamCall × DeltaFate} (hFits : Addressable (calledArena sha256 run.inner step.1)) :
    BackendsAgree sha256 (backendStep sha256 run step) := by
  obtain ⟨call, fate⟩ := step
  have hAgree := call_agrees h.represents h.wellFormed hFits
  unfold backendStep
  dsimp only at hAgree ⊢
  cases hRun : memoryCall sha256 call run.inner with
  | error e b =>
    obtain ⟨-, e', hPrepare, -⟩ := hAgree.error e b hRun
    rw [hPrepare]
    cases fate <;> exact ⟨h.wellFormed, h.addressable, h.represents, h.returned⟩
  | ok result b =>
    obtain ⟨hGrows, hWf, hAddressable, delta, hPrepare, hDelta⟩ := hAgree.ok result b hRun
    have hCommit := h.represents.commit hDelta.leads
    rw [hPrepare]
    dsimp only
    cases fate with
    | dropped => exact ⟨h.wellFormed, h.addressable, h.represents, h.returned⟩
    | orphaned =>
      unfold settleDelta
      rw [hCommit]
      exact ⟨h.wellFormed, h.addressable, h.represents.committed _ _, h.returned⟩
    | adopted =>
      unfold settleDelta
      rw [hCommit]
      refine ⟨hWf, hAddressable, represents_adopted hDelta.new hDelta.leads, ?_⟩
      intro root hMem
      rcases List.mem_append.mp hMem with hMem | hMem
      · obtain ⟨canonical, hResolve⟩ := h.returned root hMem
        exact ⟨canonical, resolve_grows hGrows hResolve⟩
      · obtain ⟨t, hDenotes⟩ := hDelta.leads.root
        rw [hDelta.root] at hDenotes
        rw [List.mem_singleton.mp hMem]
        exact ⟨result.root, resolve_denotes hDenotes⟩

theorem BackendsAgree.run {run : BackendRun} (h : BackendsAgree sha256 run)
    {steps : List (SeamCall × DeltaFate)} (hFits : RunFits sha256 run steps) :
    BackendsAgree sha256 (steps.foldl (backendStep sha256) run) := by
  induction steps generalizing run with
  | nil => exact h
  | cons step steps ih => exact ih (h.step hFits.1) hFits.2

/-- A content store before its first splice, with or without its files. -/
def FreshStore (store : PhysicalContentStore) : Prop :=
  ∃ generation, store = .createNew generation ∨ store = .openDeferred generation

theorem backendsAgree_start {start : PhysicalContentStore} (hStart : FreshStore start) :
    BackendsAgree sha256 ⟨empty, start, []⟩ where
  wellFormed i node h := by simp [empty] at h
  addressable := show Addressable empty by decide
  represents := by
    obtain ⟨generation, rfl | rfl⟩ := hStart
    · exact represents_createNew generation
    · exact represents_openDeferred generation
  returned root h := by simp at h

end Invariant

/-- With the digest of the delta, `validate_committed_delta` accepts the placement of the
delta and no other one, unless the messages of the two collide under SHA-256. -/
def AcceptsOnly (sha256 : Bytes → Digest) (store : PhysicalContentStore) (delta : PhysicalDelta) :
    Prop :=
  ∀ generation payloadStart payloadEnd nodeStart nodeEnd resultRoot resultLen root,
    payloadEnd < 2 ^ 64 → nodeEnd < 2 ^ 64 →
    (sha256 (physicalDeltaMessage generation payloadStart payloadEnd nodeStart nodeEnd
        (delta.payload.take (payloadEnd - payloadStart))
        (delta.nodes.take ((nodeEnd - nodeStart) * 72)) resultRoot) = delta.deltaDigest →
      physicalDeltaMessage generation payloadStart payloadEnd nodeStart nodeEnd
        (delta.payload.take (payloadEnd - payloadStart))
        (delta.nodes.take ((nodeEnd - nodeStart) * 72)) resultRoot =
      physicalDeltaMessage store.generation delta.oldPayloadEnd delta.newPayloadEnd
        delta.oldNodeCount delta.newNodeCount delta.payload delta.nodes
        (encodeV2Root delta.root)) →
    (validateCommittedDelta sha256 store generation payloadStart payloadEnd nodeStart nodeEnd
        delta.deltaDigest resultRoot resultLen = .ok root ↔
      generation = store.generation ∧ payloadStart = delta.oldPayloadEnd ∧
      payloadEnd = delta.newPayloadEnd ∧ nodeStart = delta.oldNodeCount ∧
      nodeEnd = delta.newNodeCount ∧ resultRoot = encodeV2Root delta.root ∧
      resultLen = delta.root.logicalLen ∧ root = delta.root)

theorem acceptsOnly {sha256 : Bytes → Digest} {store : PhysicalContentStore}
    {a b : V2AvlSequence} (h : Represents store a) (hWf : WellFormed sha256 a)
    {result : V2SpliceResult} {delta : PhysicalDelta}
    (hDelta : DeltaFor sha256 store.generation a b result delta) :
    AcceptsOnly sha256 (withFiles store (a.payload ++ delta.payload)
      (nodeBytes a.nodes ++ delta.nodes)) delta := by
  intro generation payloadStart payloadEnd nodeStart nodeEnd resultRoot resultLen root hPayloadEnd
    hNodeEnd hNoCollision
  constructor
  · exact validateCommittedDelta_exact h hDelta hPayloadEnd hNodeEnd hNoCollision
  · rintro ⟨rfl, rfl, rfl, rfl, rfl, rfl, rfl, rfl⟩
    exact validateCommittedDelta_ok h hWf hDelta

/-- In every state a run of splices and appends reaches, with each prepared delta adopted,
dropped or orphaned: the next call succeeds on the files exactly when it succeeds in memory,
with the same root record and the same work; a call on a returned root or on none fails with
the same error; the placement of a committed delta is accepted back, with its digest no other
one is; and every returned root resolves to the same record and reads the same bytes. -/
theorem physical_refines_memory (sha256 : Bytes → Digest) (start : PhysicalContentStore)
    (hStart : FreshStore start) (steps : List (SeamCall × DeltaFate))
    (hFits : RunFits sha256 ⟨empty, start, []⟩ steps) :
    (∀ call, Addressable (calledArena sha256 (runBackends sha256 start steps).inner call) →
      (∀ result b, memoryCall sha256 call (runBackends sha256 start steps).inner = .ok result b →
        ∃ delta committed,
          prepareCall sha256 (runBackends sha256 start steps).store call = .ok delta ∧
          delta.root = result.root ∧ delta.allocatedNodes = result.allocatedNodes ∧
          delta.inspectedNodes = result.inspectedNodes ∧
          delta.payloadBytesAllocated = result.payloadBytesAllocated ∧
          commitPhysicalDelta (runBackends sha256 start steps).store delta = .ok committed ∧
          AcceptsOnly sha256 committed delta) ∧
      ∀ e b, memoryCall sha256 call (runBackends sha256 start steps).inner = .error e b →
        ∃ e', prepareCall sha256 (runBackends sha256 start steps).store call = .error e' ∧
          ((∀ root, call.parent = some root →
            root ∈ (runBackends sha256 start steps).returned) → e' = e)) ∧
    ∀ root ∈ (runBackends sha256 start steps).returned,
      (physical (runBackends sha256 start steps).store).resolve root =
        (memory (runBackends sha256 start steps).inner).resolve root ∧
      ∀ offset length,
        (physical (runBackends sha256 start steps).store).readRange sha256 root offset length =
          (memory (runBackends sha256 start steps).inner).readRange sha256 root offset length := by
  have hRun : BackendsAgree sha256 (runBackends sha256 start steps) :=
    (backendsAgree_start hStart).run hFits
  generalize runBackends sha256 start steps = run at hRun ⊢
  refine ⟨fun call hCall => ?_, fun root hRoot => ?_⟩
  · have hAgree := call_agrees hRun.represents hRun.wellFormed hCall
    constructor
    · intro result b hOk
      obtain ⟨-, -, -, delta, hPrepare, hDelta⟩ := hAgree.ok result b hOk
      exact ⟨delta, _, hPrepare, hDelta.root, hDelta.work.1, hDelta.work.2.1, hDelta.work.2.2,
        hRun.represents.commit hDelta.leads, acceptsOnly hRun.represents hRun.wellFormed hDelta⟩
    · intro e b hError
      obtain ⟨-, e', hPrepare, hSame⟩ := hAgree.error e b hError
      refine ⟨e', hPrepare, fun hReturned => hSame ?_⟩
      cases hParent : call.parent with
      | none => exact ⟨none, rfl⟩
      | some root =>
        obtain ⟨canonical, hResolve⟩ := hRun.returned root (hReturned root hParent)
        exact ⟨some canonical, by rw [SequenceBackend.resolveParent, hResolve, ok_bind]; rfl⟩
  · obtain ⟨canonical, hResolve⟩ := hRun.returned root hRoot
    have hPhysical := hRun.represents.resolve_ok hRun.wellFormed hRun.addressable hResolve
    refine ⟨by rw [hPhysical, hResolve], fun offset length => ?_⟩
    obtain ⟨node, hNode⟩ := nodeForRootOn_of_resolve hResolve
    obtain ⟨t, hDenotes⟩ := hRun.wellFormed.denotes hNode
    have hMirrors := hRun.represents.mirrors hRun.wellFormed hRun.addressable
    simp only [SequenceBackend.readRange, hPhysical, hResolve, ok_bind]
    rw [hMirrors.readRange hDenotes]

/-- SHA-256 on the leaf of the bytes 1, 2, 3 and on the delta that stores it in generation 0. -/
def sampleDeltaSha256 (message : Bytes) : Digest :=
  if message = v2LeafDomain ++ leBytes 8 3 ++ [1, 2, 3] then
    digestOfNat 0x213c1566946e5245d228eff795cae814e0321369bba527672e0e46d506b096b5
  else digestOfNat 0xd3d76fd1a79a03090b69cc984928550dc519d7f167c6de571e25ebaef702f07b

def sampleSteps : List (SeamCall × DeltaFate) := [
  (.splice none 0 0 [1, 2, 3], .dropped),
  (.splice none 0 0 [1, 2, 3], .orphaned),
  (.splice none 0 0 [1, 2, 3], .adopted)]

theorem physical_refines_memory_sample :
    RunFits sampleDeltaSha256 ⟨empty, .openDeferred 0, []⟩ sampleSteps ∧
      (physical (runBackends sampleDeltaSha256 (.openDeferred 0) sampleSteps).store).readRange
        sampleDeltaSha256 (.balancedV2 0 3) 1 2 = .ok [2, 3] := by
  have hFits : RunFits sampleDeltaSha256 ⟨empty, .openDeferred 0, []⟩ sampleSteps := by
    decide +kernel
  have hReturned : PersistentRoot.balancedV2 0 3 ∈
      (runBackends sampleDeltaSha256 (.openDeferred 0) sampleSteps).returned := by
    decide +kernel
  have hMemory : (memory (runBackends sampleDeltaSha256 (.openDeferred 0) sampleSteps).inner).readRange
      sampleDeltaSha256 (.balancedV2 0 3) 1 2 = .ok [2, 3] := by
    decide +kernel
  have hReads := ((physical_refines_memory sampleDeltaSha256 (.openDeferred 0) ⟨0, Or.inr rfl⟩
    sampleSteps hFits).2 _ hReturned).2 1 2
  exact ⟨hFits, by rw [hReads, hMemory]⟩

end TulyaStore.Sequence
