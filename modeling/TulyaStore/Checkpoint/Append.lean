import TulyaStore.Checkpoint.State

/-!
# Appending keeps the state well formed

An `Entry` is what one append commits: a checkpoint head, a request id and an addition. It is
`Grounded` in a state when the addition refers to what the state holds, as the store's encoders
make sure. `StateInv.append` is the step lemma; `Entry.identityDenotes` and
`Entry.messagesDenotes` say which bytes the new checkpoint's channels hold.
-/

namespace TulyaStore.Checkpoint

open Lib

variable {P : Primitives} {s s' : StoreState}

/-- The watermarks of an eager state. -/
def StoreState.watermarks (s : StoreState) : Geometry :=
  ⟨s.arenaBytes.length, s.nodeCount, s.wideNodes.length / wideRecordSize, s.versions.length,
    s.checkpoints.length⟩

theorem StateInv.geometry (h : StateInv s) : s.geometry = .ok s.watermarks := by
  have hArena := h.nodes.arenaLt
  have hNodes := h.nodes.nodesLt
  have hWide : s.wideNodes.length / wideRecordSize < 2 ^ 64 :=
    (Nat.div_le_self _ _).trans_lt h.nodes.wideLt
  rw [StoreState.nodeCount] at hNodes
  simp only [StoreState.geometry, lazyBaseGeometry_of_none h.nodes.base, Geometry.zero]
  rw [checkedAdd_of_lt (by simpa [width] using hArena), okOr_some, ok_bind,
    checkedAdd_of_lt (by simpa [width] using hNodes), okOr_some, ok_bind,
    checkedAdd_of_lt (by simpa [width] using hWide), okOr_some, ok_bind]
  simp [StoreState.watermarks, StoreState.nodeCount]

theorem StateInv.fits (h : StateInv s) : s.watermarks.Fits where
  byteLen := h.nodes.arenaLt
  nodeCount := h.nodes.nodesLt
  wideCount := (Nat.div_le_self _ _).trans_lt h.nodes.wideLt

/-! ## Entries -/

/-- What one append commits. -/
structure Entry where
  head : CheckpointHead
  request : Bytes
  addition : Addition
deriving DecidableEq, Repr

namespace Entry

/-- The record of the entry at the watermarks of the state. -/
def parts (P : Primitives) (s : StoreState) (e : Entry) : TxParts :=
  partsOf P s.watermarks e.head e.request e.addition

def record (P : Primitives) (s : StoreState) (e : Entry) : Bytes := (e.parts P s).record P

/-- The transaction the parser makes of the record. -/
def tx (P : Primitives) (s : StoreState) (e : Entry) (startOffset : Nat) : ParsedTransaction :=
  (e.parts P s).parsed P startOffset

def delta (s : StoreState) (e : Entry) : TransactionDelta := deltaOf s.watermarks e.addition

/-- The checkpoint the entry adds. -/
def info (s : StoreState) (e : Entry) : CheckpointInfo :=
  e.head.info s.checkpoints.length (e.delta s).identityVersion (e.delta s).messagesVersion

/-- The addition refers to what the state holds, and the head's length is the one the store
computes for it. -/
def Grounded (s : StoreState) (e : Entry) : Prop :=
  match e.addition with
  | .identity bytes => e.head.stateLen = bytes.length + 27
  | .firstMessages body => e.head.stateLen = body.length + messageFraming
  | .childMessages identityVersion root messagesVersion body =>
    ∃ parent ∈ s.checkpoints, parent.identityVersion = identityVersion ∧
      parent.messagesVersion = some messagesVersion ∧
      s.versions[messagesVersion]? = some (some root) ∧
      e.head.stateLen = parent.logicalStateLen + 1 + body.length
  | .rootMessages identityVersion body =>
    (∃ first, s.checkpoints[0]? = some first ∧ first.identityVersion = identityVersion) ∧
      e.head.stateLen = body.length + messageFraming

@[simp] theorem tx_bytes (e : Entry) (o : Nat) : (e.tx P s o).bytes = (e.delta s).payload := rfl

@[simp] theorem tx_compactNodes (e : Entry) (o : Nat) :
    (e.tx P s o).compactNodes = (e.delta s).slots.flatten := rfl

@[simp] theorem tx_wideNodes (e : Entry) (o : Nat) : (e.tx P s o).wideNodes = [] := rfl

@[simp] theorem tx_roots (e : Entry) (o : Nat) :
    (e.tx P s o).roots = (e.delta s).roots.map (fun r => some r.2.1) := rfl

@[simp] theorem tx_parents (e : Entry) (o : Nat) :
    (e.tx P s o).parents = (e.delta s).roots.map (fun r => r.2.2) := rfl

@[simp] theorem tx_checkpoint (e : Entry) (o : Nat) : (e.tx P s o).checkpoint = e.info s := rfl

@[simp] theorem tx_requestId (e : Entry) (o : Nat) :
    (e.tx P s o).requestId = if e.request.length = 0 then none else some e.request := rfl

@[simp] theorem tx_operationDigest (e : Entry) (o : Nat) :
    (e.tx P s o).operationDigest = P.sha256 (e.record P s) := rfl

@[simp] theorem info_ordinal (e : Entry) : (e.info s).ordinal = s.checkpoints.length := rfl

end Entry

/-- The state after an entry. -/
def StoreState.append (P : Primitives) (s : StoreState) (e : Entry) : StoreState :=
  { s with
    arenaBytes := s.arenaBytes ++ (e.delta s).payload
    compactNodes := s.compactNodes ++ (e.delta s).slots.flatten
    versions := s.versions ++ (e.delta s).roots.map (fun r => some r.2.1)
    parents := s.parents ++ (e.delta s).roots.map (fun r => r.2.2)
    threadOrdinals := if s.threadOrdinals.containsKey e.head.threadId = true
      then s.threadOrdinals else s.threadOrdinals.insert e.head.threadId s.threads.length
    threads := if s.threadOrdinals.containsKey e.head.threadId = true then s.threads
      else s.threads ++ [e.head.threadId]
    checkpointOrdinals := s.checkpointOrdinals.insert (e.info s).key s.checkpoints.length
    requestRecords := if e.request.length = 0 then s.requestRecords
      else s.requestRecords.insert e.request
        { key := e.request, operationDigest := P.sha256 (e.record P s),
          checkpointOrdinal := s.checkpoints.length }
    checkpoints := s.checkpoints ++ [e.info s] }

/-- What applying the parsed record does; it does not depend on where the record lies. -/
theorem appended_tx (e : Entry) (o : Nat) : appended s (e.tx P s o) = s.append P e := by
  have hRequest : requestRecordOf (e.tx P s o) = if e.request.length = 0 then none else
      some (e.request, ⟨e.request, P.sha256 (e.record P s), s.checkpoints.length⟩) := by
    rw [requestRecordOf, Entry.tx_requestId, Entry.tx_operationDigest, Entry.tx_checkpoint]
    split <;> rfl
  rw [appended, hRequest, Entry.tx_wideNodes, List.append_nil]
  by_cases hEmpty : e.request.length = 0
  · simp only [StoreState.append, hEmpty, if_true]
    rfl
  · simp only [StoreState.append, hEmpty, if_false]
    rfl

/-- The entry is encoded for the state, grounded in it, and in range. -/
structure Entry.Valid (P : Primitives) (s : StoreState) (e : Entry) : Prop where
  encoded : Encoded P s.watermarks e.head e.request e.addition
  grounded : e.Grounded s
  inRange : (e.parts P s).InRange

/-! ## Nodes -/

section Nodes

variable {e : Entry}

theorem StateInv.root_lt (h : StateInv s) {v root : Nat} (hv : s.versions[v]? = some (some root)) :
    root < s.nodeCount := by
  obtain ⟨n, _, hn, hLt, _⟩ := h.roots _ (List.mem_of_getElem? hv)
  rw [Option.some.inj hn]
  exact hLt

theorem slotsOk_leaf (s' : StoreState) {start offset length : Nat}
    (hIn : offset + length ≤ s'.arenaBytes.length) (hLen : length < 2 ^ 32)
    (hArena : s'.arenaBytes.length < 2 ^ 64) :
    (compactLeaf offset length).length = compactNodeSize ∧
      ∃ node, decodeSlot s' start (compactLeaf offset length) = .ok node ∧
        node.Within start s'.arenaBytes.length :=
  ⟨by simp [compactLeaf, compactNodeSize], _, decodeSlot_compactLeaf s' (by omega) hLen, hIn, hLen⟩

theorem Entry.Valid.slotsOk (hv : e.Valid P s) (h : StateInv s)
    (hArena : s'.arenaBytes = s.arenaBytes ++ (e.delta s).payload) :
    SlotsOk s' s.nodeCount (e.delta s).slots := by
  have hByte : s.arenaBytes.length + (e.delta s).payload.length < 2 ^ 64 := hv.inRange.byteEnd
  have hLt : s'.arenaBytes.length < 2 ^ 64 := by rw [hArena, List.length_append]; exact hByte
  have hEnc := hv.encoded.encodable
  have hGround := hv.grounded
  have hLen : s'.arenaBytes.length = s.arenaBytes.length + (e.delta s).payload.length := by
    rw [hArena, List.length_append]
  unfold Entry.Grounded at hGround
  intro k slot hk
  rw [Entry.delta] at hk hLen
  cases hAdd : e.addition with
  | identity bytes =>
    simp only [hAdd, deltaOf, Addition.Encodable, StoreState.watermarks] at hk hEnc hLen
    obtain ⟨rfl, rfl⟩ : k = 0 ∧ slot = compactLeaf s.arenaBytes.length bytes.length := by
      cases k <;> simp_all
    exact slotsOk_leaf s' hLen.ge hEnc.1 hLt
  | firstMessages body =>
    simp only [hAdd, deltaOf, Addition.Encodable, StoreState.watermarks, List.length_append] at hk hEnc hLen
    have hNull : (ascii "null").length = 4 := rfl
    rcases k with - | - | k
    · obtain rfl : compactLeaf s.arenaBytes.length 4 = slot := by simpa using hk
      exact slotsOk_leaf s' (by omega) (by omega) hLt
    · obtain rfl : compactLeaf (s.arenaBytes.length + 4) body.length = slot := by simpa using hk
      exact slotsOk_leaf s' (by omega) hEnc.1 hLt
    · simp at hk
  | childMessages identityVersion root messagesVersion body =>
    simp only [hAdd, deltaOf, Addition.Encodable, StoreState.watermarks] at hk hEnc hLen hGround
    obtain ⟨parent, _, _, _, hRoot, _⟩ := hGround
    have hPrior := h.root_lt hRoot
    rcases k with - | - | k
    · obtain rfl : compactLeaf s.arenaBytes.length (ascii "," ++ body).length = slot := by
        simpa using hk
      exact slotsOk_leaf s' hLen.ge hEnc.1 hLt
    · obtain rfl : compactBinary (s.nodeCount + 1 - root) 1 = slot := by simpa using hk
      refine ⟨by simp [compactBinary, compactNodeSize], .binary root s.nodeCount, ?_, ?_⟩
      · rw [decodeSlot_compactBinary s' (by omega) (by omega) (by omega) (by omega) (by omega)
          (by omega)]
        congr 2
        omega
      · exact ⟨by omega, by omega⟩
    · simp at hk
  | rootMessages identityVersion body =>
    simp only [hAdd, deltaOf, Addition.Encodable, StoreState.watermarks] at hk hEnc hLen
    obtain ⟨rfl, rfl⟩ : k = 0 ∧ slot = compactLeaf s.arenaBytes.length body.length := by
      cases k <;> simp_all
    exact slotsOk_leaf s' hLen.ge hEnc.1 hLt

theorem Entry.Valid.grown (hv : e.Valid P s) (h : StateInv s) :
    Grown s (s.append P e) (e.delta s).payload (e.delta s).slots where
  base := rfl
  arena := rfl
  compact := rfl
  wide := rfl
  slots := hv.slotsOk h rfl

theorem Entry.Valid.nodesOk (hv : e.Valid P s) (h : StateInv s) : NodesOk (s.append P e) := by
  have hByte : s.arenaBytes.length + (e.delta s).payload.length < 2 ^ 64 := hv.inRange.byteEnd
  refine h.nodes.append (hv.grown h) ?_ hv.inRange.nodeEnd
  rwa [List.length_append]

theorem Entry.Valid.extends (hv : e.Valid P s) (h : StateInv s) : Extends s (s.append P e) :=
  (hv.grown h).extends h.nodes.base

end Nodes

/-! ## Contents -/

section Contents

variable {e : Entry}

theorem VersionDenotes.extend {v : Nat} {bs : Bytes} (hExt : Extends s s')
    (hVersions : s.versions <+: s'.versions)
    (h : VersionDenotes (eagerReader s) s.versions v bs) :
    VersionDenotes (eagerReader s') s'.versions v bs := by
  obtain ⟨root, hRoot, hDenotes⟩ := h
  obtain ⟨rest, hRest⟩ := hVersions
  refine ⟨root, ?_, hExt.denotes hDenotes⟩
  rw [← hRest, List.getElem?_append_left (List.getElem?_eq_some_iff.mp hRoot).1]
  exact hRoot

theorem channelDenotes_some {R : NodeReader} {versions : List (Option Nat)} {version : Option Nat}
    {v : Nat} {bs : Bytes} (hVersion : version = some v) (h : VersionDenotes R versions v bs) :
    ChannelDenotes R versions version (some bs) := by
  subst hVersion
  exact h

/-- The bytes the channels of the new checkpoint hold: its identity and its messages. -/
def Entry.Channels (s : StoreState) (e : Entry) (identity : Bytes) (messages : Option Bytes) :
    Prop :=
  match e.addition with
  | .identity bytes => identity = bytes ∧ messages = none
  | .firstMessages body => identity = ascii "null" ∧ messages = some body
  | .childMessages identityVersion _ messagesVersion body =>
    VersionDenotes (eagerReader s) s.versions identityVersion identity ∧
      ∃ prior, VersionDenotes (eagerReader s) s.versions messagesVersion prior ∧
        messages = some (prior ++ (ascii "," ++ body))
  | .rootMessages identityVersion body =>
    VersionDenotes (eagerReader s) s.versions identityVersion identity ∧ messages = some body

theorem Entry.Valid.denotes_leaf (hv : e.Valid P s) (h : StateInv s) {k o : Nat} {b : Bytes}
    (hk : (e.delta s).slots[k]? = some (compactLeaf (s.arenaBytes.length + o) b.length))
    (hLen : b.length < 2 ^ 32)
    (hBytes : slice (e.delta s).payload o (o + b.length) = some b) :
    Denotes (eagerReader (s.append P e)) (s.nodeCount + k) b := by
  have hByte : s.arenaBytes.length + (e.delta s).payload.length < 2 ^ 64 := hv.inRange.byteEnd
  refine (hv.grown h).denotes_leaf h.nodes ?_ hk hLen hBytes
  rwa [List.length_append]

/-- The version at a position behind the committed ones. -/
theorem getElem?_append_versions (k : Nat) : (s.append P e).versions[s.versions.length + k]? =
    ((e.delta s).roots.map (fun r => some r.2.1))[k]? := by
  change (s.versions ++ (e.delta s).roots.map (fun r => some r.2.1))[s.versions.length + k]? = _
  rw [List.getElem?_append_right (Nat.le_add_right _ _), Nat.add_sub_cancel_left]

theorem versions_extend (P : Primitives) (s : StoreState) (e : Entry) :
    s.versions <+: (s.append P e).versions := List.prefix_append _ _

theorem Entry.Valid.channels (hv : e.Valid P s) (h : StateInv s) {identity : Bytes}
    {messages : Option Bytes} (hc : e.Channels s identity messages) :
    CheckpointDenotes (eagerReader (s.append P e)) (s.append P e).versions (e.info s) identity
      messages none := by
  have hEnc := hv.encoded.encodable
  have hExt := hv.extends h
  have hOld : ∀ {v : Nat} {bs : Bytes}, VersionDenotes (eagerReader s) s.versions v bs →
      VersionDenotes (eagerReader (s.append P e)) (s.append P e).versions v bs :=
    fun hd => hd.extend hExt (versions_extend P s e)
  have hLeaf := @Entry.Valid.denotes_leaf P s e hv h
  have hVersion := @getElem?_append_versions P s e
  have hGround := hv.grounded
  unfold Entry.Channels at hc
  unfold Entry.Grounded at hGround
  cases hAdd : e.addition with
  | identity bytes =>
    simp only [Entry.delta, hAdd, deltaOf, Addition.Encodable, StoreState.watermarks] at hc hEnc hLeaf hVersion
    obtain ⟨rfl, rfl⟩ := hc
    refine ⟨⟨s.nodeCount, ?_, ?_⟩, ?_, trivial⟩
    · simp only [Entry.info, CheckpointHead.info, Entry.delta, hAdd, deltaOf, StoreState.watermarks]
      exact hVersion 0
    · exact hLeaf (k := 0) (o := 0) (by simp) hEnc.1 (by simpa using slice_all identity)
    · simp [Entry.info, CheckpointHead.info, Entry.delta, hAdd, deltaOf, ChannelDenotes]
  | firstMessages body =>
    simp only [Entry.delta, hAdd, deltaOf, Addition.Encodable, StoreState.watermarks] at hc hEnc hLeaf hVersion
    obtain ⟨rfl, rfl⟩ := hc
    have hMessages : (e.info s).messagesVersion = some (s.versions.length + 1) := by
      simp [Entry.info, CheckpointHead.info, Entry.delta, hAdd, deltaOf, StoreState.watermarks]
    refine ⟨⟨s.nodeCount, ?_, ?_⟩,
      channelDenotes_some hMessages ⟨s.nodeCount + 1, hVersion 1, ?_⟩, trivial⟩
    · simp only [Entry.info, CheckpointHead.info, Entry.delta, hAdd, deltaOf, StoreState.watermarks]
      exact hVersion 0
    · refine hLeaf (k := 0) (o := 0) (by simp; rfl) (by decide) ?_
      exact slice_append (slice_all (ascii "null"))
    · refine hLeaf (k := 1) (o := 4) (by simp) hEnc.1 ?_
      have hAt : slice (ascii "null" ++ (body ++ [])) 4 (4 + body.length) = some body :=
        slice_at rfl rfl
      simpa using hAt
  | childMessages identityVersion root messagesVersion body =>
    simp only [Entry.delta, hAdd, deltaOf, Addition.Encodable, StoreState.watermarks] at hc hEnc hLeaf hVersion hGround
    obtain ⟨hIdentity, prior, hPrior, rfl⟩ := hc
    obtain ⟨parent, _, _, _, hRoot, _⟩ := hGround
    obtain ⟨root', hRoot', hDenotes⟩ := hPrior
    obtain rfl : root = root' := by simpa [hRoot] using hRoot'
    have hLt := h.root_lt hRoot
    have hMessages : (e.info s).messagesVersion = some s.versions.length := by
      simp [Entry.info, CheckpointHead.info, Entry.delta, hAdd, deltaOf, StoreState.watermarks]
    refine ⟨?_, channelDenotes_some hMessages ⟨s.nodeCount + 1, hVersion 0, ?_⟩, trivial⟩
    · simp only [Entry.info, CheckpointHead.info, Entry.delta, hAdd, deltaOf]
      exact hOld hIdentity
    · have hNew := hLeaf (k := 0) (o := 0) (b := ascii "," ++ body) (by simp) hEnc.1
        (by simpa using slice_all (ascii "," ++ body))
      have hSlot : (e.delta s).slots[1]? = some (compactBinary (s.nodeCount + 1 - root) 1) := by
        simp [Entry.delta, hAdd, deltaOf, StoreState.watermarks]
      have hDecode : (eagerReader (s.append P e)).decode (s.nodeCount + 1) =
          .ok (.binary root s.nodeCount) := by
        change decodeNode (s.append P e) (s.nodeCount + 1) = _
        rw [(hv.grown h).decodeNode h.nodes hSlot, decodeSlot_compactBinary _ (by omega)
          (by omega) (by omega) (by omega) (by omega) (by omega)]
        congr 2
        omega
      exact .binary hDecode (by omega) (by omega) (hExt.denotes hDenotes) hNew
  | rootMessages identityVersion body =>
    simp only [Entry.delta, hAdd, deltaOf, Addition.Encodable, StoreState.watermarks] at hc hEnc hLeaf hVersion
    obtain ⟨hIdentity, rfl⟩ := hc
    have hMessages : (e.info s).messagesVersion = some s.versions.length := by
      simp [Entry.info, CheckpointHead.info, Entry.delta, hAdd, deltaOf, StoreState.watermarks]
    refine ⟨?_, channelDenotes_some hMessages ⟨s.nodeCount, hVersion 0, ?_⟩, trivial⟩
    · simp only [Entry.info, CheckpointHead.info, Entry.delta, hAdd, deltaOf]
      exact hOld hIdentity
    · exact hLeaf (k := 0) (o := 0) (by simp) hEnc.1 (by simpa using slice_all body)

/-- The bytes of a version fit 64-bit lengths. -/
theorem StateInv.version_length (h : StateInv s) {v : Nat} {bs : Bytes}
    (hd : VersionDenotes (eagerReader s) s.versions v bs) : bs.length < 2 ^ 64 := by
  obtain ⟨root, hRoot, hDenotes⟩ := hd
  obtain ⟨n, bs', hn, _, hDenotes', hLen⟩ := h.roots _ (List.mem_of_getElem? hRoot)
  obtain rfl : root = n := Option.some.inj hn
  rwa [hDenotes.unique hDenotes']

theorem Entry.Valid.exists_channels (hv : e.Valid P s) (h : StateInv s) :
    ∃ identity messages, e.Channels s identity messages ∧ identity.length < 2 ^ 64 ∧
      ∀ bs ∈ messages, e.head.stateLen = bs.length + messageFraming := by
  have hGround := hv.grounded
  have hEnc := hv.encoded.encodable
  unfold Entry.Channels
  unfold Entry.Grounded at hGround
  cases hAdd : e.addition with
  | identity bytes =>
    simp only [hAdd, Addition.Encodable] at hEnc
    exact ⟨bytes, none, ⟨rfl, rfl⟩, by omega, by simp⟩
  | firstMessages body =>
    simp only [hAdd] at hGround
    refine ⟨ascii "null", some body, ⟨rfl, rfl⟩, by decide, ?_⟩
    rintro bs hbs
    obtain rfl := Option.some.inj hbs
    exact hGround
  | childMessages identityVersion root messagesVersion body =>
    simp only [hAdd] at hGround
    obtain ⟨parent, hParent, rfl, hMessages, _, hLen⟩ := hGround
    obtain ⟨identity, hIdentity⟩ := (h.infos parent hParent).identity
    obtain ⟨prior, hPrior, hPriorLen⟩ := (h.infos parent hParent).messages _ hMessages
    refine ⟨identity, _, ⟨hIdentity, prior, hPrior, rfl⟩, h.version_length hIdentity, ?_⟩
    rintro bs hbs
    obtain rfl := Option.some.inj hbs
    have hComma : (ascii ",").length = 1 := rfl
    rw [hLen, hPriorLen, List.length_append, List.length_append, hComma]
    omega
  | rootMessages identityVersion body =>
    simp only [hAdd] at hGround
    obtain ⟨⟨first, hFirst, rfl⟩, hLen⟩ := hGround
    obtain ⟨identity, hIdentity⟩ := (h.infos first (List.mem_of_getElem? hFirst)).identity
    refine ⟨identity, _, ⟨hIdentity, rfl⟩, h.version_length hIdentity, ?_⟩
    rintro bs hbs
    obtain rfl := Option.some.inj hbs
    exact hLen

/-- Every new version is the identity or the messages version of the new checkpoint. -/
theorem Entry.version_of_root {r : Nat × Nat × Option Nat} (h : r ∈ (e.delta s).roots) :
    ∃ k, (e.delta s).roots[k]? = some r ∧ ((e.info s).identityVersion = s.versions.length + k ∨
      (e.info s).messagesVersion = some (s.versions.length + k)) := by
  obtain ⟨k, hk⟩ := List.mem_iff_getElem?.mp h
  refine ⟨k, hk, ?_⟩
  have hLt := (List.getElem?_eq_some_iff.mp hk).1
  simp only [Entry.info, CheckpointHead.info, Entry.delta] at hLt ⊢
  cases hAdd : e.addition <;>
    simp only [hAdd, deltaOf, StoreState.watermarks, List.length_cons, List.length_nil] at hLt ⊢
  · left; omega
  · rcases k with - | - | k
    · left; rfl
    · right; rfl
    · omega
  · right
    congr 1
    omega
  · right
    congr 1
    omega

/-- The roots of the new versions denote bytes. -/
theorem Entry.Valid.newRoots (hv : e.Valid P s) (h : StateInv s) :
    ∀ r ∈ (e.delta s).roots, r.2.1 < (s.append P e).nodeCount ∧
      ∃ bs, Denotes (eagerReader (s.append P e)) r.2.1 bs ∧ bs.length < 2 ^ 64 := by
  intro r hr
  obtain ⟨identity, messages, hc, hIdentityLen, hMessagesLen⟩ := hv.exists_channels h
  have hDenotes := hv.channels h hc
  obtain ⟨k, hk, hVersion⟩ := Entry.version_of_root hr
  have hAt : (s.append P e).versions[s.versions.length + k]? = some (some r.2.1) := by
    rw [getElem?_append_versions, List.getElem?_map, hk]
    rfl
  have hNode : r.2.1 < (s.append P e).nodeCount := by
    rw [(hv.grown h).nodeCount h.nodes]
    have hMem := hr
    rw [Entry.delta] at hMem ⊢
    cases hAdd : e.addition <;>
      simp only [hAdd, deltaOf, StoreState.watermarks, List.mem_cons, List.not_mem_nil, or_false,
        List.length_cons, List.length_nil] at hMem ⊢
    · subst hMem; simp
    · obtain rfl | rfl := hMem <;> simp
    · subst hMem; simp
    · subst hMem; simp
  refine ⟨hNode, ?_⟩
  obtain hIdentity | hMessages := hVersion
  · obtain ⟨root, hRoot, hd⟩ := hDenotes.identity
    rw [hIdentity, hAt] at hRoot
    obtain rfl : r.2.1 = root := by simpa using hRoot
    exact ⟨identity, hd, hIdentityLen⟩
  · have hChannel := hDenotes.messages
    rw [hMessages] at hChannel
    cases messages with
    | none => exact absurd hChannel (by simp [ChannelDenotes])
    | some bs =>
      obtain ⟨root, hRoot, hd⟩ := hChannel
      rw [hAt] at hRoot
      obtain rfl : r.2.1 = root := by simpa using hRoot
      have hLen := hMessagesLen bs rfl
      have hFits := hv.encoded.headFits.stateLen
      exact ⟨bs, hd, by omega⟩

end Contents

/-! ## The step -/

section Step

variable {e : Entry}

theorem InfoOk.extend {info : CheckpointInfo} (hExt : Extends s s')
    (hVersions : s.versions <+: s'.versions) (h : InfoOk s info) : InfoOk s' info := by
  obtain ⟨identity, hIdentity⟩ := h.identity
  refine { h with identity := ⟨identity, hIdentity.extend hExt hVersions⟩, messages := ?_ }
  intro v hv
  obtain ⟨bs, hd, hLen⟩ := h.messages v hv
  exact ⟨bs, hd.extend hExt hVersions, hLen⟩

theorem Entry.Valid.infoOk (hv : e.Valid P s) (h : StateInv s) :
    InfoOk (s.append P e) (e.info s) := by
  obtain ⟨identity, messages, hc, _, hLen⟩ := hv.exists_channels h
  have hDenotes := hv.channels h hc
  have hHead := hv.encoded.headFits
  refine ⟨hHead.threadId, hHead.checkpointId, hHead.parent, ⟨identity, hDenotes.identity⟩, ?_, rfl,
    hHead.stateLen⟩
  intro v hVersion
  have hChannel := hDenotes.messages
  rw [Option.mem_def.mp hVersion] at hChannel
  cases messages with
  | none => exact absurd hChannel (by simp [ChannelDenotes])
  | some bs => exact ⟨bs, hChannel, hLen bs rfl⟩

theorem getElem?_append_singleton {α : Type} {xs : List α} {x y : α} {i : Nat}
    (h : (xs ++ [x])[i]? = some y) : xs[i]? = some y ∨ (i = xs.length ∧ y = x) := by
  rw [List.getElem?_append] at h
  split at h
  case isTrue => exact .inl h
  case isFalse hi =>
    rw [List.getElem?_singleton] at h
    split at h
    case isTrue hz => exact .inr ⟨by omega, (Option.some.inj h).symm⟩
    case isFalse => cases h

theorem Entry.Valid.parents_lt (hv : e.Valid P s) {k p : Nat}
    (hk : ((e.delta s).roots.map (fun r => r.2.2))[k]? = some (some p)) :
    p < s.versions.length + k := by
  have hRefers := hv.encoded.refers
  rw [Entry.delta] at hk
  cases hAdd : e.addition with
  | identity bytes =>
    simp only [hAdd, deltaOf, StoreState.watermarks, List.map_cons, List.map_nil] at hk
    rcases k with - | k
    · by_cases hZero : s.versions.length = 0
      · simp [hZero] at hk
      · have hLast : s.versions.length - 1 = p := by simpa [hZero] using hk
        omega
    · simp at hk
  | firstMessages body =>
    simp only [hAdd, deltaOf, List.map_cons, List.map_nil] at hk
    rcases k with - | - | k <;> simp at hk
  | childMessages identityVersion root messagesVersion body =>
    simp only [hAdd, deltaOf, List.map_cons, List.map_nil, Addition.Refers,
      StoreState.watermarks] at hk hRefers
    rcases k with - | k
    · have hParent : messagesVersion = p := by simpa using hk
      omega
    · simp at hk
  | rootMessages identityVersion body =>
    simp only [hAdd, deltaOf, List.map_cons, List.map_nil] at hk
    rcases k with - | k <;> simp at hk

/-- Applying a valid entry keeps the invariant. -/
theorem StateInv.append (h : StateInv s) (hv : e.Valid P s)
    (hAdm : Admissible s (e.tx P s 0))
    (hRetired : s.retiredRequests.containsKey e.request = false) :
    StateInv (s.append P e) := by
  have hExt := hv.extends h
  have hPrefix := versions_extend P s e
  have hKeyNew : (e.info s).key ∉ s.checkpoints.map CheckpointInfo.key := by
    have hFresh := hAdm.fresh
    rw [Entry.tx_checkpoint, h.index] at hFresh
    intro hMem
    rw [(KeyMap.containsKey_indexOf h.keys).mpr hMem] at hFresh
    cases hFresh
  have hThreadIff : s.threadOrdinals.containsKey e.head.threadId = true ↔
      e.head.threadId ∈ threadsOf s.checkpoints := by
    rw [h.threadIndex, ← h.threads]
    exact KeyMap.containsKey_indexOf (h.threads ▸ nodup_threadsOf s.checkpoints)
  have hThreads : (s.append P e).threads = threadsOf (s.checkpoints ++ [e.info s]) := by
    rw [threadsOf_append_singleton]
    change (if s.threadOrdinals.containsKey e.head.threadId = true then s.threads
      else s.threads ++ [e.head.threadId]) = _
    by_cases hKnown : e.head.threadId ∈ threadsOf s.checkpoints
    · rw [if_pos (hThreadIff.mpr hKnown), if_pos (show (e.info s).threadId ∈ _ from hKnown), h.threads]
    · rw [if_neg (mt hThreadIff.mp hKnown), if_neg (show (e.info s).threadId ∉ _ from hKnown),
        h.threads]
      rfl
  have hCount : s.checkpoints.length + 1 < 2 ^ 32 := hv.encoded.checkpointCount
  have hVersions : (s.append P e).versions.length = (e.delta s).versionCount := by
    change (s.versions ++ (e.delta s).roots.map (fun r => some r.2.1)).length = _
    rw [List.length_append, List.length_map, Entry.delta, versionCount_deltaOf]
    rfl
  refine
    { nodes := hv.nodesOk h
      parentsLen := ?_
      versionsLt := ?_
      parents := ?_
      roots := ?_
      checkpointsLt := ?_
      ordinal := ?_
      keys := ?_
      index := ?_
      threads := hThreads
      threadsLt := ?_
      threadIndex := ?_
      parentPrior := ?_
      infos := ?_
      requests := ?_
      retired := ?_
      deleted := ?_ }
  · change (s.parents ++ _).length = (s.versions ++ _).length
    simp [h.parentsLen]
  · rw [hVersions]
    exact lt_of_le_of_lt hv.encoded.encodable.versionCount (maxValue_lt 32)
  · intro v p hp
    change (s.parents ++ (e.delta s).roots.map (fun r => r.2.2))[v]? = some (some p) at hp
    rw [List.getElem?_append] at hp
    split at hp
    case isTrue => exact h.parents v p hp
    case isFalse hv' =>
      have hLt := hv.parents_lt hp
      rw [h.parentsLen] at hv' hLt
      omega
  · intro root hRoot
    change root ∈ s.versions ++ (e.delta s).roots.map (fun r => some r.2.1) at hRoot
    obtain hOld | hNew := List.mem_append.mp hRoot
    · obtain ⟨n, bs, rfl, hLt, hd, hLen⟩ := h.roots root hOld
      refine ⟨n, bs, rfl, ?_, hExt.denotes hd, hLen⟩
      rw [(hv.grown h).nodeCount h.nodes]
      omega
    · obtain ⟨r, hr, rfl⟩ := List.mem_map.mp hNew
      obtain ⟨hLt, bs, hd, hLen⟩ := hv.newRoots h r hr
      exact ⟨r.2.1, bs, rfl, hLt, hd, hLen⟩
  · change (s.checkpoints ++ [e.info s]).length < _
    simpa using hCount
  · intro i info hi
    obtain hOld | ⟨rfl, rfl⟩ := getElem?_append_singleton hi
    · exact h.ordinal i info hOld
    · rfl
  · change ((s.checkpoints ++ [e.info s]).map CheckpointInfo.key).Nodup
    rw [List.map_append, List.map_singleton]
    refine List.nodup_append.mpr ⟨h.keys, by simp, ?_⟩
    rintro a ha b hb rfl
    exact hKeyNew (List.mem_singleton.mp hb ▸ ha)
  · change s.checkpointOrdinals.insert (e.info s).key s.checkpoints.length =
      .indexOf ((s.checkpoints ++ [e.info s]).map CheckpointInfo.key)
    rw [List.map_append, List.map_singleton, KeyMap.indexOf_append_singleton, List.length_map,
      h.index]
  · change (if s.threadOrdinals.containsKey e.head.threadId = true then s.threads
      else s.threads ++ [e.head.threadId]).length ≤ _
    split
    case isTrue => exact h.threadsLt
    case isFalse hNew =>
      have hLt := hAdm.thread.resolve_left hNew
      rw [List.length_append]
      exact hLt
  · change (if s.threadOrdinals.containsKey e.head.threadId = true then s.threadOrdinals
      else s.threadOrdinals.insert e.head.threadId s.threads.length) = .indexOf
      (if s.threadOrdinals.containsKey e.head.threadId = true then s.threads
      else s.threads ++ [e.head.threadId])
    split
    case isTrue => exact h.threadIndex
    case isFalse => rw [KeyMap.indexOf_append_singleton, h.threadIndex]
  · intro i info key hi hKey
    change (s.checkpoints ++ [e.info s])[i]? = some info at hi
    have hGrow : ∀ (j : Nat) parent, s.checkpoints[j]? = some parent →
        (s.append P e).checkpoints[j]? = some parent := by
      intro j parent hj
      change (s.checkpoints ++ [e.info s])[j]? = _
      rw [List.getElem?_append_left (List.getElem?_eq_some_iff.mp hj).1, hj]
    obtain hOld | ⟨rfl, rfl⟩ := getElem?_append_singleton hi
    · obtain ⟨j, hj, parent, hParent, hKey⟩ := h.parentPrior i info key hOld hKey
      exact ⟨j, hj, parent, hGrow j parent hParent, hKey⟩
    · obtain ⟨j, hGet, hLt⟩ := hAdm.parent key hKey
      rw [h.index, KeyMap.get_indexOf h.keys, List.getElem?_map, Option.map_eq_some_iff] at hGet
      obtain ⟨parent, hParent, hParentKey⟩ := hGet
      exact ⟨j, hLt, parent, hGrow j parent hParent, hParentKey⟩
  · intro info hInfo
    change info ∈ s.checkpoints ++ [e.info s] at hInfo
    obtain hOld | hNew := List.mem_append.mp hInfo
    · exact (h.infos info hOld).extend hExt hPrefix
    · rw [List.mem_singleton.mp hNew]
      exact hv.infoOk h
  · intro key record hGet
    change (if e.request.length = 0 then s.requestRecords else s.requestRecords.insert e.request
      ⟨e.request, P.sha256 (e.record P s), s.checkpoints.length⟩).get key = some record at hGet
    have hLen : (s.append P e).checkpoints.length = s.checkpoints.length + 1 := by
      change (s.checkpoints ++ [e.info s]).length = _
      simp
    have hOld : s.requestRecords.get key = some record → record.key = key ∧ 0 < key.length ∧
        key.length ≤ maxRequestIdBytes ∧
        record.checkpointOrdinal < (s.append P e).checkpoints.length := by
      intro hg
      obtain ⟨h1, h2, h3, h4⟩ := h.requests key record hg
      exact ⟨h1, h2, h3, by omega⟩
    split at hGet
    case isTrue => exact hOld hGet
    case isFalse hNonempty =>
      rw [KeyMap.get_insert] at hGet
      split at hGet
      case isFalse => exact hOld hGet
      case isTrue hEq =>
        obtain rfl := Option.some.inj hGet
        subst hEq
        exact ⟨rfl, by omega, hv.encoded.requestMax, by rw [hLen]; exact Nat.lt_succ_self _⟩
  · intro key hKey
    obtain ⟨h1, h2, h3⟩ := h.retired key hKey
    refine ⟨h1, h2, ?_⟩
    change (if e.request.length = 0 then s.requestRecords else s.requestRecords.insert e.request
      ⟨e.request, P.sha256 (e.record P s), s.checkpoints.length⟩).containsKey key = false
    split
    case isTrue => exact h3
    case isFalse =>
      have hNe : key ≠ e.request := by
        rintro rfl
        rw [show s.retiredRequests.containsKey e.request = true from hKey] at hRetired
        cases hRetired
      rw [KeyMap.containsKey_eq_false, KeyMap.get_insert, if_neg hNe]
      exact KeyMap.containsKey_eq_false.mp h3
  · intro key hKey
    obtain ⟨h1, h2, h3⟩ := h.deleted key hKey
    refine ⟨h1, h2, ?_⟩
    have hNe : key ≠ (e.info s).key := by
      rintro rfl
      have hLive := hAdm.live
      rw [Entry.tx_checkpoint, show s.deletedCheckpoints.containsKey (e.info s).key = true from
        hKey] at hLive
      cases hLive
    change (s.checkpointOrdinals.insert (e.info s).key s.checkpoints.length).containsKey key = false
    rw [KeyMap.containsKey_eq_false, KeyMap.get_insert, if_neg hNe]
    exact KeyMap.containsKey_eq_false.mp h3

end Step

end TulyaStore.Checkpoint
