import TulyaStore.Checkpoint.Closure
import TulyaStore.Checkpoint.RecordArithmetic

/-!
# Records through the log

A call of an encoder (`AppendCall`) stands for one transaction at the watermarks it is made
for. Whatever record it returns, the parser reads that transaction back, and every state at
those watermarks that holds what the call refers to accepts it
(`transaction_round_trip`). The parser's own side, for any bytes: its arithmetic stays inside
its words, and the sections of a record it accepts fill the record (`FillsRecord`).
-/

namespace TulyaStore.Checkpoint

open Lib

variable {P : Primitives} {s : StoreState} {g : Geometry}

/-! ## Calls of the encoders -/

/-- What a call appends: an identity, or messages. -/
inductive AppendContent where
  | identity (bytes : Bytes)
  /-- The store's first checkpoint, the parent's identity version, messages root and messages
  version, the new messages, and the length and hash of the canonical state. -/
  | messages (first : Option CheckpointInfo) (parent : Option (Nat × Nat × Nat)) (body : Bytes)
      (stateLen : Nat) (stateHash : UInt64)

structure AppendCall where
  threadId : String
  checkpointId : String
  checkpointNo : UInt32
  parentCheckpointId : Option String
  content : AppendContent

namespace AppendCall

/-- The record the encoder of the call returns. -/
def encode (P : Primitives) (g : Geometry) (c : AppendCall) : Except StoreError Bytes :=
  match c.content with
  | .identity bytes => encodeSingleIdentityTransaction P g c.threadId c.checkpointId
      c.checkpointNo c.parentCheckpointId bytes
  | .messages first parent body stateLen stateHash => encodeMessageAppendTransaction P g first
      c.threadId c.checkpointId c.checkpointNo c.parentCheckpointId parent body stateLen stateHash

def addition (g : Geometry) (c : AppendCall) : Addition :=
  match c.content with
  | .identity bytes => .identity bytes
  | .messages first parent body _ _ => messageAddition g first parent body

def delta (g : Geometry) (c : AppendCall) : TransactionDelta := deltaOf g (c.addition g)

def head (P : Primitives) (c : AppendCall) : CheckpointHead :=
  match c.content with
  | .identity bytes => identityHead P c.threadId c.checkpointId c.checkpointNo c.parentCheckpointId
      bytes
  | .messages _ _ _ stateLen stateHash => messageHead c.threadId c.checkpointId c.checkpointNo
      c.parentCheckpointId stateLen stateHash

def key (c : AppendCall) : CheckpointKey := ⟨c.threadId, c.checkpointId⟩

/-- The parent of a message append. -/
def parent (c : AppendCall) : Option (Nat × Nat × Nat) :=
  match c.content with
  | .identity _ => none
  | .messages _ parent _ _ _ => parent

/-- The transaction a call stands for at the watermarks `g`. -/
def transaction (P : Primitives) (g : Geometry) (c : AppendCall) (record : Bytes)
    (offset : Nat) : ParsedTransaction where
  endOffset := offset + record.length
  versionStart := g.versionCount
  versionCount := g.versionCount + (c.delta g).roots.length
  checkpointCount := g.checkpointCount + 1
  byteStart := g.byteLen
  byteEnd := g.byteLen + (c.delta g).payload.length
  bytes := (c.delta g).payload
  nodeStart := g.nodeCount
  nodeEnd := g.nodeCount + (c.delta g).slots.length
  compactNodes := (c.delta g).slots.flatten
  wideStart := g.wideCount
  wideEnd := g.wideCount
  wideNodes := []
  roots := (c.delta g).roots.map (fun root => some root.2.1)
  parents := (c.delta g).roots.map (fun root => root.2.2)
  checkpoint :=
    { ordinal := g.checkpointCount
      threadId := c.threadId
      checkpointNo := c.checkpointNo
      checkpointId := c.checkpointId
      parentCheckpointId := c.parentCheckpointId
      identityVersion := (c.delta g).identityVersion
      messagesVersion := (c.delta g).messagesVersion
      resultVersion := none
      logicalStateLen := (c.head P).stateLen
      stateHash := (c.head P).stateHash }
  requestId := none
  operationDigest := P.sha256 record

/-- The arguments are values of their machine types that name existing versions. -/
structure Valid (g : Geometry) (c : AppendCall) : Prop where
  stateLen : ∀ first parent body stateLen stateHash,
    c.content = .messages first parent body stateLen stateHash → stateLen < 2 ^ 64
  refers : (c.addition g).Refers g

/-- The watermarks stay below their limits when the call's content is appended. -/
structure Room (g : Geometry) (c : AppendCall) : Prop where
  fits : g.Fits
  byteEnd : g.byteLen + (c.delta g).payload.length < 2 ^ 64
  nodeEnd : g.nodeCount + (c.delta g).slots.length < 2 ^ 64

/-- A successful call returns the record of its addition. -/
theorem encode_inv {c : AppendCall} {record : Bytes} (hg : g.Fits) (hv : c.Valid g)
    (h : c.encode P g = .ok record) :
    Encoded P g (c.head P) [] (c.addition g) ∧
      record = (partsOf P g (c.head P) [] (c.addition g)).record P := by
  obtain ⟨threadId, checkpointId, checkpointNo, parentId, content⟩ := c
  cases content with
  | identity bytes =>
    simp only [encode, head, addition] at h ⊢
    exact encodeSingleIdentity_inv hg h
  | messages first parent body stateLen stateHash =>
    have hState : stateLen < 2 ^ 64 := hv.stateLen first parent body stateLen stateHash rfl
    have hRefers := hv.refers
    simp only [encode, head, addition] at h hRefers ⊢
    obtain ⟨hEncoded, hRecord, _⟩ := encodeMessageAppend_inv hg hState hRefers h
    exact ⟨hEncoded, hRecord⟩

/-- The parser returns the transaction of a successful call. -/
theorem parse_encode {c : AppendCall} {record : Bytes} {offset : Nat} (hv : c.Valid g)
    (hr : c.Room g) (h : c.encode P g = .ok record) (hEnd : offset + record.length < 2 ^ 64) :
    parseTransaction P record g offset = .ok (c.transaction P g record offset) := by
  obtain ⟨hEncoded, hRecord⟩ := encode_inv hr.fits hv h
  rw [hRecord] at hEnd ⊢
  have hByte := hr.byteEnd
  have hNode := hr.nodeEnd
  have hWide := hr.fits.wideCount
  simp only [delta] at hByte hNode
  have hRange : (partsOf P g (c.head P) [] (c.addition g)).InRange := by
    refine ⟨?_, ?_, ?_⟩ <;> simp only [partsOf, Nat.add_zero]
    · exact hByte
    · exact hNode
    · exact hWide
  rw [parse_partsOf hEncoded hRange hEnd]
  have hVersions : (deltaOf g (c.addition g)).versionCount =
      g.versionCount + (deltaOf g (c.addition g)).roots.length := versionCount_deltaOf g _
  obtain ⟨threadId, checkpointId, checkpointNo, parentId, content⟩ := c
  cases content <;>
    simp [TxParts.parsed, transaction, partsOf, hVersions, CheckpointHead.info, delta, head,
      identityHead, messageHead]

/-- The state holds what the call refers to and does not know its checkpoint yet: the parent
is live, the key is neither live nor deleted, and the messages it continues have their root. -/
structure Welcome (s : StoreState) (g : Geometry) (c : AppendCall) : Prop where
  parent : ∀ id ∈ c.parentCheckpointId, ∃ info, findCheckpoint s ⟨c.threadId, id⟩ = .ok info
  notLive : s.checkpointOrdinals.containsKey c.key = false
  notDeleted : s.deletedCheckpoints.containsKey c.key = false
  messages : ∀ identityVersion root messagesVersion,
    c.parent = some (identityVersion, root, messagesVersion) →
      s.versions[messagesVersion]? = some (some root) ∧ root < g.nodeCount

end AppendCall

/-- The state is at the watermarks `g`, and its tables are below the limits of the format. -/
structure StateAt (s : StoreState) (g : Geometry) : Prop where
  geometry : s.geometry = .ok g
  wideBytes : g.wideCount * wideRecordSize < 2 ^ 64
  threads : s.threads.length < 2 ^ 32

/-- A state that accepted records made is at its watermarks, and its roots are its nodes. -/
theorem Closed.stateAt (h : Closed s) (hGeometry : s.geometry = .ok g)
    (hWide : s.wideNodes.length < 2 ^ 64) (hCount : s.checkpoints.length < 2 ^ 32) :
    StateAt s g ∧
      ∀ (v root : Nat), s.versions[v]? = some (some root) → root < g.nodeCount := by
  have hThreads := h.threads
  refine ⟨⟨hGeometry, ?_, by omega⟩, ?_⟩
  · have hWideCount : g.wideCount = s.wideNodes.length / wideRecordSize := by
      simp only [StoreState.geometry, lazyBaseGeometry_of_none h.table.base, Geometry.zero,
        bind_eq_ok, okOr_eq_ok, checkedAdd_eq_some, Nat.zero_add, Except.ok.injEq] at hGeometry
      obtain ⟨_, _, _, _, _, ⟨_, rfl⟩, rfl⟩ := hGeometry
      rfl
    rw [hWideCount]
    exact Nat.lt_of_le_of_lt (Nat.div_mul_le_self _ _) hWide
  · intro v root hRoot
    rw [(geometry_inv hGeometry h.table.base).2.1]
    exact h.roots root (List.mem_of_getElem? hRoot)

/-! ## The nodes of an addition -/

theorem validateSlots_of {tx : ParsedTransaction} {arenaLen nodeId : Nat} {slots : List Bytes}
    (hIds : nodeId + slots.length ≤ 2 ^ 64)
    (h : ∀ (k : Nat) slot, slots[k]? = some slot →
      validateSlot s tx arenaLen (nodeId + k) slot = .ok ()) :
    validateSlots s tx arenaLen nodeId slots = .ok () := by
  induction slots generalizing nodeId with
  | nil => rfl
  | cons slot rest ih =>
    rw [List.length_cons] at hIds
    have hId : ¬ width 64 ≤ nodeId := by
      rw [width]
      omega
    have hRest : validateSlots s tx arenaLen (nodeId + 1) rest = .ok () := by
      refine ih (by omega) (fun k slot' hk => ?_)
      have hAt := h (k + 1) slot' (by simpa using hk)
      rwa [Nat.add_comm k 1, ← Nat.add_assoc] at hAt
    have hHead : validateSlot s tx arenaLen nodeId slot = .ok () := h 0 slot rfl
    rw [validateSlots, failIf_neg hId, ok_bind, hHead, ok_bind, hRest]

theorem validateSlot_compactLeaf {tx : ParsedTransaction} {arenaLen nodeId offset length : Nat}
    (hArena : arenaLen < 2 ^ 64) (hIn : offset + length ≤ arenaLen) (hLength : length < 2 ^ 32) :
    validateSlot s tx arenaLen nodeId (compactLeaf offset length) = .ok () := by
  have hEnd : offset + length < 2 ^ 64 := by omega
  obtain ⟨hKind, h0, h8⟩ := compactLeaf_fields (Nat.lt_of_le_of_lt (Nat.le_add_right _ _) hEnd)
    hLength
  rw [validateSlot, hKind, ok_bind, if_pos rfl, h0, ok_bind, h8, ok_bind, checkedAdd_of_lt hEnd,
    okOr_some, ok_bind, failIf_neg (Nat.not_lt.mpr hIn)]

theorem validateSlot_compactBinary {tx : ParsedTransaction} {arenaLen nodeId l r : Nat}
    (hl : l < 2 ^ 32) (hr : r < 2 ^ 32) (hDeltas : ¬ (l = 0 ∨ r = 0 ∨ l > nodeId ∨ r > nodeId)) :
    validateSlot s tx arenaLen nodeId (compactBinary l r) = .ok () := by
  obtain ⟨hKind, h0, h4⟩ := compactBinary_fields hl hr
  rw [validateSlot, hKind, ok_bind, if_neg (by decide), if_pos rfl, h0, ok_bind, h4, ok_bind,
    failIf_neg hDeltas]

/-- The root of the messages an addition continues is an earlier node. -/
def Addition.RootBelow (g : Geometry) : Addition → Prop
  | .childMessages _ root _ _ => root < g.nodeCount
  | _ => True

/-- The slots of an addition pass the checks on new nodes. -/
theorem validateSlot_deltaOf {tx : ParsedTransaction} {a : Addition} (hEnc : a.Encodable g)
    (hRoot : a.RootBelow g)
    (hArena : g.byteLen + (deltaOf g a).payload.length < 2 ^ 64) :
    ∀ (k : Nat) slot, (deltaOf g a).slots[k]? = some slot →
      validateSlot s tx (g.byteLen + (deltaOf g a).payload.length) (g.nodeCount + k) slot =
        .ok () := by
  intro k slot hk
  cases a with
  | identity bytes =>
    simp only [deltaOf] at hArena hk ⊢
    rcases k with - | k
    · obtain rfl : compactLeaf g.byteLen bytes.length = slot := by simpa using hk
      exact validateSlot_compactLeaf hArena le_rfl hEnc.1
    · simp at hk
  | firstMessages body =>
    have hNull : (ascii "null" ++ body).length = 4 + body.length := by
      rw [List.length_append]
      rfl
    simp only [deltaOf, hNull] at hArena hk ⊢
    rcases k with - | - | k
    · obtain rfl : compactLeaf g.byteLen 4 = slot := by simpa using hk
      exact validateSlot_compactLeaf hArena (by omega) (by decide)
    · obtain rfl : compactLeaf (g.byteLen + 4) body.length = slot := by simpa using hk
      exact validateSlot_compactLeaf hArena (by omega) hEnc.1
    · simp at hk
  | childMessages identityVersion root messagesVersion body =>
    simp only [Addition.RootBelow] at hRoot
    simp only [Addition.Encodable] at hEnc
    simp only [deltaOf] at hArena hk ⊢
    rcases k with - | - | k
    · obtain rfl : compactLeaf g.byteLen (ascii "," ++ body).length = slot := by simpa using hk
      exact validateSlot_compactLeaf hArena le_rfl hEnc.1
    · obtain rfl : compactBinary (g.nodeCount + 1 - root) 1 = slot := by simpa using hk
      exact validateSlot_compactBinary hEnc.2.2.2.1 (by decide) (by omega)
    · simp at hk
  | rootMessages identityVersion body =>
    simp only [deltaOf] at hArena hk ⊢
    rcases k with - | k
    · obtain rfl : compactLeaf g.byteLen body.length = slot := by simpa using hk
      exact validateSlot_compactLeaf hArena le_rfl hEnc.1
    · simp at hk

/-- The roots of an addition are nodes it adds. -/
theorem roots_lt_deltaOf (g : Geometry) (a : Addition) :
    ∀ r ∈ (deltaOf g a).roots, r.2.1 < g.nodeCount + (deltaOf g a).slots.length := by
  cases a <;> simp [deltaOf]

/-! ## Acceptance -/

/-- A live checkpoint lies below the checkpoint count. -/
theorem findCheckpoint_inv {key : CheckpointKey} {info : CheckpointInfo}
    (h : findCheckpoint s key = .ok info) :
    ∃ ordinal, s.checkpointOrdinals.get key = some ordinal ∧ ordinal < s.checkpoints.length := by
  simp only [findCheckpoint, bind_eq_ok, okOr_eq_ok] at h
  obtain ⟨ordinal, hGet, hInfo⟩ := h
  exact ⟨ordinal, hGet, (List.getElem?_eq_some_iff.mp hInfo).1⟩

theorem geometry_checkpointCount (h : s.geometry = .ok g) :
    g.checkpointCount = s.checkpoints.length := by
  simp only [StoreState.geometry, bind_eq_ok, Except.ok.injEq] at h
  obtain ⟨_, _, _, _, _, _, rfl⟩ := h
  rfl

namespace AppendCall

variable {c : AppendCall} {record : Bytes} {offset : Nat}

/-- The checks on the new nodes pass. -/
theorem validateNewNodes_eq (hs : StateAt s g) (hr : c.Room g) (hEnc : (c.addition g).Encodable g)
    (hRoot : (c.addition g).RootBelow g) :
    validateNewNodes s (c.transaction P g record offset) = .ok () := by
  have hByte := hr.byteEnd
  have hWide := hs.wideBytes
  have hNode := hr.nodeEnd
  have hSlots : ∀ slot ∈ (c.delta g).slots, slot.length = compactNodeSize := by
    unfold delta
    cases c.addition g <;> simp [deltaOf, compactLeaf, compactBinary, compactNodeSize]
  have hChunks : chunksExact compactNodeSize (c.transaction P g record offset).compactNodes =
      (c.delta g).slots := chunksExact_flatten (by decide) hSlots
  have hRoots : ¬ rootsOutside (c.transaction P g record offset).nodeEnd
      (c.transaction P g record offset).roots = true := by
    simp only [rootsOutside, transaction, List.any_eq_true, List.mem_map]
    rintro ⟨_, ⟨root, hMem, rfl⟩, hOut⟩
    have hLt := roots_lt_deltaOf g (c.addition g) root hMem
    exact absurd (of_decide_eq_true hOut) (Nat.not_le.mpr hLt)
  have hWideLen : (checkedMul 64 g.wideCount wideRecordSize).bind (fun length =>
      checkedAdd 64 length (c.transaction P g record offset).wideNodes.length) =
      some (g.wideCount * wideRecordSize) := by
    rw [checkedMul, tryFrom_of_lt hWide, Option.bind_some]
    exact checkedAdd_of_lt hWide
  have hArena : checkedAdd 64 g.byteLen (c.transaction P g record offset).bytes.length =
      some (g.byteLen + (c.delta g).payload.length) := checkedAdd_of_lt hByte
  have hAligned : ¬ g.wideCount * wideRecordSize % wideRecordSize ≠ 0 :=
    not_not.mpr (Nat.mul_mod_left _ _)
  have hValid : validateSlots s (c.transaction P g record offset)
      (g.byteLen + (c.delta g).payload.length) g.nodeCount (c.delta g).slots = .ok () :=
    validateSlots_of (Nat.le_of_lt hNode) (validateSlot_deltaOf hEnc hRoot hByte)
  rw [validateNewNodes, hs.geometry, ok_bind, hArena, okOr_some, ok_bind, hWideLen, okOr_some,
    ok_bind, hChunks, hValid, ok_bind, failIf_neg hAligned, ok_bind, failIf_neg hRoots]

/-- A state at the call's watermarks that welcomes it accepts its transaction. -/
theorem prepare_encode (hv : c.Valid g) (hr : c.Room g) (h : c.encode P g = .ok record)
    (hs : StateAt s g) (hw : c.Welcome s g) :
    ∃ prepared, prepareTransactionApply s (c.transaction P g record offset) = .ok prepared := by
  obtain ⟨hEncoded, _⟩ := encode_inv hr.fits hv h
  have hRoot : (c.addition g).RootBelow g := by
    unfold addition
    cases hContent : c.content with
    | identity bytes => trivial
    | messages first parent body stateLen stateHash =>
      simp only [messageAddition]
      split
      case isTrue => trivial
      case isFalse =>
        cases hParent : parent with
        | none => trivial
        | some triple =>
          have hMessages := hw.messages triple.1 triple.2.1 triple.2.2 (by
            simp [AppendCall.parent, hContent, hParent])
          exact hMessages.2
  have hAdm : Admissible s (c.transaction P g record offset) :=
    { count := Nat.succ_ne_zero _
      continues := hs.geometry
      parent := by
        intro key hKey
        simp only [CheckpointInfo.parentKey, transaction, Option.map_eq_some_iff] at hKey
        obtain ⟨id, hId, rfl⟩ := hKey
        obtain ⟨info, hFind⟩ := hw.parent id hId
        obtain ⟨ordinal, hGet, hLt⟩ := findCheckpoint_inv hFind
        rw [← geometry_checkpointCount hs.geometry] at hLt
        exact ⟨ordinal, hGet, hLt⟩
      fresh := hw.notLive
      live := hw.notDeleted
      request := by simp [transaction]
      nodes := validateNewNodes_eq hs hr hEncoded.encodable hRoot
      thread := .inr hs.threads }
  have hApply := applyTransaction_eq_ok.mpr ⟨hAdm, rfl⟩
  obtain ⟨prepared, hPrepared, _⟩ := bind_eq_ok.mp hApply
  exact ⟨prepared, hPrepared⟩

end AppendCall

/-! ## The sections of an accepted record -/

/-- The sections have the lengths the header declares, and they fill the record. -/
structure FillsRecord (record : Bytes) (hd : TxHeader) (tx : ParsedTransaction) : Prop where
  header : parseHeader record = .ok hd
  total : hd.total = record.length
  request : (tx.requestId.getD []).length = hd.requestLen
  payload : tx.bytes.length = hd.payloadLen
  compact : tx.compactNodes.length = hd.compactNodes * compactNodeSize
  wide : tx.wideNodes.length = hd.wideNodes * wideRecordSize
  roots : tx.roots.length = hd.rootCount
  sections : ∃ roots checkpoint checksum : Bytes,
    record = record.take txHeaderSize ++ tx.requestId.getD [] ++ tx.bytes ++ tx.compactNodes ++
      tx.wideNodes ++ roots ++ checkpoint ++ checksum ∧
    roots.length = hd.rootCount * rootRecordSize ∧ checkpoint.length = hd.checkpointRecordLen ∧
    checksum.length = txChecksumSize

theorem checkEnvelope_total {record : Bytes} {geometry : Option Geometry} {hd : TxHeader}
    (h : checkEnvelope P record geometry = .ok hd) : hd.total = record.length := by
  simp only [checkEnvelope, bind_eq_ok, okOr_eq_ok, failIf_eq_ok, tryFrom_eq_some,
    Except.ok.injEq, not_not] at h
  obtain ⟨_, _, _, _, _, hTotal, _, _, _, _, _, _, _, _, _, _, _, _, _, _, _, _, rfl⟩ := h
  exact hTotal

/-- The bytes between two places of a record. -/
theorem slice_of_le {data : Bytes} {a b : Nat} (hab : a ≤ b) (hb : b ≤ data.length) :
    ∃ part, slice data a b = some part ∧ part.length = b - a := by
  have hSlice : slice data a b = some ((data.drop a).take (b - a)) :=
    slice_eq_some.mpr ⟨hab, hb, rfl⟩
  exact ⟨_, hSlice, length_of_slice hSlice⟩

/-- An accepted record is its sections, one after the other. -/
theorem fillsRecord_of_parse {record : Bytes} {geometry : Option Geometry} {offset : Nat}
    {tx : ParsedTransaction}
    (h : parseTransactionWithGeometry P record geometry offset = .ok tx) :
    ∃ hd, FillsRecord record hd tx := by
  obtain ⟨hd, s, _, hEnvelope, hSections, _, _, _, _, _, rfl⟩ := parse_inv h
  obtain ⟨hHeader, _, hLen, _⟩ := checkEnvelope_inv hEnvelope
  simp only [parseSections, bind_eq_ok, okOr_eq_ok, Except.ok.injEq] at hSections
  obtain ⟨request, hRequest, bytes, hBytes, compact, hCompact, wide, hWide, roots, hRoots,
    checkpoint, hCheckpoint, rfl⟩ := hSections
  have hRequestLen : request.length = hd.requestLen := by
    rw [length_of_slice hRequest, Nat.add_sub_cancel_left]
  have hRequestId : (if hd.requestLen = 0 then none else some request).getD [] = request := by
    split
    case isTrue hZero =>
      rw [hZero] at hRequestLen
      rw [List.length_eq_zero_iff.mp hRequestLen]
      rfl
    case isFalse => rfl
  simp only [TxHeader.expectedLen] at hLen
  have hChecksumSize : txChecksumSize = 8 := rfl
  -- the places between the sections that no slice of the parser covers
  have hCursor : hd.rootCursor = txHeaderSize + hd.requestLen + hd.payloadLen +
      hd.compactNodes * compactNodeSize + hd.wideNodes * wideRecordSize := rfl
  obtain ⟨rootBytes, hRootBytes, hRootLen⟩ := @slice_of_le record hd.rootCursor
    (hd.rootCursor + hd.rootCount * rootRecordSize) (by omega) (by omega)
  obtain ⟨checksum, hChecksum, hChecksumLen⟩ := @slice_of_le record
    (hd.rootCursor + hd.rootCount * rootRecordSize + hd.checkpointRecordLen) record.length
    (by omega) le_rfl
  have hHead : slice record 0 txHeaderSize = some (record.take txHeaderSize) := by
    refine slice_eq_some.mpr ⟨Nat.zero_le _, by omega, ?_⟩
    simp
  have hAll := slice_concat (slice_concat (slice_concat (slice_concat (slice_concat (slice_concat
    (slice_concat hHead hRequest) hBytes) hCompact) hWide) hRootBytes) hCheckpoint) hChecksum
  rw [slice_all, Option.some.injEq] at hAll
  refine ⟨hd, hHeader, checkEnvelope_total hEnvelope, ?_, ?_, ?_, ?_, ?_,
    rootBytes, checkpoint, checksum, ?_, ?_, ?_, ?_⟩
  · dsimp only
    rw [hRequestId, hRequestLen]
  · dsimp only
    rw [length_of_slice hBytes, Nat.add_sub_cancel_left]
  · dsimp only
    rw [length_of_slice hCompact, Nat.add_sub_cancel_left]
  · dsimp only
    rw [length_of_slice hWide, hCursor, Nat.add_sub_cancel_left]
  · dsimp only
    rw [List.length_map, parseRoots_length hRoots]
  · dsimp only
    rw [hRequestId]
    exact hAll
  · rw [hRootLen, Nat.add_sub_cancel_left]
  · rw [length_of_slice hCheckpoint, Nat.add_sub_cancel_left]
  · rw [hChecksumLen]
    omega

/-- Records through the log: what an encoder returns is read back as the transaction its
arguments stand for and is accepted by every state that holds what they refer to; and the
parser, whatever bytes it is given, stays inside its words and accepts only records that
their sections fill. -/
theorem transactions_round_trip (P : Primitives) :
    (∀ (g : Geometry) (c : AppendCall) (record : Bytes) (offset : Nat), c.Valid g → c.Room g →
      c.encode P g = .ok record → offset + record.length < 2 ^ 64 →
      parseTransaction P record g offset = .ok (c.transaction P g record offset) ∧
      ∀ s, StateAt s g → c.Welcome s g →
        ∃ prepared, prepareTransactionApply s (c.transaction P g record offset) = .ok prepared) ∧
    (∀ (record : Bytes) (geometry : Option Geometry) (offset : Nat), record.length ≤ maxSliceLen →
      parseTransactionMachine P record geometry offset =
        checked (parseTransactionWithGeometry P record geometry offset)) ∧
    ∀ (record : Bytes) (g : Geometry) (offset : Nat) (tx : ParsedTransaction),
      parseTransaction P record g offset = .ok tx → ∃ hd, FillsRecord record hd tx := by
  refine ⟨?_, ?_, ?_⟩
  · intro g c record offset hv hr h hEnd
    exact ⟨c.parse_encode hv hr h hEnd, fun s hs hw => c.prepare_encode hv hr h hs hw⟩
  · intro record geometry offset hSlice
    exact parseTransactionMachine_eq hSlice geometry offset
  · intro record g offset tx h
    exact fillsRecord_of_parse h

/-- XXH3 and SHA-256 on the two records below and their parts. -/
def callPrimitives : Primitives where
  xxh3 bytes :=
    if bytes.length = 236 then 0x57e95ce4e646eb1b
    else if bytes.length = 203 then 0xa18e573f735382a7
    else if bytes.length = 55 then 0xf563dd630655d779
    else if bytes.length = 57 then 0x8aec78a71328f15a
    else if bytes[4]? = some 0 then 0x4313bb46df11ad32
    else if bytes[4]? = some 1 then 0x587d6782bd066d3d
    else 0x8c438f0e25128850
  sha256 bytes :=
    if bytes.length = 244 then
      digestOfNat 0x1b85def18ccfb0bf8199541271ae59bb045c726856b3f4564fc0db6c865e9f5e
    else digestOfNat 0x9d0eedf8c43d4cfb15c27456d40a8cf0325444b3dea8205c08df65356bc07f91
  compress _ bytes := bytes
  decompress bytes _ := some bytes

/-- The first checkpoint of an empty store, with the message `0`. -/
def firstCall : AppendCall :=
  ⟨"t", "m0", 0, none, .messages none none (ascii "0") 32 0x5dc41ab34ca53c3c⟩

/-- A second one behind it, with the message `1`. -/
def secondCall : AppendCall :=
  ⟨"t", "m1", 1, some "m0", .messages none (some (0, 1, 1)) (ascii "1") 34 0xb9497b42098d120a⟩

/-- The watermarks behind the first checkpoint. -/
def secondGeometry : Geometry := ⟨5, 2, 0, 2, 1⟩

def firstRecord : Bytes := ((firstCall.encode callPrimitives .zero).toOption).getD []

def firstState : StoreState :=
  appended .empty (firstCall.transaction callPrimitives .zero firstRecord 0)

theorem firstState_welcomes : StateAt firstState secondGeometry ∧
    secondCall.Welcome firstState secondGeometry := by
  refine ⟨⟨by decide +kernel, by decide, by decide +kernel⟩, ?_, by decide +kernel,
    by decide +kernel, ?_⟩
  · intro id hParent
    obtain rfl : "m0" = id := Option.some.inj hParent
    exact exists_ok_of_isSome (by decide +kernel)
  · intro identityVersion root messagesVersion hParent
    cases hParent
    exact ⟨by decide +kernel, by decide⟩

/-- Both records are read back, each by the state in front of it. -/
theorem transactions_round_trip_sample : ∃ second,
    firstCall.encode callPrimitives .zero = .ok firstRecord ∧
      parseTransaction callPrimitives firstRecord .zero 0 =
        .ok (firstCall.transaction callPrimitives .zero firstRecord 0) ∧
      applyTransaction .empty (firstCall.transaction callPrimitives .zero firstRecord 0) =
        .ok firstState ∧
      secondCall.encode callPrimitives secondGeometry = .ok second ∧
      parseTransaction callPrimitives second secondGeometry firstRecord.length =
        .ok (secondCall.transaction callPrimitives secondGeometry second firstRecord.length) ∧
      ∃ prepared, prepareTransactionApply firstState
        (secondCall.transaction callPrimitives secondGeometry second firstRecord.length) =
          .ok prepared := by
  have hFirst : firstCall.encode callPrimitives .zero = .ok firstRecord := by decide +kernel
  obtain ⟨second, hSecond, hLen⟩ : ∃ second,
      secondCall.encode callPrimitives secondGeometry = .ok second ∧ second.length = 211 :=
    ⟨_, rfl, by decide +kernel⟩
  have hFirstLen : firstRecord.length = 244 := by decide +kernel
  have hFirstValid : firstCall.Valid .zero := by
    refine ⟨?_, trivial⟩
    rintro first parent body stateLen stateHash hContent
    cases hContent
    decide
  have hFirstRoom : firstCall.Room .zero :=
    ⟨⟨by decide, by decide, by decide⟩, by decide +kernel, by decide +kernel⟩
  have hSecondValid : secondCall.Valid secondGeometry := by
    refine ⟨?_, by decide, by decide⟩
    rintro first parent body stateLen stateHash hContent
    cases hContent
    decide
  have hSecondRoom : secondCall.Room secondGeometry :=
    ⟨⟨by decide, by decide, by decide⟩, by decide +kernel, by decide +kernel⟩
  have hTrips := (transactions_round_trip callPrimitives).1
  have hFirstTrip := hTrips .zero firstCall firstRecord 0 hFirstValid hFirstRoom hFirst
    (by rw [hFirstLen]; decide)
  have hSecondTrip := hTrips secondGeometry secondCall second firstRecord.length hSecondValid
    hSecondRoom hSecond (by rw [hFirstLen, hLen]; decide)
  obtain ⟨prepared, hPrepare⟩ := hFirstTrip.2 .empty ⟨rfl, by decide, by decide⟩
    ⟨by simp [firstCall], rfl, rfl, by simp [firstCall, AppendCall.parent]⟩
  have hApply : applyTransaction .empty
      (firstCall.transaction callPrimitives .zero firstRecord 0) =
        .ok (applyPreparedTransaction .empty prepared) := by
    rw [applyTransaction, hPrepare, ok_bind]
  have hState : applyPreparedTransaction .empty prepared = firstState :=
    (applyTransaction_eq_ok.mp hApply).2
  rw [hState] at hApply
  exact ⟨second, hFirst, hFirstTrip.1, hApply, hSecond, hSecondTrip.1,
    hSecondTrip.2 firstState firstState_welcomes.1 firstState_welcomes.2⟩

end TulyaStore.Checkpoint
