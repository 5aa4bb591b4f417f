import TulyaStore.Checkpoint.RecordCodec

/-!
# What the encoders write

An append adds one of four things to a store (`Addition`): an identity, the first messages
of an empty store, messages on a parent, or messages under a borrowed identity. `deltaOf`
says what each adds at given watermarks, `partsOf` is the record of it, and
`encodeSingleIdentity_inv` and `encodeMessageAppend_inv` say that a successful encoder
returns exactly that record. `parse_partsOf` is the round trip through the log.
-/

namespace TulyaStore.Checkpoint

open Lib

variable {P : Primitives}

/-- What one append adds to the store. -/
inductive Addition where
  | identity (bytes : Bytes)
  | firstMessages (body : Bytes)
  /-- Messages on a parent with this identity version, messages root and messages version. -/
  | childMessages (identityVersion root messagesVersion : Nat) (body : Bytes)
  /-- Messages without a parent, under the identity of the store's first checkpoint. -/
  | rootMessages (identityVersion : Nat) (body : Bytes)
deriving DecidableEq, Repr

def deltaOf (g : Geometry) : Addition → TransactionDelta
  | .identity bytes =>
    { payload := bytes, slots := [compactLeaf g.byteLen bytes.length],
      roots := [(g.versionCount, g.nodeCount,
        if g.versionCount = 0 then none else some (g.versionCount - 1))],
      identityVersion := g.versionCount, messagesVersion := none,
      versionCount := g.versionCount + 1 }
  | .firstMessages body =>
    { payload := ascii "null" ++ body,
      slots := [compactLeaf g.byteLen 4, compactLeaf (g.byteLen + 4) body.length],
      roots := [(g.versionCount, g.nodeCount, none), (g.versionCount + 1, g.nodeCount + 1, none)],
      identityVersion := g.versionCount, messagesVersion := some (g.versionCount + 1),
      versionCount := g.versionCount + 2 }
  | .childMessages identityVersion root messagesVersion body =>
    { payload := ascii "," ++ body,
      slots := [compactLeaf g.byteLen (ascii "," ++ body).length,
        compactBinary (g.nodeCount + 1 - root) 1],
      roots := [(g.versionCount, g.nodeCount + 1, some messagesVersion)],
      identityVersion := identityVersion, messagesVersion := some g.versionCount,
      versionCount := g.versionCount + 1 }
  | .rootMessages identityVersion body =>
    { payload := body, slots := [compactLeaf g.byteLen body.length],
      roots := [(g.versionCount, g.nodeCount, none)],
      identityVersion := identityVersion, messagesVersion := some g.versionCount,
      versionCount := g.versionCount + 1 }

/-- What an encoder checks before it writes an addition at `g`. -/
def Addition.Encodable (g : Geometry) : Addition → Prop
  | .identity bytes => bytes.length < 2 ^ 32 ∧ g.versionCount + 1 < 2 ^ 32
  | .firstMessages body => body.length < 2 ^ 32 ∧ g.versionCount + 2 < 2 ^ 32 ∧
      g.checkpointCount = 0
  | .childMessages _ root _ body => (ascii "," ++ body).length < 2 ^ 32 ∧
      g.versionCount + 1 < 2 ^ 32 ∧ root ≤ g.nodeCount + 1 ∧ g.nodeCount + 1 - root < 2 ^ 32 ∧
      g.checkpointCount ≠ 0
  | .rootMessages _ body => body.length < 2 ^ 32 ∧ g.versionCount + 1 < 2 ^ 32 ∧
      g.checkpointCount ≠ 0

/-- The record of an addition at the watermarks `g`. -/
def partsOf (P : Primitives) (g : Geometry) (head : CheckpointHead) (request : Bytes)
    (a : Addition) : TxParts :=
  let delta := deltaOf g a
  let roots := delta.roots
  { header :=
      { total := txHeaderSize + request.length + delta.payload.length + delta.slots.flatten.length +
          (rootBytes P roots).length + head.recordLen + txChecksumSize,
        versionStart := g.versionCount, versionCount := delta.versionCount,
        checkpointCount := g.checkpointCount + 1, rootCount := roots.length, byteLen := g.byteLen,
        payloadLen := delta.payload.length, nodeCount := g.nodeCount,
        compactNodes := delta.slots.length, wideNodes := 0, wideCount := g.wideCount,
        checkpointRecordLen := head.recordLen, requestLen := request.length },
    request := request, payload := delta.payload, compact := delta.slots.flatten, wide := [],
    roots := roots, head := head, identityVersion := delta.identityVersion,
    messagesVersion := delta.messagesVersion }

section Shape

variable (g : Geometry) (a : Addition)

theorem length_slots_deltaOf : (deltaOf g a).slots.flatten.length =
    (deltaOf g a).slots.length * compactNodeSize := by
  cases a <;> simp [deltaOf, compactNodeSize]

theorem versionCount_deltaOf : (deltaOf g a).versionCount =
    g.versionCount + (deltaOf g a).roots.length := by
  cases a <;> simp [deltaOf]

theorem slots_pos_deltaOf : 0 < (deltaOf g a).slots.length ∧ (deltaOf g a).slots.length ≤ 2 := by
  cases a <;> simp [deltaOf]

theorem total_partsOf (head : CheckpointHead) (request : Bytes) :
    (partsOf P g head request a).header.total = ((partsOf P g head request a).record P).length := by
  rw [TxParts.length_record]
  simp only [partsOf, List.length_nil, Nat.add_zero, txChecksumSize, length_rootBytes]

end Shape

/-- The versions an addition refers to exist. -/
def Addition.Refers (g : Geometry) : Addition → Prop
  | .identity _ => True
  | .firstMessages _ => True
  | .childMessages identityVersion _ messagesVersion _ =>
      identityVersion < g.versionCount ∧ messagesVersion < g.versionCount
  | .rootMessages identityVersion _ => identityVersion < g.versionCount

theorem Addition.Encodable.versionCount {g : Geometry} {a : Addition} (h : a.Encodable g) :
    (deltaOf g a).versionCount ≤ maxValue 32 := by
  cases a <;> simp only [Addition.Encodable, deltaOf, maxValue] at h ⊢ <;> omega

theorem sequential_deltaOf {g : Geometry} {a : Addition} (h : a.Encodable g) (hr : a.Refers g)
    (hNode : g.nodeCount + (deltaOf g a).slots.length < 2 ^ 64) :
    Sequential g.versionCount (deltaOf g a).roots := by
  cases a with
  | identity bytes =>
    simp only [deltaOf, Addition.Encodable, List.length_cons, List.length_nil] at *
    refine ⟨rfl, ⟨?_, ?_, ?_⟩, trivial⟩
    · simp only [maxValue]; omega
    · simp only [noneRoot, maxValue]; omega
    · intro p hp
      by_cases hZero : g.versionCount = 0
      · simp [hZero] at hp
      · simp only [hZero, if_false, Option.mem_def, Option.some.injEq] at hp
        omega
  | firstMessages body =>
    simp only [deltaOf, Addition.Encodable, List.length_cons, List.length_nil] at *
    refine ⟨rfl, ⟨?_, ?_, by simp⟩, rfl, ⟨?_, ?_, by simp⟩, trivial⟩ <;>
      simp only [noneRoot, maxValue] <;> omega
  | childMessages identityVersion root messagesVersion body =>
    simp only [deltaOf, Addition.Encodable, Addition.Refers, List.length_cons,
      List.length_nil] at *
    refine ⟨rfl, ⟨?_, ?_, ?_⟩, trivial⟩
    · simp only [maxValue]; omega
    · simp only [noneRoot, maxValue]; omega
    · intro p hp
      simp only [Option.mem_def, Option.some.injEq] at hp
      omega
  | rootMessages identityVersion body =>
    simp only [deltaOf, Addition.Encodable, List.length_cons, List.length_nil] at *
    refine ⟨rfl, ⟨?_, ?_, by simp⟩, trivial⟩ <;> simp only [noneRoot, maxValue] <;> omega

theorem versionsFit_deltaOf {g : Geometry} {a : Addition} (h : a.Encodable g) (hr : a.Refers g) :
    VersionsFit (deltaOf g a).versionCount (deltaOf g a).identityVersion
      (deltaOf g a).messagesVersion := by
  refine ⟨h.versionCount, ?_, ?_⟩ <;> cases a <;> simp only [deltaOf, Addition.Refers] at hr ⊢
  all_goals first
    | omega
    | (intro v hv; simp only [Option.mem_def, Option.some.injEq, reduceCtorEq] at hv; omega)
    | simp

/-- The watermarks are 64-bit values. -/
structure Geometry.Fits (g : Geometry) : Prop where
  byteLen : g.byteLen < 2 ^ 64
  nodeCount : g.nodeCount < 2 ^ 64
  wideCount : g.wideCount < 2 ^ 64

/-- An addition under a valid head and request id, at watermarks where it can be encoded. -/
structure Encoded (P : Primitives) (g : Geometry) (head : CheckpointHead) (request : Bytes)
    (a : Addition) : Prop where
  geometryFits : g.Fits
  headFits : head.Fits
  encodable : a.Encodable g
  refers : a.Refers g
  requestMax : request.length ≤ maxRequestIdBytes
  checkpointCount : g.checkpointCount + 1 < 2 ^ 32
  total : ((partsOf P g head request a).record P).length < 2 ^ 32

section RoundTrip

variable {g : Geometry} {head : CheckpointHead} {request : Bytes} {a : Addition}

theorem Encoded.headerFits (h : Encoded P g head request a) :
    (partsOf P g head request a).header.Fits := by
  have hTotal := h.total
  have hPayload : (deltaOf g a).payload.length < 2 ^ 32 := by
    have hLen := (partsOf P g head request a).length_record P
    simp only [partsOf] at hLen hTotal
    omega
  have hVersions : (deltaOf g a).versionCount < 2 ^ 32 :=
    lt_of_le_of_lt h.encodable.versionCount (maxValue_lt 32)
  have hCount := versionCount_deltaOf g a
  have hSlots := slots_pos_deltaOf g a
  have hRequest : request.length < 2 ^ 32 := by
    have hMax := h.requestMax
    simp only [maxRequestIdBytes] at hMax
    omega
  rw [← total_partsOf] at hTotal
  have hStart : g.versionCount < 2 ^ 32 := by omega
  have hRoots : (deltaOf g a).roots.length < 2 ^ 32 := by omega
  have hNodes : (deltaOf g a).slots.length < 2 ^ 32 := by omega
  have h4 : ∀ {n : Nat}, n < 2 ^ 32 → n < 256 ^ 4 := by omega
  have h8 : ∀ {n : Nat}, n < 2 ^ 64 → n < 256 ^ 8 := by omega
  have hPayload8 : (deltaOf g a).payload.length < 2 ^ 64 := by omega
  exact
    { total := h4 hTotal
      versionStart := h4 hStart
      versionCount := h4 hVersions
      checkpointCount := h4 h.checkpointCount
      rootCount := h4 hRoots
      byteLen := h8 h.geometryFits.byteLen
      payloadLen := h8 hPayload8
      nodeCount := h8 h.geometryFits.nodeCount
      compactNodes := h4 hNodes
      wideNodes := by simp [partsOf]
      wideCount := h8 h.geometryFits.wideCount
      checkpointRecordLen := h.headFits.recordLen_lt
      requestLen := h4 hRequest }

theorem Encoded.fits (h : Encoded P g head request a)
    (hNode : g.nodeCount + (deltaOf g a).slots.length < 2 ^ 64) :
    (partsOf P g head request a).Fits P where
  header := h.headerFits
  total := total_partsOf g a head request
  requestLen := rfl
  requestMax := h.requestMax
  payloadLen := rfl
  compactLen := (length_slots_deltaOf g a).symm
  wideLen := by simp [partsOf]
  rootCount := rfl
  roots := sequential_deltaOf h.encodable h.refers hNode
  versionCount := versionCount_deltaOf g a
  recordLen := rfl
  head := h.headFits
  versions := versionsFit_deltaOf h.encodable h.refers
  checkpointCount := Nat.succ_ne_zero _

theorem Encoded.continues (h : Encoded P g head request a) :
    checkContinues (partsOf P g head request a).header (some g) = .ok () := by
  have hCount := h.checkpointCount
  rw [checkContinues_some]
  refine ⟨by omega, rfl, rfl, rfl, rfl, rfl⟩

/-- The log record of an addition, read back at the watermarks it was written for. -/
theorem parse_partsOf (h : Encoded P g head request a) (hr : (partsOf P g head request a).InRange)
    {startOffset : Nat}
    (hEnd : startOffset + ((partsOf P g head request a).record P).length < 2 ^ 64) :
    parseTransaction P ((partsOf P g head request a).record P) g startOffset =
      .ok ((partsOf P g head request a).parsed P startOffset) :=
  parse_record (h.fits hr.nodeEnd) hr h.continues hEnd

/-- If the parser accepts the record of an addition, its watermarks are in range and the
result is the addition's. -/
theorem parse_partsOf_inv (h : Encoded P g head request a) {geometry : Option Geometry}
    {startOffset : Nat} {tx : ParsedTransaction}
    (hParse : parseTransactionWithGeometry P ((partsOf P g head request a).record P) geometry
      startOffset = .ok tx) :
    (partsOf P g head request a).InRange ∧
      checkContinues (partsOf P g head request a).header geometry = .ok () ∧
      startOffset + ((partsOf P g head request a).record P).length < 2 ^ 64 ∧
      tx = (partsOf P g head request a).parsed P startOffset := by
  -- the header alone decides that the node watermark is in range, before the roots are read
  have hNode : g.nodeCount + (deltaOf g a).slots.length < 2 ^ 64 := by
    obtain ⟨hd, s, cp, hEnv, _, _, _, hNode, _⟩ := parse_inv hParse
    obtain ⟨hHead, _⟩ := checkEnvelope_inv hEnv
    rw [TxParts.record_eq, parseHeader_bytes h.headerFits, Except.ok.injEq] at hHead
    subst hHead
    exact hNode
  exact inRange_of_parse (h.fits hNode) hParse

end RoundTrip

/-! ## The encoders -/

theorem assembleTransaction_inv {label : String} {g : Geometry} {head : CheckpointHead}
    {a : Addition} {record : Bytes}
    (h : assembleTransaction P label g (g.checkpointCount + 1) head (deltaOf g a) = .ok record) :
    record = (partsOf P g head [] a).record P ∧ record.length < 2 ^ 32 := by
  have hCount : (deltaOf g a).versionCount - g.versionCount = (deltaOf g a).roots.length := by
    have hVersions := versionCount_deltaOf g a
    omega
  simp only [assembleTransaction, bind_eq_ok, okOr_eq_ok, tryFrom_eq_some, Except.ok.injEq,
    hCount] at h
  obtain ⟨_, ⟨hLt, rfl⟩, rfl⟩ := h
  refine ⟨?_, ?_⟩
  · simp [TxParts.record, TxParts.body, partsOf, rootBytes, List.append_assoc]
  · simp only [length_withChecksum, List.length_append, TxHeader.length_bytes]
    rw [width, txChecksumSize] at hLt
    simpa using hLt

theorem checkpointCountField_inv {g : Geometry} {limit : String} {count : Nat}
    (h : checkpointCountField g limit = .ok count) :
    count = g.checkpointCount + 1 ∧ g.checkpointCount + 1 < 2 ^ 32 := by
  simp only [checkpointCountField, bind_eq_ok, okOr_eq_ok, checkedAdd_eq_some, tryFrom_eq_some,
    width] at h
  obtain ⟨_, ⟨_, rfl⟩, hLt, rfl⟩ := h
  exact ⟨rfl, hLt⟩

theorem versionStartField_inv {g : Geometry} {start : Nat} (h : versionStartField g = .ok start) :
    start = g.versionCount := by
  simp only [versionStartField, okOr_eq_ok, tryFrom_eq_some] at h
  exact h.2

/-- The head of an identity checkpoint. -/
def identityHead (P : Primitives) (threadId checkpointId : String) (checkpointNo : UInt32)
    (parentCheckpointId : Option String) (identity : Bytes) : CheckpointHead where
  threadId := threadId
  checkpointId := checkpointId
  checkpointNo := checkpointNo
  parentCheckpointId := parentCheckpointId
  stateLen := (identityState identity).length
  stateHash := P.xxh3 (identityState identity)

theorem length_identityState (identity : Bytes) :
    (identityState identity).length = identity.length + 27 := by
  have hPrefix : identityPrefix.length = 12 := rfl
  have hSuffix : emptyMessagesSuffix.length = 15 := rfl
  simp only [identityState, List.length_append, hPrefix, hSuffix]
  omega

theorem encodeSingleIdentity_inv {g : Geometry} (hg : g.Fits) {threadId checkpointId : String}
    {checkpointNo : UInt32} {parent : Option String} {identity record : Bytes}
    (h : encodeSingleIdentityTransaction P g threadId checkpointId checkpointNo parent identity =
      .ok record) :
    Encoded P g (identityHead P threadId checkpointId checkpointNo parent identity) []
        (.identity identity) ∧
      record = (partsOf P g (identityHead P threadId checkpointId checkpointNo parent identity) []
        (.identity identity)).record P := by
  simp only [encodeSingleIdentityTransaction, bind_eq_ok, okOr_eq_ok, checkedAdd_eq_some,
    tryFrom_eq_some, width, validateCheckpointIdentifier_eq_ok,
    validateParentIdentifier_eq_ok] at h
  obtain ⟨_, hThread, _, hCheckpoint, _, hParent, start, hStart, _, ⟨hVersion, rfl⟩, count, hCount,
    _, ⟨hLen, rfl⟩, hAssemble⟩ := h
  obtain rfl := versionStartField_inv hStart
  obtain ⟨rfl, hCountLt⟩ := checkpointCountField_inv hCount
  have hBoth := @assembleTransaction_inv P "transaction" g
    (identityHead P threadId checkpointId checkpointNo parent identity) (.identity identity) record
    hAssemble
  have hRecord := hBoth.1
  have hTotal := hBoth.2
  rw [hRecord] at hTotal
  have hState : (identityState identity).length < 2 ^ 64 := by
    rw [length_identityState]
    omega
  have hHead : (identityHead P threadId checkpointId checkpointNo parent identity).Fits :=
    ⟨hThread, hCheckpoint, hParent, hState⟩
  exact ⟨⟨hg, hHead, ⟨hLen, hVersion⟩, trivial, Nat.zero_le _, hCountLt, hTotal⟩, hRecord⟩

/-- What a message append adds, by the case the encoder takes. -/
def messageAddition (g : Geometry) (first : Option CheckpointInfo)
    (parent : Option (Nat × Nat × Nat)) (body : Bytes) : Addition :=
  if g.checkpointCount = 0 then .firstMessages body
  else match parent with
    | some (identityVersion, root, messagesVersion) =>
      .childMessages identityVersion root messagesVersion body
    | none => .rootMessages ((first.map CheckpointInfo.identityVersion).getD 0) body

/-- The head of a message checkpoint. -/
def messageHead (threadId checkpointId : String) (checkpointNo : UInt32)
    (parentCheckpointId : Option String) (stateLen : Nat) (stateHash : UInt64) : CheckpointHead where
  threadId := threadId
  checkpointId := checkpointId
  checkpointNo := checkpointNo
  parentCheckpointId := parentCheckpointId
  stateLen := stateLen
  stateHash := stateHash

theorem firstMessageDelta_inv {g : Geometry} {body : Bytes} {delta : TransactionDelta}
    (hZero : g.checkpointCount = 0) (h : firstMessageDelta g g.versionCount body = .ok delta) :
    delta = deltaOf g (.firstMessages body) ∧ (Addition.firstMessages body).Encodable g := by
  simp only [firstMessageDelta, bind_eq_ok, okOr_eq_ok, checkedAdd_eq_some, tryFrom_eq_some, width,
    Except.ok.injEq] at h
  obtain ⟨_, ⟨_, rfl⟩, _, ⟨_, rfl⟩, _, ⟨hBody, rfl⟩, _, ⟨_, rfl⟩, _, ⟨hVersion, rfl⟩, rfl⟩ := h
  exact ⟨rfl, hBody, hVersion, hZero⟩

theorem childMessageDelta_inv {g : Geometry} {identityVersion root messagesVersion : Nat}
    {body : Bytes} {delta : TransactionDelta} (hZero : g.checkpointCount ≠ 0)
    (h : childMessageDelta g g.versionCount (identityVersion, root, messagesVersion) body =
      .ok delta) :
    delta = deltaOf g (.childMessages identityVersion root messagesVersion body) ∧
      (Addition.childMessages identityVersion root messagesVersion body).Encodable g := by
  simp only [childMessageDelta, bind_eq_ok, okOr_eq_ok, checkedAdd_eq_some, tryFrom_eq_some, width,
    failIf_eq_ok, Except.ok.injEq, Nat.not_lt] at h
  obtain ⟨_, ⟨_, rfl⟩, _, ⟨hBody, rfl⟩, _, hPrior, _, ⟨hDelta, rfl⟩, _, ⟨_, rfl⟩, _,
    ⟨hVersion, rfl⟩, rfl⟩ := h
  refine ⟨?_, hBody, hVersion, hPrior, hDelta, hZero⟩
  simp only [deltaOf, Nat.add_sub_cancel_left]

theorem rootMessageDelta_inv {g : Geometry} {first : Option CheckpointInfo} {body : Bytes}
    {delta : TransactionDelta} (hZero : g.checkpointCount ≠ 0)
    (h : rootMessageDelta g g.versionCount first body = .ok delta) :
    first.isSome = true ∧ delta = deltaOf g
      (.rootMessages ((first.map CheckpointInfo.identityVersion).getD 0) body) ∧
      (Addition.rootMessages ((first.map CheckpointInfo.identityVersion).getD 0) body).Encodable g := by
  simp only [rootMessageDelta, bind_eq_ok, okOr_eq_ok, checkedAdd_eq_some, tryFrom_eq_some, width,
    Except.ok.injEq] at h
  obtain ⟨first', rfl, _, ⟨hBody, rfl⟩, _, ⟨hVersion, rfl⟩, rfl⟩ := h
  exact ⟨rfl, rfl, hBody, hVersion, hZero⟩

/-- The delta of a message append is the one of its addition. A root message append needs a
first checkpoint, and only an append with a parent checkpoint has a parent. -/
theorem messageDelta_inv {g : Geometry} {first : Option CheckpointInfo}
    {parentId : Option String} {parent : Option (Nat × Nat × Nat)} {body : Bytes}
    {delta : TransactionDelta}
    (h : messageDelta g first parentId parent g.versionCount body = .ok delta) :
    delta = deltaOf g (messageAddition g first parent body) ∧
      (messageAddition g first parent body).Encodable g ∧ parentId.isSome = parent.isSome ∧
      (g.checkpointCount = 0 ∨ parent.isSome = true ∨ first.isSome = true) := by
  unfold messageDelta at h
  unfold messageAddition
  by_cases hZero : g.checkpointCount = 0
  · rw [if_pos hZero, bind_eq_ok] at h
    obtain ⟨_, hNone, hDelta⟩ := h
    rw [failIf_eq_ok] at hNone
    obtain ⟨hEq, hEnc⟩ := firstMessageDelta_inv hZero hDelta
    rw [if_pos hZero]
    refine ⟨hEq, hEnc, ?_, .inl hZero⟩
    cases parent <;> cases parentId <;> simp_all
  · rw [if_neg hZero] at h
    rw [if_neg hZero]
    cases parent with
    | some parent =>
      obtain ⟨_, hSome, hDelta⟩ := bind_eq_ok.mp h
      rw [failIf_eq_ok] at hSome
      obtain ⟨hEq, hEnc⟩ := childMessageDelta_inv hZero hDelta
      refine ⟨hEq, hEnc, ?_, .inr (.inl rfl)⟩
      cases parentId <;> simp_all
    | none =>
      obtain ⟨_, hNone, hDelta⟩ := bind_eq_ok.mp h
      rw [failIf_eq_ok] at hNone
      obtain ⟨hFirst, hEq, hEnc⟩ := rootMessageDelta_inv hZero hDelta
      refine ⟨hEq, hEnc, ?_, .inr (.inr hFirst)⟩
      cases parentId <;> simp_all

theorem encodeMessageAppend_inv {g : Geometry} (hg : g.Fits) {first : Option CheckpointInfo}
    {threadId checkpointId : String} {checkpointNo : UInt32} {parentId : Option String}
    {parent : Option (Nat × Nat × Nat)} {body record : Bytes} {stateLen : Nat} {stateHash : UInt64}
    (hState : stateLen < 2 ^ 64) (hRefers : (messageAddition g first parent body).Refers g)
    (h : encodeMessageAppendTransaction P g first threadId checkpointId checkpointNo parentId
      parent body stateLen stateHash = .ok record) :
    Encoded P g (messageHead threadId checkpointId checkpointNo parentId stateLen stateHash) []
        (messageAddition g first parent body) ∧
      record = (partsOf P g (messageHead threadId checkpointId checkpointNo parentId stateLen
        stateHash) [] (messageAddition g first parent body)).record P ∧
      body ≠ [] ∧ parentId.isSome = parent.isSome ∧
      (g.checkpointCount = 0 ∨ parent.isSome = true ∨ first.isSome = true) := by
  simp only [encodeMessageAppendTransaction, bind_eq_ok, validateCheckpointIdentifier_eq_ok,
    validateParentIdentifier_eq_ok, failIf_eq_ok, List.isEmpty_iff] at h
  obtain ⟨_, hThread, _, hCheckpoint, _, hParent, _, hBody, start, hStart, count, hCount, delta,
    hDelta, hAssemble⟩ := h
  obtain rfl := versionStartField_inv hStart
  obtain ⟨rfl, hCountLt⟩ := checkpointCountField_inv hCount
  obtain ⟨rfl, hEnc, hParents, hFirst⟩ := messageDelta_inv hDelta
  have hBoth := @assembleTransaction_inv P "message transaction" g
    (messageHead threadId checkpointId checkpointNo parentId stateLen stateHash)
    (messageAddition g first parent body) record hAssemble
  have hRecord := hBoth.1
  have hTotal := hBoth.2
  rw [hRecord] at hTotal
  have hHead : (messageHead threadId checkpointId checkpointNo parentId stateLen
      stateHash).Fits := ⟨hThread, hCheckpoint, hParent, hState⟩
  exact ⟨⟨hg, hHead, hEnc, hRefers, Nat.zero_le _, hCountLt, hTotal⟩, hRecord, hBody, hParents, hFirst⟩

end TulyaStore.Checkpoint
