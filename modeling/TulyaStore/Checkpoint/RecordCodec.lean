import TulyaStore.Checkpoint.Record

/-!
# Records read back

`parse_layout`: a record laid out from a header that fits its fields and sections of the
lengths the header names is accepted, and the parser returns exactly those sections. The
encoders lay out such records, so what they write is what recovery reads
(`parse_encodeSingleIdentity`, `parse_encodeMessageAppend`).
-/

namespace TulyaStore.Checkpoint

open Lib

variable {P : Primitives}

/-! ## Fields -/

theorem readU32_of {data : Bytes} {off v : Nat} (h : readLe 4 data off = some v) :
    readU32 data off = .ok v := by
  rw [readU32, h, okOr_some]

theorem readU64_of {data : Bytes} {off v : Nat} (h : readLe 8 data off = some v) :
    readU64 data off = .ok v := by
  rw [readU64, h, okOr_some]

@[simp] theorem length_withChecksum (body : Bytes) :
    (withChecksum P body).length = body.length + 8 := by
  simp [withChecksum]

theorem take_withChecksum (body : Bytes) :
    (withChecksum P body).take body.length = body := by
  simp [withChecksum]

/-- The stored checksum is the one of the bytes before it. -/
theorem readU64_withChecksum (body : Bytes) :
    readU64 (withChecksum P body) body.length = .ok (P.xxh3 body).toNat := by
  have hHere : readLe 8 (leBytes 8 (P.xxh3 body).toNat ++ []) 0 = some (P.xxh3 body).toNat :=
    readLe_here [] (P.xxh3 body).toNat_lt
  have hSkip := readLe_skip (w := 8) body (leBytes 8 (P.xxh3 body).toNat) le_rfl
  rw [Nat.sub_self] at hSkip
  rw [List.append_nil] at hHere
  rw [readU64, withChecksum, hSkip, hHere, okOr_some]

theorem readU32_withChecksum {body : Bytes} {off v : Nat} (h : readLe 4 body off = some v) :
    readU32 (withChecksum P body) off = .ok v := by
  rw [readU32, withChecksum, readLe_append h, okOr_some]

theorem readU64_withChecksum_of {body : Bytes} {off v : Nat} (h : readLe 8 body off = some v) :
    readU64 (withChecksum P body) off = .ok v := by
  rw [readU64, withChecksum, readLe_append h, okOr_some]

theorem take_magic {magic : Bytes} (h : magic.length = 4) (ys : Bytes) :
    (magic ++ ys).take 4 = magic := by
  rw [← h, List.take_left]

theorem readLe_txMagic {w off : Nat} (ys : Bytes) (h : 4 ≤ off) :
    readLe w (txMagic ++ ys) off = readLe w ys (off - 4) :=
  readLe_skip txMagic ys h

theorem readLe_rootMagic {w off : Nat} (ys : Bytes) (h : 4 ≤ off) :
    readLe w (rootMagic ++ ys) off = readLe w ys (off - 4) :=
  readLe_skip rootMagic ys h

theorem readLe_checkpointMagic {w off : Nat} (ys : Bytes) (h : 4 ≤ off) :
    readLe w (checkpointMagic ++ ys) off = readLe w ys (off - 4) :=
  readLe_skip checkpointMagic ys h

@[simp] theorem length_txMagic : txMagic.length = 4 := rfl

@[simp] theorem length_rootMagic : rootMagic.length = 4 := rfl

@[simp] theorem length_checkpointMagic : checkpointMagic.length = 4 := rfl

@[simp] theorem length_compactLeaf (offset length : Nat) :
    (compactLeaf offset length).length = compactNodeSize := by
  simp [compactLeaf, compactNodeSize]

@[simp] theorem length_compactBinary (l r : Nat) :
    (compactBinary l r).length = compactNodeSize := by
  simp [compactBinary, compactNodeSize]

/-! ## Headers -/

/-- Every header field fits the width it is written in. -/
structure TxHeader.Fits (h : TxHeader) : Prop where
  total : h.total < 256 ^ 4
  versionStart : h.versionStart < 256 ^ 4
  versionCount : h.versionCount < 256 ^ 4
  checkpointCount : h.checkpointCount < 256 ^ 4
  rootCount : h.rootCount < 256 ^ 4
  byteLen : h.byteLen < 256 ^ 8
  payloadLen : h.payloadLen < 256 ^ 8
  nodeCount : h.nodeCount < 256 ^ 8
  compactNodes : h.compactNodes < 256 ^ 4
  wideNodes : h.wideNodes < 256 ^ 4
  wideCount : h.wideCount < 256 ^ 8
  checkpointRecordLen : h.checkpointRecordLen < 256 ^ 4
  requestLen : h.requestLen < 256 ^ 4

@[simp] theorem TxHeader.length_bytes (h : TxHeader) : h.bytes.length = txHeaderSize := by
  simp [TxHeader.bytes, txHeaderSize]

theorem parseHeader_bytes {h : TxHeader} (hf : h.Fits) (rest : Bytes) :
    parseHeader (h.bytes ++ rest) = .ok h := by
  obtain ⟨h1, h2, h3, h4, h5, h6, h7, h8, h9, h10, h11, h12, h13⟩ := hf
  simp only [parseHeader, TxHeader.bytes, readU32, readU64, List.append_assoc, readLe_txMagic,
    readLe_leBytes_skip, readLe_here, Nat.reduceLeDiff, Nat.reduceSub, okOr_some, ok_bind,
    h1, h2, h3, h4, h5, h6, h7, h8, h9, h10, h11, h12, h13]

/-! ## Roots -/

/-- A new version whose fields fit, with a parent among the earlier ones. -/
structure RootFits (r : Nat × Nat × Option Nat) : Prop where
  id : r.1 < maxValue 32
  root : r.2.1 < noneRoot
  parent : ∀ p ∈ r.2.2, p < r.1

theorem maxValue_lt (w : Nat) : maxValue w < 2 ^ w := by
  have hPos : 0 < 2 ^ w := Nat.two_pow_pos w
  unfold maxValue
  omega

theorem optionalField_getD {none' : Nat} {x : Option Nat} (h : ∀ v ∈ x, v ≠ none') :
    optionalField none' (x.getD none') = x := by
  cases x with
  | none => simp [optionalField]
  | some v =>
    have hv : v ≠ none' := h v rfl
    simp [optionalField, hv]

theorem parseRoot_rootRecord {r : Nat × Nat × Option Nat} (hr : RootFits r) :
    parseRoot P (rootRecord P r.1 r.2.1 r.2.2) r.1 = .ok (some r.2.1, r.2.2) := by
  obtain ⟨version, root, parent⟩ := r
  obtain ⟨hId, hRoot, hParent⟩ := hr
  simp only at hId hRoot hParent ⊢
  have hMax : maxValue 32 < 256 ^ 4 := maxValue_lt 32
  have hMax' : maxValue 64 < 256 ^ 8 := maxValue_lt 64
  have hVersion : version < 256 ^ 4 := hId.trans hMax
  have hRootLt : root < 256 ^ 8 := hRoot.trans hMax'
  have hRaw : parent.getD noneParent < 256 ^ 4 := by
    cases parent with
    | none => exact hMax
    | some p => exact (hParent p rfl).trans hVersion
  have hSome : optionalField noneParent (parent.getD noneParent) = parent :=
    optionalField_getD (fun p hp => ((hParent p hp).trans hId).ne)
  have hSome' : optionalField noneRoot root = some root := by
    simp [optionalField, hRoot.ne]
  have hPrior : ¬ (parent.getD noneParent ≠ noneParent ∧ ¬ parent.getD noneParent < version) := by
    rintro ⟨hNe, hLt⟩
    cases parent with
    | none => exact hNe rfl
    | some p => exact hLt (hParent p rfl)
  set body := rootMagic ++ leBytes 4 version ++ leBytes 8 root ++
    leBytes 4 (parent.getD noneParent) ++ leBytes 4 0 with hBody
  have hLen : body.length = 24 := by simp [hBody]
  have hMagic : (withChecksum P body).take 4 = rootMagic := by
    simp only [withChecksum, hBody, List.append_assoc]
    exact take_magic rfl _
  have hChecksum : readU64 (withChecksum P body) 24 = .ok (P.xxh3 body).toNat := by
    rw [← hLen]
    exact readU64_withChecksum body
  have hTake : (withChecksum P body).take 24 = body := by
    rw [← hLen]
    exact take_withChecksum body
  have hIdAt : readU32 (withChecksum P body) 4 = .ok version := by
    refine readU32_withChecksum ?_
    simp only [hBody, List.append_assoc, readLe_rootMagic, readLe_here, Nat.reduceLeDiff,
      Nat.reduceSub, hVersion]
  have hRootAt : readU64 (withChecksum P body) 8 = .ok root := by
    refine readU64_withChecksum_of ?_
    simp only [hBody, List.append_assoc, readLe_rootMagic, readLe_here, Nat.reduceLeDiff,
      Nat.reduceSub, hRootLt, readLe_leBytes_skip]
  have hParentAt : readU32 (withChecksum P body) 16 = .ok (parent.getD noneParent) := by
    refine readU32_withChecksum ?_
    simp only [hBody, List.append_assoc, readLe_rootMagic, readLe_here, Nat.reduceLeDiff,
      Nat.reduceSub, hRaw, readLe_leBytes_skip]
  have hShape : ¬ ((withChecksum P body).length ≠ rootRecordSize ∨
      (withChecksum P body).take 4 ≠ rootMagic) := by
    simp [hLen, hMagic, rootRecordSize]
  unfold parseRoot rootRecord
  rw [← hBody]
  simp only [failIf_neg hShape, hChecksum, hTake, hIdAt, hRootAt, hParentAt, failIf_neg hPrior,
    hSome, hSome', ok_bind, ne_eq, not_true_eq_false, not_false_eq_true, failIf_neg]

@[simp] theorem length_rootRecord (version root : Nat) (parent : Option Nat) :
    (rootRecord P version root parent).length = rootRecordSize := by
  simp [rootRecord, rootRecordSize]

/-- The root records of consecutive versions. -/
def rootBytes (P : Primitives) (roots : List (Nat × Nat × Option Nat)) : Bytes :=
  (roots.map (fun r => rootRecord P r.1 r.2.1 r.2.2)).flatten

@[simp] theorem length_rootBytes (roots : List (Nat × Nat × Option Nat)) :
    (rootBytes P roots).length = roots.length * rootRecordSize := by
  induction roots with
  | nil => simp [rootBytes]
  | cons r roots ih =>
    simp only [rootBytes, List.map_cons, List.flatten_cons, List.length_append, length_rootRecord,
      List.length_cons] at ih ⊢
    rw [ih, Nat.succ_mul, Nat.add_comm]

/-- The versions are numbered from `start` on. -/
def Sequential : Nat → List (Nat × Nat × Option Nat) → Prop
  | _, [] => True
  | start, r :: roots => r.1 = start ∧ RootFits r ∧ Sequential (start + 1) roots

theorem parseRoots_rootBytes {roots : List (Nat × Nat × Option Nat)} {start : Nat}
    (h : Sequential start roots) (pre post : Bytes) :
    parseRoots P (pre ++ (rootBytes P roots ++ post)) roots.length start pre.length =
      .ok (roots.map (fun r => (some r.2.1, r.2.2))) := by
  induction roots generalizing start pre with
  | nil => rfl
  | cons r roots ih =>
    obtain ⟨rfl, hFits, hRest⟩ := h
    have hBytes : rootBytes P (r :: roots) ++ post =
        rootRecord P r.1 r.2.1 r.2.2 ++ (rootBytes P roots ++ post) := by
      simp [rootBytes]
    have hSlot : slice (pre ++ (rootRecord P r.1 r.2.1 r.2.2 ++ (rootBytes P roots ++ post)))
        pre.length (pre.length + rootRecordSize) = some (rootRecord P r.1 r.2.1 r.2.2) :=
      slice_at rfl (by simp)
    have hTail := ih hRest (pre ++ rootRecord P r.1 r.2.1 r.2.2)
    rw [List.append_assoc, List.length_append, length_rootRecord] at hTail
    rw [hBytes, List.length_cons, parseRoots, hSlot]
    simp only [okOr_some, ok_bind, parseRoot_rootRecord hFits, hTail, List.map_cons]

/-! ## Checkpoint records -/

/-- The metadata of a checkpoint head under its ordinal and versions. -/
def CheckpointHead.info (head : CheckpointHead) (ordinal identityVersion : Nat)
    (messagesVersion : Option Nat) : CheckpointInfo where
  ordinal := ordinal
  threadId := head.threadId
  checkpointNo := head.checkpointNo
  checkpointId := head.checkpointId
  parentCheckpointId := head.parentCheckpointId
  identityVersion := identityVersion
  messagesVersion := messagesVersion
  resultVersion := none
  logicalStateLen := head.stateLen
  stateHash := head.stateHash

/-- The identifier is one `validateCheckpointIdentifier` accepts. -/
def ValidIdentifier (value : String) : Prop :=
  0 < (utf8 value).length ∧ (utf8 value).length ≤ maxCheckpointIdentifierBytes

structure CheckpointHead.Fits (head : CheckpointHead) : Prop where
  threadId : ValidIdentifier head.threadId
  checkpointId : ValidIdentifier head.checkpointId
  parent : ∀ parent ∈ head.parentCheckpointId, ValidIdentifier parent
  stateLen : head.stateLen < 2 ^ 64

theorem validateCheckpointIdentifier_eq_ok {value label : String} {u : Unit} :
    validateCheckpointIdentifier value label = .ok u ↔ ValidIdentifier value := by
  rw [validateCheckpointIdentifier, failIf_eq_ok, ValidIdentifier]
  simp only [List.isEmpty_iff, gt_iff_lt, not_or, Nat.not_lt, List.length_pos_iff]

theorem validateParentIdentifier_eq_ok {parent : Option String} {u : Unit} :
    validateParentIdentifier parent = .ok u ↔ ∀ p ∈ parent, ValidIdentifier p := by
  cases parent with
  | none => simp [validateParentIdentifier]
  | some p => simp [validateParentIdentifier, validateCheckpointIdentifier_eq_ok]

theorem CheckpointHead.Fits.parentId_le {head : CheckpointHead} (h : head.Fits) :
    (utf8 head.parentId).length ≤ maxCheckpointIdentifierBytes := by
  unfold CheckpointHead.parentId
  cases hParent : head.parentCheckpointId with
  | none => simp [utf8]
  | some p => exact (h.parent p hParent).2

theorem CheckpointHead.Fits.recordLen_lt {head : CheckpointHead} (h : head.Fits) :
    head.recordLen < 256 ^ 4 := by
  have h1 := h.threadId.2
  have h2 := h.checkpointId.2
  have h3 := h.parentId_le
  simp only [CheckpointHead.recordLen, checkpointPrefixSize, txChecksumSize,
    maxCheckpointIdentifierBytes] at *
  omega

/-- The parent string names the parent: it is empty exactly when there is none. -/
theorem CheckpointHead.Fits.parent_eq {head : CheckpointHead} (h : head.Fits) :
    (if (utf8 head.parentId).isEmpty then none else some head.parentId) =
      head.parentCheckpointId := by
  unfold CheckpointHead.parentId
  cases hParent : head.parentCheckpointId with
  | none => simp [utf8]
  | some p =>
    have hPos : 0 < (utf8 p).length := (h.parent p hParent).1
    have hNe : (utf8 p).isEmpty = false := by
      rw [List.isEmpty_eq_false_iff]
      exact List.length_pos_iff.mp hPos
    simp [hNe]

@[simp] theorem CheckpointFields.length_bytes (f : CheckpointFields) :
    f.bytes.length = checkpointPrefixSize := by
  simp [CheckpointFields.bytes, checkpointPrefixSize]

@[simp] theorem length_checkpointRecord (head : CheckpointHead) (identityVersion : Nat)
    (messagesVersion : Option Nat) :
    (checkpointRecord P head identityVersion messagesVersion).length = head.recordLen := by
  simp only [checkpointRecord, length_withChecksum, List.length_append,
    CheckpointFields.length_bytes, CheckpointHead.recordLen, txChecksumSize]

/-- Every field of a checkpoint record fits its width. -/
structure CheckpointFields.Fits (f : CheckpointFields) : Prop where
  recordLen : f.recordLen < 256 ^ 4
  checkpointNo : f.checkpointNo < 256 ^ 4
  identity : f.identity < 256 ^ 4
  messages : f.messages < 256 ^ 4
  result : f.result < 256 ^ 4
  threadLen : f.threadLen < 256 ^ 4
  checkpointLen : f.checkpointLen < 256 ^ 4
  parentLen : f.parentLen < 256 ^ 4
  stateLen : f.stateLen < 256 ^ 8
  stateHash : f.stateHash < 256 ^ 8

theorem parseCheckpointFields_bytes {f : CheckpointFields} (hf : f.Fits) (rest : Bytes) :
    parseCheckpointFields (f.bytes ++ rest) = .ok f := by
  obtain ⟨h1, h2, h3, h4, h5, h6, h7, h8, h9, h10⟩ := hf
  simp only [parseCheckpointFields, CheckpointFields.bytes, readU32, readU64, List.append_assoc,
    readLe_checkpointMagic, readLe_leBytes_skip, readLe_here, Nat.reduceLeDiff, Nat.reduceSub,
    okOr_some, ok_bind, h1, h2, h3, h4, h5, h6, h7, h8, h9, h10]

theorem optionalVersion_getD {versionCount : Nat} {version : Option Nat}
    (hCount : versionCount ≤ maxValue 32) (h : ∀ v ∈ version, v < versionCount) :
    optionalVersion versionCount (version.getD noneVersion) = .ok version := by
  have hSome : optionalField noneVersion (version.getD noneVersion) = version :=
    optionalField_getD (fun v hv => (lt_of_lt_of_le (h v hv) hCount).ne)
  have hBound : ¬ (version.getD noneVersion ≠ noneVersion ∧
      ¬ version.getD noneVersion < versionCount) := by
    rintro ⟨hNe, hLt⟩
    cases version with
    | none => exact hNe rfl
    | some v => exact hLt (h v rfl)
  rw [optionalVersion, failIf_neg hBound, ok_bind, hSome]

theorem readString_at {pre post : Bytes} {s : String} {a b : Nat} {outside notUtf8 : String}
    (ha : a = pre.length) (hb : b = pre.length + (utf8 s).length) :
    readString (pre ++ (utf8 s ++ post)) a b outside notUtf8 = .ok s := by
  rw [readString, slice_at ha hb]
  simp

/-- A checkpoint head whose versions are among the first `versionCount`. -/
structure VersionsFit (versionCount identityVersion : Nat) (messagesVersion : Option Nat) :
    Prop where
  count : versionCount ≤ maxValue 32
  identity : identityVersion < versionCount
  messages : ∀ v ∈ messagesVersion, v < versionCount

theorem CheckpointHead.Fits.fields {head : CheckpointHead} (hf : head.Fits)
    {versionCount identityVersion : Nat} {messagesVersion : Option Nat}
    (hv : VersionsFit versionCount identityVersion messagesVersion) :
    (head.fields identityVersion messagesVersion).Fits := by
  have hMax : maxValue 32 < 256 ^ 4 := maxValue_lt 32
  have hThread := hf.threadId.2
  have hCheckpoint := hf.checkpointId.2
  have hParent := hf.parentId_le
  have hCount := hv.count
  have hIdentity := hv.identity
  simp only [maxCheckpointIdentifierBytes] at hThread hCheckpoint hParent
  refine ⟨hf.recordLen_lt, head.checkpointNo.toNat_lt, ?_, ?_, hMax, ?_, ?_, ?_, hf.stateLen,
    head.stateHash.toNat_lt⟩ <;> simp only [CheckpointHead.fields]
  · omega
  · cases hMessages : messagesVersion with
    | none => exact hMax
    | some v =>
      have hLt := hv.messages v hMessages
      simp only [Option.getD_some]
      omega
  · omega
  · omega
  · omega

theorem parseCheckpointRecord_checkpointRecord {head : CheckpointHead} (hf : head.Fits)
    {versionCount identityVersion ordinal : Nat} {messagesVersion : Option Nat}
    (hv : VersionsFit versionCount identityVersion messagesVersion) :
    parseCheckpointRecord P (checkpointRecord P head identityVersion messagesVersion) versionCount
      ordinal = .ok (head.info ordinal identityVersion messagesVersion) := by
  set f := head.fields identityVersion messagesVersion with hFields
  set record := checkpointRecord P head identityVersion messagesVersion with hRecord
  have hLen : record.length = head.recordLen := length_checkpointRecord ..
  have hMin : checkpointPrefixSize + 8 ≤ head.recordLen := by
    simp only [CheckpointHead.recordLen, checkpointPrefixSize, txChecksumSize]
    omega
  have hSplit : record = f.bytes ++ (utf8 head.threadId ++ (utf8 head.checkpointId ++
      (utf8 head.parentId ++ leBytes 8 (P.xxh3 (f.bytes ++ utf8 head.threadId ++
        utf8 head.checkpointId ++ utf8 head.parentId)).toNat))) := by
    simp only [hRecord, checkpointRecord, withChecksum, ← hFields, List.append_assoc]
  have hShape : ¬ (record.length < checkpointPrefixSize + 8 ∨ record.take 4 ≠ checkpointMagic) := by
    have hMagic : record.take 4 = checkpointMagic := by
      simp only [hSplit, CheckpointFields.bytes, List.append_assoc]
      exact take_magic rfl _
    simp only [hMagic, ne_eq, not_true_eq_false, or_false]
    omega
  have hParsed : parseCheckpointFields record = .ok f := by
    rw [hSplit]
    exact parseCheckpointFields_bytes (hf.fields hv) _
  have hBodyLen : record.length - 8 = (f.bytes ++ utf8 head.threadId ++ utf8 head.checkpointId ++
      utf8 head.parentId).length := by
    rw [hRecord, checkpointRecord, length_withChecksum, Nat.add_sub_cancel]
  have hChecksum : readU64 record (record.length - 8) = .ok (P.xxh3 (f.bytes ++
      utf8 head.threadId ++ utf8 head.checkpointId ++ utf8 head.parentId)).toNat := by
    rw [hBodyLen]
    exact readU64_withChecksum _
  have hTake : record.take (record.length - 8) = f.bytes ++ utf8 head.threadId ++
      utf8 head.checkpointId ++ utf8 head.parentId := by
    rw [hBodyLen]
    exact take_withChecksum _
  have hThread := hf.threadId
  have hCheckpoint := hf.checkpointId
  have hParent := hf.parentId_le
  have hIdentity : ¬ versionCount ≤ f.identity := Nat.not_le.mpr hv.identity
  have hThreadLen : ¬ (f.threadLen = 0 ∨ f.threadLen > maxCheckpointIdentifierBytes) := by
    simp only [hFields, CheckpointHead.fields, ValidIdentifier] at *
    omega
  have hCheckpointLen : ¬ (f.checkpointLen = 0 ∨
      f.checkpointLen > maxCheckpointIdentifierBytes) := by
    simp only [hFields, CheckpointHead.fields, ValidIdentifier] at *
    omega
  have hParentLen : ¬ f.parentLen > maxCheckpointIdentifierBytes := Nat.not_lt.mpr hParent
  have hEnd : ¬ (checkpointPrefixSize + f.threadLen + f.checkpointLen + f.parentLen + 8 ≠
      record.length) := by
    rw [hLen, not_not]
    rfl
  have hThreadAt : readString record checkpointPrefixSize (checkpointPrefixSize + f.threadLen)
      "thread bytes outside checkpoint record" "thread id is not UTF-8" = .ok head.threadId := by
    rw [hSplit]
    exact readString_at (by simp) (by simp [hFields, CheckpointHead.fields])
  have hCheckpointAt : readString record (checkpointPrefixSize + f.threadLen)
      (checkpointPrefixSize + f.threadLen + f.checkpointLen)
      "checkpoint id bytes outside record" "checkpoint id is not UTF-8" =
        .ok head.checkpointId := by
    rw [hSplit, ← List.append_assoc]
    exact readString_at (by simp [hFields, CheckpointHead.fields])
      (by simp [hFields, CheckpointHead.fields])
  have hParentAt : readString record (checkpointPrefixSize + f.threadLen + f.checkpointLen)
      (checkpointPrefixSize + f.threadLen + f.checkpointLen + f.parentLen)
      "parent id bytes outside record" "parent checkpoint id is not UTF-8" = .ok head.parentId := by
    rw [hSplit, ← List.append_assoc, ← List.append_assoc]
    exact readString_at (by simp [hFields, CheckpointHead.fields, Nat.add_assoc])
      (by simp [hFields, CheckpointHead.fields, Nat.add_assoc])
  have hMessages : optionalVersion versionCount f.messages = .ok messagesVersion :=
    optionalVersion_getD hv.count hv.messages
  have hResult : optionalVersion versionCount f.result = .ok none :=
    @optionalVersion_getD versionCount none hv.count (by simp)
  have hLenOk : ¬ f.recordLen ≠ record.length := by rw [hLen, not_not]; rfl
  simp only [parseCheckpointRecord, failIf_neg hShape, hParsed, failIf_neg hLenOk, hChecksum, hTake,
    failIf_neg hIdentity, failIf_neg hThreadLen, failIf_neg hCheckpointLen, failIf_neg hParentLen,
    failIf_neg hEnd, hThreadAt, hCheckpointAt, hParentAt, hMessages, hResult, ok_bind,
    hf.parent_eq, ne_eq, not_true_eq_false, not_false_eq_true, failIf_neg]
  simp [CheckpointHead.info, hFields, CheckpointHead.fields]

/-! ## Whole records -/

/-- A record by its parts: header, sections and checkpoint. -/
structure TxParts where
  header : TxHeader
  request : Bytes
  payload : Bytes
  compact : Bytes
  wide : Bytes
  roots : List (Nat × Nat × Option Nat)
  head : CheckpointHead
  identityVersion : Nat
  messagesVersion : Option Nat

namespace TxParts

def body (P : Primitives) (t : TxParts) : Bytes :=
  t.header.bytes ++ t.request ++ t.payload ++ t.compact ++ t.wide ++ rootBytes P t.roots ++
    checkpointRecord P t.head t.identityVersion t.messagesVersion

def record (P : Primitives) (t : TxParts) : Bytes := withChecksum P (t.body P)

/-- The header describes the sections, and everything fits the format. -/
structure Fits (P : Primitives) (t : TxParts) : Prop where
  header : t.header.Fits
  total : t.header.total = (t.record P).length
  requestLen : t.header.requestLen = t.request.length
  requestMax : t.request.length ≤ maxRequestIdBytes
  payloadLen : t.header.payloadLen = t.payload.length
  compactLen : t.header.compactNodes * compactNodeSize = t.compact.length
  wideLen : t.header.wideNodes * wideRecordSize = t.wide.length
  rootCount : t.header.rootCount = t.roots.length
  roots : Sequential t.header.versionStart t.roots
  versionCount : t.header.versionCount = t.header.versionStart + t.header.rootCount
  recordLen : t.header.checkpointRecordLen = t.head.recordLen
  head : t.head.Fits
  versions : VersionsFit t.header.versionCount t.identityVersion t.messagesVersion
  checkpointCount : t.header.checkpointCount ≠ 0

/-- The watermarks after the record are still 64-bit values. -/
structure InRange (t : TxParts) : Prop where
  byteEnd : t.header.byteLen + t.payload.length < 2 ^ 64
  nodeEnd : t.header.nodeCount + t.header.compactNodes < 2 ^ 64
  wideEnd : t.header.wideCount + t.header.wideNodes < 2 ^ 64

/-- What the parser returns for the record. -/
def parsed (P : Primitives) (t : TxParts) (startOffset : Nat) : ParsedTransaction where
  endOffset := startOffset + (t.record P).length
  versionStart := t.header.versionStart
  versionCount := t.header.versionCount
  checkpointCount := t.header.checkpointCount
  byteStart := t.header.byteLen
  byteEnd := t.header.byteLen + t.payload.length
  bytes := t.payload
  nodeStart := t.header.nodeCount
  nodeEnd := t.header.nodeCount + t.header.compactNodes
  compactNodes := t.compact
  wideStart := t.header.wideCount
  wideEnd := t.header.wideCount + t.header.wideNodes
  wideNodes := t.wide
  roots := t.roots.map (fun r => some r.2.1)
  parents := t.roots.map (fun r => r.2.2)
  checkpoint := t.head.info (t.header.checkpointCount - 1) t.identityVersion t.messagesVersion
  requestId := if t.request.length = 0 then none else some t.request
  operationDigest := P.sha256 (t.record P)

theorem length_record (P : Primitives) (t : TxParts) :
    (t.record P).length = txHeaderSize + t.request.length + t.payload.length + t.compact.length +
      t.wide.length + t.roots.length * rootRecordSize + t.head.recordLen + 8 := by
  simp [record, body, Nat.add_assoc]

end TxParts

namespace TxParts

variable {t : TxParts}

theorem record_eq (P : Primitives) (t : TxParts) : t.record P =
    t.header.bytes ++ (t.request ++ (t.payload ++ (t.compact ++ (t.wide ++ (rootBytes P t.roots ++
      (checkpointRecord P t.head t.identityVersion t.messagesVersion ++
        leBytes 8 (P.xxh3 (t.body P)).toNat)))))) := by
  simp only [record, withChecksum, body, List.append_assoc]

theorem Fits.expectedLen (ht : t.Fits P) : t.header.expectedLen = (t.record P).length := by
  rw [TxHeader.expectedLen, ht.requestLen, ht.payloadLen, ht.compactLen, ht.wideLen,
    ht.rootCount, ht.recordLen, t.length_record P, txChecksumSize]

theorem Fits.checkEnvelope (ht : t.Fits P) {geometry : Option Geometry}
    (hContinues : checkContinues t.header geometry = .ok ()) :
    checkEnvelope P (t.record P) geometry = .ok t.header := by
  have hLen := t.length_record P
  have hMagic : (t.record P).take 4 = txMagic := by
    simp only [record_eq, TxHeader.bytes, List.append_assoc]
    exact take_magic rfl _
  have hShape : ¬ ((t.record P).length < txHeaderSize + txChecksumSize ∨
      (t.record P).take 4 ≠ txMagic) := by
    rw [hMagic, hLen, txChecksumSize]
    simp only [ne_eq, not_true_eq_false, or_false]
    omega
  have hHeader : parseHeader (t.record P) = .ok t.header := by
    rw [record_eq]
    exact parseHeader_bytes ht.header _
  have hTotal : ¬ t.header.total ≠ (t.record P).length := not_not.mpr ht.total
  have hBodyLen : (t.record P).length - txChecksumSize = (t.body P).length := by
    rw [record, length_withChecksum, txChecksumSize, Nat.add_sub_cancel]
  have hChecksum : readU64 (t.record P) (t.body P).length = .ok (P.xxh3 (t.body P)).toNat :=
    readU64_withChecksum _
  have hTake : (t.record P).take (t.body P).length = t.body P := take_withChecksum _
  have hRequestMax : ¬ t.header.requestLen > maxRequestIdBytes := by
    rw [ht.requestLen]
    exact Nat.not_lt.mpr ht.requestMax
  have hVersions : ¬ t.header.versionCount ≠ t.header.versionStart + t.header.rootCount :=
    not_not.mpr ht.versionCount
  have hFits64 : tryFrom 64 t.header.expectedLen = some (t.record P).length := by
    have hTotalLt : t.header.total < 256 ^ 4 := ht.header.total
    rw [ht.expectedLen]
    refine tryFrom_of_lt ?_
    rw [← ht.total, width]
    omega
  simp only [Checkpoint.checkEnvelope, failIf_neg hShape, hHeader, failIf_neg hTotal, hBodyLen,
    hChecksum, hTake, failIf_neg hRequestMax, failIf_neg ht.checkpointCount, failIf_neg hVersions,
    hContinues, hFits64, okOr_some, ok_bind, ne_eq, not_true_eq_false, not_false_eq_true,
    failIf_neg]

theorem Fits.rootCursor (ht : t.Fits P) : t.header.rootCursor =
    (t.header.bytes ++ t.request ++ t.payload ++ t.compact ++ t.wide).length := by
  rw [TxHeader.rootCursor, ht.requestLen, ht.payloadLen, ht.compactLen, ht.wideLen]
  simp only [List.length_append, TxHeader.length_bytes]

theorem Fits.parseSections (ht : t.Fits P) : parseSections P (t.record P) t.header =
    .ok { request := t.request, bytes := t.payload, compactNodes := t.compact,
          wideNodes := t.wide, roots := t.roots.map (fun r => (some r.2.1, r.2.2)),
          checkpointRecord := checkpointRecord P t.head t.identityVersion t.messagesVersion } := by
  have hRequest : slice (t.record P) txHeaderSize (txHeaderSize + t.header.requestLen) =
      some t.request := by
    rw [record_eq, ht.requestLen]
    exact slice_at (by simp) (by simp)
  have hPayload : slice (t.record P) (txHeaderSize + t.header.requestLen)
      (txHeaderSize + t.header.requestLen + t.header.payloadLen) = some t.payload := by
    rw [record_eq, ht.requestLen, ht.payloadLen, ← List.append_assoc]
    exact slice_at (by simp) (by simp)
  have hCompact : slice (t.record P) (txHeaderSize + t.header.requestLen + t.header.payloadLen)
      (txHeaderSize + t.header.requestLen + t.header.payloadLen +
        t.header.compactNodes * compactNodeSize) = some t.compact := by
    rw [record_eq, ht.requestLen, ht.payloadLen, ht.compactLen, ← List.append_assoc,
      ← List.append_assoc]
    exact slice_at (by simp [Nat.add_assoc]) (by simp [Nat.add_assoc])
  have hWide : slice (t.record P) (txHeaderSize + t.header.requestLen + t.header.payloadLen +
        t.header.compactNodes * compactNodeSize) t.header.rootCursor = some t.wide := by
    rw [record_eq, TxHeader.rootCursor, ht.requestLen, ht.payloadLen, ht.compactLen, ht.wideLen,
      ← List.append_assoc, ← List.append_assoc, ← List.append_assoc]
    exact slice_at (by simp [Nat.add_assoc]) (by simp [Nat.add_assoc])
  have hRoots : parseRoots P (t.record P) t.header.rootCount t.header.versionStart
      t.header.rootCursor = .ok (t.roots.map (fun r => (some r.2.1, r.2.2))) := by
    rw [record_eq, ht.rootCount, ht.rootCursor, ← List.append_assoc, ← List.append_assoc,
      ← List.append_assoc, ← List.append_assoc]
    exact parseRoots_rootBytes ht.roots _ _
  have hRecordAt : slice (t.record P) (t.header.rootCursor + t.header.rootCount * rootRecordSize)
      (t.header.rootCursor + t.header.rootCount * rootRecordSize + t.header.checkpointRecordLen) =
      some (checkpointRecord P t.head t.identityVersion t.messagesVersion) := by
    rw [record_eq, ht.rootCursor, ht.rootCount, ht.recordLen, ← List.append_assoc,
      ← List.append_assoc, ← List.append_assoc, ← List.append_assoc, ← List.append_assoc]
    exact slice_at (by simp [Nat.add_assoc]) (by simp [Nat.add_assoc])
  simp only [Checkpoint.parseSections, hRequest, hPayload, hCompact, hWide, hRoots, hRecordAt,
    okOr_some, ok_bind]

end TxParts

/-- A record that fits is accepted wherever its watermarks are, with exactly its parts. -/
theorem parse_record {t : TxParts} (ht : t.Fits P) (hr : t.InRange) {geometry : Option Geometry}
    {startOffset : Nat} (hContinues : checkContinues t.header geometry = .ok ())
    (hEnd : startOffset + (t.record P).length < 2 ^ 64) :
    parseTransactionWithGeometry P (t.record P) geometry startOffset =
      .ok (t.parsed P startOffset) := by
  have hCheckpoint : parseCheckpointRecord P
      (checkpointRecord P t.head t.identityVersion t.messagesVersion) t.header.versionCount
      (t.header.checkpointCount - 1) =
        .ok (t.head.info (t.header.checkpointCount - 1) t.identityVersion t.messagesVersion) :=
    parseCheckpointRecord_checkpointRecord ht.head ht.versions
  have hCursor : ¬ (t.header.rootCursor + t.header.rootCount * rootRecordSize +
      t.header.checkpointRecordLen ≠ (t.record P).length - txChecksumSize) := by
    rw [TxHeader.rootCursor, ht.requestLen, ht.payloadLen, ht.compactLen, ht.wideLen, ht.rootCount,
      ht.recordLen, t.length_record P, txChecksumSize, Nat.add_sub_cancel, not_not]
  have hByteEnd : checkedAdd 64 t.header.byteLen t.payload.length =
      some (t.header.byteLen + t.payload.length) := checkedAdd_of_lt hr.byteEnd
  have hNodeEnd : checkedAdd 64 t.header.nodeCount t.header.compactNodes =
      some (t.header.nodeCount + t.header.compactNodes) := checkedAdd_of_lt hr.nodeEnd
  have hWideEnd : checkedAdd 64 t.header.wideCount t.header.wideNodes =
      some (t.header.wideCount + t.header.wideNodes) := checkedAdd_of_lt hr.wideEnd
  have hOffset : checkedAdd 64 startOffset (t.record P).length =
      some (startOffset + (t.record P).length) := checkedAdd_of_lt hEnd
  simp only [parseTransactionWithGeometry, ht.checkEnvelope hContinues, ht.parseSections,
    hCheckpoint, failIf_neg hCursor, hByteEnd, hNodeEnd, hWideEnd, hOffset, okOr_some, ok_bind]
  simp only [TxParts.parsed, ht.requestLen, List.map_map, Function.comp_def]

/-! ## Accepted records -/

/-- What the parser has checked of a record it accepts. -/
theorem parse_inv {record : Bytes} {geometry : Option Geometry} {startOffset : Nat}
    {tx : ParsedTransaction}
    (h : parseTransactionWithGeometry P record geometry startOffset = .ok tx) :
    ∃ hd s cp, checkEnvelope P record geometry = .ok hd ∧ parseSections P record hd = .ok s ∧
      parseCheckpointRecord P s.checkpointRecord hd.versionCount (hd.checkpointCount - 1) = .ok cp ∧
      hd.byteLen + s.bytes.length < 2 ^ 64 ∧ hd.nodeCount + hd.compactNodes < 2 ^ 64 ∧
      hd.wideCount + hd.wideNodes < 2 ^ 64 ∧ startOffset + record.length < 2 ^ 64 ∧
      tx = { endOffset := startOffset + record.length, versionStart := hd.versionStart,
             versionCount := hd.versionCount, checkpointCount := hd.checkpointCount,
             byteStart := hd.byteLen, byteEnd := hd.byteLen + s.bytes.length, bytes := s.bytes,
             nodeStart := hd.nodeCount, nodeEnd := hd.nodeCount + hd.compactNodes,
             compactNodes := s.compactNodes, wideStart := hd.wideCount,
             wideEnd := hd.wideCount + hd.wideNodes, wideNodes := s.wideNodes,
             roots := s.roots.map Prod.fst, parents := s.roots.map Prod.snd, checkpoint := cp,
             requestId := if hd.requestLen = 0 then none else some s.request,
             operationDigest := P.sha256 record } := by
  simp only [parseTransactionWithGeometry, bind_eq_ok, okOr_eq_ok, checkedAdd_eq_some,
    failIf_eq_ok, Except.ok.injEq, width] at h
  obtain ⟨hd, hEnv, s, hSec, cp, hCp, _, _, _, ⟨hByte, rfl⟩, _, ⟨hNode, rfl⟩, _, ⟨hWide, rfl⟩, _,
    ⟨hOff, rfl⟩, rfl⟩ := h
  exact ⟨hd, s, cp, hEnv, hSec, hCp, hByte, hNode, hWide, hOff, rfl⟩

/-- An accepted record continues the geometry it was parsed against, and its header is the
one its first bytes give. -/
theorem checkEnvelope_inv {record : Bytes} {geometry : Option Geometry} {hd : TxHeader}
    (h : checkEnvelope P record geometry = .ok hd) :
    parseHeader record = .ok hd ∧ checkContinues hd geometry = .ok () ∧
      hd.expectedLen = record.length ∧ hd.versionCount = hd.versionStart + hd.rootCount ∧
      hd.checkpointCount ≠ 0 ∧ hd.requestLen ≤ maxRequestIdBytes := by
  simp only [checkEnvelope, bind_eq_ok, okOr_eq_ok, failIf_eq_ok, tryFrom_eq_some,
    Except.ok.injEq, not_not] at h
  obtain ⟨_, _, hd', hParse, _, _, _, _, _, _, _, hRequest, _, hCount, _, hVersion, _, hCont, _,
    ⟨_, rfl⟩, _, hLen, rfl⟩ := h
  exact ⟨hParse, hCont, hLen, hVersion, hCount, Nat.not_lt.mp hRequest⟩

theorem checkContinues_some {hd : TxHeader} {g : Geometry} {u : Unit} :
    checkContinues hd (some g) = .ok u ↔
      g.checkpointCount + 1 < 2 ^ 64 ∧ hd.versionStart = g.versionCount ∧
        hd.checkpointCount = g.checkpointCount + 1 ∧ hd.byteLen = g.byteLen ∧
        hd.nodeCount = g.nodeCount ∧ hd.wideCount = g.wideCount := by
  simp only [checkContinues, bind_eq_ok, okOr_eq_ok, checkedAdd_eq_some, failIf_eq_ok, width,
    not_or, not_not]
  constructor
  · rintro ⟨_, ⟨hLt, rfl⟩, h⟩
    exact ⟨hLt, h⟩
  · rintro ⟨hLt, h⟩
    exact ⟨_, ⟨hLt, rfl⟩, h⟩

/-- A record that fits is accepted only while its watermarks stay in range. -/
theorem inRange_of_parse {t : TxParts} (ht : t.Fits P) {geometry : Option Geometry}
    {startOffset : Nat} {tx : ParsedTransaction}
    (h : parseTransactionWithGeometry P (t.record P) geometry startOffset = .ok tx) :
    t.InRange ∧ checkContinues t.header geometry = .ok () ∧
      startOffset + (t.record P).length < 2 ^ 64 ∧ tx = t.parsed P startOffset := by
  obtain ⟨hd, s, cp, hEnv, hSec, _, hByte, hNode, hWide, hOff, _⟩ := parse_inv h
  obtain ⟨hParse, hCont, _⟩ := checkEnvelope_inv hEnv
  have hHeader : parseHeader (t.record P) = .ok t.header := by
    rw [TxParts.record_eq]
    exact parseHeader_bytes ht.header _
  rw [hHeader, Except.ok.injEq] at hParse
  subst hParse
  rw [ht.parseSections, Except.ok.injEq] at hSec
  subst hSec
  have hRange : t.InRange := ⟨hByte, hNode, hWide⟩
  rw [parse_record ht hRange hCont hOff, Except.ok.injEq] at h
  exact ⟨hRange, hCont, hOff, h.symm⟩

end TulyaStore.Checkpoint
