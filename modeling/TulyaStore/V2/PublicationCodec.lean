import TulyaStore.V2.Publication

/-!
# Publication records read back

The decoders of versions and checkpoints against their encoders. `Fits` says what the fields of
a record can hold, which is the range of their types.
-/

namespace TulyaStore.V2

open Lib Sequence
open Checkpoint (utf8 fromUtf8 fromUtf8_eq_some utf8_injective)

@[simp] theorem length_v2VersionMagic : v2VersionMagic.length = 4 := by decide

@[simp] theorem length_v2CheckpointMagic : v2CheckpointMagic.length = 4 := by decide

/-! ## Versions -/

structure V2VersionRecord.Fits (record : V2VersionRecord) : Prop where
  versionId : record.versionId < width 32
  root : record.root.Fits

/-- The parent of a version is an earlier one and neither has the reserved identifier. -/
def ParentVersionOk (versionId : Nat) (parentVersion : Option Nat) : Prop :=
  versionId ≠ v2NoneVersion ∧ parentVersion ≠ some v2NoneVersion ∧
    ∀ parent ∈ parentVersion, parent < versionId

theorem validateParentVersion_eq_ok {versionId : Nat} {parentVersion : Option Nat} {u : Unit} :
    validateParentVersion versionId parentVersion = .ok u ↔
      ParentVersionOk versionId parentVersion := by
  simp only [validateParentVersion, bind_eq_ok, failIf_eq_ok, exists_const, ParentVersionOk,
    not_exists, not_and, Nat.not_le]

theorem decodeOptionalVersion_getD {version : Option Nat} (h : version ≠ some v2NoneVersion) :
    decodeOptionalVersion (version.getD v2NoneVersion) = version := by
  cases version with
  | none => rfl
  | some version => exact if_neg fun hNone => h (congrArg some hNone)

theorem getD_decodeOptionalVersion (raw : Nat) :
    (decodeOptionalVersion raw).getD v2NoneVersion = raw := by
  unfold decodeOptionalVersion
  split
  case isTrue h => exact h.symm
  case isFalse => rfl

theorem decodeOptionalVersion_lt {raw version : Nat} (h : raw < width 32)
    (hMem : version ∈ decodeOptionalVersion raw) : version < width 32 := by
  unfold decodeOptionalVersion at hMem
  split at hMem
  case isTrue => cases hMem
  case isFalse =>
    cases hMem
    exact h

theorem getD_lt {version : Option Nat} (h : ∀ v ∈ version, v < width 32) :
    version.getD v2NoneVersion < 256 ^ 4 := by
  cases version with
  | none => decide
  | some version => exact h version rfl

theorem encodeV2Version_eq_ok {record : V2VersionRecord} {bytes : Bytes} :
    encodeV2Version record = .ok bytes ↔
      ParentVersionOk record.versionId record.parentVersion ∧ bytes = versionBytes record := by
  simp only [encodeV2Version, bind_eq_ok, validateParentVersion_eq_ok, exists_const, pure_eq_ok]
  rw [eq_comm (a := bytes)]

theorem laid_versionBytes {bytes : Bytes} {record : V2VersionRecord} :
    bytes = versionBytes record ↔
      slice bytes 0 4 = some v2VersionMagic ∧ slice bytes 4 8 = some (leBytes 4 record.versionId) ∧
      slice bytes 8 12 = some (leBytes 4 (record.parentVersion.getD v2NoneVersion)) ∧
      slice bytes 12 16 = some (leBytes 4 0) ∧ slice bytes 16 72 = some (encodeV2Root record.root) ∧
      72 = bytes.length := by
  have hParts : versionBytes record = [v2VersionMagic, leBytes 4 record.versionId,
      leBytes 4 (record.parentVersion.getD v2NoneVersion), leBytes 4 0,
      encodeV2Root record.root].flatten := by simp [versionBytes]
  rw [hParts, ← laid_iff]
  simp only [Laid, length_v2VersionMagic, length_leBytes, length_encodeV2Root, Nat.reduceAdd]

@[simp] theorem length_versionBytes (record : V2VersionRecord) :
    (versionBytes record).length = 72 := by simp [versionBytes]

/-- The decoder of versions accepts exactly what the encoder writes for the expected version. -/
theorem decodeV2Version_eq_ok {bytes : Bytes} {expected : Nat} {record : V2VersionRecord} :
    decodeV2Version bytes expected = .ok record ↔
      record.Fits ∧ record.versionId = expected ∧ encodeV2Version record = .ok bytes := by
  rw [encodeV2Version_eq_ok, laid_versionBytes]
  simp only [decodeV2Version, requireRecordLen, bind_eq_ok, okOr_eq_ok, failIf_eq_ok, not_not,
    readLe_eq_some, validateParentVersion_eq_ok, mapErr_eq_ok, decodeV2Root_eq_ok, pure_eq_ok,
    Nat.reduceAdd]
  have hWidth : width 32 = 256 ^ 4 := by decide
  have hNone : v2NoneVersion + 1 = width 32 := by decide
  constructor
  · rintro ⟨_, hLen, _, hMagic, versionId, ⟨hId, hIdLt⟩, _, rfl, raw, ⟨hParent, -⟩, _, hOk, _,
      ⟨hFlags, -⟩, _, rfl, rootBytes, hRoot, root, ⟨hRootFits, rfl⟩, rfl⟩
    rw [← getD_decodeOptionalVersion raw] at hParent
    exact ⟨⟨by dsimp only; omega, hRootFits⟩, rfl, hOk, hMagic, hId, hParent, hFlags, hRoot,
      hLen.symm⟩
  · rintro ⟨⟨hIdLt, hRootFits⟩, rfl, hOk, hMagic, hId, hParent, hFlags, hRoot, hLen⟩
    have hParentLt : record.parentVersion.getD v2NoneVersion < 256 ^ 4 := by
      cases hCase : record.parentVersion with
      | none =>
        rw [Option.getD_none]
        omega
      | some parent =>
        have hBelow := hOk.2.2 parent (by rw [hCase]; rfl)
        rw [Option.getD_some]
        omega
    have hBack := decodeOptionalVersion_getD hOk.2.1
    exact ⟨(), hLen.symm, (), hMagic, _, ⟨hId, by omega⟩, (), rfl, _, ⟨hParent, hParentLt⟩, (),
      hBack.symm ▸ hOk, _, ⟨hFlags, by decide⟩, (), rfl, _, hRoot, _, ⟨hRootFits, rfl⟩,
      by rw [hBack]⟩

/-! ## Checkpoints -/

structure V2CheckpointRecord.Fits (record : V2CheckpointRecord) : Prop where
  checkpointNo : record.checkpointNo < width 32
  identityVersion : record.identityVersion < width 32
  messagesVersion : ∀ version ∈ record.messagesVersion, version < width 32
  resultVersion : ∀ version ∈ record.resultVersion, version < width 32
  logicalLen : record.state.logicalLen < width 64

def IdentifierOk (value : String) : Prop :=
  utf8 value ≠ [] ∧ (utf8 value).length ≤ v2MaxIdentifierBytes

/-- What both directions check of a checkpoint. -/
structure V2CheckpointRecord.Valid (record : V2CheckpointRecord) : Prop where
  threadId : IdentifierOk record.threadId
  checkpointId : IdentifierOk record.checkpointId
  parent : ∀ parent ∈ record.parentCheckpointId, IdentifierOk parent
  identityVersion : record.identityVersion ≠ v2NoneVersion
  messagesVersion : record.messagesVersion ≠ some v2NoneVersion
  resultVersion : record.resultVersion ≠ some v2NoneVersion
  logicalLen : v2MinCanonicalStateBytes ≤ record.state.logicalLen

/-- The versions a checkpoint names are among the first `count`. -/
structure V2CheckpointRecord.Below (record : V2CheckpointRecord) (count : Nat) : Prop where
  identityVersion : record.identityVersion < count
  messagesVersion : ∀ version ∈ record.messagesVersion, version < count
  resultVersion : ∀ version ∈ record.resultVersion, version < count

theorem checkPresent_eq_ok {ε α : Type} {check : α → Except ε Unit} {value : Option α} {u : Unit} :
    checkPresent check value = .ok u ↔ ∀ x ∈ value, check x = .ok u := by
  cases value <;> simp [checkPresent]

theorem validateIdentifier_eq_ok {value message : String} {u : Unit} :
    validateIdentifier value message = .ok u ↔ IdentifierOk value := by
  simp only [validateIdentifier, failIf_eq_ok, not_or, IdentifierOk, gt_iff_lt, Nat.not_lt, ne_eq]

theorem length_parentBytes_le {parent : Option String} (h : ∀ p ∈ parent, IdentifierOk p) :
    (parentBytes parent).length ≤ v2MaxIdentifierBytes := by
  cases parent with
  | none => exact Nat.zero_le _
  | some parent => exact (h parent rfl).2

/-- The lengths written in front of a checkpoint's identifiers. -/
def geometryOf (record : V2CheckpointRecord) : V2CheckpointEncodingGeometry where
  recordLen := v2CheckpointPrefixSize + (utf8 record.threadId).length +
    (utf8 record.checkpointId).length + (parentBytes record.parentCheckpointId).length
  threadLen := (utf8 record.threadId).length
  checkpointLen := (utf8 record.checkpointId).length
  parentLen := (parentBytes record.parentCheckpointId).length

theorem checkpointEncodingGeometry_eq_ok {record : V2CheckpointRecord}
    {geometry : V2CheckpointEncodingGeometry} :
    checkpointEncodingGeometry record = .ok geometry ↔
      record.Valid ∧ geometry = geometryOf record := by
  simp only [checkpointEncodingGeometry, bind_eq_ok, validateIdentifier_eq_ok, checkPresent_eq_ok,
    validateEncodableVersionReference, failIf_eq_ok, okOr_eq_ok, checkedAdd_eq_some,
    tryFrom_eq_some, pure_eq_ok, Nat.not_lt]
  have hMax : v2MaxIdentifierBytes = 4096 := rfl
  have hPrefix : v2CheckpointPrefixSize = 88 := rfl
  have hWidth : width 32 = 4294967296 := by decide
  have hWidth64 : width 64 = 18446744073709551616 := by decide
  constructor
  · rintro ⟨_, hThread, _, hCheckpoint, _, hParent, _, hIdentity, _, hMessages, _, hResult, _, hLen,
      _, ⟨-, rfl⟩, _, ⟨-, rfl⟩, _, ⟨-, rfl⟩, _, ⟨-, rfl⟩, _, ⟨-, rfl⟩, _, ⟨-, rfl⟩, _, ⟨-, rfl⟩, rfl⟩
    exact ⟨⟨hThread, hCheckpoint, hParent, hIdentity, fun h => hMessages _ h rfl,
      fun h => hResult _ h rfl, hLen⟩, rfl⟩
  · rintro ⟨⟨hThread, hCheckpoint, hParent, hIdentity, hMessages, hResult, hLen⟩, rfl⟩
    have hThreadMax := hThread.2
    have hCheckpointMax := hCheckpoint.2
    have hParentMax := length_parentBytes_le hParent
    refine ⟨(), hThread, (), hCheckpoint, (), hParent, (), hIdentity, (), ?_, (), ?_, (), hLen,
      _, ⟨by omega, rfl⟩, _, ⟨by omega, rfl⟩, _, ⟨by omega, rfl⟩, _, ⟨by omega, rfl⟩, _,
      ⟨by omega, rfl⟩, _, ⟨by omega, rfl⟩, _, ⟨by omega, rfl⟩, rfl⟩
    · rintro version hMem rfl
      exact hMessages hMem
    · rintro version hMem rfl
      exact hResult hMem

@[simp] theorem length_checkpointBytes (record : V2CheckpointRecord)
    (geometry : V2CheckpointEncodingGeometry) :
    (checkpointBytes record geometry).length = v2CheckpointPrefixSize +
      (utf8 record.threadId).length + (utf8 record.checkpointId).length +
        (parentBytes record.parentCheckpointId).length := by
  simp only [checkpointBytes, List.length_append, length_leBytes, length_v2CheckpointMagic,
    Vector.length_toList, v2CheckpointPrefixSize, Nat.reduceAdd]

theorem encodeV2Checkpoint_eq_ok {record : V2CheckpointRecord} {bytes : Bytes} :
    encodeV2Checkpoint record = .ok bytes ↔
      record.Valid ∧ bytes = checkpointBytes record (geometryOf record) := by
  simp only [encodeV2Checkpoint, bind_eq_ok, checkpointEncodingGeometry_eq_ok, failIf_eq_ok,
    pure_eq_ok]
  constructor
  · rintro ⟨_, ⟨hValid, rfl⟩, _, -, rfl⟩
    exact ⟨hValid, rfl⟩
  · rintro ⟨hValid, rfl⟩
    exact ⟨_, ⟨hValid, rfl⟩, (), by simp [geometryOf], rfl⟩

theorem laid_checkpointBytes {bytes : Bytes} {record : V2CheckpointRecord}
    {geometry : V2CheckpointEncodingGeometry} :
    bytes = checkpointBytes record geometry ↔
      slice bytes 0 4 = some v2CheckpointMagic ∧
      slice bytes 4 8 = some (leBytes 4 geometry.recordLen) ∧
      slice bytes 8 12 = some (leBytes 4 record.checkpointNo) ∧
      slice bytes 12 16 = some (leBytes 4 record.identityVersion) ∧
      slice bytes 16 20 = some (leBytes 4 (record.messagesVersion.getD v2NoneVersion)) ∧
      slice bytes 20 24 = some (leBytes 4 (record.resultVersion.getD v2NoneVersion)) ∧
      slice bytes 24 28 = some (leBytes 4 geometry.threadLen) ∧
      slice bytes 28 32 = some (leBytes 4 geometry.checkpointLen) ∧
      slice bytes 32 36 = some (leBytes 4 geometry.parentLen) ∧
      slice bytes 36 40 = some (leBytes 4 v2CheckpointSchema) ∧
      slice bytes 40 48 = some (leBytes 8 record.state.logicalLen) ∧
      slice bytes 48 80 = some record.state.commitment.toList ∧
      slice bytes 80 84 = some (leBytes 4 0) ∧ slice bytes 84 88 = some (leBytes 4 0) ∧
      slice bytes 88 (88 + (utf8 record.threadId).length) = some (utf8 record.threadId) ∧
      slice bytes (88 + (utf8 record.threadId).length)
        (88 + (utf8 record.threadId).length + (utf8 record.checkpointId).length) =
          some (utf8 record.checkpointId) ∧
      slice bytes (88 + (utf8 record.threadId).length + (utf8 record.checkpointId).length)
        (88 + (utf8 record.threadId).length + (utf8 record.checkpointId).length +
          (parentBytes record.parentCheckpointId).length) =
            some (parentBytes record.parentCheckpointId) ∧
      88 + (utf8 record.threadId).length + (utf8 record.checkpointId).length +
        (parentBytes record.parentCheckpointId).length = bytes.length := by
  have hParts : checkpointBytes record geometry = [v2CheckpointMagic, leBytes 4 geometry.recordLen,
      leBytes 4 record.checkpointNo, leBytes 4 record.identityVersion,
      leBytes 4 (record.messagesVersion.getD v2NoneVersion),
      leBytes 4 (record.resultVersion.getD v2NoneVersion), leBytes 4 geometry.threadLen,
      leBytes 4 geometry.checkpointLen, leBytes 4 geometry.parentLen, leBytes 4 v2CheckpointSchema,
      leBytes 8 record.state.logicalLen, record.state.commitment.toList, leBytes 4 0, leBytes 4 0,
      utf8 record.threadId, utf8 record.checkpointId,
      parentBytes record.parentCheckpointId].flatten := by
    simp [checkpointBytes]
  rw [hParts, ← laid_iff]
  simp only [Laid, length_v2CheckpointMagic, length_leBytes, Vector.length_toList, Nat.reduceAdd]

/-- The parent the decoder makes of the parent's text. -/
def parentOfText (text : String) : Option String := if utf8 text = [] then none else some text

theorem parentBytes_parentOfText (text : String) : parentBytes (parentOfText text) = utf8 text := by
  unfold parentOfText
  split
  case isTrue h => exact h.symm
  case isFalse => rfl

theorem parentOfText_ok {text parent : String} (h : (utf8 text).length ≤ v2MaxIdentifierBytes)
    (hMem : parent ∈ parentOfText text) : IdentifierOk parent := by
  unfold parentOfText at hMem
  split at hMem
  case isTrue => cases hMem
  case isFalse hNe =>
    cases hMem
    exact ⟨hNe, h⟩

theorem exists_parentOfText {parent : Option String} (h : ∀ p ∈ parent, IdentifierOk p) :
    ∃ text, parentOfText text = parent ∧ utf8 text = parentBytes parent := by
  cases parent with
  | none => exact ⟨"", rfl, rfl⟩
  | some text => exact ⟨text, if_neg (h text rfl).1, rfl⟩

theorem validateVersionReference_eq_ok {count version : Nat} {u : Unit} :
    validateVersionReference count version = .ok u ↔
      version ≠ v2NoneVersion ∧ version < count := by
  simp only [validateVersionReference, validateEncodableVersionReference, bind_eq_ok, failIf_eq_ok,
    exists_const, ge_iff_le, Nat.not_le, ne_eq]

/-- The decoder of checkpoints accepts exactly what the encoder writes for checkpoints over the
given versions. -/
theorem decodeV2Checkpoint_eq_ok {bytes : Bytes} {count : Nat} {record : V2CheckpointRecord} :
    decodeV2Checkpoint bytes count = .ok record ↔
      record.Fits ∧ record.Below count ∧ encodeV2Checkpoint record = .ok bytes := by
  rw [encodeV2Checkpoint_eq_ok, laid_checkpointBytes]
  simp only [decodeV2Checkpoint, decodeIdentifier, bind_eq_ok, okOr_eq_ok, failIf_eq_ok, not_not,
    readLe_eq_some, readArray_eq_some, checkPresent_eq_ok, validateVersionReference_eq_ok,
    fromUtf8_eq_some, pure_eq_ok, Nat.reduceAdd, exists_const]
  have hWidth : width 32 = 256 ^ 4 := by decide
  have hWidth64 : width 64 = 256 ^ 8 := by decide
  have hNone : v2NoneVersion + 1 = width 32 := by decide
  have hMax : v2MaxIdentifierBytes = 4096 := rfl
  have hPrefix : v2CheckpointPrefixSize = 88 := rfl
  rw [hPrefix]
  constructor
  · rintro ⟨-, hMagic, recordLen, ⟨hRecordLen, -⟩, hWhole, checkpointNo, ⟨hNo, hNoLt⟩, identity,
      ⟨hIdentity, hIdentityLt⟩, messages, ⟨hMessages, hMessagesLt⟩, result, ⟨hResult, hResultLt⟩,
      ⟨hIdentityNe, hIdentityBelow⟩, hMessagesBelow, hResultBelow, threadLen, ⟨hThreadLen, -⟩,
      checkpointLen, ⟨hCheckpointLen, -⟩, parentLen, ⟨hParentLen, -⟩, hThreadMax, hCheckpointMax,
      hParentMax, schema, ⟨hSchema, -⟩, hSchemaOk, logicalLen, ⟨hLogical, hLogicalLt⟩, hLogicalMin,
      commitment, hCommitment, flags, ⟨hFlags, -⟩, hFlagsZero, reserved, ⟨hReserved, -⟩,
      hReservedZero, hEnd, threadBytes, hThread, threadId, hThreadText, checkpointIdBytes,
      hCheckpoint, checkpointId, hCheckpointText, parentIdBytes, hParent, parent, hParentText,
      hRecord⟩
    subst hWhole hSchemaOk hFlagsZero hReservedZero hThreadText hCheckpointText hParentText hRecord
    obtain rfl : (utf8 threadId).length = threadLen := by
      rw [length_of_slice hThread, Nat.add_sub_cancel_left]
    obtain rfl : (utf8 checkpointId).length = checkpointLen := by
      rw [length_of_slice hCheckpoint, Nat.add_sub_cancel_left]
    obtain rfl : (utf8 parent).length = parentLen := by
      rw [length_of_slice hParent, Nat.add_sub_cancel_left]
    rw [not_or, Nat.not_lt, List.length_eq_zero_iff] at hThreadMax hCheckpointMax
    rw [Nat.not_lt] at hParentMax
    rw [← getD_decodeOptionalVersion messages] at hMessages
    rw [← getD_decodeOptionalVersion result] at hResult
    rw [← parentBytes_parentOfText parent] at hParentLen hParent hEnd
    refine ⟨⟨by dsimp only; omega, by dsimp only; omega, ?_, ?_, by dsimp only; omega⟩,
      ⟨hIdentityBelow, fun _ hMem => (hMessagesBelow _ hMem).2, fun _ hMem => (hResultBelow _ hMem).2⟩,
      ⟨hThreadMax, hCheckpointMax, ?_, hIdentityNe, fun h => (hMessagesBelow _ h).1 rfl,
        fun h => (hResultBelow _ h).1 rfl, Nat.not_lt.mp hLogicalMin⟩, hMagic, ?_, hNo, hIdentity,
      hMessages, hResult, hThreadLen, hCheckpointLen, hParentLen, hSchema, hLogical, hCommitment,
      hFlags, hReserved, hThread, hCheckpoint, hParent, hEnd⟩
    · exact fun _ hMem => decodeOptionalVersion_lt (by omega) hMem
    · exact fun _ hMem => decodeOptionalVersion_lt (by omega) hMem
    · exact fun _ hMem => parentOfText_ok hParentMax hMem
    · rw [← hEnd] at hRecordLen
      exact hRecordLen
  · rintro ⟨⟨hNoLt, hIdentityLt, hMessagesLt, hResultLt, hLogicalLt⟩,
      ⟨hIdentityBelow, hMessagesBelow, hResultBelow⟩, ⟨hThreadOk, hCheckpointOk, hParentOk,
      hIdentityNe, hMessagesNe, hResultNe, hLogicalMin⟩, hMagic, hRecordLen, hNo, hIdentity,
      hMessages, hResult, hThreadLen, hCheckpointLen, hParentLen, hSchema, hLogical, hCommitment,
      hFlags, hReserved, hThread, hCheckpoint, hParent, hEnd⟩
    have hThreadMax := hThreadOk.2
    have hCheckpointMax := hCheckpointOk.2
    have hParentMax := length_parentBytes_le hParentOk
    obtain ⟨parent, hText, hTextBytes⟩ := exists_parentOfText hParentOk
    have hMessagesBack := decodeOptionalVersion_getD hMessagesNe
    have hResultBack := decodeOptionalVersion_getD hResultNe
    have hRecordLen' : slice bytes 4 8 = some (leBytes 4 bytes.length) := by
      rw [← hEnd]
      exact hRecordLen
    refine ⟨by omega, hMagic, _, ⟨hRecordLen', by omega⟩, rfl, _, ⟨hNo, by omega⟩, _,
      ⟨hIdentity, by omega⟩, _, ⟨hMessages, getD_lt hMessagesLt⟩, _,
      ⟨hResult, getD_lt hResultLt⟩, ⟨hIdentityNe, hIdentityBelow⟩, ?_, ?_, _,
      ⟨hThreadLen, ?_⟩, _, ⟨hCheckpointLen, ?_⟩, _, ⟨hParentLen, ?_⟩, ?_, ?_, ?_, _,
      ⟨hSchema, by decide⟩, rfl, _, ⟨hLogical, by omega⟩, Nat.not_lt.mpr hLogicalMin, _,
      hCommitment, _, ⟨hFlags, by decide⟩, rfl, _, ⟨hReserved, by decide⟩, rfl, ?_, _,
      hThread, _, rfl, _, hCheckpoint, _, rfl, _, hParent, parent, hTextBytes.symm, ?_⟩
    · rw [hMessagesBack]
      exact fun version hMem => ⟨fun h => hMessagesNe (h ▸ hMem), hMessagesBelow version hMem⟩
    · rw [hResultBack]
      exact fun version hMem => ⟨fun h => hResultNe (h ▸ hMem), hResultBelow version hMem⟩
    · dsimp only [geometryOf]
      omega
    · dsimp only [geometryOf]
      omega
    · dsimp only [geometryOf]
      omega
    · exact not_or.mpr ⟨fun h => hThreadOk.1 (List.length_eq_zero_iff.mp h), Nat.not_lt.mpr hThreadMax⟩
    · exact not_or.mpr ⟨fun h => hCheckpointOk.1 (List.length_eq_zero_iff.mp h),
        Nat.not_lt.mpr hCheckpointMax⟩
    · exact Nat.not_lt.mpr hParentMax
    · exact hEnd
    · rw [hMessagesBack, hResultBack]
      change V2CheckpointRecord.mk _ _ _ (parentOfText parent) _ _ _ _ = record
      rw [hText]

end TulyaStore.V2
