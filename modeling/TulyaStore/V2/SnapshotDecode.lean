import TulyaStore.V2.SnapshotCodec

/-!
# The decoder of sealed snapshots

Each section of a `T2S2` snapshot is read back as a table of framed records in order
(`readSection_eq_ok`), and the decoder as a whole accepts exactly the snapshots with sorted ledgers
that the encoder writes (`decodeV2SealedSnapshot_eq_ok`).
-/

namespace TulyaStore.V2

open Lib Sequence

/-! ## What the fields of a valid snapshot can hold -/

section Fits

variable {sha256 : Bytes → Digest} {snapshot : V2SealedSnapshot} {bytes : Bytes}

theorem ValidSnapshot.fits_version (h : ValidSnapshot sha256 snapshot) {version : V2VersionRecord}
    (hMem : version ∈ snapshot.versions) : version.Fits := by
  have hNone : v2NoneVersion + 1 = width 32 := by decide
  obtain ⟨i, hGet⟩ := List.mem_iff_getElem?.mp hMem
  obtain ⟨hId, -⟩ := h.numbered i version hGet
  have hLt := (List.getElem?_eq_some_iff.mp hGet).1
  have hMax := h.numbered.lt
  have hSequence := h.sequence
  unfold SequenceOk at hSequence
  split at hSequence
  case isTrue =>
    rw [hSequence.2.1] at hMem
    cases hMem
  case isFalse =>
    obtain ⟨-, -, ⟨arena, hImport⟩, -⟩ := hSequence
    obtain ⟨image, hDecode, -, hRoots⟩ := importImage_eq_ok.mp hImport
    obtain ⟨-, hRootsFit, -⟩ := decodeV2Image_eq_ok.mp hDecode
    exact ⟨by omega, hRootsFit version.root (hRoots ▸ List.mem_map_of_mem hMem)⟩

theorem canonicalStateLen_lt {identity : V2RootRecord} {messages result : Option V2RootRecord}
    {n : Nat} (h : canonicalStateLen identity messages result = some n) : n < width 64 := by
  have hBound : ∀ {a b c : Nat}, checkedAdd 64 a b = some c → c < width 64 := by
    intro a b c hAdd
    obtain ⟨hLt, rfl⟩ := checkedAdd_eq_some.mp hAdd
    exact hLt
  cases messages <;> cases result
  all_goals
    simp only [canonicalStateLen, Option.bind_eq_bind, Option.bind_eq_some_iff,
      Option.some.injEq] at h
    grind

theorem checkpointStateMetadata_lt {identity : V2RootRecord} {messages result : Option V2RootRecord}
    {state : V2StateMetadata} (h : checkpointStateMetadata sha256 identity messages result = .ok state) :
    state.logicalLen < width 64 := by
  simp only [checkpointStateMetadata, bind_eq_ok, okOr_eq_ok, pure_eq_ok] at h
  obtain ⟨n, hLen, rfl⟩ := h
  exact canonicalStateLen_lt hLen

theorem resolveOptionalRoot_lt {versions : List V2VersionRecord} {version : Option Nat}
    {root : Option V2RootRecord} (h : resolveOptionalRoot versions version = .ok root) :
    ∀ id ∈ version, id < versions.length := by
  rintro id hMem
  cases version with
  | none => cases hMem
  | some version =>
    cases hMem
    obtain ⟨root, hRoot, -⟩ := bind_eq_ok.mp h
    obtain ⟨record, hGet, -⟩ := resolveVersionRoot_eq_ok.mp hRoot
    exact (List.getElem?_eq_some_iff.mp hGet).1

/-- A checkpoint with a state over the versions names versions of the table. -/
theorem StateAgrees.below {versions : List V2VersionRecord} {checkpoint : V2CheckpointRecord}
    (h : StateAgrees sha256 versions checkpoint) : checkpoint.Below versions.length := by
  obtain ⟨identity, messages, result, hIdentity, hMessages, hResult, -⟩ := h
  obtain ⟨record, hGet, -⟩ := resolveVersionRoot_eq_ok.mp hIdentity
  exact ⟨(List.getElem?_eq_some_iff.mp hGet).1, resolveOptionalRoot_lt hMessages,
    resolveOptionalRoot_lt hResult⟩

theorem ValidSnapshot.fits_checkpoint (h : ValidSnapshot sha256 snapshot)
    {checkpoint : V2CheckpointRecord} (hMem : checkpoint ∈ snapshot.checkpoints)
    (hNo : checkpoint.checkpointNo < width 32) : checkpoint.Fits := by
  have hNone : v2NoneVersion + 1 = width 32 := by decide
  have hMax := h.numbered.lt
  have hState := h.checkpoints.state checkpoint hMem
  obtain ⟨hIdentity, hMessages, hResult⟩ := hState.below
  obtain ⟨_, _, _, -, -, -, hMetadata⟩ := hState
  exact ⟨hNo, by omega, fun id hId => by have := hMessages id hId; omega,
    fun id hId => by have := hResult id hId; omega, checkpointStateMetadata_lt hMetadata⟩

end Fits

/-! ## Sections -/

section Sections

variable {bytes : Bytes} {α : Type} {encode : α → Bytes} {Ok : α → Prop}
  {decode : Bytes → Except V2SnapshotError α}

theorem framedRecordLen_eq_ok (hBytes : bytes.length < width 64) {message : String}
    {cursor len : Nat} :
    framedRecordLen bytes message cursor = .ok len ↔
      slice bytes (cursor + 4) (cursor + 8) = some (leBytes 4 len) ∧ len < width 32 ∧ 1 ≤ len := by
  have hWidth : width 32 = 256 ^ 4 := by decide
  simp only [framedRecordLen, bind_eq_ok, okOr_eq_ok, checkedAdd_eq_some, readLe_eq_some,
    failIf_eq_ok, pure_eq_ok, exists_const]
  constructor
  · rintro ⟨_, ⟨-, rfl⟩, _, ⟨hSlice, hLt⟩, hPos, rfl⟩
    rw [Nat.add_assoc] at hSlice
    exact ⟨hSlice, by omega, by omega⟩
  · rintro ⟨hSlice, hLt, hPos⟩
    have hInside := (slice_eq_some.mp hSlice).2.1
    refine ⟨_, ⟨by omega, rfl⟩, _, ⟨?_, by omega⟩, by omega, rfl⟩
    rw [Nat.add_assoc]
    exact hSlice

theorem section_reads (hBytes : bytes.length < width 64) {message : String}
    {overflow truncated : V2SnapshotError}
    (hDecode : ∀ part record, decode part = .ok record ↔ Ok record ∧ part = encode record)
    (hFramed : ∀ record, Ok record → Framed (encode record)) :
    ReadsAt (fun _ record part => Ok record ∧ part = encode record)
      (fun _ => framedStep (framedRecordLen bytes message) overflow truncated decode bytes) bytes :=
  framedStep_reads hBytes (fun _ _ => framedRecordLen_eq_ok hBytes) hDecode
    fun _ record h => h.2 ▸ hFramed record h.1

theorem forall_getElem?_iff {P : α → Prop} {records : List α} :
    (∀ (i : Nat) record, records[i]? = some record → P record) ↔ ∀ record ∈ records, P record := by
  constructor
  · intro h record hMem
    obtain ⟨i, hGet⟩ := List.mem_iff_getElem?.mp hMem
    exact h i record hGet
  · exact fun h i record hGet => h record (List.mem_of_getElem? hGet)

/-- A section with a count is read back when it is the table of its records, in order. -/
theorem readSection_eq_ok (hBytes : bytes.length < width 64) {message : String}
    {overflow truncated : V2SnapshotError}
    (hDecode : ∀ part record, decode part = .ok record ↔ Ok record ∧ part = encode record)
    (hFramed : ∀ record, Ok record → Framed (encode record))
    {check : Option α → α → Except V2SnapshotError Unit} {R : α → α → Prop}
    (hCheck : ∀ previous record, check previous record = .ok () ↔ ∀ p ∈ previous, R p record)
    {count cursor stop : Nat} (hCursor : cursor ≤ bytes.length) {records : List α} :
    readOrdered (framedStep (framedRecordLen bytes message) overflow truncated decode bytes) check
        count none cursor = .ok (records, stop) ↔
      (records.length = count ∧ (∀ record ∈ records, Ok record) ∧
        slice bytes cursor (cursor + (records.map encode).flatten.length) =
          some (records.map encode).flatten ∧
        stop = cursor + (records.map encode).flatten.length) ∧ List.IsChain R records := by
  rw [readOrdered_eq_ok hCheck 0, readRecords_eq_ok (section_reads hBytes hDecode hFramed) hCursor]
  refine and_congr_left fun _ => and_congr_right fun _ => ?_
  constructor
  · rintro ⟨part, hTable, hSlice, rfl⟩
    obtain ⟨hOk, rfl⟩ := (table_iff (P := fun _ => Ok)).mp hTable
    exact ⟨forall_getElem?_iff.mp hOk, hSlice, rfl⟩
  · rintro ⟨hOk, hSlice, rfl⟩
    exact ⟨_, (table_iff (P := fun _ => Ok)).mpr ⟨forall_getElem?_iff.mpr hOk, rfl⟩, hSlice, rfl⟩

/-- The section at the end is read back when it is the table of its records, in order. -/
theorem readLastSection_eq_ok (hBytes : bytes.length < width 64) {message : String}
    {overflow truncated noEnd : V2SnapshotError}
    (hDecode : ∀ part record, decode part = .ok record ↔ Ok record ∧ part = encode record)
    (hFramed : ∀ record, Ok record → Framed (encode record))
    {check : Option α → α → Except V2SnapshotError Unit} {R : α → α → Prop}
    (hCheck : ∀ previous record, check previous record = .ok () ↔ ∀ p ∈ previous, R p record)
    {cursor : Nat} (hCursor : cursor ≤ bytes.length) {records : List α} :
    readWhile (framedStep (framedRecordLen bytes message) overflow truncated decode bytes) check
        bytes.length noEnd bytes.length none cursor = .ok records ↔
      ((∀ record ∈ records, Ok record) ∧
        slice bytes cursor bytes.length = some (records.map encode).flatten) ∧
      List.IsChain R records := by
  rw [readWhile_eq_ok (section_reads hBytes hDecode hFramed) (fun record part h => by
    have hPos := (h.2 ▸ hFramed record h.1 : Framed part).pos
    omega) hCheck 0 hCursor (Nat.sub_le _ _)]
  refine and_congr_left fun _ => ?_
  constructor
  · rintro ⟨part, hTable, hSlice⟩
    obtain ⟨hOk, rfl⟩ := (table_iff (P := fun _ => Ok)).mp hTable
    exact ⟨forall_getElem?_iff.mp hOk, hSlice⟩
  · rintro ⟨hOk, hSlice⟩
    exact ⟨_, (table_iff (P := fun _ => Ok)).mpr ⟨forall_getElem?_iff.mpr hOk, rfl⟩, hSlice⟩

theorem boundedCount_eq_ok {count remaining w n : Nat} (hPos : 0 < w) {message : String} :
    boundedCount count remaining w message = .ok n ↔ count * w ≤ remaining ∧ n = count := by
  simp only [boundedCount, bind_eq_ok, failIf_eq_ok, pure_eq_ok, exists_const, not_or, gt_iff_lt,
    Nat.not_lt, Nat.le_div_iff_mul_le hPos]
  constructor
  · rintro ⟨⟨-, hLe⟩, rfl⟩
    exact ⟨hLe, rfl⟩
  · rintro ⟨hLe, rfl⟩
    exact ⟨⟨by omega, hLe⟩, rfl⟩

end Sections

/-! ## The header -/

section Header

variable {sha256 : Bytes → Digest} {bytes : Bytes}

/-- The ranges of the header fields. -/
structure V2SnapshotHeader.Fits (header : V2SnapshotHeader) : Prop where
  totalLen : header.totalLen < width 64
  imageLen : header.imageLen < width 64
  versionCount : header.versionCount < width 64
  checkpointCount : header.checkpointCount < width 64
  activeRequestCount : header.activeRequestCount < width 64
  retiredRequestCount : header.retiredRequestCount < width 64
  versionRecordSize : header.versionRecordSize < width 32

theorem laid_snapshotHeader (header : V2SnapshotHeader) (digest : Digest) (body : Bytes) :
    bytes = snapshotHeaderPrefix header ++ digest.toList ++ body ↔
      slice bytes 0 4 = some v2SnapshotMagic ∧ slice bytes 4 8 = some (leBytes 4 v2SnapshotSchema) ∧
      slice bytes 8 16 = some (leBytes 8 header.totalLen) ∧
      slice bytes 16 24 = some (leBytes 8 header.imageLen) ∧
      slice bytes 24 32 = some (leBytes 8 header.versionCount) ∧
      slice bytes 32 40 = some (leBytes 8 header.checkpointCount) ∧
      slice bytes 40 48 = some (leBytes 8 header.activeRequestCount) ∧
      slice bytes 48 56 = some (leBytes 8 header.retiredRequestCount) ∧
      slice bytes 56 60 = some (leBytes 4 header.versionRecordSize) ∧
      slice bytes 60 64 = some (leBytes 4 0) ∧ slice bytes 64 96 = some digest.toList ∧
      slice bytes 96 (96 + body.length) = some body ∧ 96 + body.length = bytes.length := by
  have hParts : snapshotHeaderPrefix header ++ digest.toList ++ body = [v2SnapshotMagic,
      leBytes 4 v2SnapshotSchema, leBytes 8 header.totalLen, leBytes 8 header.imageLen,
      leBytes 8 header.versionCount, leBytes 8 header.checkpointCount,
      leBytes 8 header.activeRequestCount, leBytes 8 header.retiredRequestCount,
      leBytes 4 header.versionRecordSize, leBytes 4 0, digest.toList, body].flatten := by
    simp [snapshotHeaderPrefix]
  rw [hParts, ← laid_iff]
  simp only [Laid, length_v2SnapshotMagic, length_leBytes, Vector.length_toList, Nat.reduceAdd]

/-- The header and digest checks accept what the encoder writes in front of a body. -/
theorem decodeSnapshotHeader_eq_ok {header : V2SnapshotHeader} {u : Unit} :
    (decodeSnapshotHeader bytes = .ok header ∧ checkSnapshotDigest sha256 bytes header = .ok u) ↔
      header.Fits ∧ header.totalLen = bytes.length ∧
      ∃ body, bytes = snapshotHeaderPrefix header ++
        (snapshotDigest sha256 (snapshotHeaderPrefix header) body).toList ++ body := by
  have hWidth : width 32 = 256 ^ 4 := by decide
  have hWidth64 : width 64 = 256 ^ 8 := by decide
  have hHeader : v2SnapshotHeaderSize = 96 := rfl
  have hPrefix : v2SnapshotPrefixSize = 64 := rfl
  constructor
  · rintro ⟨hHead, hCheck⟩
    simp only [decodeSnapshotHeader, bind_eq_ok, failIf_eq_ok, okOr_eq_ok, readLe_eq_some, not_not,
      pure_eq_ok, exists_const, Nat.reduceAdd] at hHead
    obtain ⟨hLen, hMagic, schema, ⟨hSchema, -⟩, hSchemaOk, flags, ⟨hFlags, -⟩, hFlagsOk, totalLen,
      ⟨hTotal, hTotalLt⟩, imageLen, ⟨hImage, hImageLt⟩, versionCount, ⟨hVersions, hVersionsLt⟩,
      checkpointCount, ⟨hCheckpoints, hCheckpointsLt⟩, activeCount, ⟨hActive, hActiveLt⟩,
      retiredCount, ⟨hRetired, hRetiredLt⟩, recordSize, ⟨hRecordSize, hRecordSizeLt⟩, hResult⟩ :=
      hHead
    simp only [checkSnapshotDigest, bind_eq_ok, failIf_eq_ok, okOr_eq_ok, readArray_eq_some, not_not,
      exists_const] at hCheck
    obtain ⟨hTotalOk, digest, hDigest, hDigestOk⟩ := hCheck
    rw [hPrefix] at hDigest
    rw [hPrefix, hHeader] at hDigestOk
    rw [hSchemaOk] at hSchema
    rw [hFlagsOk] at hFlags
    rw [← hResult] at hTotalOk ⊢
    have hDrop : (bytes.drop 96).length = bytes.length - 96 := List.length_drop
    have hShape := (laid_snapshotHeader ⟨totalLen, imageLen, versionCount, checkpointCount,
      activeCount, retiredCount, recordSize⟩ digest (bytes.drop 96)).mpr ⟨hMagic, hSchema, hTotal,
      hImage, hVersions, hCheckpoints, hActive, hRetired, hRecordSize, hFlags, hDigest,
      slice_eq_some.mpr ⟨Nat.le_add_right _ _, by omega, by simp⟩, by omega⟩
    refine ⟨⟨by dsimp only; omega, by dsimp only; omega, by dsimp only; omega,
      by dsimp only; omega, by dsimp only; omega, by dsimp only; omega, by dsimp only; omega⟩,
      hTotalOk, bytes.drop 96, ?_⟩
    have hTake : bytes.take 64 = _ := take_of_shape hShape (by simp)
    rw [hDigestOk, hTake] at hShape
    exact hShape
  · rintro ⟨hFits, hTotalOk, body, hShape⟩
    have hTake : bytes.take 64 = _ := take_of_shape hShape (by simp)
    have hDrop : bytes.drop 96 = body := drop_of_shape hShape (by simp)
    obtain ⟨hMagic, hSchema, hTotal, hImage, hVersions, hCheckpoints, hActive, hRetired,
      hRecordSize, hFlags, hDigest, -, hLen⟩ := (laid_snapshotHeader _ _ _).mp hShape
    obtain ⟨hTotalLt, hImageLt, hVersionsLt, hCheckpointsLt, hActiveLt, hRetiredLt, hRecordSizeLt⟩ := hFits
    constructor
    · simp only [decodeSnapshotHeader, bind_eq_ok, failIf_eq_ok, okOr_eq_ok, readLe_eq_some, not_not,
        pure_eq_ok, exists_const, Nat.reduceAdd]
      exact ⟨by omega, hMagic, _, ⟨hSchema, by decide⟩, rfl, _, ⟨hFlags, by decide⟩, rfl, _,
        ⟨hTotal, by omega⟩, _, ⟨hImage, by omega⟩, _, ⟨hVersions, by omega⟩, _,
        ⟨hCheckpoints, by omega⟩, _, ⟨hActive, by omega⟩, _, ⟨hRetired, by omega⟩, _,
        ⟨hRecordSize, by omega⟩, rfl⟩
    · simp only [checkSnapshotDigest, bind_eq_ok, failIf_eq_ok, okOr_eq_ok, readArray_eq_some,
        not_not, exists_const]
      rw [hPrefix, hHeader]
      exact ⟨hTotalOk, _, hDigest, by rw [hTake, hDrop]⟩

end Header

/-! ## The version table -/

section Versions

variable {bytes : Bytes}

/-- What the table of versions can hold at an index. -/
def VersionAt (i : Nat) (version : V2VersionRecord) : Prop :=
  version.Fits ∧ version.versionId = i ∧ ParentVersionOk i version.parentVersion

theorem snapshotVersion_reads (hBytes : bytes.length < width 64) {w : Nat}
    {overflow truncated : V2SnapshotError} :
    ReadsAt (fun i version part => (VersionAt i version ∧ w = 72) ∧ part = versionBytes version)
      (fixedStep w snapshotVersionDecoder overflow truncated bytes) bytes := by
  refine fixedStep_reads hBytes fun index part version => ?_
  simp only [snapshotVersionDecoder, bind_eq_ok, okOr_eq_ok, tryFrom_eq_some, pure_eq_ok, VersionAt]
  constructor
  · rintro ⟨_, ⟨_, ⟨hLt, rfl⟩, rfl⟩, hLen, hDecode⟩
    obtain ⟨hFits, hId, hEncode⟩ := decodeV2Version_eq_ok.mp (mapErr_eq_ok.mp hDecode)
    obtain ⟨hParent, rfl⟩ := encodeV2Version_eq_ok.mp hEncode
    exact ⟨⟨⟨hFits, hId, hId ▸ hParent⟩, hLen ▸ length_versionBytes version⟩, rfl⟩
  · rintro ⟨⟨⟨hFits, hId, hParent⟩, rfl⟩, rfl⟩
    refine ⟨_, ⟨_, ⟨hId ▸ hFits.versionId, rfl⟩, rfl⟩, length_versionBytes version, ?_⟩
    exact mapErr_eq_ok.mpr (decodeV2Version_eq_ok.mpr ⟨hFits, hId,
      encodeV2Version_eq_ok.mpr ⟨hId ▸ hParent, rfl⟩⟩)

theorem decodeSnapshotVersions_eq_ok (hBytes : bytes.length < width 64) {header : V2SnapshotHeader}
    {cursor stop : Nat} (hCursor : cursor ≤ bytes.length) {versions : List V2VersionRecord} :
    decodeSnapshotVersions bytes header cursor = .ok (versions, stop) ↔
      versions.length = header.versionCount ∧
      header.versionRecordSize = (if versions = [] then 0 else 72) ∧
      (∀ (i : Nat) version, versions[i]? = some version → VersionAt i version) ∧
      slice bytes cursor (cursor + (versionTable versions).length) = some (versionTable versions) ∧
      stop = cursor + (versionTable versions).length := by
  have hMax : v2MaxFixedRecordSize = 4096 := rfl
  unfold decodeSnapshotVersions
  split
  case isTrue hNone =>
    simp only [bind_eq_ok, failIf_eq_ok, not_not, exists_const, pure_eq_ok, Prod.mk.injEq]
    rw [hNone, List.length_eq_zero_iff]
    constructor
    · rintro ⟨hSize, rfl, rfl⟩
      refine ⟨rfl, hSize, ?_, slice_eq_some.mpr ⟨Nat.le_refl _, hCursor, by simp [versionTable]⟩,
        rfl⟩
      intro i version hGet
      exact absurd hGet (by simp)
    · rintro ⟨rfl, hSize, -, -, rfl⟩
      exact ⟨hSize, rfl, rfl⟩
  case isFalse hSome =>
    simp only [bind_eq_ok, validateFixedRecordSize, failIf_eq_ok, exists_const, not_or, gt_iff_lt,
      Nat.not_lt, readRecords_eq_ok (snapshotVersion_reads hBytes) hCursor]
    constructor
    · rintro ⟨-, -, hCount, part, hTable, hSlice, rfl⟩
      obtain ⟨hOk, rfl⟩ := table_iff.mp hTable
      simp only [Nat.zero_add] at hOk
      obtain ⟨version, hGet⟩ : ∃ version, versions[0]? = some version :=
        ⟨_, List.getElem?_eq_getElem (by omega)⟩
      have hNe : versions ≠ [] := by
        rintro rfl
        cases hGet
      rw [if_neg hNe]
      exact ⟨hCount, (hOk 0 version hGet).2, fun i version hGet => (hOk i version hGet).1, hSlice, rfl⟩
    · rintro ⟨hCount, hSize, hOk, hSlice, rfl⟩
      have hNe : versions ≠ [] := by
        rintro rfl
        exact hSome hCount.symm
      rw [if_neg hNe] at hSize
      have hInside := (slice_eq_some.mp hSlice).2.1
      have hLen := length_versionTable versions
      refine ⟨⟨by omega, by omega⟩, ?_, hCount, _, table_iff.mpr ⟨?_, rfl⟩, hSlice, rfl⟩
      · rw [hSize, Nat.le_div_iff_mul_le (by decide)]
        omega
      · intro i version hGet
        rw [Nat.zero_add]
        exact ⟨hOk i version hGet, hSize⟩

end Versions

/-! ## The decoder -/

section Decoder

variable {sha256 : Bytes → Digest} {bytes : Bytes} {snapshot : V2SealedSnapshot}

theorem requireStrictRequestOrder_eq_ok {α : Type} {requestId : α → Bytes} (previous : Option α)
    (current : α) : requireStrictRequestOrder requestId previous current = .ok () ↔
      ∀ p ∈ previous, requestId p < requestId current := by
  simp only [requireStrictRequestOrder, failIf_eq_ok, not_exists, not_and, not_le]

theorem requireStrictDeletedOrder_eq_ok (previous : Option V2DeletedCheckpointRecord)
    (current : V2DeletedCheckpointRecord) : requireStrictDeletedOrder previous current = .ok () ↔
      ∀ p ∈ previous, p.key < current.key := by
  simp only [requireStrictDeletedOrder, failIf_eq_ok, not_exists, not_and, not_le]

theorem anyOrder_eq_ok {α : Type} (previous : Option α) (current : α) :
    anyOrder previous current = .ok () ↔ ∀ p ∈ previous, True := by
  simp [anyOrder]

theorem isChain_true {α : Type} (records : List α) : List.IsChain (fun _ _ => True) records := by
  induction records with
  | nil => exact .nil
  | cons record records ih => cases records with
    | nil => exact .singleton _
    | cons next records => exact .cons_cons trivial ih

/-- What the table of checkpoints can hold over a number of versions. -/
def CheckpointAt (count : Nat) (checkpoint : V2CheckpointRecord) : Prop :=
  checkpoint.Fits ∧ checkpoint.Below count ∧ checkpoint.Valid

theorem checkpointPart_eq_ok {count : Nat} (part : Bytes) (checkpoint : V2CheckpointRecord) :
    mapErr V2SnapshotError.publication (decodeV2Checkpoint part count) = .ok checkpoint ↔
      CheckpointAt count checkpoint ∧ part = canonicalCheckpoint checkpoint := by
  rw [mapErr_eq_ok, decodeV2Checkpoint_eq_ok, encodeV2Checkpoint_eq_ok, CheckpointAt,
    canonicalCheckpoint]
  tauto

theorem activePart_eq_ok (part : Bytes) (record : V2ActiveRequestRecord) :
    decodeActiveRequest part = .ok record ↔
      (record.checkpointOrdinal < width 64 ∧ LedgerIdOk record.requestId) ∧
        part = activeRequestBytes record := by
  rw [decodeActiveRequest_eq_ok, and_assoc]

theorem length_of_slice_to_end {start : Nat} {part : Bytes}
    (h : slice bytes start bytes.length = some part) : bytes.length = start + part.length := by
  have hLen := length_of_slice h
  have hInside := (slice_eq_some.mp h).1
  omega

theorem slice_snapshotBody {start : Nat} :
    slice bytes start (start + (snapshotBody snapshot).length) = some (snapshotBody snapshot) ↔
      slice bytes start (start + snapshot.image.length) = some snapshot.image ∧
      slice bytes (start + snapshot.image.length)
        (start + snapshot.image.length + (versionTable snapshot.versions).length) =
          some (versionTable snapshot.versions) ∧
      slice bytes (start + snapshot.image.length + (versionTable snapshot.versions).length)
        (start + snapshot.image.length + (versionTable snapshot.versions).length +
          (checkpointSection snapshot.checkpoints).length) =
          some (checkpointSection snapshot.checkpoints) ∧
      slice bytes (start + snapshot.image.length + (versionTable snapshot.versions).length +
          (checkpointSection snapshot.checkpoints).length)
        (start + snapshot.image.length + (versionTable snapshot.versions).length +
          (checkpointSection snapshot.checkpoints).length +
          (activeSection snapshot.activeRequests).length) =
          some (activeSection snapshot.activeRequests) ∧
      slice bytes (start + snapshot.image.length + (versionTable snapshot.versions).length +
          (checkpointSection snapshot.checkpoints).length +
          (activeSection snapshot.activeRequests).length)
        (start + snapshot.image.length + (versionTable snapshot.versions).length +
          (checkpointSection snapshot.checkpoints).length +
          (activeSection snapshot.activeRequests).length +
          (retiredSection snapshot.retiredRequests).length) =
          some (retiredSection snapshot.retiredRequests) ∧
      slice bytes (start + snapshot.image.length + (versionTable snapshot.versions).length +
          (checkpointSection snapshot.checkpoints).length +
          (activeSection snapshot.activeRequests).length +
          (retiredSection snapshot.retiredRequests).length)
        (start + snapshot.image.length + (versionTable snapshot.versions).length +
          (checkpointSection snapshot.checkpoints).length +
          (activeSection snapshot.activeRequests).length +
          (retiredSection snapshot.retiredRequests).length +
          (deletedSection snapshot.deletedCheckpoints).length) =
          some (deletedSection snapshot.deletedCheckpoints) := by
  simp only [snapshotBody, List.append_assoc, slice_append_eq_some]

/-- The decoder accepts exactly the sorted snapshots that the encoder writes. -/
theorem decodeV2SealedSnapshot_eq_ok :
    decodeV2SealedSnapshot sha256 bytes = .ok snapshot ↔
      (∀ checkpoint ∈ snapshot.checkpoints, checkpoint.checkpointNo < width 32) ∧
        snapshot.Sorted ∧ encodeV2SealedSnapshot sha256 snapshot = .ok bytes := by
  have hHeader : v2SnapshotHeaderSize = 96 := rfl
  have hCheckpointMin : v2MinCheckpointRecordSize = 88 := rfl
  have hActiveMin : v2ActiveRequestPrefixSize + 1 = 57 := rfl
  have hRetiredMin : v2RetiredRequestPrefixSize + 1 = 49 := rfl
  rw [encodeV2SealedSnapshot_eq_ok]
  constructor
  · intro h
    simp only [decodeV2SealedSnapshot, bind_eq_ok, okOr_eq_ok, checkedAdd_eq_some, pure_eq_ok] at h
    obtain ⟨header, hHead, _, hCheck, imageEnd, ⟨-, rfl⟩, image, hImage, ⟨versions, versionsEnd⟩,
      hVersions, checkpointCount, hCheckpointCount, ⟨checkpoints, checkpointsEnd⟩, hCheckpoints,
      activeCount, hActiveCount, ⟨active, activeEnd⟩, hActive, retiredCount, hRetiredCount,
      ⟨retired, retiredEnd⟩, hRetired, deleted, hDeleted, _, hValid, hResult⟩ := h
    obtain ⟨hFits, hTotal, body, hShape⟩ := decodeSnapshotHeader_eq_ok.mp ⟨hHead, hCheck⟩
    have hBytes : bytes.length < width 64 := hTotal ▸ hFits.totalLen
    rw [hHeader] at hImage hVersions
    have hImageLen : header.imageLen = image.length := by
      rw [length_of_slice hImage, Nat.add_sub_cancel_left]
    rw [hImageLen] at hImage hVersions
    obtain ⟨hVersionCount, hRecordSize, hVersionsAt, hVersionsSlice, rfl⟩ :=
      (decodeSnapshotVersions_eq_ok hBytes (slice_eq_some.mp hImage).2.1).mp hVersions
    obtain ⟨-, rfl⟩ := (boundedCount_eq_ok (by omega)).mp hCheckpointCount
    obtain ⟨⟨hCheckpointLen, hCheckpointsAt, hCheckpointsSlice, rfl⟩, -⟩ :=
      (readSection_eq_ok hBytes checkpointPart_eq_ok
        (fun checkpoint h => framed_canonicalCheckpoint h.2.2) anyOrder_eq_ok
        (slice_eq_some.mp hVersionsSlice).2.1).mp hCheckpoints
    obtain ⟨-, rfl⟩ := (boundedCount_eq_ok (by omega)).mp hActiveCount
    obtain ⟨⟨hActiveLen, -, hActiveSlice, rfl⟩, hActiveChain⟩ :=
      (readSection_eq_ok hBytes activePart_eq_ok (fun record h => framed_activeRequestBytes h.2)
        requireStrictRequestOrder_eq_ok (slice_eq_some.mp hCheckpointsSlice).2.1).mp hActive
    obtain ⟨-, rfl⟩ := (boundedCount_eq_ok (by omega)).mp hRetiredCount
    obtain ⟨⟨hRetiredLen, -, hRetiredSlice, rfl⟩, hRetiredChain⟩ :=
      (readSection_eq_ok hBytes (fun part record => decodeRetiredRequest_eq_ok)
        (fun record h => framed_retiredRequestBytes h)
        requireStrictRequestOrder_eq_ok (slice_eq_some.mp hActiveSlice).2.1).mp hRetired
    obtain ⟨⟨-, hDeletedSlice⟩, hDeletedChain⟩ :=
      (readLastSection_eq_ok hBytes (fun part record => decodeDeletedCheckpoint_eq_ok)
        (fun record h => framed_deletedCheckpointBytes h.1 h.2)
        requireStrictDeletedOrder_eq_ok (slice_eq_some.mp hRetiredSlice).2.1).mp hDeleted
    have hSorted : snapshot.Sorted := by
      rw [← hResult]
      exact ⟨isChain_iff_increasing.mp hActiveChain, isChain_iff_increasing.mp hRetiredChain,
        isChain_iff_increasing.mp hDeletedChain⟩
    have hEnd := length_of_slice_to_end hDeletedSlice
    have hBodySlice : slice bytes 96 (96 + (snapshotBody snapshot).length) =
        some (snapshotBody snapshot) := by
      rw [← hResult, slice_snapshotBody]
      refine ⟨hImage, hVersionsSlice, hCheckpointsSlice, hActiveSlice, hRetiredSlice, ?_⟩
      rw [hEnd] at hDeletedSlice
      exact hDeletedSlice
    have hWhole : 96 + (snapshotBody snapshot).length = bytes.length := by
      rw [← hResult, length_snapshotBody]
      dsimp only [checkpointSection, activeSection, retiredSection, deletedSection]
      omega
    have hSame : header = snapshotHeader snapshot := by
      obtain ⟨totalLen, imageLen, versionCount, checkpointCount, activeCount, retiredCount,
        recordSize⟩ := header
      dsimp only at hTotal hImageLen hVersionCount hRecordSize hCheckpointLen hActiveLen hRetiredLen
      rw [hTotal, ← hWhole, hImageLen, ← hVersionCount, hRecordSize, ← hCheckpointLen, ← hActiveLen,
        ← hRetiredLen, ← hResult]
      rfl
    have hBodySame : body = snapshotBody snapshot := by
      have hDrop : bytes.drop 96 = body := drop_of_shape hShape (by simp)
      rw [← hDrop, drop_of_slice hBodySlice hWhole]
    rw [hSame, hBodySame] at hShape
    rw [hResult] at hValid
    refine ⟨?_, hSorted, (validateSnapshot_eq_ok.mp hValid).1, ?_, ?_⟩
    · rw [← hResult]
      exact fun checkpoint hMem => (hCheckpointsAt checkpoint hMem).1.checkpointNo
    · rw [hSorted.sorted_eq, hHeader, hWhole]
      exact hBytes
    · rw [hSorted.sorted_eq]
      exact hShape
  · rintro ⟨hNo, hSorted, hValid, hTotal, hShape⟩
    rw [hSorted.sorted_eq] at hTotal hShape
    have hLen := @length_snapshotBody snapshot
    have hWhole : 96 + (snapshotBody snapshot).length = bytes.length := by
      rw [hShape, length_snapshotBytes, hHeader]
    have hBytes : bytes.length < width 64 := by omega
    have hVersionsLen := length_versionTable snapshot.versions
    have hCheckpointsLe := @checkpoints_le_section snapshot
    have hActiveLe := hValid.active_le
    have hRetiredLe := hValid.retired_le
    have hFits : (snapshotHeader snapshot).Fits := by
      refine ⟨?_, ?_, ?_, ?_, ?_, ?_, ?_⟩
      case refine_7 =>
        dsimp only [snapshotHeader]
        split <;> decide
      all_goals
        dsimp only [snapshotHeader]
        omega
    obtain ⟨hHead, hCheck⟩ := (decodeSnapshotHeader_eq_ok (u := ())).mpr ⟨hFits,
      show v2SnapshotHeaderSize + (snapshotBody snapshot).length = _ from hWhole,
      snapshotBody snapshot, hShape⟩
    have hBodySlice : slice bytes 96 (96 + (snapshotBody snapshot).length) =
        some (snapshotBody snapshot) := by
      refine slice_eq_some.mpr ⟨Nat.le_add_right _ _, by omega, ?_⟩
      have hDrop : bytes.drop 96 = snapshotBody snapshot := drop_of_shape hShape (by simp)
      rw [hDrop, Nat.add_sub_cancel_left, List.take_length]
    obtain ⟨hImage, hVersionsSlice, hCheckpointsSlice, hActiveSlice, hRetiredSlice, hDeletedSlice⟩ :=
      slice_snapshotBody.mp hBodySlice
    have hEnd : 96 + snapshot.image.length + (versionTable snapshot.versions).length +
        (checkpointSection snapshot.checkpoints).length +
        (activeSection snapshot.activeRequests).length +
        (retiredSection snapshot.retiredRequests).length +
        (deletedSection snapshot.deletedCheckpoints).length = bytes.length := by
      omega
    rw [hEnd] at hDeletedSlice
    simp only [decodeV2SealedSnapshot, bind_eq_ok, okOr_eq_ok, checkedAdd_eq_some, pure_eq_ok]
    refine ⟨_, hHead, _, hCheck, _, ⟨?_, rfl⟩, snapshot.image, hImage,
      ⟨snapshot.versions, _⟩, (decodeSnapshotVersions_eq_ok hBytes
        (slice_eq_some.mp hImage).2.1).mpr ⟨rfl, rfl, ?_, hVersionsSlice, rfl⟩, _,
      (boundedCount_eq_ok (by omega)).mpr ⟨?_, rfl⟩, ⟨snapshot.checkpoints, _⟩,
      (readSection_eq_ok hBytes checkpointPart_eq_ok
        (fun checkpoint h => framed_canonicalCheckpoint h.2.2) anyOrder_eq_ok
        (slice_eq_some.mp hVersionsSlice).2.1).mpr
        ⟨⟨rfl, ?_, hCheckpointsSlice, rfl⟩, isChain_true _⟩, _,
      (boundedCount_eq_ok (by omega)).mpr ⟨?_, rfl⟩, ⟨snapshot.activeRequests, _⟩,
      (readSection_eq_ok hBytes activePart_eq_ok (fun record h => framed_activeRequestBytes h.2)
        requireStrictRequestOrder_eq_ok (slice_eq_some.mp hCheckpointsSlice).2.1).mpr
        ⟨⟨rfl, ?_, hActiveSlice, rfl⟩, isChain_iff_increasing.mpr hSorted.active⟩, _,
      (boundedCount_eq_ok (by omega)).mpr ⟨?_, rfl⟩, ⟨snapshot.retiredRequests, _⟩,
      (readSection_eq_ok hBytes (fun part record => decodeRetiredRequest_eq_ok)
        (fun record h => framed_retiredRequestBytes h)
        requireStrictRequestOrder_eq_ok (slice_eq_some.mp hActiveSlice).2.1).mpr
        ⟨⟨rfl, ?_, hRetiredSlice, rfl⟩, isChain_iff_increasing.mpr hSorted.retired⟩,
      snapshot.deletedCheckpoints,
      (readLastSection_eq_ok hBytes (fun part record => decodeDeletedCheckpoint_eq_ok)
        (fun record h => framed_deletedCheckpointBytes h.1 h.2)
        requireStrictDeletedOrder_eq_ok (slice_eq_some.mp hRetiredSlice).2.1).mpr
        ⟨⟨?_, hDeletedSlice⟩, isChain_iff_increasing.mpr hSorted.deleted⟩,
      (), validateSnapshot_eq_ok.mpr ⟨hValid, ?_⟩, rfl⟩
    · change v2SnapshotHeaderSize + snapshot.image.length < width 64
      omega
    · intro i version hGet
      obtain ⟨hId, hParent⟩ := hValid.numbered i version hGet
      exact ⟨hValid.fits_version (List.mem_of_getElem? hGet), hId, hParent⟩
    · change snapshot.checkpoints.length * 88 ≤ bytes.length - (96 + snapshot.image.length +
        (versionTable snapshot.versions).length)
      omega
    · intro checkpoint hMem
      exact ⟨hValid.fits_checkpoint hMem (hNo checkpoint hMem),
        (hValid.checkpoints.state checkpoint hMem).below, hValid.checkpoints.valid checkpoint hMem⟩
    · change snapshot.activeRequests.length * 57 ≤ bytes.length - (96 +
        snapshot.image.length + (versionTable snapshot.versions).length +
        (checkpointSection snapshot.checkpoints).length)
      omega
    · intro record hMem
      obtain ⟨hId, checkpoint, hGet, -⟩ := hValid.active record hMem
      have hBelow := (List.getElem?_eq_some_iff.mp hGet).1
      exact ⟨by omega, hId⟩
    · change snapshot.retiredRequests.length * 49 ≤ bytes.length - (96 +
        snapshot.image.length + (versionTable snapshot.versions).length +
        (checkpointSection snapshot.checkpoints).length +
        (activeSection snapshot.activeRequests).length)
      omega
    · exact fun record hMem => (hValid.retired record hMem).1
    · intro record hMem
      obtain ⟨hThread, hId, -⟩ := hValid.deleted record hMem
      exact ⟨hThread, hId⟩
    · change snapshot.checkpoints.length ≤ width 64
      omega

end Decoder

end TulyaStore.V2
