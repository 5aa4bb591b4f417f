import TulyaStore.Lib.ZeroTail
import TulyaStore.V2.CommitCodec
import TulyaStore.V2.HotWal
import TulyaStore.V2.StateRuns

/-!
# Torn tails of the hot log

A log of complete frames recovers to the state its commits lead to (`recoverV2HotWal_frames`). When
the next frame is cut short, with or without zeros behind the cut, recovery still gives that state,
unless the cut leaves only a part of the magic in front of zeros: `torn_tail_recovers_iff`.
-/

namespace TulyaStore.V2

open Lib Sequence

section Frames

variable {sha256 : Bytes → Digest} {commit frame bytes rest : Bytes}

/-! ## One frame -/

/-- A complete frame around a commit, by the fields the probe reads. -/
structure HotFrame (commit frame : Bytes) : Prop where
  magic : slice commit 0 4 = some v2CommitMagic
  len : slice commit 4 8 = some (leBytes 4 commit.length)
  size_le : v2CommitHeaderSize ≤ commit.length
  frame_lt : commit.length + v2HotFooterSize < width 32
  footer : ∃ digest, slice commit v2CommitDigestOffset v2CommitDigestEnd = some digest ∧
    frame = commit ++ hotFooter (commit.length + v2HotFooterSize) digest

theorem length_hotFooter {frameLen : Nat} {digest : Bytes} :
    (hotFooter frameLen digest).length = 8 + digest.length := by
  have hMagic : v2HotFooterMagic.length = 4 := by decide
  rw [hotFooter, List.length_append, List.length_append, length_leBytes, hMagic]

theorem HotFrame.length (h : HotFrame commit frame) :
    frame.length = commit.length + v2HotFooterSize := by
  obtain ⟨digest, hDigest, rfl⟩ := h.footer
  have hLen := length_of_slice hDigest
  rw [List.length_append, length_hotFooter, hLen]
  rfl

theorem encodeV2HotFrame_hotFrame (h : encodeV2HotFrame sha256 commit = .ok frame) :
    HotFrame commit frame := by
  simp only [encodeV2HotFrame, bind_eq_ok, mapErr_eq_ok, okOr_eq_ok, checkedAdd_eq_some,
    tryFrom_eq_some, failIf_eq_ok, not_not, pure_eq_ok, exists_const] at h
  obtain ⟨decoded, hDecode, _, ⟨-, rfl⟩, frameLen, ⟨hLt, rfl⟩, -, rfl⟩ := h
  simp only [decodeV2Commit, bind_eq_ok] at hDecode
  obtain ⟨header, hHeader, hDecode⟩ := hDecode
  have hDigest : decoded.commitDigest = header.commitDigest := by
    obtain ⟨_, -, _, -, _, -, _, -, _, -, _, -, _, -, _, -, _, -, _, -, hResult⟩ := hDecode
    rw [← pure_eq_ok.mp hResult]
  obtain ⟨-, -, -, body, hShape, -⟩ := decodeCommitHeader_eq_ok.mp hHeader
  obtain ⟨hMagic, hLen, -, -, -, -, -, hDigestAt, -, hSize⟩ := (laid_commitHeader _ _ _).mp hShape
  refine ⟨hMagic, hLen, ?_, hLt, _, hDigestAt, by rw [hDigest]⟩
  exact (Nat.le_add_right 88 _).trans_eq hSize

theorem HotFrame.prefix_commit (h : HotFrame commit frame) : commit <+: frame := by
  obtain ⟨digest, -, rfl⟩ := h.footer
  exact List.prefix_append _ _

/-- A range of the commit is the same range of the frame. -/
theorem HotFrame.slice_commit (h : HotFrame commit frame) {a b : Nat} {part : Bytes}
    (hSlice : slice commit a b = some part) : slice frame a b = some part := by
  obtain ⟨tail, hTail⟩ := h.prefix_commit
  rw [← hTail]
  exact slice_append hSlice

theorem isZeroPadded_padded {part expected : Bytes} {zeros : Nat} (h : part <+: expected)
    (hLen : part.length + zeros = expected.length) :
    isZeroPadded (padded part zeros) expected = true := by
  obtain ⟨tail, rfl⟩ := h
  rw [isZeroPadded, if_neg (by rw [length_padded]; omega), List.any_eq_true]
  refine ⟨part.length, ?_, ?_⟩
  · rw [List.mem_reverse, List.mem_range, length_padded]
    omega
  rw [Bool.and_eq_true, decide_eq_true_iff]
  constructor
  · rw [padded, slice_eq_some.mpr ⟨Nat.zero_le _, by simp, rfl⟩, Eq.comm, slice_eq_some]
    simp
  · rw [padded, List.drop_left]
    simp [allZero]

/-- The probe of the footer, by what stands where the footer has to stand. -/
theorem probeFooter_eq {commitLen frameLen : Nat} {digest actual : Bytes}
    (hLt : frameLen < width 32)
    (hDigest : slice bytes v2CommitDigestOffset v2CommitDigestEnd = some digest)
    (hActual : slice bytes commitLen frameLen = some actual) :
    probeFooter bytes commitLen frameLen =
      if actual = hotFooter frameLen digest then .ok (.complete commitLen frameLen)
      else if isZeroPadded actual (hotFooter frameLen digest) = true then .ok .torn
      else .error (.invalid "v2 hot completion footer mismatch") := by
  rw [probeFooter, tryFrom_of_lt hLt, okOr_some, ok_bind, hDigest, okOr_some, ok_bind, hActual,
    okOr_some, ok_bind]
  by_cases hSame : actual = hotFooter frameLen digest
  · rw [if_neg (not_not_intro hSame), if_pos hSame]
    rfl
  · rw [if_pos hSame, if_neg hSame]

/-- The probe behind the magic, for a length field that names a whole header. -/
theorem probeLength_eq {commitLen : Nat} (hLen : slice bytes 4 8 = some (leBytes 4 commitLen))
    (hLt : commitLen < width 32) (hHeader : v2CommitHeaderSize ≤ commitLen) :
    probeLength bytes = if commitLen + v2HotFooterSize > bytes.length then .ok .torn
      else probeFooter bytes commitLen (commitLen + v2HotFooterSize) := by
  have hWidth : width 32 = 256 ^ 4 := by decide
  have hSum : commitLen + v2HotFooterSize < width 64 := by
    have hBound : width 32 + v2HotFooterSize < width 64 := by decide +kernel
    omega
  have hRead : readLe 4 bytes 4 = some commitLen := readLe_eq_some.mpr ⟨hLen, by omega⟩
  rw [probeLength, hRead, okOr_some, ok_bind, if_neg (Nat.not_lt.mpr hHeader),
    checkedAdd_of_lt hSum, okOr_some, ok_bind]

/-- The probe of bytes that are long enough for the length field. -/
theorem probeV2HotFrame_eq (hMagic : slice bytes 0 4 = some v2CommitMagic) (hLen : 8 ≤ bytes.length) :
    probeV2HotFrame bytes = probeLength bytes := by
  have hFour : v2CommitMagic.length = 4 := by decide
  rw [probeV2HotFrame, hFour, if_neg (by omega), if_neg (not_not_intro hMagic), if_neg (by omega)]

/-- A complete frame is found in front of whatever follows it. -/
theorem HotFrame.probe (h : HotFrame commit frame) (rest : Bytes) :
    probeV2HotFrame (frame ++ rest) = .ok (.complete commit.length frame.length) := by
  have hHeader : v2CommitHeaderSize = 88 := rfl
  have hSize := h.size_le
  have hLt := h.frame_lt
  have hLength := h.length
  obtain ⟨digest, hDigest, hFrame⟩ := h.footer
  have hFooter : slice (frame ++ rest) commit.length frame.length =
      some (hotFooter (commit.length + v2HotFooterSize) digest) := by
    refine slice_append ?_
    rw [hFrame, List.length_append]
    exact slice_append_self
  rw [probeV2HotFrame_eq (slice_append (h.slice_commit h.magic))
      (by rw [List.length_append, hLength]; omega),
    probeLength_eq (slice_append (h.slice_commit h.len)) (by omega) h.size_le,
    if_neg (by rw [List.length_append, hLength]; omega), ← hLength,
    probeFooter_eq (hLength ▸ hLt) (slice_append (h.slice_commit hDigest)) hFooter, hLength,
    if_pos rfl]

/-! ## A frame that was cut -/

/-- The footer starts with a byte that is not zero. -/
theorem hotFooter_ne_zeros {frameLen zeros : Nat} {digest : Bytes} :
    List.replicate zeros 0 ≠ hotFooter frameLen digest := by
  intro hSame
  have hHead : (hotFooter frameLen digest)[0]? = some 84 := rfl
  rw [← hSame, List.getElem?_replicate] at hHead
  split at hHead
  case isTrue => cases hHead
  case isFalse => cases hHead

/-- Where only zeros stand in place of the footer, the frame is torn. -/
theorem probeFooter_zeros {commitLen : Nat} {digest : Bytes}
    (hLt : commitLen + v2HotFooterSize < width 32)
    (hDigest : slice bytes v2CommitDigestOffset v2CommitDigestEnd = some digest)
    (hActual : slice bytes commitLen (commitLen + v2HotFooterSize) =
      some (List.replicate v2HotFooterSize 0)) :
    probeFooter bytes commitLen (commitLen + v2HotFooterSize) = .ok .torn := by
  have hLen := length_of_slice hDigest
  have hPadded : isZeroPadded (padded [] v2HotFooterSize)
      (hotFooter (commitLen + v2HotFooterSize) digest) = true := by
    refine isZeroPadded_padded List.nil_prefix ?_
    rw [length_hotFooter, hLen]
    rfl
  rw [probeFooter_eq hLt hDigest hActual, if_neg hotFooter_ne_zeros, if_pos]
  exact hPadded

variable {cut : Bytes} {zeros : Nat}

/-- A cut in the length field: the zeros behind it make a smaller length. -/
theorem HotFrame.probe_cut_length (h : HotFrame commit frame) (hCut : cut <+: frame)
    (hFour : 4 ≤ cut.length) (hEight : cut.length < 8) :
    probeV2HotFrame (padded cut zeros) = .ok .torn := by
  have hHeader : v2CommitHeaderSize = 88 := rfl
  have hOffset : v2CommitDigestOffset = 56 := rfl
  have hEnd : v2CommitDigestEnd = 88 := rfl
  have hLt := h.frame_lt
  have hMagic : slice (padded cut zeros) 0 4 = some v2CommitMagic := by
    rw [slice_padded_front hCut hFour]
    exact h.slice_commit h.magic
  by_cases hShort : (padded cut zeros).length < 8
  · have hLen : v2CommitMagic.length = 4 := by decide
    rw [length_padded] at hShort
    rw [probeV2HotFrame, length_padded, hLen, if_neg (by omega), if_neg (not_not_intro hMagic),
      if_pos hShort]
  · rw [length_padded] at hShort
    rw [probeV2HotFrame_eq hMagic (by rw [length_padded]; omega)]
    -- the field holds the bytes in front of the cut and zeros
    obtain ⟨rest, hRest⟩ := hCut
    have hField : cut.drop 4 = (leBytes 4 commit.length).take (cut.length - 4) := by
      obtain ⟨-, -, hLen⟩ := slice_eq_some.mp (h.slice_commit h.len)
      rw [← hLen, ← hRest, List.drop_append_of_le_length hFour, List.take_take,
        List.take_append_of_le_length (by rw [List.length_drop]; omega),
        List.take_of_length_le (by rw [List.length_drop]; omega)]
    have hPart := slice_padded _ zeros (show 4 ≤ 8 by decide) (by omega) hEight.le
    rw [hField, Nat.max_eq_right hFour] at hPart
    have hPartLen : (padded ((leBytes 4 commit.length).take (cut.length - 4))
        (8 - cut.length)).length = 4 := by
      rw [length_padded, List.length_take, length_leBytes]
      omega
    have hSmaller := leValue_padded_take_le (leBytes 4 commit.length) (cut.length - 4)
      (8 - cut.length)
    have hWidth : width 32 = 256 ^ 4 := by decide
    rw [leValue_leBytes (by omega)] at hSmaller
    generalize padded ((leBytes 4 commit.length).take (cut.length - 4)) (8 - cut.length) = field
      at hPart hPartLen hSmaller
    rw [← leBytes_leValue field, hPartLen] at hPart
    generalize leValue field = len at hPart hSmaller
    by_cases hWhole : v2CommitHeaderSize ≤ len
    · rw [probeLength_eq hPart (by omega) hWhole]
      split
      case isTrue => rfl
      case isFalse hFits =>
        rw [length_padded] at hFits
        have hDigest := slice_padded_behind cut zeros
          (show v2CommitDigestOffset ≤ v2CommitDigestEnd by decide) (by omega) (by omega)
        refine probeFooter_zeros (by omega) hDigest ?_
        rw [slice_padded_behind _ _ (by omega) (by omega) (by omega), Nat.add_sub_cancel_left]
    · have hRead : readLe 4 (padded cut zeros) 4 = some len :=
        readLe_eq_some.mpr ⟨hPart, by omega⟩
      rw [probeLength, hRead, okOr_some, ok_bind, if_pos (by omega), if_pos]
      rw [slice_padded_behind _ _ (by rw [length_padded]; omega) (by rw [length_padded]; omega) hEight.le]
      simp [allZero]

/-- A cut behind the length field leaves a torn frame, unless the zeros complete the frame. -/
theorem HotFrame.probe_cut_behind (h : HotFrame commit frame) (hCut : cut <+: frame)
    (hEight : 8 ≤ cut.length) (hTorn : ¬ frame <+: padded cut zeros) :
    probeV2HotFrame (padded cut zeros) = .ok .torn := by
  have hHeader : v2CommitHeaderSize = 88 := rfl
  have hEnd : v2CommitDigestEnd = 88 := rfl
  have hSize := h.size_le
  have hLt := h.frame_lt
  have hLength := h.length
  have hLe : cut.length ≤ frame.length := hCut.length_le
  rw [probeV2HotFrame_eq
      ((slice_padded_front hCut (by omega)).trans (h.slice_commit h.magic))
      (by rw [length_padded]; omega),
    probeLength_eq ((slice_padded_front hCut (by omega)).trans (h.slice_commit h.len)) (by omega)
      h.size_le]
  split
  case isTrue => rfl
  case isFalse hFits =>
    rw [length_padded] at hFits
    by_cases hCommit : cut.length ≤ commit.length
    · have hDigest : ∃ digest, slice (padded cut zeros) v2CommitDigestOffset v2CommitDigestEnd =
          some digest :=
        ⟨_, slice_eq_some.mpr ⟨by decide, by rw [length_padded]; omega, rfl⟩⟩
      obtain ⟨digest, hDigest⟩ := hDigest
      refine probeFooter_zeros hLt hDigest ?_
      rw [slice_padded_behind _ _ (by omega) (by omega) hCommit, Nat.add_sub_cancel_left]
    · -- the commit is whole and the footer is cut
      obtain ⟨digest, hDigest, hFrame⟩ := h.footer
      obtain ⟨rest, hRest⟩ := hCut
      have hPrefix : commit <+: cut := List.prefix_of_prefix_length_le h.prefix_commit
        ⟨rest, hRest⟩ (by omega)
      obtain ⟨part, rfl⟩ := hPrefix
      rw [List.append_assoc, hFrame, List.append_cancel_left_eq] at hRest
      rw [List.length_append] at hCommit hFits hLe
      have hPart : part <+: hotFooter (commit.length + v2HotFooterSize) digest := ⟨rest, hRest⟩
      have hActual := slice_padded (commit ++ part) zeros
        (Nat.le_add_right commit.length v2HotFooterSize) (by rw [List.length_append]; omega)
        (by rw [List.length_append]; omega)
      rw [List.drop_left, List.length_append, Nat.max_eq_right (Nat.le_add_right _ _)] at hActual
      have hFooterLen : (hotFooter (commit.length + v2HotFooterSize) digest).length =
          v2HotFooterSize := by
        rw [length_hotFooter, length_of_slice hDigest]
        rfl
      rw [probeFooter_eq hLt ((slice_padded_front ⟨rest, by rw [List.append_assoc, hRest, hFrame]⟩
        (by rw [List.length_append]; omega)).trans (h.slice_commit hDigest)) hActual, if_neg, if_pos]
      · exact isZeroPadded_padded hPart (by omega)
      · intro hSame
        refine hTorn ?_
        have hMissing : zeros = commit.length + v2HotFooterSize - (commit.length + part.length) +
            (zeros - (commit.length + v2HotFooterSize - (commit.length + part.length))) := by omega
        rw [hFrame, ← hSame, padded, padded, ← List.append_assoc, hMissing, List.replicate_add,
          ← List.append_assoc]
        exact List.prefix_append _ _

/-! ## The scanner -/

theorem HotFrame.take_four (h : HotFrame commit frame) : frame.take 4 = v2CommitMagic :=
  (slice_eq_some.mp (h.slice_commit h.magic)).2.2

/-- A nonempty cut of a frame starts as the magic does. -/
theorem HotFrame.getElem?_cut (h : HotFrame commit frame) (zeros : Nat) (hCut : cut <+: frame)
    {i : Nat} (hFour : i < 4) (hLt : i < cut.length) : (padded cut zeros)[i]? = v2CommitMagic[i]? := by
  obtain ⟨rest, hRest⟩ := hCut
  rw [padded, List.getElem?_append_left hLt, ← h.take_four, ← hRest, List.getElem?_take_of_lt hFour,
    List.getElem?_append_left hLt]

theorem startsWithZeroReserve_of_head {b : UInt8} (h : bytes[0]? = some b) (hNonzero : b ≠ 0) :
    startsWithZeroReserve bytes = false := by
  cases bytes with
  | nil => cases h
  | cons b' rest =>
    obtain rfl : b' = b := Option.some.inj h
    have hTake : ∃ tail, (b' :: rest).take (min (b' :: rest).length 4) = b' :: tail := by
      refine ⟨rest.take (min (b' :: rest).length 4 - 1), ?_⟩
      have hPos : min (b' :: rest).length 4 = min (b' :: rest).length 4 - 1 + 1 := by
        rw [List.length_cons]
        omega
      rw [hPos, List.take_succ_cons]
      rfl
    obtain ⟨tail, hTail⟩ := hTake
    rw [startsWithZeroReserve, hTail, allZero, List.all_cons, decide_eq_false hNonzero,
      Bool.false_and, Bool.and_false]

theorem allZero_replicate (n : Nat) : allZero (List.replicate n 0) = true := by simp [allZero]

theorem scanHotFrame_zeros {n : Nat} (h : 0 < n) :
    scanHotFrame (List.replicate n 0) = .ok (.stop .zeroReserve) := by
  have hReserve : startsWithZeroReserve (List.replicate n 0) = true := by
    rw [startsWithZeroReserve, List.take_replicate, allZero_replicate, Bool.and_true,
      decide_eq_true_iff, List.length_replicate]
    omega
  rw [scanHotFrame, if_pos hReserve, if_pos (allZero_replicate n)]

/-- Bytes that start with the magic go to the probe. -/
theorem scanHotFrame_eq (hHead : bytes[0]? = v2CommitMagic[0]?)
    (hMagic : slice bytes 0 4 ≠ some v2StructuralMagic) :
    scanHotFrame bytes = scannedProbe (probeV2HotFrame bytes) := by
  have hReserve := startsWithZeroReserve_of_head (b := 84) hHead (by decide)
  rw [scanHotFrame, hReserve, if_neg Bool.false_ne_true, if_neg hMagic]

theorem HotFrame.scan (h : HotFrame commit frame) (rest : Bytes) :
    scanHotFrame (frame ++ rest) = .ok (.commit commit.length frame.length) := by
  have hHeader : v2CommitHeaderSize = 88 := rfl
  have hSize := h.size_le
  have hHead : (frame ++ rest)[0]? = v2CommitMagic[0]? := by
    rw [← h.take_four, List.getElem?_take_of_lt (by decide),
      List.getElem?_append_left (by rw [h.length]; omega)]
  have hMagic : slice (frame ++ rest) 0 4 ≠ some v2StructuralMagic := by
    rw [slice_append (h.slice_commit h.magic)]
    decide
  rw [scanHotFrame_eq hHead hMagic, h.probe]
  rfl

/-- A cut frame is torn, unless the zeros behind the cut complete it or follow a part of the
magic. -/
theorem HotFrame.scan_cut (h : HotFrame commit frame) (hCut : cut <+: frame) (hPos : 1 ≤ cut.length)
    (hMagic : cut.length ≤ 3 → zeros = 0) (hTorn : ¬ frame <+: padded cut zeros) :
    scanHotFrame (padded cut zeros) = .ok (.stop .tornFinalCommit) := by
  have hHead := h.getElem?_cut zeros hCut (i := 0) (by decide) hPos
  have hFour : v2CommitMagic.length = 4 := by decide
  by_cases hShort : cut.length ≤ 3
  · obtain rfl := hMagic hShort
    rw [padded_zero] at hHead ⊢
    have hNone : slice cut 0 4 ≠ some v2StructuralMagic := by
      intro hSome
      have := (slice_eq_some.mp hSome).2.1
      omega
    have hPrefix : cut <+: v2CommitMagic := by
      rw [← h.take_four, List.prefix_take_iff]
      exact ⟨hCut, by omega⟩
    rw [scanHotFrame_eq hHead hNone, probeV2HotFrame, if_pos (by omega), if_pos hPrefix]
    rfl
  · have hOther : slice (padded cut zeros) 0 4 ≠ some v2StructuralMagic := by
      rw [slice_padded_front hCut (by omega), h.slice_commit h.magic]
      decide
    rw [scanHotFrame_eq hHead hOther]
    by_cases hEight : cut.length < 8
    · rw [h.probe_cut_length hCut (by omega) hEight]
      rfl
    · rw [h.probe_cut_behind hCut (by omega) hTorn]
      rfl

/-- Zeros behind a part of the magic are no frame the scanner knows. -/
theorem HotFrame.scan_magic (h : HotFrame commit frame) (hCut : cut <+: frame) (hPos : 1 ≤ cut.length)
    (hShort : cut.length ≤ 3) (hZeros : 1 ≤ zeros) :
    ∃ e, scanHotFrame (padded cut zeros) = .error e := by
  have hFour : v2CommitMagic.length = 4 := by decide
  have hHead := h.getElem?_cut zeros hCut (i := 0) (by decide) hPos
  have hZero := getElem?_padded_length cut hZeros
  -- neither magic has a zero at the cut
  have hNotMagic : ∀ magic : Bytes, magic.length = 4 → 0 ∉ magic →
      slice (padded cut zeros) 0 4 ≠ some magic := by
    intro magic hLen hNonzero hSome
    obtain ⟨-, -, hTake⟩ := slice_eq_some.mp hSome
    refine hNonzero (List.mem_of_getElem? (i := cut.length) ?_)
    rw [← hTake, List.drop_zero, List.getElem?_take_of_lt (by omega), hZero]
  rw [scanHotFrame_eq hHead (hNotMagic _ (by decide) (by decide)), probeV2HotFrame]
  by_cases hLen : (padded cut zeros).length < v2CommitMagic.length
  · have hNoPrefix : ¬ padded cut zeros <+: v2CommitMagic := by
      rintro ⟨rest, hRest⟩
      have hNonzero : (0 : UInt8) ∉ v2CommitMagic := by decide
      refine hNonzero (List.mem_of_getElem? (i := cut.length) ?_)
      rw [← hRest, List.getElem?_append_left (by rw [length_padded]; omega), hZero]
    rw [if_pos hLen, if_neg hNoPrefix]
    exact ⟨_, rfl⟩
  · rw [if_neg hLen, if_pos (hNotMagic _ hFour (by decide))]
    exact ⟨_, rfl⟩

end Frames

/-! ## Recovery of complete frames -/

section Recovery

variable (sha256 : Bytes → Digest)

/-- The commits applied one after the other, each of them new. -/
def replayCommits (state : V2CommittedState) (commits : List Bytes) :
    Except V2RecoveryError V2CommittedState :=
  commits.foldlM (fun state commit => applyRecovered sha256 commit state) state

/-- The frames of the commits. -/
def HotFrames (commits frames : List Bytes) : Prop :=
  List.Forall₂ (fun commit frame => encodeV2HotFrame sha256 commit = .ok frame) commits frames

variable {sha256} {commit frame bytes rest : Bytes} {commits frames : List Bytes}
  {state : V2CommittedState} {result : V2RecoveredHotWal} {cursor count fuel : Nat}

theorem recoverFrames_frame (hFrame : HotFrame commit frame)
    (hDrop : bytes.drop cursor = frame ++ rest) :
    recoverFrames sha256 bytes (fuel + 1) ⟨state, cursor, count⟩ = .ok result ↔
      ∃ next, applyRecovered sha256 commit state = .ok next ∧ cursor + frame.length < width 64 ∧
        count + 1 < width 64 ∧ recoverFrames sha256 bytes fuel
          ⟨next, cursor + frame.length, count + 1⟩ = .ok result := by
  have hLength := hFrame.length
  have hSize : v2HotFooterSize = 40 := rfl
  have hBytes := congrArg List.length hDrop
  rw [List.length_drop, List.length_append] at hBytes
  have hCursor : cursor < bytes.length := by omega
  have hRecord : slice (frame ++ rest) 0 commit.length = some commit :=
    slice_append (hFrame.slice_commit (slice_eq_some.mpr ⟨Nat.zero_le _, le_rfl, by simp⟩))
  rw [recoverFrames]
  dsimp only
  rw [if_pos hCursor, hDrop, hFrame.scan, ok_bind]
  simp only [recoverCommit, hRecord, okOr_some, ok_bind, bind_eq_ok, okOr_eq_ok, checkedAdd_eq_some,
    pure_eq_ok]
  constructor
  · rintro ⟨_, ⟨next, hApply, _, ⟨hEnd, rfl⟩, _, ⟨hCount, rfl⟩, rfl⟩, hRest⟩
    exact ⟨next, hApply, hEnd, hCount, hRest⟩
  · rintro ⟨next, hApply, hEnd, hCount, hRest⟩
    exact ⟨_, ⟨next, hApply, _, ⟨hEnd, rfl⟩, _, ⟨hCount, rfl⟩, rfl⟩, hRest⟩

/-- The recovery goes through complete frames commit by commit. -/
theorem recoverFrames_frames (hFrames : HotFrames sha256 commits frames)
    (hDrop : bytes.drop cursor = frames.flatten ++ rest) (hFuel : commits.length ≤ fuel) :
    recoverFrames sha256 bytes fuel ⟨state, cursor, count⟩ = .ok result ↔
      ∃ next, replayCommits sha256 state commits = .ok next ∧
        (commits ≠ [] → cursor + frames.flatten.length < width 64 ∧
          count + commits.length < width 64) ∧
        recoverFrames sha256 bytes (fuel - commits.length)
          ⟨next, cursor + frames.flatten.length, count + commits.length⟩ = .ok result := by
  induction hFrames generalizing state cursor count fuel with
  | nil =>
    constructor
    · intro h
      exact ⟨state, rfl, fun hNone => absurd rfl hNone, h⟩
    · rintro ⟨next, hReplay, -, h⟩
      cases hReplay
      exact h
  | @cons commit frame commits frames hEncode _ ih =>
    obtain ⟨fuel, rfl⟩ : ∃ f, fuel = f + 1 := ⟨fuel - 1, by rw [List.length_cons] at hFuel; omega⟩
    rw [List.length_cons] at hFuel
    have hFrame := encodeV2HotFrame_hotFrame hEncode
    have hHere : bytes.drop cursor = frame ++ (frames.flatten ++ rest) := by
      rw [hDrop, List.flatten_cons, List.append_assoc]
    have hNext : bytes.drop (cursor + frame.length) = frames.flatten ++ rest := by
      rw [← List.drop_drop, hHere, List.drop_left]
    have hReplay : ∀ next, replayCommits sha256 state (commit :: commits) = .ok next ↔
        ∃ mid, applyRecovered sha256 commit state = .ok mid ∧
          replayCommits sha256 mid commits = .ok next := by
      intro next
      rw [replayCommits, List.foldlM_cons, bind_eq_ok]
      rfl
    simp only [recoverFrames_frame hFrame hHere, ih hNext (by omega : commits.length ≤ fuel), hReplay,
      Nat.add_sub_add_right, List.flatten_cons, List.length_append, List.length_cons, ← Nat.add_assoc,
      Nat.add_right_comm count commits.length 1]
    constructor
    · rintro ⟨mid, hApply, hEnd, hCount, next, hMore, hBounds, hRest⟩
      refine ⟨next, ⟨mid, hApply, hMore⟩, fun _ => ?_, hRest⟩
      by_cases hNone : commits = []
      · subst hNone
        cases ‹List.Forall₂ _ [] frames›
        exact ⟨hEnd, hCount⟩
      · exact hBounds hNone
    · rintro ⟨next, ⟨mid, hApply, hMore⟩, hBounds, hRest⟩
      obtain ⟨hEnd, hCount⟩ := hBounds (List.cons_ne_nil _ _)
      exact ⟨mid, hApply, by omega, by omega, next, hMore, fun _ => ⟨hEnd, hCount⟩, hRest⟩

theorem finishRecovery_eq_ok {progress : RecoveryState} {stop : V2RecoveryStop} :
    finishRecovery progress stop = .ok result ↔ progress.cursor < width 64 ∧
      result = ⟨progress.state, progress.cursor, progress.commitCount, stop⟩ := by
  simp only [finishRecovery, bind_eq_ok, okOr_eq_ok, tryFrom_eq_some, pure_eq_ok]
  constructor
  · rintro ⟨_, ⟨hLt, rfl⟩, rfl⟩
    exact ⟨hLt, rfl⟩
  · rintro ⟨hLt, rfl⟩
    exact ⟨_, ⟨hLt, rfl⟩, rfl⟩

theorem recoverFrames_end (hEnd : bytes.length ≤ cursor) (hFuel : 0 < fuel) :
    recoverFrames sha256 bytes fuel ⟨state, cursor, count⟩ =
      finishRecovery ⟨state, cursor, count⟩ .endOfBytes := by
  obtain ⟨fuel, rfl⟩ : ∃ f, fuel = f + 1 := ⟨fuel - 1, by omega⟩
  rw [recoverFrames, if_neg (Nat.not_lt.mpr hEnd)]

theorem recoverFrames_stop {reason : V2RecoveryStop}
    (hScan : scanHotFrame (bytes.drop cursor) = .ok (.stop reason)) (hLt : cursor < bytes.length)
    (hFuel : 0 < fuel) : recoverFrames sha256 bytes fuel ⟨state, cursor, count⟩ =
      finishRecovery ⟨state, cursor, count⟩ reason := by
  obtain ⟨fuel, rfl⟩ : ∃ f, fuel = f + 1 := ⟨fuel - 1, by omega⟩
  rw [recoverFrames]
  dsimp only
  rw [if_pos hLt, hScan, ok_bind]

/-- Recovery stops in front of zeros. -/
theorem recoverFrames_zeros (sha256 : Bytes → Digest) (state : V2CommittedState) (count : Nat)
    {zeros : Nat} (hDrop : bytes.drop cursor = List.replicate zeros 0)
    (hFuel : 0 < fuel) : ∃ stop, recoverFrames sha256 bytes fuel ⟨state, cursor, count⟩ =
      finishRecovery ⟨state, cursor, count⟩ stop := by
  by_cases hZeros : zeros = 0
  · subst hZeros
    exact ⟨_, recoverFrames_end (List.drop_eq_nil_iff.mp hDrop) hFuel⟩
  · have hLt : cursor < bytes.length := by
      have hLen := congrArg List.length hDrop
      rw [List.length_drop, List.length_replicate] at hLen
      omega
    exact ⟨_, recoverFrames_stop (hDrop ▸ scanHotFrame_zeros (by omega)) hLt hFuel⟩

/-- A frame is longer than the count of the commits in it. -/
theorem HotFrames.length_le (h : HotFrames sha256 commits frames) :
    commits.length ≤ frames.flatten.length := by
  induction h with
  | nil => exact Nat.zero_le _
  | @cons commit frame commits frames hEncode _ ih =>
    have hLength := (encodeV2HotFrame_hotFrame hEncode).length
    have hSize : v2HotFooterSize = 40 := rfl
    rw [List.length_cons, List.flatten_cons, List.length_append]
    omega

/-- A log of complete frames recovers to the state its commits lead to. -/
theorem recoverV2HotWal_frames (hFrames : HotFrames sha256 commits frames) :
    recoverV2HotWal sha256 frames.flatten state = .ok result ↔
      replayCommits sha256 state commits = .ok result.state ∧
        frames.flatten.length < width 64 ∧
        result = ⟨result.state, frames.flatten.length, commits.length, .endOfBytes⟩ := by
  have hCount := hFrames.length_le
  have hEmpty : commits = [] → frames.flatten.length < width 64 := by
    rintro rfl
    cases hFrames
    exact Nat.two_pow_pos 64
  rw [recoverV2HotWal, recoverFrames_frames hFrames (List.append_nil _).symm (by omega)]
  simp only [Nat.zero_add, recoverFrames_end le_rfl (Nat.sub_pos_of_lt (Nat.lt_succ_of_le hCount)),
    finishRecovery_eq_ok]
  constructor
  · rintro ⟨next, hReplay, -, hLt, rfl⟩
    exact ⟨hReplay, hLt, rfl⟩
  · rintro ⟨hReplay, hLt, hResult⟩
    exact ⟨_, hReplay, fun _ => ⟨hLt, by omega⟩, hLt, hResult⟩

/-! ## Recovery of a torn tail -/

variable {cut nextFrame : Bytes} {zeros : Nat} {nextCommit : Bytes} {next : V2RecoveredHotWal}

theorem replayCommits_append {commits' : List Bytes} {after : V2CommittedState} :
    replayCommits sha256 state (commits ++ commits') = .ok after ↔
      ∃ mid, replayCommits sha256 state commits = .ok mid ∧
        replayCommits sha256 mid commits' = .ok after := by
  rw [replayCommits, List.foldlM_append, bind_eq_ok]
  rfl

/-- A log of complete frames with more behind it recovers as far as the frames go. -/
theorem recoverV2HotWal_behind (hFrames : HotFrames sha256 commits frames)
    (hReplay : recoverV2HotWal sha256 frames.flatten state = .ok result) (rest : Bytes) :
    ∃ fuel, rest.length < fuel ∧ ∀ outcome,
      recoverV2HotWal sha256 (frames.flatten ++ rest) state = .ok outcome ↔
        recoverFrames sha256 (frames.flatten ++ rest) fuel
          ⟨result.state, frames.flatten.length, commits.length⟩ = .ok outcome := by
  have hCount := hFrames.length_le
  obtain ⟨hCommits, hLt, -⟩ := (recoverV2HotWal_frames hFrames).mp hReplay
  refine ⟨(frames.flatten ++ rest).length + 1 - commits.length, ?_, fun outcome => ?_⟩
  · rw [List.length_append]
    omega
  · rw [recoverV2HotWal, recoverFrames_frames hFrames (List.drop_zero : _ = frames.flatten ++ rest)
      (by rw [List.length_append]; omega)]
    simp only [Nat.zero_add]
    constructor
    · rintro ⟨mid, hMid, -, hRest⟩
      rw [hCommits] at hMid
      cases hMid
      exact hRest
    · intro hRest
      exact ⟨_, hCommits, fun _ => ⟨hLt, by omega⟩, hRest⟩

/-- What recovery makes of a cut frame with zeros behind the cut: the commits in front of it, and
the cut one too when the zeros complete its frame. -/
def TornTailOk (frames : List Bytes) (nextFrame cut : Bytes) (zeros : Nat)
    (state before after : V2CommittedState) (sha256 : Bytes → Digest) : Prop :=
  ∃ outcome, recoverV2HotWal sha256 (frames.flatten ++ padded cut zeros) state = .ok outcome ∧
    if nextFrame <+: padded cut zeros then
      outcome.state = after ∧ outcome.logicalTail = (frames.flatten ++ nextFrame).length
    else outcome.state = before ∧ outcome.logicalTail = frames.flatten.length

/-- The zeros complete the frame: it is applied as a whole. -/
theorem tornTailOk_complete (hFrames : HotFrames sha256 commits frames)
    (hNext : encodeV2HotFrame sha256 nextCommit = .ok nextFrame)
    (hAccepted : recoverV2HotWal sha256 (frames.flatten ++ nextFrame) state = .ok next)
    (hCut : cut <+: nextFrame) (hComplete : nextFrame <+: padded cut zeros)
    {before : V2CommittedState} :
    TornTailOk frames nextFrame cut zeros state before next.state sha256 := by
  have hFrame := encodeV2HotFrame_hotFrame hNext
  have hAll : HotFrames sha256 (commits ++ [nextCommit]) (frames ++ [nextFrame]) :=
    List.rel_append hFrames (List.Forall₂.cons hNext .nil)
  have hFlat : (frames ++ [nextFrame]).flatten = frames.flatten ++ nextFrame := by simp
  rw [← hFlat] at hAccepted
  -- behind the frame there are only zeros
  obtain ⟨rest, hRest⟩ := hComplete
  have hZeros : ∃ n, rest = List.replicate n 0 := by
    refine ⟨zeros - (nextFrame.length - cut.length), ?_⟩
    have hDrop := congrArg (List.drop nextFrame.length) hRest
    rw [List.drop_left, drop_padded, List.drop_of_length_le hCut.length_le, padded_nil] at hDrop
    exact hDrop
  obtain ⟨n, rfl⟩ := hZeros
  obtain ⟨fuel, hFuel, hRun⟩ := recoverV2HotWal_behind hAll hAccepted (List.replicate n 0)
  have hDrop : ((frames ++ [nextFrame]).flatten ++ List.replicate n 0).drop
      (frames ++ [nextFrame]).flatten.length = List.replicate n 0 := List.drop_left
  obtain ⟨stop, hStop⟩ := recoverFrames_zeros sha256 next.state (commits ++ [nextCommit]).length
    hDrop (by omega : 0 < fuel)
  obtain ⟨-, hLt, -⟩ := (recoverV2HotWal_frames hAll).mp hAccepted
  have hFinish := (hRun _).mpr (hStop.trans (finishRecovery_eq_ok.mpr ⟨hLt, rfl⟩))
  rw [hFlat, List.append_assoc, hRest] at hFinish
  exact ⟨_, hFinish, by rw [if_pos ⟨_, hRest⟩]; exact ⟨rfl, rfl⟩⟩

/-- The frame stays incomplete: recovery stops in front of it, unless zeros stand behind a part of
the magic. -/
theorem tornTailOk_torn (hFrames : HotFrames sha256 commits frames)
    (hReplay : recoverV2HotWal sha256 frames.flatten state = .ok result)
    (hFrame : HotFrame nextCommit nextFrame) (hCut : cut <+: nextFrame)
    (hMagic : 1 ≤ cut.length → cut.length ≤ 3 → zeros = 0)
    (hTorn : ¬ nextFrame <+: padded cut zeros) {after : V2CommittedState} :
    TornTailOk frames nextFrame cut zeros state result.state after sha256 := by
  obtain ⟨fuel, hFuel, hRun⟩ := recoverV2HotWal_behind hFrames hReplay (padded cut zeros)
  have hDrop : (frames.flatten ++ padded cut zeros).drop frames.flatten.length = padded cut zeros :=
    List.drop_left
  obtain ⟨-, hLt, -⟩ := (recoverV2HotWal_frames hFrames).mp hReplay
  have hStop : ∃ stop, recoverFrames sha256 (frames.flatten ++ padded cut zeros) fuel
      ⟨result.state, frames.flatten.length, commits.length⟩ =
        finishRecovery ⟨result.state, frames.flatten.length, commits.length⟩ stop := by
    by_cases hNone : cut.length = 0
    · obtain rfl := List.length_eq_zero_iff.mp hNone
      exact recoverFrames_zeros _ _ _ (hDrop.trans padded_nil) (by omega)
    · have hScan := hFrame.scan_cut hCut (by omega) (hMagic (by omega)) hTorn
      refine ⟨_, recoverFrames_stop (hDrop ▸ hScan) ?_ (by omega)⟩
      rw [List.length_append, length_padded]
      omega
  obtain ⟨stop, hStop⟩ := hStop
  refine ⟨_, (hRun _).mpr (hStop.trans (finishRecovery_eq_ok.mpr ⟨hLt, rfl⟩)), ?_⟩
  rw [if_neg hTorn]
  exact ⟨rfl, rfl⟩

/-- A new commit is replayed first. -/
theorem Accepts.replay {decoded : V2DecodedCommit} {state : V2CommittedState}
    {commit : Bytes} {commits : List Bytes} (h : Accepts sha256 state commit decoded) :
    replayCommits sha256 state (commit :: commits) =
      replayCommits sha256 (state.appended decoded) commits := by
  rw [replayCommits, List.foldlM_cons, applyRecovered, h.run, ok_bind]
  rfl

/-- The two commits of the sample as frames: what is recovered from the first one, and from both. -/
theorem sampleRun_recovers : ∃ first second,
    encodeV2HotFrame sampleRunSha256 sampleFirstCommit = .ok first ∧
    encodeV2HotFrame sampleRunSha256 sampleSecondCommit = .ok second ∧
    recoverV2HotWal sampleRunSha256 [first].flatten .empty =
      .ok ⟨sampleFirstState, [first].flatten.length, 1, .endOfBytes⟩ ∧
    recoverV2HotWal sampleRunSha256 ([first].flatten ++ second) .empty =
      .ok ⟨sampleSecondState, ([first].flatten ++ second).length, 2, .endOfBytes⟩ := by
  obtain ⟨first, hFirst⟩ : ∃ first,
      encodeV2HotFrame sampleRunSha256 sampleFirstCommit = .ok first :=
    exists_ok_of_isSome (by decide +kernel)
  obtain ⟨second, hSecond⟩ : ∃ second,
      encodeV2HotFrame sampleRunSha256 sampleSecondCommit = .ok second :=
    exists_ok_of_isSome (by decide +kernel)
  have hOne : HotFrames sampleRunSha256 [sampleFirstCommit] [first] := .cons hFirst .nil
  have hBoth : HotFrames sampleRunSha256 [sampleFirstCommit, sampleSecondCommit]
      [first, second] := .cons hFirst (.cons hSecond .nil)
  have hReplayOne : replayCommits sampleRunSha256 .empty [sampleFirstCommit] =
      .ok sampleFirstState := sampleFirst_accepts.replay
  have hReplayBoth : replayCommits sampleRunSha256 .empty
      [sampleFirstCommit, sampleSecondCommit] = .ok sampleSecondState := by
    rw [sampleFirst_accepts.replay]
    exact sampleSecond_accepts.replay
  have hFlat : [first, second].flatten = [first].flatten ++ second := by simp
  have hFirstLength := (encodeV2HotFrame_hotFrame hFirst).length
  have hSecondLength := (encodeV2HotFrame_hotFrame hSecond).length
  have hSize : v2HotFooterSize = 40 := rfl
  have hFirstSize : sampleFirstCommit.length = 456 := by decide +kernel
  have hSecondSize : sampleSecondCommit.length = 310 := by decide +kernel
  have hWidth : 1000 < width 64 := by decide
  have hOneLength : [first].flatten.length = first.length := by simp
  refine ⟨first, second, hFirst, hSecond, ?_, ?_⟩
  · exact (recoverV2HotWal_frames hOne).mpr ⟨hReplayOne, by omega, rfl⟩
  · rw [← hFlat]
    refine (recoverV2HotWal_frames hBoth).mpr ⟨hReplayBoth, ?_, rfl⟩
    rw [hFlat, List.length_append]
    omega

/-- A hot log with a torn tail is recovered up to the tail exactly when the tail is not a part of
the magic with zeros behind it. A cut may also be the whole frame. -/
theorem torn_tail_recovers_iff (hFrames : HotFrames sha256 commits frames)
    (hReplay : recoverV2HotWal sha256 frames.flatten state = .ok result)
    (hNext : encodeV2HotFrame sha256 nextCommit = .ok nextFrame)
    (hAccepted : recoverV2HotWal sha256 (frames.flatten ++ nextFrame) state = .ok next)
    (hCut : cut <+: nextFrame) :
    TornTailOk frames nextFrame cut zeros state result.state next.state sha256 ↔
      ¬ (1 ≤ cut.length ∧ cut.length ≤ 3 ∧ 1 ≤ zeros) := by
  have hFrame := encodeV2HotFrame_hotFrame hNext
  constructor
  · rintro ⟨outcome, hRecover, -⟩ ⟨hPos, hShort, hZeros⟩
    obtain ⟨fuel, hFuel, hRun⟩ := recoverV2HotWal_behind hFrames hReplay (padded cut zeros)
    obtain ⟨e, hScan⟩ := hFrame.scan_magic hCut hPos hShort hZeros
    obtain ⟨fuel, rfl⟩ : ∃ f, fuel = f + 1 := ⟨fuel - 1, by omega⟩
    have hDrop : (frames.flatten ++ padded cut zeros).drop frames.flatten.length =
        padded cut zeros := List.drop_left
    have hSteps := (hRun outcome).mp hRecover
    rw [recoverFrames] at hSteps
    dsimp only at hSteps
    rw [if_pos (by rw [List.length_append, length_padded]; omega), hDrop, hScan, error_bind]
      at hSteps
    cases hSteps
  · intro hCondition
    by_cases hComplete : nextFrame <+: padded cut zeros
    · exact tornTailOk_complete hFrames hNext hAccepted hCut hComplete
    · refine tornTailOk_torn hFrames hReplay hFrame hCut ?_ hComplete
      intro hPos hShort
      by_contra hZeros
      exact hCondition ⟨hPos, hShort, by omega⟩

theorem torn_tail_recovers_iff_sample : ∃ first second mid next,
    HotFrames sampleRunSha256 [sampleFirstCommit] [first] ∧ mid ≠ .empty ∧
      TornTailOk [first] second (second.take 200) 40 .empty mid next sampleRunSha256 := by
  obtain ⟨first, second, hFirst, hSecond, hMid, hWhole⟩ := sampleRun_recovers
  have hFrames : HotFrames sampleRunSha256 [sampleFirstCommit] [first] := .cons hFirst .nil
  have hNew : sampleFirstState ≠ .empty := by
    intro hSame
    exact absurd (congrArg (fun state => state.payload.length) hSame) (by decide +kernel)
  refine ⟨first, second, sampleFirstState, sampleSecondState, hFrames, hNew, ?_⟩
  refine (torn_tail_recovers_iff hFrames hMid hSecond hWhole (List.take_prefix 200 second)).mpr ?_
  rintro ⟨-, hShort, -⟩
  have hLength := (encodeV2HotFrame_hotFrame hSecond).length
  have hSize : v2HotFooterSize = 40 := rfl
  have hCommit : 200 < sampleSecondCommit.length := by decide +kernel
  rw [List.length_take_of_le (by omega)] at hShort
  omega

/-- One byte of the magic in front of one zero stops the recovery with an error. -/
theorem not_torn_tail_recovers : ¬ ∀ (sha256 : Bytes → Digest) (commits frames : List Bytes)
    (nextCommit nextFrame cut : Bytes) (zeros : Nat) (state : V2CommittedState)
    (result next : V2RecoveredHotWal), HotFrames sha256 commits frames →
    recoverV2HotWal sha256 frames.flatten state = .ok result →
    encodeV2HotFrame sha256 nextCommit = .ok nextFrame →
    recoverV2HotWal sha256 (frames.flatten ++ nextFrame) state = .ok next →
    cut <+: nextFrame → cut ≠ nextFrame →
    TornTailOk frames nextFrame cut zeros state result.state next.state sha256 := by
  intro h
  obtain ⟨frame, -, hFrame, -, hNext, -⟩ := sampleRun_recovers
  rw [List.flatten_singleton] at hNext
  have hHot := encodeV2HotFrame_hotFrame hFrame
  have hLength := hHot.length
  have hSize : v2HotFooterSize = 40 := rfl
  have hTake : (frame.take 1).length = 1 := List.length_take_of_le (by omega)
  have hProper : frame.take 1 ≠ frame := by
    intro hSame
    rw [hSame] at hTake
    omega
  have hEmpty : recoverV2HotWal sampleRunSha256 ([] : List Bytes).flatten .empty =
      .ok ⟨.empty, 0, 0, .endOfBytes⟩ := rfl
  obtain ⟨outcome, hRecover, -⟩ := h sampleRunSha256 [] [] sampleFirstCommit frame (frame.take 1) 1
    .empty _ _ .nil hEmpty hFrame hNext (List.take_prefix 1 frame) hProper
  have hCut : frame.take 1 = [84] := by
    have hMagic := congrArg (List.take 1) hHot.take_four
    rwa [List.take_take] at hMagic
  rw [hCut] at hRecover
  cases hRecover

end Recovery

end TulyaStore.V2
