import TulyaStore.History.Cursor
import TulyaStore.History.LogScan

/-!
# Log records read back

A record whose fields fit their widths and whose request and binding are in bounds is read back
from the bytes it is encoded to, and a log that was cut inside its last frame to the records in
front of it.
-/

namespace TulyaStore.History

open Lib Sequence LogCursor

/-! ## Optional fields -/

section Fields

variable {whole : Bytes}

/-- The bounds of a request in a record. -/
def RequestInBounds (requestId : Option Bytes) : Prop :=
  ∀ request, requestId = some request → validateRequestIdentity request = .ok ()

/-- The bounds of a binding in a record. -/
def BindingInBounds (binding : Option Bytes) : Prop :=
  ∀ bytes, binding = some bytes → validateBinding bytes = .ok ()

theorem validateRequestIdentity_eq_ok {request : Bytes} :
    validateRequestIdentity request = .ok () ↔ 0 < request.length ∧ request.length ≤ 4096 := by
  unfold validateRequestIdentity
  rw [failIf_eq_ok, not_or, List.isEmpty_iff_length_eq_zero, Nat.not_lt]
  exact and_congr_left fun _ => Nat.pos_iff_ne_zero.symm

theorem validateBinding_eq_ok {binding : Bytes} :
    validateBinding binding = .ok () ↔ 0 < binding.length ∧ binding.length ≤ 4096 := by
  unfold validateBinding
  rw [failIf_eq_ok, not_or, List.isEmpty_iff_length_eq_zero, Nat.not_lt]
  exact and_congr_left fun _ => Nat.pos_iff_ne_zero.symm

theorem takes_optionalRequest (hSize : whole.length < width 64) {requestId : Option Bytes}
    {field : Bytes} (hBounds : RequestInBounds requestId)
    (hField : encodeRequestId requestId = .ok field) (rest : Bytes) :
    Takes whole decodeRequestId field rest requestId := by
  cases requestId with
  | none =>
    obtain rfl : leBytes 8 0 = field := by simpa [encodeRequestId, pure, Except.pure] using hField
    exact (takes_u64 hSize (n := 0) (by decide) rest).bind_last (Takes.pure _ _)
  | some request =>
    obtain ⟨hPos, hMax⟩ := validateRequestIdentity_eq_ok.mp (hBounds request rfl)
    have hFits : request.length < width 64 := hMax.trans_lt (by decide)
    simp only [encodeRequestId, bind_eq_ok, failIf_eq_ok, pure_eq_ok] at hField
    obtain ⟨_, -, rfl⟩ := hField
    refine (takes_u64 hSize hFits _).bind ?_
    rw [if_neg (by omega)]
    exact Takes.check (Nat.not_lt.mpr hMax)
      ((takes_bytes hSize hFits rest).bind_last (Takes.pure _ _))

theorem takes_optionalBinding (hSize : whole.length < width 64) {binding : Option Bytes}
    {field : Bytes} (hBounds : BindingInBounds binding)
    (hField : encodeBinding binding = .ok field) (rest : Bytes) :
    Takes whole decodeOptionalBinding field rest binding := by
  cases binding with
  | none =>
    obtain rfl : leBytes 8 0 = field := by simpa [encodeBinding, pure, Except.pure] using hField
    exact (takes_u64 hSize (n := 0) (by decide) rest).bind_last (Takes.pure _ _)
  | some bytes =>
    obtain ⟨hPos, hMax⟩ := validateBinding_eq_ok.mp (hBounds bytes rfl)
    have hFits : bytes.length + 1 < width 64 := (Nat.succ_le_succ hMax).trans_lt (by decide)
    simp only [encodeBinding, bind_eq_ok, failIf_eq_ok, pure_eq_ok] at hField
    obtain ⟨_, -, rfl⟩ := hField
    refine (takes_u64 hSize hFits _).bind ?_
    rw [if_neg (by omega)]
    dsimp only
    rw [Nat.add_sub_cancel]
    refine Takes.check ?_ ((takes_bytes hSize (by omega) rest).bind_last (Takes.pure _ _))
    rw [not_or]
    exact ⟨by omega, Nat.not_lt.mpr hMax⟩

structure PhysicalPlacement.Fits (placement : PhysicalPlacement) : Prop where
  generation : placement.generation < width 64
  payloadStart : placement.payloadStart < width 64
  payloadEnd : placement.payloadEnd < width 64
  nodeStart : placement.nodeStart < width 64
  nodeEnd : placement.nodeEnd < width 64

theorem takes_physical (hSize : whole.length < width 64) {physical : Option PhysicalPlacement}
    (hFits : ∀ placement, physical = some placement → placement.Fits) (rest : Bytes) :
    Takes whole decodePhysical (encodePhysical physical) rest physical := by
  cases physical with
  | none => exact (takes_byte hSize 0 rest).bind_last (Takes.pure _ _)
  | some placement =>
    have hFits := hFits placement rfl
    simp only [encodePhysical, List.append_assoc]
    refine (takes_byte hSize 1 _).bind ?_
    rw [if_neg (by decide), if_pos rfl]
    refine (takes_u64 hSize hFits.generation _).bind ?_
    refine (takes_u64 hSize hFits.payloadStart _).bind ?_
    refine (takes_u64 hSize hFits.payloadEnd _).bind ?_
    refine (takes_u64 hSize hFits.nodeStart _).bind ?_
    refine (takes_u64 hSize hFits.nodeEnd _).bind ?_
    refine (takes_array hSize placement.deltaDigest _).bind ?_
    exact (takes_array hSize placement.resultRoot _).bind_last (Takes.pure _ _)

end Fields

/-! ## Records -/

/-- A record whose fields have a place in its bytes: every number fits its width, no parent is
the sentinel, and requests and bindings are in bounds. -/
def HistoryLogRecord.Fits : HistoryLogRecord → Prop
  | .createHistory history binding => history.id < width 64 ∧ BindingInBounds binding
  | .splice history version parent offset deleteLen insert requestId binding _ physical =>
    history.id < width 64 ∧ version.id < width 64 ∧
      (∀ id, parent = some id → id.id < noParent) ∧ offset < width 64 ∧ deleteLen < width 64 ∧
      insert.length < width 64 ∧ RequestInBounds requestId ∧ BindingInBounds binding ∧
      ∀ placement, physical = some placement → placement.Fits
  | .fork history version parent requestId binding _ =>
    history.id < width 64 ∧ version.id < width 64 ∧ parent.id < width 64 ∧
      RequestInBounds requestId ∧ BindingInBounds binding
  | .expireVersion history version => history.id < width 64 ∧ version.id < width 64
  | .retire requestId _ => validateRequestIdentity requestId = .ok ()

section Records

variable {body : Bytes}

/-- The parent of a splice behind its raw number. -/
theorem decodedParent_eq {parent : Option VersionId} (h : ∀ id, parent = some id → id.id < noParent) :
    (if (parent.map VersionId.id).getD noParent = noParent then none
      else some (VersionId.mk ((parent.map VersionId.id).getD noParent))) = parent := by
  cases parent with
  | none => rfl
  | some id =>
    have := h id rfl
    simp only [Option.map_some, Option.getD_some]
    rw [if_neg (by omega)]

theorem rawParent_lt {parent : Option VersionId} (h : ∀ id, parent = some id → id.id < noParent) :
    (parent.map VersionId.id).getD noParent < width 64 := by
  have hNone : noParent < width 64 := by decide
  cases parent with
  | none => exact hNone
  | some id => exact (h id rfl).trans hNone

theorem takes_splice (hSize : body.length < width 64) {history : HistoryId} {version : VersionId}
    {parent : Option VersionId} {offset deleteLen : Nat} {insert : Bytes}
    {requestId binding : Option Bytes} {digest : Digest} {physical : Option PhysicalPlacement}
    (hFits : (HistoryLogRecord.splice history version parent offset deleteLen insert requestId
      binding digest physical).Fits) {request bound : Bytes}
    (hRequest : encodeRequestId requestId = .ok request)
    (hBinding : encodeBinding binding = .ok bound) :
    Takes body decodeSplice (leBytes 8 history.id ++ leBytes 8 version.id ++
      leBytes 8 ((parent.map VersionId.id).getD noParent) ++ leBytes 8 offset ++
      leBytes 8 deleteLen ++ putBytes insert ++ request ++ bound ++ digest.toList ++
      encodePhysical physical) [] (.splice history version parent offset deleteLen insert requestId
        binding digest physical) := by
  obtain ⟨hHistory, hVersion, hParent, hOffset, hDelete, hInsert, hRequestIn, hBindingIn,
    hPhysical⟩ := hFits
  simp only [putBytes, List.append_assoc]
  refine (takes_u64 hSize hHistory _).bind ?_
  refine (takes_u64 hSize hVersion _).bind ?_
  refine (takes_u64 hSize (rawParent_lt hParent) _).bind ?_
  dsimp only
  rw [decodedParent_eq hParent]
  refine (takes_u64 hSize hOffset _).bind ?_
  refine (takes_u64 hSize hDelete _).bind ?_
  refine (takes_u64 hSize hInsert _).bind ?_
  refine (takes_bytes hSize hInsert _).bind ?_
  refine (takes_optionalRequest hSize hRequestIn hRequest _).bind ?_
  refine (takes_optionalBinding hSize hBindingIn hBinding _).bind ?_
  refine (takes_array hSize digest _).bind ?_
  exact (takes_physical hSize hPhysical _).bind_last (Takes.pure _ _)

theorem takes_fork (hSize : body.length < width 64) {history : HistoryId}
    {version parent : VersionId} {requestId binding : Option Bytes} {digest : Digest}
    (hFits : (HistoryLogRecord.fork history version parent requestId binding digest).Fits)
    {request bound : Bytes} (hRequest : encodeRequestId requestId = .ok request)
    (hBinding : encodeBinding binding = .ok bound) :
    Takes body decodeFork (leBytes 8 history.id ++ leBytes 8 version.id ++ leBytes 8 parent.id ++
      request ++ bound ++ digest.toList) [] (.fork history version parent requestId binding
        digest) := by
  obtain ⟨hHistory, hVersion, hParent, hRequestIn, hBindingIn⟩ := hFits
  simp only [List.append_assoc]
  refine (takes_u64 hSize hHistory _).bind ?_
  refine (takes_u64 hSize hVersion _).bind ?_
  refine (takes_u64 hSize hParent _).bind ?_
  refine (takes_optionalRequest hSize hRequestIn hRequest _).bind ?_
  refine (takes_optionalBinding hSize hBindingIn hBinding _).bind ?_
  exact (takes_array hSize digest _).bind_last (Takes.pure _ _)

theorem takes_retire (hSize : body.length < width 64) {requestId : Bytes} {digest : Digest}
    (hFits : (HistoryLogRecord.retire requestId digest).Fits) :
    Takes body decodeRetire (leBytes 8 requestId.length ++ requestId ++ digest.toList) []
      (.retire requestId digest) := by
  obtain ⟨hPos, hMax⟩ := validateRequestIdentity_eq_ok.mp hFits
  have hWidth : requestId.length < width 64 := hMax.trans_lt (by decide)
  rw [List.append_assoc]
  refine (takes_u64 hSize hWidth _).bind (Takes.check ?_ ?_)
  · rw [not_or]
    exact ⟨by omega, Nat.not_lt.mpr hMax⟩
  · refine (takes_bytes hSize hWidth _).bind ?_
    exact (takes_array hSize digest _).bind_last (Takes.pure _ _)

/-- The decoder behind the kind byte decides the record. -/
theorem decodeHistoryLogRecord_of_takes {kind : UInt8} {fields : Bytes} {record : HistoryLogRecord}
    (hSize : (kind :: fields).length < width 64)
    (h : Takes (kind :: fields) (decodeRecordKind kind) fields [] record) :
    decodeHistoryLogRecord (kind :: fields) = .ok record := by
  have hKind := takes_byte hSize kind fields [] rfl
  have hRecord := h [kind] (by simp)
  simp only [List.length_nil, List.length_singleton, Nat.zero_add] at hKind hRecord
  simp only [decodeHistoryLogRecord, hKind, ok_bind, hRecord]
  rw [failIf_neg]
  · rfl
  · simp only [List.length_cons]
    omega

/-- A record with fields in bounds is read back. -/
theorem decodeHistoryLogRecord_encode {record : HistoryLogRecord} (hFits : record.Fits)
    (hBody : encodeHistoryLogRecord record = .ok body) (hSize : body.length < width 64) :
    decodeHistoryLogRecord body = .ok record := by
  obtain ⟨_, -, hBody⟩ := bind_eq_ok.mp hBody
  cases record with
  | createHistory history binding =>
    obtain ⟨bound, hBinding, hBody⟩ := bind_eq_ok.mp hBody
    obtain rfl := pure_eq_ok.mp hBody
    refine decodeHistoryLogRecord_of_takes hSize ?_
    refine (takes_u64 hSize hFits.1 _).bind ?_
    exact (takes_optionalBinding hSize hFits.2 hBinding _).bind_last (Takes.pure _ _)
  | splice history version parent offset deleteLen insert requestId binding digest physical =>
    obtain ⟨request, hRequest, hBody⟩ := bind_eq_ok.mp hBody
    obtain ⟨bound, hBinding, hBody⟩ := bind_eq_ok.mp hBody
    obtain rfl := pure_eq_ok.mp hBody
    exact decodeHistoryLogRecord_of_takes hSize (takes_splice hSize hFits hRequest hBinding)
  | fork history version parent requestId binding digest =>
    obtain ⟨request, hRequest, hBody⟩ := bind_eq_ok.mp hBody
    obtain ⟨bound, hBinding, hBody⟩ := bind_eq_ok.mp hBody
    obtain rfl := pure_eq_ok.mp hBody
    exact decodeHistoryLogRecord_of_takes hSize (takes_fork hSize hFits hRequest hBinding)
  | expireVersion history version =>
    obtain rfl := pure_eq_ok.mp hBody
    refine decodeHistoryLogRecord_of_takes hSize ?_
    refine (takes_u64 hSize hFits.1 _).bind ?_
    exact (takes_u64 hSize hFits.2 _).bind_last (Takes.pure _ _)
  | retire requestId digest =>
    obtain ⟨_, -, hBody⟩ := bind_eq_ok.mp hBody
    obtain rfl := pure_eq_ok.mp hBody
    exact decodeHistoryLogRecord_of_takes hSize (takes_retire hSize hFits)

end Records

/-! ## Logs -/

section Logs

variable {sha256 : Bytes → Digest} {file : Bytes} {records : List HistoryLogRecord} {tail : Nat}

/-- The file of a log: the frames of the records up to `tail`, and behind it at most the
beginning of one more frame. -/
def HoldsLog (sha256 : Bytes → Digest) (file : Bytes) (records : List HistoryLogRecord)
    (tail : Nat) : Prop :=
  ∃ bodies torn, List.Forall₂ (fun record body =>
      HistoryLogRecord.Fits record ∧ encodeHistoryLogRecord record = .ok body) records bodies ∧
    file = framesBytes sha256 bodies ++ torn ∧ tail = (framesBytes sha256 bodies).length ∧
    (torn = [] ∨ probeHistoryLogFrame sha256 torn = .ok .torn) ∧ file.length < width 64

theorem holdsLog_nil : HoldsLog sha256 [] [] 0 :=
  ⟨[], [], .nil, rfl, rfl, .inl rfl, by decide⟩

theorem HoldsLog.tail_le (h : HoldsLog sha256 file records tail) : tail ≤ file.length := by
  obtain ⟨bodies, torn, -, rfl, rfl, -⟩ := h
  rw [List.length_append]
  exact Nat.le_add_right _ _

theorem HoldsLog.size (h : HoldsLog sha256 file records tail) : file.length < width 64 := by
  obtain ⟨-, -, -, -, -, -, hSize⟩ := h
  exact hSize

/-- The log cut at its tail. -/
theorem HoldsLog.cut (h : HoldsLog sha256 file records tail) :
    HoldsLog sha256 (file.take tail) records tail := by
  obtain ⟨bodies, torn, hRecords, rfl, rfl, -, hSize⟩ := h
  rw [List.take_left]
  refine ⟨bodies, [], hRecords, (List.append_nil _).symm, rfl, .inl rfl, ?_⟩
  rw [List.length_append] at hSize
  omega

theorem mapM_decode_bodies {bodies : List Bytes} (h : List.Forall₂ (fun record body =>
    HistoryLogRecord.Fits record ∧ encodeHistoryLogRecord record = .ok body) records bodies)
    (hSize : (framesBytes sha256 bodies).length < width 64) :
    bodies.mapM decodeHistoryLogRecord = .ok records := by
  induction h with
  | nil => rfl
  | @cons record body records bodies hRecord _ ih =>
    rw [framesBytes_cons, List.length_append, length_frameBytes] at hSize
    rw [List.mapM_cons, decodeHistoryLogRecord_encode hRecord.1 hRecord.2 (by omega), ok_bind,
      ih (by omega)]
    rfl

/-- The scan finds the records and the tail. -/
theorem HoldsLog.decode (h : HoldsLog sha256 file records tail) :
    decodeHistoryLog sha256 file = .ok (records, tail) := by
  obtain ⟨bodies, torn, hRecords, rfl, rfl, hTorn, hSize⟩ := h
  have hFrames : (framesBytes sha256 bodies).length < width 64 := by
    rw [List.length_append] at hSize
    omega
  have hFuel := @length_le_framesBytes sha256 bodies
  obtain ⟨fuel, hFuelEq⟩ : ∃ fuel, (framesBytes sha256 bodies ++ torn).length =
      bodies.length + fuel := ⟨_, (Nat.add_sub_of_le (by rw [List.length_append]; omega)).symm⟩
  have hStop : decodeFrames sha256 (framesBytes sha256 bodies ++ torn) fuel
      (framesBytes sha256 bodies).length records =
        .ok (records, (framesBytes sha256 bodies).length) := by
    cases fuel with
    | zero => rfl
    | succ fuel =>
      unfold decodeFrames
      rcases hTorn with rfl | hTorn
      · rw [if_neg (by simp)]
      · split
        case isTrue =>
          rw [List.drop_left, hTorn]
          rfl
        case isFalse => rfl
  have hPassed := @decodeFrames_frames sha256 _ torn _ 0 fuel [] hSize
    (List.drop_zero ..)
  rw [mapM_decode_bodies hRecords hFrames, ok_bind, Nat.zero_add, List.nil_append, hStop] at hPassed
  rw [decodeHistoryLog, hFuelEq, hPassed, ok_bind]
  dsimp only
  rw [tryFrom_of_lt hFrames]
  rfl

/-- A proper first part of a frame is a torn tail. -/
theorem probe_cut_frame {body : Bytes} {k : Nat} (hFits : body.length + 56 < width 64)
    (hk : k < (frameBytes sha256 body).length) :
    probeHistoryLogFrame sha256 ((frameBytes sha256 body).take k) = .ok .torn := by
  have hFrame := @length_frameBytes sha256 body
  have hMagicLen := length_historyLogMagic
  have hShape : frameBytes sha256 body = historyLogMagic ++ (leBytes 8 body.length ++ (body ++
      historyLogFooterMagic ++ leBytes 8 (body.length + (historyLogHeaderSize +
        historyLogFooterSize)) ++ (frameDigest sha256 (framePrefix body)).toList)) := by
    simp only [frameBytes, framePrefix, List.append_assoc]
  have hLen : ((frameBytes sha256 body).take k).length = k := by
    rw [List.length_take]
    omega
  have hStart : 4 ≤ k → ((frameBytes sha256 body).take k).take 4 = historyLogMagic := by
    intro hFour
    rw [List.take_take, Nat.min_eq_left hFour, hShape, List.take_left' hMagicLen]
  by_cases hHeader : 12 ≤ k
  · refine (probe_eq_torn (by omega)).mpr ⟨hStart (by omega), ?_⟩
    have hAnnounced : announcedLen ((frameBytes sha256 body).take k) = body.length := by
      rw [announcedLen, List.drop_take, List.take_take, Nat.min_eq_left (by omega), hShape,
        List.drop_left' hMagicLen, List.take_left' (length_leBytes 8 _)]
      refine leValue_leBytes ?_
      have : width 64 = 256 ^ 8 := by decide
      omega
    rw [hAnnounced, hLen]
    omega
  · unfold probeHistoryLogFrame
    rw [hLen, hMagicLen]
    by_cases hFour : k < 4
    · rw [if_pos hFour]
    · rw [if_neg hFour, if_neg (by rw [hStart (by omega)]; simp),
        if_pos (by unfold historyLogHeaderSize; omega)]

/-- Writing the frame of a record at the tail: any proper first part of the frame changes
nothing. -/
theorem HoldsLog.append_beginning (h : HoldsLog sha256 file records tail) (hEnd : file.length = tail)
    {body : Bytes} {k : Nat} (hk : k < (frameBytes sha256 body).length)
    (hSize : tail + (frameBytes sha256 body).length < width 64) :
    HoldsLog sha256 (file ++ (frameBytes sha256 body).take k) records tail := by
  obtain ⟨bodies, torn, hRecords, rfl, rfl, -, -⟩ := h
  have hNone : torn = [] := by
    rw [List.length_append] at hEnd
    exact List.length_eq_zero_iff.mp (by omega)
  subst hNone
  have hFrame := @length_frameBytes sha256 body
  refine ⟨bodies, _, hRecords, by rw [List.append_nil], rfl, .inr (probe_cut_frame ?_ hk), ?_⟩
  · omega
  · simp only [List.append_nil, List.length_append, List.length_take]
    omega

/-- The whole frame is one more record. -/
theorem HoldsLog.append (h : HoldsLog sha256 file records tail) (hEnd : file.length = tail)
    {record : HistoryLogRecord} {body : Bytes} (hFits : record.Fits)
    (hBody : encodeHistoryLogRecord record = .ok body)
    (hSize : tail + (frameBytes sha256 body).length < width 64) :
    HoldsLog sha256 (file ++ frameBytes sha256 body) (records ++ [record])
      (tail + (frameBytes sha256 body).length) := by
  obtain ⟨bodies, torn, hRecords, rfl, rfl, -, -⟩ := h
  have hNone : torn = [] := by
    rw [List.length_append] at hEnd
    exact List.length_eq_zero_iff.mp (by omega)
  subst hNone
  have hFrames : framesBytes sha256 (bodies ++ [body]) =
      framesBytes sha256 bodies ++ frameBytes sha256 body := by
    simp [framesBytes]
  refine ⟨bodies ++ [body], [], List.rel_append hRecords (.cons ⟨hFits, hBody⟩ .nil), ?_, ?_,
    .inl rfl, ?_⟩
  · rw [hFrames, List.append_nil, List.append_nil]
  · rw [hFrames, List.length_append]
  · rw [List.append_nil, List.length_append]
    exact hSize

end Logs

end TulyaStore.History
