import TulyaStore.Lib.Layout
import TulyaStore.History.RecordCodec

/-!
# Log records are canonical

`Reads` is the other direction of `Takes`: whatever a reader returns, it has moved over a field
that satisfies a predicate. The rules follow the readers, and from them every accepted body is
the encoding of the record it decodes to (`encodeHistoryLogRecord_decode`), so each record has
one body.

A log cut inside its last frame is read up to the cut, and an append to it continues the
records in front of the cut (`history_log_codec`).
-/

namespace TulyaStore.History

open Lib Sequence LogCursor

/-- Whatever the reader returns, it moved over a field with `P`. -/
def Reads {α : Type} (x : LogReader α) (P : Bytes → α → Prop) : Prop :=
  ∀ whole before tail a cursor, whole = before ++ tail →
    x ⟨whole, before.length⟩ = .ok (a, cursor) →
      ∃ field rest, P field a ∧ tail = field ++ rest ∧
        cursor = ⟨whole, before.length + field.length⟩

namespace Reads

variable {α β : Type} {x : LogReader α} {f : α → LogReader β} {P : Bytes → α → Prop}
  {R : Bytes → β → Prop}

theorem bind (hx : Reads x P)
    (hf : ∀ a field, P field a → Reads (f a) fun rest b => R (field ++ rest) b) :
    Reads (x >>= f) R := by
  intro whole before tail b cursor hWhole h
  obtain ⟨⟨a, middle⟩, hFirst, hSecond⟩ := bind_eq_ok.mp
    (h : (x ⟨whole, before.length⟩ >>= fun p => f p.1 p.2) = .ok (b, cursor))
  obtain ⟨field, rest, hField, rfl, rfl⟩ := hx whole before tail a middle hWhole hFirst
  have hWhole' : whole = before ++ field ++ rest := by rw [hWhole, List.append_assoc]
  rw [← List.length_append] at hSecond
  obtain ⟨field', rest', hField', rfl, rfl⟩ := hf a field hField whole (before ++ field) rest b
    cursor hWhole' hSecond
  refine ⟨field ++ field', rest', hField', (List.append_assoc ..).symm, ?_⟩
  simp only [List.length_append, Nat.add_assoc]

theorem pure {a : α} (h : P [] a) : Reads (Pure.pure a) P := by
  intro whole before tail b cursor _ hRun
  have hPair : ((a, ⟨whole, before.length⟩) : α × LogCursor) = (b, cursor) := Except.ok.inj hRun
  obtain ⟨rfl, rfl⟩ := Prod.mk.inj hPair
  exact ⟨[], tail, h, rfl, rfl⟩

theorem lift {y : Except HistoryError α} (h : ∀ a, y = .ok a → P [] a) : Reads (liftM y) P := by
  intro whole before tail b cursor _ hRun
  cases y with
  | ok a =>
    have hPair : ((a, ⟨whole, before.length⟩) : α × LogCursor) = (b, cursor) := Except.ok.inj hRun
    obtain ⟨rfl, rfl⟩ := Prod.mk.inj hPair
    exact ⟨[], tail, h a rfl, rfl, rfl⟩
  | error e => cases hRun

theorem throw {e : HistoryError} : Reads (throw e : LogReader α) P := by
  intro whole before tail b cursor _ hRun
  cases hRun

/-- A check in front of a reader. -/
theorem check {c : Prop} [Decidable c] {e : HistoryError} {f : Unit → LogReader β}
    (hf : ¬ c → Reads (f ()) R) : Reads (liftM (failIf c e) >>= f) R := by
  refine bind (lift (P := fun field _ => field = [] ∧ ¬ c) ?_) ?_
  · intro u h
    exact ⟨rfl, failIf_eq_ok.mp h⟩
  · rintro ⟨⟩ field ⟨rfl, hNot⟩
    exact hf hNot

theorem mono {Q : Bytes → α → Prop} (hx : Reads x P) (h : ∀ field a, P field a → Q field a) :
    Reads x Q := by
  intro whole before tail a cursor hWhole hRun
  obtain ⟨field, rest, hField, hTail, hCursor⟩ := hx whole before tail a cursor hWhole hRun
  exact ⟨field, rest, h field a hField, hTail, hCursor⟩

end Reads

/-! ## The fields -/

section Fields

theorem reads_take (len : Nat) :
    Reads (take len) fun field bytes => field = bytes ∧ bytes.length = len := by
  intro whole before tail bytes cursor hWhole hRun
  simp only [take, bind_eq_ok, okOr_eq_ok, checkedAdd_eq_some, pure_eq_ok, Prod.mk.injEq] at hRun
  obtain ⟨stop, ⟨-, rfl⟩, found, hSlice, rfl, rfl⟩ := hRun
  obtain ⟨-, hInside, hFound⟩ := slice_eq_some.mp hSlice
  rw [Nat.add_sub_cancel_left, hWhole, List.drop_left] at hFound
  have hLen : found.length = len := by
    have hSliceLen := length_of_slice hSlice
    omega
  refine ⟨found, tail.drop len, ⟨rfl, hLen⟩, ?_, by rw [hLen]⟩
  rw [← hFound, List.take_append_drop]

theorem reads_byte : Reads takeByte fun field byte => field = [byte] := by
  refine (reads_take 1).bind fun bytes field h => Reads.pure ?_
  obtain ⟨rfl, hLen⟩ := h
  obtain ⟨byte, rfl⟩ := List.length_eq_one_iff.mp hLen
  rfl

theorem reads_u64 : Reads takeU64 fun field n => field = leBytes 8 n ∧ n < width 64 := by
  refine (reads_take 8).bind fun bytes field h => Reads.pure ?_
  obtain ⟨rfl, hLen⟩ := h
  have hBytes := leBytes_leValue field
  have hLt := leValue_lt field
  rw [hLen] at hBytes hLt
  exact ⟨by rw [List.append_nil, hBytes], hLt⟩

theorem reads_bytes (len : Nat) :
    Reads (takeBytes len) fun field bytes => field = bytes ∧ bytes.length = len := by
  refine Reads.bind (Reads.lift (P := fun field n => field = [] ∧ n = len) ?_) ?_
  · intro n h
    obtain ⟨-, rfl⟩ := tryFrom_eq_some.mp (okOr_eq_ok.mp h)
    exact ⟨rfl, rfl⟩
  · rintro n field ⟨rfl, rfl⟩
    exact reads_take n

theorem reads_array (n : Nat) : Reads (takeArray n) fun field array => field = array.toList := by
  refine (reads_take n).bind fun bytes field h => Reads.lift fun array hArray => ?_
  obtain ⟨rfl, -⟩ := h
  rw [List.append_nil]
  exact asArray_eq_some.mp (okOr_eq_ok.mp hArray)

theorem reads_requestId : Reads decodeRequestId fun field requestId =>
    encodeRequestId requestId = .ok field ∧ RequestInBounds requestId := by
  refine reads_u64.bind fun len field h => ?_
  obtain ⟨rfl, -⟩ := h
  by_cases hZero : len = 0
  · rw [if_pos hZero]
    refine Reads.pure ⟨?_, fun request h => by cases h⟩
    rw [hZero]
    rfl
  · rw [if_neg hZero]
    refine Reads.check fun hMax => (reads_bytes len).bind fun bytes field h => Reads.pure ?_
    obtain ⟨rfl, rfl⟩ := h
    have hBounds : 0 < field.length ∧ field.length ≤ 4096 :=
      ⟨Nat.pos_of_ne_zero hZero, Nat.not_lt.mp hMax⟩
    refine ⟨?_, fun request h => ?_⟩
    · simp only [encodeRequestId]
      rw [failIf_neg hMax, List.append_nil]
      rfl
    · obtain rfl := Option.some.inj h
      exact validateRequestIdentity_eq_ok.mpr hBounds

theorem reads_binding : Reads decodeOptionalBinding fun field binding =>
    encodeBinding binding = .ok field ∧ BindingInBounds binding := by
  refine reads_u64.bind fun stored field h => ?_
  obtain ⟨rfl, -⟩ := h
  by_cases hZero : stored = 0
  · rw [if_pos hZero]
    refine Reads.pure ⟨?_, fun bytes h => by cases h⟩
    rw [hZero]
    rfl
  · rw [if_neg hZero]
    refine Reads.check fun hBounds => (reads_bytes (stored - 1)).bind fun bytes field h =>
      Reads.pure ?_
    obtain ⟨rfl, hLen⟩ := h
    rw [not_or] at hBounds
    have hMax : field.length ≤ 4096 := by
      rw [hLen]
      exact Nat.not_lt.mp hBounds.2
    have hStored : stored = field.length + 1 := by omega
    refine ⟨?_, fun bytes h => ?_⟩
    · have hNot : ¬ field.length > maxHistoryBindingBytes := Nat.not_lt.mpr hMax
      simp only [encodeBinding]
      rw [failIf_neg hNot, List.append_nil, hStored]
      rfl
    · obtain rfl := Option.some.inj h
      exact validateBinding_eq_ok.mpr ⟨by omega, hMax⟩

theorem reads_physical : Reads decodePhysical fun field physical =>
    field = encodePhysical physical ∧ ∀ placement, physical = some placement → placement.Fits := by
  refine reads_byte.bind fun byte field h => ?_
  subst h
  by_cases hZero : byte = 0
  · rw [if_pos hZero]
    exact Reads.pure ⟨by rw [hZero]; rfl, fun placement h => by cases h⟩
  · rw [if_neg hZero]
    by_cases hOne : byte = 1
    · rw [if_pos hOne]
      refine reads_u64.bind fun generation field₁ h₁ => ?_
      refine reads_u64.bind fun payloadStart field₂ h₂ => ?_
      refine reads_u64.bind fun payloadEnd field₃ h₃ => ?_
      refine reads_u64.bind fun nodeStart field₄ h₄ => ?_
      refine reads_u64.bind fun nodeEnd field₅ h₅ => ?_
      refine (reads_array 32).bind fun deltaDigest field₆ h₆ => ?_
      refine (reads_array v2RootRecordSize).bind fun resultRoot field₇ h₇ => Reads.pure ⟨?_, ?_⟩
      · rw [h₁.1, h₂.1, h₃.1, h₄.1, h₅.1, h₆, h₇, hOne]
        simp only [encodePhysical, List.append_assoc, List.append_nil, List.singleton_append]
      · intro placement hPlacement
        obtain rfl := Option.some.inj hPlacement
        exact ⟨h₁.2, h₂.2, h₃.2, h₄.2, h₅.2⟩
    · rw [if_neg hOne]
      exact Reads.throw

end Fields

/-! ## The length announced for a record -/

section Lengths

variable {field : Bytes}

theorem length_encodeRequestId {requestId : Option Bytes}
    (h : encodeRequestId requestId = .ok field) : field.length = 8 + optionalLen requestId := by
  cases requestId with
  | none =>
    obtain rfl := pure_eq_ok.mp h
    simp [optionalLen]
  | some request =>
    obtain ⟨_, -, hField⟩ := bind_eq_ok.mp h
    obtain rfl := pure_eq_ok.mp hField
    simp [optionalLen]

theorem length_encodeBinding {binding : Option Bytes} (h : encodeBinding binding = .ok field) :
    field.length = 8 + optionalLen binding := by
  cases binding with
  | none =>
    obtain rfl := pure_eq_ok.mp h
    simp [optionalLen]
  | some bytes =>
    obtain ⟨_, -, hField⟩ := bind_eq_ok.mp h
    obtain rfl := pure_eq_ok.mp hField
    simp [optionalLen]

theorem length_encodePhysical (physical : Option PhysicalPlacement) :
    (encodePhysical physical).length =
      if physical.isSome then 1 + 8 + 8 + 8 + 8 + 8 + 32 + v2RootRecordSize else 1 := by
  cases physical with
  | none => rfl
  | some placement =>
    simp [encodePhysical]
    omega

variable {request bound : Bytes}

theorem encode_createHistory {history : HistoryId} {binding : Option Bytes}
    (hBinding : encodeBinding binding = .ok bound)
    (hLen : (recordCreateHistory :: (leBytes 8 history.id ++ bound)).length < width 64) :
    encodeHistoryLogRecord (.createHistory history binding) =
      .ok (recordCreateHistory :: (leBytes 8 history.id ++ bound)) := by
  have hBound := length_encodeBinding hBinding
  simp only [List.length_cons, List.length_append, length_leBytes] at hLen
  simp only [encodeHistoryLogRecord, encodedRecordLen]
  rw [tryFrom_of_lt (by omega), okOr_some, ok_bind, hBinding]
  rfl

theorem encode_splice {history : HistoryId} {version : VersionId} {parent : Option VersionId}
    {offset deleteLen : Nat} {insert : Bytes} {requestId binding : Option Bytes} {digest : Digest}
    {physical : Option PhysicalPlacement} (hRequest : encodeRequestId requestId = .ok request)
    (hBinding : encodeBinding binding = .ok bound) {body : Bytes}
    (hBody : body = recordSplice :: (leBytes 8 history.id ++ leBytes 8 version.id ++
      leBytes 8 ((parent.map VersionId.id).getD noParent) ++ leBytes 8 offset ++
      leBytes 8 deleteLen ++ putBytes insert ++ request ++ bound ++ digest.toList ++
      encodePhysical physical)) (hLen : body.length < width 64) :
    encodeHistoryLogRecord (.splice history version parent offset deleteLen insert requestId binding
      digest physical) = .ok body := by
  have hRequestLen := length_encodeRequestId hRequest
  have hBound := length_encodeBinding hBinding
  have hPhysical := length_encodePhysical physical
  subst hBody
  simp only [List.length_cons, List.length_append, length_leBytes, putBytes,
    Vector.length_toList] at hLen
  simp only [encodeHistoryLogRecord, encodedRecordLen]
  rw [← hPhysical, tryFrom_of_lt (by omega), okOr_some, ok_bind, hRequest, ok_bind, hBinding]
  rfl

theorem encode_fork {history : HistoryId} {version parent : VersionId}
    {requestId binding : Option Bytes} {digest : Digest}
    (hRequest : encodeRequestId requestId = .ok request)
    (hBinding : encodeBinding binding = .ok bound) {body : Bytes}
    (hBody : body = recordFork :: (leBytes 8 history.id ++ leBytes 8 version.id ++
      leBytes 8 parent.id ++ request ++ bound ++ digest.toList)) (hLen : body.length < width 64) :
    encodeHistoryLogRecord (.fork history version parent requestId binding digest) = .ok body := by
  have hRequestLen := length_encodeRequestId hRequest
  have hBound := length_encodeBinding hBinding
  subst hBody
  simp only [List.length_cons, List.length_append, length_leBytes, Vector.length_toList] at hLen
  simp only [encodeHistoryLogRecord, encodedRecordLen]
  rw [tryFrom_of_lt (by omega), okOr_some, ok_bind, hRequest, ok_bind, hBinding]
  rfl

theorem encode_expireVersion (history : HistoryId) (version : VersionId) :
    encodeHistoryLogRecord (.expireVersion history version) =
      .ok (recordExpireVersion :: (leBytes 8 history.id ++ leBytes 8 version.id)) := rfl

theorem encode_retire {requestId : Bytes} (digest : Digest) (hMax : requestId.length ≤ 4096) :
    encodeHistoryLogRecord (.retire requestId digest) =
      .ok (recordRetire :: (leBytes 8 requestId.length ++ requestId ++ digest.toList)) := by
  have hNot : ¬ requestId.length > maxHistoryRequestIdBytes := Nat.not_lt.mpr hMax
  have hWidth : 4137 < width 64 := by decide
  simp only [encodeHistoryLogRecord, encodedRecordLen]
  rw [tryFrom_of_lt (by omega), okOr_some, ok_bind, failIf_neg hNot]
  rfl

end Lengths

/-! ## Records -/

/-- The body of a record, as far as it is short enough for memory. -/
def BodyOf (kind : UInt8) (field : Bytes) (record : HistoryLogRecord) : Prop :=
  record.Fits ∧ ((kind :: field).length < width 64 →
    encodeHistoryLogRecord record = .ok (kind :: field))

theorem reads_createHistory :
    Reads decodeCreateHistory (BodyOf recordCreateHistory) := by
  refine reads_u64.bind fun history field₁ h₁ => ?_
  refine reads_binding.bind fun binding field₂ h₂ => Reads.pure ⟨⟨h₁.2, h₂.2⟩, fun hLen => ?_⟩
  rw [List.append_nil, h₁.1] at hLen ⊢
  exact encode_createHistory h₂.1 hLen

theorem reads_splice : Reads decodeSplice (BodyOf recordSplice) := by
  refine reads_u64.bind fun history field₁ h₁ => ?_
  refine reads_u64.bind fun version field₂ h₂ => ?_
  refine reads_u64.bind fun rawParent field₃ h₃ => ?_
  refine reads_u64.bind fun offset field₄ h₄ => ?_
  refine reads_u64.bind fun deleteLen field₅ h₅ => ?_
  refine reads_u64.bind fun insertLen field₆ h₆ => ?_
  refine (reads_bytes insertLen).bind fun insert field₇ h₇ => ?_
  refine reads_requestId.bind fun requestId field₈ h₈ => ?_
  refine reads_binding.bind fun binding field₉ h₉ => ?_
  refine (reads_array 32).bind fun digest field₁₀ h₁₀ => ?_
  refine reads_physical.bind fun physical field₁₁ h₁₁ => Reads.pure ⟨?_, fun hLen => ?_⟩
  · refine ⟨h₁.2, h₂.2, ?_, h₄.2, h₅.2, ?_, h₈.2, h₉.2, h₁₁.2⟩
    · intro id hParent
      have hTop : noParent = width 64 - 1 := rfl
      have hRaw := h₃.2
      split at hParent
      case isTrue => cases hParent
      case isFalse hNe =>
        obtain rfl := Option.some.inj hParent
        dsimp only
        omega
    · rw [h₇.2]
      exact h₆.2
  · refine encode_splice h₈.1 h₉.1 ?_ hLen
    have hParent : ((if rawParent = noParent then none else some (VersionId.mk rawParent)).map
        VersionId.id).getD noParent = rawParent := by
      split
      case isTrue hNone => rw [hNone]; rfl
      case isFalse => rfl
    rw [hParent, h₁.1, h₂.1, h₃.1, h₄.1, h₅.1, h₆.1, h₇.1, h₁₀, h₁₁.1, ← h₇.2]
    simp only [putBytes, List.append_assoc, List.append_nil]

theorem reads_fork : Reads decodeFork (BodyOf recordFork) := by
  refine reads_u64.bind fun history field₁ h₁ => ?_
  refine reads_u64.bind fun version field₂ h₂ => ?_
  refine reads_u64.bind fun parent field₃ h₃ => ?_
  refine reads_requestId.bind fun requestId field₄ h₄ => ?_
  refine reads_binding.bind fun binding field₅ h₅ => ?_
  refine (reads_array 32).bind fun digest field₆ h₆ => Reads.pure ⟨?_, fun hLen => ?_⟩
  · exact ⟨h₁.2, h₂.2, h₃.2, h₄.2, h₅.2⟩
  · refine encode_fork h₄.1 h₅.1 ?_ hLen
    rw [h₁.1, h₂.1, h₃.1, h₆]
    simp only [List.append_assoc, List.append_nil]

theorem reads_expireVersion : Reads decodeExpireVersion (BodyOf recordExpireVersion) := by
  refine reads_u64.bind fun history field₁ h₁ => ?_
  refine reads_u64.bind fun version field₂ h₂ => Reads.pure ⟨⟨h₁.2, h₂.2⟩, fun _ => ?_⟩
  rw [List.append_nil, h₁.1, h₂.1]
  exact encode_expireVersion _ _

theorem reads_retire : Reads decodeRetire (BodyOf recordRetire) := by
  refine reads_u64.bind fun len field₁ h₁ => Reads.check fun hBounds => ?_
  refine (reads_bytes len).bind fun requestId field₂ h₂ => ?_
  refine (reads_array 32).bind fun digest field₃ h₃ => ?_
  rw [not_or] at hBounds
  have hLen := h₂.2
  have hMax : requestId.length ≤ 4096 := by
    rw [hLen]
    exact Nat.not_lt.mp hBounds.2
  refine Reads.pure ⟨validateRequestIdentity_eq_ok.mpr ⟨by omega, hMax⟩, fun _ => ?_⟩
  rw [encode_retire digest hMax, h₁.1, h₂.1, h₃, hLen]
  simp only [List.append_assoc, List.append_nil]

theorem reads_recordKind (kind : UInt8) : Reads (decodeRecordKind kind) (BodyOf kind) := by
  unfold decodeRecordKind
  by_cases hCreate : kind = recordCreateHistory
  · rw [if_pos hCreate, hCreate]
    exact reads_createHistory
  rw [if_neg hCreate]
  by_cases hSplice : kind = recordSplice
  · rw [if_pos hSplice, hSplice]
    exact reads_splice
  rw [if_neg hSplice]
  by_cases hFork : kind = recordFork
  · rw [if_pos hFork, hFork]
    exact reads_fork
  rw [if_neg hFork]
  by_cases hExpire : kind = recordExpireVersion
  · rw [if_pos hExpire, hExpire]
    exact reads_expireVersion
  rw [if_neg hExpire]
  by_cases hRetire : kind = recordRetire
  · rw [if_pos hRetire, hRetire]
    exact reads_retire
  rw [if_neg hRetire]
  exact Reads.throw

/-- An accepted body is the encoding of its record, and the record is in bounds. -/
theorem encodeHistoryLogRecord_decode {body : Bytes} {record : HistoryLogRecord}
    (hSize : body.length < width 64) (h : decodeHistoryLogRecord body = .ok record) :
    record.Fits ∧ encodeHistoryLogRecord record = .ok body := by
  obtain ⟨⟨kind, cursor⟩, hKind, h⟩ := bind_eq_ok.mp h
  obtain ⟨⟨found, stop⟩, hFound, h⟩ := bind_eq_ok.mp h
  obtain ⟨_, hEnd, h⟩ := bind_eq_ok.mp h
  obtain rfl := pure_eq_ok.mp h
  obtain ⟨field, rest, rfl, rfl, rfl⟩ := reads_byte body [] body kind cursor rfl hKind
  obtain ⟨fields, tail, ⟨hFits, hEncode⟩, rfl, rfl⟩ := reads_recordKind kind _ [kind] rest found
    stop rfl hFound
  have hTail : tail = [] := by
    have hPos := not_not.mp (failIf_eq_ok.mp hEnd)
    simp only [List.length_append, List.length_singleton] at hPos
    exact List.length_eq_zero_iff.mp (by omega)
  subst hTail
  rw [List.append_nil] at hSize ⊢
  exact ⟨hFits, hEncode hSize⟩

/-! ## Logs -/

section Logs

variable {sha256 : Bytes → Digest} {records : List HistoryLogRecord} {record : HistoryLogRecord}
  {frames frame : Bytes}

/-- A vector is never longer than this. -/
def HistoryLogRecord.InMemory : HistoryLogRecord → Prop
  | .splice _ _ _ _ _ insert _ _ _ _ => insert.length < 2 ^ 63
  | _ => True

theorem encodeRequestId_total {requestId : Option Bytes} (h : RequestInBounds requestId) :
    ∃ field, encodeRequestId requestId = .ok field ∧ field.length ≤ 4104 := by
  cases requestId with
  | none => exact ⟨_, rfl, by simp⟩
  | some request =>
    obtain ⟨-, hMax⟩ := validateRequestIdentity_eq_ok.mp (h request rfl)
    have hNot : ¬ request.length > maxHistoryRequestIdBytes := Nat.not_lt.mpr hMax
    refine ⟨leBytes 8 request.length ++ request, ?_, ?_⟩
    · rw [encodeRequestId, failIf_neg hNot]
      rfl
    · rw [List.length_append, length_leBytes]
      omega

theorem encodeBinding_total {binding : Option Bytes} (h : BindingInBounds binding) :
    ∃ field, encodeBinding binding = .ok field ∧ field.length ≤ 4104 := by
  cases binding with
  | none => exact ⟨_, rfl, by simp⟩
  | some bytes =>
    obtain ⟨-, hMax⟩ := validateBinding_eq_ok.mp (h bytes rfl)
    have hNot : ¬ bytes.length > maxHistoryBindingBytes := Nat.not_lt.mpr hMax
    refine ⟨leBytes 8 (bytes.length + 1) ++ bytes, ?_, ?_⟩
    · rw [encodeBinding, failIf_neg hNot]
      rfl
    · rw [List.length_append, length_leBytes]
      omega

/-- A record with fields in bounds has a body. -/
theorem encodeHistoryLogRecord_total (hFits : record.Fits) (hMemory : record.InMemory) :
    ∃ body, encodeHistoryLogRecord record = .ok body ∧ body.length < width 64 := by
  have hWidth : width 64 = 18446744073709551616 := rfl
  have hRoot : v2RootRecordSize = 56 := rfl
  cases record with
  | createHistory history binding =>
    obtain ⟨bound, hBinding, hMax⟩ := encodeBinding_total hFits.2
    have hLen : (recordCreateHistory :: (leBytes 8 history.id ++ bound)).length < width 64 := by
      simp only [List.length_cons, List.length_append, length_leBytes]
      omega
    exact ⟨_, encode_createHistory hBinding hLen, hLen⟩
  | splice history version parent offset deleteLen insert requestId binding digest physical =>
    obtain ⟨-, -, -, -, -, -, hRequestIn, hBindingIn, -⟩ := hFits
    obtain ⟨request, hRequest, hRequestMax⟩ := encodeRequestId_total hRequestIn
    obtain ⟨bound, hBinding, hBoundMax⟩ := encodeBinding_total hBindingIn
    have hInsert : insert.length < 9223372036854775808 := hMemory
    have hPhysical := length_encodePhysical physical
    have hPhysicalMax : (encodePhysical physical).length ≤ 129 := by
      rw [hPhysical]
      split <;> omega
    have hLen : (recordSplice :: (leBytes 8 history.id ++ leBytes 8 version.id ++
        leBytes 8 ((parent.map VersionId.id).getD noParent) ++ leBytes 8 offset ++
        leBytes 8 deleteLen ++ putBytes insert ++ request ++ bound ++ digest.toList ++
        encodePhysical physical)).length < width 64 := by
      simp only [List.length_cons, List.length_append, length_leBytes, putBytes,
        Vector.length_toList]
      omega
    exact ⟨_, encode_splice hRequest hBinding rfl hLen, hLen⟩
  | fork history version parent requestId binding digest =>
    obtain ⟨-, -, -, hRequestIn, hBindingIn⟩ := hFits
    obtain ⟨request, hRequest, hRequestMax⟩ := encodeRequestId_total hRequestIn
    obtain ⟨bound, hBinding, hBoundMax⟩ := encodeBinding_total hBindingIn
    have hLen : (recordFork :: (leBytes 8 history.id ++ leBytes 8 version.id ++
        leBytes 8 parent.id ++ request ++ bound ++ digest.toList)).length < width 64 := by
      simp only [List.length_cons, List.length_append, length_leBytes, Vector.length_toList]
      omega
    exact ⟨_, encode_fork hRequest hBinding rfl hLen, hLen⟩
  | expireVersion history version =>
    refine ⟨_, encode_expireVersion history version, ?_⟩
    simp only [List.length_cons, List.length_append, length_leBytes]
    omega
  | retire requestId digest =>
    obtain ⟨-, hMax⟩ := validateRequestIdentity_eq_ok.mp hFits
    refine ⟨_, encode_retire digest hMax, ?_⟩
    simp only [List.length_cons, List.length_append, length_leBytes, Vector.length_toList]
    omega

theorem frame_of_log (h : encodeHistoryLog sha256 [record] = .ok frame) :
    ∃ body, encodeHistoryLogRecord record = .ok body ∧ frame = frameBytes sha256 body := by
  simp only [encodeHistoryLog, bind_eq_ok, pure_eq_ok] at h
  obtain ⟨body, hBody, found, hFrame, rest, hRest, rfl⟩ := h
  obtain ⟨-, rfl⟩ := encodeHistoryLogFrame_eq_ok.mp hFrame
  obtain rfl := Except.ok.inj hRest
  exact ⟨body, hBody, List.append_nil _⟩

theorem forall₂_of_mapM {bodies : List Bytes} (hFits : ∀ r ∈ records, r.Fits)
    (h : records.mapM encodeHistoryLogRecord = .ok bodies) :
    List.Forall₂ (fun record body =>
      HistoryLogRecord.Fits record ∧ encodeHistoryLogRecord record = .ok body) records bodies := by
  induction records generalizing bodies with
  | nil =>
    obtain rfl : [] = bodies := Except.ok.inj h
    exact .nil
  | cons record records ih =>
    rw [List.mapM_cons] at h
    obtain ⟨body, hBody, h⟩ := bind_eq_ok.mp h
    obtain ⟨rest, hRest, h⟩ := bind_eq_ok.mp h
    obtain rfl := pure_eq_ok.mp h
    exact .cons ⟨hFits record List.mem_cons_self, hBody⟩
      (ih (fun r hMem => hFits r (List.mem_cons_of_mem _ hMem)) hRest)

/-- A written log holds its records. -/
theorem holdsLog_of_encode (hFits : ∀ r ∈ records, r.Fits)
    (h : encodeHistoryLog sha256 records = .ok frames) (hSize : frames.length < width 64) :
    HoldsLog sha256 frames records frames.length := by
  obtain ⟨bodies, hBodies, rfl⟩ := bodies_of_encodeHistoryLog h
  exact ⟨bodies, [], forall₂_of_mapM hFits hBodies, (List.append_nil _).symm, rfl, .inl rfl, hSize⟩

/-- Behind a written log the beginning of one more frame is a torn tail. -/
theorem holdsLog_torn (hFits : ∀ r ∈ records, r.Fits)
    (hFrames : encodeHistoryLog sha256 records = .ok frames)
    (hFrame : encodeHistoryLog sha256 [record] = .ok frame) {k : Nat} (hk : k < frame.length)
    (hSize : frames.length + frame.length < width 64) :
    HoldsLog sha256 (frames ++ frame.take k) records frames.length := by
  obtain ⟨body, -, rfl⟩ := frame_of_log hFrame
  exact (holdsLog_of_encode hFits hFrames (by omega)).append_beginning rfl hk hSize

/-- An append cuts the log at its tail and writes one more record. -/
theorem HoldsLog.appendFrame {file : Bytes} {tail : Nat} (h : HoldsLog sha256 file records tail)
    (hFits : record.Fits) (hFrame : encodeHistoryLog sha256 [record] = .ok frame)
    (hSize : tail + frame.length < width 64) :
    ∃ log next, DurableHistoryLog.openWrite sha256 file = .ok log ∧
      log.appendFrame frame = some next ∧
        decodeHistoryLog sha256 next.file = .ok (records ++ [record], next.tail) := by
  obtain ⟨body, hBody, rfl⟩ := frame_of_log hFrame
  have hCutLen : (file.take tail).length = tail := by
    rw [List.length_take]
    exact Nat.min_eq_left h.tail_le
  have hNext := h.cut.append hCutLen hFits hBody hSize
  refine ⟨⟨file, tail⟩, ⟨file.take tail ++ frameBytes sha256 body,
    tail + (frameBytes sha256 body).length⟩, ?_, ?_, hNext.decode⟩
  · rw [DurableHistoryLog.openWrite, scanLogTail, h.decode]
    rfl
  · rw [DurableHistoryLog.appendFrame, checkedAdd_of_lt hSize]
    rfl

/-- A record and its body determine each other, and a log cut inside its last frame is read up to
the cut: the next append goes on from there. -/
theorem history_log_codec (sha256 : Bytes → Digest) :
    (∀ record : HistoryLogRecord, record.Fits → record.InMemory →
      ∃ body, encodeHistoryLogRecord record = .ok body ∧
        decodeHistoryLogRecord body = .ok record) ∧
    (∀ (body : Bytes) (record : HistoryLogRecord), body.length < width 64 →
      decodeHistoryLogRecord body = .ok record → encodeHistoryLogRecord record = .ok body) ∧
    ∀ (records : List HistoryLogRecord) (record : HistoryLogRecord) (frames frame p : Bytes),
      (∀ r ∈ records, r.Fits) → encodeHistoryLog sha256 records = .ok frames →
      encodeHistoryLog sha256 [record] = .ok frame → p <+: frame → p ≠ frame →
      frames.length + frame.length < width 64 →
        decodeHistoryLog sha256 (frames ++ p) = .ok (records, frames.length) ∧
        ∀ (next : HistoryLogRecord) (nextFrame : Bytes), next.Fits →
          encodeHistoryLog sha256 [next] = .ok nextFrame →
          frames.length + nextFrame.length < width 64 →
            ∃ log log', DurableHistoryLog.openWrite sha256 (frames ++ p) = .ok log ∧
              log.appendFrame nextFrame = some log' ∧
              decodeHistoryLog sha256 log'.file = .ok (records ++ [next], log'.tail) := by
  refine ⟨?_, ?_, ?_⟩
  · intro record hFits hMemory
    obtain ⟨body, hBody, hSize⟩ := encodeHistoryLogRecord_total hFits hMemory
    exact ⟨body, hBody, decodeHistoryLogRecord_encode hFits hBody hSize⟩
  · intro body record hSize hDecode
    exact (encodeHistoryLogRecord_decode hSize hDecode).2
  · intro records record frames frame p hFits hFrames hFrame hPrefix hNe hSize
    have hLt : p.length < frame.length := by
      refine lt_of_le_of_ne hPrefix.length_le fun hLen => ?_
      exact hNe (hPrefix.eq_of_length hLen)
    have hTake : p = frame.take p.length := List.prefix_iff_eq_take.mp hPrefix
    have hHolds : HoldsLog sha256 (frames ++ p) records frames.length := by
      rw [hTake]
      exact holdsLog_torn hFits hFrames hFrame hLt hSize
    refine ⟨hHolds.decode, ?_⟩
    intro next nextFrame hNext hNextFrame hNextSize
    exact hHolds.appendFrame hNext hNextFrame hNextSize

/-- A log of one record with the first bytes of another frame behind it. -/
theorem history_log_codec_sample :
    decodeHistoryLog sampleLogSha256 (sampleFrame ++ sampleFrame.take 20) =
      .ok ([sampleRecord], sampleFrame.length) := by
  have hFits : ∀ r ∈ [sampleRecord], HistoryLogRecord.Fits r := by
    intro r hMem
    obtain rfl := List.mem_singleton.mp hMem
    exact ⟨by decide, by decide⟩
  have hWritten : encodeHistoryLog sampleLogSha256 [sampleRecord] = .ok sampleFrame := by
    decide +kernel
  have hCut := (history_log_codec sampleLogSha256).2.2 [sampleRecord] sampleRecord sampleFrame
    sampleFrame (sampleFrame.take 20) hFits hWritten hWritten (List.take_prefix _ _)
    (by decide +kernel) (by decide +kernel)
  exact hCut.1

end Logs

end TulyaStore.History
