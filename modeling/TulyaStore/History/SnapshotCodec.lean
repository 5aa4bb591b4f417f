import TulyaStore.History.Cursor
import TulyaStore.History.RecordCodec

/-!
# Snapshots read back

`HistorySnapshot.Canonical` is what the decoder asks of a snapshot beyond the checks of the
encoder. A canonical snapshot is read back from the bytes it is encoded to.
-/

namespace TulyaStore.History

open Lib Sequence SnapshotCursor

namespace Snapshot

/-- What the decoder asks of a version behind the versions `before`. -/
structure CanonicalVersion (before : List SnapshotVersion) (record : SnapshotVersion) : Prop where
  history : record.history.id < width 64
  parent : decodeParent before record.history.id
    ((record.parent.map VersionId.id).getD noParent) = .ok record.parent
  parentFits : (record.parent.map VersionId.id).getD noParent < width 64
  len : 0 < record.len ∧ record.len < width 64
  retained : record.lifecycle = .retained → record.rootPresent = true
  root : ∀ descriptor, record.root = some descriptor →
    ∃ root, decodeCanonicalRootBytes descriptor.toList = .ok root

/-- Every version is canonical behind the ones in front of it. -/
def CanonicalVersions : List SnapshotVersion → List SnapshotVersion → Prop
  | _, [] => True
  | before, record :: rest =>
    CanonicalVersion before record ∧ CanonicalVersions (before ++ [record]) rest

end Snapshot

open Snapshot

structure HistorySnapshot.Canonical (snapshot : HistorySnapshot) : Prop where
  generation : snapshot.generation < width 64
  representedWalEnd : snapshot.representedWalEnd < width 64
  physicalGeneration : snapshot.physicalGeneration < width 64
  payloadEnd : snapshot.payloadEnd < width 64
  nodeCount : snapshot.nodeCount < width 64
  bindings : (snapshot.historyBindings.filterMap id).Nodup
  versions : CanonicalVersions [] snapshot.versions
  disjoint : ∀ record ∈ snapshot.retired,
    record.requestId ∉ snapshot.active.map SnapshotActive.requestId
  receipts : validateReceiptConsistency snapshot.versions snapshot.active snapshot.retired
    snapshot.receiptOrder = .ok ()

/-! ## Sections -/

namespace Snapshot

section Sections

variable {whole : Bytes}

theorem takes_optionalBytes (hSize : whole.length < width 64) {binding : Option Bytes}
    {field : Bytes} (hField : putOptionalBytes binding = .ok field) (rest : Bytes) :
    Takes whole takeOptionalBytes field rest binding := by
  cases binding with
  | none =>
    obtain rfl : leBytes 8 0 = field := by simpa [putOptionalBytes, pure, Except.pure] using hField
    exact (takes_u64 hSize (n := 0) (by decide) rest).bind_last (Takes.pure _ _)
  | some bytes =>
    simp only [putOptionalBytes, bind_eq_ok, failIf_eq_ok, pure_eq_ok] at hField
    obtain ⟨_, hBounds, rfl⟩ := hField
    obtain ⟨hPos, hMax⟩ := validateBinding_eq_ok.mp (failIf_neg hBounds)
    have hFits : bytes.length + 1 < width 64 := (Nat.succ_le_succ hMax).trans_lt (by decide)
    refine (takes_u64 hSize hFits _).bind ?_
    rw [if_neg (by omega), Nat.add_sub_cancel]
    refine Takes.check ?_ ((takes_take hSize bytes rest).bind_last (Takes.pure _ _))
    rw [not_or]
    exact ⟨by omega, Nat.not_lt.mpr hMax⟩

/-- The same reader over the fields of a list. -/
theorem takes_many {α : Type} {put : α → Except HistoryError Bytes} {reader : SnapshotReader α}
    {xs : List α}
    (hEach : ∀ x ∈ xs, ∀ field rest, put x = .ok field → Takes whole reader field rest x)
    {field : Bytes} (hField : putEach put xs = .ok field) (rest : Bytes) :
    Takes whole (takeMany reader xs.length) field rest xs := by
  induction xs generalizing field with
  | nil =>
    obtain rfl : [] = field := by simpa [putEach, pure, Except.pure] using hField
    exact Takes.pure _ _
  | cons x xs ih =>
    simp only [putEach, bind_eq_ok, pure_eq_ok] at hField
    obtain ⟨head, hHead, tail, hTail, rfl⟩ := hField
    have hRest := ih (fun y hMem => hEach y (List.mem_cons_of_mem x hMem)) hTail
    exact (hEach x List.mem_cons_self head _ hHead).bind (hRest.bind_last (Takes.pure _ _))

theorem takes_root (hSize : whole.length < width 64) {root : Option RootBytes}
    (hRoot : ∀ descriptor, root = some descriptor →
      ∃ decoded, decodeCanonicalRootBytes descriptor.toList = .ok decoded) (rest : Bytes) :
    Takes whole (takeRoot root.isSome) ((root.map Vector.toList).getD []) rest root := by
  cases root with
  | none => exact Takes.pure _ _
  | some descriptor =>
    obtain ⟨decoded, hDecoded⟩ := hRoot descriptor rfl
    refine (takes_array hSize descriptor rest).bind_last ?_
    refine (Takes.lift (a := decoded) ?_ _).bind_nil (Takes.pure _ _)
    rw [hDecoded]
    rfl

theorem decodeLifecycle_lifecycleByte (lifecycle : VersionLifecycle) :
    decodeLifecycle (lifecycleByte lifecycle) = .ok lifecycle := by
  cases lifecycle <;> rfl

theorem decodeRootPresence_byte (present : Bool) :
    decodeRootPresence (if present then 1 else 0) = .ok present := by
  cases present <;> rfl

theorem takes_version (hSize : whole.length < width 64) {historyCount : Nat}
    {before : List SnapshotVersion} {record : SnapshotVersion}
    (hCanonical : CanonicalVersion before record) {field : Bytes}
    (hField : putVersion historyCount record = .ok field) (rest : Bytes) :
    Takes whole (takeVersion historyCount before) field rest record := by
  obtain ⟨history, parent, binding, lifecycle, rootPresent, len, root⟩ := record
  simp only [putVersion, bind_eq_ok, failIf_eq_ok, pure_eq_ok, not_not] at hField
  obtain ⟨_, hHistory, _, rfl, bound, hBound, rfl⟩ := hField
  have hPair : [lifecycleByte lifecycle, if root.isSome then 1 else 0] =
      [lifecycleByte lifecycle] ++ [if root.isSome then 1 else 0] := rfl
  simp only [hPair, List.append_assoc]
  refine (takes_u64 hSize hCanonical.history _).bind (Takes.check hHistory ?_)
  refine (takes_u64 hSize hCanonical.parentFits _).bind ?_
  refine (Takes.lift hCanonical.parent _).bind_nil ?_
  refine (takes_optionalBytes hSize hBound _).bind ?_
  refine (takes_byte hSize (lifecycleByte lifecycle) _).bind ?_
  refine (Takes.lift (decodeLifecycle_lifecycleByte lifecycle) _).bind_nil ?_
  refine (takes_byte hSize _ _).bind ?_
  refine (Takes.lift (decodeRootPresence_byte root.isSome) _).bind_nil ?_
  refine (takes_u64 hSize hCanonical.len.2 _).bind ?_
  refine Takes.check (Nat.pos_iff_ne_zero.mp hCanonical.len.1) ?_
  refine Takes.check ?_ ((takes_root hSize hCanonical.root rest).bind_last (Takes.pure _ _))
  rintro ⟨hRetained, hAbsent⟩
  exact hAbsent (hCanonical.retained hRetained)

theorem takes_versions (hSize : whole.length < width 64) {historyCount : Nat}
    {before versions : List SnapshotVersion} (hCanonical : CanonicalVersions before versions)
    {field : Bytes} (hField : putEach (putVersion historyCount) versions = .ok field)
    (rest : Bytes) :
    Takes whole (takeVersions historyCount before versions.length) field rest
      (before ++ versions) := by
  induction versions generalizing before field with
  | nil =>
    obtain rfl : [] = field := by simpa [putEach, pure, Except.pure] using hField
    rw [List.append_nil]
    exact Takes.pure _ _
  | cons record versions ih =>
    simp only [putEach, bind_eq_ok, pure_eq_ok] at hField
    obtain ⟨head, hHead, tail, hTail, rfl⟩ := hField
    have hRest := ih hCanonical.2 hTail
    rw [List.append_assoc, List.singleton_append] at hRest
    exact (takes_version hSize hCanonical.1 hHead _).bind hRest

theorem takes_active (hSize : whole.length < width 64) {versionCount : Nat}
    (hCount : versionCount < width 64) {before active : List SnapshotActive} {field : Bytes}
    (hField : putActive versionCount (before.getLast?.map SnapshotActive.requestId) active =
      .ok field) (rest : Bytes) :
    Takes whole (takeActive versionCount before active.length) field rest (before ++ active) := by
  induction active generalizing before field with
  | nil =>
    obtain rfl : [] = field := by simpa [putActive, pure, Except.pure] using hField
    rw [List.append_nil]
    exact Takes.pure _ _
  | cons record active ih =>
    simp only [putActive, bind_eq_ok, failIf_eq_ok, pure_eq_ok] at hField
    obtain ⟨_, hBounds, _, hOrder, _, hVersion, tail, hTail, rfl⟩ := hField
    have hRest := @ih (before ++ [record]) tail
      (by rw [List.getLast?_concat]; exact hTail)
    rw [List.append_assoc, List.singleton_append] at hRest
    simp only [List.append_assoc]
    refine (takes_requestId hSize hBounds _).bind ?_
    refine (Takes.lift hOrder _).bind_nil ?_
    refine (takes_array hSize record.digest _).bind ?_
    exact (takes_u64 hSize (by omega) _).bind (Takes.check hVersion hRest)

theorem takes_retired (hSize : whole.length < width 64) {activeIds : List Bytes}
    {before retired : List SnapshotRetired}
    (hDisjoint : ∀ record ∈ retired, record.requestId ∉ activeIds) {field : Bytes}
    (hField : putRetired (before.getLast?.map SnapshotRetired.requestId) retired = .ok field)
    (rest : Bytes) :
    Takes whole (takeRetired activeIds before retired.length) field rest (before ++ retired) := by
  induction retired generalizing before field with
  | nil =>
    obtain rfl : [] = field := by simpa [putRetired, pure, Except.pure] using hField
    rw [List.append_nil]
    exact Takes.pure _ _
  | cons record retired ih =>
    simp only [putRetired, bind_eq_ok, pure_eq_ok] at hField
    obtain ⟨_, hBounds, _, hOrder, tail, hTail, rfl⟩ := hField
    have hRest := @ih (before ++ [record])
      (fun other hMem => hDisjoint other (List.mem_cons_of_mem _ hMem)) tail
      (by rw [List.getLast?_concat]; exact hTail)
    rw [List.append_assoc, List.singleton_append] at hRest
    simp only [List.append_assoc]
    refine (takes_requestId hSize hBounds _).bind ?_
    refine (Takes.lift hOrder _).bind_nil ?_
    refine Takes.check (hDisjoint record List.mem_cons_self) ?_
    exact (takes_array hSize record.digest _).bind hRest

theorem takes_receipt (hSize : whole.length < width 64) {requestId field : Bytes}
    (hField : putReceipt requestId = .ok field) (rest : Bytes) :
    Takes whole takeRequestId field rest requestId := by
  simp only [putReceipt, bind_eq_ok, pure_eq_ok] at hField
  obtain ⟨_, hBounds, rfl⟩ := hField
  exact takes_requestId hSize hBounds rest

/-! ## Counts -/

theorem length_le_putEach {α : Type} {put : α → Except HistoryError Bytes} {xs : List α}
    (hEach : ∀ x field, put x = .ok field → 0 < field.length) {field : Bytes}
    (hField : putEach put xs = .ok field) : xs.length ≤ field.length := by
  induction xs generalizing field with
  | nil => exact Nat.zero_le _
  | cons x xs ih =>
    simp only [putEach, bind_eq_ok, pure_eq_ok] at hField
    obtain ⟨head, hHead, tail, hTail, rfl⟩ := hField
    have hPos := hEach x head hHead
    have hRest := ih hTail
    rw [List.length_append, List.length_cons]
    omega

theorem putOptionalBytes_pos (binding : Option Bytes) (field : Bytes)
    (hField : putOptionalBytes binding = .ok field) : 0 < field.length := by
  cases binding with
  | none =>
    obtain rfl : leBytes 8 0 = field := by simpa [putOptionalBytes, pure, Except.pure] using hField
    rw [length_leBytes]
    omega
  | some bytes =>
    simp only [putOptionalBytes, bind_eq_ok, failIf_eq_ok, pure_eq_ok] at hField
    obtain ⟨_, -, rfl⟩ := hField
    rw [List.length_append, length_leBytes]
    omega

theorem putVersion_pos {historyCount : Nat} (record : SnapshotVersion) (field : Bytes)
    (hField : putVersion historyCount record = .ok field) : 0 < field.length := by
  simp only [putVersion, bind_eq_ok, failIf_eq_ok, pure_eq_ok] at hField
  obtain ⟨_, -, _, -, bound, -, rfl⟩ := hField
  simp only [List.length_append, length_leBytes]
  omega

theorem putReceipt_pos (requestId : Bytes) (field : Bytes)
    (hField : putReceipt requestId = .ok field) : 0 < field.length := by
  simp only [putReceipt, bind_eq_ok, pure_eq_ok] at hField
  obtain ⟨_, -, rfl⟩ := hField
  rw [putBytes, List.length_append, length_leBytes]
  omega

theorem length_le_putActive {versionCount : Nat} {previous : Option Bytes}
    {active : List SnapshotActive} {field : Bytes}
    (hField : putActive versionCount previous active = .ok field) :
    active.length ≤ field.length := by
  induction active generalizing previous field with
  | nil => exact Nat.zero_le _
  | cons record active ih =>
    simp only [putActive, bind_eq_ok, failIf_eq_ok, pure_eq_ok] at hField
    obtain ⟨_, -, _, -, _, -, tail, hTail, rfl⟩ := hField
    have hRest := ih hTail
    simp only [List.length_append, List.length_cons, length_leBytes]
    omega

theorem length_le_putRetired {previous : Option Bytes} {retired : List SnapshotRetired}
    {field : Bytes} (hField : putRetired previous retired = .ok field) :
    retired.length ≤ field.length := by
  induction retired generalizing previous field with
  | nil => exact Nat.zero_le _
  | cons record retired ih =>
    simp only [putRetired, bind_eq_ok, pure_eq_ok] at hField
    obtain ⟨_, -, _, -, tail, hTail, rfl⟩ := hField
    have hRest := ih hTail
    simp only [putBytes, List.length_append, List.length_cons, length_leBytes]
    omega

theorem takes_counts (hSize : whole.length < width 64) {histories versions active retired
    receipts : Nat} {rest : Bytes} (hHistories : histories ≤ rest.length)
    (hVersions : versions ≤ rest.length) (hActive : active ≤ rest.length)
    (hRetired : retired ≤ rest.length) (hReceipts : receipts ≤ rest.length) :
    Takes whole takeCounts (leBytes 8 histories ++ (leBytes 8 versions ++ (leBytes 8 active ++
      (leBytes 8 retired ++ leBytes 8 receipts)))) rest
      ⟨histories, versions, active, retired, receipts⟩ := by
  refine (takes_count hSize ?_ _).bind ?_
  · simp only [List.length_append]
    omega
  refine (takes_count hSize ?_ _).bind ?_
  · simp only [List.length_append]
    omega
  refine (takes_count hSize ?_ _).bind ?_
  · simp only [List.length_append]
    omega
  refine (takes_count hSize ?_ _).bind ?_
  · simp only [List.length_append]
    omega
  exact (takes_count hSize hReceipts _).bind_last (Takes.pure _ _)

theorem takes_counts_bind {β : Type} (hSize : whole.length < width 64)
    {histories versions active retired receipts : Nat} {field rest : Bytes}
    {f : Counts → SnapshotReader β} {b : β} (hHistories : histories ≤ (field ++ rest).length)
    (hVersions : versions ≤ (field ++ rest).length) (hActive : active ≤ (field ++ rest).length)
    (hRetired : retired ≤ (field ++ rest).length) (hReceipts : receipts ≤ (field ++ rest).length)
    (hf : Takes whole (f ⟨histories, versions, active, retired, receipts⟩) field rest b) :
    Takes whole (takeCounts >>= f) (leBytes 8 histories ++ (leBytes 8 versions ++
      (leBytes 8 active ++ (leBytes 8 retired ++ (leBytes 8 receipts ++ field))))) rest b := by
  have hCounts := takes_counts hSize hHistories hVersions hActive hRetired hReceipts
  simpa only [List.append_assoc] using hCounts.bind hf

end Sections

end Snapshot

/-! ## The whole snapshot -/

section Whole

variable {sha256 : Bytes → Digest} {snapshot : HistorySnapshot} {bytes : Bytes}

theorem length_putHeader (snapshot : HistorySnapshot) (totalLen : Nat) :
    (putHeader snapshot totalLen).length = historySnapshotHeaderSize := by
  have hMagic : historySnapshotMagic.length = 4 := by decide
  simp only [putHeader, List.length_append, length_leBytes, hMagic]
  rfl

/-- The snapshot in front of its digest. -/
theorem takes_snapshot {body : Bytes} (hCanonical : snapshot.Canonical)
    (hHistories : snapshot.nextHistoryId = snapshot.historyBindings.length)
    (hVersions : snapshot.nextVersionId = snapshot.versions.length)
    (hBody : putBody snapshot = .ok body) {whole digest : Bytes}
    (hWhole : whole = putHeader snapshot whole.length ++ body ++ digest)
    (hSize : whole.length < width 64) :
    Takes whole takeSnapshot (putHeader snapshot whole.length ++ body) digest snapshot := by
  simp only [putBody, bind_eq_ok, pure_eq_ok] at hBody
  obtain ⟨bindings, hBindings, versions, hVersionBytes, active, hActive, retired, hRetired, order,
    hOrder, rfl⟩ := hBody
  have hBindingCount := length_le_putEach putOptionalBytes_pos hBindings
  have hVersionCount := length_le_putEach putVersion_pos hVersionBytes
  have hActiveCount := length_le_putActive hActive
  have hRetiredCount := length_le_putRetired hRetired
  have hOrderCount := length_le_putEach putReceipt_pos hOrder
  have hHeader := length_putHeader snapshot whole.length
  have hLen := congrArg List.length hWhole
  simp only [List.length_append, hHeader] at hLen
  have hMagicLen : historySnapshotMagic.length = 4 := by decide
  have hMagic := takes_take hSize historySnapshotMagic
  rw [hMagicLen] at hMagic
  simp only [putHeader, List.append_assoc]
  refine (hMagic _).bind (Takes.check (by simp) ?_)
  refine (takes_u64 hSize hSize _).bind (Takes.get fun _ => Takes.check (by simp) ?_)
  refine (takes_u32 hSize (by decide) _).bind (Takes.check (by simp) ?_)
  refine (takes_u64 hSize hCanonical.generation _).bind ?_
  refine (takes_u64 hSize hCanonical.representedWalEnd _).bind ?_
  refine takes_counts_bind hSize ?_ ?_ ?_ ?_ ?_ ?_
  iterate 5
    · simp only [List.length_append]
      omega
  refine (takes_u64 hSize hCanonical.physicalGeneration _).bind ?_
  refine (takes_u64 hSize hCanonical.payloadEnd _).bind ?_
  refine (takes_u64 hSize hCanonical.nodeCount _).bind ?_
  refine (takes_u64 hSize (by omega) _).bind ?_
  refine (takes_u64 hSize (by omega) _).bind ?_
  refine Takes.check (by simpa using hHistories) (Takes.check (by simpa using hVersions) ?_)
  refine (takes_many (fun _ _ _ rest hField => takes_optionalBytes hSize hField rest)
    hBindings _).bind (Takes.check (by simpa using hCanonical.bindings) ?_)
  refine (takes_versions hSize hCanonical.versions hVersionBytes _).bind ?_
  refine (@takes_active _ hSize _ (by omega) [] _ _ hActive _).bind ?_
  refine (@takes_retired _ hSize _ [] _ hCanonical.disjoint _ hRetired _).bind ?_
  refine (takes_many (fun _ _ _ rest hField => takes_receipt hSize hField rest) hOrder _).bind_last
    ?_
  exact (Takes.lift hCanonical.receipts _).bind_nil (Takes.pure _ _)

/-- A canonical snapshot is read back from its bytes. -/
theorem decodeHistorySnapshot_encode (hCanonical : snapshot.Canonical)
    (hEncode : encodeHistorySnapshotStruct sha256 snapshot = .ok bytes) :
    decodeHistorySnapshot sha256 bytes = .ok snapshot := by
  simp only [encodeHistorySnapshotStruct, bind_eq_ok, failIf_eq_ok, pure_eq_ok, not_not,
    okOr_eq_ok] at hEncode
  obtain ⟨_, hHistories, _, hVersions, body, hBody, totalLen, hTotal, rfl⟩ := hEncode
  obtain ⟨hSize, rfl⟩ := tryFrom_eq_some.mp hTotal
  set pre := putHeader snapshot (historySnapshotHeaderSize + body.length + 32) ++ body with hPre
  set digest := (snapshotDigest sha256 pre).toList with hDigest
  have hPreLen : pre.length = historySnapshotHeaderSize + body.length := by
    rw [hPre, List.length_append, length_putHeader]
  have hDigestLen : digest.length = 32 := by rw [hDigest, Vector.length_toList]
  have hLen : (pre ++ digest).length = historySnapshotHeaderSize + body.length + 32 := by
    rw [List.length_append, hPreLen, hDigestLen]
  have hTaken := @takes_snapshot _ _ hCanonical hHistories hVersions hBody (pre ++ digest) digest
    (by rw [hLen]) (by rw [hLen]; exact hSize) [] (by rw [hLen]; rfl)
  rw [hLen, ← hPre] at hTaken
  have hEnd : (pre ++ digest).length - 32 = pre.length := by
    rw [List.length_append, hDigestLen, Nat.add_sub_cancel]
  rw [decodeHistorySnapshot]
  rw [List.length_nil] at hTaken
  rw [hTaken, ok_bind]
  dsimp only
  rw [failIf_neg (by rw [hLen]; omega), ok_bind, failIf_neg (by rw [hEnd]; omega), ok_bind,
    failIf_neg (by rw [hEnd, List.take_left, List.drop_left]; simp [hDigest]), ok_bind]
  rfl

end Whole

end TulyaStore.History
