import TulyaStore.V2.ApplySpec

/-!
# Deleting a subtree

From a valid state a delete of a live checkpoint succeeds, and `SubtreeDeleted` says what it leaves
behind. The descendants are found in one pass, which is enough because every parent stands in front
of its children (`markDescendants_ok`); the ledgers are then rebuilt over the checkpoints that stay.
-/

namespace TulyaStore.V2

open Lib Sequence
open Sequence.V2AvlSequence

section Delete

variable {sha256 : Bytes → Digest} {a : V2AvlSequence} {state : V2CommittedState}
  {checkpoints : List V2CheckpointRecord} {versions : List V2VersionRecord}

/-- The checkpoint `child` of the table names `parent` as its parent. -/
def ParentLink (checkpoints : List V2CheckpointRecord) (parent child : V2CheckpointKey) : Prop :=
  ∃ checkpoint ∈ checkpoints, checkpoint.key = child ∧
    ∃ id ∈ checkpoint.parentCheckpointId, checkpointKey checkpoint.threadId id = parent

/-- The checkpoint `key` is `target` or is reached from it by parent links. -/
def InSubtree (checkpoints : List V2CheckpointRecord) (target key : V2CheckpointKey) : Prop :=
  Relation.ReflTransGen (ParentLink checkpoints) target key

/-! ## The state a delete starts from -/

theorem validateCheckpointIdentifier_eq_ok {identifier : String} {u : Unit} :
    validateCheckpointIdentifier identifier = .ok u ↔ IdentifierOk identifier := by
  simp only [validateCheckpointIdentifier, failIf_eq_ok, not_or, gt_iff_lt, Nat.not_lt, IdentifierOk,
    ne_eq]

theorem getElem?_checkpointKeys {i : Nat} {key : V2CheckpointKey} :
    (checkpointKeys checkpoints)[i]? = some key ↔
      ∃ checkpoint, checkpoints[i]? = some checkpoint ∧ checkpoint.key = key := by
  rw [checkpointKeys, List.getElem?_map, Option.map_eq_some_iff]

theorem mem_checkpointKeys {key : V2CheckpointKey} :
    key ∈ checkpointKeys checkpoints ↔ ∃ checkpoint ∈ checkpoints, checkpoint.key = key :=
  List.mem_map

/-- The record of a key is unique. -/
theorem CheckpointTable.unique (h : CheckpointTable sha256 versions checkpoints) {i j : Nat}
    {c d : V2CheckpointRecord} (hc : checkpoints[i]? = some c) (hd : checkpoints[j]? = some d)
    (hKey : c.key = d.key) : i = j := by
  have hi : (checkpointKeys checkpoints)[i]? = some c.key := getElem?_checkpointKeys.mpr ⟨c, hc, rfl⟩
  have hj : (checkpointKeys checkpoints)[j]? = some c.key :=
    getElem?_checkpointKeys.mpr ⟨d, hd, hKey.symm⟩
  exact (List.getElem?_inj (List.getElem?_eq_some_iff.mp hi).1 h.nodup).mp (hi.trans hj.symm)

/-- The parent of a checkpoint stands in front of it. -/
theorem CheckpointTable.parent_before (h : CheckpointTable sha256 versions checkpoints) {i : Nat}
    {checkpoint : V2CheckpointRecord} (hGet : checkpoints[i]? = some checkpoint) {id : String}
    (hId : id ∈ checkpoint.parentCheckpointId) :
    ∃ j parent, j < i ∧ checkpoints[j]? = some parent ∧
      parent.key = checkpointKey checkpoint.threadId id := by
  have hMem := h.parent i checkpoint hGet id hId
  obtain ⟨j, hj⟩ := List.mem_iff_getElem?.mp hMem
  rw [List.getElem?_take] at hj
  split at hj
  case isTrue hLt =>
    obtain ⟨parent, hParent, hKey⟩ := getElem?_checkpointKeys.mp hj
    exact ⟨j, parent, hLt, hParent, hKey⟩
  case isFalse => cases hj

/-- The positions of the first checkpoints. -/
theorem indexOf_take_succ {i : Nat} {checkpoint : V2CheckpointRecord}
    (hGet : checkpoints[i]? = some checkpoint) :
    KeyMap.indexOf ((checkpointKeys checkpoints).take (i + 1)) =
      (KeyMap.indexOf ((checkpointKeys checkpoints).take i)).insert checkpoint.key i := by
  have hKey : (checkpointKeys checkpoints)[i]? = some checkpoint.key :=
    getElem?_checkpointKeys.mpr ⟨checkpoint, hGet, rfl⟩
  have hLt := (List.getElem?_eq_some_iff.mp hKey).1
  rw [List.take_add_one, hKey]
  exact (KeyMap.indexOf_append_singleton _ _).trans (by rw [List.length_take, Nat.min_eq_left hLt.le])

theorem sourcePosition_ok (h : StateOk sha256 a state) {i : Nat} {checkpoint : V2CheckpointRecord}
    (hGet : state.checkpoints[i]? = some checkpoint) :
    sourcePosition state.deletedCheckpoints
        (KeyMap.indexOf ((checkpointKeys state.checkpoints).take i)) (checkpoint, i) =
      .ok (KeyMap.indexOf ((checkpointKeys state.checkpoints).take (i + 1))) := by
  have hMem := List.mem_of_getElem? hGet
  have hValid := h.table.valid checkpoint hMem
  have hTake : ((checkpointKeys state.checkpoints).take i).Nodup :=
    h.table.nodup.sublist (List.take_sublist _ _)
  have hNext : ((checkpointKeys state.checkpoints).take (i + 1)).Nodup :=
    h.table.nodup.sublist (List.take_sublist _ _)
  have hLive : state.deletedCheckpoints.containsKey checkpoint.key ≠ true := by
    intro hDeleted
    exact (h.ledgers.deleted _ hDeleted).2.2 (mem_checkpointKeys.mpr ⟨checkpoint, hMem, rfl⟩)
  have hNew : (KeyMap.indexOf ((checkpointKeys state.checkpoints).take i)).containsKey
      checkpoint.key ≠ true := by
    rw [ne_eq, KeyMap.containsKey_indexOf hTake]
    intro hBefore
    obtain ⟨j, hj⟩ := List.mem_iff_getElem?.mp hBefore
    rw [List.getElem?_take] at hj
    split at hj
    case isTrue hLt =>
      obtain ⟨other, hOther, hSame⟩ := getElem?_checkpointKeys.mp hj
      have hEq := h.table.unique hOther hGet hSame
      omega
    case isFalse => cases hj
  have hParent : checkPresent (validateSourceParent (KeyMap.indexOf
      ((checkpointKeys state.checkpoints).take (i + 1))) checkpoint.threadId i)
      checkpoint.parentCheckpointId = .ok () := by
    rw [checkPresent_eq_ok]
    intro id hId
    obtain ⟨j, parent, hLt, hParent, hKey⟩ := h.table.parent_before hGet hId
    have hPosition : (KeyMap.indexOf ((checkpointKeys state.checkpoints).take (i + 1))).get
        (checkpointKey checkpoint.threadId id) = some j := by
      rw [KeyMap.get_indexOf hNext, List.getElem?_take_of_lt (by omega)]
      exact getElem?_checkpointKeys.mpr ⟨parent, hParent, hKey⟩
    rw [validateSourceParent, hPosition, okOr_some, ok_bind, failIf_neg (by omega)]
  rw [indexOf_take_succ hGet] at hParent ⊢
  unfold sourcePosition
  simp only [validateCheckpointIdentifier_eq_ok (u := ()) |>.mpr hValid.threadId,
    validateCheckpointIdentifier_eq_ok (u := ()) |>.mpr hValid.checkpointId,
    checkPresent_eq_ok (u := ()) |>.mpr fun id hId =>
      validateCheckpointIdentifier_eq_ok (u := ()) |>.mpr (hValid.parent id hId),
    failIf_neg hLive, failIf_neg hNew, hParent, ok_bind]
  rfl

theorem validateSourceOrdinal_ok (h : StateOk sha256 a state) {entry : V2CheckpointKey × Nat}
    (hMem : entry ∈ state.checkpointOrdinals.entries) :
    validateSourceOrdinal (KeyMap.indexOf (checkpointKeys state.checkpoints)) entry = .ok () := by
  have hGet : state.checkpointOrdinals.get entry.1 = some entry.2 := KeyMap.mem_entries.mp hMem
  obtain ⟨checkpoint, hCheckpoint, -⟩ := (h.ledgers.get_ordinal h.table.nodup).mp hGet
  have hLt := (List.getElem?_eq_some_iff.mp hCheckpoint).1
  have hCount := h.ledgers.count
  rw [h.ledgers.ordinals] at hGet
  rw [validateSourceOrdinal, hGet, okOr_some, ok_bind, tryFrom_of_lt (by omega), okOr_some, ok_bind,
    failIf_neg (not_not_intro rfl)]

theorem validateSourceDeleted_ok (h : LedgersOk sha256 state) {entry : V2CheckpointKey × Unit}
    (hMem : entry ∈ state.deletedCheckpoints.entries) : validateSourceDeleted entry = .ok () := by
  have hKey : state.deletedCheckpoints.containsKey entry.1 = true :=
    KeyMap.containsKey_eq_true.mpr ⟨entry.2, KeyMap.mem_entries.mp hMem⟩
  obtain ⟨hThread, hCheckpoint, -⟩ := h.deleted entry.1 hKey
  rw [validateSourceDeleted, validateCheckpointIdentifier_eq_ok (u := ()) |>.mpr hThread, ok_bind,
    validateCheckpointIdentifier_eq_ok (u := ()) |>.mpr hCheckpoint]

theorem validateSourceRequest_ok (h : StateOk sha256 a state) {entry : Bytes × V2RequestRecord}
    (hMem : entry ∈ state.requestRecords.entries) :
    state.validateSourceRequest sha256 entry = .ok () := by
  obtain ⟨hId, hRetired, checkpoint, hGet, hDigest⟩ :=
    h.ledgers.active entry.1 entry.2 (KeyMap.mem_entries.mp hMem)
  have hValid := h.table.valid checkpoint (List.mem_of_getElem? hGet)
  have hActive : ¬ state.retiredRequests.containsKey entry.1 = true := by
    rw [KeyMap.containsKey_eq_true, hRetired]
    rintro ⟨_, hSome⟩
    cases hSome
  rw [V2CommittedState.validateSourceRequest, validateActiveRequestId_eq_ok (u := ()) |>.mpr hId,
    ok_bind, failIf_neg hActive, ok_bind, hGet, okOr_some, ok_bind,
    mapErr_eq_ok.mpr (checkpointOperationDigest_eq_ok.mpr ⟨hValid, rfl⟩), ok_bind,
    failIf_neg (not_not_intro hDigest)]

theorem validateSourceRetired_ok (h : LedgersOk sha256 state) {entry : Bytes × Digest}
    (hMem : entry ∈ state.retiredRequests.entries) : validateActiveRequestId entry.1 = .ok () :=
  validateActiveRequestId_eq_ok.mpr (h.retired entry.1 entry.2 (KeyMap.mem_entries.mp hMem))

/-- A valid state passes the checks in front of a delete. -/
theorem validateDeleteSourceState_ok (h : StateOk sha256 a state) :
    state.validateDeleteSourceState sha256 =
      .ok (KeyMap.indexOf (checkpointKeys state.checkpoints)) := by
  have hLength : (checkpointKeys state.checkpoints).length = state.checkpoints.length :=
    List.length_map _
  have hSize : state.checkpointOrdinals.size = state.checkpoints.length := by
    rw [h.ledgers.ordinals, KeyMap.size_indexOf h.table.nodup, hLength]
  have hTurn : ∀ (i : Nat) (entry : V2CheckpointRecord × Nat) (positions : KeyMap V2CheckpointKey Nat),
      state.checkpoints.zipIdx[i]? = some entry →
      positions = KeyMap.indexOf ((checkpointKeys state.checkpoints).take i) →
      ∃ positions', sourcePosition state.deletedCheckpoints positions entry = .ok positions' ∧
        positions' = KeyMap.indexOf ((checkpointKeys state.checkpoints).take (i + 1)) := by
    intro i entry positions hGet hPositions
    obtain ⟨hCheckpoint, hIndex⟩ := getElem?_zipIdx_zero hGet
    obtain ⟨checkpoint, index⟩ := entry
    obtain rfl : index = i := hIndex
    subst hPositions
    exact ⟨_, sourcePosition_ok h hCheckpoint, rfl⟩
  obtain ⟨positions, hRun, hPositions⟩ := foldlM_indexed hTurn (t := KeyMap.empty) rfl
  rw [List.length_zipIdx, ← hLength, List.take_length] at hPositions
  subst hPositions
  rw [V2CommittedState.validateDeleteSourceState, failIf_neg (not_not_intro hSize), ok_bind, hRun,
    ok_bind, forM_eq_ok fun entry hMem => validateSourceOrdinal_ok h hMem, ok_bind,
    forM_eq_ok fun entry hMem => validateSourceDeleted_ok h.ledgers hMem, ok_bind,
    forM_eq_ok fun entry hMem => validateSourceRequest_ok h hMem, ok_bind,
    forM_eq_ok fun entry hMem => validateSourceRetired_ok h.ledgers hMem, ok_bind]
  rfl

/-! ## The descendants -/

variable {target key : V2CheckpointKey}

/-- A checkpoint is below the target when it is the target or its parent is below it. -/
theorem inSubtree_iff (target : V2CheckpointKey)
    (hNodup : (checkpointKeys checkpoints).Nodup)
    {checkpoint : V2CheckpointRecord} (hMem : checkpoint ∈ checkpoints) :
    InSubtree checkpoints target checkpoint.key ↔ checkpoint.key = target ∨
      ∃ id ∈ checkpoint.parentCheckpointId,
        InSubtree checkpoints target (checkpointKey checkpoint.threadId id) := by
  constructor
  · intro h
    rcases Relation.ReflTransGen.cases_tail h with hSame | ⟨parent, hAbove, hLink⟩
    · exact Or.inl hSame
    · obtain ⟨other, hOther, hKey, id, hId, hParent⟩ := hLink
      have hSame : other = checkpoint := List.inj_on_of_nodup_map hNodup hOther hMem hKey
      subst hSame
      exact Or.inr ⟨id, hId, hParent ▸ hAbove⟩
  · rintro (hSame | ⟨id, hId, hAbove⟩)
    · rw [hSame]
      exact .refl
    · exact Relation.ReflTransGen.tail hAbove ⟨checkpoint, hMem, rfl, id, hId, rfl⟩

/-- A subtree stays in the thread of its root. -/
theorem InSubtree.thread (h : InSubtree checkpoints target key) : (ofLex key).1 = (ofLex target).1 := by
  induction h with
  | refl => rfl
  | tail hAbove hLink ih =>
    obtain ⟨checkpoint, hMem, hKey, id, hId, hParent⟩ := hLink
    rw [← ih, ← hKey, ← hParent]
    rfl

/-- Nothing below a checkpoint stands in front of it. -/
theorem InSubtree.behind (hTable : CheckpointTable sha256 versions checkpoints) {t : Nat}
    {root : V2CheckpointRecord} (hRoot : checkpoints[t]? = some root)
    (h : InSubtree checkpoints root.key key) :
    ∃ i checkpoint, checkpoints[i]? = some checkpoint ∧ checkpoint.key = key ∧ t ≤ i := by
  induction h with
  | refl => exact ⟨t, root, hRoot, rfl, le_rfl⟩
  | tail hAbove hLink ih =>
    obtain ⟨checkpoint, hMem, hKey, id, hId, hParent⟩ := hLink
    obtain ⟨above, parent, hGetAbove, hKeyAbove, hLe⟩ := ih
    obtain ⟨i, hGet⟩ := List.mem_iff_getElem?.mp hMem
    obtain ⟨j, other, hLt, hOther, hOtherKey⟩ := hTable.parent_before hGet hId
    have hSame : above = j :=
      hTable.unique hGetAbove hOther (by rw [hKeyAbove, hOtherKey, hParent])
    exact ⟨i, checkpoint, hGet, hKey, by omega⟩

/-- The mask of the checkpoints in front of `i` that are below the target. -/
structure Masked (checkpoints : List V2CheckpointRecord) (target : V2CheckpointKey)
    (deleteMask : List Bool) (i : Nat) : Prop where
  length : deleteMask.length = checkpoints.length
  marked : ∀ (j : Nat) checkpoint, checkpoints[j]? = some checkpoint →
    (deleteMask[j]? = some true ↔ j < i ∧ InSubtree checkpoints target checkpoint.key)

theorem Masked.skip {deleteMask : List Bool} {i : Nat} {checkpoint : V2CheckpointRecord}
    (h : Masked checkpoints target deleteMask i) (hGet : checkpoints[i]? = some checkpoint)
    (hOutside : ¬ InSubtree checkpoints target checkpoint.key) :
    Masked checkpoints target deleteMask (i + 1) where
  length := h.length
  marked j other hOther := by
    rw [h.marked j other hOther]
    refine and_congr_left fun hBelow => ?_
    constructor
    · intro hLt
      omega
    · intro hLt
      by_contra hNot
      obtain rfl : j = i := by omega
      rw [hGet] at hOther
      cases hOther
      exact hOutside hBelow

theorem Masked.mark {deleteMask : List Bool} {i : Nat} {checkpoint : V2CheckpointRecord}
    (h : Masked checkpoints target deleteMask i) (hGet : checkpoints[i]? = some checkpoint)
    (hBelow : InSubtree checkpoints target checkpoint.key) :
    Masked checkpoints target (deleteMask.set i true) (i + 1) where
  length := by rw [List.length_set, h.length]
  marked j other hOther := by
    have hLt : i < deleteMask.length := by
      rw [h.length]
      exact (List.getElem?_eq_some_iff.mp hGet).1
    by_cases hSame : i = j
    · subst hSame
      rw [hGet] at hOther
      cases hOther
      rw [List.getElem?_set_self hLt]
      exact iff_of_true rfl ⟨Nat.lt_succ_self _, hBelow⟩
    · rw [List.getElem?_set_ne hSame, h.marked j other hOther]
      exact and_congr_left fun _ => by omega

/-- One turn of the pass. -/
theorem markDescendant_ok (hTable : CheckpointTable sha256 versions checkpoints) {t i : Nat}
    {root checkpoint : V2CheckpointRecord} (hRoot : checkpoints[t]? = some root)
    (hBehind : t < i) (hGet : checkpoints[i]? = some checkpoint) {deleteMask : List Bool}
    (h : Masked checkpoints root.key deleteMask i) :
    ∃ next, markDescendant (KeyMap.indexOf (checkpointKeys checkpoints)) root.threadId deleteMask
      (checkpoint, i) = .ok next ∧ Masked checkpoints root.key next (i + 1) := by
  have hMem := List.mem_of_getElem? hGet
  have hOther : checkpoint.key ≠ root.key := by
    intro hSame
    have hEq := hTable.unique hGet hRoot hSame
    omega
  have hBelow := inSubtree_iff root.key hTable.nodup hMem
  rw [or_iff_right hOther] at hBelow
  rw [markDescendant]
  dsimp only
  split
  case isTrue hThread =>
    refine ⟨deleteMask, rfl, h.skip hGet fun hInside => hThread ?_⟩
    exact hInside.thread
  case isFalse hThread =>
    cases hParent : checkpoint.parentCheckpointId with
    | none =>
      refine ⟨deleteMask, rfl, h.skip hGet ?_⟩
      rw [hBelow, hParent]
      rintro ⟨id, hId, -⟩
      cases hId
    | some id =>
      rw [hParent] at hBelow
      obtain ⟨j, parent, hLt, hParentGet, hKey⟩ :=
        hTable.parent_before hGet (show id ∈ checkpoint.parentCheckpointId by rw [hParent]; rfl)
      have hPosition : (KeyMap.indexOf (checkpointKeys checkpoints)).get
          (checkpointKey checkpoint.threadId id) = some j :=
        (KeyMap.get_indexOf hTable.nodup).mpr (getElem?_checkpointKeys.mpr ⟨parent, hParentGet, hKey⟩)
      have hIndex : i < deleteMask.length := by
        rw [h.length]
        exact (List.getElem?_eq_some_iff.mp hGet).1
      obtain ⟨parentDeleted, hMark⟩ : ∃ parentDeleted, deleteMask[j]? = some parentDeleted :=
        ⟨_, List.getElem?_eq_getElem (by omega)⟩
      have hSame : InSubtree checkpoints root.key checkpoint.key ↔ parentDeleted = true := by
        have hMarked := h.marked j parent hParentGet
        rw [hMark, Option.some.injEq, and_iff_right hLt, hKey] at hMarked
        rw [hBelow, hMarked]
        constructor
        · rintro ⟨_, hId, hInside⟩
          cases hId
          exact hInside
        · exact fun hInside => ⟨id, rfl, hInside⟩
      dsimp only
      rw [hPosition, okOr_some, ok_bind, failIf_neg (by omega), ok_bind, hMark, okOr_some, ok_bind,
        failIf_neg (by omega), ok_bind]
      cases parentDeleted with
      | true => exact ⟨_, rfl, h.mark hGet (hSame.mpr rfl)⟩
      | false => exact ⟨_, rfl, h.skip hGet fun hInside => Bool.false_ne_true (hSame.mp hInside)⟩

/-- In front of the target nothing is below it. -/
theorem Masked.start (hTable : CheckpointTable sha256 versions checkpoints) {t : Nat}
    {root : V2CheckpointRecord} (hRoot : checkpoints[t]? = some root) :
    Masked checkpoints root.key ((List.replicate checkpoints.length false).set t true) (t + 1) := by
  have hNone : Masked checkpoints root.key (List.replicate checkpoints.length false) t := by
    refine ⟨List.length_replicate, fun j checkpoint hGet => iff_of_false ?_ ?_⟩
    · intro hMark
      have hFalse := List.eq_of_mem_replicate (List.mem_of_getElem? hMark)
      cases hFalse
    · rintro ⟨hLt, hBelow⟩
      obtain ⟨i, other, hOther, hKey, hLe⟩ := hBelow.behind hTable hRoot
      have hSame := hTable.unique hOther hGet hKey
      omega
  exact hNone.mark hRoot .refl

open Classical in
/-- Which checkpoints of the table a delete of `target` takes away. -/
noncomputable def subtreeMask (checkpoints : List V2CheckpointRecord) (target : V2CheckpointKey) :
    List Bool :=
  checkpoints.map fun checkpoint => decide (InSubtree checkpoints target checkpoint.key)

open Classical in
theorem Masked.complete {deleteMask : List Bool}
    (h : Masked checkpoints target deleteMask checkpoints.length) :
    deleteMask = subtreeMask checkpoints target := by
  refine List.ext_getElem? fun j => ?_
  rw [subtreeMask, List.getElem?_map]
  cases hGet : checkpoints[j]? with
  | none =>
    rw [Option.map_none, List.getElem?_eq_none]
    rw [h.length]
    exact List.getElem?_eq_none_iff.mp hGet
  | some checkpoint =>
    have hLt := (List.getElem?_eq_some_iff.mp hGet).1
    have hMarked := h.marked j checkpoint hGet
    rw [and_iff_right hLt] at hMarked
    obtain ⟨mark, hMark⟩ : ∃ mark, deleteMask[j]? = some mark :=
      ⟨_, List.getElem?_eq_getElem (by rw [h.length]; exact hLt)⟩
    rw [hMark, Option.some.injEq] at hMarked
    rw [hMark, Option.map_some, Option.some.injEq]
    cases mark with
    | true => exact (decide_eq_true (hMarked.mp rfl)).symm
    | false => exact (decide_eq_false fun hBelow => Bool.false_ne_true (hMarked.mpr hBelow)).symm

/-- The pass finds the subtree. -/
theorem markDescendants_ok (hTable : CheckpointTable sha256 versions checkpoints) {t : Nat}
    {root : V2CheckpointRecord} (hRoot : checkpoints[t]? = some root) :
    (checkpoints.zipIdx.drop (t + 1)).foldlM
        (markDescendant (KeyMap.indexOf (checkpointKeys checkpoints)) root.threadId)
        ((List.replicate checkpoints.length false).set t true) =
      .ok (subtreeMask checkpoints root.key) := by
  have hTurn : ∀ (k : Nat) (entry : V2CheckpointRecord × Nat) (deleteMask : List Bool),
      (checkpoints.zipIdx.drop (t + 1))[k]? = some entry →
      Masked checkpoints root.key deleteMask (t + 1 + k) →
      ∃ next, markDescendant (KeyMap.indexOf (checkpointKeys checkpoints)) root.threadId deleteMask
        entry = .ok next ∧ Masked checkpoints root.key next (t + 1 + (k + 1)) := by
    intro k entry deleteMask hGet hMasked
    rw [List.getElem?_drop] at hGet
    obtain ⟨hCheckpoint, hIndex⟩ := getElem?_zipIdx_zero hGet
    obtain ⟨checkpoint, index⟩ := entry
    obtain rfl : index = t + 1 + k := hIndex
    exact markDescendant_ok hTable hRoot (by omega) hCheckpoint hMasked
  have hLt := (List.getElem?_eq_some_iff.mp hRoot).1
  obtain ⟨deleteMask, hRun, hMasked⟩ := foldlM_indexed hTurn (Masked.start hTable hRoot)
  have hEnd : t + 1 + (checkpoints.zipIdx.drop (t + 1)).length = checkpoints.length := by
    rw [List.length_drop, List.length_zipIdx]
    omega
  rw [hEnd] at hMasked
  rw [hRun, hMasked.complete]

/-! ## The checkpoints that stay -/

section Retain

variable {gone : V2CheckpointKey → Bool} {deleted : KeyMap V2CheckpointKey Unit}

/-- The checkpoints whose key does not go. -/
def kept (gone : V2CheckpointKey → Bool) (checkpoints : List V2CheckpointRecord) :
    List V2CheckpointRecord :=
  checkpoints.filter fun checkpoint => !gone checkpoint.key

/-- What the loop has built over the first `i` checkpoints. -/
structure Retains (gone : V2CheckpointKey → Bool) (checkpoints : List V2CheckpointRecord)
    (deleted : KeyMap V2CheckpointKey Unit) (i : Nat) (ledger : RetainedLedger) : Prop where
  stays : ledger.checkpoints = kept gone (checkpoints.take i)
  ordinals : ledger.checkpointOrdinals = KeyMap.indexOf (checkpointKeys ledger.checkpoints)
  nextOrdinal : ledger.nextOrdinal = ledger.checkpoints.length
  tombstones : ∀ key, ledger.deletedCheckpoints.containsKey key = true ↔
    deleted.containsKey key = true ∨ gone key = true ∧ key ∈ checkpointKeys (checkpoints.take i)
  length : ledger.newOrdinals.length = checkpoints.length
  placed : ∀ (j : Nat) checkpoint, j < i → checkpoints[j]? = some checkpoint →
    gone checkpoint.key = false → ∃ k, ledger.newOrdinals[j]?.join = some k ∧
      ledger.checkpoints[k]? = some checkpoint

theorem kept_take_succ (gone : V2CheckpointKey → Bool) {i : Nat} {checkpoint : V2CheckpointRecord}
    (hGet : checkpoints[i]? = some checkpoint) : kept gone (checkpoints.take (i + 1)) =
      kept gone (checkpoints.take i) ++ if gone checkpoint.key then [] else [checkpoint] := by
  rw [kept, List.take_add_one, hGet, List.filter_append]
  cases hGone : gone checkpoint.key <;> simp [kept, hGone]

theorem checkpointKeys_take_succ {i : Nat} {checkpoint : V2CheckpointRecord}
    (hGet : checkpoints[i]? = some checkpoint) : checkpointKeys (checkpoints.take (i + 1)) =
      checkpointKeys (checkpoints.take i) ++ [checkpoint.key] := by
  rw [List.take_add_one, hGet]
  exact checkpointKeys_append _ _

theorem containsKey_insert {K V : Type} [LinearOrder K] {m : KeyMap K V} {k k' : K} {v : V} :
    (m.insert k v).containsKey k' = true ↔ k' = k ∨ m.containsKey k' = true := by
  rw [KeyMap.containsKey, KeyMap.get_insert, KeyMap.containsKey]
  split
  case isTrue h => simp [h]
  case isFalse h => simp [h]

theorem retainCheckpoint_ok (hCount : checkpoints.length < width 64) {i : Nat}
    {checkpoint : V2CheckpointRecord} (hGet : checkpoints[i]? = some checkpoint)
    {ledger : RetainedLedger} (h : Retains gone checkpoints deleted i ledger) :
    ∃ next, retainCheckpoint (checkpoints.map fun checkpoint => gone checkpoint.key) ledger
        (checkpoint, i) = .ok next ∧ Retains gone checkpoints deleted (i + 1) next := by
  have hLt := (List.getElem?_eq_some_iff.mp hGet).1
  have hKept := kept_take_succ gone hGet
  have hKeys := checkpointKeys_take_succ hGet
  have hShort : ledger.checkpoints.length ≤ i := by
    rw [h.stays, kept]
    exact (List.length_filter_le _ _).trans (by rw [List.length_take]; omega)
  rw [retainCheckpoint, List.getElem?_map, hGet, Option.map_some, okOr_some, ok_bind]
  cases hGone : gone checkpoint.key with
  | true =>
    rw [hGone, if_pos rfl, List.append_nil] at hKept
    refine ⟨_, rfl, ?_⟩
    exact {
      stays := by rw [hKept]; exact h.stays
      ordinals := h.ordinals
      nextOrdinal := h.nextOrdinal
      tombstones := by
        intro key
        dsimp only
        rw [containsKey_insert, h.tombstones key, hKeys, List.mem_append, List.mem_singleton]
        constructor
        · rintro (hSame | hOld | ⟨hGoneKey, hMem⟩)
          · exact Or.inr ⟨hSame ▸ hGone, Or.inr hSame⟩
          · exact Or.inl hOld
          · exact Or.inr ⟨hGoneKey, Or.inl hMem⟩
        · rintro (hOld | ⟨hGoneKey, hMem | hSame⟩)
          · exact Or.inr (Or.inl hOld)
          · exact Or.inr (Or.inr ⟨hGoneKey, hMem⟩)
          · exact Or.inl hSame
      length := h.length
      placed := by
        intro j other hj hOther hStays
        by_cases hBefore : j < i
        · exact h.placed j other hBefore hOther hStays
        · obtain rfl : j = i := by omega
          rw [hGet] at hOther
          cases hOther
          rw [hGone] at hStays
          cases hStays }
  | false =>
    rw [hGone, if_neg Bool.false_ne_true] at hKept
    refine ⟨_, by
      rw [if_neg Bool.false_ne_true, checkedAdd_of_lt (show ledger.nextOrdinal + 1 < width 64 by
        rw [h.nextOrdinal]; omega), okOr_some, ok_bind]
      rfl, ?_⟩
    exact {
      stays := by rw [hKept, h.stays]
      ordinals := by
        show ledger.checkpointOrdinals.insert checkpoint.key ledger.nextOrdinal = _
        rw [checkpointKeys_append, KeyMap.indexOf_append_singleton, h.ordinals, h.nextOrdinal,
          checkpointKeys, List.length_map]
      nextOrdinal := by rw [List.length_append, h.nextOrdinal]; rfl
      tombstones := by
        intro key
        dsimp only
        rw [h.tombstones key, hKeys, List.mem_append, List.mem_singleton]
        refine or_congr_right (and_congr_right fun hGoneKey => ?_)
        constructor
        · exact Or.inl
        · rintro (hMem | hSame)
          · exact hMem
          · rw [hSame, hGone] at hGoneKey
            cases hGoneKey
      length := by rw [List.length_set, h.length]
      placed := by
        intro j other hj hOther hStays
        dsimp only
        by_cases hSame : i = j
        · subst hSame
          rw [hGet] at hOther
          cases hOther
          refine ⟨ledger.nextOrdinal, ?_, ?_⟩
          · rw [List.getElem?_set_self (by rw [h.length]; exact hLt)]
            rfl
          · rw [h.nextOrdinal]
            exact List.getElem?_concat_length
        · obtain ⟨k, hNew, hPlace⟩ := h.placed j other (by omega) hOther hStays
          refine ⟨k, ?_, ?_⟩
          · rw [List.getElem?_set_ne hSame]
            exact hNew
          · rw [List.getElem?_append_left (List.getElem?_eq_some_iff.mp hPlace).1, hPlace] }

/-- The loop over the checkpoints. -/
theorem retainCheckpoints_ok (gone : V2CheckpointKey → Bool)
    (deleted : KeyMap V2CheckpointKey Unit) (hCount : checkpoints.length < width 64) :
    ∃ ledger, checkpoints.zipIdx.foldlM
        (retainCheckpoint (checkpoints.map fun checkpoint => gone checkpoint.key))
        ⟨[], .empty, List.replicate checkpoints.length none, deleted, 0⟩ = .ok ledger ∧
      Retains gone checkpoints deleted checkpoints.length ledger := by
  have hStart : Retains gone checkpoints deleted 0
      ⟨[], .empty, List.replicate checkpoints.length none, deleted, 0⟩ := {
    stays := rfl
    ordinals := rfl
    nextOrdinal := rfl
    tombstones := fun key => ⟨Or.inl, fun h => h.elim id fun hMem => absurd hMem.2 List.not_mem_nil⟩
    length := List.length_replicate
    placed := fun j checkpoint hj => absurd hj (Nat.not_lt_zero j) }
  have hTurn : ∀ (i : Nat) (entry : V2CheckpointRecord × Nat) (ledger : RetainedLedger),
      checkpoints.zipIdx[i]? = some entry → Retains gone checkpoints deleted i ledger →
      ∃ next, retainCheckpoint (checkpoints.map fun checkpoint => gone checkpoint.key) ledger entry =
        .ok next ∧ Retains gone checkpoints deleted (i + 1) next := by
    intro i entry ledger hGet hRetains
    obtain ⟨hCheckpoint, hIndex⟩ := getElem?_zipIdx_zero hGet
    obtain ⟨checkpoint, index⟩ := entry
    obtain rfl : index = i := hIndex
    exact retainCheckpoint_ok hCount hCheckpoint hRetains
  obtain ⟨ledger, hRun, hEnd⟩ := foldlM_indexed hTurn hStart
  rw [List.length_zipIdx] at hEnd
  exact ⟨ledger, hRun, hEnd⟩

end Retain

/-! ## The requests -/

section Move

variable {deleteMask : List Bool} {newOrdinals : List (Option Nat)}
  {active : KeyMap Bytes V2RequestRecord} {retired : KeyMap Bytes Digest}

/-- What the loop has built over the first `i` active requests. -/
structure Moves (deleteMask : List Bool) (newOrdinals : List (Option Nat))
    (active : KeyMap Bytes V2RequestRecord) (retired : KeyMap Bytes Digest) (i : Nat)
    (ledgers : RequestLedgers) : Prop where
  stays : ∀ id record, ledgers.requestRecords.get id = some record ↔
    ∃ old k, (id, old) ∈ active.entries.take i ∧ deleteMask[old.checkpointOrdinal]? = some false ∧
      newOrdinals[old.checkpointOrdinal]?.join = some k ∧ record = ⟨old.operationDigest, k⟩
  retires : ∀ id digest, ledgers.retiredRequests.get id = some digest ↔
    retired.get id = some digest ∨ ∃ old, (id, old) ∈ active.entries.take i ∧
      deleteMask[old.checkpointOrdinal]? = some true ∧ digest = old.operationDigest

theorem mem_take_succ {α : Type} {xs : List α} {i : Nat} {x y : α} (h : xs[i]? = some y) :
    x ∈ xs.take (i + 1) ↔ x ∈ xs.take i ∨ x = y := by
  rw [List.take_add_one, h, List.mem_append]
  exact or_congr_right List.mem_singleton

/-- The requests in front of an entry are others. -/
theorem not_mem_take_entries {i : Nat} {id : Bytes} {record other : V2RequestRecord}
    (hGet : active.entries[i]? = some (id, record)) : (id, other) ∉ active.entries.take i := by
  intro hMem
  have hNone := KeyMap.get_insertAll_take hGet
  exact (KeyMap.get_insertAll_eq_none.mp hNone).2 (List.mem_map.mpr ⟨_, hMem, rfl⟩)

theorem moveRequest_ok {i : Nat} {id : Bytes} {record : V2RequestRecord}
    (hGet : active.entries[i]? = some (id, record)) (hFresh : retired.get id = none)
    (hKnown : deleteMask[record.checkpointOrdinal]? = some true ∨
      deleteMask[record.checkpointOrdinal]? = some false ∧
        ∃ k, newOrdinals[record.checkpointOrdinal]?.join = some k)
    {ledgers : RequestLedgers} (h : Moves deleteMask newOrdinals active retired i ledgers) :
    ∃ next, moveRequest deleteMask newOrdinals ledgers (id, record) = .ok next ∧
      Moves deleteMask newOrdinals active retired (i + 1) next := by
  rw [moveRequest]
  dsimp only
  rcases hKnown with hGone | ⟨hStays, k, hNew⟩
  · rw [hGone, okOr_some, ok_bind]
    refine ⟨_, rfl, ?_, ?_⟩
    · intro id' record'
      dsimp only
      rw [h.stays]
      constructor
      · rintro ⟨old, k, hMem, hRest⟩
        exact ⟨old, k, (mem_take_succ hGet).mpr (Or.inl hMem), hRest⟩
      · rintro ⟨old, k, hMem, hMark, hRest⟩
        rcases (mem_take_succ hGet).mp hMem with hOld | hLast
        · exact ⟨old, k, hOld, hMark, hRest⟩
        · cases hLast
          rw [hGone] at hMark
          cases hMark
    · intro id' digest
      dsimp only
      rw [KeyMap.get_insert]
      split
      case isTrue hSame =>
        subst hSame
        rw [Option.some.injEq, hFresh]
        constructor
        · intro hDigest
          exact Or.inr ⟨record, (mem_take_succ hGet).mpr (Or.inr rfl), hGone, hDigest.symm⟩
        · rintro (hNone | ⟨old, hMem, -, hDigest⟩)
          · cases hNone
          · rcases (mem_take_succ hGet).mp hMem with hOld | hLast
            · exact absurd hOld (not_mem_take_entries hGet)
            · cases hLast
              exact hDigest.symm
      case isFalse hOther =>
        rw [h.retires]
        refine or_congr_right (exists_congr fun old => and_congr_left fun _ => ?_)
        rw [mem_take_succ hGet, or_iff_left]
        intro hLast
        cases hLast
        exact hOther rfl
  · rw [hStays, okOr_some, ok_bind, if_neg Bool.false_ne_true, hNew, okOr_some, ok_bind]
    refine ⟨_, rfl, ?_, ?_⟩
    · intro id' record'
      dsimp only
      rw [KeyMap.get_insert]
      split
      case isTrue hSame =>
        subst hSame
        rw [Option.some.injEq]
        constructor
        · intro hRecord
          exact ⟨record, k, (mem_take_succ hGet).mpr (Or.inr rfl), hStays, hNew, hRecord.symm⟩
        · rintro ⟨old, k', hMem, -, hNew', hRecord⟩
          rcases (mem_take_succ hGet).mp hMem with hOld | hLast
          · exact absurd hOld (not_mem_take_entries hGet)
          · cases hLast
            rw [hNew] at hNew'
            cases hNew'
            exact hRecord.symm
      case isFalse hOther =>
        rw [h.stays]
        refine exists_congr fun old => exists_congr fun k' => and_congr_left fun _ => ?_
        rw [mem_take_succ hGet, or_iff_left]
        intro hLast
        cases hLast
        exact hOther rfl
    · intro id' digest
      dsimp only
      rw [h.retires]
      refine or_congr_right (exists_congr fun old => ?_)
      constructor
      · rintro ⟨hMem, hRest⟩
        exact ⟨(mem_take_succ hGet).mpr (Or.inl hMem), hRest⟩
      · rintro ⟨hMem, hMark, hDigest⟩
        rcases (mem_take_succ hGet).mp hMem with hOld | hLast
        · exact ⟨hOld, hMark, hDigest⟩
        · cases hLast
          rw [hStays] at hMark
          cases hMark

/-- The loop over the active requests. -/
theorem moveRequests_ok (deleteMask : List Bool) (newOrdinals : List (Option Nat))
    (hFresh : ∀ id record, active.get id = some record → retired.get id = none)
    (hKnown : ∀ id record, active.get id = some record →
      deleteMask[record.checkpointOrdinal]? = some true ∨
      deleteMask[record.checkpointOrdinal]? = some false ∧
        ∃ k, newOrdinals[record.checkpointOrdinal]?.join = some k) :
    ∃ ledgers, active.entries.foldlM (moveRequest deleteMask newOrdinals) ⟨.empty, retired⟩ =
        .ok ledgers ∧
      Moves deleteMask newOrdinals active retired active.entries.length ledgers := by
  have hStart : Moves deleteMask newOrdinals active retired 0 ⟨.empty, retired⟩ := by
    refine ⟨fun id record => iff_of_false (fun h => by cases h) ?_, fun id digest => ?_⟩
    · rintro ⟨old, k, hMem, -⟩
      exact List.not_mem_nil hMem
    · refine ⟨Or.inl, ?_⟩
      rintro (hOld | ⟨old, hMem, -⟩)
      · exact hOld
      · exact absurd hMem List.not_mem_nil
  have hTurn : ∀ (i : Nat) (entry : Bytes × V2RequestRecord) (ledgers : RequestLedgers),
      active.entries[i]? = some entry → Moves deleteMask newOrdinals active retired i ledgers →
      ∃ next, moveRequest deleteMask newOrdinals ledgers entry = .ok next ∧
        Moves deleteMask newOrdinals active retired (i + 1) next := by
    intro i entry ledgers hGet hMoves
    have hActive : active.get entry.1 = some entry.2 :=
      KeyMap.mem_entries.mp (List.mem_of_getElem? hGet)
    exact moveRequest_ok hGet (hFresh _ _ hActive) (hKnown _ _ hActive) hMoves
  exact foldlM_indexed hTurn hStart

end Move

/-! ## The prepared delete -/

section Prepare

variable {gone : V2CheckpointKey → Bool} {prepared : V2PreparedSubtreeDelete}

/-- The tables of a state without the checkpoints that go. -/
structure Prepared (gone : V2CheckpointKey → Bool) (state : V2CommittedState)
    (prepared : V2PreparedSubtreeDelete) : Prop where
  stays : prepared.checkpoints = kept gone state.checkpoints
  ordinals : prepared.checkpointOrdinals = KeyMap.indexOf (checkpointKeys prepared.checkpoints)
  tombstones : ∀ key, prepared.deletedCheckpoints.containsKey key = true ↔
    state.deletedCheckpoints.containsKey key = true ∨
      gone key = true ∧ key ∈ checkpointKeys state.checkpoints
  active : ∀ id record, prepared.requestRecords.get id = some record ↔
    ∃ old checkpoint, state.requestRecords.get id = some old ∧
      state.checkpoints[old.checkpointOrdinal]? = some checkpoint ∧ gone checkpoint.key = false ∧
      prepared.checkpoints[record.checkpointOrdinal]? = some checkpoint ∧
      record.operationDigest = old.operationDigest
  retired : ∀ id digest, prepared.retiredRequests.get id = some digest ↔
    state.retiredRequests.get id = some digest ∨
      ∃ old checkpoint, state.requestRecords.get id = some old ∧
        state.checkpoints[old.checkpointOrdinal]? = some checkpoint ∧ gone checkpoint.key = true ∧
        digest = old.operationDigest
  clears : prepared.clearSequenceGeometry = true ↔ prepared.checkpoints = []
  count : prepared.checkpoints.length + prepared.deletedCheckpointCount = state.checkpoints.length

theorem count_gone (gone : V2CheckpointKey → Bool) (checkpoints : List V2CheckpointRecord) :
    (checkpoints.map fun checkpoint => gone checkpoint.key).count true +
      (kept gone checkpoints).length = checkpoints.length := by
  induction checkpoints with
  | nil => rfl
  | cons checkpoint checkpoints ih =>
    rw [kept] at ih ⊢
    cases hGone : gone checkpoint.key with
    | true =>
      rw [List.map_cons, hGone, List.count_cons_self, List.filter_cons_of_neg (by simp [hGone]),
        List.length_cons]
      omega
    | false =>
      rw [List.map_cons, hGone, List.count_cons_of_ne (by simp),
        List.filter_cons_of_pos (by simp [hGone]), List.length_cons, List.length_cons]
      omega

/-- A checkpoint that stays, under the number the loop gave it. -/
theorem Retains.record_iff (hTable : CheckpointTable sha256 versions checkpoints)
    {deleted : KeyMap V2CheckpointKey Unit} {ledger : RetainedLedger}
    (h : Retains gone checkpoints deleted checkpoints.length ledger) {i : Nat}
    {checkpoint : V2CheckpointRecord} (hGet : checkpoints[i]? = some checkpoint)
    (hStays : gone checkpoint.key = false) {k : Nat} :
    ledger.newOrdinals[i]?.join = some k ↔ ledger.checkpoints[k]? = some checkpoint := by
  have hLt := (List.getElem?_eq_some_iff.mp hGet).1
  obtain ⟨k', hNew, hPlace⟩ := h.placed i checkpoint hLt hGet hStays
  have hNodup : ledger.checkpoints.Nodup := by
    rw [h.stays, List.take_length]
    exact (hTable.nodup.of_map _).filter _
  rw [hNew, Option.some.injEq]
  constructor
  · intro hSame
    rw [← hSame, hPlace]
  · intro hOther
    exact (List.getElem?_inj (List.getElem?_eq_some_iff.mp hPlace).1 hNodup).mp
      (hPlace.trans hOther.symm)

theorem prepareDeleteLedgers_ok (h : StateOk sha256 a state) (gone : V2CheckpointKey → Bool) :
    ∃ prepared, state.prepareDeleteLedgers
        (state.checkpoints.map fun checkpoint => gone checkpoint.key) = .ok prepared ∧
      Prepared gone state prepared := by
  have hCount := h.ledgers.count
  have hGone := count_gone gone state.checkpoints
  obtain ⟨ledger, hLedger, hRetains⟩ := retainCheckpoints_ok gone
    state.deletedCheckpoints hCount
  have hMask : ∀ (i : Nat) checkpoint, state.checkpoints[i]? = some checkpoint →
      (state.checkpoints.map fun checkpoint => gone checkpoint.key)[i]? =
        some (gone checkpoint.key) := by
    intro i checkpoint hGet
    rw [List.getElem?_map, hGet, Option.map_some]
  obtain ⟨ledgers, hLedgers, hMoves⟩ := moveRequests_ok
    (state.checkpoints.map fun checkpoint => gone checkpoint.key) ledger.newOrdinals
    (fun id record hGet => (h.ledgers.active id record hGet).2.1) (by
      intro id record hGet
      obtain ⟨-, -, checkpoint, hCheckpoint, -⟩ := h.ledgers.active id record hGet
      rw [hMask _ _ hCheckpoint]
      cases hKey : gone checkpoint.key with
      | true => exact Or.inl rfl
      | false =>
        obtain ⟨k, hNew, -⟩ := hRetains.placed _ checkpoint
          (List.getElem?_eq_some_iff.mp hCheckpoint).1 hCheckpoint hKey
        exact Or.inr ⟨rfl, k, hNew⟩)
  have hKept : ledger.checkpoints = kept gone state.checkpoints := by
    rw [hRetains.stays, List.take_length]
  refine ⟨_, by
    rw [V2CommittedState.prepareDeleteLedgers, failIf_neg (by omega), ok_bind,
      tryFrom_of_lt (by omega), okOr_some, ok_bind, hLedger, ok_bind, hLedgers, ok_bind]
    rfl, ?_⟩
  have hEntries : ∀ id old, (id, old) ∈ state.requestRecords.entries.take
      state.requestRecords.entries.length ↔ state.requestRecords.get id = some old := by
    intro id old
    rw [List.take_length, KeyMap.mem_entries]
  exact {
    stays := hKept
    ordinals := hRetains.ordinals
    tombstones := by
      have hAll := hRetains.tombstones
      rw [List.take_length] at hAll
      exact hAll
    active := by
      intro id record
      dsimp only
      rw [hMoves.stays]
      constructor
      · rintro ⟨old, k, hMem, hMark, hNew, rfl⟩
        have hGet := (hEntries id old).mp hMem
        obtain ⟨-, -, checkpoint, hCheckpoint, -⟩ := h.ledgers.active id old hGet
        rw [hMask _ _ hCheckpoint, Option.some.injEq] at hMark
        exact ⟨old, checkpoint, hGet, hCheckpoint, hMark,
          (hRetains.record_iff h.table hCheckpoint hMark).mp hNew, rfl⟩
      · rintro ⟨old, checkpoint, hGet, hCheckpoint, hStays, hPlace, hDigest⟩
        refine ⟨old, record.checkpointOrdinal, (hEntries id old).mpr hGet, ?_,
          (hRetains.record_iff h.table hCheckpoint hStays).mpr hPlace, ?_⟩
        · rw [hMask _ _ hCheckpoint, hStays]
        · rw [← hDigest]
    retired := by
      intro id digest
      dsimp only
      rw [hMoves.retires]
      refine or_congr_right (exists_congr fun old => ?_)
      rw [hEntries]
      constructor
      · rintro ⟨hGet, hMark, hDigest⟩
        obtain ⟨-, -, checkpoint, hCheckpoint, -⟩ := h.ledgers.active id old hGet
        rw [hMask _ _ hCheckpoint, Option.some.injEq] at hMark
        exact ⟨checkpoint, hGet, hCheckpoint, hMark, hDigest⟩
      · rintro ⟨checkpoint, hGet, hCheckpoint, hKey, hDigest⟩
        refine ⟨hGet, ?_, hDigest⟩
        rw [hMask _ _ hCheckpoint, hKey]
    clears := by
      dsimp only
      rw [decide_eq_true_eq, hKept, ← List.length_eq_zero_iff]
      omega
    count := by
      dsimp only
      rw [hKept]
      omega }

/-- The state behind a prepared delete. -/
def V2CommittedState.rebuilt (state : V2CommittedState) (prepared : V2PreparedSubtreeDelete) :
    V2CommittedState where
  payload := if prepared.clearSequenceGeometry then [] else state.payload
  nodes := if prepared.clearSequenceGeometry then [] else state.nodes
  versions := if prepared.clearSequenceGeometry then [] else state.versions
  checkpoints := prepared.checkpoints
  checkpointOrdinals := prepared.checkpointOrdinals
  requestRecords := prepared.requestRecords
  retiredRequests := prepared.retiredRequests
  deletedCheckpoints := prepared.deletedCheckpoints

theorem applyPrepared_run (state : V2CommittedState) (prepared : V2PreparedSubtreeDelete) :
    applyPreparedDeleteCheckpointSubtree prepared state = .ok () (state.rebuilt prepared) := by
  unfold applyPreparedDeleteCheckpointSubtree V2CommittedState.rebuilt
  cases hClear : prepared.clearSequenceGeometry <;> rfl

/-! ## Valid states -/

theorem mem_kept {checkpoint : V2CheckpointRecord} :
    checkpoint ∈ kept gone checkpoints ↔ checkpoint ∈ checkpoints ∧ gone checkpoint.key = false := by
  rw [kept, List.mem_filter, Bool.not_eq_true']

theorem mem_checkpointKeys_kept {key : V2CheckpointKey} :
    key ∈ checkpointKeys (kept gone checkpoints) ↔
      key ∈ checkpointKeys checkpoints ∧ gone key = false := by
  rw [mem_checkpointKeys, mem_checkpointKeys]
  constructor
  · rintro ⟨checkpoint, hMem, rfl⟩
    obtain ⟨hOld, hStays⟩ := mem_kept.mp hMem
    exact ⟨⟨checkpoint, hOld, rfl⟩, hStays⟩
  · rintro ⟨⟨checkpoint, hMem, rfl⟩, hStays⟩
    exact ⟨checkpoint, mem_kept.mpr ⟨hMem, hStays⟩, rfl⟩

/-- A table stays a table when with a checkpoint all below it goes. -/
theorem CheckpointTable.kept (h : CheckpointTable sha256 versions checkpoints)
    (hClosed : ∀ checkpoint ∈ checkpoints, ∀ id ∈ checkpoint.parentCheckpointId,
      gone (checkpointKey checkpoint.threadId id) = true → gone checkpoint.key = true) :
    CheckpointTable sha256 versions (kept gone checkpoints) where
  valid checkpoint hMem := h.valid checkpoint (mem_kept.mp hMem).1
  state checkpoint hMem := h.state checkpoint (mem_kept.mp hMem).1
  parent i checkpoint hGet id hId := by
    obtain ⟨hMem, hStays⟩ := mem_kept.mp (List.mem_of_getElem? hGet)
    obtain ⟨hLt, hAt⟩ := List.getElem?_eq_some_iff.mp hGet
    have hSplit : V2.kept gone checkpoints =
        (V2.kept gone checkpoints).take i ++ checkpoint :: (V2.kept gone checkpoints).drop (i + 1) := by
      rw [← hAt, List.getElem_cons_drop, List.take_append_drop]
    obtain ⟨front, rest, hAll, hFront, hRest⟩ := List.filter_eq_append_iff.mp hSplit
    obtain ⟨skipped, behind, hBehind, hSkipped, -, -⟩ := List.filter_eq_cons_iff.mp hRest
    have hHere : checkpoints[(front ++ skipped).length]? = some checkpoint := by
      rw [hAll, hBehind, ← List.append_assoc, List.getElem?_append_right le_rfl, Nat.sub_self]
      rfl
    obtain ⟨j, parent, hj, hParent, hKey⟩ := h.parent_before hHere hId
    have hParentStays : gone parent.key = false := by
      rw [hKey, ← Bool.not_eq_true]
      intro hGone
      rw [hClosed checkpoint hMem id hId hGone] at hStays
      cases hStays
    have hParentMem : parent ∈ front ++ skipped := by
      rw [hAll, hBehind, ← List.append_assoc, List.getElem?_append_left hj] at hParent
      exact List.mem_of_getElem? hParent
    rcases List.mem_append.mp hParentMem with hOld | hSkip
    · rw [checkpointKeys, ← List.map_take, ← hFront, ← hKey]
      exact List.mem_map_of_mem (List.mem_filter.mpr ⟨hOld, by rw [hParentStays]; rfl⟩)
    · have hNot := hSkipped parent hSkip
      rw [hParentStays] at hNot
      exact absurd rfl hNot
  nodup := h.nodup.sublist (List.Sublist.map _ List.filter_sublist)

theorem LedgersOk.rebuilt (h : StateOk sha256 a state) (hPrepared : Prepared gone state prepared) :
    LedgersOk sha256 (state.rebuilt prepared) where
  ordinals := hPrepared.ordinals
  count := by
    have hCount := h.ledgers.count
    have hFewer := hPrepared.count
    show prepared.checkpoints.length < _
    omega
  deleted key hKey := by
    show _ ∧ _ ∧ key ∉ checkpointKeys prepared.checkpoints
    rw [hPrepared.stays, mem_checkpointKeys_kept]
    rcases (hPrepared.tombstones key).mp hKey with hOld | ⟨hGone, hMem⟩
    · obtain ⟨hThread, hCheckpoint, hLive⟩ := h.ledgers.deleted key hOld
      exact ⟨hThread, hCheckpoint, fun hBoth => hLive hBoth.1⟩
    · obtain ⟨checkpoint, hCheckpoint, rfl⟩ := mem_checkpointKeys.mp hMem
      have hValid := h.table.valid checkpoint hCheckpoint
      refine ⟨hValid.threadId, hValid.checkpointId, fun hBoth => ?_⟩
      exact Bool.false_ne_true (hBoth.2.symm.trans hGone)
  active id record hGet := by
    obtain ⟨old, checkpoint, hOld, hCheckpoint, hStays, hPlace, hDigest⟩ :=
      (hPrepared.active id record).mp hGet
    obtain ⟨hId, hRetired, known, hKnown, hOperation⟩ := h.ledgers.active id old hOld
    rw [hCheckpoint] at hKnown
    cases hKnown
    refine ⟨hId, ?_, checkpoint, hPlace, by rw [hOperation, hDigest]⟩
    show prepared.retiredRequests.get id = none
    cases hMoved : prepared.retiredRequests.get id with
    | none => rfl
    | some digest =>
      rcases (hPrepared.retired id digest).mp hMoved with hBefore | ⟨old', other, hOld', hOther, hGone, -⟩
      · rw [hRetired] at hBefore
        cases hBefore
      · rw [hOld] at hOld'
        cases hOld'
        rw [hCheckpoint] at hOther
        cases hOther
        rw [hStays] at hGone
        cases hGone
  retired id digest hGet := by
    rcases (hPrepared.retired id digest).mp hGet with hBefore | ⟨old, checkpoint, hOld, -, -, -⟩
    · exact h.ledgers.retired id digest hBefore
    · exact (h.ledgers.active id old hOld).1

/-- A delete leads from valid states to valid states. -/
theorem StateOk.rebuilt (h : StateOk sha256 a state) (hPrepared : Prepared gone state prepared)
    (hClosed : ∀ checkpoint ∈ state.checkpoints, ∀ id ∈ checkpoint.parentCheckpointId,
      gone (checkpointKey checkpoint.threadId id) = true → gone checkpoint.key = true) :
    ∃ b, StateOk sha256 b (state.rebuilt prepared) := by
  have hLedgers := LedgersOk.rebuilt h hPrepared
  cases hClear : prepared.clearSequenceGeometry with
  | true =>
    have hNil := hPrepared.clears.mp hClear
    have hState : state.rebuilt prepared =
        { V2CommittedState.empty with
          checkpointOrdinals := prepared.checkpointOrdinals
          requestRecords := prepared.requestRecords
          retiredRequests := prepared.retiredRequests
          deletedCheckpoints := prepared.deletedCheckpoints } := by
      rw [V2CommittedState.rebuilt, hClear, hNil]
      rfl
    have hEmpty := stateOk_empty sha256
    rw [hState] at hLedgers ⊢
    exact ⟨V2AvlSequence.empty, {
      payload := rfl
      nodes := rfl
      wellFormed := hEmpty.wellFormed
      apart := hEmpty.apart
      payload_lt := hEmpty.payload_lt
      nodes_lt := hEmpty.nodes_lt
      versions_le := hEmpty.versions_le
      numbered := hEmpty.numbered
      roots := hEmpty.roots
      table := hEmpty.table
      numbers := hEmpty.numbers
      cleared := hEmpty.cleared
      ledgers := hLedgers }⟩
  | false =>
    have hState : state.rebuilt prepared =
        { state with
          checkpoints := kept gone state.checkpoints
          checkpointOrdinals := prepared.checkpointOrdinals
          requestRecords := prepared.requestRecords
          retiredRequests := prepared.retiredRequests
          deletedCheckpoints := prepared.deletedCheckpoints } := by
      rw [V2CommittedState.rebuilt, hClear, hPrepared.stays]
      rfl
    have hStays : kept gone state.checkpoints ≠ [] := by
      intro hNil
      rw [← hPrepared.stays] at hNil
      rw [hPrepared.clears.mpr hNil] at hClear
      cases hClear
    rw [hState] at hLedgers ⊢
    exact ⟨a, {
      payload := h.payload
      nodes := h.nodes
      wellFormed := h.wellFormed
      apart := h.apart
      payload_lt := h.payload_lt
      nodes_lt := h.nodes_lt
      versions_le := h.versions_le
      numbered := h.numbered
      roots := h.roots
      table := h.table.kept hClosed
      numbers := fun checkpoint hMem => h.numbers checkpoint (mem_kept.mp hMem).1
      cleared := fun hNil => absurd hNil hStays
      ledgers := hLedgers }⟩

/-- A state with checkpoints has payload, nodes and versions. -/
theorem StateOk.nonempty (h : StateOk sha256 a state) (hSome : state.checkpoints ≠ []) :
    state.payload ≠ [] ∧ state.nodes ≠ [] ∧ state.versions ≠ [] := by
  obtain ⟨checkpoint, hMem⟩ := List.exists_mem_of_ne_nil _ hSome
  obtain ⟨identity, messages, result, hIdentity, -⟩ := h.table.state checkpoint hMem
  obtain ⟨version, hVersion, -⟩ := resolveVersionRoot_eq_ok.mp hIdentity
  have hVersionMem := List.mem_of_getElem? hVersion
  obtain ⟨t, hDenotes⟩ := h.roots version hVersionMem
  refine ⟨?_, ?_, List.ne_nil_of_mem hVersionMem⟩
  · rw [← h.payload]
    exact payload_ne_nil_of_denotes hDenotes
  · rw [← h.nodes]
    intro hNil
    exact nodes_ne_nil_of_denotes hDenotes (List.map_eq_nil_iff.mp hNil)

end Prepare

/-! ## A whole delete -/

/-- What a delete of `target` leaves behind. -/
structure SubtreeDeleted (target : V2CheckpointKey) (state next : V2CommittedState) : Prop where
  /-- the other checkpoints keep their records and their order -/
  order : next.checkpoints.Sublist state.checkpoints
  stays : ∀ checkpoint, checkpoint ∈ next.checkpoints ↔ checkpoint ∈ state.checkpoints ∧
    ¬ InSubtree state.checkpoints target checkpoint.key
  ordinals : next.checkpointOrdinals = KeyMap.indexOf (checkpointKeys next.checkpoints)
  tombstones : ∀ key, next.deletedCheckpoints.containsKey key = true ↔
    state.deletedCheckpoints.containsKey key = true ∨ InSubtree state.checkpoints target key
  /-- the requests of the others point to the same checkpoint -/
  active : ∀ id record, next.requestRecords.get id = some record ↔
    ∃ old checkpoint, state.requestRecords.get id = some old ∧
      state.checkpoints[old.checkpointOrdinal]? = some checkpoint ∧
      ¬ InSubtree state.checkpoints target checkpoint.key ∧
      next.checkpoints[record.checkpointOrdinal]? = some checkpoint ∧
      record.operationDigest = old.operationDigest
  retired : ∀ id digest, next.retiredRequests.get id = some digest ↔
    state.retiredRequests.get id = some digest ∨
      ∃ old checkpoint, state.requestRecords.get id = some old ∧
        state.checkpoints[old.checkpointOrdinal]? = some checkpoint ∧
        InSubtree state.checkpoints target checkpoint.key ∧ digest = old.operationDigest
  cleared : next.checkpoints = [] ↔ next.payload = [] ∧ next.nodes = [] ∧ next.versions = []
  untouched : next.checkpoints ≠ [] → next.payload = state.payload ∧ next.nodes = state.nodes ∧
    next.versions = state.versions

open Classical in
/-- From a valid state a live checkpoint can be deleted, and the state stays valid. -/
theorem StateOk.delete (h : StateOk sha256 a state) {threadId checkpointId : String}
    (hLive : checkpointKey threadId checkpointId ∈ checkpointKeys state.checkpoints) :
    ∃ prepared b, state.prepareDeleteCheckpointSubtree sha256 threadId checkpointId = .ok prepared ∧
      applyPreparedDeleteCheckpointSubtree prepared state = .ok () (state.rebuilt prepared) ∧
      SubtreeDeleted (checkpointKey threadId checkpointId) state (state.rebuilt prepared) ∧
      StateOk sha256 b (state.rebuilt prepared) := by
  obtain ⟨root, hMem, hKey⟩ := mem_checkpointKeys.mp hLive
  obtain ⟨t, hRoot⟩ := List.mem_iff_getElem?.mp hMem
  have hLt := (List.getElem?_eq_some_iff.mp hRoot).1
  have hValid := h.table.valid root hMem
  obtain ⟨rfl, rfl⟩ : root.threadId = threadId ∧ root.checkpointId = checkpointId :=
    Prod.mk.inj hKey
  have hPosition : state.deleteTarget (KeyMap.indexOf (checkpointKeys state.checkpoints)) root.key =
      .ok t := by
    have hGet : (KeyMap.indexOf (checkpointKeys state.checkpoints)).get root.key = some t :=
      (KeyMap.get_indexOf h.table.nodup).mpr (getElem?_checkpointKeys.mpr ⟨root, hRoot, rfl⟩)
    rw [V2CommittedState.deleteTarget, hGet]
  let gone : V2CheckpointKey → Bool := fun key => decide (InSubtree state.checkpoints root.key key)
  have hGone : ∀ key, gone key = true ↔ InSubtree state.checkpoints root.key key :=
    fun key => decide_eq_true_iff
  have hStays : ∀ key, gone key = false ↔ ¬ InSubtree state.checkpoints root.key key :=
    fun key => decide_eq_false_iff_not
  obtain ⟨prepared, hRun, hPrepared⟩ := prepareDeleteLedgers_ok h gone
  have hClosed : ∀ checkpoint ∈ state.checkpoints, ∀ id ∈ checkpoint.parentCheckpointId,
      gone (checkpointKey checkpoint.threadId id) = true → gone checkpoint.key = true := by
    intro checkpoint hChild id hId hParent
    refine (hGone _).mpr ((inSubtree_iff root.key h.table.nodup hChild).mpr (Or.inr ⟨id, hId, ?_⟩))
    exact (hGone _).mp hParent
  obtain ⟨b, hOk⟩ := h.rebuilt hPrepared hClosed
  refine ⟨prepared, b, ?_, applyPrepared_run state prepared, ?_, hOk⟩
  · rw [V2CommittedState.prepareDeleteCheckpointSubtree,
      validateCheckpointIdentifier_eq_ok (u := ()) |>.mpr hValid.threadId, ok_bind,
      validateCheckpointIdentifier_eq_ok (u := ()) |>.mpr hValid.checkpointId, ok_bind,
      validateDeleteSourceState_ok h, ok_bind]
    change (state.deleteTarget _ root.key >>= _) = _
    rw [hPosition, ok_bind, failIf_neg (by omega), ok_bind, markDescendants_ok h.table hRoot, ok_bind]
    exact hRun
  · have hNext : (state.rebuilt prepared).checkpoints = kept gone state.checkpoints :=
      hPrepared.stays
    exact {
      order := by
        rw [hNext]
        exact List.filter_sublist
      stays := by
        intro checkpoint
        rw [hNext, mem_kept, hStays]
        rfl
      ordinals := hPrepared.ordinals
      tombstones := by
        intro key
        refine (hPrepared.tombstones key).trans (or_congr_right ?_)
        rw [hGone]
        refine and_iff_left_of_imp fun hBelow => ?_
        obtain ⟨i, checkpoint, hGet, hSame, -⟩ := hBelow.behind h.table hRoot
        exact mem_checkpointKeys.mpr ⟨checkpoint, List.mem_of_getElem? hGet, hSame⟩
      active := by
        intro id record
        refine (hPrepared.active id record).trans ?_
        simp only [hStays]
        rfl
      retired := by
        intro id digest
        refine (hPrepared.retired id digest).trans ?_
        simp only [hGone]
        rfl
      cleared := by
        constructor
        · exact hOk.cleared
        · intro hNil
          by_contra hSome
          exact (hOk.nonempty hSome).1 hNil.1
      untouched := by
        intro hSome
        have hKeep : prepared.clearSequenceGeometry = false := by
          rw [← Bool.not_eq_true]
          exact fun hClear => hSome (hPrepared.clears.mp hClear)
        simp only [V2CommittedState.rebuilt, hKeep, if_neg Bool.false_ne_true, and_self] }

end Delete

end TulyaStore.V2
