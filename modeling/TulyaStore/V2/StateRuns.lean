import TulyaStore.V2.BackendSpec

/-!
# Runs of the committed state

A state is reached from the empty one by applies, retirements, deletes, compactions and recoveries
of what was exported, in any order. `StateStep.inversion` says once what a step can do to a valid
state; what a run keeps follows from it.
-/

namespace TulyaStore.V2

open Lib Sequence
open Sequence.V2AvlSequence

section Runs

variable (sha256 : Bytes → Digest)

/-- The steps that succeed. -/
inductive StateStep : V2CommittedState → V2CommittedState → Prop
  | apply {state next : V2CommittedState} {bytes : Bytes} {outcome : V2ApplyOutcome} :
    applyV2Commit sha256 bytes state = .ok outcome next → StateStep state next
  | retire {state next : V2CommittedState} {requestId : Bytes} :
    retireRequest requestId state = .ok () next → StateStep state next
  | delete {state next : V2CommittedState} {threadId checkpointId : String}
    {prepared : V2PreparedSubtreeDelete} :
    state.prepareDeleteCheckpointSubtree sha256 threadId checkpointId = .ok prepared →
    applyPreparedDeleteCheckpointSubtree prepared state = .ok () next → StateStep state next
  | compact {state next : V2CommittedState} :
    compactV2State sha256 state = .ok () next → StateStep state next
  | recover {state : V2CommittedState} {sealed : Option Bytes} {recovery : V2BackendRecovery} :
    exportV2SealedState sha256 state = .ok sealed →
    recoverV2Backend sha256 sealed [] = .ok recovery → StateStep state recovery.state

/-- `later` is behind `state` in some run. -/
def LeadsTo (state later : V2CommittedState) : Prop :=
  Relation.ReflTransGen (StateStep sha256) state later

/-- The states of the runs from the empty state. -/
def Reached (state : V2CommittedState) : Prop := LeadsTo sha256 .empty state

def ValidState (state : V2CommittedState) : Prop := ∃ a, StateOk sha256 a state

end Runs

section Steps

variable {sha256 : Bytes → Digest} {a : V2AvlSequence} {state next later : V2CommittedState}

/-- A delete succeeds for live checkpoints only. -/
theorem live_of_prepare (h : StateOk sha256 a state) {threadId checkpointId : String}
    {prepared : V2PreparedSubtreeDelete}
    (hPrepare : state.prepareDeleteCheckpointSubtree sha256 threadId checkpointId = .ok prepared) :
    checkpointKey threadId checkpointId ∈ checkpointKeys state.checkpoints := by
  rw [V2CommittedState.prepareDeleteCheckpointSubtree] at hPrepare
  simp only [bind_eq_ok, validateDeleteSourceState_ok h, Except.ok.injEq] at hPrepare
  obtain ⟨_, -, _, -, _, rfl, target, hTarget, -⟩ := hPrepare
  rw [V2CommittedState.deleteTarget] at hTarget
  cases hGet : (KeyMap.indexOf (checkpointKeys state.checkpoints)).get
      (checkpointKey threadId checkpointId) with
  | some index =>
    exact (KeyMap.containsKey_indexOf h.table.nodup).mp (KeyMap.containsKey_eq_true.mpr ⟨_, hGet⟩)
  | none =>
    rw [hGet] at hTarget
    dsimp only at hTarget
    split at hTarget <;> cases hTarget

/-- A commit is applied when the state takes it as a new one. -/
theorem accepts_of_applied {bytes : Bytes} {ordinal : Nat}
    (h : applyV2Commit sha256 bytes state = .ok (.applied ordinal) next) :
    ∃ decoded, Accepts sha256 state bytes decoded ∧ next = state.appended decoded := by
  rcases applyV2Commit_cases sha256 bytes state with ⟨e, hError⟩ | ⟨decoded, hAccepts, hOk⟩ |
    ⟨_, _, outcome, -, -, hOk, hOutcome⟩
  · rw [hError] at h
    cases h
  · rw [hOk] at h
    cases h
    exact ⟨decoded, hAccepts, rfl⟩
  · rw [hOk] at h
    cases h
    rcases hOutcome with ⟨_, hReplayed, -⟩ | ⟨hRetired, -⟩
    · cases hReplayed
    · cases hRetired

/-- Everything a step can do to a valid state. -/
theorem StateStep.inversion (h : StateOk sha256 a state) (hStep : StateStep sha256 state next) :
    next = state ∨
    (∃ bytes decoded, Accepts sha256 state bytes decoded ∧ next = state.appended decoded) ∨
    (∃ requestId record, LedgerIdOk requestId ∧
      state.requestRecords.get requestId = some record ∧
      next = state.retiring requestId record) ∨
    (∃ threadId checkpointId, checkpointKey threadId checkpointId ∈ checkpointKeys state.checkpoints ∧
      SubtreeDeleted (checkpointKey threadId checkpointId) state next ∧ ValidState sha256 next) ∨
    ∃ plan, PlanOk a state plan ∧ next = state.compacted a plan := by
  cases hStep with
  | @apply _ bytes outcome hRun =>
    rcases applyV2Commit_cases sha256 bytes state with ⟨e, hError⟩ | ⟨decoded, hAccepts, hOk⟩ |
      ⟨decoded, requestId, outcome', -, -, hOk, -⟩
    · rw [hError] at hRun
      cases hRun
    · rw [hOk] at hRun
      cases hRun
      exact Or.inr (Or.inl ⟨bytes, decoded, hAccepts, rfl⟩)
    · rw [hOk] at hRun
      cases hRun
      exact Or.inl rfl
  | @retire _ requestId hRun =>
    rcases retireRequest_cases requestId state with ⟨e, hError⟩ | ⟨record, hId, hActive, hOk⟩
    · rw [hError] at hRun
      cases hRun
    · rw [hOk] at hRun
      cases hRun
      exact Or.inr (Or.inr (Or.inl ⟨requestId, record, hId, hActive, rfl⟩))
  | @delete _ threadId checkpointId prepared hPrepare hRun =>
    have hLive := live_of_prepare h hPrepare
    obtain ⟨prepared', b, hPrepare', hRun', hDeleted, hOk⟩ := h.delete hLive
    rw [hPrepare] at hPrepare'
    cases hPrepare'
    rw [hRun'] at hRun
    cases hRun
    exact Or.inr (Or.inr (Or.inr (Or.inl ⟨threadId, checkpointId, hLive, hDeleted, b, hOk⟩)))
  | compact hRun =>
    obtain ⟨plan, hPlan, -, hOk⟩ := h.compact
    rw [hOk] at hRun
    cases hRun
    exact Or.inr (Or.inr (Or.inr (Or.inr ⟨plan, hPlan, rfl⟩)))
  | recover hExport hRecover =>
    rw [h.recover_export hExport] at hRecover
    cases hRecover
    exact Or.inl rfl

/-- A step leads from valid states to valid states. -/
theorem StateStep.valid (hStep : StateStep sha256 state next) (h : ValidState sha256 state) :
    ValidState sha256 next := by
  obtain ⟨a, h⟩ := h
  rcases hStep.inversion h with rfl | ⟨bytes, decoded, hAccepts, rfl⟩ |
    ⟨requestId, record, hId, -, rfl⟩ | ⟨_, _, -, -, hOk⟩ | ⟨plan, hPlan, rfl⟩
  · exact ⟨a, h⟩
  · obtain ⟨b, hOk, -⟩ := h.append hAccepts
    exact ⟨b, hOk⟩
  · exact ⟨a, h.retiring hId record⟩
  · exact hOk
  · exact ⟨planArena a plan, h.compacted hPlan⟩

theorem LeadsTo.valid (hRun : LeadsTo sha256 state later) (h : ValidState sha256 state) :
    ValidState sha256 later := by
  induction hRun with
  | refl => exact h
  | tail _ hStep ih => exact hStep.valid ih

/-- Every reached state is valid. -/
theorem Reached.valid (h : Reached sha256 state) : ValidState sha256 state :=
  LeadsTo.valid h ⟨_, stateOk_empty sha256⟩

/-- What every step keeps of valid states holds behind every run. -/
theorem LeadsTo.keeps {P : V2CommittedState → Prop} (hRun : LeadsTo sha256 state later)
    (h : ValidState sha256 state)
    (hStep : ∀ s t, ValidState sha256 s → StateStep sha256 s t → P s → P t) (hP : P state) :
    P later := by
  induction hRun with
  | refl => exact hP
  | tail hFront hLast ih => exact hStep _ _ (LeadsTo.valid hFront h) hLast ih

end Steps

/-! ## A run of two commits -/

/-- SHA-256 on the messages of the run below and of the snapshot behind its first commit. -/
def sampleRunSha256 (message : Bytes) : Digest :=
  if v2LeafDomain <+: message then
    digestOfNat 0x631a198b7685ef4dfb1032c761262dc81d3f1c2b1e5e740f81f056e1b847d068
  else if v2StateDomain <+: message then
    digestOfNat 0x74a8ea61c65c688272bbf9662aabb1ee88301f89810198b88c7eadcac5384a68
  else if v2OperationDomain <+: message then
    digestOfNat 0x6e0363445809801219e0a146b177509d7a74ff7cbff1ee35013d94ad433e9eda
  else if v2WalDomain <+: message then
    if message.length = 369 then
      digestOfNat 0x185d3f5767c8e1fc76a457b52d3620eb4dd4357176b52270adf4a58095a36227
    else digestOfNat 0x2a48b6d5299031e602d6c357802daa6e9a198e9f8ff1041f41269d5528c7613d
  else if v2CommitDomain <+: message then
    if message.length = 451 then
      digestOfNat 0x580a21f93b85752970c3826ae9f81afd3c82b8de1c4dc8c9292d66a83beff9f6
    else digestOfNat 0x0c513db57450d3d17816bc4ce13f0cea42e4648737346a40c914fc3080002136
  else if v2ImageDomain <+: message then
    digestOfNat 0x39f3f5a762911db84e7c8b1e9258b2004d5ed62e6b53fa6cc484c51bd9a81085
  else digestOfNat 0xf2e4f06003d4bcb3b5b23f926e852f1bf869b6e64940ecbfea0666aa45f9ed9c

/-- The text `abc` becomes the checkpoint `cp-1`, for the request `r-1`. -/
def sampleFirst : V2DecodedCommit where
  encodedBase := ⟨0, 0, 0, 0⟩
  wal := {
    transaction := {
      payload := ascii "abc"
      nodes := [⟨1, 3, sampleRunSha256 v2LeafDomain, .leaf 0 3⟩]
      versions := [⟨0, none, ⟨0, 3, 1, sampleRunSha256 v2LeafDomain⟩⟩]
      checkpoint := ⟨1, "thread", "cp-1", none, 0, none, none,
        ⟨30, sampleRunSha256 v2StateDomain⟩⟩ }
    nextGeometry := ⟨3, 1, 1, 1⟩
    digest := digestOfNat 0x185d3f5767c8e1fc76a457b52d3620eb4dd4357176b52270adf4a58095a36227 }
  requestId := some (ascii "r-1")
  operationDigest := sampleRunSha256 v2OperationDomain
  commitDigest := digestOfNat 0x580a21f93b85752970c3826ae9f81afd3c82b8de1c4dc8c9292d66a83beff9f6

/-- A second checkpoint over the same text, without a request. -/
def sampleSecond : V2DecodedCommit where
  encodedBase := ⟨3, 1, 1, 1⟩
  wal := {
    transaction := {
      payload := []
      nodes := []
      versions := []
      checkpoint := ⟨2, "thread", "cp-2", some "cp-1", 0, none, none,
        ⟨30, sampleRunSha256 v2StateDomain⟩⟩ }
    nextGeometry := ⟨3, 1, 1, 2⟩
    digest := digestOfNat 0x2a48b6d5299031e602d6c357802daa6e9a198e9f8ff1041f41269d5528c7613d }
  requestId := none
  operationDigest := zeroDigest
  commitDigest := digestOfNat 0x0c513db57450d3d17816bc4ce13f0cea42e4648737346a40c914fc3080002136

def sampleFirstCommit : Bytes :=
  commitBytes sampleRunSha256 ⟨0, 0, 0, 0⟩ sampleFirst.wal.transaction (some (ascii "r-1"))

def sampleSecondCommit : Bytes :=
  commitBytes sampleRunSha256 ⟨3, 1, 1, 1⟩ sampleSecond.wal.transaction none

def sampleFirstState : V2CommittedState := V2CommittedState.empty.appended sampleFirst

def sampleSecondState : V2CommittedState := sampleFirstState.appended sampleSecond

theorem sampleFirst_accepts : Accepts sampleRunSha256 .empty sampleFirstCommit sampleFirst where
  decode := by decide +kernel
  status := by decide +kernel
  geometry := by decide +kernel
  checked := by decide +kernel

theorem sampleSecond_accepts :
    Accepts sampleRunSha256 sampleFirstState sampleSecondCommit sampleSecond where
  decode := by decide +kernel
  status := by decide +kernel
  geometry := by decide +kernel
  checked := by decide +kernel

theorem reached_sampleFirst : Reached sampleRunSha256 sampleFirstState :=
  .single (.apply sampleFirst_accepts.run)

theorem reached_sampleSecond : Reached sampleRunSha256 sampleSecondState :=
  reached_sampleFirst.tail (.apply sampleSecond_accepts.run)

/-! ## Deletes -/

section Delete

variable {sha256 : Bytes → Digest} {state : V2CommittedState}

/-- In every reached state every live checkpoint can be deleted with exactly its subtree. -/
theorem delete_subtree (sha256 : Bytes → Digest) (state : V2CommittedState)
    (hReached : Reached sha256 state) (threadId checkpointId : String)
    (hLive : checkpointKey threadId checkpointId ∈ checkpointKeys state.checkpoints) :
    ∃ prepared next,
      state.prepareDeleteCheckpointSubtree sha256 threadId checkpointId = .ok prepared ∧
      applyPreparedDeleteCheckpointSubtree prepared state = .ok () next ∧
      SubtreeDeleted (checkpointKey threadId checkpointId) state next := by
  obtain ⟨a, h⟩ := hReached.valid
  obtain ⟨prepared, b, hPrepare, hRun, hDeleted, -⟩ := h.delete hLive
  exact ⟨prepared, _, hPrepare, hRun, hDeleted⟩

theorem delete_subtree_sample : ∃ prepared next,
    sampleSecondState.prepareDeleteCheckpointSubtree sampleRunSha256 "thread" "cp-1" =
      .ok prepared ∧
    applyPreparedDeleteCheckpointSubtree prepared sampleSecondState = .ok () next ∧
    SubtreeDeleted (checkpointKey "thread" "cp-1") sampleSecondState next :=
  delete_subtree sampleRunSha256 sampleSecondState reached_sampleSecond "thread" "cp-1"
    (by decide +kernel)

end Delete

/-! ## Compaction -/

/-- What a compaction does to a state. -/
structure CompactedTo (sha256 : Bytes → Digest) (state next : V2CommittedState) : Prop where
  checkpoints : List.Forall₂ (CheckpointKept sha256 state next) state.checkpoints next.checkpoints
  ordinals : next.checkpointOrdinals = state.checkpointOrdinals
  active : next.requestRecords = state.requestRecords
  retired : next.retiredRequests = state.retiredRequests
  tombstones : next.deletedCheckpoints = state.deletedCheckpoints
  tables : ∃ plan, planV2Compaction state = .ok plan ∧ CompactTables state plan next

/-- In every reached state a compaction succeeds, and a second one changes nothing. -/
theorem compact_reached (sha256 : Bytes → Digest) (state : V2CommittedState)
    (hReached : Reached sha256 state) :
    ∃ next, compactV2State sha256 state = .ok () next ∧ CompactedTo sha256 state next ∧
      compactV2State sha256 next = .ok () next := by
  obtain ⟨a, h⟩ := hReached.valid
  obtain ⟨plan, hPlan, hPlanned, hRun⟩ := h.compact
  refine ⟨_, hRun, ?_, h.compact_again hPlan⟩
  exact {
    checkpoints := by
      show List.Forall₂ _ state.checkpoints (state.checkpoints.map _)
      rw [List.forall₂_map_right_iff, List.forall₂_same]
      exact fun checkpoint hMem => checkpointKept hPlan h hMem
    ordinals := rfl
    active := rfl
    retired := rfl
    tombstones := rfl
    tables := ⟨plan, hPlanned, compactTables hPlan h⟩ }

theorem compact_reached_sample : ∃ next,
    compactV2State sampleRunSha256 sampleSecondState = .ok () next ∧
    CompactedTo sampleRunSha256 sampleSecondState next ∧
    compactV2State sampleRunSha256 next = .ok () next :=
  compact_reached sampleRunSha256 sampleSecondState reached_sampleSecond

/-! ## Requests and deleted keys -/

section Ledgers

variable {sha256 : Bytes → Digest} {a : V2AvlSequence} {state next later : V2CommittedState}
  {requestId : Bytes} {operationDigest : Digest} {key : V2CheckpointKey}

/-- The operation of the request was applied: it is active for the checkpoint `key`, or retired. -/
def Knows (requestId : Bytes) (operationDigest : Digest) (key : V2CheckpointKey)
    (state : V2CommittedState) : Prop :=
  (∃ record checkpoint, state.requestRecords.get requestId = some record ∧
    record.operationDigest = operationDigest ∧
    state.checkpoints[record.checkpointOrdinal]? = some checkpoint ∧ checkpoint.key = key) ∨
  state.retiredRequests.get requestId = some operationDigest

/-- A new commit is for another request. -/
theorem Knows.append (h : Knows requestId operationDigest key state) {bytes : Bytes}
    {decoded : V2DecodedCommit} (hAccepts : Accepts sha256 state bytes decoded) :
    Knows requestId operationDigest key (state.appended decoded) := by
  rcases h with ⟨record, checkpoint, hActive, hDigest, hGet, hKey⟩ | hRetired
  · refine Or.inl ⟨record, checkpoint, ?_, hDigest, ?_, hKey⟩
    · show (state.recorded decoded).get requestId = _
      rw [V2CommittedState.recorded]
      cases hId : decoded.requestId with
      | none => exact hActive
      | some new =>
        have hNone := (hAccepts.request hId).2.1
        dsimp only
        rw [KeyMap.get_insert, if_neg, hActive]
        rintro rfl
        rw [hActive] at hNone
        cases hNone
    · show (state.checkpoints ++ _)[_]? = _
      rw [List.getElem?_append_left (List.getElem?_eq_some_iff.mp hGet).1, hGet]
  · exact Or.inr hRetired

theorem Knows.retire (h : Knows requestId operationDigest key state)
    (hLedgers : LedgersOk sha256 state) {other : Bytes} {record : V2RequestRecord}
    (hOther : state.requestRecords.get other = some record) :
    Knows requestId operationDigest key (state.retiring other record) := by
  by_cases hSame : requestId = other
  · subst hSame
    rcases h with ⟨known, checkpoint, hActive, hDigest, -, -⟩ | hRetired
    · rw [hOther] at hActive
      cases hActive
      refine Or.inr ?_
      show (state.retiredRequests.insert requestId record.operationDigest).get requestId = _
      rw [KeyMap.get_insert_self, hDigest]
    · have hNone := (hLedgers.active requestId record hOther).2.1
      rw [hRetired] at hNone
      cases hNone
  · rcases h with ⟨known, checkpoint, hActive, hRest⟩ | hRetired
    · refine Or.inl ⟨known, checkpoint, ?_, hRest⟩
      show (state.requestRecords.erase other).get requestId = _
      rw [KeyMap.get_erase, if_neg hSame, hActive]
    · refine Or.inr ?_
      show (state.retiredRequests.insert other record.operationDigest).get requestId = _
      rw [KeyMap.get_insert, if_neg hSame, hRetired]

theorem Knows.delete (h : Knows requestId operationDigest key state) {target : V2CheckpointKey}
    (hDeleted : SubtreeDeleted target state next) : Knows requestId operationDigest key next := by
  rcases h with ⟨record, checkpoint, hActive, hDigest, hGet, hKey⟩ | hRetired
  · by_cases hBelow : InSubtree state.checkpoints target checkpoint.key
    · refine Or.inr ((hDeleted.retired requestId operationDigest).mpr (Or.inr ?_))
      exact ⟨record, checkpoint, hActive, hGet, hBelow, hDigest.symm⟩
    · have hStays := (hDeleted.stays checkpoint).mpr ⟨List.mem_of_getElem? hGet, hBelow⟩
      obtain ⟨k, hPlace⟩ := List.mem_iff_getElem?.mp hStays
      refine Or.inl ⟨⟨operationDigest, k⟩, checkpoint, ?_, rfl, hPlace, hKey⟩
      exact (hDeleted.active requestId _).mpr
        ⟨record, checkpoint, hActive, hGet, hBelow, hPlace, hDigest.symm⟩
  · exact Or.inr ((hDeleted.retired requestId operationDigest).mpr (Or.inl hRetired))

theorem Knows.compact (h : Knows requestId operationDigest key state) (plan : V2CompactionPlan) :
    Knows requestId operationDigest key (state.compacted a plan) := by
  rcases h with ⟨record, checkpoint, hActive, hDigest, hGet, hKey⟩ | hRetired
  · refine Or.inl ⟨record, renumberCheckpoint (rank plan.retainedVersions) checkpoint, hActive, hDigest,
      ?_, hKey⟩
    show (state.checkpoints.map _)[_]? = _
    rw [List.getElem?_map, hGet]
    rfl
  · exact Or.inr hRetired

/-- No step forgets a request. -/
theorem Knows.step (hValid : ValidState sha256 state) (hStep : StateStep sha256 state next)
    (h : Knows requestId operationDigest key state) : Knows requestId operationDigest key next := by
  obtain ⟨a, hOk⟩ := hValid
  rcases hStep.inversion hOk with rfl | ⟨bytes, decoded, hAccepts, rfl⟩ |
    ⟨other, record, -, hOther, rfl⟩ | ⟨_, _, -, hDeleted, -⟩ | ⟨plan, -, rfl⟩
  · exact h
  · exact h.append hAccepts
  · exact h.retire hOk.ledgers hOther
  · exact h.delete hDeleted
  · exact h.compact plan

/-- An apply makes its request known. -/
theorem knows_applied {decoded : V2DecodedCommit}
    (hId : decoded.requestId = some requestId) :
    Knows requestId decoded.operationDigest decoded.wal.transaction.checkpoint.key
      (state.appended decoded) := by
  refine Or.inl ⟨⟨decoded.operationDigest, state.checkpoints.length⟩,
    decoded.wal.transaction.checkpoint, ?_, rfl, List.getElem?_concat_length, rfl⟩
  show (state.recorded decoded).get requestId = _
  rw [V2CommittedState.recorded, hId]
  exact KeyMap.get_insert_self _ _ _

/-- A known request is the same operation again, or a conflict. -/
theorem Knows.classify (h : Knows requestId operationDigest key state)
    (hLedgers : LedgersOk sha256 state) :
    ((∃ ordinal checkpoint,
        state.classifyRequest requestId operationDigest = .ok (.replay ordinal) ∧
        state.checkpoints[ordinal]? = some checkpoint ∧ checkpoint.key = key) ∨
      state.classifyRequest requestId operationDigest = .ok .retired) ∧
    ∀ other, other ≠ operationDigest →
      state.classifyRequest requestId other = .error .requestConflict := by
  rcases h with ⟨record, checkpoint, hActive, hDigest, hGet, hKey⟩ | hRetired
  · have hOk := (hLedgers.active requestId record hActive).1
    have hClassify : ∀ digest, state.classifyRequest requestId digest =
        V2CommittedState.sameOperation record.operationDigest digest
          (.replay record.checkpointOrdinal) := by
      intro digest
      rw [classifyRequest_eq hOk, V2CommittedState.requestStatus, hActive]
    refine ⟨Or.inl ⟨record.checkpointOrdinal, checkpoint, ?_, hGet, hKey⟩, fun other hOther => ?_⟩
    · rw [hClassify, V2CommittedState.sameOperation, if_pos hDigest]
    · rw [hClassify, V2CommittedState.sameOperation, if_neg]
      rw [hDigest]
      exact fun hSame => hOther hSame.symm
  · have hOk := hLedgers.retired requestId operationDigest hRetired
    have hNone : state.requestRecords.get requestId = none := by
      cases hActive : state.requestRecords.get requestId with
      | none => rfl
      | some record =>
        have hApart := (hLedgers.active requestId record hActive).2.1
        rw [hRetired] at hApart
        cases hApart
    have hClassify : ∀ digest, state.classifyRequest requestId digest =
        V2CommittedState.sameOperation operationDigest digest .retired := by
      intro digest
      rw [classifyRequest_eq hOk, V2CommittedState.requestStatus, hNone]
      dsimp only
      rw [hRetired]
    refine ⟨Or.inr ?_, fun other hOther => ?_⟩
    · rw [hClassify, V2CommittedState.sameOperation, if_pos rfl]
    · rw [hClassify, V2CommittedState.sameOperation, if_neg]
      exact fun hSame => hOther hSame.symm

/-- A tombstone stays. -/
theorem StateStep.tombstone (hValid : ValidState sha256 state) (hStep : StateStep sha256 state next)
    (h : state.deletedCheckpoints.containsKey key = true) :
    next.deletedCheckpoints.containsKey key = true := by
  obtain ⟨a, hOk⟩ := hValid
  rcases hStep.inversion hOk with rfl | ⟨_, _, -, rfl⟩ | ⟨_, _, -, -, rfl⟩ |
    ⟨_, _, -, hDeleted, -⟩ | ⟨_, -, rfl⟩
  · exact h
  · exact h
  · exact h
  · exact (hDeleted.tombstones key).mpr (Or.inl h)
  · exact h

/-- A key that a step takes away has a tombstone. -/
theorem StateStep.buried (hValid : ValidState sha256 state) (hStep : StateStep sha256 state next)
    (hLive : key ∈ checkpointKeys state.checkpoints)
    (hGone : key ∉ checkpointKeys next.checkpoints) :
    next.deletedCheckpoints.containsKey key = true := by
  obtain ⟨a, hOk⟩ := hValid
  rcases hStep.inversion hOk with rfl | ⟨_, _, -, rfl⟩ | ⟨_, _, -, -, rfl⟩ |
    ⟨_, _, -, hDeleted, -⟩ | ⟨_, -, rfl⟩
  · exact absurd hLive hGone
  · refine absurd ?_ hGone
    rw [V2CommittedState.appended, checkpointKeys_append]
    exact List.mem_append_left _ hLive
  · exact absurd hLive hGone
  · obtain ⟨checkpoint, hMem, hKey⟩ := mem_checkpointKeys.mp hLive
    refine (hDeleted.tombstones key).mpr (Or.inr ?_)
    by_contra hOutside
    refine hGone (mem_checkpointKeys.mpr ⟨checkpoint, (hDeleted.stays checkpoint).mpr ⟨hMem, ?_⟩, hKey⟩)
    rwa [hKey]
  · refine absurd ?_ hGone
    show key ∈ checkpointKeys (state.checkpoints.map _)
    rw [checkpointKeys_renumber]
    exact hLive

/-- What holds of the tables of every reached state. -/
structure WellFormedState (sha256 : Bytes → Digest) (state : V2CommittedState) : Prop where
  /-- the index is the one of the checkpoints by their keys -/
  ordinals : ∀ key ordinal, state.checkpointOrdinals.get key = some ordinal ↔
    ∃ checkpoint, state.checkpoints[ordinal]? = some checkpoint ∧ checkpoint.key = key
  parents : ∀ (i : Nat) checkpoint, state.checkpoints[i]? = some checkpoint →
    ∀ id ∈ checkpoint.parentCheckpointId, ∃ j parent, j < i ∧ state.checkpoints[j]? = some parent ∧
      parent.key = checkpointKey checkpoint.threadId id
  deleted : ∀ key ∈ checkpointKeys state.checkpoints,
    state.deletedCheckpoints.containsKey key = false
  requests : ∀ requestId, state.requestRecords.containsKey requestId = true →
    state.retiredRequests.containsKey requestId = false
  active : ∀ requestId record, state.requestRecords.get requestId = some record →
    ∃ checkpoint, state.checkpoints[record.checkpointOrdinal]? = some checkpoint ∧
      checkpointOperationDigest sha256 checkpoint = .ok record.operationDigest

theorem ValidState.wellFormed (h : ValidState sha256 state) : WellFormedState sha256 state := by
  obtain ⟨a, h⟩ := h
  exact {
    ordinals := fun key ordinal => h.ledgers.get_ordinal h.table.nodup
    parents := fun i checkpoint hGet id hId => h.table.parent_before hGet hId
    deleted := by
      intro key hLive
      rw [← Bool.not_eq_true]
      exact fun hDeleted => (h.ledgers.deleted key hDeleted).2.2 hLive
    requests := by
      intro requestId hActive
      obtain ⟨record, hGet⟩ := KeyMap.containsKey_eq_true.mp hActive
      exact KeyMap.containsKey_eq_false.mpr (h.ledgers.active requestId record hGet).2.1
    active := by
      intro requestId record hGet
      obtain ⟨-, -, checkpoint, hCheckpoint, hDigest⟩ := h.ledgers.active requestId record hGet
      refine ⟨checkpoint, hCheckpoint, checkpointOperationDigest_eq_ok.mpr ⟨?_, hDigest.symm⟩⟩
      exact h.table.valid checkpoint (List.mem_of_getElem? hCheckpoint) }

/-- A call that fails leaves the state as it was. -/
structure ErrorsKeepState (sha256 : Bytes → Digest) (state : V2CommittedState) : Prop where
  apply : ∀ bytes e next, applyV2Commit sha256 bytes state = .error e next → next = state
  retire : ∀ requestId e next, retireRequest requestId state = .error e next → next = state
  delete : ∀ prepared e next,
    applyPreparedDeleteCheckpointSubtree prepared state = .error e next → next = state
  compact : ∀ e next, compactV2State sha256 state = .error e next → next = state

theorem errorsKeepState (sha256 : Bytes → Digest) (state : V2CommittedState) :
    ErrorsKeepState sha256 state where
  apply bytes e next hRun := by
    rcases applyV2Commit_cases sha256 bytes state with ⟨e, hError⟩ | ⟨decoded, -, hOk⟩ |
      ⟨decoded, requestId, outcome', -, -, hOk, -⟩
    · rw [hError] at hRun
      cases hRun
      rfl
    · rw [hOk] at hRun
      cases hRun
    · rw [hOk] at hRun
      cases hRun
  retire requestId e next hRun := by
    rcases retireRequest_cases requestId state with ⟨e, hError⟩ | ⟨record, -, -, hOk⟩
    · rw [hError] at hRun
      cases hRun
      rfl
    · rw [hOk] at hRun
      cases hRun
  delete prepared e next hRun := by
    rw [applyPrepared_run] at hRun
    cases hRun
  compact e next hRun := by
    cases hPrepare : prepareV2Compaction sha256 state with
    | error e' =>
      have hError : compactV2State sha256 state = .error e' state :=
        attempt_bind_error (s := state) hPrepare
      rw [hError] at hRun
      cases hRun
      rfl
    | ok prepared =>
      have hOk : compactV2State sha256 state = _ := attempt_bind_ok (s := state) hPrepare
      rw [hOk] at hRun
      cases hRun

/-- What is known of a request behind its first apply: it is the same operation again, of the same
checkpoint or retired, and a conflict with every other operation. -/
def AppliedOnce (decoded : V2DecodedCommit) (requestId : Bytes)
    (later : V2CommittedState) : Prop :=
  ((∃ ordinal checkpoint,
      later.classifyRequest requestId decoded.operationDigest = .ok (.replay ordinal) ∧
      later.checkpoints[ordinal]? = some checkpoint ∧
      checkpoint.key = decoded.wal.transaction.checkpoint.key) ∨
    later.classifyRequest requestId decoded.operationDigest = .ok .retired) ∧
  ∀ other, other ≠ decoded.operationDigest →
    later.classifyRequest requestId other = .error .requestConflict

/-- Over every run the states are well-formed, a failing call changes nothing, an applied request is
recognised ever after, and a key that was taken away never comes back. -/
theorem exactly_once (sha256 : Bytes → Digest) :
    (∀ state, Reached sha256 state → WellFormedState sha256 state) ∧
    (∀ state, ErrorsKeepState sha256 state) ∧
    (∀ state next later bytes decoded ordinal requestId, Reached sha256 state →
      decodeV2Commit sha256 bytes = .ok decoded → decoded.requestId = some requestId →
      applyV2Commit sha256 bytes state = .ok (.applied ordinal) next → LeadsTo sha256 next later →
      AppliedOnce decoded requestId later) ∧
    (∀ state next later key, Reached sha256 state → StateStep sha256 state next →
      key ∈ checkpointKeys state.checkpoints → key ∉ checkpointKeys next.checkpoints →
      LeadsTo sha256 next later → key ∉ checkpointKeys later.checkpoints) ∧
    ∀ state later key, Reached sha256 state → state.deletedCheckpoints.containsKey key = true →
      LeadsTo sha256 state later → later.deletedCheckpoints.containsKey key = true ∧
        key ∉ checkpointKeys later.checkpoints := by
  have hBuried : ∀ state later key, ValidState sha256 state →
      state.deletedCheckpoints.containsKey key = true → LeadsTo sha256 state later →
      later.deletedCheckpoints.containsKey key = true ∧
        key ∉ checkpointKeys later.checkpoints := by
    intro state later key hValid hDeleted hRun
    have hLater : later.deletedCheckpoints.containsKey key = true :=
      LeadsTo.keeps hRun hValid (fun s t hOk hStep => hStep.tombstone hOk) hDeleted
    obtain ⟨a, hOk⟩ := LeadsTo.valid hRun hValid
    exact ⟨hLater, (hOk.ledgers.deleted key hLater).2.2⟩
  refine ⟨fun state hReached => hReached.valid.wellFormed, errorsKeepState sha256, ?_, ?_, ?_⟩
  · intro state next later bytes decoded ordinal requestId hReached hDecode hId hApply hRun
    have hStep : StateStep sha256 state next := .apply hApply
    have hValid := hStep.valid hReached.valid
    have hKnows : Knows requestId decoded.operationDigest decoded.wal.transaction.checkpoint.key
        next := by
      obtain ⟨other, hAccepts, rfl⟩ := accepts_of_applied hApply
      have hSame := hAccepts.decode
      rw [hDecode] at hSame
      cases hSame
      exact knows_applied hId
    have hLater := LeadsTo.keeps hRun hValid
      (fun s t hOk hStep => Knows.step hOk hStep) hKnows
    obtain ⟨a, hOk⟩ := LeadsTo.valid hRun hValid
    exact hLater.classify hOk.ledgers
  · intro state next later key hReached hStep hLive hGone hRun
    have hTombstone := hStep.buried hReached.valid hLive hGone
    exact (hBuried next later key (hStep.valid hReached.valid) hTombstone hRun).2
  · intro state later key hReached hDeleted hRun
    exact hBuried state later key hReached.valid hDeleted hRun

/-- The request of the first commit is recognised behind the second one. -/
theorem exactly_once_sample : AppliedOnce sampleFirst (ascii "r-1") sampleSecondState :=
  (exactly_once sampleRunSha256).2.2.1 .empty sampleFirstState sampleSecondState sampleFirstCommit
    sampleFirst 0 (ascii "r-1") .refl sampleFirst_accepts.decode rfl sampleFirst_accepts.run
    (.single (.apply sampleSecond_accepts.run))

end Ledgers

end TulyaStore.V2
