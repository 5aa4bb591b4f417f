import TulyaStore.V2.StateRuns
import TulyaStore.V2.TornTail

/-!
# Sealed bases and hot suffixes

A sealed snapshot of the state behind some hot frames, followed by the other frames, recovers to the
same state as all the frames. A reached state can be sealed when its leaves stand in the order of
their payload: every commit that lists its leaves in this order keeps them so, but a commit that
does not is accepted too.
-/

namespace TulyaStore.V2

open Lib Sequence
open Sequence.V2AvlSequence

/-! ## Replay -/

section Replay

variable {sha256 : Bytes → Digest} {state next : V2CommittedState} {commit : Bytes}
  {commits frames : List Bytes}

/-- A commit that recovery replays is a new one. -/
theorem applyRecovered_eq_ok (h : applyRecovered sha256 commit state = .ok next) :
    ∃ ordinal, applyV2Commit sha256 commit state = .ok (.applied ordinal) next := by
  rw [applyRecovered] at h
  cases hRun : applyV2Commit sha256 commit state with
  | ok outcome after =>
    rw [hRun] at h
    cases outcome with
    | applied ordinal =>
      cases h
      exact ⟨ordinal, rfl⟩
    | _ => cases h
  | error e after =>
    rw [hRun] at h
    cases h

/-- A replay is a run. -/
theorem leadsTo_of_replay (h : replayCommits sha256 state commits = .ok next) :
    LeadsTo sha256 state next := by
  induction commits generalizing state with
  | nil =>
    cases h
    exact .refl
  | cons commit commits ih =>
    rw [replayCommits, List.foldlM_cons, bind_eq_ok] at h
    obtain ⟨mid, hApply, hRest⟩ := h
    obtain ⟨ordinal, hRun⟩ := applyRecovered_eq_ok hApply
    exact .head (.apply hRun) (ih hRest)

theorem HotFrames.take (h : HotFrames sha256 commits frames) (n : Nat) :
    HotFrames sha256 (commits.take n) (frames.take n) := List.forall₂_take n h

theorem HotFrames.drop (h : HotFrames sha256 commits frames) (n : Nat) :
    HotFrames sha256 (commits.drop n) (frames.drop n) := List.forall₂_drop n h

theorem length_flatten_take_drop (frames : List Bytes) (n : Nat) :
    (frames.take n).flatten.length + (frames.drop n).flatten.length = frames.flatten.length := by
  rw [← List.length_append, ← List.flatten_append, List.take_append_drop]

/-- A sealed prefix with the other frames behind it recovers to the state of all the frames, at
every place of the cut. -/
theorem sealed_base_hot_suffix (sha256 : Bytes → Digest) (commits frames : List Bytes)
    (whole : V2RecoveredHotWal) (hFrames : HotFrames sha256 commits frames)
    (hWhole : recoverV2HotWal sha256 frames.flatten .empty = .ok whole) (n : Nat) :
    ∃ mid, recoverV2HotWal sha256 (frames.take n).flatten .empty = .ok mid ∧
      ∀ sealed, exportV2SealedState sha256 mid.state = .ok sealed →
        ∃ recovery, recoverV2Backend sha256 sealed (frames.drop n).flatten = .ok recovery ∧
          recovery.state = whole.state := by
  obtain ⟨hReplay, hLt, -⟩ := (recoverV2HotWal_frames hFrames).mp hWhole
  have hLength := length_flatten_take_drop frames n
  rw [← List.take_append_drop n commits] at hReplay
  obtain ⟨mid, hFront, hBack⟩ := replayCommits_append.mp hReplay
  refine ⟨⟨mid, _, _, _⟩, (recoverV2HotWal_frames (hFrames.take n)).mpr ⟨hFront, by omega, rfl⟩, ?_⟩
  intro sealed hExport
  obtain ⟨a, hOk⟩ := Reached.valid (leadsTo_of_replay hFront)
  have hSuffix : recoverV2HotWal sha256 (frames.drop n).flatten mid =
      .ok ⟨whole.state, (frames.drop n).flatten.length, (commits.drop n).length, .endOfBytes⟩ :=
    (recoverV2HotWal_frames (hFrames.drop n)).mpr ⟨hBack, by omega, rfl⟩
  refine ⟨⟨whole.state, ⟨mid.payload.length, mid.nodes.length, mid.versions.length,
    mid.checkpoints.length⟩, (frames.drop n).flatten.length, (commits.drop n).length,
    .endOfBytes⟩, ?_, rfl⟩
  rw [recoverV2Backend, hOk.import_export hExport, ok_bind, hOk.geometry, mapErr_ok, ok_bind,
    hSuffix, mapErr_ok, ok_bind]
  rfl

/-- The first commit of the sample is sealed, the second one is replayed on it. -/
theorem sealed_base_hot_suffix_sample : ∃ frames whole mid sealed recovery,
    HotFrames sampleRunSha256 [sampleFirstCommit, sampleSecondCommit] frames ∧
    recoverV2HotWal sampleRunSha256 frames.flatten .empty = .ok whole ∧
    recoverV2HotWal sampleRunSha256 (frames.take 1).flatten .empty = .ok mid ∧
    exportV2SealedState sampleRunSha256 mid.state = .ok sealed ∧
    recoverV2Backend sampleRunSha256 sealed (frames.drop 1).flatten = .ok recovery ∧
    recovery.state = whole.state := by
  obtain ⟨first, second, hFirst, hSecond, hFront, hBoth⟩ := sampleRun_recovers
  have hFrames : HotFrames sampleRunSha256 [sampleFirstCommit, sampleSecondCommit]
      [first, second] := .cons hFirst (.cons hSecond .nil)
  have hFlat : [first, second].flatten = [first].flatten ++ second := by simp
  rw [← hFlat] at hBoth
  obtain ⟨mid, hMid, hSuffix⟩ := sealed_base_hot_suffix sampleRunSha256 _ _ _ hFrames hBoth 1
  have hState : mid.state = sampleFirstState :=
    congrArg V2RecoveredHotWal.state (Except.ok.inj (hMid.symm.trans hFront))
  obtain ⟨sealed, hExport⟩ : ∃ sealed,
      exportV2SealedState sampleRunSha256 sampleFirstState = .ok sealed :=
    exists_ok_of_isSome (by decide +kernel)
  rw [← hState] at hExport
  obtain ⟨recovery, hRecover, hSame⟩ := hSuffix sealed hExport
  exact ⟨_, _, mid, sealed, recovery, hFrames, hBoth, hMid, hExport, hRecover, hSame⟩

end Replay

/-! ## Sealable states -/

section Sealable

variable {sha256 : Bytes → Digest} {a : V2AvlSequence} {state next : V2CommittedState}

/-- The state is exported, and recovered from what is exported. -/
def Sealable (sha256 : Bytes → Digest) (state : V2CommittedState) : Prop :=
  ∃ sealed recovery, exportV2SealedState sha256 state = .ok sealed ∧
    recoverV2Backend sha256 sealed [] = .ok recovery ∧ recovery.state = state

theorem StateOk.sealable_iff (h : StateOk sha256 a state) :
    Sealable sha256 state ↔ InOrder state ∧ exportLength sha256 state < width 64 := by
  rw [← export_iff h]
  constructor
  · rintro ⟨sealed, -, hExport, -⟩
    exact ⟨sealed, hExport⟩
  · rintro ⟨sealed, hExport⟩
    exact ⟨sealed, _, hExport, h.recover_export hExport, rfl⟩

/-- The commit lists the leaves of its nodes in the order of their payload. -/
def ListsInOrder (decoded : V2DecodedCommit) : Prop :=
  Tiles decoded.encodedBase.payloadLen (recordRanges decoded.wal.transaction.nodes)
    decoded.wal.nextGeometry.payloadLen

/-- A new commit leaves the leaves in order exactly when it lists its own in order. -/
theorem inOrder_appended {bytes : Bytes} {decoded : V2DecodedCommit}
    (hAccepts : Accepts sha256 state bytes decoded) (hState : InOrder state) :
    InOrder (state.appended decoded) ↔ ListsInOrder decoded := by
  have hNext := congrArg V2WalGeometry.payloadLen hAccepts.valid.next_eq
  have hBase := congrArg V2WalGeometry.payloadLen hAccepts.starts
  dsimp only at hNext hBase
  rw [ListsInOrder, hNext, hBase, InOrder, V2CommittedState.appended, recordRanges,
    List.filterMap_append, List.length_append, tiles_append]
  constructor
  · rintro ⟨middle, hFront, hBack⟩
    rwa [hFront.stop_eq hState] at hBack
  · exact fun hBack => ⟨_, hState, hBack⟩

/-- A step of which the commit, if it applies one, lists its leaves in order. -/
def OrderedStep (sha256 : Bytes → Digest) (state next : V2CommittedState) : Prop :=
  StateStep sha256 state next ∧ ∀ bytes decoded ordinal,
    decodeV2Commit sha256 bytes = .ok decoded →
    applyV2Commit sha256 bytes state = .ok (.applied ordinal) next → ListsInOrder decoded

/-- Compaction moves the leaves and keeps their order. -/
theorem StateOk.inOrder_compacted (h : StateOk sha256 a state) {plan : V2CompactionPlan}
    (hPlan : PlanOk a state plan) (hState : InOrder state) : InOrder (state.compacted a plan) :=
  (h.compacted hPlan).tiled_iff.mp (hPlan.arena.tiled h.wellFormed (h.tiled_iff.mpr hState))

/-- An ordered step keeps the leaves in order. -/
theorem OrderedStep.inOrder (hStep : OrderedStep sha256 state next)
    (hValid : ValidState sha256 state) (hState : InOrder state) : InOrder next := by
  obtain ⟨a, h⟩ := hValid
  obtain ⟨hRun, hOrdered⟩ := hStep
  rcases hRun.inversion h with rfl | ⟨bytes, decoded, hAccepts, rfl⟩ | ⟨_, _, -, -, rfl⟩ |
    ⟨_, _, -, hDeleted, -⟩ | ⟨plan, hPlan, rfl⟩
  · exact hState
  · exact (inOrder_appended hAccepts hState).mpr
      (hOrdered bytes decoded _ hAccepts.decode hAccepts.run)
  · exact hState
  · by_cases hNil : next.checkpoints = []
    · obtain ⟨hPayload, hNodes, -⟩ := hDeleted.cleared.mp hNil
      rw [InOrder, hPayload, hNodes]
      rfl
    · obtain ⟨hPayload, hNodes, -⟩ := hDeleted.untouched hNil
      rw [InOrder, hPayload, hNodes]
      exact hState
  · exact h.inOrder_compacted hPlan hState

/-- Over every run whose commits list their leaves in order, the leaves of the state stay so. -/
theorem inOrder_of_ordered {state : V2CommittedState}
    (hRun : Relation.ReflTransGen (OrderedStep sha256) .empty state) :
    Reached sha256 state ∧ InOrder state := by
  induction hRun with
  | refl => exact ⟨.refl, rfl⟩
  | tail _ hStep ih =>
    obtain ⟨hReached, hState⟩ := ih
    exact ⟨hReached.tail hStep.1, hStep.inOrder hReached.valid hState⟩

/-- Every state of a run whose commits list their leaves in order can be sealed when its snapshot
can be addressed. A reached state can be sealed in no other case than this one, that its leaves are
in order; and a commit that breaks the order leaves a state that cannot be sealed. -/
theorem sealable_in_order (sha256 : Bytes → Digest) :
    (∀ state, Relation.ReflTransGen (OrderedStep sha256) .empty state →
      exportLength sha256 state < width 64 → Sealable sha256 state) ∧
    (∀ state, Reached sha256 state →
      (Sealable sha256 state ↔ InOrder state ∧ exportLength sha256 state < width 64)) ∧
    ∀ state next bytes decoded ordinal, Reached sha256 state → InOrder state →
      decodeV2Commit sha256 bytes = .ok decoded →
      applyV2Commit sha256 bytes state = .ok (.applied ordinal) next →
      exportLength sha256 next < width 64 → (Sealable sha256 next ↔ ListsInOrder decoded) := by
  have hIff : ∀ state, Reached sha256 state →
      (Sealable sha256 state ↔ InOrder state ∧ exportLength sha256 state < width 64) := by
    intro state hReached
    obtain ⟨a, h⟩ := hReached.valid
    exact h.sealable_iff
  refine ⟨?_, hIff, ?_⟩
  · intro state hRun hLt
    obtain ⟨hReached, hOrder⟩ := inOrder_of_ordered hRun
    exact (hIff state hReached).mpr ⟨hOrder, hLt⟩
  · intro state next bytes decoded ordinal hReached hState hDecode hApply hLt
    obtain ⟨other, hAccepts, rfl⟩ := accepts_of_applied hApply
    have hSame := hAccepts.decode
    rw [hDecode] at hSame
    cases hSame
    rw [hIff _ (hReached.tail (.apply hApply)), inOrder_appended hAccepts hState,
      and_iff_left hLt]

/-- SHA-256 on the messages of one commit and of its image: the leaves of `XYZ` and of `abc`, the
branch over them, the state of the checkpoint, the transaction, the commit and the image. -/
def sampleV2Sha256 (message : Bytes) : Digest :=
  if message = v2LeafDomain ++ leBytes 8 3 ++ ascii "XYZ" then
    digestOfNat 0x851e6b7bd5c116d926e34f59a5fb217c25e7063246aee1d56fd7091a24ebf861
  else if message = v2LeafDomain ++ leBytes 8 3 ++ ascii "abc" then
    digestOfNat 0x631a198b7685ef4dfb1032c761262dc81d3f1c2b1e5e740f81f056e1b847d068
  else if v2BranchDomain <+: message then
    digestOfNat 0x4f6f4fc9213f22b2b4eb2e67e47f4ead5e75beddd8bcaa3abb257193323ed3a7
  else if v2StateDomain <+: message then
    digestOfNat 0x6aff88a0bc048782165d8e8867c32e6698b15bd3811e1655040bab85a674a633
  else if v2WalDomain <+: message then
    digestOfNat 0x42e69b95e50ab17fb0f9a58f8399207cd81cb75533243954ad2868e606ae38d6
  else if v2CommitDomain <+: message then
    digestOfNat 0x346c01fb4d85122ed1f50824983cb9ef3fa642f556a6f8c4951d36ef541d7a34
  else digestOfNat 0x7749c4112c9884677b3107302b617c03ed8a821ab0fcfcd6a9ae964080001030

/-- The root of the text `abcXYZ`. -/
def sampleV2Root : V2RootRecord :=
  ⟨2, 6, 2, digestOfNat 0x4f6f4fc9213f22b2b4eb2e67e47f4ead5e75beddd8bcaa3abb257193323ed3a7⟩

/-- A first transaction over the payload `abcXYZ`, with the leaf of `XYZ` in front of the one of
`abc`. -/
def sampleTransaction : V2WalTransaction where
  payload := ascii "abcXYZ"
  nodes := [
    ⟨1, 3, digestOfNat 0x851e6b7bd5c116d926e34f59a5fb217c25e7063246aee1d56fd7091a24ebf861, .leaf 3 3⟩,
    ⟨1, 3, digestOfNat 0x631a198b7685ef4dfb1032c761262dc81d3f1c2b1e5e740f81f056e1b847d068, .leaf 0 3⟩,
    ⟨2, 6, digestOfNat 0x4f6f4fc9213f22b2b4eb2e67e47f4ead5e75beddd8bcaa3abb257193323ed3a7,
      .branch 1 0 3⟩]
  versions := [⟨0, none, sampleV2Root⟩]
  checkpoint := ⟨1, "thread", "cp-1", none, 0, none, none,
    ⟨33, digestOfNat 0x6aff88a0bc048782165d8e8867c32e6698b15bd3811e1655040bab85a674a633⟩⟩

def sampleCommit : Bytes := commitBytes sampleV2Sha256 ⟨0, 0, 0, 0⟩ sampleTransaction none

/-- The commit with the leaf of `XYZ` in front of the one of `abc`, as it is decoded. -/
def sampleDecoded : V2DecodedCommit where
  encodedBase := ⟨0, 0, 0, 0⟩
  wal := ⟨sampleTransaction, ⟨6, 3, 1, 1⟩, sampleV2Sha256 v2WalDomain⟩
  requestId := none
  operationDigest := zeroDigest
  commitDigest := sampleV2Sha256 v2CommitDomain

theorem sampleDecoded_accepts : Accepts sampleV2Sha256 .empty sampleCommit sampleDecoded where
  decode := by decide +kernel
  status := by decide +kernel
  geometry := by decide +kernel
  checked := by decide +kernel

theorem not_listsInOrder_sample : ¬ ListsInOrder sampleDecoded := by
  rintro ⟨hOffset, -⟩
  exact absurd hOffset (by decide)

/-- The state behind the first commit of the run can be sealed, the one behind the commit with
exchanged leaves cannot. -/
theorem sealable_in_order_sample : Sealable sampleRunSha256 sampleFirstState ∧
    ¬ Sealable sampleV2Sha256 (V2CommittedState.empty.appended sampleDecoded) := by
  refine ⟨(sealable_in_order sampleRunSha256).1 sampleFirstState ?_ (by decide +kernel), ?_⟩
  · refine .single ⟨.apply sampleFirst_accepts.run, ?_⟩
    intro bytes decoded ordinal hDecode hApply
    obtain ⟨other, hAccepts, hNext⟩ := accepts_of_applied hApply
    have hSame := hAccepts.decode
    rw [hDecode] at hSame
    cases hSame
    rw [← inOrder_appended hAccepts rfl, ← hNext]
    exact ⟨rfl, rfl⟩
  · rw [(sealable_in_order sampleV2Sha256).2.2 .empty _ sampleCommit sampleDecoded 0 .refl rfl
      sampleDecoded_accepts.decode sampleDecoded_accepts.run (by decide +kernel)]
    exact not_listsInOrder_sample

/-- A reached state that cannot be sealed. -/
theorem not_sealable_reached : ¬ ∀ (sha256 : Bytes → Digest) (state : V2CommittedState),
    Reached sha256 state → Sealable sha256 state := by
  intro h
  have hReached : Reached sampleV2Sha256 (V2CommittedState.empty.appended sampleDecoded) :=
    .single (.apply sampleDecoded_accepts.run)
  have hSealable := h sampleV2Sha256 _ hReached
  obtain ⟨a, hOk⟩ := hReached.valid
  obtain ⟨hOffset, -⟩ := (hOk.sealable_iff.mp hSealable).1
  exact absurd hOffset (by decide)

end Sealable

end TulyaStore.V2
