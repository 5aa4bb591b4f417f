import TulyaStore.Sequence.CompactionSpec
import TulyaStore.V2.SnapshotValid
import TulyaStore.V2.State

/-!
# Valid states

`StateOk` says what holds of a committed state between two transitions: payload and nodes are those
of a well-formed arena whose leaves share no byte, every version names a root of the arena, the
checkpoint table is the one a snapshot may carry, and the index and the ledgers agree with it.
-/

namespace TulyaStore.V2

open Lib Sequence
open Sequence.V2AvlSequence

section Valid

variable (sha256 : Bytes → Digest)

/-- The index, the deleted keys and the requests of a state. -/
structure LedgersOk (state : V2CommittedState) : Prop where
  ordinals : state.checkpointOrdinals = KeyMap.indexOf (checkpointKeys state.checkpoints)
  count : state.checkpoints.length < width 64
  deleted : ∀ key, state.deletedCheckpoints.containsKey key = true →
    IdentifierOk (ofLex key).1 ∧ IdentifierOk (ofLex key).2 ∧
      key ∉ checkpointKeys state.checkpoints
  active : ∀ id record, state.requestRecords.get id = some record →
    LedgerIdOk id ∧ state.retiredRequests.get id = none ∧
      ∃ checkpoint, state.checkpoints[record.checkpointOrdinal]? = some checkpoint ∧
        operationDigestOf sha256 checkpoint = record.operationDigest
  retired : ∀ id digest, state.retiredRequests.get id = some digest → LedgerIdOk id

/-- A state over the arena `a`. -/
structure StateOk (a : V2AvlSequence) (state : V2CommittedState) : Prop where
  payload : a.payload = state.payload
  nodes : records a = state.nodes
  wellFormed : WellFormed sha256 a
  apart : (leafRanges a.nodes).Pairwise Apart
  payload_lt : a.payload.length < width 64
  nodes_lt : a.nodes.length < width 64
  versions_le : state.versions.length ≤ v2NoneVersion
  numbered : VersionsNumbered state.versions
  roots : ∀ version ∈ state.versions, ∃ t, Denotes sha256 a t version.root
  table : CheckpointTable sha256 state.versions state.checkpoints
  numbers : ∀ checkpoint ∈ state.checkpoints, checkpoint.checkpointNo < width 32
  cleared : state.checkpoints = [] →
    state.payload = [] ∧ state.nodes = [] ∧ state.versions = []
  ledgers : LedgersOk sha256 state

theorem stateOk_empty : StateOk sha256 V2AvlSequence.empty .empty where
  payload := rfl
  nodes := rfl
  wellFormed := fun i node h => by cases h
  apart := List.Pairwise.nil
  payload_lt := Nat.two_pow_pos 64
  nodes_lt := Nat.two_pow_pos 64
  versions_le := Nat.zero_le _
  numbered := fun i version h => by cases h
  roots := fun version h => absurd h List.not_mem_nil
  table := {
    valid := fun checkpoint h => absurd h List.not_mem_nil
    state := fun checkpoint h => absurd h List.not_mem_nil
    parent := fun i checkpoint h => by cases h
    nodup := List.nodup_nil }
  numbers := fun checkpoint h => absurd h List.not_mem_nil
  cleared := fun _ => ⟨rfl, rfl, rfl⟩
  ledgers := {
    ordinals := rfl
    count := Nat.two_pow_pos 64
    deleted := fun key h => by cases h
    active := fun id record h => by cases h
    retired := fun id digest h => by cases h }

end Valid

section Facts

variable {sha256 : Bytes → Digest} {a : V2AvlSequence} {state : V2CommittedState}

/-- A live key stands at one place of the table. -/
theorem LedgersOk.get_ordinal (h : LedgersOk sha256 state)
    (hNodup : (checkpointKeys state.checkpoints).Nodup) {key : V2CheckpointKey} {i : Nat} :
    state.checkpointOrdinals.get key = some i ↔
      ∃ checkpoint, state.checkpoints[i]? = some checkpoint ∧ checkpoint.key = key := by
  rw [h.ordinals, KeyMap.get_indexOf hNodup, checkpointKeys, List.getElem?_map,
    Option.map_eq_some_iff]

theorem LedgersOk.containsKey_ordinals (h : LedgersOk sha256 state)
    (hNodup : (checkpointKeys state.checkpoints).Nodup) {key : V2CheckpointKey} :
    state.checkpointOrdinals.containsKey key = true ↔ key ∈ checkpointKeys state.checkpoints := by
  rw [h.ordinals, KeyMap.containsKey_indexOf hNodup]

theorem StateOk.geometry (h : StateOk sha256 a state) : state.geometry =
    .ok ⟨state.payload.length, state.nodes.length, state.versions.length,
      state.checkpoints.length⟩ := by
  have hNone : v2NoneVersion + 1 = width 32 := by decide
  have hWidth : width 32 < width 64 := by decide
  have hPayload := h.payload_lt
  have hNodes := h.nodes_lt
  have hVersions := h.versions_le
  rw [h.payload] at hPayload
  rw [← List.length_map (f := ArenaNode.record)] at hNodes
  change (records a).length < _ at hNodes
  rw [h.nodes] at hNodes
  rw [V2CommittedState.geometry, tryFrom_of_lt hPayload, okOr_some, ok_bind, tryFrom_of_lt hNodes,
    okOr_some, ok_bind, tryFrom_of_lt (by omega), okOr_some, ok_bind,
    tryFrom_of_lt h.ledgers.count, okOr_some, ok_bind]
  rfl

theorem geometry_eq_ok {geometry : V2WalGeometry} (h : state.geometry = .ok geometry) :
    geometry = ⟨state.payload.length, state.nodes.length, state.versions.length,
      state.checkpoints.length⟩ := by
  simp only [V2CommittedState.geometry, bind_eq_ok, okOr_eq_ok, tryFrom_eq_some, pure_eq_ok] at h
  obtain ⟨_, ⟨-, rfl⟩, _, ⟨-, rfl⟩, _, ⟨-, rfl⟩, _, ⟨-, rfl⟩, rfl⟩ := h
  rfl

end Facts

end TulyaStore.V2
