import TulyaStore.Lib.Codec
import TulyaStore.V2.SnapshotDecode

/-!
# The record formats are canonical

Every nested format of the V2 store is a canonical codec: nodes, roots, versions, checkpoints,
transactions, commits and sealed snapshots. Node and root records are opaque outside of their
module, so their values are the ones its constructors and decoders build (`BuiltNode`,
`BuiltRoot`). A sealed snapshot comes back with its ledgers sorted.
-/

namespace TulyaStore.V2

open Lib Sequence

/-! ## The values of the opaque records -/

mutual

/-- The node records that can be built. -/
inductive BuiltNode (sha256 : Bytes → Digest) : V2NodeRecord → Prop
  | leaf {payloadOffset : Nat} {payload : Bytes} {node : V2NodeRecord} :
      V2NodeRecord.leaf sha256 payloadOffset payload = .ok node → BuiltNode sha256 node
  | branch {left right : V2RootRecord} {node : V2NodeRecord} :
      BuiltRoot sha256 left → BuiltRoot sha256 right →
      V2NodeRecord.branch sha256 left right = .ok node → BuiltNode sha256 node
  | decoded {bytes : Bytes} {node : V2NodeRecord} :
      decodeV2Node bytes = .ok node → BuiltNode sha256 node

/-- The root records that can be built. Identifiers of nodes are integers of 64 bits. -/
inductive BuiltRoot (sha256 : Bytes → Digest) : V2RootRecord → Prop
  | fromNode {nodeId : Nat} {node : V2NodeRecord} {root : V2RootRecord} :
      nodeId < width 64 → BuiltNode sha256 node → V2RootRecord.fromNode nodeId node = .ok root →
      BuiltRoot sha256 root
  | decoded {bytes : Bytes} {root : V2RootRecord} :
      decodeV2Root bytes = .ok root → BuiltRoot sha256 root

end

variable {sha256 : Bytes → Digest}

mutual

/-- What can be built is what the decoder accepts. -/
theorem BuiltNode.canonical {node : V2NodeRecord} : BuiltNode sha256 node → node.Canonical
  | .leaf h => canonical_of_leaf h
  | .branch hLeft hRight h =>
    canonical_of_branch (BuiltRoot.fits hLeft).nodeId (BuiltRoot.fits hRight).nodeId h
  | .decoded h => (decodeV2Node_eq_ok.mp h).1

theorem BuiltRoot.fits {root : V2RootRecord} : BuiltRoot sha256 root → root.Fits
  | .fromNode hId hNode h => V2RootRecord.fits_of_fromNode hId (BuiltNode.canonical hNode) h
  | .decoded h => (decodeV2Root_eq_ok.mp h).1

end

/-! ## The formats -/

theorem node_codec : CanonicalCodec (ε := V2FormatError) (BuiltNode sha256) id
    (fun node => .ok (encodeV2Node node)) decodeV2Node :=
  .of_decode_iff (fun bytes node => by rw [decodeV2Node_eq_ok, Except.ok.injEq, eq_comm (a := bytes)])
    fun node _ h _ => h.canonical

theorem root_codec : CanonicalCodec (ε := V2FormatError) (BuiltRoot sha256) id
    (fun root => .ok (encodeV2Root root)) decodeV2Root :=
  .of_decode_iff (fun bytes root => by rw [decodeV2Root_eq_ok, Except.ok.injEq, eq_comm (a := bytes)])
    fun root _ h _ => h.fits

/-- The values of a version record with a given identifier. -/
def VersionValue (sha256 : Bytes → Digest) (versionId : Nat) (record : V2VersionRecord) : Prop :=
  record.versionId = versionId ∧ versionId < width 32 ∧ BuiltRoot sha256 record.root

theorem version_codec (versionId : Nat) : CanonicalCodec (VersionValue sha256 versionId) id
    encodeV2Version (decodeV2Version · versionId) := by
  refine CanonicalCodec.of_decode_iff (P := fun record => record.Fits ∧ record.versionId = versionId)
    (fun bytes record => by rw [decodeV2Version_eq_ok, and_assoc]) ?_
  rintro record bytes ⟨hId, hLt, hRoot⟩ -
  exact ⟨⟨hId ▸ hLt, hRoot.fits⟩, hId⟩

/-- The values of a checkpoint record over a number of versions: the integers have their widths and
the versions exist. -/
def CheckpointValue (versionCount : Nat) (record : V2CheckpointRecord) : Prop :=
  record.Fits ∧ record.Below versionCount

theorem checkpoint_codec (versionCount : Nat) : CanonicalCodec (CheckpointValue versionCount) id
    encodeV2Checkpoint (decodeV2Checkpoint · versionCount) :=
  .of_decode_iff (fun bytes record => by rw [decodeV2Checkpoint_eq_ok, ← and_assoc]; rfl)
    fun _ _ h _ => h

theorem wal_codec {base : V2WalGeometry} (hBase : base.Fits) :
    CanonicalCodec (fun _ => True) id (encodeV2WalTransaction sha256 base)
      (fun bytes => (decodeV2WalTransaction sha256 bytes base).map
        V2DecodedWalTransaction.transaction) := by
  refine .intro (fun transaction bytes _ h => ?_) fun bytes transaction h => ?_
  · obtain ⟨⟨next, hValid⟩, -, -⟩ := encodeV2WalTransaction_eq_ok.mp h
    have hDecode : decodeV2WalTransaction sha256 bytes base =
        .ok ⟨transaction, next, walDigest sha256 base transaction⟩ :=
      (decodeV2WalTransaction_eq_ok hBase).mpr ⟨h, hValid, rfl⟩
    rw [hDecode]
    rfl
  · obtain ⟨decoded, hDecode, rfl⟩ := map_eq_ok.mp h
    exact ((decodeV2WalTransaction_eq_ok hBase).mp hDecode).1

/-- What a commit carries. -/
abbrev CommitValue : Type := V2WalGeometry × V2WalTransaction × Option Bytes

def V2DecodedCommit.value (commit : V2DecodedCommit) : CommitValue :=
  (commit.encodedBase, commit.wal.transaction, commit.requestId)

theorem commit_codec : CanonicalCodec (fun value : CommitValue => value.1.Fits) id
    (fun value => encodeV2Commit sha256 value.1 value.2.1 value.2.2)
    (fun bytes => (decodeV2Commit sha256 bytes).map V2DecodedCommit.value) := by
  refine .intro (fun value bytes hBase h => ?_) fun bytes value h => ?_
  · obtain ⟨base, transaction, requestId⟩ := value
    obtain ⟨-, ⟨next, hValid⟩, -⟩ := encodeV2Commit_eq_ok.mp h
    let commit : V2DecodedCommit := ⟨base, ⟨transaction, next, walDigest sha256 base transaction⟩,
      requestId, commitOperation sha256 requestId transaction.checkpoint,
      commitDigestOf sha256 base transaction requestId⟩
    have hDecode : decodeV2Commit sha256 bytes = .ok commit :=
      decodeV2Commit_eq_ok.mpr ⟨hBase, h, hValid, rfl, rfl, rfl⟩
    rw [hDecode]
    rfl
  · obtain ⟨commit, hDecode, rfl⟩ := map_eq_ok.mp h
    exact (decodeV2Commit_eq_ok.mp hDecode).2.1

/-- The values of a sealed snapshot: the ordinals of checkpoints are integers of 32 bits. -/
def SnapshotValue (snapshot : V2SealedSnapshot) : Prop :=
  ∀ checkpoint ∈ snapshot.checkpoints, checkpoint.checkpointNo < width 32

theorem snapshot_codec : CanonicalCodec SnapshotValue V2SealedSnapshot.sorted
    (encodeV2SealedSnapshot sha256) (decodeV2SealedSnapshot sha256) := by
  refine .intro (fun snapshot bytes hValue h => ?_) fun bytes snapshot h => ?_
  · obtain ⟨hValid, hTotal, hBytes⟩ := encodeV2SealedSnapshot_eq_ok.mp h
    have hSorted := hValid.sorted_sorted
    refine decodeV2SealedSnapshot_eq_ok.mpr ⟨hValue, hSorted, ?_⟩
    rw [encodeV2SealedSnapshot_eq_ok, hSorted.sorted_eq]
    exact ⟨hValid.sorted, hTotal, hBytes⟩
  · exact (decodeV2SealedSnapshot_eq_ok.mp h).2.2

/-- Every format of the V2 store is canonical. -/
theorem formats_canonical (sha256 : Bytes → Digest) :
    CanonicalCodec (ε := V2FormatError) (BuiltNode sha256) id (fun node => .ok (encodeV2Node node))
      decodeV2Node ∧
    CanonicalCodec (ε := V2FormatError) (BuiltRoot sha256) id (fun root => .ok (encodeV2Root root))
      decodeV2Root ∧
    (∀ versionId, CanonicalCodec (VersionValue sha256 versionId) id encodeV2Version
      (decodeV2Version · versionId)) ∧
    (∀ versionCount, CanonicalCodec (CheckpointValue versionCount) id encodeV2Checkpoint
      (decodeV2Checkpoint · versionCount)) ∧
    (∀ base : V2WalGeometry, base.Fits → CanonicalCodec (fun _ => True) id
      (encodeV2WalTransaction sha256 base) (fun bytes =>
        (decodeV2WalTransaction sha256 bytes base).map V2DecodedWalTransaction.transaction)) ∧
    CanonicalCodec (fun value : CommitValue => value.1.Fits) id
      (fun value => encodeV2Commit sha256 value.1 value.2.1 value.2.2)
      (fun bytes => (decodeV2Commit sha256 bytes).map V2DecodedCommit.value) ∧
    CanonicalCodec SnapshotValue V2SealedSnapshot.sorted (encodeV2SealedSnapshot sha256)
      (decodeV2SealedSnapshot sha256) :=
  ⟨node_codec, root_codec, version_codec, checkpoint_codec, fun _ => wal_codec, commit_codec,
    snapshot_codec⟩

end TulyaStore.V2
