import TulyaStore.Sequence.BackendRuns
import TulyaStore.Sequence.Runs
import TulyaStore.Sequence.Tiling

/-!
# The bytes behind persistent roots

A persistent root names a node of the arena; `bytesOf` is what it stands for there. A splice gives
a root for the edited bytes of its parent (`spliceOn_edits`), and a grown arena has the bytes of
all its old roots.
-/

namespace TulyaStore.Sequence

open Lib V2AvlSequence

/-- The bytes with `deleteLen` of them at `offset` replaced. -/
def editBytes (old : Bytes) (offset deleteLen : Nat) (insert : Bytes) : Bytes :=
  old.take offset ++ insert ++ old.drop (offset + deleteLen)

/-- What a persistent root stands for in the arena. -/
def bytesOf (a : V2AvlSequence) (root : PersistentRoot) : Option Bytes :=
  match (SequenceBackend.memory a).resolve root with
  | .ok canonical => content a canonical
  | .error _ => none

/-- What a splice edits; a root version starts from nothing. -/
def parentBytes (a : V2AvlSequence) (parent : Option PersistentRoot) : Option Bytes :=
  match parent with
  | some root => bytesOf a root
  | none => some []

variable {sha256 : Bytes → Digest} {a b : V2AvlSequence} {t : Rope UInt8} {root : V2RootRecord}

theorem bytesOf_denotes (h : Denotes sha256 a t root) :
    bytesOf a (.balancedV2 root.nodeId root.logicalLen) = some t.toList := by
  rw [bytesOf, resolve_denotes h]
  exact content_of_denotes h

theorem bytesOf_grows (h : Denotes sha256 a t root) (hGrows : Grows a b) :
    bytesOf b (.balancedV2 root.nodeId root.logicalLen) =
      bytesOf a (.balancedV2 root.nodeId root.logicalLen) := by
  rw [bytesOf_denotes h, bytesOf_denotes (h.grows hGrows)]

/-- The resolved parent of a splice and its bytes. -/
theorem parentBytes_resolved {parent : Option PersistentRoot}
    {resolved : Option V2RootRecord}
    (hResolved : (SequenceBackend.memory a).resolveParent parent = .ok resolved)
    (hDenotes : ∀ root, resolved = some root → ∃ t, Denotes sha256 a t root) :
    ∃ old, parentBytes a parent = some old ∧ old.length = resolved.elim 0 V2RootRecord.logicalLen ∧
      ∀ root, resolved = some root → ∃ t, Denotes sha256 a t root ∧ t.toList = old := by
  cases parent with
  | none =>
    cases hResolved
    refine ⟨[], rfl, rfl, ?_⟩
    intro root hSome
    cases hSome
  | some root =>
    simp only [SequenceBackend.resolveParent, bind_eq_ok, pure_eq_ok] at hResolved
    obtain ⟨canonical, hResolve, rfl⟩ := hResolved
    obtain ⟨t, hRoot⟩ := hDenotes canonical rfl
    refine ⟨t.toList, ?_, hRoot.logicalLen.symm, ?_⟩
    · rw [parentBytes, bytesOf, hResolve]
      exact content_of_denotes hRoot
    · intro other hSome
      cases hSome
      exact ⟨t, hRoot, rfl⟩

/-- The root of a splice stands for the edited bytes. -/
theorem spliceOn_edits (hWf : WellFormed sha256 a) {parent : Option V2RootRecord}
    {offset deleteLen : Nat} {insert old : Bytes} {result : V2SpliceResult}
    (hRun : spliceOn sha256 parent offset deleteLen insert a = .ok result b)
    (hLen : old.length = parent.elim 0 V2RootRecord.logicalLen)
    (hOld : ∀ root, parent = some root → ∃ t, Denotes sha256 a t root ∧ t.toList = old) :
    ∃ t, Denotes sha256 b t result.root ∧ t.toList = editBytes old offset deleteLen insert := by
  have hOf : ∀ bytes, Spliced sha256 a parent offset deleteLen insert bytes →
      ∃ t, Denotes sha256 b t result.root ∧ t.toList = bytes := by
    intro bytes hSpliced
    rcases hSpliced with ⟨result', b', t, hRun', -, -, hDenotes, hList⟩ | ⟨e, hRun', -⟩
    · rw [hRun] at hRun'
      cases hRun'
      exact ⟨t, hDenotes, hList⟩
    · rw [hRun] at hRun'
      cases hRun'
  cases parent with
  | none =>
    have hNone : old = [] := List.length_eq_zero_iff.mp hLen
    rcases spliceOn_none_outcome hWf offset deleteLen insert with
      ⟨-, hSpliced⟩ | ⟨-, e, -, hRun'⟩
    · obtain ⟨t, hDenotes, hList⟩ := hOf _ hSpliced
      refine ⟨t, hDenotes, ?_⟩
      rw [hList, editBytes, hNone, List.take_nil, List.drop_nil, List.nil_append, List.append_nil]
    · rw [hRun] at hRun'
      cases hRun'
  | some root =>
    obtain ⟨t, hRoot, hList⟩ := hOld root rfl
    rcases spliceOn_some_outcome hWf hRoot offset deleteLen insert with
      ⟨-, hSpliced⟩ | ⟨-, e, -, hRun'⟩
    · rw [hList] at hSpliced
      exact hOf _ hSpliced
    · rw [hRun] at hRun'
      cases hRun'

/-! ## Roots of files -/

section Mirrored

variable {A : Type} [ArenaStore A] {x : A}

theorem Mirrors.verifyNodeOn (h : Mirrors x a) (fuel : Nat) {root : V2RootRecord}
    {visited count : Nat} (hOk : verifyNodeOn sha256 a fuel root visited = .ok count) :
    Sequence.verifyNodeOn sha256 x fuel root visited = .ok count := by
  induction fuel generalizing root visited count with
  | zero => cases hOk
  | succ fuel ih =>
    simp only [Sequence.verifyNodeOn, bind_eq_ok] at hOk
    obtain ⟨node, hNode, _, hValid, hRest⟩ := hOk
    simp only [Sequence.verifyNodeOn, h.nodeForRootOn hNode, h.validateNodeOn hValid, ok_bind]
    cases node with
    | leaf payloadOffset payloadLen record => exact hRest
    | branch left right record =>
      obtain ⟨middle, hLeft, hRight⟩ := bind_eq_ok.mp hRest
      dsimp only
      rw [ih hLeft, ok_bind]
      exact ih hRight

end Mirrored

/-- A read of a root in files that represent the arena gives a range of its bytes. -/
theorem Represents.readRange_ok {store : PhysicalContentStore} (h : Represents store a)
    (hWf : WellFormed sha256 a) (hAddressable : Addressable a) (hDenotes : Denotes sha256 a t root)
    (offset length : Nat) :
    (SequenceBackend.physical store).readRange sha256 (.balancedV2 root.nodeId root.logicalLen)
      offset
      length = liftAvl (rangeOf t.toList offset length) := by
  have hMirrors := h.mirrors hWf hAddressable
  have hResolve := h.resolve_ok hWf hAddressable (resolve_denotes hDenotes)
  simp only [SequenceBackend.readRange, hResolve, ok_bind]
  rw [hMirrors.readRange hDenotes, readRange_eq hDenotes]

theorem Represents.verify_ok {store : PhysicalContentStore} (h : Represents store a)
    (hWf : WellFormed sha256 a) (hAddressable : Addressable a)
    (hDenotes : Denotes sha256 a t root) :
    (SequenceBackend.physical store).verify sha256 (.balancedV2 root.nodeId root.logicalLen) =
      .ok () := by
  have hMirrors := h.mirrors hWf hAddressable
  have hResolve := h.resolve_ok hWf hAddressable (resolve_denotes hDenotes)
  obtain ⟨count, hCount⟩ := verifyNodeOn_ok root.height 0 hDenotes
    (Nat.le_of_eq hDenotes.height.symm)
  have hVerify : verifyRoot sha256 store root = .ok () := by
    rw [verifyRoot, verifyRootCountedOn, hMirrors.verifyNodeOn root.height hCount]
    rfl
  simp only [SequenceBackend.verify, hResolve, ok_bind, hVerify]
  rfl

end TulyaStore.Sequence
