import TulyaStore.Lib.Runs
import TulyaStore.Sequence.Atomicity
import TulyaStore.Sequence.Reads

/-!
# Runs of the in-memory sequence

A run makes any calls of `splice` and `append`, on any roots at all, on an arena that
starts empty, and collects the roots the successful calls return. `Reached` is the
invariant of such runs: the arena is well formed and every returned root stands for a rope.

`content` is what a root holds, read off the arena without any check: the concatenation of
its leaves from left to right. The two results about runs are stated with it:

* `splice_contract`: which splices of a returned root succeed and what their result holds;
* `splice_persistence`: failed calls change nothing, successful calls append, and no
  returned root ever changes its content, its range reads or its verification.
-/

namespace TulyaStore.Sequence

open Lib ArenaStore V2AvlSequence

/-! ## The content of a root -/

/-- The bytes of the leaves under `root` in order, down to `depth` levels. -/
def leafBytes (a : V2AvlSequence) : Nat → V2RootRecord → Option Bytes
  | 0, _ => none
  | depth + 1, root =>
    match a.nodes[root.nodeId]? with
    | none => none
    | some (.leaf offset len _) => slice a.payload offset (offset + len)
    | some (.branch left right _) => do
      let leftBytes ← leafBytes a depth left
      let rightBytes ← leafBytes a depth right
      return leftBytes ++ rightBytes

/-- The concatenation of the leaves of a root. -/
def content (a : V2AvlSequence) (root : V2RootRecord) : Option Bytes := leafBytes a root.height root

theorem leafBytes_of_denotes {sha256 : Bytes → Digest} {a : V2AvlSequence} {t : Rope UInt8}
    {root : V2RootRecord} {depth : Nat} (h : Denotes sha256 a t root) (hDepth : t.height ≤ depth) :
    leafBytes a depth root = some t.toList := by
  induction t generalizing root depth with
  | leaf bytes =>
    obtain ⟨-, offset, record, hNode, hSlice, -, -⟩ := h
    obtain ⟨depth, rfl⟩ : ∃ k, depth = k + 1 := ⟨depth - 1, by simp at hDepth; omega⟩
    simp [leafBytes, hNode, hSlice]
  | node l r ihl ihr =>
    obtain ⟨-, left, right, record, hNode, -, -, -, -, hl, hr⟩ := h
    rw [Rope.height_node] at hDepth
    obtain ⟨depth, rfl⟩ : ∃ k, depth = k + 1 := ⟨depth - 1, by omega⟩
    have hLeft : leafBytes a depth left = some l.toList := ihl hl (by omega)
    have hRight : leafBytes a depth right = some r.toList := ihr hr (by omega)
    simp [leafBytes, hNode, hLeft, hRight]

theorem content_of_denotes {sha256 : Bytes → Digest} {a : V2AvlSequence} {t : Rope UInt8}
    {root : V2RootRecord} (h : Denotes sha256 a t root) : content a root = some t.toList :=
  leafBytes_of_denotes h (Nat.le_of_eq h.height.symm)

/-! ## Runs -/

inductive SequenceCall where
  | splice (parent : Option V2RootRecord) (offset deleteLen : Nat) (insert : Bytes)
  | append (parent : Option V2RootRecord) (bytes : Bytes)

/-- The arena and every root returned so far, the oldest first. -/
structure SequenceRun where
  arena : V2AvlSequence
  returned : List V2RootRecord

section Runs

variable (sha256 : Bytes → Digest)

/-- One call: the new root and the arena it leaves. -/
def performCall (call : SequenceCall) : EStateM V2AvlError V2AvlSequence V2RootRecord :=
  match call with
  | .splice parent offset deleteLen insert => do
    let result ← spliceOn sha256 parent offset deleteLen insert
    return result.root
  | .append parent bytes => do
    let result ← appendOn sha256 parent bytes
    return result.root

def callStep (run : SequenceRun) (call : SequenceCall) : SequenceRun :=
  match performCall sha256 call run.arena with
  | .ok root arena => ⟨arena, run.returned ++ [root]⟩
  | .error _ arena => ⟨arena, run.returned⟩

def runCalls (calls : List SequenceCall) : SequenceRun :=
  calls.foldl (callStep sha256) ⟨empty, []⟩

/-- The invariant of runs. -/
structure Reached (run : SequenceRun) : Prop where
  wellFormed : WellFormed sha256 run.arena
  denotes : ∀ root ∈ run.returned, ∃ t, Denotes sha256 run.arena t root

end Runs

section Invariant

variable {sha256 : Bytes → Digest}

/-- An append is a splice at the end of its parent. -/
theorem performCall_append (parent : Option V2RootRecord) (bytes : Bytes) :
    performCall sha256 (.append parent bytes) =
      performCall sha256 (.splice parent (parent.elim 0 V2RootRecord.logicalLen) 0 bytes) := by
  funext a
  simp only [performCall, appendOn, bind, EStateM.bind]
  cases spliceOn sha256 parent (parent.elim 0 V2RootRecord.logicalLen) 0 bytes a <;> rfl

/-- What one call does: it fails and leaves the arena, or it appends and returns a root. -/
theorem performCall_cases (sha256 : Bytes → Digest) (call : SequenceCall) (a : V2AvlSequence) :
    (∃ root b, performCall sha256 call a = .ok root b ∧ Grows a b ∧
      (WellFormed sha256 a → WellFormed sha256 b ∧ ∃ t, Denotes sha256 b t root)) ∨
    ∃ e, performCall sha256 call a = .error e a := by
  have hSplice : ∀ parent offset deleteLen insert,
      (∃ root b, performCall sha256 (.splice parent offset deleteLen insert) a = .ok root b ∧
        Grows a b ∧
        (WellFormed sha256 a → WellFormed sha256 b ∧ ∃ t, Denotes sha256 b t root)) ∨
      ∃ e, performCall sha256 (.splice parent offset deleteLen insert) a = .error e a := by
    intro parent offset deleteLen insert
    simp only [performCall, bind, EStateM.bind]
    rcases spliceOn_cases sha256 a parent offset deleteLen insert with
      ⟨result, b, hRun, hGrows⟩ | ⟨e, hRun⟩
    · refine Or.inl ⟨result.root, b, by rw [hRun]; rfl, hGrows, ?_⟩
      intro hWf
      exact (spliceOn_wellFormed hWf hRun).2
    · exact Or.inr ⟨e, by rw [hRun]⟩
  cases call with
  | splice parent offset deleteLen insert => exact hSplice _ _ _ _
  | append parent bytes =>
    rw [performCall_append]
    exact hSplice _ _ _ _

theorem reached_empty : Reached sha256 ⟨empty, []⟩ where
  wellFormed i node h := by simp [empty] at h
  denotes root h := by simp at h

theorem Reached.step {run : SequenceRun} (h : Reached sha256 run) (call : SequenceCall) :
    Reached sha256 (callStep sha256 run call) ∧
      Grows run.arena (callStep sha256 run call).arena := by
  unfold callStep
  rcases performCall_cases sha256 call run.arena with ⟨root, b, hRun, hGrows, hNew⟩ | ⟨e, hRun⟩
  · rw [hRun]
    obtain ⟨hWf, t, hDenotes⟩ := hNew h.wellFormed
    refine ⟨⟨hWf, ?_⟩, hGrows⟩
    intro root' hMem
    rcases List.mem_append.mp hMem with hMem | hMem
    · obtain ⟨t', ht'⟩ := h.denotes root' hMem
      exact ⟨t', ht'.grows hGrows⟩
    · rw [List.mem_singleton.mp hMem]
      exact ⟨t, hDenotes⟩
  · rw [hRun]
    exact ⟨h, Grows.refl _⟩

theorem reached_runCalls (sha256 : Bytes → Digest) (calls : List SequenceCall) : Reached sha256 (runCalls sha256 calls) :=
  run_invariant (fun _ call h => (h.step call).1) reached_empty calls

theorem runCalls_grows (calls later : List SequenceCall) :
    Grows (runCalls sha256 calls).arena (runCalls sha256 (calls ++ later)).arena := by
  unfold runCalls
  rw [List.foldl_append]
  exact run_related (I := Reached sha256) (R := fun s t => Grows s.arena t.arena)
    (fun _ => Grows.refl _) (fun _ _ _ h h' => h.trans h')
    (fun _ call h => (h.step call).1) (fun _ call h => (h.step call).2)
    (reached_runCalls sha256 calls) later

end Invariant

/-! ## Splices of a returned root -/

/-- The call does not stop for want of a node identifier or a payload offset. -/
def HasRoom (sha256 : Bytes → Digest) (a : V2AvlSequence) (parent : Option V2RootRecord)
    (offset deleteLen : Nat) (insert : Bytes) : Prop :=
  ∀ e b, spliceOn sha256 parent offset deleteLen insert a = .error e b → ¬ e.Exhausted

/-- Errors that would show a broken tree. -/
def internalErrors : List V2AvlError := [
  .format (.invalid "v2 sequence branch children are not AVL-balanced"),
  .invalid "v2 AVL traversal expected a branch node",
  .format (.overflow "v2 sequence branch height exceeds u16"),
  .invalid "v2 sequence splice produced an empty root"]

theorem not_internal_of_rejection {e : V2AvlError} (h : e ∈ spliceRejections) :
    e ∉ internalErrors := by
  revert e
  decide

theorem not_internal_of_exhausted {e : V2AvlError} (h : e.Exhausted) : e ∉ internalErrors := by
  rcases h with rfl | rfl | rfl | rfl <;> decide

theorem not_exhausted_of_rejection {e : V2AvlError} (h : e ∈ spliceRejections) :
    ¬ e.Exhausted := by
  revert e
  decide

section Contract

variable {sha256 : Bytes → Digest} {a : V2AvlSequence} {parent : Option V2RootRecord}
  {offset deleteLen : Nat} {insert C : Bytes} {P : Prop}

/-- A splice whose outcome is known, seen from the caller: `P` says which coordinates are
accepted and `C` what the new root holds. -/
structure Contract (sha256 : Bytes → Digest) (a : V2AvlSequence) (parent : Option V2RootRecord)
    (offset deleteLen : Nat) (insert : Bytes) (P : Prop) (C : Bytes) : Prop where
  /-- With room in the arena, success is decided by the coordinates. -/
  ok_iff : HasRoom sha256 a parent offset deleteLen insert →
    ((∃ result b, spliceOn sha256 parent offset deleteLen insert a = .ok result b) ↔ P)
  /-- A new root holds the spliced content. -/
  content_eq : ∀ result b, spliceOn sha256 parent offset deleteLen insert a = .ok result b →
    content b result.root = some C
  /-- No error shows a broken tree. -/
  not_internal : ∀ e b, spliceOn sha256 parent offset deleteLen insert a = .error e b →
    e ∉ internalErrors
  /-- Room is only wanting when the edit filled the arena up. -/
  full : ¬ HasRoom sha256 a parent offset deleteLen insert →
    (editedArena sha256 a parent offset deleteLen insert).Full

theorem contract_of_spliced (hP : P) (h : Spliced sha256 a parent offset deleteLen insert C) :
    Contract sha256 a parent offset deleteLen insert P C := by
  rcases h with ⟨result, b, t, hRun, -, -, hDenotes, rfl⟩ | ⟨e, hRun, hExhausted, hFull⟩
  · refine ⟨fun _ => ⟨fun _ => hP, fun _ => ⟨result, b, hRun⟩⟩, ?_, ?_, ?_⟩
    · intro result' b' hRun'
      rw [hRun] at hRun'
      cases hRun'
      exact content_of_denotes hDenotes
    · intro e b' hRun'
      rw [hRun] at hRun'
      cases hRun'
    · intro hNot
      refine (hNot ?_).elim
      intro e b' hRun'
      rw [hRun] at hRun'
      cases hRun'
  · refine ⟨fun hRoom => (hRoom e a hRun hExhausted).elim, ?_, ?_, fun _ => hFull⟩
    · intro result' b' hRun'
      rw [hRun] at hRun'
      cases hRun'
    · intro e' b' hRun'
      rw [hRun] at hRun'
      cases hRun'
      exact not_internal_of_exhausted hExhausted

theorem contract_of_rejected (hP : ¬ P) {e : V2AvlError} (hMem : e ∈ spliceRejections)
    (hRun : spliceOn sha256 parent offset deleteLen insert a = .error e a) :
    Contract sha256 a parent offset deleteLen insert P C := by
  refine ⟨fun _ => ⟨?_, fun h => (hP h).elim⟩, ?_, ?_, ?_⟩
  · rintro ⟨result, b, hOk⟩
    rw [hRun] at hOk
    cases hOk
  · intro result b hOk
    rw [hRun] at hOk
    cases hOk
  · intro e' b hErr
    rw [hRun] at hErr
    cases hErr
    exact not_internal_of_rejection hMem
  · intro hNot
    refine (hNot ?_).elim
    intro e' b hErr
    rw [hRun] at hErr
    cases hErr
    exact not_exhausted_of_rejection hMem

end Contract

/-- After any run, a splice of a returned root with content `C` succeeds exactly on the
coordinates inside `C` that change it and leave between one and `2 ^ 64 - 1` bytes, and
gives `C` with the range replaced; a splice without parent succeeds exactly for a non-empty
insert at zero coordinates. -/
theorem splice_contract (sha256 : Bytes → Digest) (calls : List SequenceCall) :
    (∀ root ∈ (runCalls sha256 calls).returned,
      ∃ C, content (runCalls sha256 calls).arena root = some C ∧
        ∀ offset deleteLen insert,
          Contract sha256 (runCalls sha256 calls).arena (some root) offset deleteLen insert
            (offset ≤ C.length ∧ deleteLen ≤ C.length - offset ∧
              ¬ (deleteLen = 0 ∧ insert = []) ∧
              1 ≤ C.length - deleteLen + insert.length ∧
              C.length - deleteLen + insert.length ≤ 2 ^ 64 - 1)
            (C.take offset ++ insert ++ C.drop (offset + deleteLen))) ∧
    ∀ offset deleteLen insert, insert.length < 2 ^ 64 →
      Contract sha256 (runCalls sha256 calls).arena none offset deleteLen insert
        (offset = 0 ∧ deleteLen = 0 ∧ insert ≠ []) insert := by
  obtain ⟨hWf, hReturned⟩ := reached_runCalls sha256 calls
  constructor
  · intro root hRoot
    obtain ⟨t, hDenotes⟩ := hReturned root hRoot
    refine ⟨t.toList, content_of_denotes hDenotes, ?_⟩
    intro offset deleteLen insert
    have hIff : SpliceAccepts t.length offset deleteLen insert.length ↔
        (offset ≤ t.toList.length ∧ deleteLen ≤ t.toList.length - offset ∧
          ¬ (deleteLen = 0 ∧ insert = []) ∧
          1 ≤ t.toList.length - deleteLen + insert.length ∧
          t.toList.length - deleteLen + insert.length ≤ 2 ^ 64 - 1) := by
      have hBound : ∀ n : Nat, n < 2 ^ 64 ↔ n ≤ 2 ^ 64 - 1 := by omega
      simp only [SpliceAccepts, Rope.length, width, List.length_eq_zero_iff, hBound]
    rw [← hIff]
    rcases spliceOn_some_outcome hWf hDenotes offset deleteLen insert with
      ⟨hAccepts, h⟩ | ⟨hRejects, e, hMem, hRun⟩
    · exact contract_of_spliced hAccepts h
    · exact contract_of_rejected hRejects hMem hRun
  · intro offset deleteLen insert hInsert
    rcases spliceOn_none_outcome hWf offset deleteLen insert with
      ⟨hAccepts, h⟩ | ⟨hRejects, e, hMem, hRun⟩
    · exact contract_of_spliced ⟨hAccepts.1, hAccepts.2.1, hAccepts.2.2.1⟩ h
    · refine contract_of_rejected ?_ hMem hRun
      rintro ⟨hOffset, hDelete, hNe⟩
      exact hRejects ⟨hOffset, hDelete, hNe, hInsert⟩

/-- SHA-256 on the three records of a two-leaf tree: the leaf of the bytes 1, 2, 3, the leaf
of the byte 4 and the branch over them. -/
def sampleSha256 (message : Bytes) : Digest :=
  let first := digestOfNat 0x213c1566946e5245d228eff795cae814e0321369bba527672e0e46d506b096b5
  let second := digestOfNat 0x0b37ab01a9c48b3629957a884ef2c75974c24e66da49b09b6e7fecc84b4c57ce
  if message = v2LeafDomain ++ leBytes 8 3 ++ [1, 2, 3] then first
  else if message = v2LeafDomain ++ leBytes 8 1 ++ [4] then second
  else digestOfNat 0x32b22640752d4bab7d216ff788fae679cfa45f2b205cfc5220040e6ffad75c98

/-- The root of the bytes 1, 2, 3 in an empty arena. -/
def sampleRoot : V2RootRecord :=
  ⟨0, 3, 1, digestOfNat 0x213c1566946e5245d228eff795cae814e0321369bba527672e0e46d506b096b5⟩

/-- The root over the leaves of the bytes 1, 2, 3 and of the byte 4. -/
def sampleBranch : V2RootRecord :=
  ⟨2, 4, 2, digestOfNat 0x32b22640752d4bab7d216ff788fae679cfa45f2b205cfc5220040e6ffad75c98⟩

def sampleCalls : List SequenceCall := [.splice none 0 0 [1, 2, 3]]

theorem splice_contract_sample :
    sampleRoot ∈ (runCalls sampleSha256 sampleCalls).returned ∧
      ∃ result b, spliceOn sampleSha256 (some sampleRoot) 3 0 [4]
        (runCalls sampleSha256 sampleCalls).arena = .ok result b ∧
        content b result.root = some [1, 2, 3, 4] := by
  have hRoot : sampleRoot ∈ (runCalls sampleSha256 sampleCalls).returned := by decide +kernel
  have hSucceeds : yields (fun _ _ => true) (spliceOn sampleSha256 (some sampleRoot) 3 0 [4]
      (runCalls sampleSha256 sampleCalls).arena) = true := by decide +kernel
  have hRoom : HasRoom sampleSha256 (runCalls sampleSha256 sampleCalls).arena (some sampleRoot)
      3 0 [4] := by
    intro e b hRun
    rw [hRun] at hSucceeds
    simp [yields] at hSucceeds
  have hHolds : content (runCalls sampleSha256 sampleCalls).arena sampleRoot = some [1, 2, 3] := by
    decide +kernel
  obtain ⟨C, hC, hContract⟩ := (splice_contract sampleSha256 sampleCalls).1 sampleRoot hRoot
  rw [hHolds] at hC
  cases hC
  obtain ⟨result, b, hRun⟩ := ((hContract 3 0 [4]).ok_iff hRoom).mpr (by decide)
  exact ⟨hRoot, result, b, hRun, (hContract 3 0 [4]).content_eq result b hRun⟩

/-! ## Returned roots never change -/

/-- Along any run of splices and appends, on any roots, a failing call leaves the arena as
it was and a successful one appends to it; so a root returned at any point keeps its
content, its range reads and its verification at every later point. -/
theorem splice_persistence (sha256 : Bytes → Digest) (calls later : List SequenceCall) :
    (∀ call e b, performCall sha256 call (runCalls sha256 calls).arena = .error e b →
      b.payload = (runCalls sha256 calls).arena.payload ∧
        b.nodes = (runCalls sha256 calls).arena.nodes) ∧
    (∀ call root b, performCall sha256 call (runCalls sha256 calls).arena = .ok root b →
      (runCalls sha256 calls).arena.payload <+: b.payload ∧
        (runCalls sha256 calls).arena.nodes <+: b.nodes) ∧
    ∀ root ∈ (runCalls sha256 calls).returned,
      (∃ C, content (runCalls sha256 calls).arena root = some C ∧
        content (runCalls sha256 (calls ++ later)).arena root = some C) ∧
      (∀ offset length,
        readRange sha256 (runCalls sha256 (calls ++ later)).arena root offset length =
          readRange sha256 (runCalls sha256 calls).arena root offset length) ∧
      verifyRoot sha256 (runCalls sha256 (calls ++ later)).arena root = .ok () := by
  refine ⟨?_, ?_, ?_⟩
  · intro call e b hRun
    rcases performCall_cases sha256 call (runCalls sha256 calls).arena with
      ⟨root, b', hRun', -⟩ | ⟨e', hRun'⟩
    · rw [hRun] at hRun'
      cases hRun'
    · rw [hRun] at hRun'
      cases hRun'
      exact ⟨rfl, rfl⟩
  · intro call root b hRun
    rcases performCall_cases sha256 call (runCalls sha256 calls).arena with
      ⟨root', b', hRun', hGrows, -⟩ | ⟨e', hRun'⟩
    · rw [hRun] at hRun'
      cases hRun'
      exact hGrows
    · rw [hRun] at hRun'
      cases hRun'
  · intro root hRoot
    obtain ⟨t, hDenotes⟩ := (reached_runCalls sha256 calls).denotes root hRoot
    have hLater := hDenotes.grows (runCalls_grows calls later)
    refine ⟨⟨t.toList, content_of_denotes hDenotes, content_of_denotes hLater⟩, ?_,
      verifyRoot_ok hLater⟩
    intro offset length
    rw [readRange_eq hLater, readRange_eq hDenotes]

theorem splice_persistence_sample :
    sampleRoot ∈ (runCalls sampleSha256 sampleCalls).returned ∧
      content (runCalls sampleSha256 (sampleCalls ++ [.splice (some sampleRoot) 3 0 [4]])).arena
        sampleRoot = some [1, 2, 3] := by
  have hRoot : sampleRoot ∈ (runCalls sampleSha256 sampleCalls).returned := by decide +kernel
  have hHolds : content (runCalls sampleSha256 sampleCalls).arena sampleRoot = some [1, 2, 3] := by
    decide +kernel
  obtain ⟨⟨C, hNow, hLater⟩, -, -⟩ := (splice_persistence sampleSha256 sampleCalls
    [.splice (some sampleRoot) 3 0 [4]]).2.2 sampleRoot hRoot
  rw [hHolds] at hNow
  cases hNow
  exact ⟨hRoot, hLater⟩

end TulyaStore.Sequence
