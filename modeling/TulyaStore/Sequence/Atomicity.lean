import TulyaStore.Sequence.Splice

/-!
# Edits append, and failed edits leave nothing behind

Whatever an edit does, on any arena at all, it only appends to the payload and the node
table (`spliceInnerOn_grows`), so the truncation after an error gives back the arena the
call started from (`spliceOn_cases`). On a well-formed arena the outcome is known exactly:
`spliceOn_some_outcome` and `spliceOn_none_outcome`.
-/

namespace TulyaStore.Sequence

open Lib ArenaStore V2AvlSequence

/-! ## Every edit appends -/

section Grows

variable (sha256 : Bytes → Digest) {α β : Type}

/-- The arena only grows, whatever the outcome. -/
abbrev Appends (x : EditM V2AvlSequence α) : Prop :=
  Keeps (fun s s' : EditState V2AvlSequence => Grows s.arena s'.arena) x

theorem appends_pure (r : α) : Appends (pure r : EditM V2AvlSequence α) :=
  keeps_pure (fun s => Grows.refl s.arena) r

theorem appends_throw (e : V2AvlError) : Appends (throw e : EditM V2AvlSequence α) :=
  keeps_throw (fun s => Grows.refl s.arena) e

theorem appends_attempt (y : Except V2AvlError α) : Appends (attempt y : EditM V2AvlSequence α) :=
  keeps_attempt (fun s => Grows.refl s.arena) y

theorem appends_bind {x : EditM V2AvlSequence α} {f : α → EditM V2AvlSequence β}
    (hx : Appends x) (hf : ∀ r, Appends (f r)) : Appends (x >>= f) :=
  keeps_bind (fun _ _ _ h h' => h.trans h') hx hf

theorem appends_reading (g : V2AvlSequence → Except V2AvlError α) : Appends (reading g) :=
  fun s => appends_attempt (g s.arena) s

theorem appends_inspect (n : Nat) : Appends (inspect n : EditM V2AvlSequence Unit) :=
  fun _ => post_modify (Grows.refl _)

theorem appends_appendPayload (bytes : Bytes) :
    Appends (onArena (arenaAppendPayload bytes) : EditM V2AvlSequence Nat) := by
  intro s
  unfold Post onArena
  simp only [arenaAppendPayload, appendPayload]
  cases tryFrom 64 s.arena.payload.length with
  | none => exact Grows.refl _
  | some offset => exact grows_appendPayload _ _

theorem appends_pushNode (node : ArenaNode) :
    Appends (onArena (arenaPushNode node) : EditM V2AvlSequence Nat) := by
  intro s
  unfold Post onArena
  simp only [arenaPushNode, pushNode]
  cases tryFrom 64 s.arena.nodes.length with
  | none => exact Grows.refl _
  | some nodeId => exact grows_pushNode _ _

theorem allocateNodeOn_appends (node : ArenaNode) :
    Appends (allocateNodeOn node : EditM V2AvlSequence _) :=
  appends_bind (appends_reading _) fun _ => appends_bind (appends_attempt _) fun _ =>
    appends_bind (appends_pushNode _) fun _ => appends_bind (appends_attempt _) fun _ =>
      appends_pure _

theorem allocateLeafOn_appends (bytes : Bytes) :
    Appends (allocateLeafOn sha256 bytes : EditM V2AvlSequence _) :=
  appends_bind (appends_reading _) fun _ => appends_bind (appends_attempt _) fun _ =>
    appends_bind (appends_appendPayload _) fun _ => appends_bind (appends_attempt _) fun _ =>
      allocateNodeOn_appends _

theorem allocateBranchOn_appends (left right : V2RootRecord) :
    Appends (allocateBranchOn sha256 left right : EditM V2AvlSequence _) :=
  appends_bind (appends_inspect _) fun _ => appends_bind (appends_reading _) fun _ =>
    appends_bind (appends_reading _) fun _ => appends_bind (appends_attempt _) fun _ =>
      allocateNodeOn_appends _

/-- A relation `R` that every edit built from allocations keeps when it succeeds; when it fails it
leaves a state related by `E`. -/
structure EditRelation (R E : EditState V2AvlSequence → EditState V2AvlSequence → Prop) :
    Prop where
  refl : ∀ s, R s s
  trans : ∀ s t u, R s t → R t u → R s u
  stop : ∀ s, E s s
  after : ∀ s t u, R s t → E t u → E s u
  inspected : ∀ s n, R s { s with inspected := n }
  leaf : ∀ bytes, Leads R E (allocateLeafOn sha256 bytes)
  branch : ∀ left right, Leads R E (allocateBranchOn sha256 left right)

/-- Every edit appends. -/
theorem editRelation_grows : EditRelation sha256 (fun s s' => Grows s.arena s'.arena)
    (fun s s' => Grows s.arena s'.arena) where
  refl _ := Grows.refl _
  trans _ _ _ hFirst hRest := hFirst.trans hRest
  stop _ := Grows.refl _
  after _ _ _ hFirst hRest := hFirst.trans hRest
  inspected _ _ := Grows.refl _
  leaf := allocateLeafOn_appends sha256
  branch := allocateBranchOn_appends sha256

end Grows

section Edits

variable {sha256 : Bytes → Digest} {α β : Type}
  {R E : EditState V2AvlSequence → EditState V2AvlSequence → Prop}

namespace EditRelation

variable (h : EditRelation sha256 R E)

include h

theorem pure (r : α) : Leads R E (Pure.pure r : EditM V2AvlSequence α) := leads_pure h.refl r

theorem throw (e : V2AvlError) : Leads R E (MonadExcept.throw e : EditM V2AvlSequence α) :=
  leads_throw h.stop e

theorem attempt (y : Except V2AvlError α) : Leads R E (Lib.attempt y : EditM V2AvlSequence α) :=
  leads_attempt h.refl h.stop y

theorem bind {x : EditM V2AvlSequence α} {f : α → EditM V2AvlSequence β} (hx : Leads R E x)
    (hf : ∀ r, Leads R E (f r)) : Leads R E (x >>= f) :=
  leads_bind h.trans h.after hx hf

theorem reading (g : V2AvlSequence → Except V2AvlError α) : Leads R E (Sequence.reading g) :=
  fun s => h.attempt (g s.arena) s

theorem inspect (n : Nat) : Leads R E (Sequence.inspect n : EditM V2AvlSequence Unit) :=
  fun s => post_modify (h.inspected s _)

end EditRelation

theorem branchChildrenOn_leads (h : EditRelation sha256 R E) (root : V2RootRecord) :
    Leads R E (branchChildrenOn root : EditM V2AvlSequence _) := by
  refine h.bind (h.inspect _) fun _ => h.bind (h.reading _) fun node => ?_
  cases node with
  | leaf => exact h.throw _
  | branch => exact h.pure _

theorem rebalanceOn_leads (h : EditRelation sha256 R E) (left right : V2RootRecord) :
    Leads R E (rebalanceOn sha256 left right : EditM V2AvlSequence _) := by
  have hBranch := fun l r => h.branch l r
  unfold rebalanceOn
  split
  · exact hBranch _ _
  · split
    · refine h.bind (branchChildrenOn_leads h _) fun children => ?_
      dsimp only
      split
      · exact h.bind (hBranch _ _) fun _ => hBranch _ _
      · exact h.bind (branchChildrenOn_leads h _) fun _ =>
          h.bind (hBranch _ _) fun _ => h.bind (hBranch _ _) fun _ => hBranch _ _
    · refine h.bind (branchChildrenOn_leads h _) fun children => ?_
      dsimp only
      split
      · exact h.bind (hBranch _ _) fun _ => hBranch _ _
      · exact h.bind (branchChildrenOn_leads h _) fun _ =>
          h.bind (hBranch _ _) fun _ => h.bind (hBranch _ _) fun _ => hBranch _ _

theorem concatSteps_leads (h : EditRelation sha256 R E) (fuel : Nat) (left right : V2RootRecord) :
    Leads R E (concatSteps sha256 fuel left right : EditM V2AvlSequence _) := by
  induction fuel generalizing left right with
  | zero => exact h.throw _
  | succ fuel ih =>
    unfold concatSteps
    split
    · exact h.bind (branchChildrenOn_leads h _) fun _ =>
        h.bind (ih _ _) fun _ => rebalanceOn_leads h _ _
    · split
      · exact h.bind (branchChildrenOn_leads h _) fun _ =>
          h.bind (ih _ _) fun _ => rebalanceOn_leads h _ _
      · exact h.branch _ _

theorem concatOn_leads (h : EditRelation sha256 R E) (left right : V2RootRecord) :
    Leads R E (concatOn sha256 left right : EditM V2AvlSequence _) :=
  concatSteps_leads h _ _ _

theorem concatOptionalOn_leads (h : EditRelation sha256 R E) (left right : Option V2RootRecord) :
    Leads R E (concatOptionalOn sha256 left right : EditM V2AvlSequence _) := by
  cases left <;> cases right
  · exact h.pure _
  · exact h.pure _
  · exact h.pure _
  · exact h.bind (concatOn_leads h _ _) fun _ => h.pure _

theorem joinRightOn_leads (h : EditRelation sha256 R E) (near : Option V2RootRecord) (right : V2RootRecord) :
    Leads R E (joinRightOn sha256 near right : EditM V2AvlSequence _) := by
  cases near with
  | none => exact h.pure _
  | some near => exact concatOn_leads h _ _

theorem joinLeftOn_leads (h : EditRelation sha256 R E) (left : V2RootRecord) (near : Option V2RootRecord) :
    Leads R E (joinLeftOn sha256 left near : EditM V2AvlSequence _) := by
  cases near with
  | none => exact h.pure _
  | some near => exact concatOn_leads h _ _

theorem splitSteps_leads (h : EditRelation sha256 R E) (fuel : Nat) (root : V2RootRecord) (offset : Nat) :
    Leads R E (splitSteps sha256 fuel root offset : EditM V2AvlSequence _) := by
  induction fuel generalizing root offset with
  | zero => exact h.throw _
  | succ fuel ih =>
    unfold splitSteps
    dsimp only
    split
    · exact h.throw _
    · split
      · exact h.pure _
      · split
        · exact h.pure _
        · refine h.bind (h.inspect _) fun _ =>
            h.bind (h.reading _) fun node =>
            h.bind (h.reading _) fun _ => ?_
          cases node with
          | leaf =>
            exact h.bind (h.attempt _) fun _ => h.bind (h.attempt _) fun _ =>
              h.bind (h.reading _) fun _ => h.bind (h.reading _) fun _ =>
                h.bind (h.leaf _) fun _ =>
                  h.bind (h.leaf _) fun _ => h.pure _
          | branch =>
            dsimp only
            split
            · exact h.bind (ih _ _) fun _ =>
                h.bind (joinRightOn_leads h _ _) fun _ => h.pure _
            · split
              · exact h.pure _
              · exact h.bind (ih _ _) fun _ =>
                  h.bind (joinLeftOn_leads h _ _) fun _ => h.pure _

theorem allocateChunks_leads (h : EditRelation sha256 R E) (pieces : List Bytes) :
    Leads R E (allocateChunks sha256 pieces : EditM V2AvlSequence _) := by
  induction pieces with
  | nil => exact h.pure _
  | cons c pieces ih =>
    exact h.bind (h.leaf _) fun _ => h.bind ih fun _ =>
      h.pure _

theorem pairRound_leads (h : EditRelation sha256 R E) (roots : List V2RootRecord) :
    Leads R E (pairRound sha256 roots : EditM V2AvlSequence _) := by
  fun_induction pairRound (A := V2AvlSequence) sha256 roots with
  | case1 left right rest ih =>
    exact h.bind (concatOn_leads h _ _) fun _ => h.bind ih fun _ => h.pure _
  | case2 => exact h.pure _

theorem pairRounds_leads (h : EditRelation sha256 R E) (fuel : Nat) (roots : List V2RootRecord) :
    Leads R E (pairRounds sha256 fuel roots : EditM V2AvlSequence _) := by
  induction fuel generalizing roots with
  | zero => exact h.throw _
  | succ fuel ih =>
    unfold pairRounds
    split
    · exact h.bind (pairRound_leads h _) fun _ => ih _
    · exact h.pure _

theorem insertMiddleOn_leads (h : EditRelation sha256 R E) (insert : Bytes) :
    Leads R E (insertMiddleOn sha256 insert : EditM V2AvlSequence _) := by
  unfold insertMiddleOn
  split
  · exact h.pure _
  · refine h.bind ?_ fun _ => h.pure _
    exact h.bind (allocateChunks_leads h _) fun _ =>
      h.bind (pairRounds_leads h _ _) fun _ => h.attempt _

theorem dropDeletedOn_leads (h : EditRelation sha256 R E) (midRight : Option V2RootRecord) (deleteLen : Nat) :
    Leads R E (dropDeletedOn sha256 midRight deleteLen : EditM V2AvlSequence _) := by
  unfold dropDeletedOn
  split
  · exact h.pure _
  · split
    · exact h.pure _
    · exact h.bind (splitSteps_leads h _ _ _) fun _ => h.pure _

theorem spliceInnerOn_leads (h : EditRelation sha256 R E) (parent : Option V2RootRecord) (offset deleteLen : Nat)
    (insert : Bytes) :
    Leads R E (spliceInnerOn sha256 parent offset deleteLen insert : EditM V2AvlSequence _) := by
  refine h.bind (insertMiddleOn_leads h _) fun middle => ?_
  cases parent with
  | none => exact h.attempt _
  | some root =>
    exact h.bind (splitSteps_leads h _ _ _) fun _ =>
      h.bind (dropDeletedOn_leads h _ _) fun _ =>
        h.bind (concatOptionalOn_leads h _ _) fun _ =>
          h.bind (concatOptionalOn_leads h _ _) fun _ => h.attempt _

end Edits

theorem spliceInnerOn_appends (sha256 : Bytes → Digest) (parent : Option V2RootRecord)
    (offset deleteLen : Nat) (insert : Bytes) :
    Appends (spliceInnerOn sha256 parent offset deleteLen insert : EditM V2AvlSequence _) :=
  spliceInnerOn_leads (editRelation_grows sha256) parent offset deleteLen insert

/-! ## Outcomes of a splice -/

section Outcome

variable {sha256 : Bytes → Digest} {a : V2AvlSequence}

/-- A splice either returns a grown arena or leaves the arena as it was. -/
theorem spliceOn_cases (sha256 : Bytes → Digest) (a : V2AvlSequence)
    (parent : Option V2RootRecord) (offset deleteLen : Nat) (insert : Bytes) :
    (∃ result b, spliceOn sha256 parent offset deleteLen insert a = .ok result b ∧ Grows a b) ∨
      ∃ e, spliceOn sha256 parent offset deleteLen insert a = .error e a := by
  unfold spliceOn
  cases checkSplice sha256 a parent offset deleteLen insert with
  | error e => exact Or.inr ⟨e, rfl⟩
  | ok u =>
    have hInner := spliceInnerOn_appends sha256 parent offset deleteLen insert ⟨a, 0⟩
    unfold Post at hInner
    dsimp only
    cases hRun : spliceInnerOn sha256 parent offset deleteLen insert
        (⟨a, 0⟩ : EditState V2AvlSequence) with
    | ok root s =>
      rw [hRun] at hInner
      exact Or.inl ⟨_, _, rfl, hInner⟩
    | error e s =>
      rw [hRun] at hInner
      refine Or.inr ⟨e, ?_⟩
      dsimp only
      rw [Grows.truncate hInner]

/-- The errors `splice_on` returns for coordinates it does not accept. -/
def spliceRejections : List V2AvlError := [
  .invalid "v2 sequence splice offset exceeds parent length",
  .invalid "v2 sequence splice delete range exceeds parent length",
  .overflow "v2 sequence insert length exceeds u64",
  .overflow "v2 sequence splice result length exceeds u64",
  .invalid "v2 sequence root creation requires zero offset and delete length",
  .invalid "v2 sequence root creation requires non-empty insert",
  .invalid "v2 sequence splice without effect is rejected",
  .invalid "v2 sequence splice result must be non-empty"]

/-- The coordinates a splice of a parent of `len` bytes accepts. -/
def SpliceAccepts (len offset deleteLen insertLen : Nat) : Prop :=
  offset ≤ len ∧ deleteLen ≤ len - offset ∧ ¬ (deleteLen = 0 ∧ insertLen = 0) ∧
    1 ≤ len - deleteLen + insertLen ∧ len - deleteLen + insertLen < width 64

theorem checkSplice_some {t : Rope UInt8} {root : V2RootRecord} (h : Denotes sha256 a t root)
    (offset deleteLen : Nat) (insert : Bytes) :
    (SpliceAccepts t.length offset deleteLen insert.length ∧
        checkSplice sha256 a (some root) offset deleteLen insert = .ok ()) ∨
      (¬ SpliceAccepts t.length offset deleteLen insert.length ∧
        ∃ e ∈ spliceRejections,
          checkSplice sha256 a (some root) offset deleteLen insert = .error e) := by
  obtain ⟨node, hNode⟩ := h.nodeForRootOn
  have hValid : validateNodeOn sha256 a node = .ok () := by
    obtain ⟨-, hGet, hRoot⟩ := nodeForRootOn_eq_ok.mp hNode
    cases t with
    | leaf bytes =>
      obtain ⟨-, start, record, hGet', hSlice, hRecord, -⟩ := h
      rw [hGet] at hGet'
      cases hGet'
      exact validateNodeOn_leaf hSlice hRecord
    | node l r =>
      obtain ⟨-, left, right, record, hGet', hRecord, -⟩ := h
      rw [hGet] at hGet'
      cases hGet'
      exact validateNodeOn_branch hRecord
  unfold checkSplice SpliceAccepts
  simp only [hNode, ok_bind, h.logicalLen, pure, Except.pure]
  by_cases hOffset : offset > t.length
  · rw [failIf_pos hOffset]
    exact Or.inr ⟨by omega, _, by simp [spliceRejections], rfl⟩
  rw [failIf_neg hOffset, ok_bind]
  by_cases hDelete : deleteLen > t.length - offset
  · rw [failIf_pos hDelete]
    exact Or.inr ⟨by omega, _, by simp [spliceRejections], rfl⟩
  rw [failIf_neg hDelete, ok_bind]
  by_cases hInsert : insert.length < width 64
  swap
  · rw [tryFrom_of_le (Nat.not_lt.mp hInsert)]
    exact Or.inr ⟨by omega, _, by simp [spliceRejections], rfl⟩
  rw [tryFrom_of_lt hInsert, okOr_some, ok_bind]
  by_cases hResult : t.length - deleteLen + insert.length < width 64
  swap
  · rw [checkedAdd_of_le (Nat.not_lt.mp hResult)]
    exact Or.inr ⟨by omega, _, by simp [spliceRejections], rfl⟩
  rw [checkedAdd_of_lt hResult, okOr_some, ok_bind]
  by_cases hEffect : deleteLen = 0 ∧ insert.isEmpty = true
  · rw [failIf_pos hEffect]
    refine Or.inr ⟨?_, _, by simp [spliceRejections], rfl⟩
    have : insert.length = 0 := by simpa using hEffect.2
    omega
  rw [failIf_neg hEffect, ok_bind]
  by_cases hEmpty : t.length - deleteLen + insert.length = 0
  · rw [failIf_pos hEmpty]
    exact Or.inr ⟨by omega, _, by simp [spliceRejections], rfl⟩
  rw [failIf_neg hEmpty, ok_bind]
  refine Or.inl ⟨⟨by omega, by omega, ?_, by omega, hResult⟩, hValid⟩
  rintro ⟨hZero, hLen⟩
  exact hEffect ⟨hZero, by simpa using List.length_eq_zero_iff.mp hLen⟩

theorem checkSplice_none (sha256 : Bytes → Digest) (a : V2AvlSequence) (offset deleteLen : Nat)
    (insert : Bytes) :
    ((offset = 0 ∧ deleteLen = 0 ∧ insert ≠ [] ∧ insert.length < width 64) ∧
        checkSplice sha256 a none offset deleteLen insert = .ok ()) ∨
      (¬ (offset = 0 ∧ deleteLen = 0 ∧ insert ≠ [] ∧ insert.length < width 64) ∧
        ∃ e ∈ spliceRejections, checkSplice sha256 a none offset deleteLen insert = .error e) := by
  unfold checkSplice
  simp only [ok_bind, pure, Except.pure]
  by_cases hOffset : offset > 0
  · rw [failIf_pos hOffset]
    exact Or.inr ⟨by omega, _, by simp [spliceRejections], rfl⟩
  rw [failIf_neg hOffset, ok_bind]
  by_cases hDelete : deleteLen > 0 - offset
  · rw [failIf_pos hDelete]
    exact Or.inr ⟨by omega, _, by simp [spliceRejections], rfl⟩
  rw [failIf_neg hDelete, ok_bind]
  by_cases hInsert : insert.length < width 64
  swap
  · rw [tryFrom_of_le (Nat.not_lt.mp hInsert)]
    exact Or.inr ⟨by omega, _, by simp [spliceRejections], rfl⟩
  have hZero : offset = 0 ∧ deleteLen = 0 := by omega
  rw [tryFrom_of_lt hInsert, okOr_some, ok_bind, checkedAdd_of_lt (by omega), okOr_some, ok_bind,
    failIf_neg (by omega), ok_bind]
  by_cases hEmpty : insert.isEmpty = true
  · rw [failIf_pos hEmpty]
    refine Or.inr ⟨?_, _, by simp [spliceRejections], rfl⟩
    simp [List.isEmpty_iff.mp hEmpty]
  have hNe : insert ≠ [] := fun h => hEmpty (List.isEmpty_iff.mpr h)
  have hPos := List.length_pos_of_ne_nil hNe
  rw [failIf_neg hEmpty, ok_bind, failIf_neg (by omega)]
  exact Or.inl ⟨⟨hZero.1, hZero.2, hNe, hInsert⟩, rfl⟩

/-- The arena an edit has built when it ends, before any truncation. -/
def editedArena (sha256 : Bytes → Digest) (a : V2AvlSequence) (parent : Option V2RootRecord)
    (offset deleteLen : Nat) (insert : Bytes) : V2AvlSequence :=
  (finalState (spliceInnerOn sha256 parent offset deleteLen insert)
    (⟨a, 0⟩ : EditState V2AvlSequence)).arena

/-- What an accepted splice does: it returns a grown well-formed arena with a root for
`content`, or it leaves the old arena because the edit filled up its counters. -/
def Spliced (sha256 : Bytes → Digest) (a : V2AvlSequence) (parent : Option V2RootRecord)
    (offset deleteLen : Nat) (insert content : Bytes) : Prop :=
  (∃ result b t, spliceOn sha256 parent offset deleteLen insert a = .ok result b ∧ Grows a b ∧
    WellFormed sha256 b ∧ Denotes sha256 b t result.root ∧ t.toList = content) ∨
  ∃ e, spliceOn sha256 parent offset deleteLen insert a = .error e a ∧ e.Exhausted ∧
    (editedArena sha256 a parent offset deleteLen insert).Full

theorem spliced_of_sim {parent : Option V2RootRecord} {offset deleteLen : Nat}
    {insert content : Bytes}
    (hCheck : checkSplice sha256 a parent offset deleteLen insert = .ok ())
    (hSim : Simulates sha256 (spliceInnerOn sha256 parent offset deleteLen insert) ⟨a, 0⟩
      (fun root b => ∃ t, t.toList = content ∧ Denotes sha256 b t root)) :
    Spliced sha256 a parent offset deleteLen insert content := by
  have hAppends := spliceInnerOn_appends sha256 parent offset deleteLen insert ⟨a, 0⟩
  unfold Simulates Post at hSim
  unfold Post at hAppends
  unfold Spliced editedArena finalState spliceOn
  rw [hCheck]
  dsimp only
  cases hRun : spliceInnerOn sha256 parent offset deleteLen insert
      (⟨a, 0⟩ : EditState V2AvlSequence) with
  | ok root s =>
    rw [hRun] at hSim
    obtain ⟨hGrows, hWf, t, hList, hDenotes⟩ := hSim
    exact Or.inl ⟨_, _, t, rfl, hGrows, hWf, hDenotes, hList⟩
  | error e s =>
    rw [hRun] at hSim hAppends
    refine Or.inr ⟨e, ?_, hSim⟩
    dsimp only
    rw [Grows.truncate hAppends]

theorem spliceOn_some_outcome (hWf : WellFormed sha256 a) {t : Rope UInt8} {root : V2RootRecord}
    (h : Denotes sha256 a t root) (offset deleteLen : Nat) (insert : Bytes) :
    (SpliceAccepts t.length offset deleteLen insert.length ∧
      Spliced sha256 a (some root) offset deleteLen insert
        (t.toList.take offset ++ insert ++ t.toList.drop (offset + deleteLen))) ∨
    (¬ SpliceAccepts t.length offset deleteLen insert.length ∧
      ∃ e ∈ spliceRejections, spliceOn sha256 (some root) offset deleteLen insert a = .error e a) := by
  rcases checkSplice_some h offset deleteLen insert with
    ⟨hAccepts, hCheck⟩ | ⟨hRejects, e, hMem, hCheck⟩
  · have ⟨hOffset, hDelete, _, hPos, hMax⟩ := hAccepts
    exact Or.inl ⟨hAccepts, spliced_of_sim hCheck
      (spliceInnerOn_some_sim hWf h hOffset hDelete hPos hMax)⟩
  · refine Or.inr ⟨hRejects, e, hMem, ?_⟩
    unfold spliceOn
    rw [hCheck]

theorem spliceOn_none_outcome (hWf : WellFormed sha256 a) (offset deleteLen : Nat)
    (insert : Bytes) :
    ((offset = 0 ∧ deleteLen = 0 ∧ insert ≠ [] ∧ insert.length < width 64) ∧
      Spliced sha256 a none offset deleteLen insert insert) ∨
    (¬ (offset = 0 ∧ deleteLen = 0 ∧ insert ≠ [] ∧ insert.length < width 64) ∧
      ∃ e ∈ spliceRejections, spliceOn sha256 none offset deleteLen insert a = .error e a) := by
  rcases checkSplice_none sha256 a offset deleteLen insert with
    ⟨hAccepts, hCheck⟩ | ⟨hRejects, e, hMem, hCheck⟩
  · exact Or.inl ⟨hAccepts, spliced_of_sim hCheck
      (spliceInnerOn_none_sim hWf hAccepts.2.2.1 hAccepts.2.2.2)⟩
  · refine Or.inr ⟨hRejects, e, hMem, ?_⟩
    unfold spliceOn
    rw [hCheck]

/-- A successful splice on a well-formed arena leaves a well-formed arena, whatever root it
was given. -/
theorem spliceOn_wellFormed (hWf : WellFormed sha256 a) {parent : Option V2RootRecord}
    {offset deleteLen : Nat} {insert : Bytes} {result : V2SpliceResult} {b : V2AvlSequence}
    (hRun : spliceOn sha256 parent offset deleteLen insert a = .ok result b) :
    Grows a b ∧ WellFormed sha256 b ∧ ∃ t, Denotes sha256 b t result.root := by
  have hSpliced : ∃ content, Spliced sha256 a parent offset deleteLen insert content := by
    cases parent with
    | none =>
      rcases spliceOn_none_outcome hWf offset deleteLen insert with ⟨-, h⟩ | ⟨-, e, -, h⟩
      · exact ⟨_, h⟩
      · rw [hRun] at h
        cases h
    | some root =>
      cases hNode : nodeForRootOn a root with
      | error e =>
        unfold spliceOn at hRun
        simp only [checkSplice, hNode, error_bind] at hRun
        cases hRun
      | ok node =>
        obtain ⟨t, hDenotes⟩ := hWf.denotes hNode
        rcases spliceOn_some_outcome hWf hDenotes offset deleteLen insert with
          ⟨-, h⟩ | ⟨-, e, -, h⟩
        · exact ⟨_, h⟩
        · rw [hRun] at h
          cases h
  obtain ⟨content, ⟨result', b', t, hEq, hGrows, hWf', hDenotes, -⟩ | ⟨e, hEq, -⟩⟩ := hSpliced
  · rw [hRun] at hEq
    cases hEq
    exact ⟨hGrows, hWf', t, hDenotes⟩
  · rw [hRun] at hEq
    cases hEq

end Outcome

end TulyaStore.Sequence
