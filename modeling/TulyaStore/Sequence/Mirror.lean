import TulyaStore.Sequence.Atomicity
import TulyaStore.Sequence.Reads

/-!
# Arenas that follow an in-memory arena

`Mirrors x a` says that the arena `x` loads the nodes and reads the payload that the
in-memory arena `a` holds. Then every check of a root and every range read on `x` has the
outcome it has on `a`.

`Follows R x y` is the simulation between edits: whenever the edit `y` on an in-memory arena
succeeds, the edit `x` on an `R`-related arena succeeds with the same value and leaves
related arenas. `spliceInnerOn_follows` derives it for the whole edit from the two
allocations, whatever the second arena is.
-/

namespace TulyaStore.Sequence

open Lib ArenaStore V2AvlSequence

/-- What vectors can hold: at most `isize::MAX` bytes, where a node takes at least as many as
its stored record. -/
def Addressable (a : V2AvlSequence) : Prop :=
  a.payload.length < 2 ^ 63 ∧ a.nodes.length * 72 < 2 ^ 63

instance (a : V2AvlSequence) : Decidable (Addressable a) := inferInstanceAs (Decidable (_ ∧ _))

theorem Addressable.of_grows {a b : V2AvlSequence} (h : Addressable b) (hGrows : Grows a b) :
    Addressable a := by
  have hPayload := hGrows.1.length_le
  have hNodes := hGrows.2.length_le
  unfold Addressable at h ⊢
  omega

theorem Addressable.not_full {a : V2AvlSequence} (h : Addressable a) : ¬ a.Full := by
  unfold Addressable at h
  unfold V2AvlSequence.Full maxValue width maxLeafPayloadBytes
  omega

/-- `x` holds what the in-memory arena `a` holds. -/
structure Mirrors {A : Type} [ArenaStore A] (x : A) (a : V2AvlSequence) : Prop where
  load : ∀ i node, a.nodes[i]? = some node → arenaLoadNode x i = .ok node
  missing : ∀ i, a.nodes[i]? = none → ∃ e, arenaLoadNode x i = .error e
  read : ∀ start stop bytes, start < stop → slice a.payload start stop = some bytes →
    arenaReadPayload x start stop = .ok bytes

/-! ## Checks and reads -/

section Reads

variable {sha256 : Bytes → Digest} {A : Type} [ArenaStore A] {x : A} {a : V2AvlSequence}

theorem Mirrors.nodeForRootOn (h : Mirrors x a) {root : V2RootRecord} {node : ArenaNode}
    (hNode : nodeForRootOn a root = .ok node) : nodeForRootOn x root = .ok node := by
  obtain ⟨-, hGet, hRoot⟩ := nodeForRootOn_eq_ok.mp hNode
  simp only [Sequence.nodeForRootOn, h.load _ _ hGet, ok_bind, hRoot, liftFormat, mapErr_ok]
  rw [failIf_neg (by simp)]
  rfl

theorem Mirrors.validateNodeOn (h : Mirrors x a) {node : ArenaNode} {u : Unit}
    (hValid : validateNodeOn sha256 a node = .ok u) :
    Sequence.validateNodeOn sha256 x node = .ok u := by
  cases node with
  | branch left right record => exact hValid
  | leaf payloadOffset payloadLen record =>
    simp only [Sequence.validateNodeOn, bind_eq_ok, okOr_eq_ok] at hValid ⊢
    obtain ⟨stop, hStop, bytes, hRead, expected, hExpected, hSame⟩ := hValid
    obtain ⟨-, -, hSlice⟩ := readPayload_eq_ok.mp hRead
    have hPos : 1 ≤ bytes.length := (leaf_eq_ok.mp (mapErr_eq_ok.mp hExpected)).1.1
    have hLen := length_of_slice hSlice
    exact ⟨stop, hStop, bytes, h.read _ _ _ (by omega) hSlice, expected, hExpected, hSame⟩

theorem childTasks_pos {left right : V2RootRecord} {task : ReadTask} (h : 0 < task.length) :
    ∀ t ∈ childTasks left right task, 0 < t.length := by
  intro t ht
  unfold childTasks at ht
  split at ht
  · rcases List.mem_append.mp ht with ht | ht
    · split at ht
      case isTrue hPos =>
        rw [List.mem_singleton.mp ht]
        exact hPos
      case isFalse => simp at ht
    · split at ht
      case isTrue hPos =>
        rw [List.mem_singleton.mp ht]
        exact hPos
      case isFalse => simp at ht
  · rw [List.mem_singleton.mp ht]
    exact h

/-- A visit that succeeds in the arena does the same in its mirror, and every task it pushes
asks for some bytes. -/
theorem Mirrors.readTaskOn (h : Mirrors x a) {task : ReadTask} (hPos : 0 < task.length)
    {bytes : Bytes} {tasks : List ReadTask}
    (hVisit : readTaskOn sha256 a task = .ok (bytes, tasks)) :
    Sequence.readTaskOn sha256 x task = .ok (bytes, tasks) ∧ ∀ t ∈ tasks, 0 < t.length := by
  obtain ⟨node, hNode, hRest⟩ := bind_eq_ok.mp hVisit
  obtain ⟨u, hValid, hRest⟩ := bind_eq_ok.mp hRest
  have hNode' := h.nodeForRootOn hNode
  have hValid' := h.validateNodeOn hValid
  cases node with
  | leaf payloadOffset payloadLen record =>
    simp only [bind_eq_ok, okOr_eq_ok, failIf_eq_ok, pure_eq_ok] at hRest
    obtain ⟨localEnd, hLocal, _, hInside, start, hStart, stop, hStop, read, hRead, hOut⟩ := hRest
    cases hOut
    obtain ⟨-, -, hSlice⟩ := readPayload_eq_ok.mp hRead
    obtain ⟨-, hStopEq⟩ := checkedAdd_eq_some.mp hStop
    have hRead' := h.read start stop bytes (by omega) hSlice
    refine ⟨?_, by simp⟩
    simp only [Sequence.readTaskOn, hNode', hValid', ok_bind, hLocal, okOr_some,
      failIf_neg hInside, hStart, hStop, hRead']
    rfl
  | branch left right record =>
    have hTasks := readTaskOn_branch hNode hValid
    rw [hTasks] at hVisit
    cases hVisit
    exact ⟨readTaskOn_branch hNode' hValid', childTasks_pos hPos⟩

theorem Mirrors.readStackOn (h : Mirrors x a) (fuel : Nat) {stack : List ReadTask}
    (hPos : ∀ t ∈ stack, 0 < t.length) {output : Bytes} {visited : Nat} {result : Bytes × Nat}
    (hLoop : readStackOn sha256 a fuel stack output visited = .ok result) :
    Sequence.readStackOn sha256 x fuel stack output visited = .ok result := by
  induction fuel generalizing stack output visited with
  | zero =>
    cases stack with
    | nil => exact hLoop
    | cons task stack => exact hLoop
  | succ fuel ih =>
    cases stack with
    | nil => exact hLoop
    | cons task stack =>
      obtain ⟨⟨bytes, tasks⟩, hVisit, hRest⟩ := bind_eq_ok.mp hLoop
      obtain ⟨hVisit', hTasks⟩ := h.readTaskOn (hPos task (by simp)) hVisit
      have hAll : ∀ t ∈ tasks ++ stack, 0 < t.length := by
        intro t ht
        rcases List.mem_append.mp ht with ht | ht
        · exact hTasks t ht
        · exact hPos t (by simp [ht])
      simp only [Sequence.readStackOn, hVisit', ok_bind]
      exact ih hAll hRest

/-- Range reads of a root that stands for something have the outcome they have in memory. -/
theorem Mirrors.readRange (h : Mirrors x a) {t : Rope UInt8} {root : V2RootRecord}
    (hDenotes : Denotes sha256 a t root) (offset length : Nat) :
    readRange sha256 x root offset length = Sequence.readRange sha256 a root offset length := by
  obtain ⟨node, hNode⟩ := hDenotes.nodeForRootOn
  unfold Sequence.readRange readRangeCountedOn
  simp only [hNode, h.nodeForRootOn hNode, ok_bind]
  by_cases hEnd : offset + length < width 64
  swap
  · rw [checkedAdd_of_le (Nat.not_lt.mp hEnd)]
    rfl
  rw [checkedAdd_of_lt hEnd, okOr_some, ok_bind, ok_bind]
  by_cases hRange : offset + length > root.logicalLen
  · rw [failIf_pos hRange]
    rfl
  rw [failIf_neg hRange, ok_bind, ok_bind]
  by_cases hZero : length = 0
  · simp only [if_pos hZero]
  simp only [if_neg hZero]
  rw [hDenotes.logicalLen] at hRange
  have hTask : TaskOf sha256 a t ⟨root, offset, length⟩ := ⟨hDenotes, by dsimp only; omega⟩
  obtain ⟨count, hLoop⟩ := readStackOn_ok (3 ^ root.height) [] 0 (.cons hTask .nil)
    (by simp [stackSteps, hDenotes.height])
  have hPos : ∀ t ∈ [(⟨root, offset, length⟩ : ReadTask)], 0 < t.length := by
    intro t ht
    rw [List.mem_singleton.mp ht]
    exact Nat.pos_of_ne_zero hZero
  rw [hLoop, h.readStackOn _ hPos hLoop]

/-- The checks of a splice, on a parent that resolves and validates in memory. -/
theorem Mirrors.checkSplice_eq (h : Mirrors x a) {parent : Option V2RootRecord}
    (hParent : ∀ root, parent = some root → ∃ node, Sequence.nodeForRootOn a root = .ok node ∧
      Sequence.validateNodeOn sha256 a node = .ok ())
    (offset deleteLen : Nat) (insert : Bytes) :
    checkSplice sha256 x parent offset deleteLen insert =
      checkSplice sha256 a parent offset deleteLen insert := by
  cases parent with
  | none => rfl
  | some root =>
    obtain ⟨node, hNode, hValid⟩ := hParent root rfl
    simp only [checkSplice, hNode, h.nodeForRootOn hNode, hValid, h.validateNodeOn hValid, ok_bind]

end Reads

/-! ## Edits -/

section Follows

variable {α β : Type} {A : Type}

/-- Related arenas, and the same count of inspected nodes. -/
def RelatedStates (R : A → V2AvlSequence → Prop) (s : EditState A)
    (s' : EditState V2AvlSequence) : Prop :=
  R s.arena s'.arena ∧ s.inspected = s'.inspected

/-- Whenever the in-memory edit `y` succeeds on an addressable arena, `x` does the same. -/
structure Follows (R : A → V2AvlSequence → Prop) (x : EditM A α) (y : EditM V2AvlSequence α) :
    Prop where
  appends : Appends y
  forward : ∀ s s' r t', RelatedStates R s s' → y s' = .ok r t' → Addressable t'.arena →
    ∃ t, x s = .ok r t ∧ RelatedStates R t t'

variable {R : A → V2AvlSequence → Prop}

theorem follows_pure (r : α) : Follows R (pure r) (pure r) where
  appends := appends_pure r
  forward := by
    intro s s' r' t' hRel hRun _
    cases hRun
    exact ⟨s, rfl, hRel⟩

theorem follows_throw (e : V2AvlError) : Follows R (throw e : EditM A α) (throw e) where
  appends := appends_throw e
  forward := by
    intro s s' r' t' _ hRun _
    cases hRun

theorem follows_attempt (y : Except V2AvlError α) : Follows R (attempt y) (attempt y) where
  appends := appends_attempt y
  forward := by
    intro s s' r t' hRel hRun _
    cases y with
    | error e => cases hRun
    | ok r' =>
      cases hRun
      exact ⟨s, rfl, hRel⟩

theorem follows_inspect (n : Nat) : Follows R (inspect n) (inspect n) where
  appends := appends_inspect n
  forward := by
    intro s s' r t' hRel hRun _
    cases hRun
    exact ⟨_, rfl, hRel.1, by simp only [hRel.2]⟩

theorem follows_reading {f : A → Except V2AvlError α} {g : V2AvlSequence → Except V2AvlError α}
    (h : ∀ x a r, R x a → Addressable a → g a = .ok r → f x = .ok r) :
    Follows R (reading f) (reading g) where
  appends := appends_reading g
  forward := by
    intro s s' r t' hRel hRun hAddressable
    unfold reading at hRun ⊢
    cases hRead : g s'.arena with
    | error e =>
      rw [hRead] at hRun
      cases hRun
    | ok r' =>
      rw [hRead] at hRun
      cases hRun
      rw [h _ _ _ hRel.1 hAddressable hRead]
      exact ⟨s, rfl, hRel⟩

theorem follows_bind {x : EditM A α} {y : EditM V2AvlSequence α} {f : α → EditM A β}
    {g : α → EditM V2AvlSequence β} (hxy : Follows R x y) (hfg : ∀ r, Follows R (f r) (g r)) :
    Follows R (x >>= f) (y >>= g) where
  appends := appends_bind hxy.appends fun r => (hfg r).appends
  forward := by
    intro s s' r t' hRel hRun hAddressable
    change EStateM.bind y g s' = .ok r t' at hRun
    change ∃ t, EStateM.bind x f s = .ok r t ∧ RelatedStates R t t'
    unfold EStateM.bind at hRun ⊢
    cases hFirst : y s' with
    | error e u =>
      rw [hFirst] at hRun
      cases hRun
    | ok q u' =>
      rw [hFirst] at hRun
      -- the second half only appends, so the arena in between is addressable too
      have hGrows := (hfg q).appends u'
      unfold Post at hGrows
      dsimp only at hRun
      rw [hRun] at hGrows
      obtain ⟨u, hx, hMid⟩ := hxy.forward s s' q u' hRel hFirst (hAddressable.of_grows hGrows)
      obtain ⟨t, hf, hEnd⟩ := (hfg q).forward u u' r t' hMid hRun hAddressable
      rw [hx]
      exact ⟨t, hf, hEnd⟩

/-- Nothing has to be shown about an edit that never succeeds in memory. -/
theorem follows_of_fails {x : EditM A α} {y : EditM V2AvlSequence α} (hAppends : Appends y)
    (h : ∀ s', Post y s' (fun _ _ => False) (fun _ _ => True)) : Follows R x y where
  appends := hAppends
  forward := by
    intro s s' r t' _ hRun _
    exact (post_ok (h s') hRun).elim

theorem follows_attempt_bind {y : Except V2AvlError α} {f : α → EditM A β}
    {g : α → EditM V2AvlSequence β} (hAppends : ∀ r, Appends (g r))
    (h : ∀ r, y = .ok r → Follows R (f r) (g r)) :
    Follows R (attempt y >>= f) (attempt y >>= g) := by
  cases y with
  | error e => exact follows_of_fails (appends_bind (appends_attempt _) hAppends) fun _ => trivial
  | ok r => exact h r rfl

end Follows

/-! ## From the allocations to the whole edit -/

section Edits

variable {A : Type} [ArenaStore A] {sha256 : Bytes → Digest} {R : A → V2AvlSequence → Prop}

/-- What an arena has to provide to follow every edit. -/
structure FollowsArena (sha256 : Bytes → Digest) (R : A → V2AvlSequence → Prop) : Prop where
  mirrors : ∀ x a, R x a → Mirrors x a
  leaf : ∀ bytes, Follows R (allocateLeafOn sha256 bytes) (allocateLeafOn sha256 bytes)
  branch : ∀ left right,
    Follows R (allocateBranchOn sha256 left right) (allocateBranchOn sha256 left right)

theorem FollowsArena.node (h : FollowsArena sha256 R) (root : V2RootRecord) :
    Follows R (reading fun arena => nodeForRootOn arena root)
      (reading fun arena => nodeForRootOn arena root) :=
  follows_reading fun x a _ hRel _ hOk => (h.mirrors x a hRel).nodeForRootOn hOk

theorem FollowsArena.validate (h : FollowsArena sha256 R) (node : ArenaNode) :
    Follows R (reading fun arena => validateNodeOn sha256 arena node)
      (reading fun arena => validateNodeOn sha256 arena node) :=
  follows_reading fun x a _ hRel _ hOk => (h.mirrors x a hRel).validateNodeOn hOk

theorem FollowsArena.payload (h : FollowsArena sha256 R) {start stop : Nat} (hLt : start < stop) :
    Follows R (reading fun arena => arenaReadPayload arena start stop)
      (reading fun arena => arenaReadPayload arena start stop) :=
  follows_reading fun x a bytes hRel _ hOk =>
    (h.mirrors x a hRel).read start stop bytes hLt (readPayload_eq_ok.mp hOk).2.2

theorem FollowsArena.branchChildrenOn (h : FollowsArena sha256 R) (root : V2RootRecord) :
    Follows R (branchChildrenOn root) (Sequence.branchChildrenOn root) := by
  refine follows_bind (follows_inspect _) fun _ => follows_bind (h.node _) fun node => ?_
  cases node with
  | leaf => exact follows_throw _
  | branch => exact follows_pure _

theorem FollowsArena.rebalanceOn (h : FollowsArena sha256 R) (left right : V2RootRecord) :
    Follows R (rebalanceOn sha256 left right) (Sequence.rebalanceOn sha256 left right) := by
  unfold Sequence.rebalanceOn
  split
  · exact h.branch _ _
  · split
    · refine follows_bind (h.branchChildrenOn _) fun children => ?_
      dsimp only
      split
      · exact follows_bind (h.branch _ _) fun _ => h.branch _ _
      · exact follows_bind (h.branchChildrenOn _) fun _ => follows_bind (h.branch _ _) fun _ =>
          follows_bind (h.branch _ _) fun _ => h.branch _ _
    · refine follows_bind (h.branchChildrenOn _) fun children => ?_
      dsimp only
      split
      · exact follows_bind (h.branch _ _) fun _ => h.branch _ _
      · exact follows_bind (h.branchChildrenOn _) fun _ => follows_bind (h.branch _ _) fun _ =>
          follows_bind (h.branch _ _) fun _ => h.branch _ _

theorem FollowsArena.concatSteps (h : FollowsArena sha256 R) (fuel : Nat)
    (left right : V2RootRecord) :
    Follows R (concatSteps sha256 fuel left right) (Sequence.concatSteps sha256 fuel left right) := by
  induction fuel generalizing left right with
  | zero => exact follows_throw _
  | succ fuel ih =>
    unfold Sequence.concatSteps
    split
    · exact follows_bind (h.branchChildrenOn _) fun _ => follows_bind (ih _ _) fun _ =>
        h.rebalanceOn _ _
    · split
      · exact follows_bind (h.branchChildrenOn _) fun _ => follows_bind (ih _ _) fun _ =>
          h.rebalanceOn _ _
      · exact h.branch _ _

theorem FollowsArena.concatOn (h : FollowsArena sha256 R) (left right : V2RootRecord) :
    Follows R (concatOn sha256 left right) (Sequence.concatOn sha256 left right) :=
  h.concatSteps _ _ _

theorem FollowsArena.concatOptionalOn (h : FollowsArena sha256 R)
    (left right : Option V2RootRecord) :
    Follows R (concatOptionalOn sha256 left right)
      (Sequence.concatOptionalOn sha256 left right) := by
  cases left <;> cases right
  · exact follows_pure _
  · exact follows_pure _
  · exact follows_pure _
  · exact follows_bind (h.concatOn _ _) fun _ => follows_pure _

theorem FollowsArena.joinRightOn (h : FollowsArena sha256 R) (near : Option V2RootRecord)
    (right : V2RootRecord) :
    Follows R (joinRightOn sha256 near right) (Sequence.joinRightOn sha256 near right) := by
  cases near with
  | none => exact follows_pure _
  | some near => exact h.concatOn _ _

theorem FollowsArena.joinLeftOn (h : FollowsArena sha256 R) (left : V2RootRecord)
    (near : Option V2RootRecord) :
    Follows R (joinLeftOn sha256 left near) (Sequence.joinLeftOn sha256 left near) := by
  cases near with
  | none => exact follows_pure _
  | some near => exact h.concatOn _ _

theorem allocateLeafOn_nil_fails (s : EditState V2AvlSequence) :
    Post (allocateLeafOn sha256 []) s (fun _ _ => False) (fun _ _ => True) := by
  refine post_bind (post_any _ _) fun payloadOffset s₁ _ => ?_
  refine post_bind (Q := fun _ _ => False) ?_ (fun _ _ h => h.elim)
  exact post_attempt (fun _ h => by cases h) (fun _ _ => trivial)

/-- The two halves of a leaf that is cut, once it has been read. -/
theorem FollowsArena.leafHalves (h : FollowsArena sha256 R) {start mid stop : Nat}
    (hLt : start < mid) :
    Follows R
      (reading (fun arena => arenaReadPayload arena start mid) >>= fun leftBytes =>
        reading (fun arena => arenaReadPayload arena mid stop) >>= fun rightBytes =>
        allocateLeafOn sha256 leftBytes >>= fun left =>
        allocateLeafOn sha256 rightBytes >>= fun right => pure (some left, some right))
      (reading (fun arena => arenaReadPayload arena start mid) >>= fun leftBytes =>
        reading (fun arena => arenaReadPayload arena mid stop) >>= fun rightBytes =>
        allocateLeafOn sha256 leftBytes >>= fun left =>
        allocateLeafOn sha256 rightBytes >>= fun right => pure (some left, some right)) := by
  by_cases hStop : mid < stop
  · exact follows_bind (h.payload hLt) fun _ => follows_bind (h.payload hStop) fun _ =>
      follows_bind (h.leaf _) fun _ => follows_bind (h.leaf _) fun _ => follows_pure _
  · -- the right half is empty, and there is no empty leaf
    refine follows_of_fails ?_ ?_
    · exact appends_bind (appends_reading _) fun _ => appends_bind (appends_reading _) fun _ =>
        appends_bind (allocateLeafOn_appends _ _) fun _ =>
          appends_bind (allocateLeafOn_appends _ _) fun _ => appends_pure _
    · intro s'
      refine post_bind (post_any _ _) fun leftBytes s₁ _ => ?_
      refine post_bind (Q := fun bytes _ => bytes = []) ?_ ?_
      · refine post_attempt (fun bytes hRead => ?_) (fun _ _ => trivial)
        have hLen := length_of_slice (readPayload_eq_ok.mp hRead).2.2
        exact List.length_eq_zero_iff.mp (by omega)
      rintro _ s₂ rfl
      refine post_bind (post_any _ _) fun left s₃ _ => ?_
      exact post_bind (allocateLeafOn_nil_fails s₃) (fun _ _ h => h.elim)

theorem FollowsArena.splitSteps (h : FollowsArena sha256 R) (fuel : Nat) (root : V2RootRecord)
    (offset : Nat) :
    Follows R (splitSteps sha256 fuel root offset)
      (Sequence.splitSteps sha256 fuel root offset) := by
  induction fuel generalizing root offset with
  | zero => exact follows_throw _
  | succ fuel ih =>
    unfold Sequence.splitSteps
    dsimp only
    split
    · exact follows_throw _
    · split
      · exact follows_pure _
      case isFalse hZero =>
        split
        · exact follows_pure _
        · refine follows_bind (follows_inspect _) fun _ => follows_bind (h.node _) fun node =>
            follows_bind (h.validate _) fun _ => ?_
          cases node with
          | leaf payloadOffset payloadLen record =>
            dsimp only
            refine follows_attempt_bind ?_ fun leftEnd hLeftEnd => ?_
            · exact fun _ => appends_bind (appends_attempt _) fun _ =>
                appends_bind (appends_reading _) fun _ => appends_bind (appends_reading _) fun _ =>
                  appends_bind (allocateLeafOn_appends _ _) fun _ =>
                    appends_bind (allocateLeafOn_appends _ _) fun _ => appends_pure _
            obtain ⟨-, rfl⟩ := checkedAdd_eq_some.mp (okOr_eq_ok.mp hLeftEnd)
            exact follows_bind (follows_attempt _) fun leafEnd => h.leafHalves (by omega)
          | branch left right record =>
            dsimp only
            split
            · exact follows_bind (ih _ _) fun _ => follows_bind (h.joinRightOn _ _) fun _ =>
                follows_pure _
            · split
              · exact follows_pure _
              · exact follows_bind (ih _ _) fun _ => follows_bind (h.joinLeftOn _ _) fun _ =>
                  follows_pure _

theorem FollowsArena.allocateChunks (h : FollowsArena sha256 R) (pieces : List Bytes) :
    Follows R (allocateChunks sha256 pieces) (Sequence.allocateChunks sha256 pieces) := by
  induction pieces with
  | nil => exact follows_pure _
  | cons piece pieces ih =>
    exact follows_bind (h.leaf _) fun _ => follows_bind ih fun _ => follows_pure _

theorem FollowsArena.pairRound (h : FollowsArena sha256 R) (roots : List V2RootRecord) :
    Follows R (pairRound sha256 roots) (Sequence.pairRound sha256 roots) := by
  induction roots using pairRound.induct with
  | case1 left right rest ih =>
    exact follows_bind (h.concatOn _ _) fun _ => follows_bind ih fun _ => follows_pure _
  | case2 rest hShort =>
    cases rest with
    | nil => exact follows_pure _
    | cons root rest =>
      cases rest with
      | nil => exact follows_pure _
      | cons root' rest => exact (hShort root root' rest rfl).elim

theorem FollowsArena.pairRounds (h : FollowsArena sha256 R) (fuel : Nat)
    (level : List V2RootRecord) :
    Follows R (pairRounds sha256 fuel level) (Sequence.pairRounds sha256 fuel level) := by
  induction fuel generalizing level with
  | zero => exact follows_throw _
  | succ fuel ih =>
    unfold Sequence.pairRounds
    split
    · exact follows_bind (h.pairRound _) fun _ => ih _
    · exact follows_pure _

theorem FollowsArena.insertMiddleOn (h : FollowsArena sha256 R) (insert : Bytes) :
    Follows R (insertMiddleOn sha256 insert) (Sequence.insertMiddleOn sha256 insert) := by
  unfold Sequence.insertMiddleOn
  split
  · exact follows_pure _
  · refine follows_bind ?_ fun _ => follows_pure _
    exact follows_bind (h.allocateChunks _) fun _ => follows_bind (h.pairRounds _ _) fun _ =>
      follows_attempt _

theorem FollowsArena.dropDeletedOn (h : FollowsArena sha256 R) (midRight : Option V2RootRecord)
    (deleteLen : Nat) :
    Follows R (dropDeletedOn sha256 midRight deleteLen)
      (Sequence.dropDeletedOn sha256 midRight deleteLen) := by
  unfold Sequence.dropDeletedOn
  split
  · exact follows_pure _
  · split
    · exact follows_pure _
    · exact follows_bind (h.splitSteps _ _ _) fun _ => follows_pure _

theorem FollowsArena.spliceInnerOn (h : FollowsArena sha256 R) (parent : Option V2RootRecord)
    (offset deleteLen : Nat) (insert : Bytes) :
    Follows R (spliceInnerOn sha256 parent offset deleteLen insert)
      (Sequence.spliceInnerOn sha256 parent offset deleteLen insert) := by
  refine follows_bind (h.insertMiddleOn _) fun middle => ?_
  cases parent with
  | none => exact follows_attempt _
  | some root =>
    exact follows_bind (h.splitSteps _ _ _) fun _ => follows_bind (h.dropDeletedOn _ _) fun _ =>
      follows_bind (h.concatOptionalOn _ _) fun _ =>
        follows_bind (h.concatOptionalOn _ _) fun _ => follows_attempt _

end Edits

end TulyaStore.Sequence
