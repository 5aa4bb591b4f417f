import TulyaStore.Sequence.Physical
import TulyaStore.Sequence.Runs

/-!
# A root authenticates its content

Reads and verification recompute the commitment of every node they visit, so a root binds
the whole tree below it: on any arena, honest or not, a successful range read of a root
returns the bytes the root was made for, and a successful verification shows the same tree
with the same leaves. Both come to an end on every arena, since the heights in the visited
records go down.

The only assumption is that SHA-256 has no collision between the preimages of the honest
tree and those of the arena that is read (`NoCollision`). `content_authenticated` is the
result for a root returned by `splice`.
-/

namespace TulyaStore.Sequence

open Lib ArenaStore

/-! ## Preimages -/

def leafPreimage (logicalLen : Nat) (payload : Bytes) : Bytes :=
  v2LeafDomain ++ leBytes 8 logicalLen ++ payload

def branchPreimage (height leftLen : Nat) (left : V2Commitment) (rightLen : Nat)
    (right : V2Commitment) : Bytes :=
  v2BranchDomain ++ leBytes 2 height ++ leBytes 8 leftLen ++ left.toList ++ leBytes 8 rightLen ++
    right.toList

theorem leafPreimage_injective {n m : Nat} {xs ys : Bytes}
    (h : leafPreimage n xs = leafPreimage m ys) : xs = ys :=
  (List.append_inj h (by simp)).2

theorem branchPreimage_injective {h h' n n' m m' : Nat} {c c' d d' : V2Commitment}
    (hh : h < width 16) (hh' : h' < width 16) (hn : n < width 64) (hn' : n' < width 64)
    (hm : m < width 64) (hm' : m' < width 64)
    (hEq : branchPreimage h n c m d = branchPreimage h' n' c' m' d') :
    h = h' ∧ n = n' ∧ c = c' ∧ m = m' ∧ d = d' := by
  have hWidth : width 64 = 256 ^ 8 := by decide
  have hWidth16 : width 16 = 256 ^ 2 := by decide
  unfold branchPreimage at hEq
  obtain ⟨hEq, hd⟩ := List.append_inj hEq (by simp)
  obtain ⟨hEq, hRight⟩ := List.append_inj hEq (by simp)
  obtain ⟨hEq, hc⟩ := List.append_inj hEq (by simp)
  obtain ⟨hEq, hLeft⟩ := List.append_inj hEq (by simp)
  obtain ⟨-, hHeight⟩ := List.append_inj hEq (by simp)
  exact ⟨leBytes_injective (by omega) (by omega) hHeight,
    leBytes_injective (by omega) (by omega) hLeft, Vector.toList_inj.mp hc,
    leBytes_injective (by omega) (by omega) hRight, Vector.toList_inj.mp hd⟩

/-- The domains keep leaves and branches apart. -/
theorem leafPreimage_ne_branchPreimage {n h k m : Nat} {xs : Bytes} {c d : V2Commitment} :
    leafPreimage n xs ≠ branchPreimage h k c m d := by
  intro hEq
  have hTake := congrArg (List.take 19) hEq
  simp only [leafPreimage, branchPreimage, List.append_assoc] at hTake
  rw [List.take_append_of_le_length (by decide), List.take_append_of_le_length (by decide)] at hTake
  revert hTake
  decide

section Preimages

variable (sha256 : Bytes → Digest)

/-- The commitment of a rope, leaves first. -/
def commitmentOf : Rope UInt8 → V2Commitment
  | .leaf bytes => sha256 (leafPreimage bytes.length bytes)
  | .node l r => sha256 (branchPreimage (max l.height r.height + 1) l.length (commitmentOf l)
      r.length (commitmentOf r))

/-- What is hashed for the nodes of a rope. -/
def ropePreimages : Rope UInt8 → List Bytes
  | .leaf bytes => [leafPreimage bytes.length bytes]
  | .node l r => branchPreimage (max l.height r.height + 1) l.length (commitmentOf sha256 l)
      r.length (commitmentOf sha256 r) :: (ropePreimages l ++ ropePreimages r)

/-- What is hashed when a node of the arena is validated. -/
def NodePreimage {A : Type} [ArenaStore A] (arena : A) (preimage : Bytes) : Prop :=
  ∃ nodeId node, arenaLoadNode arena nodeId = .ok node ∧
    match node with
    | .leaf offset len _ => ∃ bytes, arenaReadPayload arena offset (offset + len) = .ok bytes ∧
        preimage = leafPreimage bytes.length bytes
    | .branch left right _ => preimage = branchPreimage (max left.height right.height + 1)
        left.logicalLen left.commitment right.logicalLen right.commitment

/-- SHA-256 has no collision between the nodes of the rope and those of the arena. -/
def NoCollision {A : Type} [ArenaStore A] (t : Rope UInt8) (arena : A) : Prop :=
  ∀ m ∈ ropePreimages sha256 t, ∀ m', NodePreimage arena m' → sha256 m' = sha256 m → m' = m

end Preimages

variable {sha256 : Bytes → Digest}

theorem NoCollision.left {A : Type} [ArenaStore A] {l r : Rope UInt8} {arena : A}
    (h : NoCollision sha256 (.node l r) arena) : NoCollision sha256 l arena :=
  fun m hm => h m (List.mem_cons_of_mem _ (List.mem_append_left _ hm))

theorem NoCollision.right {A : Type} [ArenaStore A] {l r : Rope UInt8} {arena : A}
    (h : NoCollision sha256 (.node l r) arena) : NoCollision sha256 r arena :=
  fun m hm => h m (List.mem_cons_of_mem _ (List.mem_append_right _ hm))

/-! ## Arenas that can be read -/

/-- What reads of any arena have in common: the payload ranges are cut out of one content, and
neither access runs without end. -/
class ReadableArena (A : Type) [ArenaStore A] : Prop where
  content : ∀ arena : A, ∃ byteAt : Nat → UInt8, ∀ start stop bytes,
    arenaReadPayload arena start stop = .ok bytes →
      start ≤ stop ∧ bytes = (List.range' start (stop - start)).map byteAt
  load_ends : ∀ (arena : A) nodeId, arenaLoadNode arena nodeId ≠ .error .diverged
  read_ends : ∀ (arena : A) start stop, arenaReadPayload arena start stop ≠ .error .diverged

/-- The computation does not run out of its step bound. -/
def Ends {α : Type} (x : Except V2AvlError α) : Prop := x ≠ .error .diverged

section Ends

variable {α β : Type}

theorem ends_ok (a : α) : Ends (.ok a : Except V2AvlError α) := nofun

theorem ends_bind {x : Except V2AvlError α} {f : α → Except V2AvlError β} (hx : Ends x)
    (hf : ∀ a, x = .ok a → Ends (f a)) : Ends (x >>= f) := by
  intro h
  obtain h | ⟨a, ha, h⟩ := bind_eq_error.mp h
  · exact hx h
  · exact hf a ha h

theorem ends_okOr {x : Option α} {e : V2AvlError} (h : e ≠ .diverged) : Ends (okOr x e) := by
  cases x with
  | none => exact fun hEq => h (Except.error.inj hEq)
  | some a => exact nofun

theorem ends_failIf {c : Prop} [Decidable c] {e : V2AvlError} (h : e ≠ .diverged) :
    Ends (failIf c e) :=
  fun hEq => h (failIf_eq_error.mp hEq).2

theorem ends_liftFormat (x : Except V2FormatError α) : Ends (liftFormat x) := by
  cases x with
  | error e => exact nofun
  | ok a => exact nofun

end Ends

instance : ReadableArena V2AvlSequence where
  content arena := by
    refine ⟨fun i => arena.payload.getD i 0, fun start stop bytes h => ?_⟩
    obtain ⟨-, -, hSlice⟩ := V2AvlSequence.readPayload_eq_ok.mp h
    exact ⟨(slice_eq_some.mp hSlice).1, slice_eq_map 0 hSlice⟩
  load_ends _ _ := ends_bind (ends_okOr nofun) fun _ _ => ends_okOr nofun
  read_ends _ _ _ := ends_bind (ends_okOr nofun) fun _ _ =>
    ends_bind (ends_okOr nofun) fun _ _ => ends_okOr nofun

namespace PhysicalContentStore

theorem readExactAt_eq_map {file bytes : Bytes} {offset len : Nat}
    (h : readExactAt file offset len = some bytes) :
    bytes = (List.range' offset len).map (fun i => file.getD i 0) := by
  unfold readExactAt at h
  split at h
  case isTrue hZero =>
    cases h
    simp [hZero]
  case isFalse => simpa using slice_eq_map 0 h

/-- A payload read is a range of the payload file, behind its header. -/
theorem readPayloadRange_eq {store : PhysicalContentStore} {start stop : Nat} {bytes : Bytes}
    (h : store.readPayloadRange start stop = .ok bytes) :
    start ≤ stop ∧ bytes = (List.range' start (stop - start)).map
      (fun i => (store.payload.getD []).getD (physicalHeaderSize + i) 0) := by
  simp only [readPayloadRange, payloadFile, bind_eq_ok, failIf_eq_ok, okOr_eq_ok,
    checkedAdd_eq_some] at h
  obtain ⟨-, hOrder, -, -, offset, ⟨-, rfl⟩, file, hFile, hRead⟩ := h
  refine ⟨Nat.not_lt.mp hOrder, ?_⟩
  rw [readExactAt_eq_map hRead, hFile, Option.getD_some, List.range'_eq_map_range,
    List.range'_eq_map_range, List.map_map, List.map_map]
  refine List.map_congr_left fun i _ => ?_
  simp only [Function.comp, Nat.add_assoc]

theorem loadRecord_ends (store : PhysicalContentStore) (nodeId : Nat) :
    Ends (store.loadRecord nodeId) :=
  ends_bind (ends_failIf nofun) fun _ _ => ends_bind (ends_okOr nofun) fun _ _ =>
    ends_bind (ends_okOr nofun) fun _ _ => ends_bind (ends_okOr nofun) fun _ _ =>
      ends_bind (ends_okOr nofun) fun _ _ => ends_liftFormat _

theorem v2NodeFields_ends (record : V2NodeRecord) : Ends (v2NodeFields record) := by
  unfold v2NodeFields
  refine ends_bind (ends_okOr nofun) fun _ _ => ends_bind (ends_okOr nofun) fun _ _ => ?_
  split
  · exact nofun
  · exact ends_bind (ends_okOr nofun) fun _ _ => nofun

theorem readPayloadRange_ends (store : PhysicalContentStore) (start stop : Nat) :
    Ends (store.readPayloadRange start stop) :=
  ends_bind (ends_failIf nofun) fun _ _ => ends_bind (ends_failIf nofun) fun _ _ =>
    ends_bind (ends_okOr nofun) fun _ _ => ends_bind (ends_okOr nofun) fun _ _ => ends_okOr nofun

theorem buildArenaNode_ends (store : PhysicalContentStore) (nodeId : Nat) (record : V2NodeRecord) :
    Ends (store.buildArenaNode nodeId record) := by
  refine ends_bind (v2NodeFields_ends record) fun fields _ => ?_
  cases fields with
  | leaf =>
    exact ends_bind (ends_okOr nofun) fun _ _ => ends_bind (ends_failIf nofun) fun _ _ => nofun
  | branch =>
    exact ends_bind (ends_failIf nofun) fun _ _ => ends_bind (loadRecord_ends _ _) fun _ _ =>
      ends_bind (loadRecord_ends _ _) fun _ _ => ends_bind (ends_liftFormat _) fun _ _ =>
        ends_bind (ends_liftFormat _) fun _ _ => ends_bind (ends_failIf nofun) fun _ _ => nofun

end PhysicalContentStore

instance : ReadableArena PhysicalContentStore where
  content _ := ⟨_, fun _ _ _ h => PhysicalContentStore.readPayloadRange_eq h⟩
  load_ends store nodeId := ends_bind (store.loadRecord_ends nodeId) fun _ _ =>
    store.buildArenaNode_ends _ _
  read_ends := PhysicalContentStore.readPayloadRange_ends

/-! ## One validated node -/

section Node

variable {A : Type} [ArenaStore A] {arena : A} {t : Rope UInt8} {root : V2RootRecord}
  {node : ArenaNode}

theorem resolved_node (h : nodeForRootOn arena root = .ok node) :
    arenaLoadNode arena root.nodeId = .ok node ∧ root.nodeId ≠ v2NoneNode ∧
      root = ⟨root.nodeId, node.record.logicalLen, node.record.height, node.record.commitment⟩ := by
  simp only [nodeForRootOn, liftFormat, bind_eq_ok, mapErr_eq_ok, failIf_eq_ok, pure_eq_ok,
    not_not] at h
  obtain ⟨_, hLoad, canonical, hCanonical, _, rfl, rfl⟩ := h
  obtain ⟨hNone, hRoot⟩ := fromNode_eq_ok.mp hCanonical
  exact ⟨hLoad, hNone, hRoot⟩

theorem validated_leaf {offset len : Nat} {record : V2NodeRecord}
    (h : validateNodeOn sha256 arena (.leaf offset len record) = .ok ()) :
    ∃ bytes, arenaReadPayload arena offset (offset + len) = .ok bytes ∧
      V2NodeRecord.leaf sha256 offset bytes = .ok record := by
  simp only [validateNodeOn, liftFormat, bind_eq_ok, okOr_eq_ok, checkedAdd_eq_some, mapErr_eq_ok,
    failIf_eq_ok, not_not] at h
  obtain ⟨_, ⟨-, rfl⟩, bytes, hRead, expected, hLeaf, rfl⟩ := h
  exact ⟨bytes, hRead, hLeaf⟩

theorem validated_branch {left right : V2RootRecord} {record : V2NodeRecord}
    (h : validateNodeOn sha256 arena (.branch left right record) = .ok ()) :
    V2NodeRecord.branch sha256 left right = .ok record := by
  simp only [validateNodeOn, liftFormat, bind_eq_ok, mapErr_eq_ok, failIf_eq_ok, not_not] at h
  obtain ⟨expected, hBranch, rfl⟩ := h
  exact hBranch

/-- The length and the commitment of a root are those of the rope. -/
structure Commits (sha256 : Bytes → Digest) (t : Rope UInt8) (root : V2RootRecord) : Prop where
  logicalLen : root.logicalLen = t.length
  commitment : root.commitment = commitmentOf sha256 t

/-- Heights and lengths of the rope and its parts fit their fields. -/
def FieldsFit : Rope UInt8 → Prop
  | .leaf bytes => bytes.length < width 64
  | .node l r => max l.height r.height + 1 < width 16 ∧ l.length + r.length < width 64 ∧
      FieldsFit l ∧ FieldsFit r

/-- A validated node under a root that commits to a leaf is that leaf. -/
theorem authentic_leaf {bytes : Bytes} (hCommits : Commits sha256 (.leaf bytes) root)
    (hNoCollision : NoCollision sha256 (.leaf bytes) arena)
    (hNode : nodeForRootOn arena root = .ok node)
    (hValid : validateNodeOn sha256 arena node = .ok ()) :
    ∃ offset len record, node = .leaf offset len record ∧
      arenaReadPayload arena offset (offset + len) = .ok bytes := by
  obtain ⟨hLoad, -, hRoot⟩ := resolved_node hNode
  have hCommitment : node.record.commitment = sha256 (leafPreimage bytes.length bytes) := by
    have hSame : root.commitment = node.record.commitment :=
      congrArg V2RootRecord.commitment hRoot
    rw [← hSame, hCommits.commitment]
    rfl
  have hMem : leafPreimage bytes.length bytes ∈ ropePreimages sha256 (.leaf bytes) := by
    simp [ropePreimages]
  cases node with
  | leaf offset len record =>
    obtain ⟨found, hRead, hLeaf⟩ := validated_leaf hValid
    obtain ⟨-, hRecord⟩ := leaf_eq_ok.mp hLeaf
    have hSame : sha256 (leafPreimage found.length found) =
        sha256 (leafPreimage bytes.length bytes) := by
      rw [← hCommitment]
      simp only [ArenaNode.record, hRecord]
      rfl
    have hPre := hNoCollision _ hMem _ ⟨root.nodeId, _, hLoad, found, hRead, rfl⟩ hSame
    rw [leafPreimage_injective hPre] at hRead
    exact ⟨offset, len, record, rfl, hRead⟩
  | branch left right record =>
    obtain ⟨-, -, -, -, -, hRecord⟩ := branch_eq_ok.mp (validated_branch hValid)
    have hSame : sha256 (branchPreimage (max left.height right.height + 1) left.logicalLen
        left.commitment right.logicalLen right.commitment) =
        sha256 (leafPreimage bytes.length bytes) := by
      rw [← hCommitment]
      simp only [ArenaNode.record, hRecord]
      rfl
    have hPre := hNoCollision _ hMem _ ⟨root.nodeId, _, hLoad, rfl⟩ hSame
    exact (leafPreimage_ne_branchPreimage hPre.symm).elim

/-- A validated node under a root that commits to an inner node is a branch whose children
commit to its children. -/
theorem authentic_branch {l r : Rope UInt8} (hCommits : Commits sha256 (.node l r) root)
    (hFit : FieldsFit (.node l r)) (hNoCollision : NoCollision sha256 (.node l r) arena)
    (hNode : nodeForRootOn arena root = .ok node)
    (hValid : validateNodeOn sha256 arena node = .ok ()) :
    ∃ left right record, node = .branch left right record ∧
      Commits sha256 l left ∧ Commits sha256 r right := by
  obtain ⟨hLoad, -, hRoot⟩ := resolved_node hNode
  have hCommitment : node.record.commitment = sha256 (branchPreimage (max l.height r.height + 1)
      l.length (commitmentOf sha256 l) r.length (commitmentOf sha256 r)) := by
    have hSame : root.commitment = node.record.commitment :=
      congrArg V2RootRecord.commitment hRoot
    rw [← hSame, hCommits.commitment]
    rfl
  have hMem : branchPreimage (max l.height r.height + 1) l.length (commitmentOf sha256 l)
      r.length (commitmentOf sha256 r) ∈ ropePreimages sha256 (.node l r) := by
    simp [ropePreimages]
  cases node with
  | leaf offset len record =>
    obtain ⟨found, hRead, hLeaf⟩ := validated_leaf hValid
    obtain ⟨-, hRecord⟩ := leaf_eq_ok.mp hLeaf
    have hSame : sha256 (leafPreimage found.length found) =
        sha256 (branchPreimage (max l.height r.height + 1) l.length (commitmentOf sha256 l)
          r.length (commitmentOf sha256 r)) := by
      rw [← hCommitment]
      simp only [ArenaNode.record, hRecord]
      rfl
    have hPre := hNoCollision _ hMem _ ⟨root.nodeId, _, hLoad, found, hRead, rfl⟩ hSame
    exact (leafPreimage_ne_branchPreimage hPre).elim
  | branch left right record =>
    obtain ⟨-, -, -, hHeight, hLen, hRecord⟩ := branch_eq_ok.mp (validated_branch hValid)
    have hSame : sha256 (branchPreimage (max left.height right.height + 1) left.logicalLen
        left.commitment right.logicalLen right.commitment) =
        sha256 (branchPreimage (max l.height r.height + 1) l.length (commitmentOf sha256 l)
          r.length (commitmentOf sha256 r)) := by
      rw [← hCommitment]
      simp only [ArenaNode.record, hRecord]
      rfl
    have hPre := hNoCollision _ hMem _ ⟨root.nodeId, _, hLoad, rfl⟩ hSame
    obtain ⟨hFitHeight, hFitLen, -, -⟩ := hFit
    obtain ⟨-, hLeftLen, hLeft, hRightLen, hRight⟩ := branchPreimage_injective hHeight hFitHeight
      (by omega) (by omega) (by omega) (by omega) hPre
    exact ⟨left, right, record, rfl, ⟨hLeftLen, hLeft⟩, ⟨hRightLen, hRight⟩⟩

/-- The children of a validated branch are lower than it, and not empty. -/
theorem children_lower {root left right : V2RootRecord} {record : V2NodeRecord}
    (hNode : nodeForRootOn arena root = .ok (.branch left right record))
    (hValid : validateNodeOn sha256 arena (.branch left right record) = .ok ()) :
    1 ≤ left.height ∧ 1 ≤ right.height ∧ root.height = max left.height right.height + 1 := by
  obtain ⟨⟨-, -, hLeft⟩, ⟨-, -, hRight⟩, -, -, -, hRecord⟩ :=
    branch_eq_ok.mp (validated_branch hValid)
  obtain ⟨-, -, hRoot⟩ := resolved_node hNode
  have hHeight : root.height = record.height := congrArg V2RootRecord.height hRoot
  rw [hHeight, hRecord]
  exact ⟨by omega, by omega, rfl⟩

end Node

/-! ## Verification and range reads -/

section Whole

variable {A : Type} [ArenaStore A] {arena : A}

/-- The arena holds the rope under the root: its shape and its leaves. -/
def HoldsTree (arena : A) : Rope UInt8 → V2RootRecord → Prop
  | .leaf bytes, root => ∃ offset len record,
      arenaLoadNode arena root.nodeId = .ok (.leaf offset len record) ∧
      arenaReadPayload arena offset (offset + len) = .ok bytes
  | .node l r, root => ∃ left right record,
      arenaLoadNode arena root.nodeId = .ok (.branch left right record) ∧
      HoldsTree arena l left ∧ HoldsTree arena r right

theorem verifyNodeOn_authentic {t : Rope UInt8} {root : V2RootRecord} {fuel visited count : Nat}
    (hCommits : Commits sha256 t root) (hFit : FieldsFit t)
    (hNoCollision : NoCollision sha256 t arena)
    (h : verifyNodeOn sha256 arena fuel root visited = .ok count) : HoldsTree arena t root := by
  induction t generalizing root fuel visited count with
  | leaf bytes =>
    cases fuel with
    | zero => cases h
    | succ fuel =>
      simp only [verifyNodeOn, bind_eq_ok] at h
      obtain ⟨node, hNode, _, hValid, -⟩ := h
      obtain ⟨offset, len, record, rfl, hRead⟩ := authentic_leaf hCommits hNoCollision hNode hValid
      exact ⟨offset, len, record, (resolved_node hNode).1, hRead⟩
  | node l r ihl ihr =>
    cases fuel with
    | zero => cases h
    | succ fuel =>
      simp only [verifyNodeOn, bind_eq_ok] at h
      obtain ⟨node, hNode, _, hValid, h⟩ := h
      obtain ⟨left, right, record, rfl, hLeft, hRight⟩ :=
        authentic_branch hCommits hFit hNoCollision hNode hValid
      obtain ⟨countLeft, hVerifyLeft, hVerifyRight⟩ := bind_eq_ok.mp h
      exact ⟨left, right, record, (resolved_node hNode).1,
        ihl hLeft hFit.2.2.1 hNoCollision.left hVerifyLeft,
        ihr hRight hFit.2.2.2 hNoCollision.right hVerifyRight⟩

/-- What is known of a pending read on an arbitrary arena. -/
structure AuthenticTask (sha256 : Bytes → Digest) (arena : A) (t : Rope UInt8)
    (root : V2RootRecord) : Prop where
  commits : Commits sha256 t root
  fit : FieldsFit t
  noCollision : NoCollision sha256 t arena

variable [ReadableArena A]

/-- A visit that succeeds emits and pushes what its task asks for. -/
theorem readTaskOn_authentic {t : Rope UInt8} {task : ReadTask} {bytes : Bytes}
    {tasks : List ReadTask} (hTask : AuthenticTask sha256 arena t task.root)
    (hRange : task.offset + task.length ≤ t.length)
    (h : readTaskOn sha256 arena task = .ok (bytes, tasks)) :
    ∃ ts, List.Forall₂ (fun t task => AuthenticTask sha256 arena t task.root ∧
        task.offset + task.length ≤ t.length) ts tasks ∧
      bytes ++ stackBytes ts tasks = taskBytes t task := by
  obtain ⟨hCommits, hFit, hNoCollision⟩ := hTask
  obtain ⟨node, hNode, hRest⟩ := bind_eq_ok.mp h
  obtain ⟨⟨⟩, hValid, hRest⟩ := bind_eq_ok.mp hRest
  cases t with
  | leaf content =>
    obtain ⟨offset, len, record, rfl, hWhole⟩ := authentic_leaf hCommits hNoCollision hNode hValid
    simp only [bind_eq_ok, okOr_eq_ok, checkedAdd_eq_some, failIf_eq_ok, pure_eq_ok,
      Prod.mk.injEq] at hRest
    obtain ⟨_, ⟨-, rfl⟩, -, hInside, _, ⟨-, rfl⟩, _, ⟨-, rfl⟩, _, hPart, rfl, rfl⟩ := hRest
    obtain ⟨byteAt, hContent⟩ := ReadableArena.content arena
    obtain ⟨-, hWhole⟩ := hContent _ _ _ hWhole
    obtain ⟨-, hPart⟩ := hContent _ _ _ hPart
    refine ⟨[], .nil, ?_⟩
    have hNone : stackBytes [] [] = [] := rfl
    rw [taskBytes, Rope.toList_leaf, hNone, List.append_nil, hPart, hWhole,
      Nat.add_sub_cancel_left, Nat.add_sub_cancel_left, ← List.map_drop, ← List.map_take,
      List.drop_range', List.take_range'_of_length_ge (by omega), Nat.mul_one]
  | node l r =>
    obtain ⟨left, right, record, rfl, hLeft, hRight⟩ :=
      authentic_branch hCommits hFit hNoCollision hNode hValid
    obtain ⟨rfl, rfl⟩ : [] = bytes ∧ childTasks left right task = tasks := by
      rw [readTaskOn_branch hNode hValid] at h
      simpa using h
    rw [Rope.length_node] at hRange
    obtain ⟨ts, hTasks, hBytes, -⟩ := @childTasks_spec (AuthenticTask sha256 arena) l r left right
      task ⟨hLeft, hFit.2.2.1, hNoCollision.left⟩ ⟨hRight, hFit.2.2.2, hNoCollision.right⟩
      hLeft.logicalLen hRange
    exact ⟨ts, hTasks, hBytes⟩

theorem readStackOn_authentic {ts : List (Rope UInt8)} {stack : List ReadTask}
    {fuel visited count : Nat} {output result : Bytes}
    (hStack : List.Forall₂ (fun t task => AuthenticTask sha256 arena t task.root ∧
      task.offset + task.length ≤ t.length) ts stack)
    (h : readStackOn sha256 arena fuel stack output visited = .ok (result, count)) :
    result = output ++ stackBytes ts stack := by
  induction fuel generalizing ts stack output visited with
  | zero =>
    cases hStack with
    | nil =>
      obtain ⟨rfl, -⟩ : output = result ∧ visited = count := by simpa [readStackOn] using h
      simp [stackBytes]
    | cons _ _ => cases h
  | succ fuel ih =>
    cases hStack with
    | nil =>
      obtain ⟨rfl, -⟩ : output = result ∧ visited = count := by simpa [readStackOn] using h
      simp [stackBytes]
    | @cons t task ts stack hTask hRest =>
      simp only [readStackOn, bind_eq_ok] at h
      obtain ⟨⟨bytes, tasks⟩, hVisit, h⟩ := h
      obtain ⟨us, hTasks, hBytes⟩ := readTaskOn_authentic hTask.1 hTask.2 hVisit
      rw [ih (List.rel_append hTasks hRest) h, stackBytes_append hTasks.length_eq, stackBytes,
        ← hBytes]
      simp only [List.append_assoc]

theorem readRangeCountedOn_authentic {t : Rope UInt8} {root : V2RootRecord}
    {offset length count : Nat} {bytes : Bytes} (hTask : AuthenticTask sha256 arena t root)
    (h : readRangeCountedOn sha256 arena root offset length = .ok (bytes, count)) :
    offset + length ≤ t.length ∧ bytes = (t.toList.drop offset).take length := by
  simp only [readRangeCountedOn, bind_eq_ok, okOr_eq_ok, checkedAdd_eq_some, failIf_eq_ok] at h
  obtain ⟨_, -, _, ⟨-, rfl⟩, _, hInside, _, -, h⟩ := h
  rw [hTask.commits.logicalLen] at hInside
  refine ⟨Nat.not_lt.mp hInside, ?_⟩
  split at h
  case isTrue hZero =>
    obtain ⟨rfl, -⟩ : [] = bytes ∧ 0 = count := by simpa [pure, Except.pure] using h
    simp [hZero]
  case isFalse =>
    obtain ⟨⟨output, visited⟩, hLoop, h⟩ := bind_eq_ok.mp h
    obtain ⟨_, -, h⟩ := bind_eq_ok.mp h
    obtain ⟨rfl, -⟩ : output = bytes ∧ visited = count := by simpa [pure, Except.pure] using h
    have hTasks : List.Forall₂ (fun (t : Rope UInt8) (task : ReadTask) =>
        AuthenticTask sha256 arena t task.root ∧ task.offset + task.length ≤ t.length)
          [t] [⟨root, offset, length⟩] :=
      .cons ⟨hTask, Nat.not_lt.mp hInside⟩ .nil
    have hStack := readStackOn_authentic hTasks hLoop
    simpa [stackBytes, taskBytes] using hStack

end Whole

/-! ## Termination -/

section Termination

variable {A : Type} [ArenaStore A] {arena : A}

/-- A bound on the visits a stack can still take. -/
def pendingVisits (stack : List ReadTask) : Nat := (stack.map fun task => 3 ^ task.root.height).sum

theorem pendingVisits_append (xs ys : List ReadTask) :
    pendingVisits (xs ++ ys) = pendingVisits xs + pendingVisits ys := by
  simp [pendingVisits]

theorem pendingVisits_childTasks {left right : V2RootRecord} (task : ReadTask) :
    pendingVisits (childTasks left right task) < 3 ^ (max left.height right.height + 1) := by
  have h1 : 3 ^ left.height ≤ 3 ^ max left.height right.height :=
    Nat.pow_le_pow_right (by omega) (le_max_left _ _)
  have h2 : 3 ^ right.height ≤ 3 ^ max left.height right.height :=
    Nat.pow_le_pow_right (by omega) (le_max_right _ _)
  have h3 : 0 < 3 ^ max left.height right.height := Nat.pow_pos (by omega)
  rw [Nat.pow_succ]
  unfold childTasks pendingVisits
  split
  · split
    · split
      · simp only [List.cons_append, List.nil_append, List.map_cons, List.map_nil, List.sum_cons,
          List.sum_nil]
        omega
      · simp only [List.append_nil, List.map_cons, List.map_nil, List.sum_cons, List.sum_nil]
        omega
    · split
      · simp only [List.nil_append, List.map_cons, List.map_nil, List.sum_cons, List.sum_nil]
        omega
      · simp only [List.append_nil, List.map_nil, List.sum_nil]
        omega
  · simp only [List.map_cons, List.map_nil, List.sum_cons, List.sum_nil]
    omega

theorem pendingVisits_readTaskOn {task : ReadTask} {bytes : Bytes} {tasks : List ReadTask}
    (h : readTaskOn sha256 arena task = .ok (bytes, tasks)) :
    pendingVisits tasks < 3 ^ task.root.height := by
  obtain ⟨node, hNode, hRest⟩ := bind_eq_ok.mp h
  obtain ⟨⟨⟩, hValid, hRest⟩ := bind_eq_ok.mp hRest
  cases node with
  | leaf offset len record =>
    simp only [bind_eq_ok, okOr_eq_ok, failIf_eq_ok, pure_eq_ok, Prod.mk.injEq] at hRest
    obtain ⟨_, -, -, -, _, -, _, -, _, -, -, rfl⟩ := hRest
    simp [pendingVisits]
  | branch left right record =>
    obtain ⟨-, -, hHeight⟩ := children_lower hNode hValid
    obtain ⟨-, rfl⟩ : [] = bytes ∧ childTasks left right task = tasks := by
      rw [readTaskOn_branch hNode hValid] at h
      simpa using h
    rw [hHeight]
    exact pendingVisits_childTasks task

variable [ReadableArena A]

theorem nodeForRootOn_ends (root : V2RootRecord) : Ends (nodeForRootOn arena root) :=
  ends_bind (ReadableArena.load_ends _ _) fun _ _ => ends_bind (ends_liftFormat _) fun _ _ =>
    ends_bind (ends_failIf nofun) fun _ _ => ends_ok _

theorem validateNodeOn_ends (node : ArenaNode) : Ends (validateNodeOn sha256 arena node) := by
  cases node with
  | leaf =>
    exact ends_bind (ends_okOr nofun) fun _ _ => ends_bind (ReadableArena.read_ends _ _ _) fun _ _ =>
      ends_bind (ends_liftFormat _) fun _ _ => ends_failIf nofun
  | branch => exact ends_bind (ends_liftFormat _) fun _ _ => ends_failIf nofun

theorem verifyNodeOn_ends {fuel visited : Nat} {root : V2RootRecord} (hPos : 1 ≤ root.height)
    (hFuel : root.height ≤ fuel) : Ends (verifyNodeOn sha256 arena fuel root visited) := by
  induction fuel generalizing root visited with
  | zero => omega
  | succ fuel ih =>
    unfold verifyNodeOn
    refine ends_bind (nodeForRootOn_ends root) fun node hNode =>
      ends_bind (validateNodeOn_ends node) fun _ hValid => ?_
    cases node with
    | leaf => exact ends_ok _
    | branch left right record =>
      obtain ⟨hLeft, hRight, hHeight⟩ := children_lower hNode hValid
      exact ends_bind (ih hLeft (by omega)) fun _ _ => ih hRight (by omega)

theorem readTaskOn_ends (task : ReadTask) : Ends (readTaskOn sha256 arena task) := by
  refine ends_bind (nodeForRootOn_ends _) fun node _ =>
    ends_bind (validateNodeOn_ends node) fun _ _ => ?_
  cases node with
  | leaf =>
    exact ends_bind (ends_okOr nofun) fun _ _ => ends_bind (ends_failIf nofun) fun _ _ =>
      ends_bind (ends_okOr nofun) fun _ _ => ends_bind (ends_okOr nofun) fun _ _ =>
        ends_bind (ReadableArena.read_ends _ _ _) fun _ _ => ends_ok _
  | branch =>
    dsimp only
    split
    · exact ends_ok _
    · exact ends_ok _

theorem readStackOn_ends {fuel visited : Nat} {stack : List ReadTask} {output : Bytes}
    (hFuel : pendingVisits stack ≤ fuel) :
    Ends (readStackOn sha256 arena fuel stack output visited) := by
  induction fuel generalizing stack output visited with
  | zero =>
    cases stack with
    | nil => exact ends_ok _
    | cons task stack =>
      have : 0 < 3 ^ task.root.height := Nat.pow_pos (by omega)
      simp only [pendingVisits, List.map_cons, List.sum_cons] at hFuel
      omega
  | succ fuel ih =>
    cases stack with
    | nil => exact ends_ok _
    | cons task stack =>
      refine ends_bind (readTaskOn_ends task) fun found hVisit => ?_
      have hLess := pendingVisits_readTaskOn hVisit
      refine ih ?_
      rw [pendingVisits_append]
      simp only [pendingVisits, List.map_cons, List.sum_cons] at hFuel hLess ⊢
      omega

theorem readRangeCountedOn_ends (root : V2RootRecord) (offset length : Nat) :
    Ends (readRangeCountedOn sha256 arena root offset length) := by
  refine ends_bind (nodeForRootOn_ends _) fun _ _ => ?_
  refine ends_bind (ends_okOr (by simp)) fun _ _ => ?_
  refine ends_bind (ends_failIf (by simp)) fun _ _ => ?_
  refine ends_bind (ends_okOr (by simp)) fun _ _ => ?_
  split
  · exact ends_ok _
  · refine ends_bind (readStackOn_ends (by simp [pendingVisits])) fun _ _ => ?_
    exact ends_bind (ends_failIf (by simp)) fun _ _ => ends_ok _

theorem verifyRoot_ends {root : V2RootRecord} (hPos : 1 ≤ root.height) :
    Ends (verifyRoot sha256 arena root) :=
  ends_bind (verifyNodeOn_ends hPos (Nat.le_refl _)) fun _ _ => ends_ok _

end Termination

/-! ## Roots of honest arenas -/

theorem Denotes.commits {a : V2AvlSequence} {t : Rope UInt8} {root : V2RootRecord}
    (h : Denotes sha256 a t root) : Commits sha256 t root := by
  refine ⟨h.logicalLen, ?_⟩
  induction t generalizing root with
  | leaf bytes =>
    obtain ⟨-, offset, record, -, -, hRecord, hRoot⟩ := h
    obtain ⟨-, hRecord⟩ := leaf_eq_ok.mp hRecord
    obtain ⟨-, hRoot⟩ := fromNode_eq_ok.mp hRoot
    rw [congrArg V2RootRecord.commitment hRoot, hRecord]
    rfl
  | node l r ihl ihr =>
    obtain ⟨-, left, right, record, -, hRecord, hRoot, -, -, hl, hr⟩ := h
    obtain ⟨-, -, -, -, -, hRecord⟩ := branch_eq_ok.mp hRecord
    obtain ⟨-, hRoot⟩ := fromNode_eq_ok.mp hRoot
    rw [congrArg V2RootRecord.commitment hRoot, hRecord]
    dsimp only
    rw [hl.height, hr.height, hl.logicalLen, hr.logicalLen, ihl hl, ihr hr]
    rfl

theorem Denotes.fieldsFit {a : V2AvlSequence} {t : Rope UInt8} {root : V2RootRecord}
    (h : Denotes sha256 a t root) : FieldsFit t := by
  induction t generalizing root with
  | leaf bytes => exact h.metadata.2.2
  | node l r ihl ihr =>
    obtain ⟨-, left, right, record, -, hRecord, -, -, -, hl, hr⟩ := h
    obtain ⟨-, -, -, hHeight, hLen, -⟩ := branch_eq_ok.mp hRecord
    rw [hl.height, hr.height] at hHeight
    rw [hl.logicalLen, hr.logicalLen] at hLen
    exact ⟨hHeight, hLen, ihl hl, ihr hr⟩

/-- A root returned by a splice stands for a rope that every other arena has to agree with:
range reads of the root return ranges of the rope or fail, a verification that succeeds shows
the rope under the root, and both come to an end. -/
theorem content_authenticated {a b : V2AvlSequence} {parent : Option V2RootRecord}
    {offset deleteLen : Nat} {insert : Bytes} {result : V2SpliceResult}
    (hWf : WellFormed sha256 a)
    (hSplice : spliceOn sha256 parent offset deleteLen insert a = .ok result b) :
    ∃ t, Denotes sha256 b t result.root ∧ content b result.root = some t.toList ∧
      ∀ (A : Type) [ArenaStore A] [ReadableArena A] (other : A),
        (NoCollision sha256 t other →
          (∀ start length bytes count,
            readRangeCountedOn sha256 other result.root start length = .ok (bytes, count) →
              start + length ≤ t.toList.length ∧ bytes = (t.toList.drop start).take length) ∧
          (verifyRoot sha256 other result.root = .ok () → HoldsTree other t result.root)) ∧
        (∀ start length,
          readRangeCountedOn sha256 other result.root start length ≠ .error .diverged) ∧
        verifyRoot sha256 other result.root ≠ .error .diverged := by
  obtain ⟨-, -, t, hDenotes⟩ := spliceOn_wellFormed hWf hSplice
  refine ⟨t, hDenotes, content_of_denotes hDenotes, fun A _ _ other => ⟨fun hNoCollision => ?_, ?_, ?_⟩⟩
  · refine ⟨fun start length bytes count hRead => ?_, fun hVerify => ?_⟩
    · exact readRangeCountedOn_authentic ⟨hDenotes.commits, hDenotes.fieldsFit, hNoCollision⟩ hRead
    · obtain ⟨count, hCount, -⟩ := bind_eq_ok.mp hVerify
      exact verifyNodeOn_authentic hDenotes.commits hDenotes.fieldsFit hNoCollision hCount
  · exact fun start length => readRangeCountedOn_ends result.root start length
  · refine verifyRoot_ends ?_
    rw [hDenotes.height]
    exact t.height_pos

/-- The root of the byte 4 behind the bytes 1, 2, 3. -/
def sampleSecondRoot : V2RootRecord :=
  ⟨1, 1, 1, digestOfNat 0x0b37ab01a9c48b3629957a884ef2c75974c24e66da49b09b6e7fecc84b4c57ce⟩

def sampleRecords : List V2NodeRecord := [
  ⟨1, 3, sampleRoot.commitment, .leaf 0 3⟩,
  ⟨1, 1, sampleSecondRoot.commitment, .leaf 3 1⟩,
  ⟨2, 4, sampleBranch.commitment, .branch 0 1 3⟩]

def sampleRope : Rope UInt8 := .node (.leaf [1, 2, 3]) (.leaf [4])

/-- Content files that hold the bytes 1, 2, 3 and 4 as two leaves and the branch over them. -/
def sampleStore : PhysicalContentStore where
  generation := 0
  payload := some (encodeHeader physicalPayloadMagic 0 ++ [1, 2, 3, 4])
  nodes := some (encodeHeader physicalNodeMagic 0 ++ (sampleRecords.map encodeV2Node).flatten)
  committedPayloadEnd := 4
  committedNodeCount := 3

theorem nodePreimage_sampleStore {m : Bytes} (h : NodePreimage sampleStore m) :
    m ∈ ropePreimages sampleSha256 sampleRope := by
  obtain ⟨nodeId, node, hLoad, hNode⟩ := h
  have hId : nodeId < 3 := by
    obtain ⟨record, hRecord, -⟩ := bind_eq_ok.mp hLoad
    obtain ⟨_, hInside, -⟩ := bind_eq_ok.mp hRecord
    have : ¬ nodeId ≥ 3 := failIf_eq_ok.mp hInside
    omega
  have hLeaf : ∀ (offset len : Nat) (bytes : Bytes) (record : V2NodeRecord),
      PhysicalContentStore.loadNode sampleStore nodeId = .ok (.leaf offset len record) →
      PhysicalContentStore.readPayloadRange sampleStore offset (offset + len) = .ok bytes →
      m = leafPreimage bytes.length bytes := by
    intro offset len bytes record hThis hBytes
    obtain rfl := Except.ok.inj (hLoad.symm.trans hThis)
    obtain ⟨read, hRead, rfl⟩ := hNode
    obtain rfl := Except.ok.inj (hRead.symm.trans hBytes)
    rfl
  obtain rfl | rfl | rfl : nodeId = 0 ∨ nodeId = 1 ∨ nodeId = 2 := by omega
  · rw [hLeaf 0 3 [1, 2, 3] ⟨1, 3, sampleRoot.commitment, .leaf 0 3⟩ (by decide +kernel)
      (by decide +kernel)]
    decide +kernel
  · rw [hLeaf 3 1 [4] ⟨1, 1, sampleSecondRoot.commitment, .leaf 3 1⟩ (by decide +kernel)
      (by decide +kernel)]
    decide +kernel
  · have hBranch : PhysicalContentStore.loadNode sampleStore 2 =
        .ok (.branch sampleRoot sampleSecondRoot
          ⟨2, 4, sampleBranch.commitment, .branch 0 1 3⟩) := by decide +kernel
    obtain rfl := Except.ok.inj (hLoad.symm.trans hBranch)
    rw [hNode]
    decide +kernel

/-- What an append behind the bytes 1, 2, 3 leaves stands for the two leaves. -/
theorem denotes_sampleRope {b : V2AvlSequence} (hPayload : b.payload = [1, 2, 3, 4])
    (hNodes : b.nodes = [
      .leaf 0 3 ⟨1, 3, sampleRoot.commitment, .leaf 0 3⟩,
      .leaf 3 1 ⟨1, 1, sampleSecondRoot.commitment, .leaf 3 1⟩,
      .branch sampleRoot sampleSecondRoot ⟨2, 4, sampleBranch.commitment, .branch 0 1 3⟩]) :
    Denotes sampleSha256 b sampleRope sampleBranch := by
  refine ⟨by decide, sampleRoot, sampleSecondRoot, _, by rw [hNodes]; rfl, by decide +kernel,
    by decide +kernel, by decide, by decide, ?_, ?_⟩
  · exact ⟨by decide, 0, _, by rw [hNodes]; rfl, by rw [hPayload]; rfl, by decide +kernel,
      by decide +kernel⟩
  · exact ⟨by decide, 3, _, by rw [hNodes]; rfl, by rw [hPayload]; rfl, by decide +kernel,
      by decide +kernel⟩

theorem content_authenticated_sample :
    readRangeCountedOn sampleSha256 sampleStore sampleBranch 2 2 = .ok ([3, 4], 3) ∧
      ∃ b C, content b sampleBranch = some C ∧ [3, 4] = (C.drop 2).take 2 := by
  have hWf : WellFormed sampleSha256 (runCalls sampleSha256 sampleCalls).arena :=
    (reached_runCalls sampleSha256 sampleCalls).wellFormed
  have hRead : readRangeCountedOn sampleSha256 sampleStore sampleBranch 2 2 = .ok ([3, 4], 3) := by
    decide +kernel
  have hSpliced : yields (fun result b => decide (result.root = sampleBranch ∧
        b.payload = [1, 2, 3, 4] ∧ b.nodes = [
          .leaf 0 3 ⟨1, 3, sampleRoot.commitment, .leaf 0 3⟩,
          .leaf 3 1 ⟨1, 1, sampleSecondRoot.commitment, .leaf 3 1⟩,
          .branch sampleRoot sampleSecondRoot ⟨2, 4, sampleBranch.commitment, .branch 0 1 3⟩]))
      (spliceOn sampleSha256 (some sampleRoot) 3 0 [4]
        (runCalls sampleSha256 sampleCalls).arena) = true := by decide +kernel
  cases hSplice : spliceOn sampleSha256 (some sampleRoot) 3 0 [4]
      (runCalls sampleSha256 sampleCalls).arena with
  | error e b =>
    rw [hSplice] at hSpliced
    simp [yields] at hSpliced
  | ok result b =>
    rw [hSplice] at hSpliced
    obtain ⟨hRoot, hPayload, hNodes⟩ := of_decide_eq_true hSpliced
    obtain ⟨t, hDenotes, hContent, hOthers⟩ := content_authenticated hWf hSplice
    rw [hRoot] at hDenotes hContent hOthers
    obtain rfl : t = sampleRope := hDenotes.unique (denotes_sampleRope hPayload hNodes)
    refine ⟨hRead, b, _, hContent, ?_⟩
    refine (((hOthers PhysicalContentStore sampleStore).1 ?_).1 2 2 _ _ hRead).2
    -- the nodes of the files have the preimages of the rope, and these have different digests
    have hApart : ∀ m ∈ ropePreimages sampleSha256 sampleRope,
        ∀ m' ∈ ropePreimages sampleSha256 sampleRope,
        sampleSha256 m' = sampleSha256 m → m' = m := by decide +kernel
    exact fun m hm m' hm' => hApart m hm m' (nodePreimage_sampleStore hm')

end TulyaStore.Sequence
