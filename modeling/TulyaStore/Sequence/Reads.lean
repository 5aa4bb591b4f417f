import TulyaStore.Sequence.Arena

/-!
# Reading and verifying a root

A root that stands for the rope `t` verifies, and a range read of it returns the range of
`t.toList` or the error of the range check: the outcome depends on the rope and the
coordinates only (`readRangeCountedOn_eq`). The traversal keeps a stack of pending tasks
whose ranges, put together, are what is still to be read.
-/

namespace TulyaStore.Sequence

open Lib ArenaStore V2AvlSequence

section Verify

variable {sha256 : Bytes → Digest} {a : V2AvlSequence}

theorem verifyNodeOn_ok {t : Rope UInt8} {root : V2RootRecord} (fuel visited : Nat)
    (h : Denotes sha256 a t root) (hFuel : t.height ≤ fuel) :
    ∃ count, verifyNodeOn sha256 a fuel root visited = .ok count := by
  induction t generalizing root fuel visited with
  | leaf bytes =>
    obtain ⟨hId, offset, record, hNode, hSlice, hRecord, hRoot⟩ := h
    obtain ⟨fuel, rfl⟩ : ∃ k, fuel = k + 1 := ⟨fuel - 1, by simp at hFuel; omega⟩
    simp only [verifyNodeOn, nodeForRootOn_eq_ok.mpr ⟨hId, hNode, hRoot⟩,
      validateNodeOn_leaf hSlice hRecord, ok_bind]
    exact ⟨_, rfl⟩
  | node l r ihl ihr =>
    obtain ⟨hId, left, right, record, hNode, hRecord, hRoot, -, -, hl, hr⟩ := h
    rw [Rope.height_node] at hFuel
    obtain ⟨fuel, rfl⟩ : ∃ k, fuel = k + 1 := ⟨fuel - 1, by omega⟩
    simp only [verifyNodeOn, nodeForRootOn_eq_ok.mpr ⟨hId, hNode, hRoot⟩,
      validateNodeOn_branch hRecord, ok_bind]
    obtain ⟨countLeft, hLeft⟩ := ihl fuel (saturatingAdd 64 visited 1) hl (by omega)
    obtain ⟨count, hRight⟩ := ihr fuel countLeft hr (by omega)
    exact ⟨count, by rw [hLeft, ok_bind, hRight]⟩

theorem verifyRoot_ok {t : Rope UInt8} {root : V2RootRecord} (h : Denotes sha256 a t root) :
    verifyRoot sha256 a root = .ok () := by
  obtain ⟨count, hCount⟩ := verifyNodeOn_ok root.height 0 h (Nat.le_of_eq h.height.symm)
  unfold verifyRoot verifyRootCountedOn
  rw [hCount]
  rfl

end Verify

section ReadRange

variable {sha256 : Bytes → Digest} {a : V2AvlSequence}

/-- A pending task over a rope: its range lies inside the rope. -/
structure TaskOf (sha256 : Bytes → Digest) (a : V2AvlSequence) (t : Rope UInt8)
    (task : ReadTask) : Prop where
  denotes : Denotes sha256 a t task.root
  inRange : task.offset + task.length ≤ t.length

/-- The bytes a task asks for. -/
def taskBytes (t : Rope UInt8) (task : ReadTask) : Bytes :=
  (t.toList.drop task.offset).take task.length

/-- The bytes a stack of tasks asks for. -/
def stackBytes : List (Rope UInt8) → List ReadTask → Bytes
  | t :: ts, task :: stack => taskBytes t task ++ stackBytes ts stack
  | _, _ => []

/-- The number of steps a row of ropes can take. -/
def stackSteps (ts : List (Rope UInt8)) : Nat := (ts.map fun t => 3 ^ t.height).sum

theorem stackBytes_append {ts us : List (Rope UInt8)} {xs ys : List ReadTask}
    (h : ts.length = xs.length) :
    stackBytes (ts ++ us) (xs ++ ys) = stackBytes ts xs ++ stackBytes us ys := by
  induction ts generalizing xs with
  | nil =>
    cases xs with
    | nil => rfl
    | cons x xs => simp at h
  | cons t ts ih =>
    cases xs with
    | nil => simp at h
    | cons x xs => simp [stackBytes, ih (by simpa using h)]

/-- The tasks a visit to a branch pushes. -/
def childTasks (left right : V2RootRecord) (task : ReadTask) : List ReadTask :=
  if task.offset < left.logicalLen then
    (if min task.length (left.logicalLen - task.offset) > 0 then
      [⟨left, task.offset, min task.length (left.logicalLen - task.offset)⟩] else []) ++
    (if task.length - min task.length (left.logicalLen - task.offset) > 0 then
      [⟨right, 0, task.length - min task.length (left.logicalLen - task.offset)⟩] else [])
  else [⟨right, task.offset - left.logicalLen, task.length⟩]

theorem readTaskOn_branch {A : Type} [ArenaStore A] {arena : A} {task : ReadTask}
    {left right : V2RootRecord} {record : V2NodeRecord}
    (hNode : nodeForRootOn arena task.root = .ok (.branch left right record))
    (hValid : validateNodeOn sha256 arena (.branch left right record) = .ok ()) :
    readTaskOn sha256 arena task = .ok ([], childTasks left right task) := by
  simp only [readTaskOn, hNode, hValid, ok_bind, childTasks]
  split <;> rfl

/-- The tasks pushed at a branch ask for what the task at the branch asked for, stay inside the
children and take fewer steps. `P` is what is known of the roots of the children. -/
theorem childTasks_spec {P : Rope UInt8 → V2RootRecord → Prop} {l r : Rope UInt8}
    {left right : V2RootRecord} {task : ReadTask} (hl : P l left) (hr : P r right)
    (hLen : left.logicalLen = l.length) (hRange : task.offset + task.length ≤ l.length + r.length) :
    ∃ ts, List.Forall₂ (fun t task => P t task.root ∧ task.offset + task.length ≤ t.length) ts
        (childTasks left right task) ∧
      stackBytes ts (childTasks left right task) = taskBytes (.node l r) task ∧
      stackSteps ts < 3 ^ (Rope.node l r).height := by
  have hSteps : 3 ^ l.height + 3 ^ r.height < 3 ^ (Rope.node l r).height := by
    have h1 : 3 ^ l.height ≤ 3 ^ max l.height r.height :=
      Nat.pow_le_pow_right (by omega) (le_max_left _ _)
    have h2 : 3 ^ r.height ≤ 3 ^ max l.height r.height :=
      Nat.pow_le_pow_right (by omega) (le_max_right _ _)
    have h3 : 0 < 3 ^ max l.height r.height := Nat.pow_pos (by omega)
    rw [Rope.height_node, Nat.pow_succ]
    omega
  have hLeftSteps : 0 < 3 ^ l.height := Nat.pow_pos (by omega)
  have hRightSteps : 0 < 3 ^ r.height := Nat.pow_pos (by omega)
  have hLeftLen : l.toList.length = l.length := rfl
  unfold childTasks
  rw [hLen]
  by_cases hInside : task.offset < l.length
  · rw [if_pos hInside]
    -- the left child gives what it has, the right child the rest
    obtain ⟨n, hn⟩ : ∃ n, n = min task.length (l.length - task.offset) := ⟨_, rfl⟩
    have hBytes : taskBytes (.node l r) task =
        (l.toList.drop task.offset).take n ++ r.toList.take (task.length - n) := by
      unfold taskBytes
      rw [Rope.toList_node, List.drop_append_of_le_length (by omega), List.take_append,
        List.length_drop, hLeftLen]
      congr 1
      · rw [hn, List.take_eq_take_iff, List.length_drop, hLeftLen]
        omega
      · congr 1
        omega
    have hLeftRange : task.offset + n ≤ l.length := by omega
    have hRightRange : 0 + (task.length - n) ≤ r.length := by omega
    rw [← hn, hBytes]
    by_cases hLeft : n > 0
    · rw [if_pos hLeft]
      by_cases hRight : task.length - n > 0
      · rw [if_pos hRight]
        refine ⟨[l, r], .cons ⟨hl, hLeftRange⟩ (.cons ⟨hr, hRightRange⟩ .nil), ?_, ?_⟩
        · simp [stackBytes, taskBytes]
        · simpa [stackSteps] using hSteps
      · rw [if_neg hRight]
        refine ⟨[l], .cons ⟨hl, hLeftRange⟩ .nil, ?_, ?_⟩
        · have hZero : task.length - n = 0 := by omega
          simp [stackBytes, taskBytes, hZero]
        · simp only [stackSteps, List.map_cons, List.map_nil, List.sum_cons, List.sum_nil]
          omega
    · have hZero : n = 0 := by omega
      have hLength : task.length = 0 := by omega
      rw [if_neg hLeft, if_neg (by omega)]
      refine ⟨[], .nil, ?_, ?_⟩
      · simp [stackBytes, hZero, hLength]
      · simp only [stackSteps, List.map_nil, List.sum_nil]
        omega
  · rw [if_neg hInside]
    have hRightRange : task.offset - l.length + task.length ≤ r.length := by omega
    refine ⟨[r], .cons ⟨hr, hRightRange⟩ .nil, ?_, ?_⟩
    · simp only [stackBytes, taskBytes, List.append_nil, Rope.toList_node]
      rw [List.drop_append, List.drop_of_length_le (show l.toList.length ≤ task.offset by omega),
        List.nil_append, hLeftLen]
    · simp only [stackSteps, List.map_cons, List.map_nil, List.sum_cons, List.sum_nil]
      omega

/-- One visit: the bytes it emits and the tasks it pushes ask for the same bytes as before,
and the pushed tasks take fewer steps. -/
theorem readTaskOn_ok {t : Rope UInt8} {task : ReadTask} (h : TaskOf sha256 a t task) :
    ∃ bytes tasks ts, readTaskOn sha256 a task = .ok (bytes, tasks) ∧
      List.Forall₂ (TaskOf sha256 a) ts tasks ∧
      bytes ++ stackBytes ts tasks = taskBytes t task ∧ stackSteps ts < 3 ^ t.height := by
  obtain ⟨hDenotes, hRange⟩ := h
  have hWidth := hDenotes.metadata.2.2
  cases t with
  | leaf bytes =>
    obtain ⟨hId, start, record, hNode, hSlice, hRecord, hRoot⟩ := hDenotes
    obtain ⟨⟨-, -, hEnd⟩, -⟩ := leaf_eq_ok.mp hRecord
    rw [Rope.length_leaf] at hRange hWidth
    have hRead : slice a.payload (start + task.offset) (start + task.offset + task.length) =
        some ((bytes.drop task.offset).take task.length) := by
      have := slice_slice hSlice (Nat.le_add_right task.offset task.length) hRange
      rwa [Nat.add_sub_cancel_left, ← Nat.add_assoc] at this
    refine ⟨(bytes.drop task.offset).take task.length, [], [], ?_, .nil, by
      simp [stackBytes, taskBytes], by simp [stackSteps]⟩
    simp only [readTaskOn, nodeForRootOn_eq_ok.mpr ⟨hId, hNode, hRoot⟩,
      validateNodeOn_leaf hSlice hRecord, ok_bind,
      checkedAdd_of_lt (show task.offset + task.length < width 64 by omega), okOr_some,
      failIf_neg (show ¬ task.offset + task.length > bytes.length by omega),
      checkedAdd_of_lt (show start + task.offset < width 64 by omega),
      checkedAdd_of_lt (show start + task.offset + task.length < width 64 by omega),
      readPayload_eq_ok.mpr ⟨show start + task.offset < width 64 by omega,
        show start + task.offset + task.length < width 64 by omega, hRead⟩]
    rfl
  | node l r =>
    obtain ⟨hId, left, right, record, hNode, hRecord, hRoot, -, -, hl, hr⟩ := hDenotes
    rw [Rope.length_node] at hRange
    obtain ⟨ts, hTasks, hBytes, hSteps⟩ := childTasks_spec hl hr hl.logicalLen hRange
    refine ⟨[], childTasks left right task, ts, ?_, ?_, by rw [List.nil_append, hBytes], hSteps⟩
    · exact readTaskOn_branch (nodeForRootOn_eq_ok.mpr ⟨hId, hNode, hRoot⟩)
        (validateNodeOn_branch hRecord)
    · exact List.Forall₂.imp (fun _ _ h => ⟨h.1, h.2⟩) hTasks

theorem stackSteps_append (ts us : List (Rope UInt8)) :
    stackSteps (ts ++ us) = stackSteps ts + stackSteps us := by
  simp [stackSteps]

/-- The traversal loop emits what the stack asks for. The step bound goes down with every
visit because a node is replaced by lower ones. -/
theorem readStackOn_ok {ts : List (Rope UInt8)} {stack : List ReadTask} (fuel : Nat)
    (output : Bytes) (visited : Nat) (h : List.Forall₂ (TaskOf sha256 a) ts stack)
    (hFuel : stackSteps ts ≤ fuel) :
    ∃ count, readStackOn sha256 a fuel stack output visited =
      .ok (output ++ stackBytes ts stack, count) := by
  induction fuel generalizing ts stack output visited with
  | zero =>
    cases h with
    | nil => exact ⟨visited, by simp [readStackOn, stackBytes]⟩
    | @cons t task ts stack hTask hRest =>
      have : 0 < 3 ^ t.height := Nat.pow_pos (by omega)
      simp only [stackSteps, List.map_cons, List.sum_cons] at hFuel
      omega
  | succ fuel ih =>
    cases h with
    | nil => exact ⟨visited, by simp [readStackOn, stackBytes]⟩
    | @cons t task ts stack hTask hRest =>
      obtain ⟨bytes, tasks, us, hVisit, hTasks, hBytes, hSteps⟩ := readTaskOn_ok hTask
      have hLess : stackSteps (us ++ ts) ≤ fuel := by
        rw [stackSteps_append]
        simp only [stackSteps, List.map_cons, List.sum_cons] at hFuel hSteps ⊢
        omega
      obtain ⟨count, hLoop⟩ := ih (output ++ bytes) (saturatingAdd 64 visited 1)
        (List.rel_append hTasks hRest) hLess
      refine ⟨count, ?_⟩
      simp only [readStackOn, hVisit, ok_bind, hLoop,
        stackBytes_append hTasks.length_eq, stackBytes,
        ← hBytes, List.append_assoc]

/-- What a range read of a rope returns: the range, or the error of the range check. -/
def rangeOf (content : Bytes) (offset length : Nat) : Except V2AvlError Bytes := do
  let stop ← okOr (checkedAdd 64 offset length) (.overflow "v2 range end exceeds u64")
  failIf (stop > content.length) (.invalid "v2 range exceeds root logical length")
  return (content.drop offset).take length

theorem rangeOf_eq_ok {C bytes : Bytes} {offset length : Nat} :
    rangeOf C offset length = .ok bytes ↔
      offset + length < width 64 ∧ offset + length ≤ C.length ∧
        bytes = (C.drop offset).take length := by
  simp only [rangeOf, bind_eq_ok, okOr_eq_ok, checkedAdd_eq_some, failIf_eq_ok, pure_eq_ok,
    Nat.not_lt]
  constructor
  · rintro ⟨_, ⟨hFits, rfl⟩, _, hInside, rfl⟩
    exact ⟨hFits, hInside, rfl⟩
  · rintro ⟨hFits, hInside, rfl⟩
    exact ⟨_, ⟨hFits, rfl⟩, (), hInside, rfl⟩

theorem readRange_eq {t : Rope UInt8} {root : V2RootRecord} (h : Denotes sha256 a t root)
    (offset length : Nat) :
    readRange sha256 a root offset length = rangeOf t.toList offset length := by
  obtain ⟨node, hNode⟩ := h.nodeForRootOn
  have hLen : t.toList.length = t.length := rfl
  have hWidth := h.metadata.2.2
  unfold readRange readRangeCountedOn rangeOf
  simp only [hNode, ok_bind]
  by_cases hEnd : offset + length < width 64
  swap
  · rw [checkedAdd_of_le (Nat.not_lt.mp hEnd)]
    rfl
  rw [checkedAdd_of_lt hEnd, okOr_some, ok_bind, ok_bind, h.logicalLen, hLen]
  by_cases hRange : offset + length > t.length
  · rw [failIf_pos hRange]
    rfl
  rw [failIf_neg hRange, ok_bind, ok_bind, tryFrom_of_lt (by omega), okOr_some, ok_bind]
  by_cases hZero : length = 0
  · subst hZero
    simp [pure, Except.pure]
  rw [if_neg hZero]
  have hTask : TaskOf sha256 a t ⟨root, offset, length⟩ := ⟨h, by dsimp only; omega⟩
  obtain ⟨count, hLoop⟩ := readStackOn_ok (3 ^ root.height) [] 0 (.cons hTask .nil)
    (by simp [stackSteps, h.height])
  rw [hLoop]
  simp only [List.nil_append, stackBytes, taskBytes, List.append_nil, ok_bind]
  rw [failIf_neg (by simp only [List.length_take, List.length_drop, hLen]; omega)]
  rfl

end ReadRange

end TulyaStore.Sequence
