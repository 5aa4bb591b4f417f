import TulyaStore.Lib.RopeCost
import TulyaStore.Sequence.ArenaRuns

/-!
# Edits are local

What a successful edit adds to the arena: at most as many nodes as its rope operations make,
and exactly the bytes it allocates leaves for (`Adds`). A splice adds the inserted bytes and
the bytes of the two leaves it cuts, and a number of nodes that is logarithmic in the parent
and linear only in the inserted chunks (`edit_locality`).
-/

namespace TulyaStore.Sequence

open Lib ArenaStore V2AvlSequence

/-! ## What a run adds -/

section Adds

variable {α β : Type}

/-- A successful run from `s` appends `bytes` to the payload and at most `n` nodes. -/
def Adds (x : EditM V2AvlSequence α) (s : EditState V2AvlSequence) (n : Nat) (bytes : Bytes) :
    Prop :=
  ∀ r s', x s = .ok r s' → s'.arena.nodes.length ≤ s.arena.nodes.length + n ∧
    s'.arena.payload = s.arena.payload ++ bytes

variable {sha256 : Bytes → Digest} {x : EditM V2AvlSequence α} {f : α → EditM V2AvlSequence β}
  {s : EditState V2AvlSequence} {n m : Nat} {b c : Bytes} {Q : α → V2AvlSequence → Prop}

theorem adds_mono (h : Adds x s n b) (hLe : n ≤ m) : Adds x s m b := by
  intro r s' hRun
  obtain ⟨hNodes, hPayload⟩ := h r s' hRun
  exact ⟨hNodes.trans (Nat.add_le_add_left hLe _), hPayload⟩

theorem adds_pure (r : α) : Adds (pure r) s 0 [] := by
  intro r' s' hRun
  obtain ⟨-, rfl⟩ := pure_run_eq_ok.mp hRun
  simp

theorem adds_throw (e : V2AvlError) : Adds (throw e : EditM V2AvlSequence α) s 0 [] := by
  intro r s' hRun
  cases hRun

theorem adds_attempt (y : Except V2AvlError α) : Adds (attempt y) s 0 [] := by
  intro r s' hRun
  obtain ⟨-, rfl⟩ := attempt_run_eq_ok.mp hRun
  simp

theorem adds_reading (g : V2AvlSequence → Except V2AvlError α) : Adds (reading g) s 0 [] :=
  adds_attempt (g s.arena)

theorem adds_inspect (k : Nat) : Adds (inspect k) s 0 [] := by
  intro r s' hRun
  cases hRun
  simp

/-- A step followed by one that adds the same from every state. -/
theorem adds_seq (hx : Adds x s n b) (hf : ∀ r s', Adds (f r) s' m c) :
    Adds (x >>= f) s (n + m) (b ++ c) := by
  intro r s' hRun
  obtain ⟨a, t, hFirst, hSecond⟩ := bind_run_eq_ok.mp hRun
  obtain ⟨hNodes, hPayload⟩ := hx a t hFirst
  obtain ⟨hNodes', hPayload'⟩ := hf a t r s' hSecond
  refine ⟨by omega, ?_⟩
  rw [hPayload', hPayload, List.append_assoc]

/-- A simulated step followed by one that uses what it returned. -/
theorem adds_bind (hSim : Simulates sha256 x s Q) (hx : Adds x s n b)
    (hf : ∀ r s', Grows s.arena s'.arena → WellFormed sha256 s'.arena → Q r s'.arena →
      Adds (f r) s' m c) : Adds (x >>= f) s (n + m) (b ++ c) := by
  intro r s' hRun
  obtain ⟨a, t, hFirst, hSecond⟩ := bind_run_eq_ok.mp hRun
  obtain ⟨hGrows, hWf, hQ⟩ := post_ok hSim hFirst
  obtain ⟨hNodes, hPayload⟩ := hx a t hFirst
  obtain ⟨hNodes', hPayload'⟩ := hf a t hGrows hWf hQ r s' hSecond
  refine ⟨by omega, ?_⟩
  rw [hPayload', hPayload, List.append_assoc]

/-- A simulated step that leaves the arena as it is. -/
theorem adds_still (hSim : Simulates sha256 x s (fun r b => Q r b ∧ b = s.arena))
    (hf : ∀ r s', WellFormed sha256 s'.arena → Q r s'.arena → s'.arena = s.arena →
      Adds (f r) s' n b) : Adds (x >>= f) s n b := by
  intro r s' hRun
  obtain ⟨a, t, hFirst, hSecond⟩ := bind_run_eq_ok.mp hRun
  obtain ⟨-, hWf, hQ, hSame⟩ := post_ok hSim hFirst
  have hAdds := hf a t hWf hQ hSame r s' hSecond
  rwa [hSame] at hAdds

end Adds

/-! ## Allocation and joins -/

section Joins

variable {sha256 : Bytes → Digest} {s : EditState V2AvlSequence}

theorem pushNode_adds (node : ArenaNode) :
    Adds (onArena (arenaPushNode node) : EditM V2AvlSequence Nat) s 1 [] := by
  intro r s' hRun
  unfold onArena at hRun
  simp only [arenaPushNode, pushNode] at hRun
  cases hCount : tryFrom 64 s.arena.nodes.length with
  | none =>
    rw [hCount] at hRun
    cases hRun
  | some nodeId =>
    rw [hCount] at hRun
    cases hRun
    simp

theorem appendPayload_adds (bytes : Bytes) :
    Adds (onArena (arenaAppendPayload bytes) : EditM V2AvlSequence Nat) s 0 bytes := by
  intro r s' hRun
  unfold onArena at hRun
  simp only [arenaAppendPayload, appendPayload] at hRun
  cases hCount : tryFrom 64 s.arena.payload.length with
  | none =>
    rw [hCount] at hRun
    cases hRun
  | some offset =>
    rw [hCount] at hRun
    cases hRun
    simp

theorem allocateNodeOn_adds (node : ArenaNode) :
    Adds (allocateNodeOn node : EditM V2AvlSequence _) s 1 [] := by
  unfold allocateNodeOn
  exact adds_seq (adds_reading _) fun _ _ => adds_seq (adds_attempt _) fun _ _ =>
    adds_seq (pushNode_adds node) fun _ _ => adds_seq (adds_attempt _) fun _ _ => adds_pure _

theorem allocateLeafOn_adds (bytes : Bytes) : Adds (allocateLeafOn sha256 bytes) s 1 bytes := by
  have hAll : Adds (allocateLeafOn sha256 bytes) s (0 + (0 + (0 + (0 + 1))))
      ([] ++ ([] ++ (bytes ++ ([] ++ [])))) :=
    adds_seq (adds_reading _) fun _ _ => adds_seq (adds_attempt _) fun _ _ =>
      adds_seq (appendPayload_adds bytes) fun _ _ => adds_seq (adds_attempt _) fun _ _ =>
        allocateNodeOn_adds _
  simpa using hAll

theorem allocateBranchOn_adds (left right : V2RootRecord) :
    Adds (allocateBranchOn sha256 left right) s 1 [] := by
  unfold allocateBranchOn
  exact adds_seq (adds_inspect 2) fun _ _ => adds_seq (adds_reading _) fun _ _ =>
    adds_seq (adds_reading _) fun _ _ => adds_seq (adds_attempt _) fun _ _ =>
      allocateNodeOn_adds _

theorem branchChildrenOn_adds (root : V2RootRecord) : Adds (branchChildrenOn root) s 0 [] := by
  unfold branchChildrenOn
  refine adds_seq (n := 0) (m := 0) (b := []) (c := []) (adds_inspect 1) fun _ _ =>
    adds_seq (n := 0) (m := 0) (b := []) (c := []) (adds_reading _) fun node _ => ?_
  cases node with
  | leaf _ _ _ => exact adds_throw _
  | branch left right _ => exact adds_pure _

/-- A rotation makes one, two or three nodes. -/
theorem rebalanceOn_adds (left right : V2RootRecord) :
    Adds (rebalanceOn sha256 left right) s 3 [] := by
  have hOne : ∀ l r s, Adds (allocateBranchOn sha256 l r) s 1 [] :=
    fun l r s => allocateBranchOn_adds l r
  have hTwo : ∀ (l r : V2RootRecord) (g : V2RootRecord → V2RootRecord × V2RootRecord) s,
      Adds (do
        let inner ← allocateBranchOn sha256 l r
        allocateBranchOn sha256 (g inner).1 (g inner).2) s 2 [] :=
    fun l r g s => adds_seq (hOne l r s) fun _ _ => hOne _ _ _
  unfold rebalanceOn
  split
  case isTrue => exact adds_mono (hOne _ _ _) (by decide)
  case isFalse =>
    split
    case isTrue =>
      refine adds_seq (n := 0) (m := 3) (b := []) (c := []) (branchChildrenOn_adds left)
        fun children _ => ?_
      dsimp only
      split
      case isTrue =>
        exact adds_mono (hTwo _ _ (fun inner => (children.1, inner)) _) (by decide)
      case isFalse =>
        exact adds_seq (n := 0) (m := 3) (b := []) (c := []) (branchChildrenOn_adds _)
          fun _ _ => adds_seq (n := 1) (m := 2) (b := []) (c := []) (hOne _ _ _)
            fun newLeft _ => hTwo _ _ (fun inner => (newLeft, inner)) _
    case isFalse =>
      refine adds_seq (n := 0) (m := 3) (b := []) (c := []) (branchChildrenOn_adds right)
        fun children _ => ?_
      dsimp only
      split
      case isTrue =>
        exact adds_mono (hTwo _ _ (fun inner => (inner, children.2)) _) (by decide)
      case isFalse =>
        exact adds_seq (n := 0) (m := 3) (b := []) (c := []) (branchChildrenOn_adds _)
          fun _ _ => adds_seq (n := 1) (m := 2) (b := []) (c := []) (hOne _ _ _)
            fun newLeft _ => hTwo _ _ (fun inner => (newLeft, inner)) _

theorem concatSteps_adds {fuel : Nat} {l r : Rope UInt8} {left right : V2RootRecord}
    (hWf : WellFormed sha256 s.arena)
    (hl : Denotes sha256 s.arena l left) (hr : Denotes sha256 s.arena r right)
    (hFuel : l.height + r.height ≤ fuel) :
    Adds (concatSteps sha256 fuel left right) s (Rope.joinCost l r) [] := by
  induction fuel generalizing s l r left right with
  | zero => have := l.height_pos; omega
  | succ fuel ih =>
    unfold concatSteps
    rw [hl.height, hr.height, saturatingAdd_height hl.height_lt,
      saturatingAdd_height hr.height_lt]
    by_cases hHigh : r.height + 1 < l.height
    · rw [if_pos hHigh]
      cases l with
      | leaf xs => simp at hHigh
      | node ll lr =>
        have hCost := Rope.joinCost_left hl.balanced hHigh
        rw [Rope.height_node] at hFuel
        refine adds_mono (adds_bind (b := []) (c := []) (branchChildrenOn_sim hWf hl)
          (branchChildrenOn_adds left) ?_) ((Nat.zero_add _).trans_le hCost)
        rintro ⟨leftLeft, leftRight⟩ s₁ hGrows₁ hWf₁ ⟨-, -, hlr⟩
        exact adds_seq (b := []) (c := []) (ih hWf₁ hlr (hr.grows hGrows₁) (by omega))
          fun _ _ => rebalanceOn_adds _ _
    · rw [if_neg hHigh]
      by_cases hLow : l.height + 1 < r.height
      · rw [if_pos hLow]
        cases r with
        | leaf xs => simp at hLow
        | node rl rr =>
          have hCost := Rope.joinCost_right hr.balanced hLow
          rw [Rope.height_node] at hFuel
          refine adds_mono (adds_bind (b := []) (c := []) (branchChildrenOn_sim hWf hr)
            (branchChildrenOn_adds right) ?_) ((Nat.zero_add _).trans_le hCost)
          rintro ⟨rightLeft, rightRight⟩ s₁ hGrows₁ hWf₁ ⟨-, hrl, -⟩
          exact adds_seq (b := []) (c := []) (ih hWf₁ (hl.grows hGrows₁) hrl (by omega))
            fun _ _ => rebalanceOn_adds _ _
      · rw [if_neg hLow]
        exact adds_mono (allocateBranchOn_adds left right) (Nat.le_add_left 1 _)

theorem concatOn_adds {l r : Rope UInt8} {left right : V2RootRecord}
    (hWf : WellFormed sha256 s.arena)
    (hl : Denotes sha256 s.arena l left) (hr : Denotes sha256 s.arena r right) :
    Adds (concatOn sha256 left right) s (Rope.joinCost l r) [] := by
  refine concatSteps_adds hWf hl hr ?_
  rw [hl.height, hr.height]

end Joins

/-! ## Splits -/

section Split

variable {sha256 : Bytes → Digest} {s : EditState V2AvlSequence}

theorem joinRightOn_adds {near : Option (Rope UInt8)} {r : Rope UInt8}
    {nearRoot : Option V2RootRecord} {right : V2RootRecord} (hWf : WellFormed sha256 s.arena)
    (hNear : DenotesOption sha256 s.arena near nearRoot) (hr : Denotes sha256 s.arena r right) :
    Adds (joinRightOn sha256 nearRoot right) s (Rope.joinOptionCost near (some r)) [] := by
  cases near with
  | none =>
    cases nearRoot with
    | none => exact adds_pure right
    | some root => exact hNear.elim
  | some near =>
    cases nearRoot with
    | none => exact hNear.elim
    | some root => exact concatOn_adds hWf hNear hr

theorem joinLeftOn_adds {near : Option (Rope UInt8)} {l : Rope UInt8}
    {nearRoot : Option V2RootRecord} {left : V2RootRecord} (hWf : WellFormed sha256 s.arena)
    (hl : Denotes sha256 s.arena l left) (hNear : DenotesOption sha256 s.arena near nearRoot) :
    Adds (joinLeftOn sha256 left nearRoot) s (Rope.joinOptionCost (some l) near) [] := by
  cases near with
  | none =>
    cases nearRoot with
    | none => exact adds_pure left
    | some root => exact hNear.elim
  | some near =>
    cases nearRoot with
    | none => exact hNear.elim
    | some root => exact concatOn_adds hWf hl hNear

/-- A split adds the bytes of the leaf it cuts, and the nodes of its joins. -/
theorem splitSteps_adds {fuel : Nat} {t : Rope UInt8} {root : V2RootRecord} {offset : Nat}
    (hWf : WellFormed sha256 s.arena) (h : Denotes sha256 s.arena t root)
    (hOffset : offset ≤ t.length) (hFuel : t.height < fuel) :
    Adds (splitSteps sha256 fuel root offset) s (Rope.splitCost t offset)
      (Rope.cutLeaf t offset) := by
  induction fuel generalizing s t root offset with
  | zero => omega
  | succ fuel ih =>
    have hPos := h.length_pos
    have hWidth := h.metadata.2.2
    unfold splitSteps
    dsimp only
    rw [h.logicalLen, if_neg (by omega)]
    by_cases hZero : offset = 0
    · subst hZero
      rw [if_pos rfl, Rope.splitCost_zero, Rope.cutLeaf_zero]
      exact adds_pure _
    rw [if_neg hZero]
    by_cases hAll : offset = t.length
    · subst hAll
      rw [if_pos rfl, Rope.splitCost_length, Rope.cutLeaf_length]
      exact adds_pure _
    rw [if_neg hAll]
    refine adds_still (Q := fun _ _ => True) (sim_inspect hWf ⟨trivial, rfl⟩) ?_
    rintro - s₁ hWf₁ - hSame₁
    cases t with
    | leaf bytes =>
      obtain ⟨hId, start, record, hNode, hSlice, hRecord, hRoot⟩ := h
      obtain ⟨⟨-, hMax, hEnd⟩, -⟩ := leaf_eq_ok.mp hRecord
      have hInside : offset ≤ bytes.length := hOffset
      rw [Rope.length_leaf] at hAll
      rw [Rope.splitCost_leaf hZero hAll, Rope.cutLeaf_leaf hZero hAll]
      rw [← hSame₁] at hNode hSlice
      refine adds_still (Q := fun node _ => node = .leaf start bytes.length record)
        (sim_reading hWf₁ (nodeForRootOn_eq_ok.mpr ⟨hId, hNode, hRoot⟩) ⟨rfl, rfl⟩) ?_
      rintro _ s₂ hWf₂ rfl hSame₂
      rw [← hSame₂] at hSlice
      refine adds_still (Q := fun _ _ => True)
        (sim_reading hWf₂ (validateNodeOn_leaf hSlice hRecord) ⟨trivial, rfl⟩) ?_
      rintro - s₃ hWf₃ - hSame₃
      refine adds_still (Q := fun stop _ => stop = start + offset)
        (sim_attempt hWf₃ (okOr_eq_ok.mpr (checkedAdd_of_lt (by omega))) ⟨rfl, rfl⟩) ?_
      rintro _ s₄ hWf₄ rfl hSame₄
      refine adds_still (Q := fun stop _ => stop = start + bytes.length)
        (sim_attempt hWf₄ (okOr_eq_ok.mpr (checkedAdd_of_lt hEnd)) ⟨rfl, rfl⟩) ?_
      rintro _ s₅ hWf₅ rfl hSame₅
      rw [← hSame₃, ← hSame₄, ← hSame₅] at hSlice
      have hLeft : slice s₅.arena.payload start (start + offset) = some (bytes.take offset) := by
        have := slice_slice hSlice (Nat.zero_le offset) hInside
        simpa using this
      have hRight : slice s₅.arena.payload (start + offset) (start + bytes.length) =
          some (bytes.drop offset) := by
        have := slice_slice hSlice hInside (Nat.le_refl bytes.length)
        rwa [List.take_of_length_le (by simp)] at this
      refine adds_still (Q := fun r _ => r = bytes.take offset)
        (sim_reading hWf₅ (readPayload_eq_ok.mpr ⟨by omega, by omega, hLeft⟩) ⟨rfl, rfl⟩) ?_
      rintro _ s₆ hWf₆ rfl hSame₆
      rw [← hSame₆] at hRight
      refine adds_still (Q := fun r _ => r = bytes.drop offset)
        (sim_reading hWf₆ (readPayload_eq_ok.mpr ⟨by omega, by omega, hRight⟩) ⟨rfl, rfl⟩) ?_
      rintro _ s₇ - rfl -
      have hBoth := adds_seq (s := s₇) (m := 1) (c := bytes.drop offset)
        (f := fun left => do
          let right ← allocateLeafOn sha256 (bytes.drop offset)
          return (some left, some right))
        (@allocateLeafOn_adds sha256 s₇ (bytes.take offset)) fun left s => by
          have hRest := adds_seq (s := s) (m := 0) (c := [])
            (f := fun right => (pure (some left, some right) : EditM V2AvlSequence _))
            (@allocateLeafOn_adds sha256 s (bytes.drop offset)) fun right _ => adds_pure _
          simpa using hRest
      rw [List.take_append_drop] at hBoth
      exact hBoth
    | node l r =>
      obtain ⟨hId, left, right, record, hNode, hRecord, hRoot, -, -, hl, hr⟩ := h
      rw [Rope.height_node] at hFuel
      rw [Rope.splitCost_node hZero hAll, Rope.cutLeaf_node hZero hAll]
      rw [Rope.length_node] at hAll hOffset hWidth
      rw [← hSame₁] at hNode hl hr
      refine adds_still (Q := fun node _ => node = .branch left right record)
        (sim_reading hWf₁ (nodeForRootOn_eq_ok.mpr ⟨hId, hNode, hRoot⟩) ⟨rfl, rfl⟩) ?_
      rintro _ s₂ hWf₂ rfl hSame₂
      refine adds_still (Q := fun _ _ => True)
        (sim_reading hWf₂ (validateNodeOn_branch hRecord) ⟨trivial, rfl⟩) ?_
      rintro - s₃ hWf₃ - hSame₃
      rw [← hSame₂, ← hSame₃] at hl hr
      dsimp only
      rw [hl.logicalLen]
      by_cases hLess : offset < l.length
      · rw [if_pos hLess, if_pos hLess, if_pos hLess]
        have hSplit := adds_bind (splitSteps_sim hWf₃ hl hLess.le (by omega))
          (ih hWf₃ hl hLess.le (by omega)) (c := []) (f := fun parts => do
            let joinedRight ← joinRightOn sha256 parts.2 right
            return (parts.1, some joinedRight)) (m := Rope.joinOptionCost (l.splitAt offset).2
              (some r)) (by
            rintro ⟨farLeft, near⟩ s₄ hGrows₄ hWf₄ ⟨-, hNear⟩
            exact adds_seq (b := []) (c := []) (m := 0)
              (joinRightOn_adds hWf₄ hNear (hr.grows hGrows₄)) fun _ _ => adds_pure _)
        rw [List.append_nil] at hSplit
        exact hSplit
      · rw [if_neg hLess, if_neg hLess, if_neg hLess]
        by_cases hEq : offset = l.length
        · rw [if_pos hEq, if_pos hEq, if_pos hEq]
          exact adds_pure _
        · rw [if_neg hEq, if_neg hEq, if_neg hEq]
          have hLe : offset - l.length ≤ r.length := by omega
          have hSplit := adds_bind (splitSteps_sim hWf₃ hr hLe (by omega))
            (ih hWf₃ hr hLe (by omega)) (c := []) (f := fun parts => do
              let joinedLeft ← joinLeftOn sha256 left parts.1
              return (some joinedLeft, parts.2)) (m := Rope.joinOptionCost (some l)
                (r.splitAt (offset - l.length)).1) (by
              rintro ⟨near, farRight⟩ s₄ hGrows₄ hWf₄ ⟨hNear, -⟩
              exact adds_seq (b := []) (c := []) (m := 0)
                (joinLeftOn_adds hWf₄ (hl.grows hGrows₄) hNear) fun _ _ => adds_pure _)
          rw [List.append_nil] at hSplit
          exact hSplit

theorem splitOn_adds {t : Rope UInt8} {root : V2RootRecord} {offset : Nat}
    (hWf : WellFormed sha256 s.arena) (h : Denotes sha256 s.arena t root)
    (hOffset : offset ≤ t.length) :
    Adds (splitOn sha256 root offset) s (Rope.splitCost t offset) (Rope.cutLeaf t offset) := by
  refine splitSteps_adds hWf h hOffset ?_
  rw [h.height]
  exact Nat.lt_succ_self _

end Split

/-! ## The inserted part -/

section Build

variable {sha256 : Bytes → Digest} {s : EditState V2AvlSequence}

/-- The leaves of the inserted bytes. -/
def insertRow (insert : Bytes) : List (Rope UInt8) :=
  (chunks maxLeafPayloadBytes insert).map Rope.leaf

/-- The rope of the inserted bytes. -/
def insertTree (insert : Bytes) : Option (Rope UInt8) :=
  if insert = [] then none else Rope.joinLevel (insertRow insert)

/-- The nodes the inserted bytes take at most. -/
def insertCost (insert : Bytes) : Nat :=
  if insert = [] then 0 else (insertRow insert).length + Rope.levelCost (insertRow insert)

theorem allocateChunks_adds (pieces : List Bytes) :
    Adds (allocateChunks sha256 pieces) s pieces.length pieces.flatten := by
  induction pieces generalizing s with
  | nil => exact adds_pure _
  | cons piece pieces ih =>
    have hBoth := adds_seq (s := s) (m := pieces.length) (c := pieces.flatten)
      (f := fun root => do
        let roots ← allocateChunks sha256 pieces
        return root :: roots)
      (@allocateLeafOn_adds sha256 s piece) fun root s => by
        have hRest := adds_seq (m := 0) (c := []) (f := fun roots =>
          (pure (root :: roots) : EditM V2AvlSequence _)) (@ih s) fun _ _ => adds_pure _
        simpa using hRest
    rw [List.length_cons, List.flatten_cons, Nat.add_comm]
    exact hBoth

theorem pairRound_adds {ts : List (Rope UInt8)} {roots : List V2RootRecord}
    (hWf : WellFormed sha256 s.arena) (h : DenotesList sha256 s.arena ts roots)
    (hLen : rowLength ts < width 64) :
    Adds (pairRound sha256 roots) s (Rope.pairCost ts) [] := by
  fun_induction Rope.pairLevel ts generalizing s roots with
  | case1 a b rest ih =>
    obtain ⟨left, roots, ha, hTail, rfl⟩ : ∃ left roots', Denotes sha256 s.arena a left ∧
        DenotesList sha256 s.arena (b :: rest) roots' ∧ roots = left :: roots' := by
      cases h with
      | cons ha hTail => exact ⟨_, _, ha, hTail, rfl⟩
    obtain ⟨right, roots, hb, hRest, rfl⟩ : ∃ right roots', Denotes sha256 s.arena b right ∧
        DenotesList sha256 s.arena rest roots' ∧ roots = right :: roots' := by
      cases hTail with
      | cons hb hRest => exact ⟨_, _, hb, hRest, rfl⟩
    rw [rowLength_cons, rowLength_cons] at hLen
    unfold pairRound
    refine adds_bind (b := []) (c := []) (concatOn_sim hWf ha hb (by omega))
      (concatOn_adds hWf ha hb) ?_
    intro root s₁ hGrows₁ hWf₁ hRoot
    exact adds_seq (b := []) (c := []) (m := 0) (ih hWf₁ (hRest.grows hGrows₁) (by omega))
      fun _ _ => adds_pure _
  | case2 rest hShort =>
    have hStop : pairRound sha256 roots = (pure roots : EditM V2AvlSequence _) := by
      cases h with
      | nil => rfl
      | cons ha hTail =>
        cases hTail with
        | nil => rfl
        | cons hb hRest => exact (hShort _ _ _ rfl).elim
    rw [hStop]
    exact adds_mono (adds_pure _) (Nat.zero_le _)

theorem pairRounds_adds {fuel : Nat} {ts : List (Rope UInt8)} {roots : List V2RootRecord}
    (hWf : WellFormed sha256 s.arena) (h : DenotesList sha256 s.arena ts roots)
    (hLen : rowLength ts < width 64) (hFuel : ts.length < fuel) :
    Adds (pairRounds sha256 fuel roots) s (Rope.levelCost ts) [] := by
  induction fuel generalizing s ts roots with
  | zero => omega
  | succ fuel ih =>
    have hLength : ts.length = roots.length := List.Forall₂.length_eq h
    unfold pairRounds
    rw [Rope.levelCost.eq_def, ← hLength]
    by_cases hMany : 1 < ts.length
    · rw [if_pos hMany, if_pos hMany]
      have hShrinks := Rope.length_pairLevel_le ts
      refine adds_bind (b := []) (c := []) (pairRound_sim hWf h hLen)
        (pairRound_adds hWf h hLen) ?_
      intro roots' s₁ hGrows₁ hWf₁ hRoots
      exact ih hWf₁ hRoots (by rw [rowLength, Rope.toList_pairLevel]; exact hLen) (by omega)
    · rw [if_neg hMany, if_neg hMany]
      exact adds_pure _

theorem flatMap_insertRow (insert : Bytes) : (insertRow insert).flatMap Rope.toList = insert := by
  rw [insertRow, List.flatMap_map]
  have hSame : (chunks maxLeafPayloadBytes insert).flatMap (fun c => (Rope.leaf c).toList) =
      (chunks maxLeafPayloadBytes insert).flatten := by simp [List.flatMap_id']
  rw [hSame, flatten_chunks (by decide)]

theorem rowLength_insertRow (insert : Bytes) : rowLength (insertRow insert) = insert.length := by
  rw [rowLength, flatMap_insertRow]

theorem insert_pieces (insert : Bytes) : ∀ c ∈ chunks maxLeafPayloadBytes insert,
    1 ≤ c.length ∧ c.length ≤ maxLeafPayloadBytes :=
  fun _ hc => length_of_mem_chunks (by decide) hc

/-- The rope that the rounds of pairing build. -/
theorem insertRow_join {insert : Bytes} (hNe : insert ≠ []) :
    ∃ t, Rope.joinLevel (insertRow insert) = some t ∧ t.Balanced ∧
      t.Chunked maxLeafPayloadBytes ∧ t.toList = (insertRow insert).flatMap Rope.toList := by
  have hRowNe : insertRow insert ≠ [] := by
    simpa [insertRow] using chunks_ne_nil (show 0 < maxLeafPayloadBytes by decide) hNe
  refine Rope.joinLevel_spec hRowNe (fun t ht => ?_)
  obtain ⟨c, hc, rfl⟩ := List.mem_map.mp ht
  exact ⟨trivial, insert_pieces insert c hc⟩

theorem insertTree_elements (insert : Bytes) :
    Rope.elements (insertTree insert) = insert := by
  unfold insertTree
  by_cases hNil : insert = []
  · rw [if_pos hNil, hNil]
    rfl
  · obtain ⟨t, hJoin, -, -, hList⟩ := insertRow_join hNil
    rw [if_neg hNil, hJoin, Rope.elements_some, hList, flatMap_insertRow]

theorem insertMiddleOn_row {insert : Bytes} (hWf : WellFormed sha256 s.arena)
    (hLen : insert.length < width 64) :
    Simulates sha256 (insertMiddleOn sha256 insert) s
      (fun root b => DenotesOption sha256 b (insertTree insert) root) := by
  unfold insertMiddleOn insertTree
  by_cases hNil : insert = []
  · subst hNil
    exact sim_pure hWf trivial
  · rw [if_neg (by simpa using hNil), if_neg hNil]
    have hPieces := insert_pieces insert
    obtain ⟨t, hJoin, -⟩ := insertRow_join hNil
    unfold buildInsertSubtreeOn
    refine sim_bind (Q := fun root b => Denotes sha256 b t root) ?_ ?_
    · refine sim_bind (allocateChunks_sim hWf hPieces) ?_
      intro leaves s₁ _ hWf₁ hLeaves
      refine sim_bind (pairRounds_sim hWf₁ hLeaves
        (by rw [← insertRow, rowLength_insertRow]; exact hLen)
        (by rw [List.Forall₂.length_eq hLeaves]; exact Nat.lt_succ_self _)) ?_
      intro level s₂ _ hWf₂ hLevel
      rw [← insertRow, hJoin] at hLevel
      cases hLast : level.getLast? with
      | none => rw [hLast] at hLevel; exact hLevel.elim
      | some root =>
        rw [hLast] at hLevel
        exact sim_attempt hWf₂ rfl hLevel
    · intro root s₁ _ hWf₁ hRoot
      rw [hJoin]
      exact sim_pure hWf₁ hRoot

theorem insertMiddleOn_adds {insert : Bytes} (hWf : WellFormed sha256 s.arena)
    (hLen : insert.length < width 64) :
    Adds (insertMiddleOn sha256 insert) s (insertCost insert) insert := by
  unfold insertMiddleOn insertCost
  by_cases hNil : insert = []
  · subst hNil
    exact adds_pure _
  · rw [if_neg (by simpa using hNil), if_neg hNil]
    have hPieces := insert_pieces insert
    have hFlat : (chunks maxLeafPayloadBytes insert).flatten = insert :=
      flatten_chunks (by decide) insert
    have hBuild : Adds (buildInsertSubtreeOn sha256 insert) s
        ((insertRow insert).length + Rope.levelCost (insertRow insert)) insert := by
      unfold buildInsertSubtreeOn
      have hAll := adds_bind (c := []) (m := Rope.levelCost (insertRow insert))
        (f := fun leaves => do
          let level ← pairRounds sha256 (leaves.length + 1) leaves
          attempt (okOr level.getLast? (.invalid "v2 sequence insert produced no content")))
        (allocateChunks_sim hWf hPieces) (allocateChunks_adds _) (by
          intro leaves s₁ _ hWf₁ hLeaves
          have hCount : (insertRow insert).length = leaves.length := List.Forall₂.length_eq hLeaves
          exact adds_seq (b := []) (c := []) (m := 0)
            (pairRounds_adds hWf₁ hLeaves (by rw [rowLength_insertRow]; exact hLen)
              (by rw [hCount]; exact Nat.lt_succ_self _))
            fun _ _ => adds_attempt _)
      rw [hFlat, List.append_nil] at hAll
      rw [insertRow, List.length_map]
      exact hAll
    have hSome := adds_seq (m := 0) (c := []) (f := fun root =>
      (pure (some root) : EditM V2AvlSequence _)) hBuild fun _ _ => adds_pure _
    rw [List.append_nil] at hSome
    exact hSome

end Build

/-! ## Splices -/

section Splice

variable {sha256 : Bytes → Digest} {s : EditState V2AvlSequence}

/-- The rope behind the deleted bytes. -/
def dropTree (mid : Option (Rope UInt8)) (deleteLen : Nat) : Option (Rope UInt8) :=
  mid.bind (fun t => (t.splitAt deleteLen).2)

theorem dropDeletedOn_row {mid : Option (Rope UInt8)} {midRight : Option V2RootRecord}
    {deleteLen : Nat} (hWf : WellFormed sha256 s.arena)
    (h : DenotesOption sha256 s.arena mid midRight)
    (hLen : deleteLen ≤ (Rope.elements mid).length) :
    Simulates sha256 (dropDeletedOn sha256 midRight deleteLen) s
      (fun right b => DenotesOption sha256 b (dropTree mid deleteLen) right) := by
  cases mid with
  | none =>
    cases midRight with
    | some root => exact h.elim
    | none => exact sim_pure hWf trivial
  | some t =>
    cases midRight with
    | none => exact h.elim
    | some root =>
      unfold dropDeletedOn dropTree
      dsimp only [Option.bind_some]
      by_cases hZero : deleteLen = 0
      · rw [if_pos hZero, hZero, Rope.splitAt_zero]
        exact sim_pure hWf h
      · rw [if_neg hZero]
        refine sim_bind (splitOn_sim hWf h hLen) ?_
        rintro ⟨left, right⟩ s₁ - hWf₁ ⟨-, hRight⟩
        exact sim_pure hWf₁ hRight

theorem dropDeletedOn_adds {mid : Option (Rope UInt8)} {midRight : Option V2RootRecord}
    {deleteLen : Nat} (hWf : WellFormed sha256 s.arena)
    (h : DenotesOption sha256 s.arena mid midRight)
    (hLen : deleteLen ≤ (Rope.elements mid).length) :
    Adds (dropDeletedOn sha256 midRight deleteLen) s (mid.elim 0 (Rope.splitCost · deleteLen))
      (mid.elim [] (Rope.cutLeaf · deleteLen)) := by
  cases mid with
  | none =>
    cases midRight with
    | some root => exact h.elim
    | none => exact adds_pure _
  | some t =>
    cases midRight with
    | none => exact h.elim
    | some root =>
      unfold dropDeletedOn
      dsimp only [Option.elim_some]
      by_cases hZero : deleteLen = 0
      · rw [if_pos hZero, hZero, Rope.splitCost_zero, Rope.cutLeaf_zero]
        exact adds_pure _
      · rw [if_neg hZero]
        have hSplit := adds_seq (m := 0) (c := []) (f := fun parts =>
          (pure parts.2 : EditM V2AvlSequence _)) (splitOn_adds hWf h hLen) fun _ _ => adds_pure _
        rw [List.append_nil] at hSplit
        exact hSplit

theorem concatOptionalOn_adds {l r : Option (Rope UInt8)} {left right : Option V2RootRecord}
    (hWf : WellFormed sha256 s.arena)
    (hl : DenotesOption sha256 s.arena l left) (hr : DenotesOption sha256 s.arena r right) :
    Adds (concatOptionalOn sha256 left right) s (Rope.joinOptionCost l r) [] := by
  cases l with
  | none =>
    cases left with
    | some left => exact hl.elim
    | none =>
      cases right with
      | none => exact adds_mono (adds_pure _) (Nat.zero_le _)
      | some right => exact adds_mono (adds_pure _) (Nat.zero_le _)
  | some l =>
    cases left with
    | none => exact hl.elim
    | some left =>
      cases r with
      | none =>
        cases right with
        | none => exact adds_pure _
        | some right => exact hr.elim
      | some r =>
        cases right with
        | none => exact hr.elim
        | some right =>
          exact adds_seq (b := []) (c := []) (m := 0) (concatOn_adds hWf hl hr)
            fun _ _ => adds_pure _

/-- The nodes a splice of `t` makes at most. -/
def spliceCost (t : Rope UInt8) (offset deleteLen : Nat) (insert : Bytes) : Nat :=
  let left := (t.splitAt offset).1
  let mid := (t.splitAt offset).2
  let middle := insertTree insert
  insertCost insert + (t.splitCost offset + (mid.elim 0 (Rope.splitCost · deleteLen) +
    (Rope.joinOptionCost left middle +
      Rope.joinOptionCost (Rope.joinOption left middle) (dropTree mid deleteLen))))

/-- The bytes a splice of `t` copies: of the leaf at the offset, and of the leaf at the end of
the deleted bytes. -/
def copiedBytes (t : Rope UInt8) (offset deleteLen : Nat) : Bytes × Bytes :=
  (t.cutLeaf offset, (t.splitAt offset).2.elim [] (Rope.cutLeaf · deleteLen))

theorem spliceInnerOn_adds {t : Rope UInt8} {root : V2RootRecord} {offset deleteLen : Nat}
    {insert : Bytes} (hWf : WellFormed sha256 s.arena) (h : Denotes sha256 s.arena t root)
    (hOffset : offset ≤ t.length) (hDelete : deleteLen ≤ t.length - offset)
    (hMax : t.length - deleteLen + insert.length < width 64) :
    Adds (spliceInnerOn sha256 (some root) offset deleteLen insert) s
      (spliceCost t offset deleteLen insert)
      (insert ++ ((copiedBytes t offset deleteLen).1 ++
        (copiedBytes t offset deleteLen).2)) := by
  have hLength : t.toList.length = t.length := rfl
  obtain ⟨hFirst, hSecond⟩ := Rope.splitAt_elements t hOffset
  unfold spliceInnerOn spliceCost copiedBytes
  dsimp only
  refine adds_bind (insertMiddleOn_row hWf (by omega)) (insertMiddleOn_adds hWf (by omega)) ?_
  intro middle s₁ hGrows₁ hWf₁ hMiddle
  refine adds_bind (splitOn_sim hWf₁ (h.grows hGrows₁) hOffset)
    (splitOn_adds hWf₁ (h.grows hGrows₁) hOffset) ?_
  rintro ⟨left, midRight⟩ s₂ hGrows₂ hWf₂ ⟨hLeft, hMid⟩
  have hDrop : deleteLen ≤ (Rope.elements (t.splitAt offset).2).length := by
    rw [hSecond, List.length_drop]
    omega
  have hRest := adds_bind (c := []) (f := fun right => do
      let combined ← concatOptionalOn sha256 left middle
      let combined ← concatOptionalOn sha256 combined right
      attempt (okOr combined (.invalid "v2 sequence splice produced an empty root")))
    (dropDeletedOn_row hWf₂ hMid hDrop) (dropDeletedOn_adds hWf₂ hMid hDrop)
    (m := Rope.joinOptionCost (t.splitAt offset).1 (insertTree insert) +
      Rope.joinOptionCost (Rope.joinOption (t.splitAt offset).1 (insertTree insert))
        (dropTree (t.splitAt offset).2 deleteLen)) (by
      intro right s₃ hGrows₃ hWf₃ hRight
      have hLeft₃ := hLeft.grows hGrows₃
      have hMiddle₃ := hMiddle.grows (hGrows₂.trans hGrows₃)
      have hElements := insertTree_elements insert
      refine adds_bind (b := []) (c := []) (concatOptionalOn_sim hWf₃ hLeft₃ hMiddle₃ ?_)
        (concatOptionalOn_adds hWf₃ hLeft₃ hMiddle₃) ?_
      · rw [hFirst, hElements, List.length_take]
        omega
      intro combined s₄ hGrows₄ hWf₄ hCombined
      exact adds_seq (b := []) (c := []) (m := 0)
        (concatOptionalOn_adds hWf₄ hCombined (hRight.grows hGrows₄)) fun _ _ => adds_attempt _)
  rw [List.append_nil] at hRest
  exact hRest

/-- The chunks an insert is cut into at most. -/
def insertChunks (insert : Bytes) : Nat := insert.length / maxLeafPayloadBytes + 1

theorem clog_le_log (q : Nat) : Nat.clog 2 q ≤ Nat.log 2 q + 1 :=
  Nat.clog_le_of_le_pow (Nat.lt_pow_succ_log_self (by decide) q).le

/-- The inserted bytes take at most two nodes for each chunk, and the rounds of pairing build a
rope of logarithmic height. -/
theorem insertCost_le (insert : Bytes) :
    insertCost insert ≤ 2 * insertChunks insert + 3 * Nat.log 2 (insertChunks insert) + 2 ∧
      Rope.levels (insertTree insert) ≤ Nat.log 2 (insertChunks insert) + 2 := by
  unfold insertCost insertTree
  by_cases hNil : insert = []
  · rw [if_pos hNil, if_pos hNil]
    simp
  · rw [if_neg hNil, if_neg hNil]
    have hNe : chunks maxLeafPayloadBytes insert ≠ [] :=
      chunks_ne_nil (show 0 < maxLeafPayloadBytes by decide) hNil
    obtain ⟨hCost, hHeight⟩ := Rope.levelCost_le hNe
    have hCount : (chunks maxLeafPayloadBytes insert).length ≤ insertChunks insert :=
      length_chunks_le (by decide) insert
    have hLog : Nat.clog 2 (chunks maxLeafPayloadBytes insert).length ≤
        Nat.log 2 (insertChunks insert) + 1 :=
      (Nat.clog_mono_right 2 hCount).trans (clog_le_log _)
    rw [insertRow, List.length_map]
    omega

theorem insertTree_sound (insert : Bytes) : Rope.Sound maxLeafPayloadBytes (insertTree insert) := by
  unfold insertTree
  by_cases hNil : insert = []
  · rw [if_pos hNil]
    exact Rope.sound_none
  · obtain ⟨t, hJoin, hBal, hChunk, -⟩ := insertRow_join hNil
    rw [if_neg hNil, hJoin]
    exact Rope.sound_some.mpr ⟨hBal, hChunk⟩

/-- The nodes of the two splits, of the inserted part and of the two joins together. -/
theorem spliceCost_le {t : Rope UInt8} {offset deleteLen : Nat} (insert : Bytes)
    (hBal : t.Balanced) (hChunk : t.Chunked maxLeafPayloadBytes) (hOffset : offset ≤ t.length)
    (hDelete : deleteLen ≤ t.length - offset) :
    spliceCost t offset deleteLen insert ≤
      26 * (t.height + Nat.log 2 (insertChunks insert) + 1) + 2 * insertChunks insert := by
  obtain ⟨hBuild, hBuilt⟩ := insertCost_le insert
  have hMiddle := insertTree_sound insert
  have hSplit := Rope.splitCost_le hBal hChunk hOffset
  obtain ⟨hLeft, hMid⟩ := Rope.splitAt_sound hBal hChunk hOffset
  obtain ⟨hLeftHigh, hMidHigh⟩ := Rope.splitAt_levels hBal hChunk hOffset
  obtain ⟨-, hSecond⟩ := Rope.splitAt_elements t hOffset
  obtain ⟨-, -, hJoined⟩ := Rope.joinOption_levels hLeft hMiddle
  have hFirstJoin := Rope.joinOptionCost_le (t.splitAt offset).1 (insertTree insert)
  have hSecondJoin := Rope.joinOptionCost_le
    (Rope.joinOption (t.splitAt offset).1 (insertTree insert))
    (dropTree (t.splitAt offset).2 deleteLen)
  have hDrop : (t.splitAt offset).2.elim 0 (Rope.splitCost · deleteLen) ≤ 10 * t.height ∧
      Rope.levels (dropTree (t.splitAt offset).2 deleteLen) ≤ t.height := by
    cases hPart : (t.splitAt offset).2 with
    | none => simp [dropTree]
    | some u =>
      rw [hPart] at hMid hMidHigh hSecond
      obtain ⟨hBalU, hChunkU⟩ := Rope.sound_some.mp hMid
      have hLen : u.length = t.length - offset := by
        have hList : u.toList = t.toList.drop offset := hSecond
        rw [Rope.length, hList, List.length_drop, Rope.length]
      have hInside : deleteLen ≤ u.length := hLen ▸ hDelete
      have hCost := Rope.splitCost_le hBalU hChunkU hInside
      obtain ⟨-, hHigh⟩ := Rope.splitAt_levels hBalU hChunkU hInside
      rw [Rope.levels_some] at hMidHigh
      refine ⟨?_, hHigh.trans hMidHigh⟩
      change u.splitCost deleteLen ≤ 10 * t.height
      omega
  unfold spliceCost
  dsimp only
  omega

/-- The leaf at the offset, and the end of the leaf at the end of the deleted bytes. -/
theorem copiedBytes_spec {t : Rope UInt8} {offset deleteLen : Nat}
    (hOffset : offset ≤ t.length) (hDelete : deleteLen ≤ t.length - offset) :
    ((copiedBytes t offset deleteLen).1 = [] ∨
        Rope.Straddles t.leaves offset (copiedBytes t offset deleteLen).1) ∧
      ((copiedBytes t offset deleteLen).2 = [] ∨
        ∃ leaf, Rope.Straddles t.leaves (offset + deleteLen) leaf ∧
          (copiedBytes t offset deleteLen).2 <:+ leaf) := by
  have hCut := Rope.splitAt_leaves t hOffset
  obtain ⟨hFirst, hSecond⟩ := Rope.splitAt_elements t hOffset
  refine ⟨hCut.straddles, ?_⟩
  unfold copiedBytes
  cases hPart : (t.splitAt offset).2 with
  | none => exact Or.inl rfl
  | some u =>
    rw [hPart] at hCut hSecond
    have hLen : u.length = t.length - offset := by
      have hList : u.toList = t.toList.drop offset := hSecond
      rw [Rope.length, hList, List.length_drop, Rope.length]
    have hLeft : (Rope.rows (t.splitAt offset).1).flatten.length = offset := by
      rw [Rope.flatten_rows, hFirst, List.length_take]
      exact Nat.min_eq_left hOffset
    rcases (Rope.splitAt_leaves u (hLen ▸ hDelete : deleteLen ≤ u.length)).straddles with
      hNone | hAt
    · exact Or.inl hNone
    · exact Or.inr (hCut.straddles_right hLeft hAt)

/-- What an accepted splice of the rope `t` adds. -/
theorem spliceOn_adds_some {a b : V2AvlSequence} {t : Rope UInt8} {root : V2RootRecord}
    {offset deleteLen : Nat} {insert : Bytes} {result : V2SpliceResult}
    (hWf : WellFormed sha256 a) (h : Denotes sha256 a t root)
    (hRun : spliceOn sha256 (some root) offset deleteLen insert a = .ok result b) :
    offset ≤ t.length ∧ deleteLen ≤ t.length - offset ∧
      b.nodes.length ≤ a.nodes.length + spliceCost t offset deleteLen insert ∧
      b.payload = a.payload ++ (insert ++ ((copiedBytes t offset deleteLen).1 ++
        (copiedBytes t offset deleteLen).2)) := by
  rcases checkSplice_some h offset deleteLen insert with
    ⟨⟨hOffset, hDelete, -, -, hMax⟩, hCheck⟩ | ⟨-, e, -, hCheck⟩
  · unfold spliceOn at hRun
    rw [hCheck] at hRun
    dsimp only at hRun
    cases hInner : spliceInnerOn sha256 (some root) offset deleteLen insert ⟨a, 0⟩ with
    | error e s' =>
      rw [hInner] at hRun
      cases hRun
    | ok newRoot s' =>
      rw [hInner] at hRun
      cases hRun
      obtain ⟨hNodes, hPayload⟩ :=
        @spliceInnerOn_adds sha256 ⟨a, 0⟩ t root offset deleteLen insert hWf h hOffset hDelete hMax
          newRoot s' hInner
      exact ⟨hOffset, hDelete, hNodes, hPayload⟩
  · unfold spliceOn at hRun
    rw [hCheck] at hRun
    cases hRun

/-- What the creation of a root adds. -/
theorem spliceOn_adds_none {a b : V2AvlSequence} {offset deleteLen : Nat} {insert : Bytes}
    {result : V2SpliceResult} (hWf : WellFormed sha256 a)
    (hRun : spliceOn sha256 none offset deleteLen insert a = .ok result b) :
    b.nodes.length ≤ a.nodes.length + insertCost insert ∧ b.payload = a.payload ++ insert := by
  rcases checkSplice_none sha256 a offset deleteLen insert with
    ⟨⟨-, -, -, hLen⟩, hCheck⟩ | ⟨-, e, -, hCheck⟩
  · unfold spliceOn at hRun
    rw [hCheck] at hRun
    dsimp only at hRun
    cases hInner : spliceInnerOn sha256 none offset deleteLen insert ⟨a, 0⟩ with
    | error e s' =>
      rw [hInner] at hRun
      cases hRun
    | ok newRoot s' =>
      rw [hInner] at hRun
      cases hRun
      have hAdds := adds_seq (m := 0) (c := [])
        (f := fun middle => (attempt (okOr middle
          (.invalid "v2 sequence root creation produced no content")) :
            EditM V2AvlSequence V2RootRecord))
        (@insertMiddleOn_adds sha256 ⟨a, 0⟩ insert hWf hLen) fun _ _ => adds_attempt _
      obtain ⟨hNodes, hPayload⟩ := hAdds newRoot s' hInner
      rw [List.append_nil] at hPayload
      exact ⟨hNodes, hPayload⟩
  · unfold spliceOn at hRun
    rw [hCheck] at hRun
    cases hRun

end Splice

/-! ## Locality -/

/-- The nodes an edit of a root of height `h` may add, for the factor `K`. -/
def nodeAllowance (K h insertLen : Nat) : Nat :=
  K * (h + Nat.log 2 (insertLen / maxLeafPayloadBytes + 1) + 1) +
    2 * (insertLen / maxLeafPayloadBytes + 1)

/-- The bytes an edit copies from its parent: of the leaf the offset lies in, and the end of
the leaf in which the deleted bytes end; nothing where the position is between two leaves. -/
structure CopiesBoundary (t : Rope UInt8) (offset deleteLen : Nat) (first second : Bytes) :
    Prop where
  atOffset : first = [] ∨ Rope.Straddles t.leaves offset first
  atEnd : second = [] ∨
    ∃ leaf, Rope.Straddles t.leaves (offset + deleteLen) leaf ∧ second <:+ leaf

/-- For one constant and every reachable arena: a successful splice grows the payload by the
inserted bytes and the bytes of at most two leaves of the parent, and the node table by a
number of nodes logarithmic in everything but the inserted chunks. -/
theorem edit_locality : ∃ K, ∀ (sha256 : Bytes → Digest) (calls : List ArenaCall)
    (parent : Option V2RootRecord) (offset deleteLen : Nat) (insert : Bytes)
    (result : V2SpliceResult) (b : V2AvlSequence),
    spliceOn sha256 parent offset deleteLen insert (runArenaCalls sha256 calls).arena =
        .ok result b →
      b.payload.length ≤ (runArenaCalls sha256 calls).arena.payload.length + insert.length +
          2 * maxLeafPayloadBytes ∧
        b.nodes.length ≤ (runArenaCalls sha256 calls).arena.nodes.length +
          nodeAllowance K (parent.elim 0 V2RootRecord.height) insert.length ∧
        ∃ first second,
          b.payload = (runArenaCalls sha256 calls).arena.payload ++
            (insert ++ (first ++ second)) ∧
          (parent = none → first = [] ∧ second = []) ∧
          ∀ root, parent = some root →
            ∃ t, Denotes sha256 (runArenaCalls sha256 calls).arena t root ∧
              CopiesBoundary t offset deleteLen first second := by
  refine ⟨26, ?_⟩
  intro sha256 calls parent offset deleteLen insert result b hRun
  obtain ⟨⟨hWf, -⟩, -⟩ := arenaReached sha256 calls
  generalize (runArenaCalls sha256 calls).arena = a at hWf hRun ⊢
  cases parent with
  | none =>
    obtain ⟨hNodes, hPayload⟩ := spliceOn_adds_none hWf hRun
    obtain ⟨hCost, -⟩ := insertCost_le insert
    refine ⟨?_, ?_, [], [], ?_, fun _ => ⟨rfl, rfl⟩, ?_⟩
    · rw [hPayload, List.length_append]
      omega
    · refine hNodes.trans (Nat.add_le_add_left ?_ _)
      unfold insertChunks at hCost
      unfold nodeAllowance
      dsimp only [Option.elim_none]
      omega
    · rw [hPayload, List.append_nil, List.append_nil]
    · rintro root hSome
      cases hSome
  | some root =>
    have hResolves : ∃ node, nodeForRootOn a root = .ok node := by
      cases hNode : nodeForRootOn a root with
      | ok node => exact ⟨node, rfl⟩
      | error e =>
        unfold spliceOn checkSplice at hRun
        simp only [hNode, error_bind] at hRun
        cases hRun
    obtain ⟨node, hNode⟩ := hResolves
    obtain ⟨t, hDenotes⟩ := hWf.denotes hNode
    obtain ⟨hOffset, hDelete, hNodes, hPayload⟩ := spliceOn_adds_some hWf hDenotes hRun
    have hCost := spliceCost_le insert hDenotes.balanced hDenotes.chunked hOffset hDelete
    obtain ⟨hFirst, hSecond⟩ := copiedBytes_spec hOffset hDelete
    have hLeaf := Rope.length_le_of_mem_leaves hDenotes.chunked
    have hFirstLen : (copiedBytes t offset deleteLen).1.length ≤ maxLeafPayloadBytes := by
      rcases hFirst with hNone | hAt
      · rw [hNone]
        exact Nat.zero_le _
      · exact hLeaf _ hAt.mem
    have hSecondLen : (copiedBytes t offset deleteLen).2.length ≤ maxLeafPayloadBytes := by
      rcases hSecond with hNone | ⟨leaf, hAt, hSuffix⟩
      · rw [hNone]
        exact Nat.zero_le _
      · exact hSuffix.length_le.trans (hLeaf _ hAt.mem)
    refine ⟨?_, ?_, _, _, hPayload, by simp, ?_⟩
    · rw [hPayload]
      simp only [List.length_append]
      omega
    · refine hNodes.trans (Nat.add_le_add_left ?_ _)
      unfold insertChunks at hCost
      unfold nodeAllowance
      dsimp only [Option.elim_some]
      rw [hDenotes.height]
      exact hCost
    · rintro root' hSome
      cases hSome
      exact ⟨t, hDenotes, hFirst, hSecond⟩

/-- The byte 2 is replaced in the leaf of 1, 2 and 3: the leaf is copied, and its end. -/
theorem edit_locality_sample :
    ∃ result b, spliceOn sampleSha256 (some sampleBranch) 1 1 [5, 6]
        (runArenaCalls sampleSha256 sampleArenaCalls).arena = .ok result b ∧
      ∃ K, b.nodes.length ≤ 3 + nodeAllowance K 2 2 := by
  have hRuns : yields (fun _ _ => true) (spliceOn sampleSha256 (some sampleBranch) 1 1 [5, 6]
      (runArenaCalls sampleSha256 sampleArenaCalls).arena) = true := by decide +kernel
  cases hRun : spliceOn sampleSha256 (some sampleBranch) 1 1 [5, 6]
      (runArenaCalls sampleSha256 sampleArenaCalls).arena with
  | error e b =>
    rw [hRun] at hRuns
    simp [yields] at hRuns
  | ok result b =>
    have hCount : (runArenaCalls sampleSha256 sampleArenaCalls).arena.nodes.length = 3 := by
      decide +kernel
    obtain ⟨K, hAll⟩ := edit_locality
    obtain ⟨-, hNodes, -⟩ := hAll sampleSha256 sampleArenaCalls (some sampleBranch) 1 1 [5, 6]
      result b hRun
    rw [hCount] at hNodes
    exact ⟨result, b, rfl, K, hNodes⟩

end TulyaStore.Sequence
