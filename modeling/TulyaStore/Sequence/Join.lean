import TulyaStore.Sequence.Arena

/-!
# Edits simulate rope operations: allocation and concatenation

`Simulates x s Q` is the specification every edit step gets: from the state `s` it either
returns a value that satisfies `Q` in the final arena, which has grown and is still well
formed, or it stops because one of the arena counters ran out (`V2AvlError.Exhausted`).
No other error is possible. Under it

* `allocateLeafOn` and `allocateBranchOn` allocate the leaf and the node of a rope,
* `rebalanceOn` and `concatOn` compute `Rope.rebalance` and `Rope.join`.
-/

namespace TulyaStore.Sequence

open Lib ArenaStore V2AvlSequence

/-- The arena has no room for another node identifier or payload offset. -/
def V2AvlError.Exhausted (e : V2AvlError) : Prop :=
  e = .overflow "v2 payload arena length exceeds u64" ∨
  e = .overflow "v2 node arena length exceeds u64" ∨
  e = .format (.overflow "v2 sequence leaf payload range exceeds u64") ∨
  e = .format (.invalid "v2 sequence root uses the reserved none-node identifier")

instance (e : V2AvlError) : Decidable e.Exhausted :=
  inferInstanceAs (Decidable (_ ∨ _ ∨ _ ∨ _))

/-- One of the counters of the arena is at its end: the next node would get the reserved
identifier, or the next leaf may reach past the last payload offset. -/
def V2AvlSequence.Full (a : V2AvlSequence) : Prop :=
  maxValue 64 ≤ a.nodes.length ∨ width 64 ≤ a.payload.length + maxLeafPayloadBytes

section Simulates

variable (sha256 : Bytes → Digest) {α β : Type}

/-- From `s`, `x` returns within `Q` or runs out of arena counters. -/
def Simulates (x : EditM V2AvlSequence α) (s : EditState V2AvlSequence)
    (Q : α → V2AvlSequence → Prop) : Prop :=
  Post x s (fun r s' => Grows s.arena s'.arena ∧ WellFormed sha256 s'.arena ∧ Q r s'.arena)
    (fun e s' => e.Exhausted ∧ s'.arena.Full)

variable {sha256} {s : EditState V2AvlSequence} {x : EditM V2AvlSequence α}
  {f : α → EditM V2AvlSequence β} {Q : α → V2AvlSequence → Prop} {R : β → V2AvlSequence → Prop}

theorem sim_pure {r : α} (hWf : WellFormed sha256 s.arena) (h : Q r s.arena) :
    Simulates sha256 (pure r) s Q :=
  post_pure ⟨Grows.refl _, hWf, h⟩

theorem sim_bind (hx : Simulates sha256 x s Q)
    (hf : ∀ r s', Grows s.arena s'.arena → WellFormed sha256 s'.arena → Q r s'.arena →
      Simulates sha256 (f r) s' R) : Simulates sha256 (x >>= f) s R := by
  refine post_bind hx ?_
  rintro r s' ⟨hGrows, hWf, hQ⟩
  refine post_mono (hf r s' hGrows hWf hQ) ?_ (fun _ _ h => h)
  rintro r' s'' ⟨hGrows', hWf', hR⟩
  exact ⟨hGrows.trans hGrows', hWf', hR⟩

theorem sim_inspect {n : Nat} {Q : Unit → V2AvlSequence → Prop} (hWf : WellFormed sha256 s.arena)
    (h : Q () s.arena) : Simulates sha256 (inspect n) s Q :=
  post_modify ⟨Grows.refl _, hWf, h⟩

theorem sim_reading {g : V2AvlSequence → Except V2AvlError α} {r : α}
    (hWf : WellFormed sha256 s.arena) (hOk : g s.arena = .ok r) (h : Q r s.arena) :
    Simulates sha256 (reading g) s Q :=
  post_attempt_ok hOk ⟨Grows.refl _, hWf, h⟩

theorem sim_attempt {y : Except V2AvlError α} {r : α} (hWf : WellFormed sha256 s.arena)
    (hOk : y = .ok r) (h : Q r s.arena) : Simulates sha256 (attempt y) s Q :=
  post_attempt_ok hOk ⟨Grows.refl _, hWf, h⟩

end Simulates

/-! ## Allocation -/

section Allocation

variable {sha256 : Bytes → Digest} {s : EditState V2AvlSequence}

theorem grows_pushNode (a : V2AvlSequence) (node : ArenaNode) :
    Grows a { a with nodes := a.nodes ++ [node] } :=
  ⟨List.prefix_rfl, List.prefix_append _ _⟩

theorem grows_appendPayload (a : V2AvlSequence) (bytes : Bytes) :
    Grows a { a with payload := a.payload ++ bytes } :=
  ⟨List.prefix_append _ _, List.prefix_rfl⟩

theorem WellFormed.grows_payload {a : V2AvlSequence} (hWf : WellFormed sha256 a) (bytes : Bytes) :
    WellFormed sha256 { a with payload := a.payload ++ bytes } := by
  intro i node hNode
  obtain ⟨t, root, hRoot, hDenotes⟩ := hWf i node hNode
  exact ⟨t, root, hRoot, hDenotes.grows (grows_appendPayload a bytes)⟩

theorem WellFormed.push {a : V2AvlSequence} {node : ArenaNode} {t : Rope UInt8}
    {root : V2RootRecord} (hWf : WellFormed sha256 a)
    (hRoot : V2RootRecord.fromNode a.nodes.length node.record = .ok root)
    (hDenotes : Denotes sha256 { a with nodes := a.nodes ++ [node] } t root) :
    WellFormed sha256 { a with nodes := a.nodes ++ [node] } := by
  intro i node' hNode
  rcases Nat.lt_or_ge i a.nodes.length with hi | hi
  · rw [List.getElem?_append_left hi] at hNode
    obtain ⟨t', root', hRoot', hDenotes'⟩ := hWf i node' hNode
    exact ⟨t', root', hRoot', hDenotes'.grows (grows_pushNode a node)⟩
  · obtain rfl : i = a.nodes.length := by
      have hLen := (List.getElem?_eq_some_iff.mp hNode).1
      simp only [List.length_append, List.length_singleton] at hLen
      omega
    simp only [List.getElem?_concat_length, Option.some.injEq] at hNode
    subst hNode
    exact ⟨t, root, hRoot, hDenotes⟩

/-- A node that stands for `t` once it is pushed gets a root that does. -/
theorem allocateNodeOn_sim {node : ArenaNode} {t : Rope UInt8}
    (hWf : WellFormed sha256 s.arena)
    (hNew : ∀ root, s.arena.nodes.length < width 64 →
      V2RootRecord.fromNode s.arena.nodes.length node.record = .ok root →
      Denotes sha256 { s.arena with nodes := s.arena.nodes ++ [node] } t root) :
    Simulates sha256 (allocateNodeOn node) s (fun root b => Denotes sha256 b t root) := by
  unfold Simulates Post allocateNodeOn
  by_cases hCount : s.arena.nodes.length < width 64
  · cases hRoot : V2RootRecord.fromNode s.arena.nodes.length node.record with
    | error e =>
      obtain ⟨hNone, rfl⟩ := fromNode_eq_error.mp hRoot
      have hFull : maxValue 64 ≤ s.arena.nodes.length := Nat.le_of_eq hNone.symm
      simp [reading, attempt, arenaNodeCount, tryFrom_of_lt hCount, hRoot, liftFormat,
        bind, EStateM.bind, V2AvlError.Exhausted, V2AvlSequence.Full, hFull]
    | ok root =>
      have hDenotes := hNew root hCount hRoot
      simp only [reading, attempt, arenaNodeCount, tryFrom_of_lt hCount, hRoot, liftFormat,
        bind, EStateM.bind, okOr_some, mapErr_ok, onArena, arenaPushNode, pushNode, ne_eq,
        not_true_eq_false, failIf, if_false, pure, EStateM.pure]
      exact ⟨grows_pushNode _ _, hWf.push hRoot hDenotes, hDenotes⟩
  · have hFull : maxValue 64 ≤ s.arena.nodes.length :=
      (Nat.sub_le _ _).trans (Nat.not_lt.mp hCount)
    simp [reading, attempt, arenaNodeCount, tryFrom_of_le (Nat.not_lt.mp hCount), bind,
      EStateM.bind, V2AvlError.Exhausted, V2AvlSequence.Full, hFull]

theorem leaf_error_exhausted {offset : Nat} {bytes : Bytes} {e : V2FormatError}
    (hPos : 1 ≤ bytes.length) (hMax : bytes.length ≤ maxLeafPayloadBytes)
    (h : V2NodeRecord.leaf sha256 offset bytes = .error e) :
    e = .overflow "v2 sequence leaf payload range exceeds u64" ∧
      width 64 ≤ offset + bytes.length := by
  have hNe : ¬ bytes.isEmpty = true := by
    rw [List.isEmpty_iff]
    exact List.ne_nil_of_length_pos hPos
  have hWidth : bytes.length < width 64 :=
    lt_of_le_of_lt hMax (by decide +kernel)
  simp only [V2NodeRecord.leaf, failIf_neg hNe, failIf_neg (Nat.not_lt.mpr hMax),
    tryFrom_of_lt hWidth, okOr_some, ok_bind] at h
  by_cases hEnd : offset + bytes.length < width 64
  · rw [checkedAdd_of_lt hEnd] at h
    cases h
  · rw [checkedAdd_of_le (Nat.not_lt.mp hEnd)] at h
    cases h
    exact ⟨rfl, Nat.not_lt.mp hEnd⟩

theorem allocateLeafOn_sim {bytes : Bytes} (hWf : WellFormed sha256 s.arena)
    (hPos : 1 ≤ bytes.length) (hMax : bytes.length ≤ maxLeafPayloadBytes) :
    Simulates sha256 (allocateLeafOn sha256 bytes) s
      (fun root b => Denotes sha256 b (.leaf bytes) root) := by
  unfold allocateLeafOn
  by_cases hLen : s.arena.payload.length < width 64
  · refine sim_bind (Q := fun offset b => offset = s.arena.payload.length ∧ b = s.arena)
      (sim_reading hWf (r := s.arena.payload.length)
        (by simp [arenaPayloadLen, tryFrom_of_lt hLen]) ⟨rfl, rfl⟩) ?_
    rintro _ s₁ - - ⟨rfl, hSame⟩
    cases hRecord : V2NodeRecord.leaf sha256 s.arena.payload.length bytes with
    | error e =>
      obtain ⟨rfl, hEnd⟩ := leaf_error_exhausted hPos hMax hRecord
      refine post_bind (Q := fun _ _ => False) ⟨Or.inr (Or.inr (Or.inl rfl)), Or.inr ?_⟩
        (fun _ _ h => h.elim)
      rw [hSame]
      omega
    | ok record =>
      obtain ⟨-, hEq⟩ := leaf_eq_ok.mp hRecord
      refine sim_bind (Q := fun r b => r = record ∧ b = s.arena)
        (sim_attempt (hSame ▸ hWf) rfl ⟨rfl, hSame⟩) ?_
      rintro record s₂ - - ⟨rfl, hSame₂⟩
      -- the payload is appended where the record says
      refine sim_bind (Q := fun placed b => placed = s.arena.payload.length ∧
          b = { s.arena with payload := s.arena.payload ++ bytes }) ?_ ?_
      · unfold Simulates Post
        simp only [onArena, arenaAppendPayload, appendPayload, hSame₂, tryFrom_of_lt hLen, and_self,
          and_true]
        exact ⟨grows_appendPayload _ _, hWf.grows_payload bytes⟩
      rintro _ s₃ - hWf₃ ⟨rfl, hSame₃⟩
      refine sim_bind (Q := fun _ b => b = s₃.arena)
        (sim_attempt hWf₃ (failIf_neg (by simp)) rfl) ?_
      rintro - s₄ - hWf₄ hSame₄
      refine allocateNodeOn_sim hWf₄ ?_
      intro root hCount hRoot
      obtain ⟨hId, -, -⟩ := fromNode_fields hRoot
      rw [← hId] at hRoot hCount
      refine ⟨hCount, s.arena.payload.length, record, ?_, ?_, hRecord, hRoot⟩
      · rw [hId]
        simp [hEq]
      · rw [hSame₄, hSame₃]
        exact slice_append_self
  · refine post_bind (Q := fun _ _ => False) ?_ (fun _ _ h => h.elim)
    refine post_attempt (fun _ h => ?_) (fun _ h => ?_)
    · simp [arenaPayloadLen, tryFrom_of_le (Nat.not_lt.mp hLen)] at h
    · simp only [arenaPayloadLen, tryFrom_of_le (Nat.not_lt.mp hLen), okOr_none,
        Except.error.injEq] at h
      exact ⟨Or.inl h.symm, Or.inr ((Nat.not_lt.mp hLen).trans (Nat.le_add_right _ _))⟩

/-- Roots of ropes with near heights and a total below `2 ^ 64` bytes make a branch. -/
theorem branch_ok {a : V2AvlSequence} {l r : Rope UInt8} {left right : V2RootRecord}
    (hl : Denotes sha256 a l left) (hr : Denotes sha256 a r right)
    (hNear : l.height ≤ r.height + 1 ∧ r.height ≤ l.height + 1)
    (hLen : l.length + r.length < width 64) :
    ∃ record, V2NodeRecord.branch sha256 left right = .ok record := by
  have hHeight : (Rope.node l r).height < 94 :=
    height_lt_of_chunked ⟨hNear, hl.balanced, hr.balanced⟩ ⟨hl.chunked, hr.chunked⟩
      (by simpa using hLen)
  have hWidth : (94 : Nat) ≤ width 16 := by decide +kernel
  rw [Rope.height_node] at hHeight
  refine ⟨_, branch_eq_ok.mpr ⟨?_, ?_, ?_, ?_, ?_, rfl⟩⟩
  · obtain ⟨_, -, hRoot⟩ := hl.root_eq
    have := hl.length_pos
    have := l.height_pos
    exact ⟨(fromNode_eq_ok.mp hRoot).1, by rw [hl.logicalLen]; omega, by rw [hl.height]; omega⟩
  · obtain ⟨_, -, hRoot⟩ := hr.root_eq
    have := hr.length_pos
    have := r.height_pos
    exact ⟨(fromNode_eq_ok.mp hRoot).1, by rw [hr.logicalLen]; omega, by rw [hr.height]; omega⟩
  · rw [hl.height, hr.height]
    exact hNear
  · rw [hl.height, hr.height]
    omega
  · rw [hl.logicalLen, hr.logicalLen]
    exact hLen

theorem Denotes.id_lt_length {a : V2AvlSequence} {t : Rope UInt8} {root : V2RootRecord}
    (h : Denotes sha256 a t root) : root.nodeId < a.nodes.length := by
  obtain ⟨_, hNode, -⟩ := h.root_eq
  exact (List.getElem?_eq_some_iff.mp hNode).1

theorem allocateBranchOn_sim {l r : Rope UInt8} {left right : V2RootRecord}
    (hWf : WellFormed sha256 s.arena)
    (hl : Denotes sha256 s.arena l left) (hr : Denotes sha256 s.arena r right)
    (hNear : l.height ≤ r.height + 1 ∧ r.height ≤ l.height + 1)
    (hLen : l.length + r.length < width 64) :
    Simulates sha256 (allocateBranchOn sha256 left right) s
      (fun root b => Denotes sha256 b (.node l r) root) := by
  obtain ⟨record, hRecord⟩ := branch_ok hl hr hNear hLen
  obtain ⟨_, hLeftNode⟩ := hl.nodeForRootOn
  obtain ⟨_, hRightNode⟩ := hr.nodeForRootOn
  unfold allocateBranchOn
  refine sim_bind (Q := fun _ b => b = s.arena) (sim_inspect hWf rfl) ?_
  rintro - s₁ - hWf₁ hSame₁
  refine sim_bind (Q := fun _ b => b = s.arena)
    (sim_reading hWf₁ (by rw [hSame₁]; exact hLeftNode) hSame₁) ?_
  rintro - s₂ - hWf₂ hSame₂
  refine sim_bind (Q := fun _ b => b = s.arena)
    (sim_reading hWf₂ (by rw [hSame₂]; exact hRightNode) hSame₂) ?_
  rintro - s₃ - hWf₃ hSame₃
  refine sim_bind (Q := fun rec b => rec = record ∧ b = s.arena)
    (sim_attempt hWf₃ (by rw [hRecord]; rfl) ⟨rfl, hSame₃⟩) ?_
  rintro record s₄ - hWf₄ ⟨rfl, hSame₄⟩
  refine allocateNodeOn_sim hWf₄ ?_
  intro root hCount hRoot
  rw [hSame₄] at hCount hRoot ⊢
  obtain ⟨hId, -, -⟩ := fromNode_fields hRoot
  have hGrows := grows_pushNode s.arena (.branch left right record)
  refine ⟨hId ▸ hCount, left, right, record, ?_, hRecord, hId ▸ hRoot, ?_, ?_,
    hl.grows hGrows, hr.grows hGrows⟩
  · rw [hId]
    simp
  · rw [hId]
    exact hl.id_lt_length
  · rw [hId]
    exact hr.id_lt_length

end Allocation

/-! ## Rotations and concatenation -/

section Concat

variable {sha256 : Bytes → Digest} {s : EditState V2AvlSequence}

theorem branchChildrenOn_sim {l r : Rope UInt8} {root : V2RootRecord}
    (hWf : WellFormed sha256 s.arena) (h : Denotes sha256 s.arena (.node l r) root) :
    Simulates sha256 (branchChildrenOn root) s
      (fun children b => b = s.arena ∧ Denotes sha256 b l children.1 ∧
        Denotes sha256 b r children.2) := by
  obtain ⟨hId, left, right, record, hNode, -, hRoot, -, -, hl, hr⟩ := h
  unfold branchChildrenOn
  refine sim_bind (Q := fun _ b => b = s.arena) (sim_inspect hWf rfl) ?_
  rintro - s₁ - hWf₁ hSame₁
  refine sim_bind (Q := fun node b => node = .branch left right record ∧ b = s.arena)
    (sim_reading hWf₁
      (by rw [hSame₁]; exact nodeForRootOn_eq_ok.mpr ⟨hId, hNode, hRoot⟩) ⟨rfl, hSame₁⟩) ?_
  rintro _ s₂ - hWf₂ ⟨rfl, hSame₂⟩
  refine sim_pure hWf₂ ⟨hSame₂, ?_, ?_⟩
  · rw [hSame₂]
    exact hl
  · rw [hSame₂]
    exact hr

theorem rebalanceOn_sim {l r : Rope UInt8} {left right : V2RootRecord}
    (hWf : WellFormed sha256 s.arena)
    (hl : Denotes sha256 s.arena l left) (hr : Denotes sha256 s.arena r right)
    (hlr : l.height ≤ r.height + 2) (hrl : r.height ≤ l.height + 2)
    (hLen : l.length + r.length < width 64) :
    Simulates sha256 (rebalanceOn sha256 left right) s
      (fun root b => Denotes sha256 b (Rope.rebalance l r) root) := by
  have hBal := (Rope.rebalance_spec hl.balanced hr.balanced hlr hrl).1
  unfold rebalanceOn
  unfold Rope.rebalance at hBal ⊢
  rw [hl.height, hr.height]
  by_cases hNear : l.height ≤ r.height + 1 ∧ r.height ≤ l.height + 1
  · rw [if_pos (absDiff_le_iff.mpr hNear), if_pos hNear]
    exact allocateBranchOn_sim hWf hl hr hNear hLen
  · rw [if_neg hNear] at hBal
    rw [if_neg (fun h => hNear (absDiff_le_iff.mp h)), if_neg hNear]
    by_cases hHigh : r.height < l.height
    · rw [if_pos hHigh] at hBal
      rw [if_pos hHigh, if_pos hHigh]
      cases l with
      | leaf xs => have := r.height_pos; simp at hHigh; omega
      | node ll lr =>
        refine sim_bind (branchChildrenOn_sim hWf hl) ?_
        rintro ⟨leftLeft, leftRight⟩ s₁ hGrows₁ hWf₁ ⟨-, hll, hlr'⟩
        dsimp only at hll hlr' hBal ⊢
        rw [Rope.length_node] at hLen
        rw [hll.height, hlr'.height]
        by_cases hSingle : lr.height ≤ ll.height
        · rw [if_pos hSingle] at hBal
          rw [if_pos hSingle, if_pos hSingle]
          refine sim_bind (allocateBranchOn_sim hWf₁ hlr' (hr.grows hGrows₁) hBal.2.2.1
            (by omega)) ?_
          intro newRight s₂ hGrows₂ hWf₂ hNew
          exact allocateBranchOn_sim hWf₂ (hll.grows hGrows₂) hNew hBal.1
            (by rw [Rope.length_node]; omega)
        · rw [if_neg hSingle] at hBal
          rw [if_neg hSingle, if_neg hSingle]
          cases lr with
          | leaf xs => have := ll.height_pos; simp at hSingle; omega
          | node ml mr =>
            refine sim_bind (branchChildrenOn_sim hWf₁ hlr') ?_
            rintro ⟨middleLeft, middleRight⟩ s₂ hGrows₂ hWf₂ ⟨-, hml, hmr⟩
            dsimp only at hml hmr hBal ⊢
            rw [Rope.length_node] at hLen
            refine sim_bind (allocateBranchOn_sim hWf₂ (hll.grows hGrows₂) hml hBal.2.1.1
              (by omega)) ?_
            intro newLeft s₃ hGrows₃ hWf₃ hNewLeft
            refine sim_bind (allocateBranchOn_sim hWf₃ (hmr.grows hGrows₃)
              (hr.grows ((hGrows₁.trans hGrows₂).trans hGrows₃)) hBal.2.2.1 (by omega)) ?_
            intro newRight s₄ hGrows₄ hWf₄ hNewRight
            exact allocateBranchOn_sim hWf₄ (hNewLeft.grows hGrows₄) hNewRight hBal.1
              (by rw [Rope.length_node, Rope.length_node]; omega)
    · rw [if_neg hHigh] at hBal
      rw [if_neg hHigh, if_neg hHigh]
      cases r with
      | leaf xs => have := l.height_pos; simp at *; omega
      | node rl rr =>
        refine sim_bind (branchChildrenOn_sim hWf hr) ?_
        rintro ⟨rightLeft, rightRight⟩ s₁ hGrows₁ hWf₁ ⟨-, hrl', hrr⟩
        dsimp only at hrl' hrr hBal ⊢
        rw [Rope.length_node] at hLen
        rw [hrr.height, hrl'.height]
        by_cases hSingle : rl.height ≤ rr.height
        · rw [if_pos hSingle] at hBal
          rw [if_pos hSingle, if_pos hSingle]
          refine sim_bind (allocateBranchOn_sim hWf₁ (hl.grows hGrows₁) hrl' hBal.2.1.1
            (by omega)) ?_
          intro newLeft s₂ hGrows₂ hWf₂ hNew
          exact allocateBranchOn_sim hWf₂ hNew (hrr.grows hGrows₂) hBal.1
            (by rw [Rope.length_node]; omega)
        · rw [if_neg hSingle] at hBal
          rw [if_neg hSingle, if_neg hSingle]
          cases rl with
          | leaf xs => have := rr.height_pos; simp at hSingle; omega
          | node ml mr =>
            refine sim_bind (branchChildrenOn_sim hWf₁ hrl') ?_
            rintro ⟨middleLeft, middleRight⟩ s₂ hGrows₂ hWf₂ ⟨-, hml, hmr⟩
            dsimp only at hml hmr hBal ⊢
            rw [Rope.length_node] at hLen
            refine sim_bind (allocateBranchOn_sim hWf₂ (hl.grows (hGrows₁.trans hGrows₂)) hml
              hBal.2.1.1 (by omega)) ?_
            intro newLeft s₃ hGrows₃ hWf₃ hNewLeft
            refine sim_bind (allocateBranchOn_sim hWf₃ (hmr.grows hGrows₃)
              (hrr.grows (hGrows₂.trans hGrows₃)) hBal.2.2.1 (by omega)) ?_
            intro newRight s₄ hGrows₄ hWf₄ hNewRight
            exact allocateBranchOn_sim hWf₄ (hNewLeft.grows hGrows₄) hNewRight hBal.1
              (by rw [Rope.length_node, Rope.length_node]; omega)

/-- `saturating_add` on heights is plain addition: heights are far from the top of `u16`. -/
theorem saturatingAdd_height {h : Nat} (hh : h < 94) : saturatingAdd 16 h 1 = h + 1 := by
  have : (94 : Nat) ≤ maxValue 16 := by decide +kernel
  unfold saturatingAdd
  omega

theorem concatSteps_sim {fuel : Nat} {l r : Rope UInt8} {left right : V2RootRecord}
    (hWf : WellFormed sha256 s.arena)
    (hl : Denotes sha256 s.arena l left) (hr : Denotes sha256 s.arena r right)
    (hLen : l.length + r.length < width 64) (hFuel : l.height + r.height ≤ fuel) :
    Simulates sha256 (concatSteps sha256 fuel left right) s
      (fun root b => Denotes sha256 b (Rope.join l r) root) := by
  -- the bound counts the levels of both ropes; every round takes the higher one apart
  induction fuel generalizing s l r left right with
  | zero => have := l.height_pos; omega
  | succ fuel ih =>
    unfold concatSteps
    rw [hl.height, hr.height, saturatingAdd_height hl.height_lt,
      saturatingAdd_height hr.height_lt]
    by_cases hHigh : r.height + 1 < l.height
    · rw [if_pos hHigh]
      cases l with
      | leaf xs => simp at hHigh
      | node ll lr =>
        rw [Rope.join_left hHigh]
        obtain ⟨hNear, -, hlrBal⟩ := hl.balanced
        rw [Rope.length_node] at hLen
        rw [Rope.height_node] at hFuel hHigh
        refine sim_bind (branchChildrenOn_sim hWf hl) ?_
        rintro ⟨leftLeft, leftRight⟩ s₁ hGrows₁ hWf₁ ⟨-, hll, hlr⟩
        dsimp only at hll hlr ⊢
        refine sim_bind (ih hWf₁ hlr (hr.grows hGrows₁) (by omega) (by omega)) ?_
        intro joined s₂ hGrows₂ hWf₂ hJoined
        obtain ⟨-, hLow, hUp⟩ := Rope.join_spec hlrBal hr.balanced
        exact rebalanceOn_sim hWf₂ (hll.grows hGrows₂) hJoined (by omega) (by omega)
          (by rw [Rope.length_join]; omega)
    · rw [if_neg hHigh]
      by_cases hLow : l.height + 1 < r.height
      · rw [if_pos hLow]
        cases r with
        | leaf xs => simp at hLow
        | node rl rr =>
          rw [Rope.join_right hLow]
          obtain ⟨hNear, hrlBal, -⟩ := hr.balanced
          rw [Rope.length_node] at hLen
          rw [Rope.height_node] at hFuel hLow
          refine sim_bind (branchChildrenOn_sim hWf hr) ?_
          rintro ⟨rightLeft, rightRight⟩ s₁ hGrows₁ hWf₁ ⟨-, hrl, hrr⟩
          dsimp only at hrl hrr ⊢
          refine sim_bind (ih hWf₁ (hl.grows hGrows₁) hrl (by omega) (by omega)) ?_
          intro joined s₂ hGrows₂ hWf₂ hJoined
          obtain ⟨-, hLow, hUp⟩ := Rope.join_spec hl.balanced hrlBal
          exact rebalanceOn_sim hWf₂ hJoined (hrr.grows hGrows₂) (by omega) (by omega)
            (by rw [Rope.length_join]; omega)
      · rw [if_neg hLow, Rope.join_near hHigh hLow]
        exact allocateBranchOn_sim hWf hl hr ⟨by omega, by omega⟩ hLen

theorem concatOn_sim {l r : Rope UInt8} {left right : V2RootRecord}
    (hWf : WellFormed sha256 s.arena)
    (hl : Denotes sha256 s.arena l left) (hr : Denotes sha256 s.arena r right)
    (hLen : l.length + r.length < width 64) :
    Simulates sha256 (concatOn sha256 left right) s
      (fun root b => Denotes sha256 b (Rope.join l r) root) := by
  refine concatSteps_sim hWf hl hr hLen ?_
  rw [hl.height, hr.height]

/-- A root that may be missing stands for a rope that may be missing. -/
def DenotesOption (sha256 : Bytes → Digest) (a : V2AvlSequence) :
    Option (Rope UInt8) → Option V2RootRecord → Prop
  | none, none => True
  | some t, some root => Denotes sha256 a t root
  | _, _ => False

theorem DenotesOption.grows {a b : V2AvlSequence} {o : Option (Rope UInt8)}
    {root : Option V2RootRecord} (hGrows : Grows a b) (h : DenotesOption sha256 a o root) :
    DenotesOption sha256 b o root := by
  cases o <;> cases root
  · trivial
  · exact h
  · exact h
  · exact Denotes.grows hGrows h

theorem concatOptionalOn_sim {l r : Option (Rope UInt8)} {left right : Option V2RootRecord}
    (hWf : WellFormed sha256 s.arena)
    (hl : DenotesOption sha256 s.arena l left) (hr : DenotesOption sha256 s.arena r right)
    (hLen : (Rope.elements l).length + (Rope.elements r).length < width 64) :
    Simulates sha256 (concatOptionalOn sha256 left right) s
      (fun root b => DenotesOption sha256 b (Rope.joinOption l r) root) := by
  cases l with
  | none =>
    cases left with
    | some left => exact hl.elim
    | none =>
      cases right with
      | none => exact sim_pure hWf hr
      | some right => exact sim_pure hWf hr
  | some l =>
    cases left with
    | none => exact hl.elim
    | some left =>
      cases r with
      | none =>
        cases right with
        | none => exact sim_pure hWf hl
        | some right => exact hr.elim
      | some r =>
        cases right with
        | none => exact hr.elim
        | some right =>
          refine sim_bind (concatOn_sim hWf hl hr hLen) ?_
          rintro root s₁ - hWf₁ hRoot
          exact sim_pure hWf₁ hRoot

end Concat

end TulyaStore.Sequence
