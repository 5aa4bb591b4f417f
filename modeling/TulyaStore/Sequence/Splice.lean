import TulyaStore.Sequence.Join

/-!
# Edits simulate rope operations: splitting and splicing

`splitOn` computes `Rope.splitAt`, `buildInsertSubtreeOn` a rope of the inserted bytes, and
`spliceInnerOn` puts the pieces together. `spliceOn_outcome` is the complete description of
a splice on a well-formed arena: which calls the checks reject, and what an accepted call
returns.
-/

namespace TulyaStore.Sequence

open Lib ArenaStore V2AvlSequence

section Split

variable {sha256 : Bytes → Digest} {s : EditState V2AvlSequence}

theorem joinRightOn_sim {near : Option (Rope UInt8)} {r : Rope UInt8} {nearRoot : Option V2RootRecord}
    {right : V2RootRecord} (hWf : WellFormed sha256 s.arena)
    (hNear : DenotesOption sha256 s.arena near nearRoot) (hr : Denotes sha256 s.arena r right)
    (hLen : (Rope.elements near).length + r.length < width 64) :
    Simulates sha256 (joinRightOn sha256 nearRoot right) s
      (fun root b => DenotesOption sha256 b (Rope.joinOption near (some r)) (some root)) := by
  cases near with
  | none =>
    cases nearRoot with
    | none => exact sim_pure hWf hr
    | some root => exact hNear.elim
  | some near =>
    cases nearRoot with
    | none => exact hNear.elim
    | some root => exact concatOn_sim hWf hNear hr hLen

theorem joinLeftOn_sim {near : Option (Rope UInt8)} {l : Rope UInt8} {nearRoot : Option V2RootRecord}
    {left : V2RootRecord} (hWf : WellFormed sha256 s.arena)
    (hl : Denotes sha256 s.arena l left) (hNear : DenotesOption sha256 s.arena near nearRoot)
    (hLen : l.length + (Rope.elements near).length < width 64) :
    Simulates sha256 (joinLeftOn sha256 left nearRoot) s
      (fun root b => DenotesOption sha256 b (Rope.joinOption (some l) near) (some root)) := by
  cases near with
  | none =>
    cases nearRoot with
    | none => exact sim_pure hWf hl
    | some root => exact hNear.elim
  | some near =>
    cases nearRoot with
    | none => exact hNear.elim
    | some root => exact concatOn_sim hWf hl hNear hLen

theorem splitSteps_sim {fuel : Nat} {t : Rope UInt8} {root : V2RootRecord} {offset : Nat}
    (hWf : WellFormed sha256 s.arena) (h : Denotes sha256 s.arena t root)
    (hOffset : offset ≤ t.length) (hFuel : t.height < fuel) :
    Simulates sha256 (splitSteps sha256 fuel root offset) s
      (fun parts b => DenotesOption sha256 b (Rope.splitAt t offset).1 parts.1 ∧
        DenotesOption sha256 b (Rope.splitAt t offset).2 parts.2) := by
  induction fuel generalizing s t root offset with
  | zero => omega
  | succ fuel ih =>
    have hPos := h.length_pos
    have hWidth := h.metadata.2.2
    unfold splitSteps
    dsimp only
    rw [h.logicalLen, if_neg (by omega)]
    by_cases hZero : offset = 0
    · subst hZero
      rw [if_pos rfl, Rope.splitAt_zero]
      exact sim_pure hWf ⟨trivial, h⟩
    rw [if_neg hZero]
    by_cases hAll : offset = t.length
    · subst hAll
      rw [if_pos rfl, Rope.splitAt_length (by omega)]
      exact sim_pure hWf ⟨h, trivial⟩
    rw [if_neg hAll]
    refine sim_bind (Q := fun _ b => b = s.arena) (sim_inspect hWf rfl) ?_
    rintro - s₁ - hWf₁ hSame₁
    cases t with
    | leaf bytes =>
      obtain ⟨hId, start, record, hNode, hSlice, hRecord, hRoot⟩ := h
      obtain ⟨⟨-, hMax, hEnd⟩, -⟩ := leaf_eq_ok.mp hRecord
      rw [Rope.length_leaf] at hAll hOffset
      refine sim_bind (Q := fun node b => node = .leaf start bytes.length record ∧ b = s.arena)
        (sim_reading hWf₁ (by rw [hSame₁]; exact nodeForRootOn_eq_ok.mpr ⟨hId, hNode, hRoot⟩)
          ⟨rfl, hSame₁⟩) ?_
      rintro _ s₂ - hWf₂ ⟨rfl, hSame₂⟩
      refine sim_bind (Q := fun _ b => b = s.arena)
        (sim_reading hWf₂ (by rw [hSame₂]; exact validateNodeOn_leaf hSlice hRecord) hSame₂) ?_
      rintro - s₃ - hWf₃ hSame₃
      refine sim_bind (Q := fun stop b => stop = start + offset ∧ b = s.arena)
        (sim_attempt hWf₃ (okOr_eq_ok.mpr (checkedAdd_of_lt (by omega))) ⟨rfl, hSame₃⟩) ?_
      rintro _ s₄ - hWf₄ ⟨rfl, hSame₄⟩
      refine sim_bind (Q := fun stop b => stop = start + bytes.length ∧ b = s.arena)
        (sim_attempt hWf₄ (okOr_eq_ok.mpr (checkedAdd_of_lt hEnd)) ⟨rfl, hSame₄⟩) ?_
      rintro _ s₅ - hWf₅ ⟨rfl, hSame₅⟩
      have hLeft : slice s.arena.payload start (start + offset) = some (bytes.take offset) := by
        have := slice_slice hSlice (Nat.zero_le offset) hOffset
        simpa using this
      have hRight : slice s.arena.payload (start + offset) (start + bytes.length) =
          some (bytes.drop offset) := by
        have := slice_slice hSlice hOffset (Nat.le_refl bytes.length)
        rwa [List.take_of_length_le (by simp)] at this
      refine sim_bind (Q := fun r b => r = bytes.take offset ∧ b = s.arena)
        (sim_reading hWf₅ (by rw [hSame₅]; exact readPayload_eq_ok.mpr ⟨by omega, by omega, hLeft⟩)
          ⟨rfl, hSame₅⟩) ?_
      rintro _ s₆ - hWf₆ ⟨rfl, hSame₆⟩
      refine sim_bind (Q := fun r b => r = bytes.drop offset ∧ b = s.arena)
        (sim_reading hWf₆ (by rw [hSame₆]; exact readPayload_eq_ok.mpr ⟨by omega, by omega, hRight⟩)
          ⟨rfl, hSame₆⟩) ?_
      rintro _ s₇ - hWf₇ ⟨rfl, hSame₇⟩
      refine sim_bind (allocateLeafOn_sim hWf₇ (by simp; omega) (by simp; omega)) ?_
      rintro left s₈ - hWf₈ hLeftRoot
      refine sim_bind (allocateLeafOn_sim hWf₈ (by simp; omega) (by simp; omega)) ?_
      rintro right s₉ hGrows₉ hWf₉ hRightRoot
      rw [Rope.splitAt_leaf hZero hAll]
      exact sim_pure hWf₉ ⟨hLeftRoot.grows hGrows₉, hRightRoot⟩
    | node l r =>
      obtain ⟨hId, left, right, record, hNode, hRecord, hRoot, -, -, hl, hr⟩ := h
      rw [Rope.height_node] at hFuel
      rw [Rope.splitAt_node hZero hAll]
      rw [Rope.length_node] at hAll hOffset hWidth
      refine sim_bind (Q := fun node b => node = .branch left right record ∧ b = s.arena)
        (sim_reading hWf₁ (by rw [hSame₁]; exact nodeForRootOn_eq_ok.mpr ⟨hId, hNode, hRoot⟩)
          ⟨rfl, hSame₁⟩) ?_
      rintro _ s₂ - hWf₂ ⟨rfl, hSame₂⟩
      refine sim_bind (Q := fun _ b => b = s.arena)
        (sim_reading hWf₂ (validateNodeOn_branch hRecord) hSame₂) ?_
      rintro - s₃ - hWf₃ hSame₃
      rw [← hSame₃] at hl hr
      dsimp only
      rw [hl.logicalLen]
      by_cases hLess : offset < l.length
      · rw [if_pos hLess, if_pos hLess]
        have hLe := hLess.le
        refine sim_bind (ih hWf₃ hl hLe (by omega)) ?_
        rintro ⟨farLeft, near⟩ s₄ hGrows₄ hWf₄ ⟨hFar, hNear⟩
        have hPiece := congrArg List.length (Rope.splitAt_elements l hLe).2
        rw [List.length_drop] at hPiece
        refine sim_bind (joinRightOn_sim hWf₄ hNear (hr.grows hGrows₄)
          (by rw [hPiece]; simp only [Rope.length] at *; omega)) ?_
        rintro joined s₅ hGrows₅ hWf₅ hJoined
        exact sim_pure hWf₅ ⟨hFar.grows hGrows₅, hJoined⟩
      · rw [if_neg hLess, if_neg hLess]
        by_cases hEq : offset = l.length
        · rw [if_pos hEq, if_pos hEq]
          exact sim_pure hWf₃ ⟨hl, hr⟩
        · rw [if_neg hEq, if_neg hEq]
          have hLe : offset - l.length ≤ r.length := by omega
          refine sim_bind (ih hWf₃ hr hLe (by omega)) ?_
          rintro ⟨near, farRight⟩ s₄ hGrows₄ hWf₄ ⟨hNear, hFar⟩
          have hPiece := congrArg List.length (Rope.splitAt_elements r hLe).1
          rw [List.length_take] at hPiece
          refine sim_bind (joinLeftOn_sim hWf₄ (hl.grows hGrows₄) hNear
            (by rw [hPiece]; simp only [Rope.length] at *; omega)) ?_
          rintro joined s₅ hGrows₅ hWf₅ hJoined
          exact sim_pure hWf₅ ⟨hJoined, hFar.grows hGrows₅⟩

theorem splitOn_sim {t : Rope UInt8} {root : V2RootRecord} {offset : Nat}
    (hWf : WellFormed sha256 s.arena) (h : Denotes sha256 s.arena t root)
    (hOffset : offset ≤ t.length) :
    Simulates sha256 (splitOn sha256 root offset) s
      (fun parts b => DenotesOption sha256 b (Rope.splitAt t offset).1 parts.1 ∧
        DenotesOption sha256 b (Rope.splitAt t offset).2 parts.2) := by
  refine splitSteps_sim hWf h hOffset ?_
  rw [h.height]
  exact Nat.lt_succ_self _

end Split

/-! ## Building the inserted part -/

section Build

variable {sha256 : Bytes → Digest} {s : EditState V2AvlSequence}

/-- A row of roots stands for a row of ropes. -/
def DenotesList (sha256 : Bytes → Digest) (a : V2AvlSequence) :
    List (Rope UInt8) → List V2RootRecord → Prop :=
  List.Forall₂ (Denotes sha256 a)

theorem DenotesList.grows {a b : V2AvlSequence} {ts : List (Rope UInt8)}
    {roots : List V2RootRecord} (hGrows : Grows a b) (h : DenotesList sha256 a ts roots) :
    DenotesList sha256 b ts roots :=
  List.Forall₂.imp (fun _ _ h => Denotes.grows hGrows h) h

theorem allocateChunks_sim {pieces : List Bytes} (hWf : WellFormed sha256 s.arena)
    (hPieces : ∀ c ∈ pieces, 1 ≤ c.length ∧ c.length ≤ maxLeafPayloadBytes) :
    Simulates sha256 (allocateChunks sha256 pieces) s
      (fun roots b => DenotesList sha256 b (pieces.map Rope.leaf) roots) := by
  induction pieces generalizing s with
  | nil => exact sim_pure hWf .nil
  | cons c pieces ih =>
    have hc := hPieces c List.mem_cons_self
    refine sim_bind (allocateLeafOn_sim hWf hc.1 hc.2) ?_
    intro root s₁ hGrows₁ hWf₁ hRoot
    refine sim_bind (ih hWf₁ (fun c' hc' => hPieces c' (List.mem_cons_of_mem _ hc'))) ?_
    intro roots s₂ hGrows₂ hWf₂ hRoots
    exact sim_pure hWf₂ (.cons (hRoot.grows hGrows₂) hRoots)

/-- The number of bytes in a row of ropes. -/
def rowLength (ts : List (Rope UInt8)) : Nat := (ts.flatMap Rope.toList).length

theorem rowLength_cons (t : Rope UInt8) (ts : List (Rope UInt8)) :
    rowLength (t :: ts) = t.length + rowLength ts := by
  simp [rowLength, Rope.length]

theorem pairRound_sim {ts : List (Rope UInt8)} {roots : List V2RootRecord}
    (hWf : WellFormed sha256 s.arena) (h : DenotesList sha256 s.arena ts roots)
    (hLen : rowLength ts < width 64) :
    Simulates sha256 (pairRound sha256 roots) s
      (fun roots' b => DenotesList sha256 b (Rope.pairLevel ts) roots') := by
  fun_induction Rope.pairLevel ts generalizing s roots with
  | case1 a b rest ih =>
    obtain ⟨left, roots, ha, hTail, rfl⟩ : ∃ left roots', Denotes sha256 s.arena a left ∧
        DenotesList sha256 s.arena (b :: rest) roots' ∧ roots = left :: roots' := by
      cases h with
      | cons ha hTail => exact ⟨_, _, ha, hTail, rfl⟩
    obtain ⟨right, roots, hb, hRest, rfl⟩ : ∃ right roots', Denotes sha256 s.arena b right ∧
        DenotesList sha256 s.arena rest roots' ∧ roots = right :: roots' := by
      cases hTail with
      | cons hb hRest => exact ⟨_, _, hb, hRest, rfl⟩
    rw [rowLength_cons, rowLength_cons] at hLen
    unfold pairRound
    refine sim_bind (concatOn_sim hWf ha hb (by omega)) ?_
    intro root s₁ hGrows₁ hWf₁ hRoot
    refine sim_bind (ih hWf₁ (hRest.grows hGrows₁) (by omega)) ?_
    intro roots' s₂ hGrows₂ hWf₂ hRoots
    exact sim_pure hWf₂ (.cons (hRoot.grows hGrows₂) hRoots)
  | case2 rest hShort =>
    have hStop : pairRound sha256 roots = (pure roots : EditM V2AvlSequence _) := by
      cases h with
      | nil => rfl
      | cons ha hTail =>
        cases hTail with
        | nil => rfl
        | cons hb hRest => exact (hShort _ _ _ rfl).elim
    rw [hStop]
    exact sim_pure hWf h

theorem pairRounds_sim {fuel : Nat} {ts : List (Rope UInt8)} {roots : List V2RootRecord}
    (hWf : WellFormed sha256 s.arena) (h : DenotesList sha256 s.arena ts roots)
    (hLen : rowLength ts < width 64) (hFuel : ts.length < fuel) :
    Simulates sha256 (pairRounds sha256 fuel roots) s
      (fun roots' b => DenotesOption sha256 b (Rope.joinLevel ts) roots'.getLast?) := by
  induction fuel generalizing s ts roots with
  | zero => omega
  | succ fuel ih =>
    have hLength : ts.length = roots.length := List.Forall₂.length_eq h
    unfold pairRounds
    rw [Rope.joinLevel.eq_def, ← hLength]
    by_cases hMany : 1 < ts.length
    · rw [if_pos hMany, if_pos hMany]
      have hShrinks := Rope.length_pairLevel_le ts
      refine sim_bind (pairRound_sim hWf h hLen) ?_
      intro roots' s₁ hGrows₁ hWf₁ hRoots
      exact ih hWf₁ hRoots (by rw [rowLength, Rope.toList_pairLevel]; exact hLen) (by omega)
    · rw [if_neg hMany, if_neg hMany]
      refine sim_pure hWf ?_
      cases h with
      | nil => trivial
      | cons ha hTail =>
        cases hTail with
        | nil => exact ha
        | cons hb hRest => simp at hMany

theorem buildInsertSubtreeOn_sim {insert : Bytes} (hWf : WellFormed sha256 s.arena)
    (hNe : insert ≠ []) (hLen : insert.length < width 64) :
    Simulates sha256 (buildInsertSubtreeOn sha256 insert) s
      (fun root b => ∃ t, t.toList = insert ∧ Denotes sha256 b t root) := by
  have hPositive : 0 < maxLeafPayloadBytes := by decide
  have hPieces : ∀ c ∈ chunks maxLeafPayloadBytes insert,
      1 ≤ c.length ∧ c.length ≤ maxLeafPayloadBytes := fun c hc =>
    length_of_mem_chunks hPositive hc
  have hRow : ((chunks maxLeafPayloadBytes insert).map Rope.leaf).flatMap Rope.toList = insert := by
    rw [List.flatMap_map, ← flatten_chunks hPositive insert]
    simp [List.flatMap_id', flatten_chunks hPositive]
  unfold buildInsertSubtreeOn
  refine sim_bind (allocateChunks_sim hWf hPieces) ?_
  intro leaves s₁ hGrows₁ hWf₁ hLeaves
  refine sim_bind (pairRounds_sim hWf₁ hLeaves (by rw [rowLength, hRow]; exact hLen)
    (by rw [List.Forall₂.length_eq hLeaves]; exact Nat.lt_succ_self _)) ?_
  intro level s₂ hGrows₂ hWf₂ hLevel
  have hRowNe : (chunks maxLeafPayloadBytes insert).map Rope.leaf ≠ [] := by
    simpa using chunks_ne_nil hPositive hNe
  obtain ⟨t, hJoin, -, -, hList⟩ := Rope.joinLevel_spec (k := maxLeafPayloadBytes) hRowNe
    (fun t ht => by
      obtain ⟨c, hc, rfl⟩ := List.mem_map.mp ht
      exact ⟨trivial, hPieces c hc⟩)
  rw [hJoin] at hLevel
  cases hLast : level.getLast? with
  | none => rw [hLast] at hLevel; exact hLevel.elim
  | some root =>
    rw [hLast] at hLevel
    exact sim_attempt hWf₂ rfl ⟨t, hList.trans hRow, hLevel⟩

theorem insertMiddleOn_sim {insert : Bytes} (hWf : WellFormed sha256 s.arena)
    (hLen : insert.length < width 64) :
    Simulates sha256 (insertMiddleOn sha256 insert) s
      (fun root b => ∃ t, Rope.elements t = insert ∧ DenotesOption sha256 b t root) := by
  unfold insertMiddleOn
  cases insert with
  | nil => exact sim_pure hWf ⟨none, rfl, trivial⟩
  | cons x xs =>
    refine sim_bind (buildInsertSubtreeOn_sim hWf (by simp) hLen) ?_
    rintro root s₁ - hWf₁ ⟨t, hList, hRoot⟩
    exact sim_pure hWf₁ ⟨some t, hList, hRoot⟩

end Build

/-! ## Splicing -/

section SpliceInner

variable {sha256 : Bytes → Digest} {s : EditState V2AvlSequence}

theorem DenotesOption.sound {a : V2AvlSequence} {o : Option (Rope UInt8)}
    {root : Option V2RootRecord} (h : DenotesOption sha256 a o root) :
    Rope.Sound maxLeafPayloadBytes o := by
  cases o with
  | none => exact Rope.sound_none
  | some t =>
    cases root with
    | none => exact h.elim
    | some root => exact Rope.sound_some.mpr ⟨Denotes.balanced h, Denotes.chunked h⟩

theorem dropDeletedOn_sim {mid : Option (Rope UInt8)} {midRight : Option V2RootRecord}
    {deleteLen : Nat} (hWf : WellFormed sha256 s.arena)
    (h : DenotesOption sha256 s.arena mid midRight)
    (hLen : deleteLen ≤ (Rope.elements mid).length) :
    Simulates sha256 (dropDeletedOn sha256 midRight deleteLen) s
      (fun right b => ∃ o, Rope.elements o = (Rope.elements mid).drop deleteLen ∧
        DenotesOption sha256 b o right) := by
  cases mid with
  | none =>
    cases midRight with
    | some root => exact h.elim
    | none => exact sim_pure hWf ⟨none, by simp, trivial⟩
  | some t =>
    cases midRight with
    | none => exact h.elim
    | some root =>
      unfold dropDeletedOn
      dsimp only
      by_cases hZero : deleteLen = 0
      · rw [if_pos hZero]
        exact sim_pure hWf ⟨some t, by simp [hZero], h⟩
      · rw [if_neg hZero]
        refine sim_bind (splitOn_sim hWf h hLen) ?_
        rintro ⟨left, right⟩ s₁ - hWf₁ ⟨-, hRight⟩
        exact sim_pure hWf₁ ⟨_, (Rope.splitAt_elements t hLen).2, hRight⟩

theorem spliceInnerOn_none_sim {offset deleteLen : Nat} {insert : Bytes}
    (hWf : WellFormed sha256 s.arena) (hNe : insert ≠ []) (hLen : insert.length < width 64) :
    Simulates sha256 (spliceInnerOn sha256 none offset deleteLen insert) s
      (fun root b => ∃ t, t.toList = insert ∧ Denotes sha256 b t root) := by
  unfold spliceInnerOn
  refine sim_bind (insertMiddleOn_sim hWf hLen) ?_
  rintro middle s₁ - hWf₁ ⟨o, hElements, hMiddle⟩
  cases o with
  | none => exact (hNe hElements.symm).elim
  | some t =>
    cases middle with
    | none => exact hMiddle.elim
    | some root => exact sim_attempt hWf₁ rfl ⟨t, hElements, hMiddle⟩

theorem spliceInnerOn_some_sim {t : Rope UInt8} {root : V2RootRecord} {offset deleteLen : Nat}
    {insert : Bytes} (hWf : WellFormed sha256 s.arena) (h : Denotes sha256 s.arena t root)
    (hOffset : offset ≤ t.length) (hDelete : deleteLen ≤ t.length - offset)
    (hPos : 1 ≤ t.length - deleteLen + insert.length)
    (hMax : t.length - deleteLen + insert.length < width 64) :
    Simulates sha256 (spliceInnerOn sha256 (some root) offset deleteLen insert) s
      (fun root' b => ∃ t', t'.toList =
          t.toList.take offset ++ insert ++ t.toList.drop (offset + deleteLen) ∧
        Denotes sha256 b t' root') := by
  have hLength : t.toList.length = t.length := rfl
  unfold spliceInnerOn
  refine sim_bind (insertMiddleOn_sim hWf (by omega)) ?_
  rintro middle s₁ hGrows₁ hWf₁ ⟨m, hInsert, hMiddle⟩
  obtain ⟨hFirst, hSecond⟩ := Rope.splitAt_elements t hOffset
  refine sim_bind (splitOn_sim hWf₁ (h.grows hGrows₁) hOffset) ?_
  rintro ⟨left, midRight⟩ s₂ hGrows₂ hWf₂ ⟨hLeft, hMid⟩
  refine sim_bind (dropDeletedOn_sim hWf₂ hMid ?_) ?_
  · rw [hSecond, List.length_drop]
    omega
  rintro right s₃ hGrows₃ hWf₃ ⟨o, hRest, hRight⟩
  rw [hSecond, List.drop_drop] at hRest
  refine sim_bind (concatOptionalOn_sim hWf₃ (hLeft.grows hGrows₃)
    (hMiddle.grows (hGrows₂.trans hGrows₃)) ?_) ?_
  · rw [hFirst, hInsert, List.length_take]
    omega
  intro combined s₄ hGrows₄ hWf₄ hCombined
  refine sim_bind (concatOptionalOn_sim hWf₄ hCombined (hRight.grows hGrows₄) ?_) ?_
  · rw [Rope.elements_joinOption, hFirst, hInsert, hRest, List.length_append, List.length_take,
      List.length_drop]
    omega
  intro whole s₅ hGrows₅ hWf₅ hWhole
  have hElements : Rope.elements (Rope.joinOption
      (Rope.joinOption (Rope.splitAt t offset).1 m) o) =
      t.toList.take offset ++ insert ++ t.toList.drop (offset + deleteLen) := by
    rw [Rope.elements_joinOption, Rope.elements_joinOption, hFirst, hInsert, hRest]
  generalize Rope.joinOption (Rope.joinOption (Rope.splitAt t offset).1 m) o = result
    at hWhole hElements
  cases result with
  | none =>
    have := congrArg List.length hElements
    simp only [Rope.elements_none, List.length_nil, List.length_append, List.length_take,
      List.length_drop] at this
    omega
  | some t' =>
    cases whole with
    | none => exact hWhole.elim
    | some root' => exact sim_attempt hWf₅ rfl ⟨t', hElements, hWhole⟩

end SpliceInner

end TulyaStore.Sequence
