import TulyaStore.Lib.Files

/-!
# Steps that are refused

The system may refuse a step of a program over a directory. The program goes no further then, and
of a write the first bytes may be in the file. The answers to the steps to come stand in the state
of the program; behind their end every step is done.

What a refusal leaves is one of the directories an interruption can leave
(`Refused.interrupted`), so what holds along the steps of a program holds behind a refusal, too
(`CrashSafe.refusableAlong`).
-/

namespace TulyaStore.Lib

/-- How a step ends. Of a refused write the first bytes may be in the file. -/
inductive StepAnswer where
  | done
  | refused (kept : Nat)
deriving DecidableEq, Repr

/-- A state with the answers to the steps to come. -/
class HasAnswers (σ : Type) where
  answers : σ → List StepAnswer
  withAnswers : σ → List StepAnswer → σ

export HasAnswers (answers withAnswers)

section Answers

variable {N : Type} [DecidableEq N]

/-- What a refused step does. -/
def FileStep.refused (kept : Nat) : FileStep N → List (FileStep N)
  | .write name offset bytes =>
    if kept < bytes.length then [.write name offset (bytes.take kept)] else []
  | _ => []

/-- What is done of the steps, the first one that is refused, and the answers left. -/
def answerSteps (answers : List StepAnswer) :
    List (FileStep N) → List (FileStep N) × Option (FileStep N) × List StepAnswer
  | [] => ([], none, answers)
  | step :: steps =>
    match answers with
    | .refused kept :: left => (step.refused kept, some step, left)
    | _ =>
      match answerSteps answers.tail steps with
      | (done, stop, left) => (step :: done, stop, left)

/-- The directory a refusal leaves: some of the steps are done, and the next one is not, or is
torn. -/
inductive Refused : Files N → List (FileStep N) → Files N → Prop where
  | here (files : Files N) (step : FileStep N) (rest : List (FileStep N)) :
      Refused files (step :: rest) files
  | torn {files image : Files N} {step : FileStep N} (rest : List (FileStep N))
      (h : step.Torn files image) : Refused files (step :: rest) image
  | later {files image : Files N} {step : FileStep N} {rest : List (FileStep N)}
      (h : Refused (step.apply files) rest image) : Refused files (step :: rest) image

variable {files image : Files N} {steps : List (FileStep N)} {P : Files N → Prop}

theorem Refused.interrupted (h : Refused files steps image) : Interrupted files steps image := by
  induction h with
  | here files step rest => exact .here files _
  | torn rest hTorn => exact .torn rest hTorn
  | later _ ih => exact .later ih

theorem Refused.of_single {step : FileStep N} (h : Refused files [step] image) :
    image = files ∨ step.Torn files image := by
  cases h with
  | here => exact .inl rfl
  | torn _ hTorn => exact .inr hTorn
  | later hRest => cases hRest

/-- What a refused step does leaves the directory before the step, or a torn one. -/
theorem FileStep.refused_leaves (files : Files N) (kept : Nat) (step : FileStep N) :
    applyAll files (step.refused kept) = files ∨
      step.Torn files (applyAll files (step.refused kept)) := by
  cases step with
  | write name offset bytes =>
    rw [refused]
    split
    case isTrue hKept => exact .inr ⟨kept, hKept, rfl⟩
    case isFalse => exact .inl rfl
  | _ => exact .inl rfl

theorem FileStep.along_refused {step : FileStep N} (kept : Nat) (h : P files)
    (hTorn : ∀ image, step.Torn files image → P image) :
    AlongSteps P files (step.refused kept) := by
  cases step with
  | write name offset bytes =>
    rw [refused]
    split
    case isTrue hKept =>
      refine alongSteps_write h (fun k hLe => ?_) (hTorn _ ⟨kept, hKept, rfl⟩)
      rw [List.take_take]
      exact hTorn _ ⟨min k kept, by omega, rfl⟩
    case isFalse => exact h
  | _ => exact h

omit [DecidableEq N] in
theorem answerSteps_none {answers left : List StepAnswer} {done : List (FileStep N)}
    (h : answerSteps answers steps = (done, none, left)) : done = steps := by
  induction steps generalizing answers done with
  | nil =>
    cases h
    rfl
  | cons step rest ih =>
    rw [answerSteps.eq_def] at h
    dsimp only at h
    split at h
    case h_1 => cases h
    case h_2 =>
      rcases hRest : answerSteps answers.tail rest with ⟨done', stop', left'⟩
      rw [hRest] at h
      cases h
      rw [ih hRest]

theorem answerSteps_some {answers left : List StepAnswer} {done : List (FileStep N)}
    {stop : FileStep N} (h : answerSteps answers steps = (done, some stop, left)) :
    Refused files steps (applyAll files done) := by
  induction steps generalizing answers done files with
  | nil => cases h
  | cons step rest ih =>
    rw [answerSteps.eq_def] at h
    dsimp only at h
    split at h
    case h_1 kept _ =>
      cases h
      rcases FileStep.refused_leaves files kept stop with hSame | hTorn
      · rw [hSame]
        exact .here files stop rest
      · exact .torn rest hTorn
    case h_2 =>
      rcases hRest : answerSteps answers.tail rest with ⟨done', stop', left'⟩
      rw [hRest] at h
      cases h
      exact .later (ih hRest)

/-- What holds along the steps holds along what is done of them. -/
theorem AlongSteps.answered {answers left : List StepAnswer} {done : List (FileStep N)}
    {stop : Option (FileStep N)} (h : AlongSteps P files steps)
    (hDone : answerSteps answers steps = (done, stop, left)) : AlongSteps P files done := by
  induction steps generalizing answers done files with
  | nil =>
    cases hDone
    exact h
  | cons step rest ih =>
    rw [answerSteps.eq_def] at hDone
    dsimp only at hDone
    split at hDone
    case h_1 kept _ =>
      cases hDone
      exact FileStep.along_refused kept h.1 h.2.1
    case h_2 =>
      rcases hRest : answerSteps answers.tail rest with ⟨done', stop', left'⟩
      rw [hRest] at hDone
      cases hDone
      exact ⟨h.1, h.2.1, ih h.2.2 hRest⟩

end Answers

/-! ## Programs -/

namespace FileM

variable {N : Type} [DecidableEq N] {σ ε α : Type}

/-- The program whose steps may be refused, with an error that depends on the step. It is for
programs that do not handle errors of their own. -/
def refusable [HasAnswers σ] (reason : FileStep N → ε) (x : FileM N σ ε α) : FileM N σ ε α :=
  fun s files =>
    match x s files with
    | (steps, result, t) =>
      match answerSteps (answers s) steps with
      | (done, none, left) => (done, result, withAnswers t left)
      | (done, some step, left) => (done, .error (reason step), withAnswers s left)

/-- Whether a program succeeds; an error is dropped. -/
def succeeds (x : FileM N σ ε Unit) : FileM N σ ε Bool :=
  tryCatch (do x; return true) fun _ => return false

variable {P R : Files N → Prop} {s : σ} {files : Files N} {Q : α → σ → Files N → Prop}
  {E : ε → σ → Files N → Prop}

/-- A program that runs to its end, when its steps may be refused: behind a refusal the state is
what it was in front of the program, but for the answers. -/
theorem CrashSafe.refusable [HasAnswers σ] {x : FileM N σ ε α} {steps : List (FileStep N)} {a : α}
    {t : σ} (hRun : x s files = (steps, .ok a, t)) (hAlong : AlongSteps P files steps)
    (reason : FileStep N → ε) :
    CrashSafe P (x.refusable reason) s files
      (fun b u fs => b = a ∧ (∃ left, u = withAnswers t left) ∧ fs = applyAll files steps)
      (fun e u fs => (∃ step, e = reason step) ∧ (∃ left, u = withAnswers s left) ∧
        Refused files steps fs) := by
  rcases hAnswers : answerSteps (answers s) steps with ⟨done, stop, left⟩
  have hDone := hAlong.answered hAnswers
  cases stop with
  | none =>
    obtain rfl := answerSteps_none hAnswers
    have hRun' : x.refusable reason s files = (done, .ok a, withAnswers t left) := by
      unfold FileM.refusable
      rw [hRun]
      dsimp only
      rw [hAnswers]
    refine .of_run hRun' hDone ?_ nofun
    intro b hOk
    cases hOk
    exact ⟨rfl, ⟨left, rfl⟩, rfl⟩
  | some step =>
    have hRun' : x.refusable reason s files =
        (done, .error (reason step), withAnswers s left) := by
      unfold FileM.refusable
      rw [hRun]
      dsimp only
      rw [hAnswers]
    refine .of_run hRun' hDone nofun ?_
    intro e hError
    cases hError
    exact ⟨⟨step, rfl⟩, ⟨left, rfl⟩, answerSteps_some hAnswers⟩

/-- What holds along the steps of a program holds behind a refusal. -/
theorem CrashSafe.refusableAlong [HasAnswers σ] {x : FileM N σ ε α} {steps : List (FileStep N)}
    {a : α} {t : σ} (hRun : x s files = (steps, .ok a, t)) (hAlong : AlongSteps P files steps)
    (reason : FileStep N → ε) :
    CrashSafe P (x.refusable reason) s files
      (fun b u fs => b = a ∧ (∃ left, u = withAnswers t left) ∧ fs = applyAll files steps)
      (fun e u fs => (∃ step, e = reason step) ∧ (∃ left, u = withAnswers s left) ∧ P fs) := by
  refine (CrashSafe.refusable hRun hAlong reason).mono_error ?_
  intro e u fs hError
  rcases hError with ⟨hReason, hLeft, hRefused⟩
  exact ⟨hReason, hLeft, hAlong.interrupted hRefused.interrupted⟩

/-- A single step that is no write: a refusal leaves the directory as it was. -/
theorem CrashSafe.stepRefusable [HasAnswers σ] (action : FileStep N)
    (hAtomic : ∀ image, ¬ action.Torn files image) (hStart : P files)
    (hDone : P (action.apply files)) (reason : FileStep N → ε) :
    CrashSafe P ((FileM.step action).refusable reason) s files
      (fun _ t fs => (∃ left, t = withAnswers s left) ∧ fs = action.apply files)
      (fun e t fs => (∃ step, e = reason step) ∧ (∃ left, t = withAnswers s left) ∧
        fs = files) := by
  have hAlong : AlongSteps P files [action] := alongSteps_cons_of_not_torn hAtomic hStart hDone
  refine (CrashSafe.refusable (step_run action) hAlong reason).mono_outcomes ?_ ?_
  · intro _ t fs hOk
    exact hOk.2
  · intro e t fs hError
    rcases hError with ⟨hReason, hLeft, hRefused⟩
    rcases hRefused.of_single with hSame | hTorn
    · exact ⟨hReason, hLeft, hSame⟩
    · exact absurd hTorn (hAtomic _)

/-- The rule of `tryCatch`, as programs spell it. -/
theorem CrashSafe.catching {x : FileM N σ ε α} {handle : ε → FileM N σ ε α}
    {E' : ε → σ → Files N → Prop} (h : CrashSafe P x s files Q E)
    (hHandle : ∀ e t fs, E e t fs → CrashSafe P (handle e) t fs Q E') :
    CrashSafe P (MonadExcept.tryCatch x handle) s files Q E' :=
  CrashSafe.tryCatch h hHandle

/-- A program that drops its error succeeds. -/
theorem CrashSafe.succeeds {x : FileM N σ ε Unit} {Q : Bool → σ → Files N → Prop}
    {E' : ε → σ → Files N → Prop}
    (h : CrashSafe P x s files (fun _ t fs => Q true t fs) fun _ t fs => P fs ∧ Q false t fs)
    (hQ : ∀ t fs, Q true t fs → P fs) :
    CrashSafe P (FileM.succeeds x) s files Q E' := by
  unfold FileM.succeeds
  refine CrashSafe.catching (E := fun _ t fs => P fs ∧ Q false t fs) ?_ ?_
  · exact h.bind fun _ t fs hTrue => .pure (hQ t fs hTrue) hTrue
  · intro e t fs hError
    rcases hError with ⟨hP, hFalse⟩
    exact .pure hP hFalse

end FileM

end TulyaStore.Lib
