import TulyaStore.Lib.Check

/-!
# Programs over a directory

A directory maps names to file contents. A program over it, `FileM`, has a state of its own,
may fail, and gives the list of the steps it takes on the files. The steps say what an
interruption can leave behind: the steps in front of the cut, and of the step at the cut, if
it is a write, any first part of its bytes (`Interrupted`).

`AlongSteps P files steps` says that `P` holds of the directory at every such cut; its rules
follow the list of steps.
-/

namespace TulyaStore.Lib

abbrev FileBytes := List UInt8

abbrev Files (N : Type) := N → Option FileBytes

/-- A step on a directory. Opening an existing file without creating or cutting it is none. -/
inductive FileStep (N : Type) where
  /-- An empty file, unless there is one. -/
  | create (name : N)
  /-- An empty file, also when there is one. -/
  | createEmpty (name : N)
  | write (name : N) (offset : Nat) (bytes : FileBytes)
  | setLen (name : N) (len : Nat)
  | rename (source target : N)
  | remove (name : N)
  | sync (name : N)
  | syncDir
deriving DecidableEq, Repr

/-- A file cut or extended with zeros. -/
def resized (file : FileBytes) (len : Nat) : FileBytes :=
  file.take len ++ List.replicate (len - file.length) 0

def writtenAt (file : FileBytes) (offset : Nat) (bytes : FileBytes) : FileBytes :=
  resized file offset ++ bytes ++ file.drop (offset + bytes.length)

section Names

variable {N : Type} [DecidableEq N]

def setFile (files : Files N) (name : N) (content : Option FileBytes) : Files N :=
  fun other => if other = name then content else files other

@[simp] theorem setFile_self (files : Files N) (name : N) (content : Option FileBytes) :
    setFile files name content name = content := by
  simp [setFile]

theorem setFile_of_ne {files : Files N} {name other : N} {content : Option FileBytes}
    (h : other ≠ name) : setFile files name content other = files other := by
  simp [setFile, h]

theorem setFile_same {files : Files N} {name : N} {content : Option FileBytes}
    (h : files name = content) : setFile files name content = files := by
  funext other
  unfold setFile
  split
  case isTrue hEq => rw [hEq, h]
  case isFalse => rfl

theorem setFile_setFile (files : Files N) (name : N) (content other : Option FileBytes) :
    setFile (setFile files name content) name other = setFile files name other := by
  funext n
  simp only [setFile]
  split <;> rfl

theorem setFile_comm {name other : N} (h : name ≠ other) (files : Files N)
    (content content' : Option FileBytes) :
    setFile (setFile files name content) other content' =
      setFile (setFile files other content') name content := by
  funext n
  simp only [setFile]
  by_cases hName : n = name
  · rw [if_pos hName, if_neg (hName ▸ h), if_pos hName]
  · rw [if_neg hName, if_neg hName]

theorem writtenAt_length (file bytes : FileBytes) :
    writtenAt file file.length bytes = file ++ bytes := by
  have hSame : resized file file.length = file := by simp [resized]
  have hNone : file.drop (file.length + bytes.length) = [] := List.drop_eq_nil_of_le (by omega)
  rw [writtenAt, hSame, hNone, List.append_nil]

namespace FileStep

/-- The directory after a step. A step on a file that is not there does nothing. -/
def apply (files : Files N) : FileStep N → Files N
  | create name => setFile files name (some ((files name).getD []))
  | createEmpty name => setFile files name (some [])
  | write name offset bytes => setFile files name ((files name).map (writtenAt · offset bytes))
  | setLen name len => setFile files name ((files name).map (resized · len))
  | rename source target =>
    match files source with
    | none => files
    | some bytes => setFile (setFile files source none) target (some bytes)
  | remove name => setFile files name none
  | sync _ => files
  | syncDir => files

/-- What an interruption in the middle of a step can leave, besides the directory before it. -/
def Torn (files : Files N) (step : FileStep N) (image : Files N) : Prop :=
  match step with
  | write name offset bytes => ∃ k < bytes.length,
      image = apply files (write name offset (bytes.take k))
  | _ => False

/-- A write behind the last byte of a file. -/
theorem apply_write_end {files : Files N} {name : N} {file : FileBytes}
    (h : files name = some file) (bytes : FileBytes) :
    (FileStep.write name file.length bytes).apply files =
      setFile files name (some (file ++ bytes)) := by
  rw [apply, h, Option.map_some, writtenAt_length]

end FileStep

/-- The names whose files a step may change. -/
def FileStep.touched : FileStep N → List N
  | create name => [name]
  | createEmpty name => [name]
  | write name _ _ => [name]
  | setLen name _ => [name]
  | rename source target => [source, target]
  | remove name => [name]
  | sync _ => []
  | syncDir => []

theorem FileStep.apply_untouched {files : Files N} {step : FileStep N} {name : N}
    (h : name ∉ step.touched) : step.apply files name = files name := by
  cases step with
  | rename source target =>
    simp only [touched, List.mem_cons, List.not_mem_nil, or_false, not_or] at h
    rw [apply]
    cases files source with
    | none => rfl
    | some bytes =>
      dsimp only
      rw [setFile_of_ne h.2, setFile_of_ne h.1]
  | sync name => rfl
  | syncDir => rfl
  | _ => exact setFile_of_ne (by simpa [touched] using h)

theorem FileStep.Torn.untouched {files image : Files N} {step : FileStep N} {name : N}
    (hTorn : step.Torn files image) (h : name ∉ step.touched) : image name = files name := by
  cases step with
  | write other offset bytes =>
    obtain ⟨k, -, rfl⟩ := hTorn
    exact apply_untouched h
  | _ => exact hTorn.elim

def applyAll (files : Files N) (steps : List (FileStep N)) : Files N :=
  steps.foldl FileStep.apply files

@[simp] theorem applyAll_nil (files : Files N) : applyAll files [] = files := rfl

@[simp] theorem applyAll_cons (files : Files N) (step : FileStep N) (steps : List (FileStep N)) :
    applyAll files (step :: steps) = applyAll (step.apply files) steps := rfl

theorem applyAll_append (files : Files N) (steps more : List (FileStep N)) :
    applyAll files (steps ++ more) = applyAll (applyAll files steps) more :=
  List.foldl_append

theorem applyAll_untouched {files : Files N} {steps : List (FileStep N)} {name : N}
    (h : ∀ step ∈ steps, name ∉ step.touched) : applyAll files steps name = files name := by
  induction steps generalizing files with
  | nil => rfl
  | cons step rest ih =>
    rw [applyAll_cons, ih fun other hMem => h other (List.mem_cons_of_mem _ hMem)]
    exact FileStep.apply_untouched (h step List.mem_cons_self)

/-! ## Interruptions -/

/-- The directory an interruption of the steps leaves: some of them are done, and the next may
be torn. -/
inductive Interrupted : Files N → List (FileStep N) → Files N → Prop where
  | here (files : Files N) (steps : List (FileStep N)) : Interrupted files steps files
  | torn {files image : Files N} {step : FileStep N} (rest : List (FileStep N))
      (h : step.Torn files image) : Interrupted files (step :: rest) image
  | later {files image : Files N} {step : FileStep N} {rest : List (FileStep N)}
      (h : Interrupted (step.apply files) rest image) : Interrupted files (step :: rest) image

/-- An interruption between two steps. -/
theorem Interrupted.take (files : Files N) (steps : List (FileStep N)) (k : Nat) :
    Interrupted files steps (applyAll files (steps.take k)) := by
  induction k generalizing files steps with
  | zero => exact .here files steps
  | succ k ih =>
    cases steps with
    | nil => exact .here files []
    | cons step rest => exact .later (ih (step.apply files) rest)

/-- `P` holds of the directory wherever the steps are interrupted. -/
def AlongSteps (P : Files N → Prop) (files : Files N) : List (FileStep N) → Prop
  | [] => P files
  | step :: rest =>
    P files ∧ (∀ image, step.Torn files image → P image) ∧ AlongSteps P (step.apply files) rest

section Along

variable {P Q : Files N → Prop} {files : Files N} {steps more : List (FileStep N)}

theorem AlongSteps.interrupted (h : AlongSteps P files steps) {image : Files N}
    (hImage : Interrupted files steps image) : P image := by
  induction hImage with
  | here files steps =>
    cases steps with
    | nil => exact h
    | cons step rest => exact h.1
  | torn rest hTorn => exact h.2.1 _ hTorn
  | later _ ih => exact ih h.2.2

theorem AlongSteps.start (h : AlongSteps P files steps) : P files :=
  h.interrupted (.here files steps)

theorem AlongSteps.finish (h : AlongSteps P files steps) : P (applyAll files steps) := by
  induction steps generalizing files with
  | nil => exact h
  | cons step rest ih => exact ih h.2.2

theorem alongSteps_nil : AlongSteps P files [] ↔ P files := Iff.rfl

theorem alongSteps_append :
    AlongSteps P files (steps ++ more) ↔
      AlongSteps P files steps ∧ AlongSteps P (applyAll files steps) more := by
  induction steps generalizing files with
  | nil =>
    constructor
    · exact fun h => ⟨AlongSteps.start h, h⟩
    · exact fun h => h.2
  | cons step rest ih =>
    simp only [List.cons_append, AlongSteps, applyAll_cons, ih, and_assoc]

theorem AlongSteps.mono (h : AlongSteps P files steps) (hMono : ∀ image, P image → Q image) :
    AlongSteps Q files steps := by
  induction steps generalizing files with
  | nil => exact hMono _ h
  | cons step rest ih =>
    exact ⟨hMono _ h.1, fun image hTorn => hMono _ (h.2.1 image hTorn), ih h.2.2⟩

/-- A step that is no write: only the directory before and behind it. -/
theorem alongSteps_cons_of_not_torn {step : FileStep N}
    (hAtomic : ∀ image, ¬ step.Torn files image) (h : P files)
    (hRest : AlongSteps P (step.apply files) steps) : AlongSteps P files (step :: steps) :=
  ⟨h, fun image hTorn => absurd hTorn (hAtomic image), hRest⟩

/-- A write leaves any first part of its bytes. -/
theorem alongSteps_write {name : N} {offset : Nat} {bytes : FileBytes} (h : P files)
    (hPart : ∀ k ≤ bytes.length, P ((FileStep.write name offset (bytes.take k)).apply files))
    (hRest : AlongSteps P ((FileStep.write name offset bytes).apply files) steps) :
    AlongSteps P files (.write name offset bytes :: steps) := by
  refine ⟨h, ?_, hRest⟩
  rintro image ⟨k, hLt, rfl⟩
  exact hPart k (Nat.le_of_lt hLt)

/-- Steps that keep `P` from every directory keep it along all of them. -/
theorem alongSteps_of_forall (hStart : P files)
    (hStep : ∀ step ∈ steps, ∀ files, P files → P (step.apply files) ∧
      ∀ image, step.Torn files image → P image) : AlongSteps P files steps := by
  induction steps generalizing files with
  | nil => exact hStart
  | cons step rest ih =>
    obtain ⟨hNext, hTorn⟩ := hStep step List.mem_cons_self files hStart
    exact ⟨hStart, hTorn, ih hNext fun other hMem => hStep other (List.mem_cons_of_mem _ hMem)⟩

/-- Steps on other files keep what depends on the files of some names only. -/
theorem alongSteps_foreign (names : N → Prop)
    (hSteps : ∀ step ∈ steps, ∀ name, names name → name ∉ step.touched)
    (hFrame : ∀ image : Files N, (∀ name, names name → image name = files name) → P image) :
    AlongSteps P files steps := by
  refine (alongSteps_of_forall (P := fun image => ∀ name, names name → image name = files name)
    (fun _ _ => rfl) ?_).mono hFrame
  intro step hMem image hSame
  refine ⟨fun name hName => ?_, fun torn hTorn name hName => ?_⟩
  · rw [FileStep.apply_untouched (hSteps step hMem name hName), hSame name hName]
  · rw [hTorn.untouched (hSteps step hMem name hName), hSame name hName]

end Along

end Names

/-! ## Programs -/

/-- A program over a directory, with a state of its own and an error. -/
def FileM (N σ ε α : Type) : Type :=
  σ → Files N → List (FileStep N) × Except ε α × σ

namespace FileM

section Primitives

variable {N σ ε α : Type}

instance : MonadStateOf σ (FileM N σ ε) where
  get := fun s _ => ([], .ok s, s)
  set s := fun _ _ => ([], .ok PUnit.unit, s)
  modifyGet f := fun s _ => ([], .ok (f s).1, (f s).2)

/-- One step. -/
def step (action : FileStep N) : FileM N σ ε Unit := fun s _ => ([action], .ok (), s)

/-- The steps of a list, one after the other. -/
def perform (actions : List (FileStep N)) : FileM N σ ε Unit := fun s _ => (actions, .ok (), s)

/-- The directory as it is. -/
def readDir : FileM N σ ε (Files N) := fun s files => ([], .ok files, s)

/-- A computation that touches neither the files nor the state. -/
def attempt (x : Except ε α) : FileM N σ ε α := fun s _ => ([], x, s)

variable {s : σ} {files : Files N}

theorem get_run : (get : FileM N σ ε σ) s files = ([], .ok s, s) := rfl

theorem modify_run (g : σ → σ) :
    (modify g : FileM N σ ε PUnit) s files = ([], .ok PUnit.unit, g s) := rfl

theorem step_run (action : FileStep N) :
    (step action : FileM N σ ε Unit) s files = ([action], .ok (), s) := rfl

theorem perform_run (actions : List (FileStep N)) :
    (perform actions : FileM N σ ε Unit) s files = (actions, .ok (), s) := rfl

theorem readDir_run : (readDir : FileM N σ ε (Files N)) s files = ([], .ok files, s) := rfl

theorem attempt_run (y : Except ε α) : (attempt y : FileM N σ ε α) s files = ([], y, s) := rfl

end Primitives

section Sequences

variable {N : Type} [DecidableEq N] {σ ε α β : Type}

/-- The directory a run ends with. -/
def filesAfter (x : FileM N σ ε α) (s : σ) (files : Files N) : Files N :=
  applyAll files (x s files).1

def bind (x : FileM N σ ε α) (f : α → FileM N σ ε β) : FileM N σ ε β := fun s files =>
  match x s files with
  | (steps, .error e, s') => (steps, .error e, s')
  | (steps, .ok a, s') =>
    match f a s' (applyAll files steps) with
    | (more, result, s'') => (steps ++ more, result, s'')

instance : Monad (FileM N σ ε) where
  pure a := fun s _ => ([], .ok a, s)
  bind := bind

instance : MonadExceptOf ε (FileM N σ ε) where
  throw e := fun s _ => ([], .error e, s)
  tryCatch x handle := fun s files =>
    match x s files with
    | (steps, .ok a, s') => (steps, .ok a, s')
    | (steps, .error e, s') =>
      match handle e s' (applyAll files steps) with
      | (more, result, s'') => (steps ++ more, result, s'')

section Rules

variable {x : FileM N σ ε α} {f : α → FileM N σ ε β} {s s' s'' : σ} {files : Files N}
  {steps more : List (FileStep N)}

/-- The two outcomes of a sequence. -/
theorem bind_run_ok {a : α} (hx : x s files = (steps, .ok a, s')) {result : Except ε β}
    (hf : f a s' (applyAll files steps) = (more, result, s'')) :
    (x >>= f) s files = (steps ++ more, result, s'') := by
  change bind x f s files = _
  unfold bind
  simp only [hx, hf]

theorem bind_run_error {e : ε} (hx : x s files = (steps, .error e, s')) :
    (x >>= f) s files = (steps, .error e, s') := by
  change bind x f s files = _
  unfold bind
  simp only [hx]

/-- A first part without steps. -/
theorem bind_run_quiet {a : α} (hx : x s files = ([], .ok a, s')) :
    (x >>= f) s files = f a s' files := by
  change bind x f s files = _
  unfold bind
  simp only [hx, applyAll_nil, List.nil_append]

/-- What a run that succeeds went through. -/
theorem bind_run_eq_ok {b : β} (h : (x >>= f) s files = (steps, .ok b, s'')) :
    ∃ first rest a t, x s files = (first, .ok a, t) ∧
      f a t (applyAll files first) = (rest, .ok b, s'') ∧ steps = first ++ rest := by
  change bind x f s files = _ at h
  unfold bind at h
  rcases hx : x s files with ⟨first, result, t⟩
  rw [hx] at h
  cases result with
  | error e => cases h
  | ok a =>
    rcases hf : f a t (applyAll files first) with ⟨rest, result', t'⟩
    simp only [hf] at h
    cases h
    exact ⟨first, rest, a, t, rfl, hf, rfl⟩

end Rules

/-! ## Crash safety -/

/-- From a state and a directory, the run keeps `P` wherever it is interrupted, and ends in `Q`
or, when it fails, in `E`. -/
def CrashSafe (P : Files N → Prop) (x : FileM N σ ε α) (s : σ) (files : Files N)
    (Q : α → σ → Files N → Prop) (E : ε → σ → Files N → Prop) : Prop :=
  AlongSteps P files (x s files).1 ∧
    match (x s files).2.1 with
    | .ok a => Q a (x s files).2.2 (x.filesAfter s files)
    | .error e => E e (x s files).2.2 (x.filesAfter s files)

section Safety

variable {P : Files N → Prop} {x : FileM N σ ε α} {f : α → FileM N σ ε β} {s : σ}
  {files : Files N} {Q : α → σ → Files N → Prop} {R : β → σ → Files N → Prop}
  {E : ε → σ → Files N → Prop}

theorem CrashSafe.along (h : CrashSafe P x s files Q E) {steps : List (FileStep N)}
    {result : Except ε α} {s' : σ} (hRun : x s files = (steps, result, s')) :
    AlongSteps P files steps := by
  have hAlong := h.1
  rwa [hRun] at hAlong

theorem CrashSafe.ok (h : CrashSafe P x s files Q E) {steps : List (FileStep N)} {a : α} {s' : σ}
    (hRun : x s files = (steps, .ok a, s')) : Q a s' (applyAll files steps) := by
  have hEnd := h.2
  unfold filesAfter at hEnd
  rwa [hRun] at hEnd

theorem CrashSafe.error (h : CrashSafe P x s files Q E) {steps : List (FileStep N)} {e : ε}
    {s' : σ} (hRun : x s files = (steps, .error e, s')) : E e s' (applyAll files steps) := by
  have hEnd := h.2
  unfold filesAfter at hEnd
  rwa [hRun] at hEnd

theorem CrashSafe.of_run {steps : List (FileStep N)} {result : Except ε α} {s' : σ}
    (hRun : x s files = (steps, result, s')) (hAlong : AlongSteps P files steps)
    (hOk : ∀ a, result = .ok a → Q a s' (applyAll files steps))
    (hError : ∀ e, result = .error e → E e s' (applyAll files steps)) :
    CrashSafe P x s files Q E := by
  unfold CrashSafe filesAfter
  rw [hRun]
  refine ⟨hAlong, ?_⟩
  cases result with
  | ok a => exact hOk a rfl
  | error e => exact hError e rfl

/-- A run without steps. -/
theorem CrashSafe.of_quiet {a : α} {s' : σ} (hRun : x s files = ([], .ok a, s')) (hStart : P files)
    (hQ : Q a s' files) : CrashSafe P x s files Q E :=
  .of_run hRun hStart (fun _ hSame => (Except.ok.inj hSame) ▸ hQ) nofun

theorem CrashSafe.pure {a : α} (hStart : P files) (hQ : Q a s files) :
    CrashSafe P (Pure.pure a : FileM N σ ε α) s files Q E := .of_quiet rfl hStart hQ

theorem CrashSafe.throw {e : ε} (hStart : P files) (hE : E e s files) :
    CrashSafe P (MonadExceptOf.throw e : FileM N σ ε α) s files Q E :=
  .of_run rfl hStart nofun fun _ hSame => (Except.error.inj hSame) ▸ hE

theorem CrashSafe.attempt {y : Except ε α} (hStart : P files)
    (hOk : ∀ a, y = .ok a → Q a s files) (hError : ∀ e, y = .error e → E e s files) :
    CrashSafe P (FileM.attempt y : FileM N σ ε α) s files Q E :=
  .of_run rfl hStart hOk hError

theorem CrashSafe.perform {steps : List (FileStep N)} {Q : Unit → σ → Files N → Prop}
    (hAlong : AlongSteps P files steps) (hQ : Q () s (applyAll files steps)) :
    CrashSafe P (FileM.perform steps : FileM N σ ε Unit) s files Q E :=
  .of_run rfl hAlong (fun _ _ => hQ) nofun

theorem CrashSafe.step {action : FileStep N} {Q : Unit → σ → Files N → Prop}
    (hAlong : AlongSteps P files [action]) (hQ : Q () s (action.apply files)) :
    CrashSafe P (FileM.step action : FileM N σ ε Unit) s files Q E :=
  .of_run rfl hAlong (fun _ _ => hQ) nofun

theorem CrashSafe.bind (hx : CrashSafe P x s files Q E)
    (hf : ∀ a t fs, Q a t fs → CrashSafe P (f a) t fs R E) :
    CrashSafe P (x >>= f) s files R E := by
  rcases hRun : x s files with ⟨steps, result, t⟩
  cases result with
  | error e =>
    refine .of_run (bind_run_error hRun) (hx.along hRun) nofun ?_
    intro e' hSame
    cases hSame
    exact hx.error hRun
  | ok a =>
    have hNext := hf a t _ (hx.ok hRun)
    rcases hRun' : f a t (applyAll files steps) with ⟨more, result', t'⟩
    refine .of_run (bind_run_ok hRun hRun') ?_ ?_ ?_
    · exact alongSteps_append.mpr ⟨hx.along hRun, hNext.along hRun'⟩
    · rintro b rfl
      rw [applyAll_append]
      exact hNext.ok hRun'
    · rintro e rfl
      rw [applyAll_append]
      exact hNext.error hRun'

/-- A first part that only looks at the state or the directory. -/
theorem CrashSafe.bind_quiet {a : α} {s' : σ} (hx : x s files = ([], .ok a, s'))
    (hf : CrashSafe P (f a) s' files R E) : CrashSafe P (x >>= f) s files R E := by
  unfold CrashSafe filesAfter at hf ⊢
  rw [bind_run_quiet hx]
  exact hf

/-- A first part that fails. -/
theorem CrashSafe.bind_stop {e : ε} {s' : σ} (hx : x s files = ([], .error e, s'))
    (hStart : P files) (hE : E e s' files) : CrashSafe P (x >>= f) s files R E :=
  .of_run (bind_run_error hx) hStart nofun fun _ hSame => (Except.error.inj hSame) ▸ hE

theorem CrashSafe.mono (h : CrashSafe P x s files Q E) {P' : Files N → Prop}
    {Q' : α → σ → Files N → Prop} {E' : ε → σ → Files N → Prop}
    (hP : ∀ fs, P fs → P' fs) (hQ : ∀ a t fs, Q a t fs → Q' a t fs)
    (hE : ∀ e t fs, E e t fs → E' e t fs) : CrashSafe P' x s files Q' E' := by
  rcases hRun : x s files with ⟨steps, result, t⟩
  refine .of_run hRun ((h.along hRun).mono hP) ?_ ?_
  · rintro a rfl
    exact hQ _ _ _ (h.ok hRun)
  · rintro e rfl
    exact hE _ _ _ (h.error hRun)

theorem CrashSafe.mono_along (h : CrashSafe P x s files Q E) {P' : Files N → Prop}
    (hP : ∀ fs, P fs → P' fs) : CrashSafe P' x s files Q E :=
  h.mono hP (fun _ _ _ hQ => hQ) fun _ _ _ hE => hE

theorem CrashSafe.mono_outcomes (h : CrashSafe P x s files Q E) {Q' : α → σ → Files N → Prop}
    {E' : ε → σ → Files N → Prop} (hQ : ∀ a t fs, Q a t fs → Q' a t fs)
    (hE : ∀ e t fs, E e t fs → E' e t fs) : CrashSafe P x s files Q' E' :=
  h.mono (fun _ hImage => hImage) hQ hE

theorem CrashSafe.mono_ok (h : CrashSafe P x s files Q E) {Q' : α → σ → Files N → Prop}
    (hQ : ∀ a t fs, Q a t fs → Q' a t fs) : CrashSafe P x s files Q' E :=
  h.mono_outcomes hQ fun _ _ _ hE => hE

theorem CrashSafe.mono_error (h : CrashSafe P x s files Q E) {E' : ε → σ → Files N → Prop}
    (hE : ∀ e t fs, E e t fs → E' e t fs) : CrashSafe P x s files Q E' :=
  h.mono_outcomes (fun _ _ _ hQ => hQ) hE

/-- A failed run goes on in its handler. -/
theorem tryCatch_run_error {handle : ε → FileM N σ ε α} {steps more : List (FileStep N)} {e : ε}
    {result : Except ε α} {t t' : σ} (hx : x s files = (steps, .error e, t))
    (hHandle : handle e t (applyAll files steps) = (more, result, t')) :
    (MonadExceptOf.tryCatch x handle : FileM N σ ε α) s files = (steps ++ more, result, t') := by
  change (match x s files with
    | (steps, Except.ok a, s') => (steps, Except.ok a, s')
    | (steps, Except.error e, s') =>
      match handle e s' (applyAll files steps) with
      | (more, result, s'') => (steps ++ more, result, s'')) = _
  simp only [hx, hHandle]

theorem tryCatch_run_ok {handle : ε → FileM N σ ε α} {steps : List (FileStep N)} {a : α} {t : σ}
    (hx : x s files = (steps, .ok a, t)) :
    (MonadExceptOf.tryCatch x handle : FileM N σ ε α) s files = (steps, .ok a, t) := by
  change (match x s files with
    | (steps, Except.ok a, s') => (steps, Except.ok a, s')
    | (steps, Except.error e, s') =>
      match handle e s' (applyAll files steps) with
      | (more, result, s'') => (steps ++ more, result, s'')) = _
  simp only [hx]

theorem CrashSafe.tryCatch {handle : ε → FileM N σ ε α} {E' : ε → σ → Files N → Prop}
    (hx : CrashSafe P x s files Q E)
    (hHandle : ∀ e t fs, E e t fs → CrashSafe P (handle e) t fs Q E') :
    CrashSafe P (MonadExceptOf.tryCatch x handle) s files Q E' := by
  rcases hRun : x s files with ⟨steps, result, t⟩
  cases result with
  | ok a =>
    refine .of_run (tryCatch_run_ok hRun) (hx.along hRun) ?_ nofun
    intro a' hSame
    cases hSame
    exact hx.ok hRun
  | error e =>
    have hNext := hHandle e t _ (hx.error hRun)
    rcases hRun' : handle e t (applyAll files steps) with ⟨more, result', t'⟩
    refine .of_run (tryCatch_run_error hRun hRun') ?_ ?_ ?_
    · exact alongSteps_append.mpr ⟨hx.along hRun, hNext.along hRun'⟩
    · rintro b rfl
      rw [applyAll_append]
      exact hNext.ok hRun'
    · rintro e rfl
      rw [applyAll_append]
      exact hNext.error hRun'

end Safety

end Sequences

end FileM

end TulyaStore.Lib
