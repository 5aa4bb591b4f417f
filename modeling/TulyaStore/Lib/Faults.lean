import TulyaStore.Lib.Files
import TulyaStore.Lib.Outcome

/-!
# Programs over a directory whose calls fail

Every call on the files may end well, fail, or never return because the process stops there. A
script gives the answers of the calls in order; behind its end every call ends well. A call that
does not end well leaves the files as they were, or, when it is a write, with a proper first part
of the bytes written.

A statement over all scripts is one about every place where a program can fail or stop. The rule
`post_call` has the script as a premise only where a call goes wrong, so one specification serves
runs with faults and runs without (`Calm`).
-/

namespace TulyaStore.Lib

/-- How a call ends. -/
inductive Answer where
  | done
  | failed (kept : Nat)
  | stopped (kept : Nat)
deriving DecidableEq, Repr

/-- The call returns an error. -/
def Answer.failing : Answer → Bool
  | failed _ => true
  | _ => false

/-- The answer of a call to come, the next one having the number 0. -/
def answerAt (answers : List Answer) (i : Nat) : Answer := answers[i]?.getD .done

/-- Why a program ends without a result. Only an error can be handled. -/
inductive Halt (ε : Type) where
  | error (e : ε)
  | stop
deriving DecidableEq, Repr

/-- What a program owns, the files, and the answers to come. -/
structure Mounted (N σ : Type) where
  own : σ
  files : Files N
  answers : List Answer

abbrev DiskM (N σ ε : Type) : Type → Type := EStateM (Halt ε) (Mounted N σ)

namespace DiskM

variable {N σ ε α β : Type}

/-- A call that fails with `e`, and what it does to the files. -/
def call (e : ε) (good : Files N → Files N) (bad : Nat → Files N → Files N) :
    DiskM N σ ε Unit := fun s =>
  match s.answers with
  | [] => .ok () ⟨s.own, good s.files, []⟩
  | .done :: rest => .ok () ⟨s.own, good s.files, rest⟩
  | .failed kept :: rest => .error (.error e) ⟨s.own, bad kept s.files, rest⟩
  | .stopped kept :: rest => .error .stop ⟨s.own, bad kept s.files, rest⟩

/-- A call that leaves the files as they are. -/
def touch (e : ε) : DiskM N σ ε Unit := call e id fun _ => id

def fail (e : ε) : DiskM N σ ε α := throw (.error e)

/-- A computation that does not touch the files. -/
def check (x : Except ε α) : DiskM N σ ε α := attempt (mapErr .error x)

def modifyOwn (f : σ → σ) : DiskM N σ ε Unit := modify fun s => ⟨f s.own, s.files, s.answers⟩

/-- Goes on in a handler after an error; nothing goes on when the process stops. -/
def onError (x : DiskM N σ ε α) (handle : ε → DiskM N σ ε α) : DiskM N σ ε α := fun s =>
  match x s with
  | .ok a t => .ok a t
  | .error (.error e) t => handle e t
  | .error .stop t => .error .stop t

/-- Whether a computation succeeds. -/
def succeeds (x : DiskM N σ ε Unit) : DiskM N σ ε Bool :=
  onError (do x; return true) fun _ => return false

section Steps

variable [DecidableEq N]

def setLen (e : ε) (name : N) (len : Nat) : DiskM N σ ε Unit :=
  call e (fun files => (FileStep.setLen name len).apply files) fun _ => id

/-- Writes all bytes from an offset on, which may depend on the files. -/
def writeAll (e : ε) (name : N) (offset : Files N → Nat) (bytes : FileBytes) :
    DiskM N σ ε Unit :=
  call e (fun files => (FileStep.write name (offset files) bytes).apply files) fun kept files =>
    (FileStep.write name (offset files) (bytes.take (min kept (bytes.length - 1)))).apply files

/-- The end of a file. -/
def fileEnd (name : N) (files : Files N) : Nat := ((files name).getD []).length

/-- Creates a file that must not be there. -/
def createNew (e : ε) (name : N) : DiskM N σ ε Unit := do
  touch e
  if ((← get).files name).isSome then fail e
  modify fun s => ⟨s.own, (FileStep.create name).apply s.files, s.answers⟩

end Steps

/-! ## Rules -/

/-- Answers are left only when `c` holds; without faults `c` is false. -/
def Calm (c : Prop) (s : Mounted N σ) : Prop := s.answers ≠ [] → c

section Rules

variable {s : Mounted N σ} {c : Prop} {e : ε} {good : Files N → Files N}
  {bad : Nat → Files N → Files N}

theorem post_call {Q : Unit → Mounted N σ → Prop} {E : Halt ε → Mounted N σ → Prop}
    (hCalm : Calm c s) (hDone : ∀ t, t.own = s.own → t.files = good s.files → Calm c t → Q () t)
    (hBad : ∀ halt t kept, t.own = s.own → t.files = bad kept s.files → c → Calm c t → E halt t) :
    Post (call e good bad) s Q E := by
  obtain ⟨own, files, answers⟩ := s
  cases answers with
  | nil => exact hDone _ rfl rfl hCalm
  | cons answer rest =>
    have hC : c := hCalm (List.cons_ne_nil _ _)
    cases answer with
    | done => exact hDone ⟨own, _, rest⟩ rfl rfl fun _ => hC
    | failed kept => exact hBad (.error e) ⟨own, _, rest⟩ kept rfl rfl hC fun _ => hC
    | stopped kept => exact hBad .stop ⟨own, _, rest⟩ kept rfl rfl hC fun _ => hC

theorem answerAt_tail (answers : List Answer) (i : Nat) :
    answerAt answers.tail i = answerAt answers (i + 1) := by
  rw [answerAt, answerAt, List.getElem?_tail]

/-- A call that ends well by the script. -/
theorem post_call_done {Q : Unit → Mounted N σ → Prop} {E : Halt ε → Mounted N σ → Prop}
    (hHead : answerAt s.answers 0 = .done) (hQ : Q () ⟨s.own, good s.files, s.answers.tail⟩) :
    Post (call e good bad) s Q E := by
  obtain ⟨own, files, answers⟩ := s
  cases answers with
  | nil => exact hQ
  | cons answer rest =>
    have hDone : answer = .done := hHead
    rw [hDone] at hQ ⊢
    exact hQ

/-- A call that does not end well. -/
theorem post_call_bad {Q : Unit → Mounted N σ → Prop} {E : Halt ε → Mounted N σ → Prop}
    (hHead : answerAt s.answers 0 ≠ .done) (hCalm : Calm c s)
    (hBad : ∀ halt t kept, t.own = s.own → t.files = bad kept s.files → c → Calm c t → E halt t) :
    Post (call e good bad) s Q E := by
  obtain ⟨own, files, answers⟩ := s
  cases answers with
  | nil => exact absurd rfl hHead
  | cons answer rest =>
    have hC : c := hCalm (List.cons_ne_nil _ _)
    cases answer with
    | done => exact absurd rfl hHead
    | failed kept => exact hBad (.error e) ⟨own, _, rest⟩ kept rfl rfl hC fun _ => hC
    | stopped kept => exact hBad .stop ⟨own, _, rest⟩ kept rfl rfl hC fun _ => hC

/-- A call that does not return an error by the script. -/
theorem post_call_stop {Q : Unit → Mounted N σ → Prop} {E : Halt ε → Mounted N σ → Prop}
    (hHead : (answerAt s.answers 0).failing = false) (hCalm : Calm c s)
    (hDone : Q () ⟨s.own, good s.files, s.answers.tail⟩)
    (hStop : ∀ t kept, t.own = s.own → t.files = bad kept s.files → c → E .stop t) :
    Post (call e good bad) s Q E := by
  obtain ⟨own, files, answers⟩ := s
  cases answers with
  | nil => exact hDone
  | cons answer rest =>
    have hC : c := hCalm (List.cons_ne_nil _ _)
    cases answer with
    | done => exact hDone
    | failed kept => exact absurd (show true = false from hHead) (by decide)
    | stopped kept => exact hStop ⟨own, _, rest⟩ kept rfl rfl hC

theorem Calm.tail {own : σ} {files : Files N} (h : Calm c s) :
    Calm c (⟨own, files, s.answers.tail⟩ : Mounted N σ) := by
  intro hNe
  refine h fun hNil => hNe ?_
  change s.answers.tail = []
  rw [hNil]
  rfl

theorem post_touch {Q : Unit → Mounted N σ → Prop} {E : Halt ε → Mounted N σ → Prop}
    (hCalm : Calm c s) (hDone : ∀ t, t.own = s.own → t.files = s.files → Calm c t → Q () t)
    (hBad : ∀ halt t, t.own = s.own → t.files = s.files → c → Calm c t → E halt t) :
    Post (touch e) s Q E :=
  post_call hCalm hDone fun halt t _ hOwn hFiles hC hCalm' => hBad halt t hOwn hFiles hC hCalm'

/-- A computation that goes on with the state as it is. -/
theorem post_get_bind {f : Mounted N σ → DiskM N σ ε α} {Q : α → Mounted N σ → Prop}
    {E : Halt ε → Mounted N σ → Prop} (h : Post (f s) s Q E) : Post (get >>= f) s Q E := h

theorem post_fail {Q : α → Mounted N σ → Prop} {E : Halt ε → Mounted N σ → Prop}
    (h : E (.error e) s) : Post (fail e) s Q E := h

theorem post_check_ok {x : Except ε α} {a : α} {Q : α → Mounted N σ → Prop}
    {E : Halt ε → Mounted N σ → Prop} (h : x = .ok a) (hQ : Q a s) : Post (check x) s Q E := by
  rw [check, h]
  exact hQ

theorem post_createNew_done [DecidableEq N] {name : N} {Q : Unit → Mounted N σ → Prop}
    {E : Halt ε → Mounted N σ → Prop} (hHead : answerAt s.answers 0 = .done)
    (hNone : s.files name = none)
    (hQ : Q () ⟨s.own, setFile s.files name (some []), s.answers.tail⟩) :
    Post (createNew e name) s Q E := by
  refine post_bind (Q := fun _ t => t = ⟨s.own, s.files, s.answers.tail⟩)
    (post_call_done hHead rfl) ?_
  rintro _ _ rfl
  refine post_get_bind ?_
  rw [if_neg (by rw [hNone]; exact Bool.false_ne_true)]
  refine post_modify ?_
  rw [FileStep.apply, hNone]
  exact hQ

theorem post_modifyOwn {f : σ → σ} {Q : Unit → Mounted N σ → Prop}
    {E : Halt ε → Mounted N σ → Prop} (h : Q () ⟨f s.own, s.files, s.answers⟩) :
    Post (modifyOwn f : DiskM N σ ε Unit) s Q E := h

theorem post_onError {x : DiskM N σ ε α} {handle : ε → DiskM N σ ε α}
    {Q : α → Mounted N σ → Prop} {E E' : Halt ε → Mounted N σ → Prop} (hx : Post x s Q E)
    (hHandle : ∀ e t, E (.error e) t → Post (handle e) t Q E')
    (hStop : ∀ t, E .stop t → E' .stop t) : Post (onError x handle) s Q E' := by
  unfold Post onError at *
  cases hRun : x s with
  | ok a t =>
    rw [hRun] at hx
    exact hx
  | error halt t =>
    rw [hRun] at hx
    cases halt with
    | error e => exact hHandle e t hx
    | stop => exact hStop t hx

theorem post_succeeds {x : DiskM N σ ε Unit} {Q : Bool → Mounted N σ → Prop}
    {E E' : Halt ε → Mounted N σ → Prop} (hx : Post x s (fun _ t => Q true t) E)
    (hError : ∀ e t, E (.error e) t → Q false t) (hStop : ∀ t, E .stop t → E' .stop t) :
    Post (succeeds x) s Q E' :=
  post_onError (post_bind hx fun _ _ hQ => hQ) hError hStop

/-- A run without faults succeeds. -/
theorem ok_of_post {x : DiskM N σ ε α} {Q : α → Mounted N σ → Prop}
    (h : Post x s Q fun _ _ => False) : ∃ a t, x s = .ok a t ∧ Q a t := by
  unfold Post at h
  cases hRun : x s with
  | ok a t =>
    rw [hRun] at h
    exact ⟨a, t, rfl, h⟩
  | error halt t =>
    rw [hRun] at h
    exact h.elim

end Rules

end DiskM

end TulyaStore.Lib
