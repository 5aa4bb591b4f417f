import TulyaStore.History.Opening
import TulyaStore.History.Reclamation
import TulyaStore.Lib.Traces

/-!
# Runs of the history authority

A system is a history directory and the authority that has it open, if a process has. Its events
are the calls of the authority, with seals and collections among them and whatever the system
answers to their file steps, the interruption of a call anywhere between or inside its file steps,
the end of the process, and the openings, interrupted or not. `Stands` relates a system to the
model it stands for: the one of the live store, or the one the directory recovers to. Every event
of a system is an event of its model (`Stands.step`), so every run is a run of the model
(`Created.run`).
-/

namespace TulyaStore.History

open Lib FileM Sequence V2AvlSequence PersistentHistoryStore

/-! ## The system -/

/-- A call of the authority. -/
inductive AuthorityCall where
  | mutate (operation : Operation)
  | sealWithSync
  | gcWithSync (entries : List HistoryFile)
deriving DecidableEq, Repr

inductive AuthorityEvent where
  /-- An operation answers its client; a seal and a collection have nothing to tell. -/
  | answered (call : AuthorityCall) (answer : Option Answer)
  | failed (call : AuthorityCall) (error : DurableError)
  | interrupted (call : AuthorityCall)
  | closed
  | opened
  | openingInterrupted
deriving DecidableEq

structure AuthoritySystem where
  authority : Option WritableHistoryAuthority
  files : HistoryFiles

section System

variable (sha256 : Bytes → Digest) (fromSlice : Bytes → Option JsonValue)

def AuthorityCall.run : AuthorityCall → AuthorityM (Option Answer)
  | .mutate operation => do
    let answer ← perform sha256 operation
    return some answer
  | .sealWithSync => do
    let _ ← WritableHistoryAuthority.sealWithSync sha256 fromSlice
    return none
  | .gcWithSync entries => do
    let _ ← WritableHistoryAuthority.gcWithSync sha256 fromSlice entries
    return none

/-- The content files have room for what a call adds to them. -/
def AuthorityCall.Fits (s : PersistentHistoryStore) : AuthorityCall → Prop
  | .mutate operation => operation.Fits sha256 s
  | _ => True

/-- The steps of a system. What is answered to the file steps of a call is chosen with the call. -/
inductive AuthorityStep : AuthoritySystem → AuthorityEvent → AuthoritySystem → Prop where
  | answered {auth auth' : WritableHistoryAuthority} {files : HistoryFiles}
      {steps : List (FileStep HistoryFile)} {call : AuthorityCall} {answer : Option Answer}
      {answers : List StepAnswer} (hFits : call.Fits sha256 auth.store)
      (hRun : call.run sha256 fromSlice { auth with answers } files = (steps, .ok answer, auth')) :
      AuthorityStep ⟨some auth, files⟩ (.answered call answer) ⟨some auth', applyAll files steps⟩
  | failed {auth auth' : WritableHistoryAuthority} {files : HistoryFiles}
      {steps : List (FileStep HistoryFile)} {call : AuthorityCall} {error : DurableError}
      {answers : List StepAnswer} (hFits : call.Fits sha256 auth.store)
      (hRun : call.run sha256 fromSlice { auth with answers } files = (steps, .error error, auth')) :
      AuthorityStep ⟨some auth, files⟩ (.failed call error) ⟨some auth', applyAll files steps⟩
  | interrupted {auth auth' : WritableHistoryAuthority} {files image : HistoryFiles}
      {steps : List (FileStep HistoryFile)} {call : AuthorityCall}
      {result : Except DurableError (Option Answer)} {answers : List StepAnswer}
      (hFits : call.Fits sha256 auth.store)
      (hRun : call.run sha256 fromSlice { auth with answers } files = (steps, result, auth'))
      (hCut : Interrupted files steps image) :
      AuthorityStep ⟨some auth, files⟩ (.interrupted call) ⟨none, image⟩
  | closed {auth : WritableHistoryAuthority} {files : HistoryFiles} :
      AuthorityStep ⟨some auth, files⟩ .closed ⟨none, files⟩
  | opened {auth : WritableHistoryAuthority} {files : HistoryFiles}
      {steps : List (FileStep HistoryFile)}
      (hRun : WritableHistoryAuthority.open sha256 fromSlice () files = (steps, .ok auth, ())) :
      AuthorityStep ⟨none, files⟩ .opened ⟨some auth, applyAll files steps⟩
  /-- An opening that is interrupted. One whose step is refused ends the same way. -/
  | openingInterrupted {files image : HistoryFiles} {steps : List (FileStep HistoryFile)}
      {result : Except DurableError WritableHistoryAuthority}
      (hRun : WritableHistoryAuthority.open sha256 fromSlice () files = (steps, result, ()))
      (hCut : Interrupted files steps image) :
      AuthorityStep ⟨none, files⟩ .openingInterrupted ⟨none, image⟩

/-- A system whose directory was just created. -/
inductive Created : AuthoritySystem → Prop where
  | intro {files : HistoryFiles} {steps : List (FileStep HistoryFile)}
      {auth : WritableHistoryAuthority} (hBlank : Blank files)
      (hRun : WritableHistoryAuthority.open sha256 fromSlice () files = (steps, .ok auth, ())) :
      Created ⟨some auth, applyAll files steps⟩

end System

/-! ## Events in the model -/

/-- What a call does to the model: nothing but an operation changes anything. -/
inductive HistoryModel.CallStep (sha256 : Bytes → Digest) (m : HistoryModel) :
    AuthorityCall → Option Answer → HistoryModel → Prop where
  | mutate {operation : Operation} {answer : Answer} {m' : HistoryModel}
      (h : HistoryModel.Step sha256 m operation answer m') :
      CallStep sha256 m (.mutate operation) (some answer) m'
  | sealWithSync : CallStep sha256 m .sealWithSync none m
  | gcWithSync (entries : List HistoryFile) : CallStep sha256 m (.gcWithSync entries) none m

/-- What an event may do to the model: an interrupted call is done or not, and so is one that failed
at the sync of the log; any other failed call has done nothing. -/
inductive HistoryModel.Event (sha256 : Bytes → Digest) (m : HistoryModel) :
    AuthorityEvent → HistoryModel → Prop where
  | answered {call : AuthorityCall} {answer : Option Answer} {m' : HistoryModel}
      (h : m.CallStep sha256 call answer m') : Event sha256 m (.answered call answer) m'
  | failed (call : AuthorityCall) (error : DurableError) : Event sha256 m (.failed call error) m
  | unsynced {call : AuthorityCall} {answer : Option Answer} {m' : HistoryModel}
      (h : m.CallStep sha256 call answer m') :
      Event sha256 m (.failed call (.indeterminate .fileSyncAll)) m'
  | undone (call : AuthorityCall) : Event sha256 m (.interrupted call) m
  | done {call : AuthorityCall} {answer : Option Answer} {m' : HistoryModel}
      (h : m.CallStep sha256 call answer m') : Event sha256 m (.interrupted call) m'
  | closed : Event sha256 m .closed m
  | opened : Event sha256 m .opened m
  | openingInterrupted : Event sha256 m .openingInterrupted m

/-! ## The simulation -/

section Simulation

variable {sha256 : Bytes → Digest} {fromSlice : Bytes → Option JsonValue}

/-- The model a system stands for. -/
inductive Stands (sha256 : Bytes → Digest) : AuthoritySystem → HistoryModel → Prop where
  | live {auth : WritableHistoryAuthority} {files : HistoryFiles} {physical : Nat}
      {a : V2AvlSequence} (h : Live sha256 auth files physical a) :
      Stands sha256 ⟨some auth, files⟩ (auth.store.view a)
  | poisoned {auth : WritableHistoryAuthority} {files : HistoryFiles}
      {s : PersistentHistoryStore} {a : V2AvlSequence} (hPoisoned : auth.store.poisoned = true)
      (h : Recovers sha256 files s a) : Stands sha256 ⟨some auth, files⟩ (s.view a)
  | down {files : HistoryFiles} {s : PersistentHistoryStore} {a : V2AvlSequence}
      (h : Recovers sha256 files s a) : Stands sha256 ⟨none, files⟩ (s.view a)

variable {auth : WritableHistoryAuthority} {files : HistoryFiles} {physical : Nat}
  {a : V2AvlSequence}

theorem Served.forget {α : Type} {x : AuthorityM α} {s' : PersistentHistoryStore}
    {b : V2AvlSequence} {R : α → Prop} (h : Served sha256 x auth files a s' b R) {r : Option Answer}
    {R' : Option Answer → Prop} (hR : R' r) :
    Served sha256 (do let _ ← x; return r) auth files a s' b R' :=
  h.map fun _ _ => hR

/-- Every call on a live authority is served as its model says. -/
theorem Live.run (h : Live sha256 auth files physical a) (hReads : ReadsManifests fromSlice)
    (call : AuthorityCall) (hFits : call.Fits sha256 auth.store) :
    ∃ s' b, Served sha256 (call.run sha256 fromSlice) auth files a s' b fun answer =>
      (auth.store.view a).CallStep sha256 call answer (s'.view b) := by
  cases call with
  | mutate operation =>
    obtain ⟨s', b, hServed⟩ := h.perform operation hFits
    exact ⟨s', b, hServed.map fun _ hStep => .mutate hStep⟩
  | sealWithSync =>
    exact ⟨auth.store, a, (h.seal hReads).forget .sealWithSync⟩
  | gcWithSync entries =>
    obtain ⟨s', b, hView, hServed⟩ := h.collect hReads entries
    refine ⟨s', b, hServed.forget ?_⟩
    rw [hView]
    exact .gcWithSync entries

/-- A poisoned authority refuses every call without a step. -/
theorem run_refuses (hPoisoned : auth.store.poisoned = true) (call : AuthorityCall) :
    call.run sha256 fromSlice auth files = ([], .error .recoveryRequired, auth) := by
  cases call with
  | mutate operation => exact bind_run_error (perform_refuses hPoisoned operation)
  | sealWithSync => exact bind_run_error (requireUnpoisoned_refuses hPoisoned)
  | gcWithSync entries => exact bind_run_error (requireUnpoisoned_refuses hPoisoned)

theorem interrupted_nil {N : Type} [DecidableEq N] {files image : Files N}
    (h : Interrupted files [] image) : image = files := by
  cases h with
  | here => rfl

/-- A system stands for the same model whatever the system answers to the steps to come. -/
theorem Stands.withAnswers {m : HistoryModel} (h : Stands sha256 ⟨some auth, files⟩ m)
    (answers : List StepAnswer) : Stands sha256 ⟨some { auth with answers }, files⟩ m := by
  cases h with
  | live hLive => exact .live (hLive.onward ⟨answers, rfl⟩)
  | poisoned hPoisoned hRecovers =>
    have hStill : ({ auth with answers } : WritableHistoryAuthority).store.poisoned = true :=
      hPoisoned
    exact .poisoned hStill hRecovers

theorem Stands.answered {auth' : WritableHistoryAuthority} {steps : List (FileStep HistoryFile)}
    {call : AuthorityCall} {answer : Option Answer} {m : HistoryModel}
    (hReads : ReadsManifests fromSlice) (h : Stands sha256 ⟨some auth, files⟩ m)
    (hFits : call.Fits sha256 auth.store)
    (hRun : call.run sha256 fromSlice auth files = (steps, .ok answer, auth')) :
    ∃ m', m.Event sha256 (.answered call answer) m' ∧
      Stands sha256 ⟨some auth', applyAll files steps⟩ m' := by
  cases h with
  | live hLive =>
    obtain ⟨s', b, hServed⟩ := hLive.run hReads call hFits
    obtain ⟨hStep, ⟨physical', hLive'⟩, rfl⟩ := hServed.ok hRun
    exact ⟨_, .answered hStep, .live hLive'⟩
  | poisoned hPoisoned =>
    rw [run_refuses hPoisoned] at hRun
    cases hRun

/-- A failed call leaves the model, or it failed at the sync of the log. -/
theorem Stands.failed {auth' : WritableHistoryAuthority} {steps : List (FileStep HistoryFile)}
    {call : AuthorityCall} {error : DurableError} {m : HistoryModel}
    (hReads : ReadsManifests fromSlice) (h : Stands sha256 ⟨some auth, files⟩ m)
    (hFits : call.Fits sha256 auth.store)
    (hRun : call.run sha256 fromSlice auth files = (steps, .error error, auth')) :
    ∃ m', m.Event sha256 (.failed call error) m' ∧
      Stands sha256 ⟨some auth', applyAll files steps⟩ m' := by
  cases h with
  | live hLive =>
    obtain ⟨s', b, hServed⟩ := hLive.run hReads call hFits
    cases hServed.error hRun with
    | unchanged _ hLive' hStore =>
      obtain ⟨physical', hLive'⟩ := hLive'
      obtain ⟨content, hStore⟩ := hStore
      have hStands := Stands.live hLive'
      rw [hStore, view_onContent] at hStands
      exact ⟨_, .failed call error, hStands⟩
    | manifest hPoisoned hView hRecovers =>
      refine ⟨_, .failed call _, ?_⟩
      rw [← hView]
      exact .poisoned hPoisoned hRecovers
    | log hPoisoned hAnswer hRecovers =>
      obtain ⟨answer, hStep⟩ := hAnswer
      exact ⟨_, .unsynced hStep, .poisoned hPoisoned hRecovers⟩
  | poisoned hPoisoned hRecovers =>
    rw [run_refuses hPoisoned] at hRun
    cases hRun
    exact ⟨_, .failed call _, .poisoned hPoisoned hRecovers⟩

theorem Stands.interrupted {auth' : WritableHistoryAuthority} {image : HistoryFiles}
    {steps : List (FileStep HistoryFile)} {call : AuthorityCall}
    {result : Except DurableError (Option Answer)} {m : HistoryModel}
    (hReads : ReadsManifests fromSlice) (h : Stands sha256 ⟨some auth, files⟩ m)
    (hFits : call.Fits sha256 auth.store)
    (hRun : call.run sha256 fromSlice auth files = (steps, result, auth'))
    (hCut : Interrupted files steps image) :
    ∃ m', m.Event sha256 (.interrupted call) m' ∧ Stands sha256 ⟨none, image⟩ m' := by
  cases h with
  | live hLive =>
    obtain ⟨s', b, hServed⟩ := hLive.run hReads call hFits
    rcases (hServed.along hRun).interrupted hCut with hOld | ⟨⟨answer, hStep⟩, hNew⟩
    · exact ⟨_, .undone call, .down hOld⟩
    · exact ⟨_, .done hStep, .down hNew⟩
  | poisoned hPoisoned hRecovers =>
    rw [run_refuses hPoisoned] at hRun
    cases hRun
    rw [interrupted_nil hCut]
    exact ⟨_, .undone call, .down hRecovers⟩

/-- Every event of a system is an event of the model it stands for. -/
theorem Stands.step (hReads : ReadsManifests fromSlice) {sys sys' : AuthoritySystem}
    {m : HistoryModel} {event : AuthorityEvent} (h : Stands sha256 sys m)
    (hStep : AuthorityStep sha256 fromSlice sys event sys') :
    ∃ m', m.Event sha256 event m' ∧ Stands sha256 sys' m' := by
  cases hStep with
  | @answered _ _ _ _ _ _ answers hFits hRun =>
    exact (h.withAnswers answers).answered hReads hFits hRun
  | @failed _ _ _ _ _ _ answers hFits hRun =>
    exact (h.withAnswers answers).failed hReads hFits hRun
  | @interrupted _ _ _ _ _ _ _ answers hFits hRun hCut =>
    exact (h.withAnswers answers).interrupted hReads hFits hRun hCut
  | closed =>
    cases h with
    | live hLive => exact ⟨_, .closed, .down hLive.recoverable.recovers⟩
    | poisoned _ hRecovers => exact ⟨_, .closed, .down hRecovers⟩
  | opened hRun =>
    cases h with
    | down hRecovers =>
      obtain ⟨generation, physical, hRecoverable⟩ := hRecovers
      obtain ⟨hLive, -, content, hStore⟩ := (hRecoverable.reopens hReads).ok hRun
      have hStands := Stands.live hLive
      rw [hStore, view_onContent] at hStands
      exact ⟨_, .opened, hStands⟩
  | openingInterrupted hRun hCut =>
    cases h with
    | down hRecovers =>
      obtain ⟨generation, physical, hRecoverable⟩ := hRecovers
      have hImage := ((hRecoverable.reopens hReads).along hRun).interrupted hCut
      exact ⟨_, .openingInterrupted, .down hImage.recovers⟩

/-- A created system stands for the empty model. -/
theorem Created.stands {sys : AuthoritySystem} (h : Created sha256 fromSlice sys) :
    Stands sha256 sys .empty := by
  cases h with
  | intro hBlank hRun =>
    obtain ⟨steps, auth, hOpen, hLive, -, content, hStore⟩ := hBlank.opens sha256 fromSlice
    rw [hRun] at hOpen
    cases hOpen
    have hStands := Stands.live hLive
    rw [hStore] at hStands
    exact hStands

/-- Every run of a created system is a run of the model from nothing. -/
theorem Created.run (hReads : ReadsManifests fromSlice) {sys sys' : AuthoritySystem}
    {events : List AuthorityEvent} (h : Created sha256 fromSlice sys)
    (hRun : Traces (AuthorityStep sha256 fromSlice) sys events sys') :
    ∃ m, Traces (HistoryModel.Event sha256) .empty events m ∧ Stands sha256 sys' m := by
  have hSim : ∀ sys m event sys', Stands sha256 sys m →
      AuthorityStep sha256 fromSlice sys event sys' →
      ∃ m', HistoryModel.Event sha256 m event m' ∧ Stands sha256 sys' m' :=
    fun _ _ _ _ hStands hStep => hStands.step hReads hStep
  exact hRun.simulate hSim h.stands

end Simulation

end TulyaStore.History
