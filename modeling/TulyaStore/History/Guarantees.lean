import TulyaStore.History.ManifestText
import TulyaStore.History.Queries
import TulyaStore.History.Retries

/-!
# What a history directory guarantees

The promises of the model, for every run of the system: of calls that succeed, fail and are
interrupted, of seals and collections, of closings and openings in any order.
-/

namespace TulyaStore.History

open Lib FileM Sequence V2AvlSequence PersistentHistoryStore

section Guarantees

variable {sha256 : Bytes → Digest} {fromSlice : Bytes → Option JsonValue}
  {sys sys₁ sys₂ : AuthoritySystem} {auth : WritableHistoryAuthority} {files : HistoryFiles}
  {m : HistoryModel}

/-! ## Systems and models -/

theorem Stands.alive (h : Stands sha256 ⟨some auth, files⟩ m)
    (hAlive : auth.store.poisoned = false) :
    ∃ physical a, Live sha256 auth files physical a ∧ m = auth.store.view a := by
  cases h with
  | live hLive => exact ⟨_, _, hLive, rfl⟩
  | poisoned hPoisoned =>
    rw [hAlive] at hPoisoned
    cases hPoisoned

theorem Stands.serves (h : Stands sha256 ⟨some auth, files⟩ m)
    (hAlive : auth.store.poisoned = false) : Serves sha256 auth.store m := by
  obtain ⟨physical, a, hLive, rfl⟩ := h.alive hAlive
  exact hLive.serves

theorem Stands.recovers (h : Stands sha256 sys m) :
    ∃ s a, Recovers sha256 sys.files s a ∧ m = s.view a := by
  cases h with
  | live hLive => exact ⟨_, _, hLive.recoverable.recovers, rfl⟩
  | poisoned _ hRecovers => exact ⟨_, _, hRecovers, rfl⟩
  | down hRecovers => exact ⟨_, _, hRecovers, rfl⟩

/-- Whatever happened to the system, its directory can be opened, and shows its model. -/
theorem Stands.reopens (hReads : ReadsManifests fromSlice) (h : Stands sha256 sys m) :
    ∃ steps auth, WritableHistoryAuthority.open sha256 fromSlice () sys.files =
      (steps, .ok auth, ()) ∧
      auth.store.poisoned = false ∧ Stands sha256 ⟨some auth, applyAll sys.files steps⟩ m := by
  obtain ⟨s, a, ⟨generation, physical, hRecoverable⟩, rfl⟩ := h.recovers
  have hOpens := hRecoverable.reopens hReads
  obtain ⟨steps, result, state, hRun⟩ : ∃ steps result state,
      WritableHistoryAuthority.open sha256 fromSlice () sys.files = (steps, result, state) :=
    ⟨_, _, _, rfl⟩
  cases result with
  | error e => exact (hOpens.error hRun).elim
  | ok auth =>
    obtain ⟨hLive, -, content, hStore⟩ := hOpens.ok hRun
    have hStands := Stands.live hLive
    rw [hStore, view_onContent] at hStands
    exact ⟨steps, auth, hRun, hLive.recoverable.unpoisoned, hStands⟩

/-- A run from a system that stands for a model. -/
theorem Stands.traces (hReads : ReadsManifests fromSlice) {events : List AuthorityEvent}
    (h : Stands sha256 sys m) (hRun : Traces (AuthorityStep sha256 fromSlice) sys events sys₁) :
    ∃ m', Traces (HistoryModel.Event sha256) m events m' ∧ Stands sha256 sys₁ m' := by
  have hSim : ∀ sys m event sys', Stands sha256 sys m →
      AuthorityStep sha256 fromSlice sys event sys' →
      ∃ m', HistoryModel.Event sha256 m event m' ∧ Stands sha256 sys' m' :=
    fun _ _ _ _ hStands hStep => hStands.step hReads hStep
  exact hRun.simulate hSim h

/-- What a created system stands for after a run. -/
theorem Created.reaches (hReads : ReadsManifests fromSlice) {events : List AuthorityEvent}
    (h : Created sha256 fromSlice sys)
    (hRun : Traces (AuthorityStep sha256 fromSlice) sys events sys₁) :
    ∃ m, Traces (HistoryModel.Event sha256) .empty events m ∧ Stands sha256 sys₁ m ∧ m.Valid := by
  obtain ⟨m, hTraces, hStands⟩ := h.run hReads hRun
  exact ⟨m, hTraces, hStands, HistoryModel.valid_of_traces hTraces HistoryModel.valid_empty⟩

/-! ## A first version in an empty directory -/

theorem run_eq {α β γ : Type} {run : α × β × γ} {result : β} (h : run.2.1 = result) :
    run = (run.1, result, run.2.2) := Prod.ext rfl (Prod.ext h rfl)

/-- The first version of a store without committed content fits if it fits into an empty arena. -/
theorem fits_first {s : PersistentHistoryStore} {generation : Nat} {payload nodes : Option Bytes}
    {history : HistoryId} {insert : Bytes}
    (hBackend : s.backend = .physical ⟨generation, payload, nodes, 0, 0⟩)
    (hFits : Addressable (editedArena sha256 .empty none 0 0 insert)) :
    SpliceFits sha256 s history none 0 0 insert := by
  intro content a parentRoot parentLen resolved hContent hWf hHolds hParent hResolve
  rw [hBackend] at hContent
  cases hContent
  have hPayload : a.payload = [] := List.length_eq_zero_iff.mp hHolds.payloadEnd.symm
  have hNodes : a.nodes = [] := List.length_eq_zero_iff.mp hHolds.nodeCount.symm
  have hEmpty : a = V2AvlSequence.empty := by
    obtain ⟨payload, nodes⟩ := a
    cases hPayload
    cases hNodes
    rfl
  cases hParent
  cases hResolve
  rw [hEmpty]
  exact hFits

theorem opening_step {auth : WritableHistoryAuthority} {files : HistoryFiles}
    {run : List (FileStep HistoryFile) × Except DurableError WritableHistoryAuthority × Unit}
    (hRun : WritableHistoryAuthority.open sha256 fromSlice () files = run)
    (hOk : run.2.1 = .ok auth) :
    AuthorityStep sha256 fromSlice ⟨none, files⟩ .opened ⟨some auth, applyAll files run.1⟩ :=
  .opened (hRun.trans (run_eq hOk))

def sampleHistorySha256 (message : Bytes) : Digest := digestOfNat message.length

def emptyDirectory : HistoryFiles := fun _ => none

def firstOpening : List (FileStep HistoryFile) × Except DurableError WritableHistoryAuthority ×
    Unit :=
  WritableHistoryAuthority.open sampleHistorySha256 readJson () emptyDirectory

def firstAuthority : WritableHistoryAuthority :=
  ⟨overContent (.createNew 0), 0, ⟨0, 0⟩, ⟨[], 0⟩, []⟩

def firstFiles : HistoryFiles := applyAll emptyDirectory firstOpening.1

/-- A call with the answers to its steps. -/
def sampleRun (call : AuthorityCall) (auth : WritableHistoryAuthority) (answers : List StepAnswer)
    (files : HistoryFiles) : List (FileStep HistoryFile) × Except DurableError (Option Answer) ×
      WritableHistoryAuthority :=
  call.run sampleHistorySha256 readJson { auth with answers } files

theorem sampleRun_answered {call : AuthorityCall} {auth : WritableHistoryAuthority}
    {files : HistoryFiles} {answer : Option Answer}
    {run : List (FileStep HistoryFile) × Except DurableError (Option Answer) ×
      WritableHistoryAuthority} (answers : List StepAnswer)
    (hFits : call.Fits sampleHistorySha256 auth.store)
    (hRun : sampleRun call auth answers files = run) (hOk : run.2.1 = .ok answer) :
    AuthorityStep sampleHistorySha256 readJson ⟨some auth, files⟩ (.answered call answer)
      ⟨some run.2.2, applyAll files run.1⟩ :=
  .answered hFits (hRun.trans (run_eq hOk))

theorem sampleRun_failed {call : AuthorityCall} {auth : WritableHistoryAuthority}
    {files : HistoryFiles} {e : DurableError}
    {run : List (FileStep HistoryFile) × Except DurableError (Option Answer) ×
      WritableHistoryAuthority} (answers : List StepAnswer)
    (hFits : call.Fits sampleHistorySha256 auth.store)
    (hRun : sampleRun call auth answers files = run) (hError : run.2.1 = .error e) :
    AuthorityStep sampleHistorySha256 readJson ⟨some auth, files⟩ (.failed call e)
      ⟨some run.2.2, applyAll files run.1⟩ :=
  .failed hFits (hRun.trans (run_eq hError))

def sampleCreation : AuthorityCall := .mutate (.createHistory none)

def creationRun := sampleRun sampleCreation firstAuthority [] firstFiles

def secondFiles : HistoryFiles := applyAll firstFiles creationRun.1

def sampleSplice : Operation := .splice ⟨0⟩ none 0 0 [97, 98, 99] (some [1]) none

/-- The splice when the sync of its payload is refused, and then the cut that would undo it. -/
def unhealedRun := sampleRun (.mutate sampleSplice) creationRun.2.2
  [.done, .done, .refused 0, .refused 0] secondFiles

def unhealedFiles : HistoryFiles := applyAll secondFiles unhealedRun.1

def spliceRun := sampleRun (.mutate sampleSplice) unhealedRun.2.2 [] unhealedFiles

def thirdFiles : HistoryFiles := applyAll unhealedFiles spliceRun.1

/-- A creation when the sync of the log is refused. -/
def unsyncedRun := sampleRun sampleCreation spliceRun.2.2 [.done, .done, .refused 0] thirdFiles

def fourthFiles : HistoryFiles := applyAll thirdFiles unsyncedRun.1

def reopening : List (FileStep HistoryFile) × Except DurableError WritableHistoryAuthority ×
    Unit :=
  WritableHistoryAuthority.open sampleHistorySha256 readJson () fourthFiles

def reopened : WritableHistoryAuthority := reopening.2.1.toOption.getD firstAuthority

def fifthFiles : HistoryFiles := applyAll fourthFiles reopening.1

/-- A seal when the log of the generation in front of it cannot be removed. -/
def sealRun := sampleRun .sealWithSync spliceRun.2.2 (List.replicate 16 .done ++ [.refused 0])
  thirdFiles

/-- A collection when one of the old content files cannot be removed. -/
def gcRun : List (FileStep HistoryFile) × Except DurableError GcSummary ×
    WritableHistoryAuthority :=
  WritableHistoryAuthority.gcWithSync sampleHistorySha256 readJson [.payload 0, .nodes 0]
    { spliceRun.2.2 with answers := List.replicate 26 .done ++ [.refused 0] } thirdFiles

-- one evaluation for all runs, since each of them starts with the ones in front of it
theorem sample_runs : firstOpening.2.1 = .ok firstAuthority ∧
    creationRun.2.1 = .ok (some (.history ⟨0⟩)) ∧
    creationRun.2.2.store.backend =
      .physical ⟨0, secondFiles (.payload 0), secondFiles (.nodes 0), 0, 0⟩ ∧
    unhealedRun.2.1 = .error .recoveryRequired ∧
    unhealedRun.2.2.store.backend =
      .physical ⟨0, unhealedFiles (.payload 0), unhealedFiles (.nodes 0), 0, 0⟩ ∧
    Addressable (editedArena sampleHistorySha256 .empty none 0 0 [97, 98, 99]) ∧
    spliceRun.2.1 = .ok (some (.commit (.committed ⟨⟨0⟩, ⟨0⟩, none⟩))) ∧
    spliceRun.2.2.store.poisoned = false ∧
    unsyncedRun.2.1 = .error (.indeterminate .fileSyncAll) ∧
    reopening.2.1 = .ok reopened ∧
    reopened.store.poisoned = false ∧
    reopened.store.versionCount ≤ 0 + stagingRequestReceiptCapacity ∧
    12 < sealRun.1.length ∧
    gcRun.2.1 = .ok ⟨1, 359, 300, ⟨1, 1, 0, 3, 3, 0, 1, 0⟩, false⟩ := by
  decide +kernel

theorem created_first : Created sampleHistorySha256 readJson ⟨some firstAuthority, firstFiles⟩ :=
  .intro ⟨rfl, rfl, rfl, rfl⟩ (run_eq sample_runs.1)

/-- The events in front of the splice. -/
def sampleBefore : List AuthorityEvent :=
  [.answered sampleCreation (some (.history ⟨0⟩)),
    .failed (.mutate sampleSplice) .recoveryRequired]

theorem traces_before : Traces (AuthorityStep sampleHistorySha256 readJson)
    ⟨some firstAuthority, firstFiles⟩ sampleBefore ⟨some unhealedRun.2.2, unhealedFiles⟩ := by
  obtain ⟨-, hCreation, hBackend, hUnhealed, -, hRoom, -⟩ := sample_runs
  have hFits : sampleSplice.Fits sampleHistorySha256 creationRun.2.2.store :=
    fits_first hBackend hRoom
  have hFirst : AuthorityStep sampleHistorySha256 readJson ⟨some firstAuthority, firstFiles⟩
      (.answered sampleCreation (some (.history ⟨0⟩))) ⟨some creationRun.2.2, secondFiles⟩ :=
    sampleRun_answered [] trivial rfl hCreation
  have hSecond : AuthorityStep sampleHistorySha256 readJson ⟨some creationRun.2.2, secondFiles⟩
      (.failed (.mutate sampleSplice) .recoveryRequired)
      ⟨some unhealedRun.2.2, unhealedFiles⟩ :=
    sampleRun_failed [.done, .done, .refused 0, .refused 0] hFits rfl hUnhealed
  exact .cons hFirst (.single hSecond)

theorem step_splice : AuthorityStep sampleHistorySha256 readJson
    ⟨some unhealedRun.2.2, unhealedFiles⟩
    (.answered (.mutate sampleSplice) (some (.commit (.committed ⟨⟨0⟩, ⟨0⟩, none⟩))))
    ⟨some spliceRun.2.2, thirdFiles⟩ := by
  obtain ⟨-, -, -, -, hBackend, hRoom, hOk, -⟩ := sample_runs
  have hFits : sampleSplice.Fits sampleHistorySha256 unhealedRun.2.2.store :=
    fits_first hBackend hRoom
  exact sampleRun_answered [] hFits rfl hOk

/-- The events behind the splice. -/
def sampleAfter : List AuthorityEvent :=
  [.failed sampleCreation (.indeterminate .fileSyncAll), .closed, .opened]

theorem traces_after : Traces (AuthorityStep sampleHistorySha256 readJson)
    ⟨some spliceRun.2.2, thirdFiles⟩ sampleAfter ⟨some reopened, fifthFiles⟩ := by
  obtain ⟨-, -, -, -, -, -, -, -, hUnsynced, hReopened, -⟩ := sample_runs
  have hFailed : AuthorityStep sampleHistorySha256 readJson ⟨some spliceRun.2.2, thirdFiles⟩
      (.failed sampleCreation (.indeterminate .fileSyncAll))
      ⟨some unsyncedRun.2.2, fourthFiles⟩ :=
    sampleRun_failed [.done, .done, .refused 0] trivial rfl hUnsynced
  have hOpened : AuthorityStep sampleHistorySha256 readJson ⟨none, fourthFiles⟩ .opened
      ⟨some reopened, fifthFiles⟩ := opening_step rfl hReopened
  exact .cons hFailed (.cons .closed (.single hOpened))

theorem traces_splice : Traces (AuthorityStep sampleHistorySha256 readJson)
    ⟨some firstAuthority, firstFiles⟩
    (sampleBefore ++ [.answered (.mutate sampleSplice)
      (some (.commit (.committed ⟨⟨0⟩, ⟨0⟩, none⟩)))]) ⟨some spliceRun.2.2, thirdFiles⟩ :=
  traces_before.append (.single step_splice)

def sampleEvents : List AuthorityEvent :=
  sampleBefore ++ [.answered (.mutate sampleSplice)
    (some (.commit (.committed ⟨⟨0⟩, ⟨0⟩, none⟩)))] ++ sampleAfter

theorem traces_sample : Traces (AuthorityStep sampleHistorySha256 readJson)
    ⟨some firstAuthority, firstFiles⟩ sampleEvents ⟨some reopened, fifthFiles⟩ :=
  traces_splice.append traces_after

theorem alive_splice : spliceRun.2.2.store.poisoned = false := by
  obtain ⟨-, -, -, -, -, -, -, hAlive, -⟩ := sample_runs
  exact hAlive

theorem alive_reopened : reopened.store.poisoned = false ∧
    reopened.store.versionCount ≤ 0 + stagingRequestReceiptCapacity := by
  obtain ⟨-, -, -, -, -, -, -, -, -, -, hAlive, hCount, -⟩ := sample_runs
  exact ⟨hAlive, hCount⟩

/-! ## Every run is a run of the model -/

/-- The runs of the system refine those of the model: whatever was interrupted on the way, the
queries of an authority that is not poisoned answer as the model says, and the directory can be
opened again with the same answers. -/
theorem runs_refine_model (hReads : ReadsManifests fromSlice) {events : List AuthorityEvent}
    (hCreated : Created sha256 fromSlice sys)
    (hRun : Traces (AuthorityStep sha256 fromSlice) sys events sys₁) :
    ∃ m, Traces (HistoryModel.Event sha256) .empty events m ∧
      (∀ auth, sys₁.authority = some auth → auth.store.poisoned = false →
        Serves sha256 auth.store m) ∧
      ∃ steps auth, WritableHistoryAuthority.open sha256 fromSlice () sys₁.files =
        (steps, .ok auth, ()) ∧ auth.store.poisoned = false ∧ Serves sha256 auth.store m := by
  obtain ⟨m, hTraces, hStands⟩ := hCreated.run hReads hRun
  obtain ⟨steps, auth, hOpen, hAlive, hAgain⟩ := hStands.reopens hReads
  refine ⟨m, hTraces, ?_, steps, auth, hOpen, hAlive, hAgain.serves hAlive⟩
  intro auth' hAuth hAlive'
  obtain ⟨authority, files⟩ := sys₁
  cases hAuth
  exact hStands.serves hAlive'

theorem runs_refine_model_sample : ∃ m, Traces (HistoryModel.Event sampleHistorySha256) .empty
      sampleEvents m ∧
    (∀ auth, some reopened = some auth → auth.store.poisoned = false →
      Serves sampleHistorySha256 auth.store m) ∧
    ∃ steps auth, WritableHistoryAuthority.open sampleHistorySha256 readJson () fifthFiles =
      (steps, .ok auth, ()) ∧ auth.store.poisoned = false ∧
        Serves sampleHistorySha256 auth.store m := by
  have hRefines := runs_refine_model readJson_manifest created_first traces_sample
  dsimp only at hRefines
  exact hRefines

/-! ## Acknowledged versions -/

/-- An acknowledged version keeps its bytes, its length and its binding through everything that
follows, as long as it is not expired. -/
theorem acknowledged_version_reads (hReads : ReadsManifests fromSlice)
    {before : List AuthorityEvent} (hCreated : Created sha256 fromSlice sys)
    (hBefore : Traces (AuthorityStep sha256 fromSlice) sys before sys₁) {operation : Operation}
    {version : Version} (hStep : AuthorityStep sha256 fromSlice sys₁
      (.answered (.mutate operation) (some (.commit (.committed version)))) sys₂) :
    ∃ m commit bytes, Stands sha256 sys₁ m ∧ m.commitOf sha256 operation = some commit ∧
      commit.content = some bytes ∧ version = m.freshVersion commit ∧
      ∀ after auth files, Traces (AuthorityStep sha256 fromSlice) sys₂ after ⟨some auth, files⟩ →
        auth.store.poisoned = false →
        (∀ event ∈ after, HistoryModel.operationOf event ≠ some (.expire version.id)) →
        auth.store.lookupVersion version.id = .ok version ∧
          auth.store.logicalLen version = .ok bytes.length ∧
          auth.store.versionBinding version.id = commit.binding ∧
          ∀ offset length read, auth.store.read sha256 version offset length = .ok read ↔
            offset + length ≤ bytes.length ∧ read = (bytes.drop offset).take length := by
  obtain ⟨m, -, hStands, hValid⟩ := hCreated.reaches hReads hBefore
  obtain ⟨m', hEvent, hStands'⟩ := hStands.step hReads hStep
  have hValid' := hEvent.valid hValid
  cases hEvent with
  | answered hCall =>
    obtain ⟨hModel⟩ := hCall
    cases hModel with
    | @committed _ commit bytes hCommit hAdmits hBytes hNew =>
      refine ⟨m, commit, bytes, hStands, hCommit, hBytes, rfl, ?_⟩
      intro after auth files hAfter hAlive hKept
      obtain ⟨last, hTraces, hLast⟩ := hStands'.traces hReads hAfter
      have hServes := hLast.serves hAlive
      have hFirst : (m.record commit bytes).versions[m.versions.length]? =
          some ⟨m.freshVersion commit, bytes.length, commit.binding, some bytes⟩ :=
        List.getElem?_concat_length
      obtain ⟨entry, hEntry, hOutlives⟩ :=
        (HistoryModel.later_of_traces hTraces).versions _ _ hFirst
      have hContent : entry.content = some bytes := by
        rcases hOutlives.content with hSame | hLost
        · exact hSame
        · obtain ⟨event, hMem, hExpire⟩ :=
            HistoryModel.expired_of_traces hTraces hValid' hFirst hEntry rfl hLost
          exact absurd hExpire (hKept event hMem)
      refine ⟨?_, ?_, ?_, ?_⟩
      · exact (hServes.lookupVersion _ _).mpr
          ⟨entry, hEntry, by rw [hContent]; rfl, hOutlives.version.symm⟩
      · exact (hServes.len _ _).mpr ⟨entry, bytes, hEntry, hOutlives.version, hContent, rfl⟩
      · have hBinding := hServes.versionBinding (m.freshVersion commit).id
        rw [hBinding]
        change (last.versions[m.versions.length]?).bind _ = _
        rw [hEntry]
        exact hOutlives.binding
      · intro offset length read
        rw [hServes.read]
        constructor
        · rintro ⟨other, content, hOther, -, hOtherContent, hInside, rfl⟩
          change last.versions[m.versions.length]? = some other at hOther
          rw [hEntry] at hOther
          cases hOther
          rw [hContent] at hOtherContent
          cases hOtherContent
          exact ⟨hInside, rfl⟩
        · rintro ⟨hInside, rfl⟩
          exact ⟨entry, bytes, hEntry, hOutlives.version, hContent, hInside, rfl⟩

theorem acknowledged_version_reads_sample : ∃ m commit bytes,
    Stands sampleHistorySha256 ⟨some unhealedRun.2.2, unhealedFiles⟩ m ∧
      m.commitOf sampleHistorySha256 sampleSplice = some commit ∧ commit.content = some bytes ∧
      ⟨⟨0⟩, ⟨0⟩, none⟩ = m.freshVersion commit ∧
      ∀ after auth files, Traces (AuthorityStep sampleHistorySha256 readJson)
          ⟨some spliceRun.2.2, thirdFiles⟩ after ⟨some auth, files⟩ →
        auth.store.poisoned = false →
        (∀ event ∈ after, HistoryModel.operationOf event ≠ some (.expire ⟨0⟩)) →
        auth.store.lookupVersion ⟨0⟩ = .ok ⟨⟨0⟩, ⟨0⟩, none⟩ ∧
          auth.store.logicalLen ⟨⟨0⟩, ⟨0⟩, none⟩ = .ok bytes.length ∧
          auth.store.versionBinding ⟨0⟩ = commit.binding ∧
          ∀ offset length read, auth.store.read sampleHistorySha256 ⟨⟨0⟩, ⟨0⟩, none⟩ offset length =
            .ok read ↔ offset + length ≤ bytes.length ∧ read = (bytes.drop offset).take length :=
  acknowledged_version_reads readJson_manifest created_first traces_before step_splice

/-! ## Identities -/

/-- Identifiers are never given twice: what an authority lists is listed by every later one, in
front and in the same order, with its binding, and an expired version stays expired. -/
theorem identities_are_permanent (hReads : ReadsManifests fromSlice)
    {before after : List AuthorityEvent} {auth' : WritableHistoryAuthority} {files' : HistoryFiles}
    (hCreated : Created sha256 fromSlice sys)
    (hBefore : Traces (AuthorityStep sha256 fromSlice) sys before ⟨some auth, files⟩)
    (hAlive : auth.store.poisoned = false)
    (hAfter : Traces (AuthorityStep sha256 fromSlice) ⟨some auth, files⟩ after ⟨some auth', files'⟩)
    (hAlive' : auth'.store.poisoned = false) :
    auth.store.allVersions <+: auth'.store.allVersions ∧
      auth.store.allHistories <+: auth'.store.allHistories ∧
      (∀ id ∈ auth.store.allHistories,
        auth'.store.historyBinding id = auth.store.historyBinding id) ∧
      (∀ version ∈ auth.store.allVersions,
        auth'.store.versionBinding version.id = auth.store.versionBinding version.id) ∧
      ∀ id, auth.store.isExpired id = .ok true → auth'.store.isExpired id = .ok true := by
  obtain ⟨m, -, hStands, hValid⟩ := hCreated.reaches hReads hBefore
  obtain ⟨m', hTraces, hStands'⟩ := hStands.traces hReads hAfter
  have hLater := HistoryModel.later_of_traces hTraces
  have hServes := hStands.serves hAlive
  have hServes' := hStands'.serves hAlive'
  refine ⟨?_, ?_, ?_, ?_, ?_⟩
  · rw [hServes.versions, hServes'.versions]
    exact hLater.versions_prefix
  · rw [hServes.histories, hServes'.histories]
    refine List.IsPrefix.map _ ?_
    rw [List.prefix_iff_eq_take, List.length_range, List.take_range,
      Nat.min_eq_left hLater.histories.length_le]
  · intro id hMem
    rw [hServes.histories] at hMem
    obtain ⟨i, hLt, rfl⟩ := List.mem_map.mp hMem
    rw [hServes.historyBinding, hServes'.historyBinding, hLater.history (List.mem_range.mp hLt)]
  · intro version hMem
    rw [hServes.versions] at hMem
    obtain ⟨entry, hEntry, rfl⟩ := List.mem_map.mp hMem
    obtain ⟨i, hGet⟩ := List.mem_iff_getElem?.mp hEntry
    obtain ⟨new, hNew, hOutlives⟩ := hLater.versions i entry hGet
    rw [hServes.versionBinding, hServes'.versionBinding, hValid.dense i entry hGet, hGet, hNew]
    exact hOutlives.binding
  · intro id hExpired
    obtain ⟨entry, hGet, hLost⟩ := (hServes.expired id).mp hExpired
    obtain ⟨new, hNew, hOutlives⟩ := hLater.versions _ entry hGet
    refine (hServes'.expired id).mpr ⟨new, hNew, ?_⟩
    rcases hOutlives.content with hSame | hNone
    · rw [hSame, hLost]
    · exact hNone

theorem identities_are_permanent_sample :
    spliceRun.2.2.store.allVersions <+: reopened.store.allVersions ∧
      spliceRun.2.2.store.allHistories <+: reopened.store.allHistories ∧
      (∀ id ∈ spliceRun.2.2.store.allHistories,
        reopened.store.historyBinding id = spliceRun.2.2.store.historyBinding id) ∧
      (∀ version ∈ spliceRun.2.2.store.allVersions,
        reopened.store.versionBinding version.id =
          spliceRun.2.2.store.versionBinding version.id) ∧
      ∀ id, spliceRun.2.2.store.isExpired id = .ok true → reopened.store.isExpired id = .ok true :=
  identities_are_permanent readJson_manifest created_first traces_splice alive_splice traces_after
    alive_reopened.1

/-! ## Requests -/

/-- An acknowledged request is in the ledger until as many versions have followed as the ledger
holds receipts, and the operation still commits what it committed. -/
theorem Created.acknowledged (hReads : ReadsManifests fromSlice)
    {before after : List AuthorityEvent} (hCreated : Created sha256 fromSlice sys)
    (hBefore : Traces (AuthorityStep sha256 fromSlice) sys before sys₁) {operation : Operation}
    {version : Version} (hStep : AuthorityStep sha256 fromSlice sys₁
      (.answered (.mutate operation) (some (.commit (.committed version)))) sys₂)
    {request : Bytes} (hRequest : HistoryModel.requestOf operation = some request)
    (hAfter : Traces (AuthorityStep sha256 fromSlice) sys₂ after ⟨some auth, files⟩)
    (hAlive : auth.store.poisoned = false)
    (hRoom : auth.store.versionCount ≤ version.id.id + stagingRequestReceiptCapacity) :
    ∃ physical a commit found entry, Live sha256 auth files physical a ∧
      (auth.store.view a).Valid ∧ (auth.store.view a).commitOf sha256 operation = some commit ∧
      (auth.store.view a).Admits commit ∧ commit.requestId = some request ∧
      ⟨request, commit.digest, found⟩ ∈ (auth.store.view a).receipts ∧
      (found = some version.id ∨ found = none) ∧
      (auth.store.view a).versions[version.id.id]? = some entry ∧ entry.version = version := by
  obtain ⟨m, -, hStands, hValid⟩ := hCreated.reaches hReads hBefore
  obtain ⟨m', hEvent, hStands'⟩ := hStands.step hReads hStep
  have hValid' := hEvent.valid hValid
  cases hEvent with
  | answered hCall =>
    obtain ⟨hModel⟩ := hCall
    cases hModel with
    | @committed _ commit bytes hCommit hAdmits hBytes hNew =>
      obtain ⟨last, hTraces, hLast⟩ := hStands'.traces hReads hAfter
      obtain ⟨physical, a, hLive, rfl⟩ := hLast.alive hAlive
      have hOwn : commit.requestId = some request :=
        (HistoryModel.commitOf_request hCommit).trans hRequest
      have hLater := HistoryModel.later_of_traces hTraces
      have hCount : (auth.store.view a).versions.length = auth.store.versionCount :=
        List.length_map _
      have hFirstCount : (m.record commit bytes).versions.length = m.versions.length + 1 :=
        List.length_append
      have hPos : 0 < stagingRequestReceiptCapacity := by decide
      change _ ≤ m.versions.length + _ at hRoom
      obtain ⟨older, newer, found, hReceipts, hFound, -⟩ := HistoryModel.protects_of_traces hTraces
        (HistoryModel.protects_record hOwn) (by omega)
      have hThen := (HistoryModel.later_record commit bytes).trans hLater
      obtain ⟨content, hNow⟩ := hThen.commitOf hCommit
      have hFirst : (m.record commit bytes).versions[m.versions.length]? =
          some ⟨m.freshVersion commit, bytes.length, commit.binding, some bytes⟩ :=
        List.getElem?_concat_length
      obtain ⟨entry, hEntry, hOutlives⟩ := hLater.versions _ _ hFirst
      refine ⟨physical, a, _, found, entry, hLive, HistoryModel.valid_of_traces hTraces
        hValid', hNow,
        hThen.admits hAdmits content, hOwn, ?_, hFound, hEntry, hOutlives.version⟩
      rw [hReceipts]
      exact List.mem_append_right _ List.mem_cons_self

/-- An acknowledged operation that is tried again takes no step and is answered with its version,
or that it was retired. -/
theorem retries_are_answered (hReads : ReadsManifests fromSlice)
    {before after : List AuthorityEvent}
    (hCreated : Created sha256 fromSlice sys)
    (hBefore : Traces (AuthorityStep sha256 fromSlice) sys before sys₁) {operation : Operation}
    {version : Version} (hStep : AuthorityStep sha256 fromSlice sys₁
      (.answered (.mutate operation) (some (.commit (.committed version)))) sys₂)
    {request : Bytes} (hRequest : HistoryModel.requestOf operation = some request)
    (hAfter : Traces (AuthorityStep sha256 fromSlice) sys₂ after ⟨some auth, files⟩)
    (hAlive : auth.store.poisoned = false)
    (hRoom : auth.store.versionCount ≤ version.id.id + stagingRequestReceiptCapacity)
    (answers : List StepAnswer) :
    perform sha256 operation { auth with answers } files =
        ([], .ok (.commit (.replayed version)), { auth with answers }) ∨
      perform sha256 operation { auth with answers } files =
        ([], .ok (.commit .retired), { auth with answers }) := by
  obtain ⟨physical, a, commit, found, entry, hLive, -, hCommit, hAdmits, hOwn, hReceipt, hFound,
    hEntry,
    rfl⟩ := hCreated.acknowledged hReads hBefore hStep hRequest hAfter hAlive hRoom
  have hAsked : Live sha256 { auth with answers } files physical a := hLive.onward ⟨answers, rfl⟩
  have hKnown : ∀ outcome, (auth.store.view a).answerOf found = some outcome →
      perform sha256 operation { auth with answers } files =
        ([], .ok (.commit outcome), { auth with answers }) :=
    fun outcome => hAsked.perform_known hCommit hAdmits hOwn hReceipt
  rcases hFound with rfl | rfl
  · left
    refine hKnown _ ?_
    rw [HistoryModel.answerOf, hEntry]
    rfl
  · right
    exact hKnown _ rfl

theorem retries_are_answered_sample :
    perform sampleHistorySha256 sampleSplice { reopened with answers := [.refused 0] } fifthFiles =
        ([], .ok (.commit (.replayed ⟨⟨0⟩, ⟨0⟩, none⟩)),
          { reopened with answers := [.refused 0] }) ∨
      perform sampleHistorySha256 sampleSplice { reopened with answers := [.refused 0] }
          fifthFiles =
        ([], .ok (.commit .retired), { reopened with answers := [.refused 0] }) :=
  retries_are_answered readJson_manifest created_first traces_before step_splice rfl traces_after
    alive_reopened.1 alive_reopened.2 _

/-- No other operation under an acknowledged request takes a step, either: it is rejected, or
answered with the version of the first one or that it was retired. -/
theorem requests_take_effect_once (hReads : ReadsManifests fromSlice)
    {before after : List AuthorityEvent} (hCreated : Created sha256 fromSlice sys)
    (hBefore : Traces (AuthorityStep sha256 fromSlice) sys before sys₁)
    {operation other : Operation} {version : Version} (hStep : AuthorityStep sha256 fromSlice sys₁
      (.answered (.mutate operation) (some (.commit (.committed version)))) sys₂)
    {request : Bytes} (hRequest : HistoryModel.requestOf operation = some request)
    (hOther : HistoryModel.requestOf other = some request)
    (hAfter : Traces (AuthorityStep sha256 fromSlice) sys₂ after ⟨some auth, files⟩)
    (hAlive : auth.store.poisoned = false)
    (hRoom : auth.store.versionCount ≤ version.id.id + stagingRequestReceiptCapacity)
    (answers : List StepAnswer) :
    ∃ result, perform sha256 other { auth with answers } files =
        ([], result, { auth with answers }) ∧
      ∀ answer, result = .ok answer →
        answer = .commit (.replayed version) ∨ answer = .commit .retired := by
  obtain ⟨physical, a, commit, found, entry, hLive, hValid, -, -, -, hReceipt, hFound, hEntry,
    rfl⟩ :=
    hCreated.acknowledged hReads hBefore hStep hRequest hAfter hAlive hRoom
  have hMem : request ∈ auth.store.receiptOrder := mem_receiptOrder hReceipt
  have hAsked : Live sha256 { auth with answers } files physical a := hLive.onward ⟨answers, rfl⟩
  obtain ⟨steps, result, auth', hRun⟩ : ∃ steps result auth',
      perform sha256 other { auth with answers } files = (steps, result, auth') := ⟨_, _, _, rfl⟩
  have hHeld := hAsked.perform_held hOther hMem hRun
  obtain ⟨rfl, rfl, -⟩ := hHeld .retired
  refine ⟨result, hRun, fun answer hOk => ?_⟩
  obtain ⟨outcome, rfl, receipt, hOwn, hSame, hAnswer⟩ := (hHeld answer).2.2 hOk
  have hReceipts : receipt = ⟨request, commit.digest, found⟩ :=
    List.inj_on_of_nodup_map hValid.requests hOwn hReceipt hSame
  rw [hReceipts] at hAnswer
  rcases hFound with rfl | rfl
  · left
    rw [HistoryModel.answerOf, hEntry] at hAnswer
    cases hAnswer
    rfl
  · right
    cases hAnswer
    rfl

theorem requests_take_effect_once_sample : ∃ result,
    perform sampleHistorySha256 (.splice ⟨0⟩ none 0 0 [100] (some [1]) none)
        { reopened with answers := [] } fifthFiles =
      ([], result, { reopened with answers := [] }) ∧
      ∀ answer, result = .ok answer →
        answer = .commit (.replayed ⟨⟨0⟩, ⟨0⟩, none⟩) ∨ answer = .commit .retired :=
  requests_take_effect_once readJson_manifest created_first traces_before step_splice rfl rfl
    traces_after alive_reopened.1 alive_reopened.2 _

/-- The ledger has the newest of the requests that took effect, and a request that takes effect is
none of the newest in front of it. -/
theorem ledger_holds_newest (hReads : ReadsManifests fromSlice) {events : List AuthorityEvent}
    (hCreated : Created sha256 fromSlice sys)
    (hRun : Traces (AuthorityStep sha256 fromSlice) sys events ⟨some auth, files⟩)
    (hAlive : auth.store.poisoned = false) :
    ∃ m issued, HistoryModel.Issuing sha256 .empty events issued m ∧ Serves sha256 auth.store m ∧
      auth.store.receiptOrder = newest issued ∧
      ∀ earlier request later, issued = earlier ++ request :: later → request ∉ newest earlier := by
  obtain ⟨m, hTraces, hStands⟩ := hCreated.run hReads hRun
  obtain ⟨issued, hIssuing⟩ := HistoryModel.issuing_of_traces hTraces
  obtain ⟨physical, a, hLive, rfl⟩ := hStands.alive hAlive
  have hLedger : _ = newest ([] ++ issued) := hIssuing.ledger rfl
  rw [view_requests, List.nil_append] at hLedger
  have hSpaced : ∀ earlier request later, issued = earlier ++ request :: later →
      request ∉ newest ([] ++ earlier) := hIssuing.spaced HistoryModel.valid_empty rfl
  simp only [List.nil_append] at hSpaced
  exact ⟨_, issued, hIssuing, hLive.serves, hLedger, hSpaced⟩

theorem ledger_holds_newest_sample : ∃ m issued,
    HistoryModel.Issuing sampleHistorySha256 .empty sampleEvents issued m ∧
      Serves sampleHistorySha256 reopened.store m ∧
      reopened.store.receiptOrder = newest issued ∧
      ∀ earlier request later, issued = earlier ++ request :: later → request ∉ newest earlier :=
  ledger_holds_newest readJson_manifest created_first traces_sample alive_reopened.1

/-! ## Failures -/

/-- The error of a failed call says what has become of it. A poisoned authority refuses every call;
a call that is rejected or sent to recovery has changed nothing; a refused sync behind the rename of
a manifest or behind a record poisons the authority, and in the second case the call has been done
as far as the files show. -/
theorem failed_calls_say_what_changed (hReads : ReadsManifests fromSlice)
    {before : List AuthorityEvent} (hCreated : Created sha256 fromSlice sys)
    (hBefore : Traces (AuthorityStep sha256 fromSlice) sys before ⟨some auth, files⟩)
    {call : AuthorityCall} (hFits : call.Fits sha256 auth.store) (answers : List StepAnswer)
    {steps : List (FileStep HistoryFile)} {e : DurableError} {auth' : WritableHistoryAuthority}
    (hRun : call.run sha256 fromSlice { auth with answers } files = (steps, .error e, auth')) :
    ∃ m m', Stands sha256 ⟨some auth, files⟩ m ∧
      Stands sha256 ⟨some auth', applyAll files steps⟩ m' ∧
      ((auth.store.poisoned = true ∧ e = .recoveryRequired ∧ steps = [] ∧
          auth' = { auth with answers } ∧ m' = m) ∨
        (auth.store.poisoned = false ∧ ((∃ error, e = .rejected error) ∨ e = .recoveryRequired) ∧
          auth'.store.poisoned = false ∧ (∃ content, auth'.store = auth.store.onContent content) ∧
          m' = m) ∨
        (auth.store.poisoned = false ∧ e = .indeterminate .directorySync ∧
          auth'.store.poisoned = true ∧ m' = m) ∨
        (auth.store.poisoned = false ∧ e = .indeterminate .fileSyncAll ∧
          auth'.store.poisoned = true ∧ ∃ answer, m.CallStep sha256 call answer m')) := by
  obtain ⟨m, -, hStands, -⟩ := hCreated.reaches hReads hBefore
  have hAsked := hStands.withAnswers answers
  cases hAsked with
  | poisoned hPoisoned hRecovers =>
    rw [run_refuses hPoisoned] at hRun
    cases hRun
    refine ⟨_, _, hStands, hStands.withAnswers answers, .inl ⟨hPoisoned, rfl, rfl, rfl, rfl⟩⟩
  | @live _ _ physical a hLive =>
    have hAlive : auth.store.poisoned = false := hLive.recoverable.unpoisoned
    obtain ⟨s', b, hServed⟩ := hLive.run hReads call hFits
    cases hServed.error hRun with
    | unchanged hError hAfter hStore =>
      obtain ⟨physical', hLive'⟩ := hAfter
      obtain ⟨content, hStore⟩ := hStore
      have hStands' := Stands.live hLive'
      rw [hStore, view_onContent] at hStands'
      have hAlive' : auth'.store.poisoned = false := hLive'.recoverable.unpoisoned
      exact ⟨_, _, hStands, hStands',
        .inr (.inl ⟨hAlive, hError, hAlive', ⟨content, hStore⟩, rfl⟩)⟩
    | manifest hPoisoned hView hRecovers =>
      exact ⟨_, _, hStands, .poisoned hPoisoned hRecovers,
        .inr (.inr (.inl ⟨hAlive, rfl, hPoisoned, hView⟩))⟩
    | log hPoisoned hAnswer hRecovers =>
      exact ⟨_, _, hStands, .poisoned hPoisoned hRecovers,
        .inr (.inr (.inr ⟨hAlive, rfl, hPoisoned, hAnswer⟩))⟩

theorem failed_calls_say_what_changed_sample :
    ∃ m m', Stands sampleHistorySha256 ⟨some spliceRun.2.2, thirdFiles⟩ m ∧
      Stands sampleHistorySha256 ⟨some unsyncedRun.2.2, fourthFiles⟩ m' ∧
      ((spliceRun.2.2.store.poisoned = true ∧
          DurableError.indeterminate .fileSyncAll = .recoveryRequired ∧ unsyncedRun.1 = [] ∧
          unsyncedRun.2.2 = { spliceRun.2.2 with answers := [.done, .done, .refused 0] } ∧
          m' = m) ∨
        (spliceRun.2.2.store.poisoned = false ∧
          ((∃ error, DurableError.indeterminate .fileSyncAll = .rejected error) ∨
            DurableError.indeterminate .fileSyncAll = .recoveryRequired) ∧
          unsyncedRun.2.2.store.poisoned = false ∧
          (∃ content, unsyncedRun.2.2.store = spliceRun.2.2.store.onContent content) ∧ m' = m) ∨
        (spliceRun.2.2.store.poisoned = false ∧
          DurableError.indeterminate .fileSyncAll = .indeterminate .directorySync ∧
          unsyncedRun.2.2.store.poisoned = true ∧ m' = m) ∨
        (spliceRun.2.2.store.poisoned = false ∧
          DurableError.indeterminate .fileSyncAll = .indeterminate .fileSyncAll ∧
          unsyncedRun.2.2.store.poisoned = true ∧
          ∃ answer, m.CallStep sampleHistorySha256 sampleCreation answer m')) := by
  obtain ⟨-, -, -, -, -, -, -, -, hUnsynced, -⟩ := sample_runs
  have hFits : sampleCreation.Fits sampleHistorySha256 spliceRun.2.2.store := trivial
  exact failed_calls_say_what_changed readJson_manifest created_first traces_splice hFits _
    (run_eq hUnsynced : unsyncedRun = _)

/-! ## Seals and collections -/

/-- A seal and a collection leave the answers of all queries as they are, also when they fail
without poisoning the authority, and wherever one of them is interrupted, the directory opens with
the same answers. -/
theorem maintenance_is_invisible (hReads : ReadsManifests fromSlice)
    {before : List AuthorityEvent} (hCreated : Created sha256 fromSlice sys)
    (hBefore : Traces (AuthorityStep sha256 fromSlice) sys before ⟨some auth, files⟩)
    (hAlive : auth.store.poisoned = false) {call : AuthorityCall}
    (hCall : ∀ operation, call ≠ .mutate operation) (answers : List StepAnswer)
    {steps : List (FileStep HistoryFile)} {result : Except DurableError (Option Answer)}
    {auth' : WritableHistoryAuthority} {image : HistoryFiles}
    (hRun : call.run sha256 fromSlice { auth with answers } files = (steps, result, auth'))
    (hCut : Interrupted files steps image) :
    ∃ m, Serves sha256 auth.store m ∧
      (∀ answer, result = .ok answer → auth'.store.poisoned = false) ∧
      (auth'.store.poisoned = false → Serves sha256 auth'.store m) ∧
      ∃ opening opened, WritableHistoryAuthority.open sha256 fromSlice () image =
        (opening, .ok opened, ()) ∧ opened.store.poisoned = false ∧
          Serves sha256 opened.store m := by
  obtain ⟨m, -, hStands, -⟩ := hCreated.reaches hReads hBefore
  have hFits : call.Fits sha256 ({ auth with answers } : WritableHistoryAuthority).store := by
    cases call with
    | mutate operation => exact absurd rfl (hCall operation)
    | sealWithSync => exact trivial
    | gcWithSync entries => exact trivial
  have hAsked := hStands.withAnswers answers
  refine ⟨m, hStands.serves hAlive, ?_, ?_, ?_⟩
  · intro answer hOk
    rw [hOk] at hRun
    obtain ⟨physical, a, hLive, -⟩ := hAsked.alive hAlive
    obtain ⟨s', b, hServed⟩ := hLive.run hReads call hFits
    obtain ⟨-, ⟨physical', hLive'⟩, -⟩ := hServed.ok hRun
    exact hLive'.recoverable.unpoisoned
  · intro hAlive'
    cases result with
    | ok answer =>
      obtain ⟨m', hEvent, hStands'⟩ := hAsked.answered hReads hFits hRun
      rw [hEvent.maintenance hCall (.inl ⟨answer, rfl⟩)] at hStands'
      exact hStands'.serves hAlive'
    | error e =>
      obtain ⟨m', hEvent, hStands'⟩ := hAsked.failed hReads hFits hRun
      rw [hEvent.maintenance hCall (.inr (.inl ⟨e, rfl⟩))] at hStands'
      exact hStands'.serves hAlive'
  · obtain ⟨m', hEvent, hStands'⟩ := hAsked.interrupted hReads hFits hRun hCut
    rw [hEvent.maintenance hCall (.inr (.inr rfl))] at hStands'
    obtain ⟨opening, opened, hOpen, hOpened, hAgain⟩ := hStands'.reopens hReads
    exact ⟨opening, opened, hOpen, hOpened, hAgain.serves hOpened⟩

theorem maintenance_is_invisible_sample : 12 < sealRun.1.length ∧
    ∃ m, Serves sampleHistorySha256 spliceRun.2.2.store m ∧
      (∀ answer, sealRun.2.1 = .ok answer → sealRun.2.2.store.poisoned = false) ∧
      (sealRun.2.2.store.poisoned = false → Serves sampleHistorySha256 sealRun.2.2.store m) ∧
      ∃ opening opened, WritableHistoryAuthority.open sampleHistorySha256 readJson ()
          (applyAll thirdFiles (sealRun.1.take 12)) = (opening, .ok opened, ()) ∧
        opened.store.poisoned = false ∧ Serves sampleHistorySha256 opened.store m := by
  obtain ⟨-, -, -, -, -, -, -, -, -, -, -, -, hLong, -⟩ := sample_runs
  have hRun : sealRun = (sealRun.1, sealRun.2.1, sealRun.2.2) := run_eq rfl
  have hCall : ∀ operation, AuthorityCall.sealWithSync ≠ .mutate operation := nofun
  exact ⟨hLong, maintenance_is_invisible readJson_manifest created_first traces_splice alive_splice
    hCall _ hRun (.take thirdFiles sealRun.1 12)⟩

/-- The content files behind a collection hold the nodes and the bytes the retained versions reach,
each once, and nothing else. -/
theorem collections_hold_retained (hReads : ReadsManifests fromSlice)
    {before : List AuthorityEvent} (hCreated : Created sha256 fromSlice sys)
    (hBefore : Traces (AuthorityStep sha256 fromSlice) sys before ⟨some auth, files⟩)
    (hAlive : auth.store.poisoned = false) {entries : List HistoryFile} (answers : List StepAnswer)
    {steps : List (FileStep HistoryFile)} {summary : GcSummary} {auth' : WritableHistoryAuthority}
    (hRun : WritableHistoryAuthority.gcWithSync sha256 fromSlice entries { auth with answers }
      files = (steps, .ok summary, auth')) :
    ∃ physical a b, Live sha256 auth files physical a ∧
      Live sha256 auth' (applyAll files steps) (physical + 1) b ∧
      auth'.store.view b = auth.store.view a ∧ HoldsRetained sha256 auth.store a b ∧
      applyAll files steps (.payload (physical + 1)) =
        some (encodeHeader physicalPayloadMagic (physical + 1) ++ b.payload) ∧
      applyAll files steps (.nodes (physical + 1)) =
        some (encodeHeader physicalNodeMagic (physical + 1) ++ recordBytes (records b)) := by
  obtain ⟨m, -, hStands, -⟩ := hCreated.reaches hReads hBefore
  obtain ⟨physical, a, hLive, -⟩ := hStands.alive hAlive
  have hAsked : Live sha256 { auth with answers } files physical a := hLive.onward ⟨answers, rfl⟩
  obtain ⟨s', b, hView, hServed⟩ := hAsked.collect hReads entries
  obtain ⟨⟨hHolds, hBackend, -, -⟩, ⟨physical', hLive'⟩, rfl⟩ := hServed.ok hRun
  have hContent : boundContent (applyAll files steps) physical' b =
      writtenStore (physical + 1) b.payload (records b) := by
    have hBoth := hLive'.backend.symm.trans hBackend
    exact SequenceBackend.physical.inj hBoth
  have hNext : physical' = physical + 1 := congrArg PhysicalContentStore.generation hContent
  subst hNext
  exact ⟨physical, a, b, hLive, hLive', hView, hHolds,
    congrArg PhysicalContentStore.payload hContent, congrArg PhysicalContentStore.nodes hContent⟩

theorem collections_hold_retained_sample : ∃ physical a b,
    Live sampleHistorySha256 spliceRun.2.2 thirdFiles physical a ∧
      Live sampleHistorySha256 gcRun.2.2 (applyAll thirdFiles gcRun.1) (physical + 1) b ∧
      gcRun.2.2.store.view b = spliceRun.2.2.store.view a ∧
      HoldsRetained sampleHistorySha256 spliceRun.2.2.store a b ∧
      applyAll thirdFiles gcRun.1 (.payload (physical + 1)) =
        some (encodeHeader physicalPayloadMagic (physical + 1) ++ b.payload) ∧
      applyAll thirdFiles gcRun.1 (.nodes (physical + 1)) =
        some (encodeHeader physicalNodeMagic (physical + 1) ++ recordBytes (records b)) := by
  obtain ⟨-, -, -, -, -, -, -, -, -, -, -, -, -, hOk⟩ := sample_runs
  exact collections_hold_retained readJson_manifest created_first traces_splice alive_splice _
    (run_eq hOk : gcRun = _)

end Guarantees

end TulyaStore.History
