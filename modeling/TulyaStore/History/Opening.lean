import TulyaStore.History.Publish

/-!
# Opening for writing

The opening of a directory that recovers to a store gives a live authority with this store: orphan
content behind the frontier is cut, and nothing else changes (`Recoverable.reopens`). In a blank
directory it creates the content files and the log of generation zero (`Blank.opens`).
-/

namespace TulyaStore.History

open Lib FileM Sequence V2AvlSequence PersistentHistoryStore

section Reopening

variable {sha256 : Bytes → Digest} {fromSlice : Bytes → Option JsonValue} {files : HistoryFiles}
  {generation physical : Nat} {s : PersistentHistoryStore} {a : V2AvlSequence}

/-- The heal of the content files. -/
theorem Recoverable.healStore (h : Recoverable sha256 files generation physical s a) :
    CrashSafe (fun image => Recoverable sha256 image generation physical s a)
      (healStore (s.onContent (boundContent files physical a)) :
        FileM HistoryFile Unit DurableError PersistentHistoryStore) () files
      (fun store _ fs => store = s.onContent (boundContent fs physical a) ∧
        Recoverable sha256 fs generation physical s a)
      (fun _ _ _ => False) := by
  obtain ⟨steps, hRun, hEnd, hAlong⟩ := healContent_run h.holds h.addressable ()
  have hHealed := hAlong.finish
  rw [hEnd] at hHealed
  refine CrashSafe.bind (.of_run (liftContent_run hRun _)
    (hAlong.mono fun image hOnly => hOnly.recoverable h)
    (Q := fun content _ fs => content = boundContent (exactContent files physical a) physical a ∧
      fs = exactContent files physical a) ?_ (fun _ hError => by cases hError)) ?_
  · intro content hSame
    cases hSame
    exact ⟨rfl, hEnd⟩
  · intro content _ fs hOk
    rcases hOk with ⟨rfl, rfl⟩
    exact .pure (hHealed.recoverable h) ⟨rfl, hHealed.recoverable h⟩

/-- A directory that recovers to a store is opened with this store. -/
theorem Recoverable.reopens (h : Recoverable sha256 files generation physical s a)
    (hReads : ReadsManifests fromSlice) :
    CrashSafe (fun image => Recoverable sha256 image generation physical s a)
      (WritableHistoryAuthority.open sha256 fromSlice) () files
      (fun auth _ fs => Live sha256 auth fs physical a ∧ auth.generation = generation ∧
        ∃ content, auth.store = s.onContent content)
      (fun _ _ _ => False) := by
  have hLock : AlongSteps (fun image => Recoverable sha256 image generation physical s a) files
      [.create .lock] := by
    refine alongSteps_foreign (Authoritative generation physical) ?_ fun image => h.of_same
    intro step hMem name hName hTouched
    obtain rfl := List.mem_singleton.mp hMem
    obtain rfl := List.mem_singleton.mp hTouched
    rcases hName with hName | hName | hName | hName | hName <;> cases hName
  have hLocked := hLock.finish
  refine CrashSafe.bind (.step hLock
    (Q := fun _ _ fs => Recoverable sha256 fs generation physical s a)
    hLocked) ?_
  intro _ _ fs hFs
  obtain ⟨stats, hOpened⟩ := hFs.opens hReads
  refine CrashSafe.bind_quiet readDir_run ?_
  refine CrashSafe.bind_quiet (by rw [hOpened]; exact attempt_run _) ?_
  refine CrashSafe.bind hFs.healStore ?_
  intro store _ fs' hOk
  rcases hOk with ⟨rfl, hHealed⟩
  obtain ⟨base, baseArena, file, records, tail, hBase, hFile, hLog, hReplays⟩ := hHealed.log
  have hOver : HotOver sha256 fs' generation ⟨file, tail⟩ := ⟨hFile, records, hLog.decode⟩
  obtain ⟨hSame, hRun⟩ := hOver.openHot_run ()
  refine CrashSafe.bind (.of_run hRun ?_ (Q := fun hot _ fs => hot = ⟨file, tail⟩ ∧ fs = fs') ?_
    (fun _ hError => by cases hError)) ?_
  · refine alongSteps_cons_of_not_torn (fun _ hTorn => hTorn) hHealed ?_
    rw [hSame]
    exact hHealed
  · intro hot hOk
    cases hOk
    rw [applyAll_cons, applyAll_nil, hSame]
    exact ⟨rfl, rfl⟩
  intro hot _ fs'' hOk
  rcases hOk with ⟨rfl, rfl⟩
  exact .pure hHealed ⟨⟨hHealed.onContent _, rfl, hOver⟩, rfl, _, rfl⟩

end Reopening

/-! ## A blank directory -/

section Blank

/-- A directory in which no history was ever created. -/
structure Blank (files : HistoryFiles) : Prop where
  manifest : files .manifest = none
  hot : files (.hot 0) = none
  payload : files (.payload 0) = none
  nodes : files (.nodes 0) = none

variable {sha256 : Bytes → Digest} {fromSlice : Bytes → Option JsonValue} {files : HistoryFiles}

/-- The directory behind the creation of the content files. -/
def createdFiles (files : HistoryFiles) : HistoryFiles := withContent files 0 [] []

/-- The steps of a creation. -/
def createSteps : List (FileStep HistoryFile) :=
  [.create (.payload 0), .create (.nodes 0),
    .write (.payload 0) 0 (encodeHeader physicalPayloadMagic 0),
    .write (.nodes 0) 0 (encodeHeader physicalNodeMagic 0), .sync (.payload 0), .sync (.nodes 0)]

theorem Blank.lock (h : Blank files) : Blank ((FileStep.create .lock).apply files) := by
  have hOther : ∀ name : HistoryFile, name ≠ .lock →
      (FileStep.create .lock).apply files name = files name := fun name hName =>
    FileStep.apply_untouched (by simpa [FileStep.touched] using hName)
  refine ⟨?_, ?_, ?_, ?_⟩
  · rw [hOther _ (by simp), h.manifest]
  · rw [hOther _ (by simp), h.hot]
  · rw [hOther _ (by simp), h.payload]
  · rw [hOther _ (by simp), h.nodes]

/-- Nothing to load: an empty store without content files. -/
theorem Blank.load (h : Blank files) : openHistoryAuthority sha256 fromSlice files =
    .ok ⟨overContent (.openDeferred 0), 0, ⟨0, 0⟩⟩ := by
  have hManifest : readManifest fromSlice files = .ok none := by
    rw [readManifest, h.manifest]
    rfl
  have hBase : loadBase sha256 files none = .ok (overContent (.openDeferred 0)) := by
    change (failIf _ _ >>= fun _ => importPhysicalGenesis (files (.payload 0)) (files (.nodes 0))) =
      _
    rw [failIf_neg (by simp), ok_bind, h.payload, h.nodes]
    rfl
  have hSuffix : loadSuffix files none 0 = .ok [] := by
    rw [loadSuffix, h.hot]
    rfl
  rw [openHistoryAuthority, hManifest, ok_bind]
  change (loadBase sha256 files none >>= fun base => loadSuffix files none 0 >>= _) = _
  rw [hBase, ok_bind, hSuffix, ok_bind]
  rfl

theorem applyAll_createSteps (h : Blank files) :
    applyAll files createSteps = createdFiles files := by
  have hPayload := h.payload
  have hNodes := h.nodes
  funext name
  by_cases hFirst : name = .payload 0
  · subst hFirst
    simp [createSteps, createdFiles, withContent, FileStep.apply, setFile, writtenAt, resized,
      hPayload]
  · by_cases hSecond : name = .nodes 0
    · subst hSecond
      simp [createSteps, createdFiles, withContent, FileStep.apply, setFile, writtenAt, resized,
        hNodes]
    · simp [createSteps, createdFiles, withContent, FileStep.apply, setFile, hFirst, hSecond]

theorem Blank.createContent_run {σ : Type} (h : Blank files) (state : σ) :
    createContent 0 state files = (createSteps, .ok (.createNew 0), state) := by
  have hSecond : ((FileStep.create (.payload 0)).apply files) (.nodes 0) = none := by
    rw [FileStep.apply_untouched (by simp [FileStep.touched]), h.nodes]
  have hCreate : ∀ (name : HistoryFile) (fs : HistoryFiles), fs name = none →
      (createNewFile name : ContentM σ Unit) state fs = ([.create name], .ok (), state) := by
    intro name fs hNone
    refine (bind_run_quiet readDir_run).trans ?_
    rw [failIf_neg (by rw [hNone]; simp)]
    exact (bind_run_quiet (attempt_run _)).trans (step_run _)
  refine bind_run_ok (hCreate _ _ h.payload) ?_
  refine bind_run_ok (hCreate _ _ hSecond) ?_
  exact rfl

/-- The directory of generation zero with nothing in it. -/
theorem recoverable_new (sha256 : Bytes → Digest) {image : HistoryFiles}
    (hManifest : image .manifest = none)
    (hHot : image (.hot 0) = some [])
    (hHolds : HoldsArena (image (.payload 0)) (image (.nodes 0)) 0 .empty) :
    Recoverable sha256 image 0 0 .new .empty where
  inv := storeInv_new
  unpoisoned := rfl
  physicalLimit := Nat.two_pow_pos 64
  wellFormed := fun _ _ hNode => by cases hNode
  addressable := by decide
  tiled := tiled_empty
  roots := fun _ hMem => by cases hMem
  holds := hHolds
  log := ⟨.new, .empty, [], [], 0, .genesis hManifest, hHot, holdsLog_nil,
    Replays.start 0 .new .empty⟩

/-- The creation of the log behind that of the content files. -/
theorem Blank.createHot (h : Blank files) : (FileStep.create (.hot 0)).apply (createdFiles files) =
    setFile (createdFiles files) (.hot 0) (some []) := by
  have hNone : createdFiles files (.hot 0) = none := by
    rw [createdFiles, withContent_other (by simp) (by simp), h.hot]
  rw [FileStep.apply, hNone]
  rfl

/-- The first opening creates the content files and the log. -/
theorem Blank.open_run (h : Blank files) (sha256 : Bytes → Digest)
    (fromSlice : Bytes → Option JsonValue) :
    WritableHistoryAuthority.open sha256 fromSlice () files =
      ([.create .lock] ++ (createSteps ++ ([.create (.hot 0)] ++ [])),
        .ok ⟨overContent (.createNew 0), 0, ⟨0, 0⟩, ⟨[], 0⟩, []⟩, ()) := by
  have hLock := h.lock
  have hContent := applyAll_createSteps hLock
  have hHeal : (healStore (overContent (.openDeferred 0)) :
      FileM HistoryFile Unit DurableError PersistentHistoryStore) ()
        ((FileStep.create .lock).apply files) =
          (createSteps, .ok (overContent (.createNew 0)), ()) := by
    have hEnsure : (ensureContent (.openDeferred 0) : ContentM Unit PhysicalContentStore) ()
        ((FileStep.create .lock).apply files) = (createSteps, .ok (.createNew 0), ()) :=
      (bind_run_quiet (attempt_run _)).trans (hLock.createContent_run ())
    have hRun : (healContent (.openDeferred 0) : ContentM Unit PhysicalContentStore) ()
        ((FileStep.create .lock).apply files) = (createSteps, .ok (.createNew 0), ()) := by
      refine bind_run_ok hEnsure ?_
      rfl
    exact bind_run_ok (liftContent_run hRun _) rfl
  have hCreated := hLock.createHot
  have hHot : (openHot sha256 0 : FileM HistoryFile Unit DurableError DurableHistoryLog) ()
      (createdFiles ((FileStep.create .lock).apply files)) =
        ([.create (.hot 0)], .ok ⟨[], 0⟩, ()) := by
    refine bind_run_ok (step_run _) ?_
    refine (bind_run_quiet readDir_run).trans ?_
    rw [applyAll_cons, applyAll_nil, hCreated, setFile_self]
    rfl
  refine bind_run_ok (step_run _) ?_
  refine (bind_run_quiet readDir_run).trans ?_
  rw [applyAll_cons, applyAll_nil, hLock.load]
  refine (bind_run_quiet (attempt_run _)).trans ?_
  refine bind_run_ok hHeal ?_
  rw [hContent]
  exact bind_run_ok hHot rfl

/-- The directory behind the first opening holds an empty history. -/
theorem Blank.opens (h : Blank files) (sha256 : Bytes → Digest)
    (fromSlice : Bytes → Option JsonValue) :
    ∃ steps auth, WritableHistoryAuthority.open sha256 fromSlice () files = (steps, .ok auth, ()) ∧
      Live sha256 auth (applyAll files steps) 0 .empty ∧ auth.generation = 0 ∧
      ∃ content, auth.store = PersistentHistoryStore.new.onContent content := by
  have hLock := h.lock
  have hEnd : applyAll files ([.create .lock] ++ (createSteps ++ ([.create (.hot 0)] ++ []))) =
      setFile (createdFiles ((FileStep.create .lock).apply files)) (.hot 0) (some []) := by
    rw [applyAll_append, applyAll_cons, applyAll_nil, applyAll_append, applyAll_createSteps hLock,
      List.append_nil, applyAll_cons, applyAll_nil, hLock.createHot]
  have hHolds : HoldsArena
      (setFile (createdFiles ((FileStep.create .lock).apply files)) (.hot 0) (some []) (.payload 0))
      (setFile (createdFiles ((FileStep.create .lock).apply files)) (.hot 0) (some []) (.nodes 0))
      0 V2AvlSequence.empty := by
    rw [setFile_of_ne (hot_ne_payload 0), setFile_of_ne (hot_ne_nodes 0), createdFiles,
      withContent_payload, withContent_nodes]
    exact ⟨⟨[], rfl⟩, ⟨[], rfl⟩⟩
  have hManifest : setFile (createdFiles ((FileStep.create .lock).apply files)) (.hot 0) (some [])
      .manifest = none := by
    rw [setFile_of_ne (hot_ne_manifest 0), createdFiles, withContent_other (by simp) (by simp),
      hLock.manifest]
  have hRecoverable := recoverable_new sha256 hManifest (setFile_self _ _ _) hHolds
  refine ⟨_, _, h.open_run sha256 fromSlice, ?_, rfl, _, rfl⟩
  rw [hEnd]
  refine ⟨hRecoverable.onContent _, ?_, setFile_self _ _ _, [], holdsLog_nil.decode⟩
  change SequenceBackend.physical _ = SequenceBackend.physical _
  rw [boundContent, setFile_of_ne (hot_ne_payload 0), setFile_of_ne (hot_ne_nodes 0), createdFiles,
    withContent_payload, withContent_nodes]
  rfl

end Blank

end TulyaStore.History
