import TulyaStore.History.ContentCommit

/-!
# Committing a record

A mutation is a record at the end of the hot log. The log is cut at its tail, the frame is written
there and synced, and then the store takes the step of the record. Wherever this stops, the
directory recovers to the store before the step or to the one behind it; a refused write leaves the
records as they were, and a refused sync poisons the authority with the record in the log
(`Live.commitRecord`).
-/

namespace TulyaStore.History

open Lib FileM Sequence V2AvlSequence PersistentHistoryStore

section Standing

variable (sha256 : Bytes → Digest)

/-- The handle of the hot log stands over its file. -/
structure HotOver (files : HistoryFiles) (generation : Nat) (hot : DurableHistoryLog) : Prop where
  file : files (.hot generation) = some hot.file
  tail : ∃ records, decodeHistoryLog sha256 hot.file = .ok (records, hot.tail)

/-- The authority stands over the directory: its store is what the directory recovers to. -/
structure Live (auth : WritableHistoryAuthority) (files : HistoryFiles) (physical : Nat)
    (a : V2AvlSequence) : Prop where
  recoverable : Recoverable sha256 files auth.generation physical auth.store a
  backend : auth.store.backend = .physical (boundContent files physical a)
  hot : HotOver sha256 files auth.generation auth.hot

end Standing

variable {sha256 : Bytes → Digest} {files : HistoryFiles} {generation physical : Nat}
  {s s' : PersistentHistoryStore} {a b : V2AvlSequence} {hot : DurableHistoryLog}

theorem Onward.store {auth auth' : WritableHistoryAuthority} (h : Onward auth auth') :
    auth'.store = auth.store := by
  obtain ⟨left, rfl⟩ := h
  rfl

theorem Live.onward {auth auth' : WritableHistoryAuthority}
    (h : Live sha256 auth files physical a) (hOnward : Onward auth auth') :
    Live sha256 auth' files physical a := by
  obtain ⟨left, rfl⟩ := hOnward
  exact ⟨h.recoverable, h.backend, h.hot⟩

theorem Live.overArena {auth : WritableHistoryAuthority} (h : Live sha256 auth files physical a) :
    OverArena sha256 auth.store (boundContent files physical a) a :=
  h.recoverable.overArena h.backend rfl

/-! ## Other logs -/

section Logs

/-- The log behind a handle, as recovery finds it. -/
theorem Recoverable.openLog (h : Recoverable sha256 files generation physical s a)
    (hHot : HotOver sha256 files generation hot) :
    ∃ base baseArena records, BaseIn sha256 files generation physical base baseArena ∧
      HoldsLog sha256 hot.file records hot.tail ∧
      Replays sha256 physical base baseArena records s a := by
  obtain ⟨base, baseArena, file, records, tail, hBase, hFile, hLog, hReplays⟩ := h.log
  obtain ⟨found, hDecode⟩ := hHot.tail
  have hSame := hHot.file
  rw [hFile] at hSame
  cases hSame
  rw [hLog.decode] at hDecode
  cases hDecode
  exact ⟨base, baseArena, records, hBase, hLog, hReplays⟩

theorem hot_ne_manifest (generation : Nat) : HistoryFile.manifest ≠ .hot generation := by
  intro hSame
  cases hSame

theorem hot_ne_snapshot (generation : Nat) : HistoryFile.snapshot generation ≠ .hot generation := by
  intro hSame
  cases hSame

theorem hot_ne_payload (generation : Nat) : HistoryFile.payload physical ≠ .hot generation := by
  intro hSame
  cases hSame

theorem hot_ne_nodes (generation : Nat) : HistoryFile.nodes physical ≠ .hot generation := by
  intro hSame
  cases hSame

theorem BaseIn.withHot {base : PersistentHistoryStore}
    (h : BaseIn sha256 files generation physical base a) (file : Bytes) :
    BaseIn sha256 (setFile files (.hot generation) (some file)) generation physical base a :=
  h.frame (setFile_of_ne (hot_ne_manifest _)) (setFile_of_ne (hot_ne_snapshot _))

/-- The directory with another file of the same records. -/
theorem Recoverable.withLog (h : Recoverable sha256 files generation physical s a)
    (hHot : HotOver sha256 files generation hot) {file : Bytes} {tail : Nat}
    (hFile : ∀ records, HoldsLog sha256 hot.file records hot.tail →
      HoldsLog sha256 file records tail) :
    Recoverable sha256 (setFile files (.hot generation) (some file)) generation physical s a := by
  obtain ⟨base, baseArena, records, hBase, hLog, hReplays⟩ := h.openLog hHot
  refine { h with
    holds := ?_
    log := ⟨base, baseArena, file, records, tail, hBase.withHot file, setFile_self _ _ _,
      hFile records hLog, hReplays⟩ }
  rw [setFile_of_ne (hot_ne_payload _), setFile_of_ne (hot_ne_nodes _)]
  exact h.holds

/-- The directory with one more record in its log. -/
theorem Recoverable.logged (h : Recoverable sha256 files generation physical s a)
    (hHot : HotOver sha256 files generation hot) {record : HistoryLogRecord}
    (hLogged : Logged sha256 physical s a record s' b) (hTiled : Tiled b)
    (hHolds : HoldsArena (files (.payload physical)) (files (.nodes physical)) physical b)
    {file : Bytes} {tail : Nat}
    (hFile : ∀ records, HoldsLog sha256 hot.file records hot.tail →
      HoldsLog sha256 file (records ++ [record]) tail) :
    Recoverable sha256 (setFile files (.hot generation) (some file)) generation physical s' b := by
  obtain ⟨base, baseArena, records, hBase, hLog, hReplays⟩ := h.openLog hHot
  refine {
    inv := h.inv.transition hLogged.transition
    unpoisoned := hLogged.unpoisoned
    physicalLimit := h.physicalLimit
    wellFormed := hLogged.wellFormed
    addressable := hLogged.addressable
    tiled := hTiled
    roots := hLogged.roots
    holds := ?_
    log := ⟨base, baseArena, file, records ++ [record], tail, hBase.withHot file,
      setFile_self _ _ _, hFile records hLog, hReplays.next hLogged⟩ }
  rw [setFile_of_ne (hot_ne_payload _), setFile_of_ne (hot_ne_nodes _)]
  exact hHolds

end Logs

/-! ## The append -/

section Append

variable {auth : WritableHistoryAuthority} {record : HistoryLogRecord} {frame : Bytes}

theorem recordFrame_eq_ok : recordFrame sha256 record = .ok frame ↔
    ∃ body, encodeHistoryLogRecord record = .ok body ∧
      encodeHistoryLogFrame sha256 body = .ok frame := by
  simp only [recordFrame, rejecting, mapErr_eq_ok, bind_eq_ok]

/-- The log cut at its tail. -/
def DurableHistoryLog.cutTail (hot : DurableHistoryLog) : DurableHistoryLog :=
  { hot with file := hot.file.take hot.tail }

theorem HotOver.cutTail (hHot : HotOver sha256 files generation hot)
    (h : Recoverable sha256 files generation physical s a) :
    (FileStep.setLen (.hot generation) hot.tail).apply files =
        setFile files (.hot generation) (some hot.cutTail.file) ∧
      hot.cutTail.file.length = hot.tail ∧
      HotOver sha256 (setFile files (.hot generation) (some hot.cutTail.file)) generation
        hot.cutTail := by
  obtain ⟨base, baseArena, records, -, hLog, -⟩ := h.openLog hHot
  have hLe := hLog.tail_le
  refine ⟨?_, ?_, ⟨setFile_self _ _ _, records, hLog.cut.decode⟩⟩
  · rw [FileStep.apply, hHot.file, Option.map_some, resized, Nat.sub_eq_zero_of_le hLe,
      List.replicate_zero, List.append_nil]
    rfl
  · rw [DurableHistoryLog.cutTail, List.length_take, Nat.min_eq_left hLe]

/-- The log with a frame at its tail. -/
def DurableHistoryLog.withFrame (hot : DurableHistoryLog) (frame : Bytes) : DurableHistoryLog :=
  ⟨hot.cutTail.file ++ frame, hot.tail + frame.length⟩

theorem DurableHistoryLog.appendFrame_of_room (hRoom : hot.tail + frame.length < width 64) :
    hot.appendFrame frame = some (hot.withFrame frame) := by
  rw [appendFrame, checkedAdd_of_lt hRoom]
  rfl

theorem DurableHistoryLog.appendFrame_full (hFull : ¬ hot.tail + frame.length < width 64) :
    hot.appendFrame frame = none := by
  have hNone : checkedAdd 64 hot.tail frame.length = none := if_neg hFull
  rw [appendFrame, hNone]
  rfl

/-- A write at the end of the log that was cut. -/
theorem apply_append (hCut : hot.cutTail.file.length = hot.tail) (bytes : Bytes) :
    (FileStep.write (.hot generation) hot.tail bytes).apply
        (setFile files (.hot generation) (some hot.cutTail.file)) =
      setFile files (.hot generation) (some (hot.cutTail.file ++ bytes)) := by
  rw [← hCut, FileStep.apply_write_end (setFile_self _ _ _), setFile_setFile]

/-- The log behind a write that was refused: the records are the same. -/
structure StillLogged (sha256 : Bytes → Digest) (files : HistoryFiles) (generation physical : Nat)
    (s : PersistentHistoryStore) (a : V2AvlSequence) (tail : Nat) (file : Bytes)
    (image : HistoryFiles) : Prop where
  same : image = setFile files (.hot generation) (some file)
  hot : HotOver sha256 image generation ⟨file, tail⟩
  recoverable : Recoverable sha256 image generation physical s a

theorem HotOver.stillLogged (hHot : HotOver sha256 files generation hot)
    (h : Recoverable sha256 files generation physical s a) :
    StillLogged sha256 files generation physical s a hot.tail hot.file files where
  same := (setFile_same hHot.file).symm
  hot := hHot
  recoverable := h

/-- A log whose records are those of the old one. -/
theorem Recoverable.stillLogged (h : Recoverable sha256 files generation physical s a)
    (hHot : HotOver sha256 files generation hot) {file : Bytes}
    (hFile : ∀ records, HoldsLog sha256 hot.file records hot.tail →
      HoldsLog sha256 file records hot.tail) :
    StillLogged sha256 files generation physical s a hot.tail file
      (setFile files (.hot generation) (some file)) where
  same := rfl
  hot := by
    obtain ⟨-, -, records, -, hLog, -⟩ := h.openLog hHot
    exact ⟨setFile_self _ _ _, records, (hFile records hLog).decode⟩
  recoverable := h.withLog hHot hFile

/-- A handle that looks at its file again. -/
theorem rereadHot_run {file : Bytes} (hFile : files (.hot auth.generation) = some file) :
    rereadHot auth files = ([], .ok (), { auth with hot := ⟨file, auth.hot.tail⟩ }) := by
  have hRead : (files (.hot auth.generation)).getD auth.hot.file = file := by
    rw [hFile, Option.getD_some]
  refine (FileM.bind_run_quiet FileM.readDir_run).trans ?_
  exact hRead ▸ FileM.modify_run _

/-- A single step that may be refused; a refusal leaves the directory as it was. -/
theorem refusedWith_step {P : HistoryFiles → Prop} {step : FileStep HistoryFile} {e : DurableError}
    (hAtomic : ∀ image, ¬ step.Torn files image) (hStart : P files)
    (hDone : P (step.apply files)) :
    CrashSafe P (refusedWith e (FileM.step step)) auth files
      (fun _ auth' fs => Onward auth auth' ∧ fs = step.apply files)
      (fun e' auth' fs => e' = e ∧ Onward auth auth' ∧ fs = files) := by
  refine (CrashSafe.stepRefusable step hAtomic hStart hDone fun _ => e).mono_error ?_
  intro e' auth' fs hError
  rcases hError with ⟨⟨_, rfl⟩, hOnward, rfl⟩
  exact ⟨rfl, hOnward, rfl⟩

/-- The append in front of its handler. -/
theorem Recoverable.appendFrame (auth : WritableHistoryAuthority)
    (h : Recoverable sha256 files auth.generation physical s a)
    (hHot : HotOver sha256 files auth.generation auth.hot)
    (hLogged : Logged sha256 physical s a record s' b) (hTiled : Tiled b)
    (hHolds : HoldsArena (files (.payload physical)) (files (.nodes physical)) physical b)
    (hFrame : recordFrame sha256 record = .ok frame) :
    CrashSafe (fun image => Recoverable sha256 image auth.generation physical s a ∨
        Recoverable sha256 image auth.generation physical s' b)
      (do
        let auth ← get
        refusedWith appendRejected (FileM.step (.setLen (.hot auth.generation) auth.hot.tail))
        let hot ← FileM.attempt (okOr (auth.hot.appendFrame frame) appendRejected)
        refusedWith appendRejected (FileM.step (.write (.hot auth.generation) auth.hot.tail frame))
        modify fun auth => { auth with hot } : AuthorityM Unit) auth files
      (fun _ auth' fs => ∃ next left, auth' = { auth with hot := next, answers := left } ∧
        fs = setFile files (.hot auth.generation) (some next.file) ∧
        HotOver sha256 fs auth.generation next ∧
        Recoverable sha256 fs auth.generation physical s' b)
      (fun e auth' fs => e = appendRejected ∧ Onward auth auth' ∧ ∃ file,
        StillLogged sha256 files auth.generation physical s a auth.hot.tail file fs) := by
  obtain ⟨hCutApply, hCutLen, -⟩ := hHot.cutTail h
  have hCut := h.stillLogged hHot fun records hLog => HoldsLog.cut hLog
  refine CrashSafe.bind_quiet FileM.get_run ?_
  have hShorten : CrashSafe (fun image =>
      Recoverable sha256 image auth.generation physical s a ∨
        Recoverable sha256 image auth.generation physical s' b)
      (refusedWith appendRejected (FileM.step (.setLen (.hot auth.generation) auth.hot.tail))) auth
      files _ _ :=
    refusedWith_step (fun _ hTorn => hTorn) (.inl h)
      (by rw [hCutApply]; exact .inl hCut.recoverable)
  refine CrashSafe.bind (hShorten.mono_error ?_) ?_
  · intro e auth' fs hError
    rcases hError with ⟨rfl, hOnward, rfl⟩
    exact ⟨rfl, hOnward, _, hHot.stillLogged h⟩
  intro _ auth' fs hOk
  rcases hOk with ⟨⟨left, rfl⟩, rfl⟩
  rw [hCutApply]
  by_cases hRoom : auth.hot.tail + frame.length < width 64
  · obtain ⟨body, hBody, hEncode⟩ := recordFrame_eq_ok.mp hFrame
    obtain ⟨-, rfl⟩ := encodeHistoryLogFrame_eq_ok.mp hEncode
    have hBeginning : ∀ k < (frameBytes sha256 body).length,
        StillLogged sha256 files auth.generation physical s a auth.hot.tail
          (auth.hot.cutTail.file ++ (frameBytes sha256 body).take k)
          (setFile files (.hot auth.generation)
            (some (auth.hot.cutTail.file ++ (frameBytes sha256 body).take k))) := fun k hk =>
      h.stillLogged hHot fun records hLog => hLog.cut.append_beginning hCutLen hk hRoom
    have hFull : ∀ records, HoldsLog sha256 auth.hot.file records auth.hot.tail →
        HoldsLog sha256 (auth.hot.withFrame (frameBytes sha256 body)).file (records ++ [record])
          (auth.hot.withFrame (frameBytes sha256 body)).tail := fun records hLog =>
      hLog.cut.append hCutLen hLogged.fits hBody hRoom
    have hWritten := h.logged hHot hLogged hTiled hHolds hFull
    have hApply : ∀ bytes : Bytes, (FileStep.write (.hot auth.generation) auth.hot.tail bytes).apply
        (setFile files (.hot auth.generation) (some auth.hot.cutTail.file)) =
          setFile files (.hot auth.generation) (some (auth.hot.cutTail.file ++ bytes)) :=
      apply_append hCutLen
    have hAlong : AlongSteps (fun image =>
        Recoverable sha256 image auth.generation physical s a ∨
          Recoverable sha256 image auth.generation physical s' b)
        (setFile files (.hot auth.generation) (some auth.hot.cutTail.file))
        [.write (.hot auth.generation) auth.hot.tail (frameBytes sha256 body)] := by
      refine ⟨.inl hCut.recoverable, ?_, ?_⟩
      · intro image hImage
        rcases hImage with ⟨k, hk, rfl⟩
        rw [hApply]
        exact .inl (hBeginning k hk).recoverable
      · rw [hApply]
        exact .inr hWritten
    refine CrashSafe.bind_quiet (by
      rw [DurableHistoryLog.appendFrame_of_room hRoom, okOr_some]
      exact FileM.attempt_run _) ?_
    refine CrashSafe.bind ((CrashSafe.refusable (FileM.step_run _) hAlong
      fun _ => appendRejected).mono_error ?_) ?_
    · intro e auth' fs hError
      rcases hError with ⟨⟨_, rfl⟩, hOnward, hRefused⟩
      refine ⟨rfl, Onward.trans ⟨left, rfl⟩ hOnward, ?_⟩
      rcases hRefused.of_single with rfl | ⟨k, hk, rfl⟩
      · exact ⟨_, hCut⟩
      · rw [hApply]
        exact ⟨_, hBeginning k hk⟩
    · intro _ auth' fs hOk
      rcases hOk with ⟨-, ⟨left', rfl⟩, rfl⟩
      obtain ⟨-, -, records, -, hLog, -⟩ := h.openLog hHot
      have hEnd : applyAll (setFile files (.hot auth.generation) (some auth.hot.cutTail.file))
          [.write (.hot auth.generation) auth.hot.tail (frameBytes sha256 body)] =
          setFile files (.hot auth.generation)
            (some (auth.hot.withFrame (frameBytes sha256 body)).file) := hApply _
      rw [hEnd]
      refine .of_quiet (FileM.modify_run _) (.inr hWritten) ⟨_, left', rfl, rfl, ?_, hWritten⟩
      exact ⟨setFile_self _ _ _, _, (hFull records hLog).decode⟩
  · refine CrashSafe.bind_stop (by
      rw [DurableHistoryLog.appendFrame_full hRoom]
      exact FileM.attempt_run _) (.inl hCut.recoverable) ?_
    exact ⟨rfl, ⟨left, rfl⟩, _, hCut⟩

/-- An append puts the record into the log, or leaves the records as they are. -/
theorem Recoverable.appendHot (auth : WritableHistoryAuthority)
    (h : Recoverable sha256 files auth.generation physical s a)
    (hHot : HotOver sha256 files auth.generation auth.hot)
    (hLogged : Logged sha256 physical s a record s' b) (hTiled : Tiled b)
    (hHolds : HoldsArena (files (.payload physical)) (files (.nodes physical)) physical b)
    (hFrame : recordFrame sha256 record = .ok frame) :
    CrashSafe (fun image => Recoverable sha256 image auth.generation physical s a ∨
        Recoverable sha256 image auth.generation physical s' b) (appendHot frame) auth files
      (fun _ auth' fs => ∃ next left, auth' = { auth with hot := next, answers := left } ∧
        fs = setFile files (.hot auth.generation) (some next.file) ∧
        HotOver sha256 fs auth.generation next ∧
        Recoverable sha256 fs auth.generation physical s' b)
      (fun e auth' fs => ∃ next left, auth' = { auth with hot := next, answers := left } ∧
        e = appendRejected ∧ fs = setFile files (.hot auth.generation) (some next.file) ∧
        HotOver sha256 fs auth.generation next ∧
        Recoverable sha256 fs auth.generation physical s a) := by
  unfold History.appendHot
  refine CrashSafe.catching (h.appendFrame auth hHot hLogged hTiled hHolds hFrame) ?_
  intro e auth' fs hError
  rcases hError with ⟨rfl, ⟨left, rfl⟩, file, hStill⟩
  refine CrashSafe.bind_quiet (rereadHot_run hStill.hot.file) ?_
  refine .throw (.inl hStill.recoverable) ⟨⟨file, auth.hot.tail⟩, left, rfl, rfl, hStill.same, ?_⟩
  exact ⟨hStill.hot, hStill.recoverable⟩

/-- A sync changes no file; when it is refused, the authority is poisoned. -/
theorem syncOrPoison_safe {P : HistoryFiles → Prop} (hStart : P files)
    (operation : DurabilityOperation) (sync : FileStep HistoryFile)
    (hAtomic : ∀ image, ¬ sync.Torn files image) (hSame : sync.apply files = files) :
    CrashSafe P (syncOrPoison operation sync) auth files
      (fun _ auth' fs => Onward auth auth' ∧ fs = files)
      (fun e auth' fs => e = .indeterminate operation ∧ fs = files ∧
        auth'.store = auth.store.setPoisoned) := by
  unfold syncOrPoison
  refine CrashSafe.catching ((refusedWith_step hAtomic hStart (hSame.symm ▸ hStart)).mono_ok ?_) ?_
  · intro _ auth' fs hOk
    rcases hOk with ⟨hOnward, rfl⟩
    exact ⟨hOnward, hSame⟩
  · intro e auth' fs hError
    rcases hError with ⟨rfl, ⟨left, rfl⟩, rfl⟩
    refine CrashSafe.bind_quiet (FileM.modify_run _) ?_
    exact .throw hStart ⟨rfl, rfl, rfl⟩

/-- The directory before the record, the directory behind it, or the step between them. A refused
sync leaves the record in the log and poisons the authority. -/
theorem Recoverable.writeAndSync (auth : WritableHistoryAuthority)
    (h : Recoverable sha256 files auth.generation physical s a)
    (hHot : HotOver sha256 files auth.generation auth.hot)
    (hLogged : Logged sha256 physical s a record s' b) (hTiled : Tiled b)
    (hHolds : HoldsArena (files (.payload physical)) (files (.nodes physical)) physical b)
    (hFrame : recordFrame sha256 record = .ok frame) :
    CrashSafe (fun image => Recoverable sha256 image auth.generation physical s a ∨
        Recoverable sha256 image auth.generation physical s' b) (writeAndSync frame) auth files
      (fun _ auth' fs => ∃ next left, auth' = { auth with hot := next, answers := left } ∧
        fs = setFile files (.hot auth.generation) (some next.file) ∧
        HotOver sha256 fs auth.generation next ∧
        Recoverable sha256 fs auth.generation physical s' b)
      (fun e auth' fs => (∃ next left, auth' = { auth with hot := next, answers := left } ∧
        e = appendRejected ∧ fs = setFile files (.hot auth.generation) (some next.file) ∧
        HotOver sha256 fs auth.generation next ∧
        Recoverable sha256 fs auth.generation physical s a) ∨
        (e = .indeterminate .fileSyncAll ∧ auth'.store = auth.store.setPoisoned ∧
          Recoverable sha256 fs auth.generation physical s' b)) := by
  refine CrashSafe.bind ((h.appendHot auth hHot hLogged hTiled hHolds hFrame).mono_error
    fun _ _ _ hE => .inl hE) ?_
  intro _ auth' fs hOk
  rcases hOk with ⟨next, left, rfl, rfl, hOver, hRecoverable⟩
  refine CrashSafe.bind_quiet FileM.get_run ?_
  refine (syncOrPoison_safe (.inr hRecoverable) .fileSyncAll (.sync (.hot auth.generation))
    (fun _ hTorn => hTorn) rfl).mono_outcomes ?_ ?_
  · intro _ auth' fs hOk
    rcases hOk with ⟨⟨left', rfl⟩, rfl⟩
    exact ⟨next, left', rfl, rfl, hOver, hRecoverable⟩
  · intro e auth' fs hError
    rcases hError with ⟨rfl, rfl, hStore⟩
    exact .inr ⟨rfl, hStore, hRecoverable⟩

end Append

/-! ## The commit -/

section Commit

variable {auth : WritableHistoryAuthority} {record : HistoryLogRecord} {α : Type}

theorem boundContent_setHot (file : Option Bytes) :
    boundContent (setFile files (.hot generation) file) physical a =
      boundContent files physical a := by
  rw [boundContent, setFile_of_ne (hot_ne_payload _), setFile_of_ne (hot_ne_nodes _)]
  rfl

theorem recordFrame_rejects {e : DurableError} (h : recordFrame sha256 record = .error e) :
    ∃ error, e = .rejected error := by
  unfold recordFrame rejecting at h
  rw [mapErr_eq_error] at h
  obtain ⟨error, -, rfl⟩ := h
  exact ⟨error, rfl⟩

/-- A record and its step: the directory recovers to the store in front or to the one behind. -/
theorem Live.commitRecord (h : Live sha256 auth files physical a)
    (hLogged : Logged sha256 physical auth.store a record s' b) (hTiled : Tiled b)
    (hHolds : HoldsArena (files (.payload physical)) (files (.nodes physical)) physical b)
    (hBackend : s'.backend = .physical (boundContent files physical b))
    {x : EStateM HistoryError PersistentHistoryStore α} {r : α}
    (hStep : x auth.store = .ok r s') :
    CrashSafe (fun image => Recoverable sha256 image auth.generation physical auth.store a ∨
        Recoverable sha256 image auth.generation physical s' b)
      (do
        let frame ← FileM.attempt (recordFrame sha256 record)
        writeAndSync frame
        applyAfterBarrier x) auth files
      (fun result auth' fs => result = r ∧ Live sha256 auth' fs physical b ∧ auth'.store = s')
      (fun e auth' fs => ((∃ error, e = .rejected error) ∧ Live sha256 auth' fs physical a ∧
          auth'.store = auth.store) ∨
        (e = .indeterminate .fileSyncAll ∧ auth'.store.poisoned = true ∧
          Recoverable sha256 fs auth.generation physical s' b)) := by
  cases hFrame : recordFrame sha256 record with
  | error e =>
    refine .bind_stop (FileM.attempt_run _) (.inl h.recoverable) ?_
    exact .inl ⟨recordFrame_rejects hFrame, h, rfl⟩
  | ok frame =>
    refine .bind_quiet (FileM.attempt_run _) ?_
    have hWrite := h.recoverable.writeAndSync _ h.hot hLogged hTiled hHolds hFrame
    refine .bind (hWrite.mono_error ?_) ?_
    · intro e auth' fs hError
      rcases hError with ⟨next, left, rfl, rfl, rfl, hOver, hRecoverable⟩ |
        ⟨rfl, hStore, hRecoverable⟩
      · refine .inl ⟨⟨_, rfl⟩, ⟨hRecoverable, ?_, hOver⟩, rfl⟩
        rw [boundContent_setHot]
        exact h.backend
      · exact .inr ⟨rfl, by rw [hStore]; rfl, hRecoverable⟩
    · intro _ auth' fs hOk
      rcases hOk with ⟨next, left, rfl, rfl, hOver, hRecoverable⟩
      have hApply : applyAfterBarrier x { auth with hot := next, answers := left }
          (setFile files (.hot auth.generation) (some next.file)) =
            ([], .ok r, { auth with hot := next, answers := left, store := s' }) := by
        unfold applyAfterBarrier
        rw [hStep]
      refine .of_quiet hApply (.inr hRecoverable) ⟨rfl, ⟨hRecoverable, ?_, hOver⟩, rfl⟩
      rw [boundContent_setHot]
      exact hBackend

end Commit

end TulyaStore.History
