import TulyaStore.History.Mutations

/-!
# The publication of a generation

A seal writes the snapshot and the empty hot log of the next generation under names nothing reads
yet, and then the manifest is renamed. Up to the rename the directory recovers to the store it had;
from there on it recovers to the store of the snapshot (`Live.publishGeneration`). The seal of the
authority publishes its own store, so nothing a client sees has changed (`Live.seal`).
-/

namespace TulyaStore.History

open Lib FileM Sequence V2AvlSequence PersistentHistoryStore

/-! ## Files written under another name -/

section Renames

variable {N : Type} [DecidableEq N] {files : Files N}

theorem applyAll_writeFile (files : Files N) (name : N) (bytes : Bytes) :
    applyAll files [.createEmpty name, .write name 0 bytes, .sync name] =
      setFile files name (some bytes) := by
  have hWrite := FileStep.apply_write_end (setFile_self files name (some [])) bytes
  rw [List.length_nil, List.nil_append, setFile_setFile] at hWrite
  rw [applyAll_cons, applyAll_cons, applyAll_cons, applyAll_nil]
  exact hWrite

theorem applyAll_rename {source : N} (target : N) {bytes : Bytes}
    (hFile : files source = some bytes) :
    applyAll files [.rename source target, .syncDir] =
      setFile (setFile files source none) target (some bytes) := by
  rw [applyAll_cons, applyAll_cons, applyAll_nil]
  change FileStep.apply files (.rename source target) = _
  rw [FileStep.apply, hFile]

end Renames

/-! ## The staging of a generation -/

section Staging

variable {sha256 : Bytes → Digest} {files files' : HistoryFiles} {physical q : Nat}
  {a c : V2AvlSequence} {auth : WritableHistoryAuthority} {t : PersistentHistoryStore}

/-- The names the publication of a generation writes before the manifest. -/
def Staging (generation : Nat) (name : HistoryFile) : Prop :=
  name = .snapshotTmp generation ∨ name = .snapshot generation ∨ name = .hotTmp generation ∨
    name = .hot generation ∨ name = .manifestTmp

theorem authoritative_not_staging {generation physical : Nat} {name : HistoryFile}
    (h : Authoritative generation physical name) : ¬ Staging (generation + 1) name := by
  rcases h with rfl | rfl | rfl | rfl | rfl <;> simp [Staging]

theorem Live.of_same (h : Live sha256 auth files physical a)
    (hSame : ∀ name, Authoritative auth.generation physical name → files' name = files name) :
    Live sha256 auth files' physical a where
  recoverable := h.recoverable.of_same hSame
  backend := by
    rw [h.backend, boundContent, boundContent, hSame _ (.inr (.inr (.inr (.inl rfl)))),
      hSame _ (.inr (.inr (.inr (.inr rfl))))]
  hot := ⟨(hSame _ (.inr (.inr (.inl rfl)))).trans h.hot.file, h.hot.tail⟩

/-- A store whose content is in the files of the generation `q`. -/
structure Sealable (sha256 : Bytes → Digest) (files : HistoryFiles) (q : Nat)
    (t : PersistentHistoryStore) (c : V2AvlSequence) : Prop where
  inv : StoreInv t
  unpoisoned : t.poisoned = false
  backend : t.backend = .physical (boundContent files q c)
  limit : q < width 64
  wellFormed : WellFormed sha256 c
  addressable : Addressable c
  tiled : Tiled c
  roots : RootsIn sha256 c t
  holds : HoldsArena (files (.payload q)) (files (.nodes q)) q c

theorem Live.sealable (h : Live sha256 auth files physical a) :
    Sealable sha256 files physical auth.store a :=
  ⟨h.recoverable.inv, h.recoverable.unpoisoned, h.backend, h.recoverable.physicalLimit,
    h.recoverable.wellFormed, h.recoverable.addressable, h.recoverable.tiled, h.recoverable.roots,
    h.recoverable.holds⟩

theorem Sealable.overArena (h : Sealable sha256 files q t c) :
    OverArena sha256 t (boundContent files q c) c :=
  ⟨h.backend, h.holds.represents, h.limit, h.wellFormed, h.addressable, h.roots⟩

theorem Sealable.of_same (h : Sealable sha256 files q t c)
    (hPayload : files' (.payload q) = files (.payload q))
    (hNodes : files' (.nodes q) = files (.nodes q)) : Sealable sha256 files' q t c :=
  { h with
    backend := by rw [h.backend, boundContent, boundContent, hPayload, hNodes]
    holds := by
      rw [hPayload, hNodes]
      exact h.holds }

/-- A directory whose manifest names the snapshot recovers to the store of the snapshot. -/
theorem Sealable.recoverable (h : Sealable sha256 files q t c) {generation walEnd : Nat}
    {bytes : Bytes} (hGeneration : generation < width 64) (hEnd : walEnd < width 64)
    (hEncode : encodeHistorySnapshot sha256 t generation walEnd = .ok bytes)
    (hManifest : files .manifest =
      some (encodeHistoryManifest ⟨generation, some (.forSnapshot sha256 bytes)⟩))
    (hSnapshot : files (.snapshot generation) = some bytes)
    (hHot : files (.hot generation) = some []) :
    Recoverable sha256 files generation q t c where
  inv := h.inv
  unpoisoned := h.unpoisoned
  physicalLimit := h.limit
  wellFormed := h.wellFormed
  addressable := h.addressable
  tiled := h.tiled
  roots := h.roots
  holds := h.holds
  log := ⟨t, c, [], [], 0, .snapshot hManifest hSnapshot h.inv h.unpoisoned h.overArena hGeneration
    hEnd hEncode, hHot, holdsLog_nil, Replays.start q t c⟩

/-- The snapshot is read back as it was written. -/
theorem Sealable.decodes (h : Sealable sha256 files q t c) {generation walEnd : Nat}
    {bytes : Bytes} (hGeneration : generation < width 64) (hEnd : walEnd < width 64)
    (hEncode : encodeHistorySnapshot sha256 t generation walEnd = .ok bytes) :
    ∃ snapshot, decodeHistorySnapshot sha256 bytes = .ok snapshot := by
  obtain ⟨snapshot, hSnap, hStruct⟩ := bind_eq_ok.mp hEncode
  have hIs := isSnapshot_of_ok hSnap
  exact ⟨snapshot, decodeHistorySnapshot_encode
    (hIs.canonical h.inv h.overArena hGeneration hEnd) hStruct⟩

end Staging

/-! ## The parts of the publication -/

section Parts

variable {sha256 : Bytes → Digest} {fromSlice : Bytes → Option JsonValue} {files : HistoryFiles}
  {physical : Nat} {a : V2AvlSequence} {auth : WritableHistoryAuthority}

theorem Live.currentGeneration_run (h : Live sha256 auth files physical a)
    (hReads : ReadsManifests fromSlice) :
    currentGeneration fromSlice auth files = ([], .ok auth.generation, auth) := by
  obtain ⟨base, baseArena, hot, records, tail, hBase, -, -, hReplays⟩ := h.recoverable.log
  obtain ⟨manifest, hManifest, hGeneration, -⟩ :=
    hBase.load hReads (h.recoverable.holds.of_grows hReplays.grows)
  refine (bind_run_quiet readDir_run).trans ?_
  rw [hManifest]
  refine (bind_run_quiet (attempt_run _)).trans ?_
  rw [hGeneration]
  rfl

theorem Live.currentHotWalEnd_run (h : Live sha256 auth files physical a) :
    currentHotWalEnd sha256 auth.generation auth files = ([], .ok auth.hot.tail, auth) := by
  obtain ⟨records, hDecode⟩ := h.hot.tail
  refine (bind_run_quiet readDir_run).trans ?_
  rw [h.hot.file]
  refine (bind_run_quiet (attempt_run _)).trans ?_
  rw [hDecode]
  exact (bind_run_quiet (attempt_run _)).trans rfl

theorem Live.tail_lt (h : Live sha256 auth files physical a) : auth.hot.tail < width 64 := by
  obtain ⟨-, -, records, -, hLog, -⟩ := h.recoverable.openLog h.hot
  exact Nat.lt_of_le_of_lt hLog.tail_le hLog.size

/-- A log that exists is opened as it is. -/
theorem HotOver.openHot_run {σ : Type} {generation : Nat} {hot : DurableHistoryLog}
    (h : HotOver sha256 files generation hot) (state : σ) :
    (FileStep.create (.hot generation)).apply files = files ∧
      openHot sha256 generation state files = ([.create (.hot generation)], .ok hot, state) := by
  obtain ⟨records, hDecode⟩ := h.tail
  have hSame : (FileStep.create (.hot generation)).apply files = files := by
    rw [FileStep.apply]
    exact setFile_same (by rw [h.file, Option.getD_some])
  refine ⟨hSame, ?_⟩
  refine bind_run_ok (step_run _) ?_
  refine (bind_run_quiet readDir_run).trans ?_
  rw [applyAll_cons, applyAll_nil, hSame, h.file, Option.getD_some, DurableHistoryLog.openWrite,
    scanLogTail, hDecode]
  rfl

end Parts

/-! ## The publication -/

section Publication

variable {sha256 : Bytes → Digest} {fromSlice : Bytes → Option JsonValue} {files : HistoryFiles}
  {physical q : Nat} {a c : V2AvlSequence} {auth : WritableHistoryAuthority}
  {t : PersistentHistoryStore}

/-- A publication that succeeds. -/
structure Published (sha256 : Bytes → Digest) (auth : WritableHistoryAuthority)
    (files : HistoryFiles) (q : Nat) (t : PersistentHistoryStore) (c : V2AvlSequence)
    (staged : StagedSeal) (nextHot : DurableHistoryLog) (fs : HistoryFiles) : Prop where
  previous : staged.previous = auth.generation
  generation : staged.generation = auth.generation + 1
  walEnd : staged.representedWalEnd = auth.hot.tail
  recoverable : Recoverable sha256 fs (auth.generation + 1) q t c
  hot : HotOver sha256 fs (auth.generation + 1) nextHot
  same : ∀ name, name ≠ .manifest → ¬ Staging (auth.generation + 1) name → fs name = files name

/-- A publication that fails: rejected, or refused at the last sync. -/
def Unpublished (sha256 : Bytes → Digest) (auth : WritableHistoryAuthority) (physical : Nat)
    (a : V2AvlSequence) (t : PersistentHistoryStore) (c : V2AvlSequence) (e : DurableError)
    (auth' : WritableHistoryAuthority) (fs : HistoryFiles) : Prop :=
  ((∃ error, e = .rejected error) ∧ Onward auth auth' ∧ Live sha256 auth fs physical a) ∨
  (e = .indeterminate .directorySync ∧ auth'.store = auth.store.setPoisoned ∧
    Recovers sha256 fs t c)

/-- A step of a publication that fails. -/
def Unstaged (sha256 : Bytes → Digest) (auth : WritableHistoryAuthority) (physical : Nat)
    (a : V2AvlSequence) (e : DurableError) (auth' : WritableHistoryAuthority) (fs : HistoryFiles) :
    Prop :=
  (∃ error, e = .rejected error) ∧ Onward auth auth' ∧ Live sha256 auth fs physical a

/-- Steps on the names of a staging leave the authority as it stands. -/
theorem Live.staging (h : Live sha256 auth files physical a) {steps : List (FileStep HistoryFile)}
    (hSteps : ∀ step ∈ steps, ∀ name ∈ step.touched, Staging (auth.generation + 1) name) :
    AlongSteps (fun image => Live sha256 auth image physical a ∧
      ∀ name, ¬ Staging (auth.generation + 1) name → image name = files name) files steps := by
  refine alongSteps_foreign (fun name => ¬ Staging (auth.generation + 1) name) ?_ ?_
  · intro step hMem name hName hTouched
    exact hName (hSteps step hMem name hTouched)
  · intro image hSame
    exact ⟨h.of_same fun name hName => hSame name (authoritative_not_staging hName), hSame⟩

/-- Steps on the names of a staging that may be refused. -/
theorem Live.refusable {α : Type} (h : Live sha256 auth files physical a)
    {auth₁ : WritableHistoryAuthority} (hOnward : Onward auth auth₁)
    {steps : List (FileStep HistoryFile)}
    (hSteps : ∀ step ∈ steps, ∀ name ∈ step.touched, Staging (auth.generation + 1) name)
    {x : AuthorityM α} {r : α} (hRun : x auth₁ files = (steps, .ok r, auth₁))
    (error : HistoryError) :
    CrashSafe (fun image => Live sha256 auth image physical a) (refusedWith (.rejected error) x)
      auth₁ files
      (fun result auth' fs => result = r ∧ Onward auth auth' ∧ fs = applyAll files steps ∧
        Live sha256 auth fs physical a ∧
        ∀ name, ¬ Staging (auth.generation + 1) name → fs name = files name)
      (Unstaged sha256 auth physical a) := by
  have hAlong := h.staging hSteps
  have hSafe := CrashSafe.refusableAlong hRun (hAlong.mono fun _ hImage => hImage.1)
    fun _ => DurableError.rejected error
  refine hSafe.mono_outcomes ?_ ?_
  · intro result auth' fs hOk
    rcases hOk with ⟨rfl, hNext, rfl⟩
    exact ⟨rfl, hOnward.trans hNext, rfl, hAlong.finish.1, hAlong.finish.2⟩
  · intro e auth' fs hError
    rcases hError with ⟨⟨_, rfl⟩, hNext, hLive⟩
    exact ⟨⟨error, rfl⟩, hOnward.trans hNext, hLive⟩

theorem staging_write {generation : Nat} {name : HistoryFile} (h : Staging generation name)
    (bytes : Bytes) : ∀ step ∈ [FileStep.createEmpty name, .write name 0 bytes, .sync name],
      ∀ touched ∈ step.touched, Staging generation touched := by
  simp [FileStep.touched, h]

theorem staging_rename {generation : Nat} {tmp name : HistoryFile} (hTmp : Staging generation tmp)
    (h : Staging generation name) : ∀ step ∈ [FileStep.rename tmp name, .syncDir],
      ∀ touched ∈ step.touched, Staging generation touched := by
  simp [FileStep.touched, hTmp, h]

/-- A file that is written under another name. -/
theorem Live.publishFile (h : Live sha256 auth files physical a)
    {auth₁ : WritableHistoryAuthority} (hOnward : Onward auth auth₁) {tmp name : HistoryFile}
    (hTmp : Staging (auth.generation + 1) tmp) (hName : Staging (auth.generation + 1) name)
    {bytes : Bytes} (hFile : files tmp = some bytes) (error : HistoryError) :
    CrashSafe (fun image => Live sha256 auth image physical a)
      (publishFile (.rejected error) tmp name) auth₁ files
      (fun _ auth' fs => Onward auth auth' ∧
        fs = setFile (setFile files tmp none) name (some bytes) ∧
        Live sha256 auth fs physical a ∧
        ∀ other, ¬ Staging (auth.generation + 1) other → fs other = files other)
      (Unstaged sha256 auth physical a) := by
  refine (h.refusable hOnward (staging_rename hTmp hName) (perform_run _) error).mono_ok ?_
  intro _ auth' fs hOk
  rcases hOk with ⟨-, hNext, rfl, hLive, hSame⟩
  exact ⟨hNext, applyAll_rename name hFile, hLive, hSame⟩

/-- A file that is written and synced. -/
theorem Live.writeFileSynced (h : Live sha256 auth files physical a)
    {auth₁ : WritableHistoryAuthority} (hOnward : Onward auth auth₁) {name : HistoryFile}
    (hName : Staging (auth.generation + 1) name) (bytes : Bytes) (error : HistoryError) :
    CrashSafe (fun image => Live sha256 auth image physical a)
      (writeFileSynced (.rejected error) name bytes) auth₁ files
      (fun _ auth' fs => Onward auth auth' ∧ fs = setFile files name (some bytes) ∧
        Live sha256 auth fs physical a ∧
        ∀ other, ¬ Staging (auth.generation + 1) other → fs other = files other)
      (Unstaged sha256 auth physical a) := by
  refine (h.refusable hOnward (staging_write hName bytes) (perform_run _) error).mono_ok ?_
  intro _ auth' fs hOk
  rcases hOk with ⟨-, hNext, rfl, hLive, hSame⟩
  exact ⟨hNext, applyAll_writeFile files name bytes, hLive, hSame⟩

/-- The snapshot is written, read back and published. -/
theorem Live.publishSnapshot (h : Live sha256 auth files physical a)
    {auth₁ : WritableHistoryAuthority} (hOnward : Onward auth auth₁) {bytes : Bytes}
    {snapshot : HistorySnapshot} (hDecode : decodeHistorySnapshot sha256 bytes = .ok snapshot) :
    CrashSafe (fun image => Live sha256 auth image physical a)
      (publishSnapshot sha256 (auth.generation + 1) bytes) auth₁ files
      (fun _ auth' fs => Onward auth auth' ∧ fs (.snapshot (auth.generation + 1)) = some bytes ∧
        Live sha256 auth fs physical a ∧
        ∀ other, ¬ Staging (auth.generation + 1) other → fs other = files other)
      (Unstaged sha256 auth physical a) := by
  have hTmp : Staging (auth.generation + 1) (.snapshotTmp (auth.generation + 1)) := .inl rfl
  have hName : Staging (auth.generation + 1) (.snapshot (auth.generation + 1)) := .inr (.inl rfl)
  refine CrashSafe.bind (h.writeFileSynced hOnward hTmp bytes _) ?_
  intro _ auth₂ fs hOk
  rcases hOk with ⟨hOnward₂, hWritten, hLive, hSame⟩
  have hFile : fs (.snapshotTmp (auth.generation + 1)) = some bytes := by
    rw [hWritten, setFile_self]
  refine CrashSafe.bind_quiet readDir_run ?_
  refine CrashSafe.bind_quiet (by rw [hFile]; exact attempt_run _) ?_
  refine CrashSafe.bind_quiet (by rw [failIf_neg (not_not.mpr rfl)]; exact attempt_run _) ?_
  refine CrashSafe.bind_quiet (by rw [hDecode]; exact attempt_run _) ?_
  refine (hLive.publishFile hOnward₂ hTmp hName hFile _).mono_ok ?_
  intro _ auth₃ fs' hOk
  rcases hOk with ⟨hOnward₃, rfl, hLive', hSame'⟩
  refine ⟨hOnward₃, setFile_self _ _ _, hLive', fun other hOther => ?_⟩
  rw [hSame' other hOther, hSame other hOther]

/-- The empty log of the next generation; a stale one with something in it is not overwritten. -/
theorem Live.publishHot (h : Live sha256 auth files physical a)
    {auth₁ : WritableHistoryAuthority} (hOnward : Onward auth auth₁) :
    CrashSafe (fun image => Live sha256 auth image physical a)
      (publishHot (auth.generation + 1)) auth₁ files
      (fun _ auth' fs => Onward auth auth' ∧ fs (.hot (auth.generation + 1)) = some [] ∧
        fs (.snapshot (auth.generation + 1)) = files (.snapshot (auth.generation + 1)) ∧
        ∀ other, ¬ Staging (auth.generation + 1) other → fs other = files other)
      (Unstaged sha256 auth physical a) := by
  have hTmp : Staging (auth.generation + 1) (.hotTmp (auth.generation + 1)) :=
    .inr (.inr (.inl rfl))
  have hName : Staging (auth.generation + 1) (.hot (auth.generation + 1)) :=
    .inr (.inr (.inr (.inl rfl)))
  refine CrashSafe.bind_quiet readDir_run ?_
  by_cases hEmpty : (files (.hot (auth.generation + 1))).getD [] = []
  · refine CrashSafe.bind_quiet
      (by rw [failIf_neg (not_not.mpr hEmpty)]; exact attempt_run _) ?_
    refine CrashSafe.bind (h.writeFileSynced hOnward hTmp [] _) ?_
    intro _ auth₂ fs hOk
    rcases hOk with ⟨hOnward₂, hWritten, hLive, hSame⟩
    have hFile : fs (.hotTmp (auth.generation + 1)) = some [] := by rw [hWritten, setFile_self]
    refine (hLive.publishFile hOnward₂ hTmp hName hFile _).mono_ok ?_
    intro _ auth₃ fs' hOk
    rcases hOk with ⟨hOnward₃, rfl, -, hSame'⟩
    refine ⟨hOnward₃, setFile_self _ _ _, ?_, fun other hOther => ?_⟩
    · rw [setFile_of_ne (by simp), setFile_of_ne (by simp), hWritten, setFile_of_ne (by simp)]
    · rw [hSame' other hOther, hSame other hOther]
  · refine CrashSafe.bind_stop (by rw [failIf_pos hEmpty]; exact attempt_run _) h ?_
    exact ⟨⟨_, rfl⟩, hOnward, h⟩

theorem setManifest_other {manifest : Option Bytes} {name : HistoryFile}
    (hName : name ≠ .manifest) (hTmp : name ≠ .manifestTmp) :
    setFile (setFile files .manifestTmp none) .manifest manifest name = files name := by
  rw [setFile_of_ne hName, setFile_of_ne hTmp]

/-- Behind the rename of its manifest a directory recovers to the store of its snapshot. -/
theorem Live.manifestRenamed (h : Live sha256 auth files physical a)
    (hSealable : Sealable sha256 files q t c) {bytes : Bytes}
    (hLimit : auth.generation + 1 < width 64)
    (hEncode : encodeHistorySnapshot sha256 t (auth.generation + 1) auth.hot.tail = .ok bytes)
    (hSnapshot : files (.snapshot (auth.generation + 1)) = some bytes)
    (hHot : files (.hot (auth.generation + 1)) = some []) :
    Recoverable sha256 (setFile (setFile files .manifestTmp none) .manifest
      (some (encodeHistoryManifest ⟨auth.generation + 1, some (.forSnapshot sha256 bytes)⟩)))
      (auth.generation + 1) q t c := by
  refine (hSealable.of_same (setManifest_other (by simp) (by simp))
    (setManifest_other (by simp) (by simp))).recoverable hLimit h.tail_lt hEncode
      (setFile_self _ _ _) ?_ ?_
  · rw [setManifest_other (by simp) (by simp), hSnapshot]
  · rw [setManifest_other (by simp) (by simp), hHot]

/-- The manifest is renamed over files that hold the snapshot and the empty log. -/
theorem Live.commitStagedManifest (h : Live sha256 auth files physical a)
    {auth₁ : WritableHistoryAuthority} (hOnward : Onward auth auth₁)
    (hSealable : Sealable sha256 files q t c) {bytes : Bytes} (staged : StagedSeal)
    (hGeneration : staged.generation = auth.generation + 1)
    (hSealedBase : staged.sealedBase = .forSnapshot sha256 bytes)
    (hLimit : auth.generation + 1 < width 64)
    (hEncode : encodeHistorySnapshot sha256 t (auth.generation + 1) auth.hot.tail = .ok bytes)
    (hSnapshot : files (.snapshot (auth.generation + 1)) = some bytes)
    (hHot : files (.hot (auth.generation + 1)) = some []) :
    CrashSafe (fun image => Recovers sha256 image auth.store a ∨ Recovers sha256 image t c)
      (commitStagedManifest staged) auth₁ files
      (fun _ auth' fs => Onward auth auth' ∧ Recoverable sha256 fs (auth.generation + 1) q t c ∧
        fs (.hot (auth.generation + 1)) = some [] ∧
        ∀ name, name ≠ .manifest → ¬ Staging (auth.generation + 1) name → fs name = files name)
      (Unpublished sha256 auth physical a t c) := by
  have hLiveP : ∀ image, Live sha256 auth image physical a →
      Recovers sha256 image auth.store a ∨ Recovers sha256 image t c :=
    fun image hLive => .inl hLive.recoverable.recovers
  have hTmp : Staging (auth.generation + 1) .manifestTmp := .inr (.inr (.inr (.inr rfl)))
  refine CrashSafe.bind ((h.writeFileSynced hOnward hTmp
    (encodeHistoryManifest ⟨staged.generation, some staged.sealedBase⟩) _).mono hLiveP
      (fun _ _ _ hQ => hQ) fun _ _ _ hE => .inl hE) ?_
  intro _ auth₂ fs hOk
  rcases hOk with ⟨hOnward₂, hWritten, hLive, -⟩
  rw [hGeneration, hSealedBase] at hWritten
  generalize hManifest : encodeHistoryManifest
    ⟨auth.generation + 1, some (.forSnapshot sha256 bytes)⟩ = manifest at hWritten
  have hRenamed : (FileStep.rename HistoryFile.manifestTmp .manifest).apply fs =
      setFile (setFile files .manifestTmp none) .manifest (some manifest) := by
    have hFile : fs .manifestTmp = some manifest := by rw [hWritten, setFile_self]
    rw [FileStep.apply, hFile]
    dsimp only
    rw [hWritten, setFile_setFile]
  have hAfter := h.manifestRenamed hSealable hLimit hEncode hSnapshot hHot
  rw [hManifest] at hAfter
  have hRename : CrashSafe (fun image =>
      Recovers sha256 image auth.store a ∨ Recovers sha256 image t c)
      (refusedWith (.rejected (.invalid "history manifest publication failed"))
        (FileM.step (.rename .manifestTmp .manifest))) auth₂ fs _ _ :=
    refusedWith_step (fun _ hTorn => hTorn) (hLiveP _ hLive)
      (by rw [hRenamed]; exact .inr hAfter.recovers)
  refine CrashSafe.bind (hRename.mono_error ?_) ?_
  · intro _ auth₃ fs' hOk
    rcases hOk with ⟨rfl, hNext, rfl⟩
    exact .inl ⟨⟨_, rfl⟩, hOnward₂.trans hNext, hLive⟩
  intro _ auth₃ fs' hOk
  rcases hOk with ⟨hNext, rfl⟩
  have hOnward₃ := hOnward₂.trans hNext
  rw [hRenamed]
  refine (syncOrPoison_safe (.inr hAfter.recovers) .directorySync .syncDir
    (fun _ hTorn => hTorn) rfl).mono_outcomes ?_ ?_
  · intro _ auth₄ fs' hOk
    rcases hOk with ⟨hOnward₄, rfl⟩
    refine ⟨hOnward₃.trans hOnward₄, hAfter,
      (setManifest_other (by simp) (by simp)).trans hHot, ?_⟩
    intro name hName hStaging
    refine setManifest_other hName fun hSame => hStaging ?_
    rw [hSame]
    exact hTmp
  · intro _ auth₄ fs' hOk
    rcases hOk with ⟨rfl, rfl, hStore⟩
    refine .inr ⟨rfl, ?_, hAfter.recovers⟩
    rw [hStore, hOnward₃.store]

theorem Live.nextGeneration_run (h : Live sha256 auth files physical a)
    (hReads : ReadsManifests fromSlice) (hLimit : auth.generation + 1 < width 64) :
    nextGeneration fromSlice auth files =
      ([], .ok (auth.generation, auth.generation + 1), auth) := by
  refine (bind_run_quiet (h.currentGeneration_run hReads)).trans ?_
  rw [checkedAdd_of_lt hLimit, okOr_some]
  exact (bind_run_quiet (attempt_run _)).trans rfl

theorem Live.nextGeneration_rejects (h : Live sha256 auth files physical a)
    (hReads : ReadsManifests fromSlice) (hLimit : ¬ auth.generation + 1 < width 64) :
    nextGeneration fromSlice auth files = ([], .error
      (.rejected (.overflow "history generation exceeds u64")), auth) := by
  have hNone : checkedAdd 64 auth.generation 1 = none := if_neg hLimit
  refine (bind_run_quiet (h.currentGeneration_run hReads)).trans ?_
  rw [hNone]
  exact bind_run_error (attempt_run _)

/-- What the staging has written. -/
structure StagedFiles (sha256 : Bytes → Digest) (auth : WritableHistoryAuthority)
    (files : HistoryFiles) (bytes : Bytes) (fs : HistoryFiles) : Prop where
  snapshot : fs (.snapshot (auth.generation + 1)) = some bytes
  hot : fs (.hot (auth.generation + 1)) = some []
  same : ∀ name, ¬ Staging (auth.generation + 1) name → fs name = files name

/-- A staging that succeeds. -/
def Staged (sha256 : Bytes → Digest) (auth : WritableHistoryAuthority) (files : HistoryFiles)
    (bytes : Bytes) (staged : StagedSeal) (auth' : WritableHistoryAuthority) (fs : HistoryFiles) :
    Prop :=
  Onward auth auth' ∧ staged = ⟨auth.generation, auth.generation + 1, auth.hot.tail,
    .forSnapshot sha256 bytes, bytes.length⟩ ∧ StagedFiles sha256 auth files bytes fs

/-- The snapshot and the log of the next generation; a stale log is not overwritten. -/
theorem Live.publishStagedFiles (h : Live sha256 auth files physical a)
    (hSealable : Sealable sha256 files q t c) (hLimit : auth.generation + 1 < width 64)
    {bytes : Bytes}
    (hEncode : encodeHistorySnapshot sha256 t (auth.generation + 1) auth.hot.tail = .ok bytes) :
    CrashSafe (fun image => Live sha256 auth image physical a)
      (publishStagedFiles sha256 auth.generation (auth.generation + 1) auth.hot.tail bytes) auth
      files (Staged sha256 auth files bytes) (Unstaged sha256 auth physical a) := by
  obtain ⟨snapshot, hDecode⟩ := hSealable.decodes hLimit h.tail_lt hEncode
  refine CrashSafe.bind (h.publishSnapshot (.refl auth) hDecode) ?_
  intro _ auth₁ fs hOk
  rcases hOk with ⟨hOnward, hSnapshot, hLive, hSame⟩
  refine CrashSafe.bind (hLive.publishHot hOnward) ?_
  intro _ auth₂ fs' hOk
  rcases hOk with ⟨hOnward₂, hHot, hKept, hSame'⟩
  have hStaged : StagedFiles sha256 auth files bytes fs' := by
    refine ⟨hKept.trans hSnapshot, hHot, fun name hName => ?_⟩
    rw [hSame' name hName, hSame name hName]
  refine .pure ?_ ⟨hOnward₂, rfl, hStaged⟩
  exact h.of_same fun name hName => hStaged.same name (authoritative_not_staging hName)

/-- The publication of a store whose content is in the files: up to the rename of the manifest the
directory recovers to the store it had, from there on to the one published. -/
theorem Live.publishGeneration (h : Live sha256 auth files physical a)
    (hReads : ReadsManifests fromSlice) (hSealable : Sealable sha256 files q t c) :
    CrashSafe (fun image => Recovers sha256 image auth.store a ∨ Recovers sha256 image t c)
      (publishGeneration sha256 fromSlice t) auth files
      (fun result auth' fs => Onward auth auth' ∧
        Published sha256 auth files q t c result.1 result.2 fs)
      (Unpublished sha256 auth physical a t c) := by
  have hLiveP : ∀ image, Live sha256 auth image physical a →
      Recovers sha256 image auth.store a ∨ Recovers sha256 image t c :=
    fun image hLive => .inl hLive.recoverable.recovers
  by_cases hLimit : auth.generation + 1 < width 64
  · cases hEncode : encodeHistorySnapshot sha256 t (auth.generation + 1) auth.hot.tail with
    | error e =>
      have hStage : stageSealedGeneration sha256 fromSlice t auth files =
          ([], .error (.rejected e), auth) := by
        refine (bind_run_quiet (h.nextGeneration_run hReads hLimit)).trans ?_
        refine (bind_run_quiet h.currentHotWalEnd_run).trans ?_
        rw [hEncode]
        exact bind_run_error attempt_rejects
      exact .bind_stop hStage (hLiveP _ h) (.inl ⟨⟨e, rfl⟩, .refl auth, h⟩)
    | ok bytes =>
      have hStage : CrashSafe (fun image => Live sha256 auth image physical a)
          (stageSealedGeneration sha256 fromSlice t) auth files (Staged sha256 auth files bytes)
            (Unstaged sha256 auth physical a) := by
        refine CrashSafe.bind_quiet (h.nextGeneration_run hReads hLimit) ?_
        refine CrashSafe.bind_quiet h.currentHotWalEnd_run ?_
        refine CrashSafe.bind_quiet (a := bytes) (by rw [hEncode]; exact attempt_run _) ?_
        exact h.publishStagedFiles hSealable hLimit hEncode
      refine CrashSafe.bind (hStage.mono hLiveP (fun _ _ _ hQ => hQ) fun _ _ _ hE => .inl hE) ?_
      intro staged auth₁ fs hOk
      rcases hOk with ⟨hOnward, rfl, hStaged⟩
      have hLive := h.of_same fun name hName => hStaged.same name (authoritative_not_staging hName)
      have hOver : HotOver sha256 fs (auth.generation + 1) ⟨[], 0⟩ :=
        ⟨hStaged.hot, [], holdsLog_nil.decode⟩
      obtain ⟨hOpen, hRun⟩ := hOver.openHot_run auth₁
      have hTouched : ∀ step ∈ [FileStep.create (HistoryFile.hot (auth.generation + 1))],
          ∀ name ∈ step.touched, Staging (auth.generation + 1) name := by
        simp [FileStep.touched, Staging]
      refine CrashSafe.bind ((hLive.refusable hOnward hTouched hRun _).mono hLiveP
        (fun _ _ _ hQ => hQ) fun _ _ _ hE => .inl hE) ?_
      intro nextHot auth₂ fs' hOk
      rcases hOk with ⟨rfl, hOnward₂, hFiles, -, -⟩
      rw [applyAll_cons, applyAll_nil, hOpen] at hFiles
      subst hFiles
      have hCommit := hLive.commitStagedManifest hOnward₂ (hSealable.of_same
        (hStaged.same _ (by simp [Staging])) (hStaged.same _ (by simp [Staging])))
        ⟨auth.generation, auth.generation + 1, auth.hot.tail, .forSnapshot sha256 bytes,
          bytes.length⟩ rfl rfl hLimit hEncode hStaged.snapshot hStaged.hot
      refine CrashSafe.bind hCommit ?_
      intro _ auth₃ fs'' hOk
      rcases hOk with ⟨hOnward₃, hRecoverable, hHot, hSame⟩
      refine .pure (.inr hRecoverable.recovers)
        ⟨hOnward₃, rfl, rfl, rfl, hRecoverable, ⟨hHot, [], ?_⟩, ?_⟩
      · exact holdsLog_nil.decode
      · intro name hName hStaging
        rw [hSame name hName hStaging, hStaged.same name hStaging]
  · have hStage : stageSealedGeneration sha256 fromSlice t auth files =
        ([], .error (.rejected (.overflow "history generation exceeds u64")), auth) :=
      bind_run_error (h.nextGeneration_rejects hReads hLimit)
    exact .bind_stop hStage (hLiveP _ h) (.inl ⟨⟨_, rfl⟩, .refl auth, h⟩)

end Publication

/-! ## The seal -/

section Seal

variable {sha256 : Bytes → Digest} {fromSlice : Bytes → Option JsonValue} {files : HistoryFiles}
  {physical : Nat} {a : V2AvlSequence} {auth : WritableHistoryAuthority}

/-- Steps on names nothing reads any more. -/
theorem Live.foreign (h : Live sha256 auth files physical a) (steps : List (FileStep HistoryFile))
    (hSteps : ∀ step ∈ steps, ∀ name ∈ step.touched, ¬ Authoritative auth.generation physical
      name) :
    AlongSteps (fun image => Live sha256 auth image physical a) files steps := by
  refine alongSteps_foreign (Authoritative auth.generation physical) ?_ fun image => h.of_same
  intro step hMem name hName hTouched
  exact hSteps step hMem name hTouched hName

/-- A step on a name nothing reads any more, done or refused. -/
theorem Live.stepSucceeds (h : Live sha256 auth files physical a)
    {auth₁ : WritableHistoryAuthority} (hOnward : Onward auth auth₁) (step : FileStep HistoryFile)
    (hAtomic : ∀ image, ¬ step.Torn files image)
    (hStep : ∀ name ∈ step.touched, ¬ Authoritative auth.generation physical name)
    {E : DurableError → WritableHistoryAuthority → HistoryFiles → Prop} :
    CrashSafe (fun image => Live sha256 auth image physical a) (stepSucceeds step) auth₁ files
      (fun _ auth' fs => Onward auth auth' ∧ Live sha256 auth fs physical a) E := by
  have hDone : Live sha256 auth (step.apply files) physical a := by
    have hAlong := h.foreign [step] fun other hMem => by
      obtain rfl := List.mem_singleton.mp hMem
      exact hStep
    exact hAlong.finish
  refine CrashSafe.succeeds (Q := fun _ auth' fs => Onward auth auth' ∧
    Live sha256 auth fs physical a) ?_ fun _ _ hQ => hQ.2
  refine (refusedWith_step hAtomic h hDone).mono_outcomes ?_ ?_
  · intro _ auth' fs hOk
    rcases hOk with ⟨hNext, rfl⟩
    exact ⟨hOnward.trans hNext, hDone⟩
  · intro _ auth' fs hOk
    rcases hOk with ⟨-, hNext, rfl⟩
    exact ⟨h, hOnward.trans hNext, h⟩

theorem Live.recycle (h : Live sha256 auth files physical a) (previous : Nat)
    (hOld : previous ≠ auth.generation) {E : DurableError → WritableHistoryAuthority →
      HistoryFiles → Prop} :
    CrashSafe (fun image => Live sha256 auth image physical a) (recycleSupersededHot previous) auth
      files (fun _ auth' fs => Onward auth auth' ∧ Live sha256 auth fs physical a) E := by
  refine CrashSafe.bind_quiet readDir_run ?_
  split
  case isTrue =>
    have hRemove : ∀ name ∈ (FileStep.remove (HistoryFile.hot previous)).touched,
        ¬ Authoritative auth.generation physical name := by
      simp [FileStep.touched, Authoritative, hOld]
    refine CrashSafe.bind (h.stepSucceeds (.refl auth) (.remove (.hot previous))
      (fun _ hTorn => hTorn) hRemove) ?_
    intro removed auth₁ fs hOk
    rcases hOk with ⟨hOnward, hLive⟩
    cases removed with
    | true =>
      refine CrashSafe.bind (hLive.stepSucceeds hOnward .syncDir (fun _ hTorn => hTorn)
        fun _ hName => by cases hName) ?_
      intro synced auth₂ fs' hOk
      rcases hOk with ⟨hOnward₂, hLive'⟩
      exact .pure hLive' ⟨hOnward₂, hLive'⟩
    | false => exact .pure hLive ⟨hOnward, hLive⟩
  case isFalse => exact .pure h ⟨.refl auth, h⟩

theorem Unstaged.failed {R : Prop} {e : DurableError} {auth' : WritableHistoryAuthority}
    {t : PersistentHistoryStore} {c : V2AvlSequence} {fs : HistoryFiles}
    (hError : Unstaged sha256 auth physical a e auth' fs) (h : Live sha256 auth files physical a) :
    Failed sha256 R auth.store a t c e auth' fs := by
  rcases hError with ⟨hReason, hOnward, hLive⟩
  refine .unchanged (.inl hReason) ⟨physical, hLive.onward hOnward⟩ ?_
  rw [hOnward.store]
  exact h.backend_self

/-- A failed publication is a failed call, if clients see the same in the store it publishes. -/
theorem Unpublished.failed {R : Prop} {e : DurableError} {auth' : WritableHistoryAuthority}
    {t : PersistentHistoryStore} {c : V2AvlSequence} {fs : HistoryFiles}
    (hError : Unpublished sha256 auth physical a t c e auth' fs)
    (h : Live sha256 auth files physical a) (hView : t.view c = auth.store.view a) :
    Failed sha256 R auth.store a t c e auth' fs := by
  rcases hError with hUnstaged | ⟨rfl, hStore, hRecovers⟩
  · exact Unstaged.failed hUnstaged h
  · exact .manifest (by rw [hStore]; rfl) hView hRecovers

/-- The authority that has taken over what is published. -/
theorem Published.live {q : Nat} {t : PersistentHistoryStore} {c : V2AvlSequence}
    {staged : StagedSeal} {nextHot : DurableHistoryLog} {fs : HistoryFiles}
    (h : Published sha256 auth files q t c staged nextHot fs)
    (hBackend : t.backend = .physical (boundContent files q c)) (stats : OpenedHistoryStats)
    (answers : List StepAnswer) :
    Live sha256 ⟨t, auth.generation + 1, stats, nextHot, answers⟩ fs q c := by
  have hBound : boundContent fs q c = boundContent files q c := by
    rw [boundContent, h.same _ (by simp) (by simp [Staging]),
      h.same _ (by simp) (by simp [Staging])]
    rfl
  refine ⟨h.recoverable, ?_, h.hot⟩
  rw [hBound]
  exact hBackend

/-- The seal leaves the store as it is, and wherever it stops the directory recovers to it. -/
theorem Live.seal (h : Live sha256 auth files physical a) (hReads : ReadsManifests fromSlice) :
    Served sha256 (WritableHistoryAuthority.sealWithSync sha256 fromSlice) auth files a
      auth.store a fun summary => summary.generation = auth.generation + 1 ∧
        summary.representedWalEnd = auth.hot.tail := by
  refine Served.bind_quiet h.requireUnpoisoned_run ?_
  refine Served.bind_quiet get_run ?_
  refine CrashSafe.bind ((h.publishGeneration hReads h.sealable).mono
    (fun _ hImage => .inl (hImage.elim id id)) (fun _ _ _ hQ => hQ)
    fun _ _ _ hError => Unpublished.failed hError h rfl) ?_
  intro result auth' fs hOk
  rcases result with ⟨staged, nextHot⟩
  rcases hOk with ⟨⟨left, rfl⟩, hPublished⟩
  dsimp only at hPublished
  have hLive := hPublished.live h.backend ⟨auth.store.versions.length, 0⟩ left
  obtain ⟨hPrevious, hGeneration, hEnd, -⟩ := hPublished
  dsimp only
  refine CrashSafe.bind_quiet (a := PUnit.unit) (modify_run _) ?_
  rw [hPrevious, hGeneration, hEnd]
  refine CrashSafe.bind ((hLive.recycle auth.generation (by simp)).mono_along
    fun _ hImage => .inl hImage.recoverable.recovers) ?_
  intro recycled auth'' fs' hOk
  rcases hOk with ⟨hOnward, hLive'⟩
  exact .pure (.inl hLive'.recoverable.recovers)
    ⟨⟨rfl, rfl⟩, ⟨physical, hLive'.onward hOnward⟩, hOnward.store⟩

end Seal

end TulyaStore.History
