import TulyaStore.History.Opening

/-!
# Interrupted creations

The first opening of a directory creates the two content files and writes their headers in separate
steps. When it is interrupted on the way, a later opening finds files that it neither accepts nor
creates again: it succeeds exactly when none of the files is there yet or both headers are complete
(`creation_reopens_iff`); in between it fails.
-/

namespace TulyaStore.History

open Lib FileM Sequence V2AvlSequence PersistentHistoryStore

/-! ## The files of generation zero -/

/-- What an opening of generation zero looks at. -/
structure GenesisFiles (files : HistoryFiles) (hot payload nodes : Option Bytes) : Prop where
  manifest : files .manifest = none
  hot : files (.hot 0) = hot
  payload : files (.payload 0) = payload
  nodes : files (.nodes 0) = nodes

def payloadHeader : Bytes := encodeHeader physicalPayloadMagic 0

def nodesHeader : Bytes := encodeHeader physicalNodeMagic 0

theorem length_payloadHeader : payloadHeader.length = physicalHeaderSize := by decide

theorem length_nodesHeader : nodesHeader.length = physicalHeaderSize := by decide

section Steps

variable {files : HistoryFiles} {hot payload nodes : Option Bytes}

/-- Files of other names do not matter. -/
theorem GenesisFiles.of_same (h : GenesisFiles files hot payload nodes) {image : HistoryFiles}
    (hSame : ∀ name, name ≠ .lock → image name = files name) :
    GenesisFiles image hot payload nodes where
  manifest := (hSame _ (by simp)).trans h.manifest
  hot := (hSame _ (by simp)).trans h.hot
  payload := (hSame _ (by simp)).trans h.payload
  nodes := (hSame _ (by simp)).trans h.nodes

theorem GenesisFiles.lock (h : GenesisFiles files hot payload nodes) :
    GenesisFiles ((FileStep.create .lock).apply files) hot payload nodes := by
  refine h.of_same fun name hName => FileStep.apply_untouched ?_
  simpa [FileStep.touched] using hName

theorem GenesisFiles.createPayload (h : GenesisFiles files hot none nodes) :
    GenesisFiles ((FileStep.create (.payload 0)).apply files) hot (some []) nodes where
  manifest := (FileStep.apply_untouched (by simp [FileStep.touched])).trans h.manifest
  hot := (FileStep.apply_untouched (by simp [FileStep.touched])).trans h.hot
  payload := by rw [FileStep.apply, setFile_self, h.payload, Option.getD_none]
  nodes := (FileStep.apply_untouched (by simp [FileStep.touched])).trans h.nodes

theorem GenesisFiles.createNodes (h : GenesisFiles files hot payload none) :
    GenesisFiles ((FileStep.create (.nodes 0)).apply files) hot payload (some []) where
  manifest := (FileStep.apply_untouched (by simp [FileStep.touched])).trans h.manifest
  hot := (FileStep.apply_untouched (by simp [FileStep.touched])).trans h.hot
  payload := (FileStep.apply_untouched (by simp [FileStep.touched])).trans h.payload
  nodes := by rw [FileStep.apply, setFile_self, h.nodes, Option.getD_none]

theorem GenesisFiles.createHot (h : GenesisFiles files none payload nodes) :
    GenesisFiles ((FileStep.create (.hot 0)).apply files) (some []) payload nodes where
  manifest := (FileStep.apply_untouched (by simp [FileStep.touched])).trans h.manifest
  hot := by rw [FileStep.apply, setFile_self, h.hot, Option.getD_none]
  payload := (FileStep.apply_untouched (by simp [FileStep.touched])).trans h.payload
  nodes := (FileStep.apply_untouched (by simp [FileStep.touched])).trans h.nodes

theorem writtenAt_empty (bytes : Bytes) : writtenAt [] 0 bytes = bytes :=
  (writtenAt_length [] bytes).trans (List.nil_append bytes)

theorem GenesisFiles.writePayload (h : GenesisFiles files hot (some []) nodes) (bytes : Bytes) :
    GenesisFiles ((FileStep.write (.payload 0) 0 bytes).apply files) hot (some bytes) nodes where
  manifest := (FileStep.apply_untouched (by simp [FileStep.touched])).trans h.manifest
  hot := (FileStep.apply_untouched (by simp [FileStep.touched])).trans h.hot
  payload := by rw [FileStep.apply, setFile_self, h.payload, Option.map_some, writtenAt_empty]
  nodes := (FileStep.apply_untouched (by simp [FileStep.touched])).trans h.nodes

theorem GenesisFiles.writeNodes (h : GenesisFiles files hot payload (some [])) (bytes : Bytes) :
    GenesisFiles ((FileStep.write (.nodes 0) 0 bytes).apply files) hot payload (some bytes) where
  manifest := (FileStep.apply_untouched (by simp [FileStep.touched])).trans h.manifest
  hot := (FileStep.apply_untouched (by simp [FileStep.touched])).trans h.hot
  payload := (FileStep.apply_untouched (by simp [FileStep.touched])).trans h.payload
  nodes := by rw [FileStep.apply, setFile_self, h.nodes, Option.map_some, writtenAt_empty]

theorem Blank.genesis (h : Blank files) : GenesisFiles files none none none :=
  ⟨h.manifest, h.hot, h.payload, h.nodes⟩

end Steps

/-! ## What an interruption leaves -/

/-- The directory of an interrupted creation. -/
inductive Creating (files : HistoryFiles) : Prop where
  | blank (h : GenesisFiles files none none none)
  | payloadOnly (h : GenesisFiles files none (some []) none)
  | headers {payload nodes : Bytes} (h : GenesisFiles files none (some payload) (some nodes))
      (hPayload : payload <+: payloadHeader) (hNodes : nodes <+: nodesHeader)
  | complete (h : GenesisFiles files (some []) (some payloadHeader) (some nodesHeader))

section Interruptions

variable {sha256 : Bytes → Digest} {fromSlice : Bytes → Option JsonValue} {files : HistoryFiles}

theorem Blank.alongCreation (h : Blank files) :
    AlongSteps Creating files ([.create .lock] ++ (createSteps ++ [.create (.hot 0)])) := by
  have hLocked := h.genesis.lock
  have hPayload := hLocked.createPayload
  have hNodes := hPayload.createNodes
  have hFirst := hNodes.writePayload payloadHeader
  have hSecond := hFirst.writeNodes nodesHeader
  have hHot := hSecond.createHot
  have hNil : ∀ bytes : Bytes, [] <+: bytes := fun bytes => List.nil_prefix
  refine alongSteps_cons_of_not_torn (fun _ hTorn => hTorn) (.blank h.genesis) ?_
  refine alongSteps_cons_of_not_torn (fun _ hTorn => hTorn) (.blank hLocked) ?_
  refine alongSteps_cons_of_not_torn (fun _ hTorn => hTorn) (.payloadOnly hPayload) ?_
  refine alongSteps_write (.headers hNodes (hNil _) (hNil _)) (fun k _ => ?_) ?_
  · exact .headers (hNodes.writePayload _) (List.take_prefix k _) (hNil _)
  refine alongSteps_write (.headers hFirst List.prefix_rfl (hNil _)) (fun k _ => ?_) ?_
  · exact .headers (hFirst.writeNodes _) List.prefix_rfl (List.take_prefix k _)
  have hBoth : Creating _ := .headers hSecond List.prefix_rfl List.prefix_rfl
  refine alongSteps_cons_of_not_torn (fun _ hTorn => hTorn) hBoth ?_
  refine alongSteps_cons_of_not_torn (fun _ hTorn => hTorn) hBoth ?_
  refine alongSteps_cons_of_not_torn (fun _ hTorn => hTorn) hBoth ?_
  exact .complete hHot

/-! ## What the next opening does -/

/-- What `open_history_authority` makes of the files of generation zero. -/
def loadGenesis (sha256 : Bytes → Digest) (hot payload nodes : Option Bytes) :
    Except HistoryError OpenedHistory := do
  let base ← importPhysicalGenesis payload nodes
  let store ← replayHistorySuffix sha256 base (hot.getD [])
  store.checkPhysicalFrontiers
  return ⟨store, 0, ⟨base.versions.length, (hot.getD []).length⟩⟩

theorem GenesisFiles.load {hot payload nodes : Option Bytes}
    (h : GenesisFiles files hot payload nodes) :
    openHistoryAuthority sha256 fromSlice files = loadGenesis sha256 hot payload nodes := by
  have hManifest : readManifest fromSlice files = .ok none := by
    rw [readManifest, h.manifest]
    rfl
  have hBase : loadBase sha256 files none = importPhysicalGenesis payload nodes := by
    change (failIf _ _ >>= fun _ => importPhysicalGenesis (files (.payload 0))
      (files (.nodes 0))) = _
    rw [failIf_neg (by simp), ok_bind, h.payload, h.nodes]
  have hSuffix : loadSuffix files none 0 = .ok (hot.getD []) := by
    rw [loadSuffix, h.hot]
    cases hot <;> rfl
  rw [openHistoryAuthority, hManifest, ok_bind]
  change (loadBase sha256 files none >>= fun base => loadSuffix files none 0 >>= _) = _
  rw [hBase, hSuffix]
  rfl

/-- An opening that does not get past the loading has no authority. -/
theorem GenesisFiles.open_rejects {hot payload nodes : Option Bytes}
    (h : GenesisFiles files hot payload nodes) {e : HistoryError}
    (hLoad : loadGenesis sha256 hot payload nodes = .error e) :
    WritableHistoryAuthority.open sha256 fromSlice () files =
      ([.create .lock], .error (.rejected e), ()) := by
  have hRead : openHistoryAuthority sha256 fromSlice ((FileStep.create .lock).apply files) =
      .error e := h.lock.load.trans hLoad
  refine bind_run_ok (step_run _) ((bind_run_quiet readDir_run).trans ?_)
  rw [applyAll_cons, applyAll_nil, hRead]
  exact bind_run_error (attempt_run _)

/-- A payload file without a nodes file is taken for no content at all, and the creation that
follows finds the payload file in its way. -/
theorem GenesisFiles.open_payloadOnly (h : GenesisFiles files none (some []) none) :
    WritableHistoryAuthority.open sha256 fromSlice () files =
      ([.create .lock], .error (.rejected (.sequence (.avl creationFailed))), ()) := by
  have hLoad : openHistoryAuthority sha256 fromSlice ((FileStep.create .lock).apply files) =
      .ok ⟨overContent (.openDeferred 0), 0, ⟨0, 0⟩⟩ := h.lock.load
  have hCreate : (createNewFile (.payload 0) : ContentM Unit Unit) ()
      ((FileStep.create .lock).apply files) = ([], .error creationFailed, ()) := by
    refine (bind_run_quiet readDir_run).trans ?_
    rw [failIf_pos (by rw [h.lock.payload]; rfl)]
    exact bind_run_error (attempt_run _)
  have hContent : (healContent (.openDeferred 0) : ContentM Unit PhysicalContentStore) ()
      ((FileStep.create .lock).apply files) = ([], .error creationFailed, ()) := by
    refine bind_run_error ?_
    exact (bind_run_quiet (attempt_run _)).trans (bind_run_error hCreate)
  have hHeal : (healStore (overContent (.openDeferred 0)) :
      FileM HistoryFile Unit DurableError PersistentHistoryStore) ()
        ((FileStep.create .lock).apply files) =
          ([], .error (.rejected (.sequence (.avl creationFailed))), ()) :=
    bind_run_error (liftContent_run hContent _)
  refine bind_run_ok (step_run _) ((bind_run_quiet readDir_run).trans ?_)
  rw [applyAll_cons, applyAll_nil, hLoad]
  exact (bind_run_quiet (attempt_run _)).trans (bind_run_error hHeal)

theorem readExactAt_short {file : Bytes} {len : Nat} (hPos : 0 < len) (h : file.length < len) :
    readExactAt file 0 len = none := by
  rw [readExactAt, if_neg (by omega), slice, if_neg (by omega)]

/-- A content file that is shorter than its header cannot be opened. -/
theorem loadGenesis_short {hot : Option Bytes} {payload nodes : Bytes}
    (h : payload.length < physicalHeaderSize ∨ nodes.length < physicalHeaderSize) :
    ∃ e, loadGenesis sha256 hot (some payload) (some nodes) = .error e := by
  have hPos : 0 < physicalHeaderSize := by decide
  have hOpen : PhysicalContentStore.openExisting (some payload) (some nodes) 0 0 0 =
      .error PhysicalContentStore.openFailed := by
    rw [PhysicalContentStore.openExisting, okOr_some, ok_bind, okOr_some, ok_bind]
    by_cases hPayload : payload.length < physicalHeaderSize
    · rw [readExactAt_short hPos hPayload]
      rfl
    · have hNodes := h.resolve_left hPayload
      rw [readExactAt_short hPos hNodes]
      cases readExactAt payload 0 physicalHeaderSize <;> rfl
  refine ⟨.sequence (.avl PhysicalContentStore.openFailed), ?_⟩
  rw [loadGenesis, importPhysicalGenesis, if_pos ⟨rfl, rfl⟩, hOpen]
  rfl

/-- Two complete headers are the content of an empty store. -/
theorem GenesisFiles.open_complete {hot : Option Bytes}
    (h : GenesisFiles files hot (some payloadHeader) (some nodesHeader)) (hHot : hot.getD [] = []) :
    ∃ steps auth, WritableHistoryAuthority.open sha256 fromSlice () files =
      (steps, .ok auth, ()) := by
  have hImport : importPhysicalGenesis (some payloadHeader) (some nodesHeader) =
      .ok (overContent (.createNew 0)) := by decide +kernel
  have hLoad : openHistoryAuthority sha256 fromSlice ((FileStep.create .lock).apply files) =
      .ok ⟨overContent (.createNew 0), 0, ⟨0, 0⟩⟩ := by
    rw [h.lock.load, loadGenesis, hImport, ok_bind, hHot]
    rfl
  have hHeal : (healStore (overContent (.createNew 0)) :
      FileM HistoryFile Unit DurableError PersistentHistoryStore) ()
        ((FileStep.create .lock).apply files) = ([], .ok (overContent (.createNew 0)), ()) := rfl
  have hCreated : ((FileStep.create (.hot 0)).apply ((FileStep.create .lock).apply files)
      (.hot 0)).getD [] = [] := by
    rw [FileStep.apply, setFile_self, h.lock.hot, hHot]
    rfl
  have hLog : (openHot sha256 0 : FileM HistoryFile Unit DurableError DurableHistoryLog) ()
      ((FileStep.create .lock).apply files) = ([.create (.hot 0)], .ok ⟨[], 0⟩, ()) := by
    refine bind_run_ok (step_run _) ?_
    refine (bind_run_quiet readDir_run).trans ?_
    rw [applyAll_cons, applyAll_nil, hCreated]
    rfl
  have hRun : WritableHistoryAuthority.open sha256 fromSlice () files =
      ([.create .lock] ++ ([.create (.hot 0)] ++ []),
        .ok ⟨overContent (.createNew 0), 0, ⟨0, 0⟩, ⟨[], 0⟩, []⟩, ()) := by
    refine bind_run_ok (step_run _) ((bind_run_quiet readDir_run).trans ?_)
    rw [applyAll_cons, applyAll_nil, hLoad]
    refine (bind_run_quiet (attempt_run _)).trans ?_
    exact (bind_run_quiet hHeal).trans (bind_run_ok hLog rfl)
  exact ⟨_, _, hRun⟩

/-- Whether the directory of an interrupted creation can be opened again. -/
theorem Creating.opens_iff (h : Creating files) :
    (∃ steps auth, WritableHistoryAuthority.open sha256 fromSlice () files =
        (steps, .ok auth, ())) ↔
      files (.payload 0) = none ∨
        files (.payload 0) = some payloadHeader ∧ files (.nodes 0) = some nodesHeader := by
  cases h with
  | blank hFiles =>
    have hBlank : Blank files := ⟨hFiles.manifest, hFiles.hot, hFiles.payload, hFiles.nodes⟩
    obtain ⟨steps, auth, hRun, -⟩ := hBlank.opens sha256 fromSlice
    exact ⟨fun _ => .inl hFiles.payload, fun _ => ⟨steps, auth, hRun⟩⟩
  | payloadOnly hFiles =>
    constructor
    · rintro ⟨steps, auth, hRun⟩
      rw [hFiles.open_payloadOnly] at hRun
      cases hRun
    · rintro (hNone | ⟨-, hNodes⟩)
      · rw [hFiles.payload] at hNone
        cases hNone
      · rw [hFiles.nodes] at hNodes
        cases hNodes
  | @headers payload nodes hFiles hPayload hNodes =>
    by_cases hComplete : payload = payloadHeader ∧ nodes = nodesHeader
    · obtain ⟨rfl, rfl⟩ := hComplete
      exact ⟨fun _ => .inr ⟨hFiles.payload, hFiles.nodes⟩, fun _ => hFiles.open_complete rfl⟩
    · have hShort : payload.length < physicalHeaderSize ∨ nodes.length < physicalHeaderSize := by
        by_contra hLong
        have hFirst := hPayload.length_le
        have hSecond := hNodes.length_le
        rw [length_payloadHeader] at hFirst
        rw [length_nodesHeader] at hSecond
        refine hComplete ⟨hPayload.eq_of_length ?_, hNodes.eq_of_length ?_⟩
        · rw [length_payloadHeader]
          omega
        · rw [length_nodesHeader]
          omega
      obtain ⟨e, hLoad⟩ : ∃ e, loadGenesis sha256 none (some payload) (some nodes) = .error e :=
        loadGenesis_short hShort
      constructor
      · rintro ⟨steps, auth, hRun⟩
        rw [hFiles.open_rejects hLoad] at hRun
        cases hRun
      · rintro (hNone | ⟨hFirst, hSecond⟩)
        · rw [hFiles.payload] at hNone
          cases hNone
        · rw [hFiles.payload] at hFirst
          rw [hFiles.nodes] at hSecond
          exact absurd ⟨Option.some.inj hFirst, Option.some.inj hSecond⟩ hComplete
  | complete hFiles =>
    exact ⟨fun _ => .inr ⟨hFiles.payload, hFiles.nodes⟩, fun _ => hFiles.open_complete rfl⟩

/-- After an interrupted first opening the next one succeeds exactly if no content file is there
yet or the headers of both are complete. -/
theorem creation_reopens_iff (hBlank : Blank files) {steps : List (FileStep HistoryFile)}
    {result : Except DurableError WritableHistoryAuthority} {image : HistoryFiles}
    (hRun : WritableHistoryAuthority.open sha256 fromSlice () files = (steps, result, ()))
    (hCut : Interrupted files steps image) :
    (∃ more auth, WritableHistoryAuthority.open sha256 fromSlice () image =
        (more, .ok auth, ())) ↔
      image (.payload 0) = none ∨
        image (.payload 0) = some payloadHeader ∧ image (.nodes 0) = some nodesHeader := by
  have hSteps := hBlank.open_run sha256 fromSlice
  rw [hRun] at hSteps
  cases hSteps
  exact (hBlank.alongCreation.interrupted hCut).opens_iff

/-- An empty directory whose first opening stopped behind its second step. -/
def halfCreated : HistoryFiles := applyAll (fun _ => none) [.create .lock, .create (.payload 0)]

theorem creation_reopens_iff_sample :
    (∃ more auth, WritableHistoryAuthority.open (fun _ => digestOfNat 0) (fun _ => none) ()
        halfCreated = (more, .ok auth, ())) ↔
      halfCreated (.payload 0) = none ∨
        halfCreated (.payload 0) = some payloadHeader ∧
          halfCreated (.nodes 0) = some nodesHeader := by
  have hBlank : Blank (fun _ => none) := ⟨rfl, rfl, rfl, rfl⟩
  exact creation_reopens_iff hBlank (hBlank.open_run _ _) (.later (.later (.here _ _)))

end Interruptions

end TulyaStore.History
