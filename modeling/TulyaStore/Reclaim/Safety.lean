import TulyaStore.Reclaim.Protocol

/-!
# Reclaim safety

`Current w action` says when a removal by the worker acts on current knowledge: the file's
generation is not later than that of the manifest the worker loaded, or that manifest is still
the authoritative one and no generation is half published. In every run whose steps are all
current, the files of the authoritative manifest and of every open reader's manifest exist
(`filesPresent_of_current`). Without the condition they need not
(`not_filesPresent_of_staleWorker`): the worker reads the manifest before it has the gate.

`Inv` is the invariant: generations only grow, so a file a later manifest names, and that is
not newer than an earlier manifest, is named by the earlier one too.
-/

namespace TulyaStore.Reclaim

open Lib

/-- Published files the next manifest will name and the present one does not. -/
def WriterPhase.segmentDone : WriterPhase → Bool
  | .segmentPublished _ | .routeStaged _ | .routePublished _ | .manifestStaged _ => true
  | _ => false

def WriterPhase.routeDone : WriterPhase → Bool
  | .routePublished _ | .manifestStaged _ => true
  | _ => false

/-- The removal acts on current knowledge. -/
def CurrentRemoval (w : World) (manifest : Manifest) (name : FileName) : Prop :=
  (∀ generation ∈ name.published, generation ≤ manifest.generation) ∨
    (manifest = w.manifest ∧ w.writer.segmentDone = false)

/-- The file the worker looks at in this step, with the manifest it goes by. -/
def World.workerEntry (w : World) (action : Action) : Option (Manifest × FileName) :=
  match action, w.worker with
  | .workerRemove, .scanning manifest (name :: _) => some (manifest, name)
  | _, _ => none

/-- The condition on one step: only a removal by the worker is constrained. -/
def Current (w : World) (action : Action) : Prop :=
  ∀ entry ∈ w.workerEntry action, removable entry.1 entry.2 = true → entry.2 ∈ w.files →
    CurrentRemoval w entry.1 entry.2

instance (w : World) (manifest : Manifest) (name : FileName) :
    Decidable (CurrentRemoval w manifest name) :=
  inferInstanceAs (Decidable (_ ∨ _))

instance (w : World) (action : Action) : Decidable (Current w action) :=
  inferInstanceAs (Decidable (∀ entry ∈ w.workerEntry action, _))

/-- An earlier manifest: what `later` names and is not newer than it, it names as well. -/
def Manifest.Precedes (earlier later : Manifest) : Prop :=
  earlier.generation ≤ later.generation ∧
    ∀ name ∈ later.referenced, ∀ generation, name.published = some generation →
      generation ≤ earlier.generation → name ∈ earlier.referenced

structure Inv (w : World) : Prop where
  own : w.writerManifest = w.manifest
  present : w.manifest.Present w.files
  bounded : ∀ name ∈ w.manifest.referenced, ∀ generation, name.published = some generation →
    generation ≤ w.manifest.generation
  segment : w.writer.segmentDone = true → .segment (w.manifest.generation + 1) ∈ w.files
  route : w.writer.routeDone = true → .route (w.manifest.generation + 1) ∈ w.files
  worker : ∀ manifest, w.worker.manifest = some manifest → manifest.Precedes w.manifest
  readers : ∀ reader ∈ w.readers, ∀ manifest, reader.manifest = some manifest →
    manifest.Present w.files
  gate : w.exclusiveHeld = true → ∀ reader ∈ w.readers, reader = .closed

/-! ## Manifests -/

theorem mem_referenced {manifest : Manifest} {name : FileName} :
    name ∈ manifest.referenced ↔ (∃ g ∈ manifest.segments, name = .segment g) ∨
      (∃ g ∈ manifest.routes, name = .route g) := by
  simp [Manifest.referenced, eq_comm]

/-- What the next manifest names is named already or belongs to the new generation. -/
theorem mem_nextManifest {publication : Publication} {manifest : Manifest} {name : FileName}
    (h : name ∈ (publication.nextManifest manifest).referenced) :
    name ∈ manifest.referenced ∨ name = .segment (manifest.generation + 1) ∨
      name = .route (manifest.generation + 1) := by
  cases publication with
  | sealing =>
    simp only [Publication.nextManifest, mem_referenced, List.mem_append, List.mem_singleton] at h ⊢
    obtain ⟨g, hg | rfl, rfl⟩ | ⟨g, hg | rfl, rfl⟩ := h
    · exact .inl (.inl ⟨g, hg, rfl⟩)
    · exact .inr (.inl rfl)
    · exact .inl (.inr ⟨g, hg, rfl⟩)
    · exact .inr (.inr rfl)
  | pruning =>
    simp only [Publication.nextManifest, mem_referenced, List.mem_singleton] at h
    obtain ⟨g, rfl, rfl⟩ | ⟨g, rfl, rfl⟩ := h
    · exact .inr (.inl rfl)
    · exact .inr (.inr rfl)

theorem generation_nextManifest (publication : Publication) (manifest : Manifest) :
    (publication.nextManifest manifest).generation = manifest.generation + 1 := by
  cases publication <;> rfl

theorem Manifest.Precedes.refl (manifest : Manifest) : manifest.Precedes manifest :=
  ⟨le_rfl, fun _ h _ _ _ => h⟩

theorem Manifest.Precedes.next {earlier later : Manifest} (h : earlier.Precedes later)
    (publication : Publication) : earlier.Precedes (publication.nextManifest later) := by
  refine ⟨?_, ?_⟩
  · rw [generation_nextManifest]
    exact h.1.trans (Nat.le_succ _)
  · intro name hName generation hPublished hLe
    obtain hOld | rfl | rfl := mem_nextManifest hName
    · exact h.2 name hOld generation hPublished hLe
    -- the new generation is newer than the earlier manifest
    all_goals
      have hGeneration : later.generation + 1 = generation := by
        simpa [FileName.published] using hPublished
      have := h.1
      omega

theorem published_of_mem_referenced {manifest : Manifest} {name : FileName}
    (h : name ∈ manifest.referenced) : ∃ generation, name.published = some generation := by
  obtain ⟨g, _, rfl⟩ | ⟨g, _, rfl⟩ := mem_referenced.mp h
  · exact ⟨g, rfl⟩
  · exact ⟨g, rfl⟩

theorem Manifest.Present.mono {manifest : Manifest} {files files' : Finset FileName}
    (h : manifest.Present files)
    (hFiles : ∀ name generation, name.published = some generation → name ∈ files →
      name ∈ files') : manifest.Present files' := by
  intro name hName
  obtain ⟨generation, hPublished⟩ := published_of_mem_referenced hName
  exact hFiles name generation hPublished (h name hName)

/-! ## Steps that keep published files -/

/-- `w'` has the manifests, worker and readers of `w` and all its published files. -/
structure SameAuthority (w w' : World) : Prop where
  manifest : w'.manifest = w.manifest
  writerManifest : w'.writerManifest = w.writerManifest
  worker : w'.worker = w.worker
  readers : w'.readers = w.readers
  files : ∀ name generation, name.published = some generation → name ∈ w.files → name ∈ w'.files
  -- the writer does not take the gate
  gate : w'.exclusiveHeld = true → w.exclusiveHeld = true

theorem Inv.of_sameAuthority {w w' : World} (h : Inv w) (hSame : SameAuthority w w')
    (hSegment : w'.writer.segmentDone = true → .segment (w.manifest.generation + 1) ∈ w'.files)
    (hRoute : w'.writer.routeDone = true → .route (w.manifest.generation + 1) ∈ w'.files) :
    Inv w' where
  own := by rw [hSame.writerManifest, hSame.manifest, h.own]
  present := hSame.manifest ▸ h.present.mono hSame.files
  bounded := hSame.manifest ▸ h.bounded
  segment := hSame.manifest ▸ hSegment
  route := hSame.manifest ▸ hRoute
  worker := by
    rw [hSame.worker, hSame.manifest]
    exact h.worker
  readers := by
    rw [hSame.readers]
    exact fun reader hReader manifest hLoaded =>
      (h.readers reader hReader manifest hLoaded).mono hSame.files
  gate := by
    rw [hSame.readers]
    exact fun hHeld => h.gate (hSame.gate hHeld)

theorem sameAuthority_insert {w : World} {writer : WriterPhase} (name : FileName)
    (hWriter : ∀ pending, writer ≠ .scanning pending) :
    SameAuthority w { w with files := insert name w.files, writer := writer } where
  manifest := rfl
  writerManifest := rfl
  worker := rfl
  readers := rfl
  files := fun _ _ _ hMem => Finset.mem_insert_of_mem hMem
  gate := by
    cases writer <;> simp_all [World.exclusiveHeld]

/-- A writer that only moves on and takes no gate keeps everything else. -/
theorem sameAuthority_writer {w : World} {writer : WriterPhase}
    (hWriter : ∀ pending, writer ≠ .scanning pending) :
    SameAuthority w { w with writer := writer } where
  manifest := rfl
  writerManifest := rfl
  worker := rfl
  readers := rfl
  files := fun _ _ _ hMem => hMem
  gate := by
    cases writer <;> simp_all [World.exclusiveHeld]

theorem sameAuthority_rename {w : World} {tmp name : FileName} {done : WriterPhase}
    (hTmp : tmp.published = none) (hDone : ∀ pending, done ≠ .scanning pending) :
    SameAuthority w (w.rename tmp name done) := by
  unfold World.rename
  split
  case isTrue hMem =>
    refine ⟨rfl, rfl, rfl, rfl, ?_, ?_⟩
    · intro other generation hPublished hOther
      have hNe : other ≠ tmp := by
        rintro rfl
        rw [hTmp] at hPublished
        cases hPublished
      exact Finset.mem_insert_of_mem (Finset.mem_erase.mpr ⟨hNe, hOther⟩)
    · cases done <;> simp_all [World.exclusiveHeld]
  case isFalse hMem => exact sameAuthority_writer (by simp)

/-! ## The writer -/

theorem segment_mem_rename {w : World} {tmp name : FileName} {done : WriterPhase}
    (h : (w.rename tmp name done).writer ≠ .failed) : name ∈ (w.rename tmp name done).files := by
  unfold World.rename at h ⊢
  split at h
  case isTrue hMem =>
    rw [if_pos hMem]
    exact Finset.mem_insert_self _ _
  case isFalse hMem => exact absurd rfl h

theorem writer_rename (w : World) (tmp name : FileName) (done : WriterPhase) :
    (w.rename tmp name done).writer = done ∨ (w.rename tmp name done).writer = .failed := by
  unfold World.rename
  split
  · exact .inl rfl
  · exact .inr rfl

theorem Inv.rename_segment {w : World} (h : Inv w) (publication : Publication) :
    Inv (w.rename (.segmentTmp (w.writerManifest.generation + 1))
      (.segment (w.writerManifest.generation + 1)) (.segmentPublished publication)) := by
  rw [h.own]
  refine h.of_sameAuthority (sameAuthority_rename rfl (by simp)) ?_ ?_
  · intro hDone
    apply segment_mem_rename
    intro hFailed
    rw [hFailed] at hDone
    cases hDone
  · intro hDone
    obtain hWriter | hWriter := writer_rename w (.segmentTmp (w.manifest.generation + 1))
      (.segment (w.manifest.generation + 1)) (.segmentPublished publication)
    all_goals
      rw [hWriter] at hDone
      cases hDone

theorem Inv.rename_route {w : World} (h : Inv w) {publication : Publication}
    (hWriter : w.writer = .routeStaged publication) :
    Inv (w.rename (.routeTmp (w.writerManifest.generation + 1))
      (.route (w.writerManifest.generation + 1)) (.routePublished publication)) := by
  rw [h.own]
  have hSegment := h.segment (by rw [hWriter]; rfl)
  have hSame : SameAuthority w (w.rename (.routeTmp (w.manifest.generation + 1))
      (.route (w.manifest.generation + 1)) (.routePublished publication)) :=
    sameAuthority_rename rfl (by simp)
  refine h.of_sameAuthority hSame (fun _ => hSame.files _ _ rfl hSegment) ?_
  intro hDone
  apply segment_mem_rename
  intro hFailed
  rw [hFailed] at hDone
  cases hDone

/-- Replacing the manifest makes the published generation authoritative. -/
theorem Inv.replaceManifest {w : World} (h : Inv w) {publication : Publication}
    (hWriter : w.writer = .manifestStaged publication) {writer : WriterPhase}
    (hNext : writer = .recycling ∨ writer = .recovering) :
    Inv { w with
      files := w.files.erase .manifestTmp
      manifest := publication.nextManifest w.writerManifest
      writerManifest := publication.nextManifest w.writerManifest
      writer := writer } := by
  have hSegment := h.segment (by rw [hWriter]; rfl)
  have hRoute := h.route (by rw [hWriter]; rfl)
  have hKept : ∀ name generation, name.published = some generation → name ∈ w.files →
      name ∈ w.files.erase .manifestTmp := by
    rintro name generation hPublished hName
    refine Finset.mem_erase.mpr ⟨?_, hName⟩
    rintro rfl
    cases hPublished
  rw [h.own]
  refine ⟨rfl, ?_, ?_, ?_, ?_, ?_, ?_, ?_⟩
  · intro name hName
    obtain hOld | rfl | rfl := mem_nextManifest hName
    · obtain ⟨generation, hPublished⟩ := published_of_mem_referenced hOld
      exact hKept name generation hPublished (h.present name hOld)
    · exact hKept _ _ rfl hSegment
    · exact hKept _ _ rfl hRoute
  · intro name hName generation hPublished
    rw [generation_nextManifest]
    obtain hOld | rfl | rfl := mem_nextManifest hName
    · exact (h.bounded name hOld generation hPublished).trans (Nat.le_succ _)
    all_goals
      have hGeneration : w.manifest.generation + 1 = generation := by
        simpa [FileName.published] using hPublished
      exact hGeneration.ge
  · obtain rfl | rfl := hNext <;> simp [WriterPhase.segmentDone]
  · obtain rfl | rfl := hNext <;> simp [WriterPhase.routeDone]
  · exact fun manifest hLoaded => (h.worker manifest hLoaded).next publication
  · exact fun reader hReader manifest hLoaded =>
      (h.readers reader hReader manifest hLoaded).mono hKept
  · intro hHeld
    apply h.gate
    obtain rfl | rfl := hNext <;> simp_all [World.exclusiveHeld]

theorem inv_publicationStep {w w' : World} {action : Action} (h : Inv w)
    (hStep : publicationStep w action = some w') : Inv w' := by
  cases action with
  | beginPublication publication =>
    simp only [publicationStep] at hStep
    split at hStep
    case h_1 hWriter hGeneration =>
      obtain rfl := Option.some.inj hStep
      exact h.of_sameAuthority (sameAuthority_insert _ (by simp)) (by simp [WriterPhase.segmentDone])
        (by simp [WriterPhase.routeDone])
    case h_2 => cases hStep
  | publishSegment =>
    simp only [publicationStep] at hStep
    split at hStep
    case h_1 publication hWriter =>
      obtain rfl := Option.some.inj hStep
      exact h.rename_segment publication
    case h_2 => cases hStep
  | stageRoute =>
    simp only [publicationStep] at hStep
    split at hStep
    case h_1 publication hWriter =>
      obtain rfl := Option.some.inj hStep
      have hSegment := h.segment (by rw [hWriter]; rfl)
      exact h.of_sameAuthority (sameAuthority_insert _ (by simp))
        (fun _ => Finset.mem_insert_of_mem hSegment) (by simp [WriterPhase.routeDone])
    case h_2 => cases hStep
  | publishRoute =>
    simp only [publicationStep] at hStep
    split at hStep
    case h_1 publication hWriter =>
      obtain rfl := Option.some.inj hStep
      exact h.rename_route hWriter
    case h_2 => cases hStep
  | stageManifest =>
    simp only [publicationStep] at hStep
    split at hStep
    case h_1 publication hWriter =>
      obtain rfl := Option.some.inj hStep
      have hSegment := h.segment (by rw [hWriter]; rfl)
      have hRoute := h.route (by rw [hWriter]; rfl)
      exact h.of_sameAuthority (sameAuthority_insert _ (by simp))
        (fun _ => Finset.mem_insert_of_mem hSegment) (fun _ => Finset.mem_insert_of_mem hRoute)
    case h_2 => cases hStep
  | replaceManifest =>
    simp only [publicationStep] at hStep
    split at hStep
    case h_1 publication hWriter =>
      split at hStep
      case isTrue hTmp =>
        obtain rfl := Option.some.inj hStep
        exact h.replaceManifest hWriter (by cases publication <;> simp)
      case isFalse hTmp =>
        obtain rfl := Option.some.inj hStep
        exact h.of_sameAuthority (sameAuthority_writer (by simp)) (by simp [WriterPhase.segmentDone])
          (by simp [WriterPhase.routeDone])
    case h_2 => cases hStep
  | recycleWal =>
    simp only [publicationStep] at hStep
    split at hStep
    case h_1 hWriter =>
      obtain rfl := Option.some.inj hStep
      exact h.of_sameAuthority (sameAuthority_writer (by simp)) (by simp [WriterPhase.segmentDone])
        (by simp [WriterPhase.routeDone])
    case h_2 => cases hStep
  | _ => cases hStep

/-! ## Removals -/

/-- A party that holds the gate may remove a file no manifest needs. -/
theorem Inv.erase {w : World} (h : Inv w) {name : FileName} (hHeld : w.exclusiveHeld = true)
    (hName : name ∉ w.manifest.referenced)
    (hFlight : w.writer.segmentDone = true → ∀ generation, name.published = some generation →
      generation ≠ w.manifest.generation + 1) :
    Inv { w with files := w.files.erase name } := by
  have hRouteDone : w.writer.routeDone = true → w.writer.segmentDone = true := by
    cases w.writer <;> simp [WriterPhase.routeDone, WriterPhase.segmentDone]
  refine { h with present := ?_, segment := ?_, route := ?_, readers := ?_ }
  · intro other hOther
    refine Finset.mem_erase.mpr ⟨?_, h.present other hOther⟩
    rintro rfl
    exact hName hOther
  · intro hDone
    refine Finset.mem_erase.mpr ⟨fun hEq => ?_, h.segment hDone⟩
    exact hFlight hDone _ (hEq ▸ rfl) rfl
  · intro hDone
    refine Finset.mem_erase.mpr ⟨fun hEq => ?_, h.route hDone⟩
    exact hFlight (hRouteDone hDone) _ (hEq ▸ rfl) rfl
  · intro reader hReader manifest hLoaded
    rw [h.gate hHeld reader hReader] at hLoaded
    cases hLoaded

theorem not_mem_of_removable {manifest : Manifest} {name : FileName}
    (h : removable manifest name = true) : name ∉ manifest.referenced := by
  simp only [removable, Bool.and_eq_true, Bool.not_eq_true', List.contains_eq_mem,
    decide_eq_false_iff_not] at h
  exact h.2

/-- A removal on current knowledge keeps the invariant. -/
theorem Inv.removeEntry {w : World} (h : Inv w) {manifest : Manifest} {name : FileName}
    {files : Finset FileName} (hHeld : w.exclusiveHeld = true)
    (hPrecedes : manifest.Precedes w.manifest)
    (hCurrent : removable manifest name = true → name ∈ w.files → CurrentRemoval w manifest name)
    (hRemove : removeEntry manifest name w.files = some files) : Inv { w with files := files } := by
  unfold Reclaim.removeEntry at hRemove
  split at hRemove
  case isFalse hKept =>
    obtain rfl := Option.some.inj hRemove
    exact h
  case isTrue hRemovable =>
    split at hRemove
    case isFalse => cases hRemove
    case isTrue hMem =>
      obtain rfl := Option.some.inj hRemove
      have hUnnamed := not_mem_of_removable hRemovable
      obtain hOld | ⟨rfl, hIdle⟩ := hCurrent hRemovable hMem
      · refine h.erase hHeld ?_ ?_
        · intro hNamed
          obtain ⟨generation, hPublished⟩ := published_of_mem_referenced hNamed
          exact hUnnamed (hPrecedes.2 name hNamed generation hPublished (hOld generation hPublished))
        · intro _ generation hPublished
          have := hOld generation hPublished
          have := hPrecedes.1
          omega
      · exact h.erase hHeld hUnnamed (by simp [hIdle])

/-- Taking the gate: it was free, so no reader holds a lease. -/
theorem closed_of_gateFree {w : World} (h : w.gateFree = true) :
    ∀ reader ∈ w.readers, reader = .closed := by
  simp only [World.gateFree, World.sharedHeld, Bool.and_eq_true, Bool.not_eq_true',
    List.any_eq_false, decide_eq_true_eq, not_not] at h
  exact h.2

theorem Inv.writer_to {w : World} (h : Inv w) {writer : WriterPhase}
    (hDone : writer.segmentDone = false)
    (hGate : ∀ pending, writer = .scanning pending → ∀ reader ∈ w.readers, reader = .closed) :
    Inv { w with writer := writer } := by
  have hRoute : writer.routeDone = false := by
    cases writer <;> simp_all [WriterPhase.routeDone, WriterPhase.segmentDone]
  refine { h with segment := ?_, route := ?_, gate := ?_ }
  · simp [hDone]
  · simp [hRoute]
  · intro hHeld
    cases writer with
    | scanning pending => exact hGate pending rfl
    | _ =>
      apply h.gate
      simp_all [World.exclusiveHeld]

theorem Inv.worker_to {w : World} (h : Inv w) {worker : WorkerPhase}
    (hManifest : ∀ manifest, worker.manifest = some manifest → manifest.Precedes w.manifest)
    (hGate : ∀ manifest pending, worker = .scanning manifest pending →
      ∀ reader ∈ w.readers, reader = .closed) : Inv { w with worker := worker } := by
  refine { h with worker := hManifest, gate := ?_ }
  intro hHeld
  cases worker with
  | scanning manifest pending => exact hGate manifest pending rfl
  | _ =>
    apply h.gate
    simp_all [World.exclusiveHeld]

theorem inv_recoveryStep {w w' : World} {action : Action} (h : Inv w)
    (hStep : recoveryStep w action = some w') : Inv w' := by
  cases action with
  | reopen =>
    obtain rfl := Option.some.inj hStep
    have hRecovering : Inv { w with writer := .recovering } := h.writer_to rfl (by simp)
    exact { hRecovering with own := rfl }
  | writerTryGate =>
    simp only [recoveryStep] at hStep
    split at hStep
    case h_1 hWriter =>
      obtain rfl := Option.some.inj hStep
      by_cases hFree : w.gateFree = true
      · simp only [hFree, if_true]
        exact h.writer_to rfl (fun _ _ => closed_of_gateFree hFree)
      · simp only [hFree]
        exact h.writer_to rfl (by simp)
    case h_2 => cases hStep
  | writerList name =>
    simp only [recoveryStep] at hStep
    split at hStep
    case h_1 pending hWriter =>
      split at hStep
      case isTrue =>
        obtain rfl := Option.some.inj hStep
        exact h.writer_to rfl (fun _ _ => h.gate (by simp [World.exclusiveHeld, hWriter]))
      case isFalse => cases hStep
    case h_2 => cases hStep
  | writerRemove =>
    simp only [recoveryStep] at hStep
    split at hStep
    case h_1 name pending hWriter =>
      have hHeld : w.exclusiveHeld = true := by simp [World.exclusiveHeld, hWriter]
      split at hStep
      case h_1 files hRemove =>
        obtain rfl := Option.some.inj hStep
        -- the writer's own manifest is the authoritative one, and it publishes nothing
        have hRemoved : Inv { w with files := files } :=
          h.removeEntry hHeld (h.own ▸ .refl _)
            (fun _ _ => .inr ⟨h.own, by rw [hWriter]; rfl⟩) hRemove
        exact hRemoved.writer_to rfl (fun _ _ => h.gate hHeld)
      case h_2 hRemove =>
        obtain rfl := Option.some.inj hStep
        exact h.writer_to rfl (by simp)
    case h_2 => cases hStep
  | writerFinish =>
    simp only [recoveryStep] at hStep
    split at hStep
    case h_1 hWriter =>
      obtain rfl := Option.some.inj hStep
      exact h.writer_to rfl (by simp)
    case h_2 => cases hStep
  | _ => cases hStep

/-! ## The worker -/

theorem inv_workerStep {w w' : World} {action : Action} (h : Inv w) (hCurrent : Current w action)
    (hStep : workerStep w action = some w') : Inv w' := by
  cases action with
  | workerStart =>
    obtain rfl := Option.some.inj hStep
    exact h.worker_to (by simp [WorkerPhase.manifest]) (by simp)
  | workerLoad =>
    simp only [workerStep] at hStep
    split at hStep
    case h_1 hWorker =>
      obtain rfl := Option.some.inj hStep
      refine h.worker_to ?_ (by simp)
      rintro manifest hLoaded
      obtain rfl := Option.some.inj hLoaded
      exact .refl _
    case h_2 => cases hStep
  | workerTryGate =>
    simp only [workerStep] at hStep
    split at hStep
    case h_1 manifest hWorker =>
      obtain rfl := Option.some.inj hStep
      have hManifest : manifest.Precedes w.manifest :=
        h.worker manifest (by rw [hWorker]; rfl)
      by_cases hFree : w.gateFree = true
      · simp only [hFree, if_true]
        refine h.worker_to ?_ (fun _ _ _ => closed_of_gateFree hFree)
        rintro _ hLoaded
        obtain rfl := Option.some.inj hLoaded
        exact hManifest
      · simp only [hFree]
        exact h.worker_to (by simp [WorkerPhase.manifest]) (by simp)
    case h_2 => cases hStep
  | workerList name =>
    simp only [workerStep] at hStep
    split at hStep
    case h_1 manifest pending hWorker =>
      split at hStep
      case isTrue =>
        obtain rfl := Option.some.inj hStep
        refine h.worker_to ?_ (fun _ _ _ => h.gate (by simp [World.exclusiveHeld, hWorker]))
        rintro _ hLoaded
        obtain rfl := Option.some.inj hLoaded
        exact h.worker _ (by rw [hWorker]; rfl)
      case isFalse => cases hStep
    case h_2 => cases hStep
  | workerRemove =>
    simp only [workerStep] at hStep
    split at hStep
    case h_1 manifest name pending hWorker =>
      have hHeld : w.exclusiveHeld = true := by simp [World.exclusiveHeld, hWorker]
      have hManifest : manifest.Precedes w.manifest := h.worker manifest (by rw [hWorker]; rfl)
      split at hStep
      case h_1 files hRemove =>
        obtain rfl := Option.some.inj hStep
        have hRemoved : Inv { w with files := files } :=
          h.removeEntry hHeld hManifest (hCurrent (manifest, name) (by simp [World.workerEntry, hWorker])) hRemove
        refine hRemoved.worker_to ?_ (fun _ _ _ => h.gate hHeld)
        rintro _ hLoaded
        obtain rfl := Option.some.inj hLoaded
        exact hManifest
      case h_2 hRemove =>
        obtain rfl := Option.some.inj hStep
        exact h.worker_to (by simp [WorkerPhase.manifest]) (by simp)
    case h_2 => cases hStep
  | workerFinish =>
    simp only [workerStep] at hStep
    split at hStep
    case h_1 manifest hWorker =>
      obtain rfl := Option.some.inj hStep
      exact h.worker_to (by simp [WorkerPhase.manifest]) (by simp)
    case h_2 => cases hStep
  | _ => cases hStep

/-! ## Readers -/

/-- A reader moves on: its files are there, and it does not appear behind a held gate. -/
theorem Inv.reader_to {w : World} (h : Inv w) {reader : Nat} {phase : ReaderPhase}
    (hManifest : ∀ manifest, phase.manifest = some manifest → manifest.Present w.files)
    (hGate : w.exclusiveHeld = true → phase = .closed) :
    Inv { w with readers := w.readers.set reader phase } := by
  refine { h with readers := ?_, gate := ?_ }
  · intro other hOther manifest hLoaded
    obtain hOld | rfl := List.mem_or_eq_of_mem_set hOther
    · exact h.readers other hOld manifest hLoaded
    · exact hManifest manifest hLoaded
  · intro hHeld other hOther
    obtain hOld | rfl := List.mem_or_eq_of_mem_set hOther
    · exact h.gate hHeld other hOld
    · exact hGate hHeld

theorem inv_readerStep {w w' : World} {action : Action} (h : Inv w)
    (hStep : readerStep w action = some w') : Inv w' := by
  cases action with
  | readerAcquire =>
    simp only [readerStep] at hStep
    split at hStep
    case isTrue => cases hStep
    case isFalse hFree =>
      obtain rfl := Option.some.inj hStep
      refine { h with readers := ?_, gate := fun hHeld => absurd hHeld hFree }
      intro other hOther manifest hLoaded
      obtain hOld | hNew := List.mem_append.mp hOther
      · exact h.readers other hOld manifest hLoaded
      · rw [List.mem_singleton.mp hNew] at hLoaded
        cases hLoaded
  | readerLoad reader =>
    simp only [readerStep] at hStep
    split at hStep
    case h_1 hReader =>
      obtain rfl := Option.some.inj hStep
      refine h.reader_to ?_ ?_
      · rintro manifest hLoaded
        obtain rfl := Option.some.inj hLoaded
        exact h.present
      · -- the reader holds a lease, so nobody holds the gate
        intro hHeld
        cases h.gate hHeld _ (List.mem_of_getElem? hReader)
    case h_2 => cases hStep
  | readerOpen reader =>
    simp only [readerStep] at hStep
    split at hStep
    case h_1 manifest hReader =>
      obtain rfl := Option.some.inj hStep
      have hMem := List.mem_of_getElem? hReader
      refine h.reader_to ?_ (fun hHeld => by cases h.gate hHeld _ hMem)
      intro loaded hLoaded
      split at hLoaded
      case isTrue =>
        obtain rfl := Option.some.inj hLoaded
        exact h.readers _ hMem _ rfl
      case isFalse => cases hLoaded
    case h_2 => cases hStep
  | readerClose reader =>
    simp only [readerStep] at hStep
    split at hStep
    case h_1 =>
      obtain rfl := Option.some.inj hStep
      exact h.reader_to (by simp [ReaderPhase.manifest]) (fun _ => rfl)
    case h_2 => cases hStep
  | _ => cases hStep

/-! ## Runs -/

theorem inv_initial : Inv .initial where
  own := rfl
  present := by simp [Manifest.Present, World.initial, Manifest.initial, Manifest.referenced]
  bounded := by simp [World.initial, Manifest.initial, Manifest.referenced]
  segment := by simp [World.initial, WriterPhase.segmentDone]
  route := by simp [World.initial, WriterPhase.routeDone]
  worker := by simp [World.initial, WorkerPhase.manifest]
  readers := by simp [World.initial]
  gate := by simp [World.initial]

theorem inv_step (w : World) (action : Action) (w' : World) (h : Inv w)
    (hCurrent : Current w action) (hStep : step w action = some w') : Inv w' := by
  simp only [step, Option.or_eq_some_iff] at hStep
  obtain hPublish | ⟨-, hRecover | ⟨-, hWork | ⟨-, hRead⟩⟩⟩ := hStep
  · exact inv_publicationStep h hPublish
  · exact inv_recoveryStep h hRecover
  · exact inv_workerStep h hCurrent hWork
  · exact inv_readerStep h hRead

/-- In every run whose removals all act on current knowledge, no file that the authoritative
manifest or an open reader's manifest names is missing. -/
theorem filesPresent_of_current {actions : List Action} {w : World}
    (hCurrent : StepsMeet step Current .initial actions) (hRun : run actions = some w) :
    FilesPresent w := by
  have hInv := runSteps_invariant inv_step inv_initial hCurrent hRun
  exact ⟨hInv.present, hInv.readers⟩

/-- A prune with the worker behind it: the old generation is removed, the new one stays. -/
def pruneRun : List Action :=
  [.beginPublication .sealing, .publishSegment, .stageRoute, .publishRoute, .stageManifest,
    .replaceManifest, .recycleWal, .beginPublication .pruning, .publishSegment, .stageRoute,
    .publishRoute, .stageManifest, .replaceManifest, .workerLoad, .workerTryGate,
    .workerList (.segment 1), .workerRemove]

theorem filesPresent_pruneRun : ∃ w, run pruneRun = some w ∧ FilesPresent w := by
  obtain ⟨w, hRun⟩ : ∃ w, run pruneRun = some w := Option.isSome_iff_exists.mp (by decide)
  exact ⟨w, hRun, filesPresent_of_current (by decide) hRun⟩

/-- The worker loads the manifest, the writer then completes a seal, and the worker removes the
segment the new manifest names. -/
def staleWorkerRun : List Action :=
  [.workerLoad, .beginPublication .sealing, .publishSegment, .stageRoute, .publishRoute,
    .stageManifest, .replaceManifest, .recycleWal, .workerTryGate, .workerList (.segment 1),
    .workerRemove]

theorem not_filesPresent_of_staleWorker :
    ¬ ∀ actions w, run actions = some w → FilesPresent w := by
  intro hAll
  obtain ⟨w, hRun, hMissing⟩ : ∃ w, run staleWorkerRun = some w ∧ ¬ w.manifest.Present w.files :=
    ⟨_, rfl, by decide⟩
  exact hMissing (hAll staleWorkerRun w hRun).1

end TulyaStore.Reclaim
