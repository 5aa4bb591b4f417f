import TulyaStore.Checkpoint.LazyOpening
import TulyaStore.Lib.Traces

/-!
# The caches of the lazy reader

A read changes nothing but the caches of the reader, and the caches are bounded and keep only what
the files say (`CachesOk`). So a computation of the reader has one answer, the same for every
reader of the same files: `Settles` says so, with what holds of the answer. The opening itself reads
this way, so the reader it returns has such caches (`openInternal_cachesOk`). Over a run of calls,
whatever was read before, evicted or rejected, every call answers as it would have right after the
opening, and as it would with nothing kept at all (`lazy_reads_ignore_caches`).
-/

namespace TulyaStore.Checkpoint

open Lib

/-! ## Readers of the same files -/

/-- The readers differ at most in their caches. -/
structure SameReader (r r' : LazyCheckpointStore) : Prop where
  manifest : r'.manifest = r.manifest
  deletedCheckpoints : r'.deletedCheckpoints = r.deletedCheckpoints
  segments : r'.segments = r.segments
  metadata : r'.metadata = r.metadata
  cacheCapacity : r'.cacheCapacity = r.cacheCapacity
  payloadFast : r'.payloadFast = r.payloadFast

theorem SameReader.refl (r : LazyCheckpointStore) : SameReader r r :=
  ⟨rfl, rfl, rfl, rfl, rfl, rfl⟩

/-- What the files say of a block, by the table of its segment. -/
def blockEntryOf (segments : List LazySegment) (segmentIndex blockIndex : Nat) :
    Except StoreError BlockEntry := do
  let segment ← okOr segments[segmentIndex]? (.format "lazy segment index outside reader")
  readLazyBlockEntry segment.file segment.index blockIndex

/-- The bytes of a block with the given table entry. -/
def blockBytesOf (P : Primitives) (segments : List LazySegment) (segmentIndex : Nat)
    (block : BlockEntry) : Except StoreError Bytes := do
  let segment ← okOr segments[segmentIndex]? (.format "lazy segment index outside reader")
  decodeBlock P segment block

def EntryAnswer (segments : List LazySegment) (key : BlockKey) (block : BlockEntry) : Prop :=
  blockEntryOf segments (ofLex key).1 (ofLex key).2 = .ok block

def BytesAnswer (P : Primitives) (segments : List LazySegment) (key : BlockKey) (raw : Bytes) :
    Prop :=
  ∃ block, EntryAnswer segments key block ∧
    blockBytesOf P segments (ofLex key).1 block = .ok raw

/-- The caches are bounded and keep what the files say. -/
structure CachesOk (P : Primitives) (r : LazyCheckpointStore) : Prop where
  capacity : 1 ≤ r.cacheCapacity
  entries : r.blockEntries.Sound r.cacheCapacity (EntryAnswer r.segments)
  blocks : r.cache.Sound r.cacheCapacity (BytesAnswer P r.segments)

/-- A reader of the files of `base`. -/
structure Like (P : Primitives) (base r : LazyCheckpointStore) : Prop where
  same : SameReader base r
  caches : CachesOk P r

/-! ## Answers that the caches do not change -/

/-- The end of a run with the given answer. -/
def answered {α : Type} (answer : Except StoreError α) (r : LazyCheckpointStore) :
    EStateM.Result StoreError LazyCheckpointStore α :=
  match answer with
  | .ok a => .ok a r
  | .error e => .error e r

/-- The computation has the same answer on all readers of these files. -/
def Answers (P : Primitives) (base : LazyCheckpointStore) {α : Type} (x : LazyM α)
    (answer : Except StoreError α) : Prop :=
  ∀ r, Like P base r → ∃ r', Like P base r' ∧ x r = answered answer r'

def Settles (P : Primitives) (base : LazyCheckpointStore) {α : Type} (x : LazyM α)
    (Q : α → Prop) : Prop :=
  ∃ answer, Answers P base x answer ∧ ∀ a, answer = .ok a → Q a

section Rules

variable {P : Primitives} {base : LazyCheckpointStore} {α β : Type} {Q : α → Prop}
  {R : β → Prop}

theorem settles_pure {a : α} (h : Q a) : Settles P base (pure a) Q := by
  refine ⟨.ok a, fun r hLike => ⟨r, hLike, rfl⟩, ?_⟩
  intro b hSame
  cases hSame
  exact h

theorem settles_throw (e : StoreError) : Settles P base (throw e) Q := by
  refine ⟨.error e, fun r hLike => ⟨r, hLike, rfl⟩, ?_⟩
  intro b hSame
  cases hSame

theorem settles_attempt (answer : Except StoreError α) :
    Settles P base (attempt answer) fun a => answer = .ok a := by
  refine ⟨answer, fun r hLike => ⟨r, hLike, ?_⟩, fun _ hSame => hSame⟩
  cases answer <;> rfl

theorem settles_bind {x : LazyM α} {f : α → LazyM β} (hx : Settles P base x Q)
    (hf : ∀ a, Q a → Settles P base (f a) R) : Settles P base (x >>= f) R := by
  obtain ⟨answer, hAnswers, hQ⟩ := hx
  cases answer with
  | error e =>
    refine ⟨.error e, ?_, fun _ hSame => by cases hSame⟩
    intro r hLike
    obtain ⟨r', hLike', hRun⟩ := hAnswers r hLike
    exact ⟨r', hLike', bind_run_error hRun⟩
  | ok a =>
    obtain ⟨answer, hRest, hR⟩ := hf a (hQ a rfl)
    refine ⟨answer, ?_, hR⟩
    intro r hLike
    obtain ⟨r', hLike', hRun⟩ := hAnswers r hLike
    obtain ⟨r'', hLike'', hRun'⟩ := hRest r' hLike'
    exact ⟨r'', hLike'', (bind_run_ok hRun).trans hRun'⟩

theorem settles_any {x : LazyM α} (h : Settles P base x Q) : Settles P base x fun _ => True := by
  obtain ⟨answer, hAnswers, -⟩ := h
  exact ⟨answer, hAnswers, fun _ _ => trivial⟩

/-- A computation that looks at the reader, but not at its caches. -/
theorem settles_get {f : LazyCheckpointStore → LazyM α}
    (hSame : ∀ r, SameReader base r → f r = f base) (h : Settles P base (f base) Q) :
    Settles P base (get >>= f) Q := by
  obtain ⟨answer, hAnswers, hQ⟩ := h
  refine ⟨answer, ?_, hQ⟩
  intro r hLike
  obtain ⟨r', hLike', hRun⟩ := hAnswers r hLike
  refine ⟨r', hLike', ?_⟩
  change f r r = _
  rw [hSame r hLike.same]
  exact hRun

end Rules

/-! ## Blocks -/

section Blocks

variable {P : Primitives} {base r : LazyCheckpointStore} {segmentIndex blockIndex : Nat}
  {block : BlockEntry}

theorem Like.withEntries (h : Like P base r) {blockEntries : FifoCache BlockKey BlockEntry}
    (hSound : blockEntries.Sound r.cacheCapacity (EntryAnswer r.segments)) :
    Like P base { r with blockEntries := blockEntries } :=
  ⟨⟨h.same.manifest, h.same.deletedCheckpoints, h.same.segments, h.same.metadata,
      h.same.cacheCapacity, h.same.payloadFast⟩,
    ⟨h.caches.capacity, hSound, h.caches.blocks⟩⟩

theorem Like.withBlocks (h : Like P base r) {cache : FifoCache BlockKey Bytes}
    (hSound : cache.Sound r.cacheCapacity (BytesAnswer P r.segments)) :
    Like P base { r with cache := cache } :=
  ⟨⟨h.same.manifest, h.same.deletedCheckpoints, h.same.segments, h.same.metadata,
      h.same.cacheCapacity, h.same.payloadFast⟩,
    ⟨h.caches.capacity, h.caches.entries, hSound⟩⟩

/-- A miss answers what the files say, and keeps it. -/
theorem fetchBlockEntry_run (h : Like P base r)
    (hMiss : r.blockEntries.kept.get (toLex (segmentIndex, blockIndex)) = none) :
    ∃ r', Like P base r' ∧ LazyCheckpointStore.fetchBlockEntry segmentIndex blockIndex r =
      answered (blockEntryOf base.segments segmentIndex blockIndex) r' := by
  rw [← h.same.segments]
  unfold LazyCheckpointStore.fetchBlockEntry
  cases hSegment : okOr r.segments[segmentIndex]?
      (StoreError.format "lazy segment index outside reader") with
  | error e =>
    refine ⟨r, h, ?_⟩
    rw [blockEntryOf, hSegment]
    exact (bind_run_ok rfl).trans (attempt_bind_error hSegment)
  | ok segment =>
    cases hEntry : readLazyBlockEntry segment.file segment.index blockIndex with
    | error e =>
      refine ⟨r, h, ?_⟩
      rw [blockEntryOf, hSegment, ok_bind, hEntry]
      refine (bind_run_ok rfl).trans ((attempt_bind_ok hSegment).trans ?_)
      exact attempt_bind_error hEntry
    | ok entry =>
      have hTrue : EntryAnswer r.segments (toLex (segmentIndex, blockIndex)) entry := by
        change blockEntryOf r.segments segmentIndex blockIndex = _
        rw [blockEntryOf, hSegment, ok_bind, hEntry]
      obtain ⟨blockEntries, hPut, hSound, -⟩ := FifoCache.put_sound h.caches.entries
        h.caches.capacity hMiss hTrue (StoreError.format "lazy block-entry eviction order is empty")
      refine ⟨_, h.withEntries hSound, ?_⟩
      rw [blockEntryOf, hSegment, ok_bind, hEntry]
      refine (bind_run_ok rfl).trans ((attempt_bind_ok hSegment).trans ?_)
      exact (attempt_bind_ok hEntry).trans (attempt_bind_ok hPut)

theorem readBlockEntry_settles :
    Settles P base (LazyCheckpointStore.readBlockEntry segmentIndex blockIndex) fun block =>
      blockEntryOf base.segments segmentIndex blockIndex = .ok block := by
  refine ⟨blockEntryOf base.segments segmentIndex blockIndex, ?_, fun _ hSame => hSame⟩
  intro r hLike
  unfold LazyCheckpointStore.readBlockEntry
  cases hKept : r.blockEntries.kept.get (toLex (segmentIndex, blockIndex)) with
  | none =>
    obtain ⟨r', hLike', hRun⟩ := fetchBlockEntry_run hLike hKept
    refine ⟨r', hLike', (bind_run_ok rfl).trans ?_⟩
    rw [hKept]
    exact hRun
  | some entry =>
    -- what is kept is what the files say
    have hTrue : blockEntryOf r.segments segmentIndex blockIndex = .ok entry :=
      hLike.caches.entries.answers _ _ hKept
    rw [hLike.same.segments] at hTrue
    refine ⟨r, hLike, (bind_run_ok rfl).trans ?_⟩
    rw [hKept, hTrue]
    rfl

theorem fetchBlock_run (h : Like P base r)
    (hEntry : blockEntryOf base.segments segmentIndex blockIndex = .ok block)
    (hMiss : r.cache.kept.get (toLex (segmentIndex, blockIndex)) = none) :
    ∃ r', Like P base r' ∧ LazyCheckpointStore.fetchBlock P segmentIndex blockIndex block r =
      answered (blockBytesOf P base.segments segmentIndex block) r' := by
  rw [← h.same.segments] at hEntry ⊢
  unfold LazyCheckpointStore.fetchBlock
  cases hSegment : okOr r.segments[segmentIndex]?
      (StoreError.format "lazy segment index outside reader") with
  | error e =>
    refine ⟨r, h, ?_⟩
    rw [blockBytesOf, hSegment]
    exact (bind_run_ok rfl).trans (attempt_bind_error hSegment)
  | ok segment =>
    cases hDecoded : decodeBlock P segment block with
    | error e =>
      refine ⟨r, h, ?_⟩
      rw [blockBytesOf, hSegment, ok_bind, hDecoded]
      refine (bind_run_ok rfl).trans ((attempt_bind_ok hSegment).trans ?_)
      exact attempt_bind_error hDecoded
    | ok decoded =>
      have hBytes : blockBytesOf P r.segments segmentIndex block = .ok decoded := by
        rw [blockBytesOf, hSegment, ok_bind, hDecoded]
      have hTrue : BytesAnswer P r.segments (toLex (segmentIndex, blockIndex)) decoded :=
        ⟨block, hEntry, hBytes⟩
      obtain ⟨cache, hPut, hSound, hFound⟩ := FifoCache.put_sound h.caches.blocks h.caches.capacity
        hMiss hTrue (StoreError.format "lazy cache eviction order is empty")
      refine ⟨_, h.withBlocks hSound, ?_⟩
      rw [hBytes]
      refine (bind_run_ok rfl).trans ((attempt_bind_ok hSegment).trans ?_)
      refine (attempt_bind_ok hDecoded).trans ((attempt_bind_ok hPut).trans ?_)
      refine (bind_run_ok rfl).trans ?_
      rw [hFound]
      rfl

/-- A block is read with the entry its table gives, so a kept block is the one the files have. -/
theorem loadBlock_settles
    (hEntry : blockEntryOf base.segments segmentIndex blockIndex = .ok block) :
    Settles P base (LazyCheckpointStore.loadBlock P segmentIndex blockIndex block)
      fun _ => True := by
  refine ⟨blockBytesOf P base.segments segmentIndex block, ?_, fun _ _ => trivial⟩
  intro r hLike
  unfold LazyCheckpointStore.loadBlock
  cases hKept : r.cache.kept.get (toLex (segmentIndex, blockIndex)) with
  | none =>
    obtain ⟨r', hLike', hRun⟩ := fetchBlock_run hLike hEntry hKept
    refine ⟨r', hLike', (bind_run_ok rfl).trans ?_⟩
    rw [hKept]
    exact hRun
  | some decoded =>
    obtain ⟨block', hEntry', hBytes⟩ := hLike.caches.blocks.answers _ _ hKept
    change blockEntryOf r.segments segmentIndex blockIndex = _ at hEntry'
    change blockBytesOf P r.segments segmentIndex block' = _ at hBytes
    rw [hLike.same.segments] at hEntry' hBytes
    have hBlock : block' = block := Except.ok.inj (hEntry'.symm.trans hEntry)
    subst hBlock
    refine ⟨r, hLike, (bind_run_ok rfl).trans ?_⟩
    rw [hKept, hBytes]
    rfl

end Blocks

/-! ## Ranges -/

section Ranges

variable {P : Primitives} {room : Nat} {base : LazyCheckpointStore} {c : Column}

theorem copyBlock_settles (segmentIndex : Nat) (entry : StreamEntry)
    (blockSize localEnd localCursor : Nat) (output : Bytes) :
    Settles P base (LazyCheckpointStore.copyBlock P room c segmentIndex entry blockSize localEnd
      localCursor output) fun _ => True := by
  unfold LazyCheckpointStore.copyBlock
  refine settles_bind (settles_attempt _) fun position _ => ?_
  refine settles_bind (settles_attempt _) fun blockIndex _ => ?_
  refine settles_bind readBlockEntry_settles fun block hBlock => ?_
  refine settles_bind (settles_attempt _) fun _ _ => ?_
  refine settles_bind (settles_attempt _) fun blockEndRaw _ => ?_
  refine settles_bind (settles_attempt _) fun _ _ => ?_
  refine settles_bind (loadBlock_settles hBlock) fun decoded _ => ?_
  refine settles_bind (settles_attempt _) fun copied _ => ?_
  refine settles_bind (settles_attempt _) fun output _ => ?_
  refine settles_bind (settles_attempt _) fun global _ => ?_
  exact settles_pure trivial

theorem copyBlocks_settles (segmentIndex : Nat) (entry : StreamEntry)
    (blockSize localEnd fuel localCursor : Nat) (output : Bytes) :
    Settles P base (LazyCheckpointStore.copyBlocks P room c segmentIndex entry blockSize localEnd fuel
      localCursor output) fun _ => True := by
  induction fuel generalizing localCursor output with
  | zero =>
    unfold LazyCheckpointStore.copyBlocks
    split
    · exact settles_throw _
    · exact settles_pure trivial
  | succ fuel ih =>
    unfold LazyCheckpointStore.copyBlocks
    split
    · refine settles_bind
        (copyBlock_settles segmentIndex entry blockSize localEnd localCursor output) ?_
      intro step _
      exact ih step.2 step.1
    · exact settles_pure trivial

theorem copySegment_settles (stop cursor : Nat) (output : Bytes) :
    Settles P base (LazyCheckpointStore.copySegment P room c stop cursor output) fun _ => True := by
  unfold LazyCheckpointStore.copySegment
  refine settles_get (fun r hSame => by rw [hSame.segments]) ?_
  refine settles_bind (settles_attempt _) fun found _ => ?_
  obtain ⟨segmentIndex, entry⟩ := found
  refine settles_bind (settles_attempt _) fun localStart _ => ?_
  refine settles_bind (settles_attempt _) fun localEnd _ => ?_
  refine settles_bind (settles_attempt _) fun _ _ => ?_
  refine settles_bind (settles_attempt _) fun segment _ => ?_
  refine settles_bind (copyBlocks_settles _ _ _ _ _ _ _) fun result _ => ?_
  exact settles_pure trivial

theorem copySegments_settles (stop fuel cursor : Nat) (output : Bytes) :
    Settles P base (LazyCheckpointStore.copySegments P room c stop fuel cursor output)
      fun _ => True := by
  induction fuel generalizing cursor output with
  | zero =>
    unfold LazyCheckpointStore.copySegments
    split
    · exact settles_throw _
    · exact settles_pure trivial
  | succ fuel ih =>
    unfold LazyCheckpointStore.copySegments
    split
    · refine settles_bind (copySegment_settles stop cursor output) fun step _ => ?_
      exact ih step.2 step.1
    · exact settles_pure trivial

theorem copyRange_settles (start stop : Nat) (output : Bytes) :
    Settles P base (LazyCheckpointStore.copyRange P room c start stop output) fun _ => True := by
  unfold LazyCheckpointStore.copyRange
  refine settles_get (fun r hSame => ?_) ?_
  · rw [LazyCheckpointStore.decodedStream, hSame.payloadFast]
    rfl
  · cases base.decodedStream c with
    | some payload =>
      refine settles_bind (settles_attempt _) fun part _ => ?_
      exact settles_any (settles_attempt _)
    | none =>
      refine settles_bind (copySegments_settles _ _ _ _) fun result _ => ?_
      refine settles_bind (settles_attempt _) fun _ _ => ?_
      exact settles_pure trivial

theorem appendStreamRange_settles (start length : Nat) (output : Bytes) :
    Settles P base (LazyCheckpointStore.appendStreamRange P room c start length output)
      fun _ => True := by
  unfold LazyCheckpointStore.appendStreamRange
  refine settles_get (fun r hSame => by rw [hSame.manifest]) ?_
  refine settles_bind (settles_attempt _) fun stop _ => ?_
  refine settles_bind (settles_attempt _) fun _ _ => ?_
  split
  · exact settles_pure trivial
  · exact copyRange_settles start stop output

theorem readStreamRange_settles (start length : Nat) :
    Settles P base (LazyCheckpointStore.readStreamRange P room c start length)
      fun _ => True := by
  unfold LazyCheckpointStore.readStreamRange
  refine settles_bind (settles_attempt _) fun _ _ => ?_
  exact appendStreamRange_settles start length []

theorem readStreamAll_settles :
    Settles P base (LazyCheckpointStore.readStreamAll P room c) fun _ => True := by
  unfold LazyCheckpointStore.readStreamAll
  exact settles_get (fun r hSame => by rw [hSame.manifest]) (readStreamRange_settles _ _)

end Ranges

/-! ## Checkpoints -/

section Checkpoints

variable {P : Primitives} {room : Nat} {base : LazyCheckpointStore}

theorem readKind_settles (c : Column) (index : Nat) (missing : String) :
    Settles P base (LazyCheckpointStore.readKind P room c index missing) fun _ => True := by
  unfold LazyCheckpointStore.readKind
  refine settles_bind (readStreamRange_settles _ _) fun bytes _ => ?_
  exact settles_any (settles_attempt _)

theorem decodeWideNode_settles (nodeId wideIndex : Nat) :
    Settles P base (LazyCheckpointStore.decodeWideNode P room nodeId wideIndex)
      fun _ => True := by
  unfold LazyCheckpointStore.decodeWideNode
  refine settles_get (fun r hSame => by rw [hSame.manifest]) ?_
  refine settles_bind (settles_attempt _) fun _ _ => ?_
  refine settles_bind (settles_attempt _) fun wideOffset _ => ?_
  refine settles_bind (readKind_settles _ _ _) fun kind _ => ?_
  refine settles_bind (readStreamRange_settles _ _) fun a _ => ?_
  refine settles_bind (readStreamRange_settles _ _) fun b _ => ?_
  exact settles_any (settles_attempt _)

theorem decodeKind_settles (nodeId field0Offset field1Offset : Nat) (kind : UInt8) :
    Settles P base (LazyCheckpointStore.decodeKind P room nodeId field0Offset field1Offset kind)
      fun _ => True := by
  unfold LazyCheckpointStore.decodeKind
  split
  · refine settles_bind (readStreamRange_settles _ _) fun field0 _ => ?_
    refine settles_bind (readStreamRange_settles _ _) fun field1 _ => ?_
    exact settles_any (settles_attempt _)
  · split
    · refine settles_bind (readStreamRange_settles _ _) fun field0 _ => ?_
      exact settles_any (settles_attempt _)
    · split
      · refine settles_bind (readStreamRange_settles _ _) fun field0 _ => ?_
        refine settles_bind (settles_attempt _) fun wideIndex _ => ?_
        exact decodeWideNode_settles nodeId wideIndex
      · exact settles_throw _

theorem decodeNode_settles (nodeId : Nat) :
    Settles P base (LazyCheckpointStore.decodeNode P room nodeId) fun _ => True := by
  unfold LazyCheckpointStore.decodeNode
  refine settles_get (fun r hSame => by rw [hSame.manifest]) ?_
  refine settles_bind (settles_attempt _) fun _ _ => ?_
  refine settles_bind (settles_attempt _) fun field0Offset _ => ?_
  refine settles_bind (settles_attempt _) fun field1Offset _ => ?_
  refine settles_bind (readKind_settles _ _ _) fun kind _ => ?_
  exact decodeKind_settles nodeId field0Offset field1Offset kind

theorem extractLoop_settles (fuel : Nat) (stack : List Nat) (out : Bytes) :
    Settles P base (LazyCheckpointStore.extractLoop P room fuel stack out) fun _ => True := by
  induction fuel generalizing stack out with
  | zero =>
    cases stack with
    | nil => exact settles_pure trivial
    | cons nodeId stack => exact settles_throw _
  | succ fuel ih =>
    cases stack with
    | nil => exact settles_pure trivial
    | cons nodeId stack =>
      unfold LazyCheckpointStore.extractLoop
      refine settles_bind (decodeNode_settles nodeId) fun node _ => ?_
      cases node with
      | leaf start length =>
        refine settles_bind (settles_attempt _) fun stop _ => ?_
        refine settles_bind (settles_attempt _) fun length _ => ?_
        refine settles_bind (appendStreamRange_settles _ _ _) fun out _ => ?_
        exact ih stack out
      | binary left right => exact ih (left :: right :: stack) out

theorem extractVersion_settles (version : Nat) :
    Settles P base (LazyCheckpointStore.extractVersion P room version) fun _ => True := by
  unfold LazyCheckpointStore.extractVersion
  refine settles_get (fun r hSame => by rw [hSame.metadata]) ?_
  refine settles_bind (settles_attempt _) fun root _ => ?_
  exact extractLoop_settles _ _ _

theorem extractOptional_settles (version : Option Nat) :
    Settles P base (LazyCheckpointStore.extractOptional P room version) fun _ => True := by
  cases version with
  | none => exact settles_pure trivial
  | some version =>
    refine settles_bind (extractVersion_settles version) fun bytes _ => ?_
    exact settles_pure trivial

theorem reconstructCheckpoint_settles (checkpoint : CheckpointInfo) :
    Settles P base (LazyCheckpointStore.reconstructCheckpoint P room checkpoint)
      fun _ => True := by
  unfold LazyCheckpointStore.reconstructCheckpoint
  refine settles_bind (extractVersion_settles _) fun identity _ => ?_
  refine settles_bind (extractOptional_settles _) fun messages _ => ?_
  refine settles_bind (extractOptional_settles _) fun result _ => ?_
  exact settles_any (settles_attempt _)

theorem readCheckpoint_settles (key : CheckpointKey) :
    Settles P base (LazyCheckpointStore.readCheckpoint P room key) fun _ => True := by
  unfold LazyCheckpointStore.readCheckpoint
  refine settles_get (fun r hSame => by rw [hSame.metadata, hSame.deletedCheckpoints]) ?_
  refine settles_bind (settles_attempt _) fun ordinal _ => ?_
  unfold LazyCheckpointStore.readCheckpointOrdinal
  refine settles_get (fun r hSame => by rw [hSame.metadata]) ?_
  refine settles_bind (settles_attempt _) fun checkpoint _ => ?_
  exact reconstructCheckpoint_settles checkpoint

theorem countFailures_settles (checkpoints : List CheckpointInfo) (failures : Nat) :
    Settles P base (LazyCheckpointStore.countFailures P room checkpoints failures)
      fun _ => True := by
  induction checkpoints generalizing failures with
  | nil => exact settles_pure trivial
  | cons checkpoint rest ih =>
    unfold LazyCheckpointStore.countFailures
    refine settles_bind (reconstructCheckpoint_settles checkpoint) fun bytes _ => ?_
    split
    · exact ih _
    · exact ih failures

theorem verifyAll_settles :
    Settles P base (LazyCheckpointStore.verifyAll P room) fun _ => True := by
  unfold LazyCheckpointStore.verifyAll
  refine settles_get (fun r hSame => by rw [hSame.segments, hSame.metadata]) ?_
  refine settles_bind (settles_attempt _) fun _ _ => ?_
  refine settles_bind (countFailures_settles _ _) fun failures _ => ?_
  exact settles_pure trivial

end Checkpoints

/-! ## The opening -/

section Opening

variable {P : Primitives} {room : Nat} {base r : LazyCheckpointStore}

theorem readCheckpointColumns_settles :
    Settles P base (LazyCheckpointStore.readCheckpointColumns P room) fun _ => True := by
  unfold LazyCheckpointStore.readCheckpointColumns
  refine settles_bind readStreamAll_settles fun thread _ => ?_
  refine settles_bind readStreamAll_settles fun no _ => ?_
  refine settles_bind readStreamAll_settles fun parent _ => ?_
  refine settles_bind readStreamAll_settles fun identity _ => ?_
  refine settles_bind readStreamAll_settles fun messages _ => ?_
  refine settles_bind readStreamAll_settles fun result _ => ?_
  refine settles_bind readStreamAll_settles fun len _ => ?_
  refine settles_bind readStreamAll_settles fun hash _ => ?_
  exact settles_pure trivial

theorem touchStreams_settles (columns : List Column) :
    Settles P base (LazyCheckpointStore.touchStreams P room columns) fun _ => True := by
  induction columns with
  | nil => exact settles_pure trivial
  | cons c rest ih => exact settles_bind readStreamAll_settles fun _ _ => ih

theorem loadMetadata_settles (eagerTopology : Bool) :
    Settles P base (LazyCheckpointStore.loadMetadata P room eagerTopology) fun _ => True := by
  unfold LazyCheckpointStore.loadMetadata
  refine settles_get (fun r hSame => by rw [hSame.manifest]) ?_
  refine settles_bind readStreamAll_settles fun roots _ => ?_
  refine settles_bind readStreamAll_settles fun parents _ => ?_
  refine settles_bind (settles_attempt _) fun versions _ => ?_
  refine settles_bind readStreamAll_settles fun threadOffsets _ => ?_
  refine settles_bind readStreamAll_settles fun threadBytes _ => ?_
  refine settles_bind (settles_attempt _) fun threads _ => ?_
  refine settles_bind readStreamAll_settles fun idOffsets _ => ?_
  refine settles_bind readStreamAll_settles fun idBytes _ => ?_
  refine settles_bind (settles_attempt _) fun checkpointIds _ => ?_
  refine settles_bind readCheckpointColumns_settles fun columns _ => ?_
  refine settles_bind (settles_attempt _) fun _ _ => ?_
  refine settles_bind (settles_attempt _) fun checkpoints _ => ?_
  refine settles_bind (settles_attempt _) fun _ _ => ?_
  refine settles_bind (touchStreams_settles _) fun _ _ => ?_
  exact settles_pure trivial

theorem CachesOk.like (h : CachesOk P r) : Like P r r := ⟨.refl r, h⟩

/-- A computation that settles leaves the reader with good caches. -/
theorem Settles.cachesOk {α : Type} {x : LazyM α} {Q : α → Prop} (hSettles : Settles P r x Q)
    (h : CachesOk P r) {a : α} {r' : LazyCheckpointStore} (hRun : x r = .ok a r') :
    Like P r r' := by
  obtain ⟨answer, hAnswers, -⟩ := hSettles
  obtain ⟨after, hLike, hAnswered⟩ := hAnswers r h.like
  rw [hRun] at hAnswered
  cases answer with
  | error e => cases hAnswered
  | ok b =>
    cases hAnswered
    exact hLike

theorem decodePayload_cachesOk (h : CachesOk P r) {r' : LazyCheckpointStore}
    (hRun : LazyCheckpointStore.decodePayload P room r = .ok () r') :
    CachesOk P r' ∧ r'.cacheCapacity = r.cacheCapacity := by
  obtain ⟨_, _, hGet, hRest⟩ := bind_run_eq_ok.mp hRun
  cases hGet
  split at hRest
  · obtain ⟨payload, middle, hRead, hDone⟩ := bind_run_eq_ok.mp hRest
    have hLike := (readStreamRange_settles _ _).cachesOk h hRead
    cases hDone
    exact ⟨⟨hLike.caches.capacity, hLike.caches.entries, FifoCache.sound_empty⟩,
      hLike.same.cacheCapacity⟩
  · cases hRest
    exact ⟨h, rfl⟩

theorem loadSealed_cachesOk (h : CachesOk P r) {eagerTopology : Bool} {r' : LazyCheckpointStore}
    (hRun : LazyCheckpointStore.loadSealed P room eagerTopology r = .ok () r') :
    CachesOk P r' ∧ r'.cacheCapacity = r.cacheCapacity := by
  obtain ⟨metadata, middle, hLoad, hRest⟩ := bind_run_eq_ok.mp hRun
  have hLike := (loadMetadata_settles eagerTopology).cachesOk h hLoad
  obtain ⟨_, _, hModify, hDecode⟩ := bind_run_eq_ok.mp hRest
  cases hModify
  -- the metadata has no part in what the caches keep
  have hCaches : CachesOk P { middle with metadata := metadata } :=
    ⟨hLike.caches.capacity, hLike.caches.entries, hLike.caches.blocks⟩
  obtain ⟨hDone, hCapacity⟩ := decodePayload_cachesOk hCaches hDecode
  exact ⟨hDone, hCapacity.trans hLike.same.cacheCapacity⟩

theorem lazyBlockCacheCapacity_bounds {environment : LazyEnvironment} {capacity : Nat}
    (h : lazyBlockCacheCapacity environment = .ok capacity) :
    1 ≤ capacity ∧ capacity ≤ lazyDiagnosticMaxCacheCapacity := by
  unfold lazyBlockCacheCapacity at h
  split at h
  · cases h
    decide
  · obtain ⟨_, hBounds, hDone⟩ := bind_eq_ok.mp h
    rw [failIf_eq_ok] at hBounds
    cases hDone
    omega

/-- The reader that is opened has good caches, whatever it has read for its metadata. -/
theorem openInternal_cachesOk {environment : LazyEnvironment} {allowHotSuffix : Bool}
    {dir : Directory}
    (h : LazyCheckpointStore.openInternal P room environment allowHotSuffix dir = .ok r) :
    CachesOk P r ∧ r.cacheCapacity ≤ lazyDiagnosticMaxCacheCapacity := by
  obtain ⟨manifest, -, h⟩ := bind_eq_ok.mp h
  obtain ⟨segments, -, h⟩ := bind_eq_ok.mp h
  obtain ⟨capacity, hCapacity, h⟩ := bind_eq_ok.mp h
  obtain ⟨hPos, hMax⟩ := lazyBlockCacheCapacity_bounds hCapacity
  have hBare : CachesOk P (LazyCheckpointStore.bare manifest segments capacity) :=
    ⟨hPos, FifoCache.sound_empty, FifoCache.sound_empty⟩
  dsimp only at h
  split at h
  · cases h
    exact ⟨hBare, hMax⟩
  · obtain ⟨_, -, h⟩ := bind_eq_ok.mp h
    split at h
    · rename_i done hLoad
      cases h
      obtain ⟨hCaches, hSame⟩ := loadSealed_cachesOk hBare hLoad
      exact ⟨hCaches, hSame.trans_le hMax⟩
    · cases h

end Opening

/-! ## Runs -/

/-- A call that reads: a checkpoint, all of them, or a range of a stream. -/
inductive LazyCall where
  | readCheckpoint (key : CheckpointKey)
  | verifyAll
  | readStreamRange (c : Column) (start length : Nat)
deriving DecidableEq, Repr

inductive LazyAnswer where
  | bytes (bytes : Bytes)
  | report (report : LazyCheckpointStore.VerificationReport)
deriving DecidableEq, Repr

def LazyCall.run (P : Primitives) (room : Nat) : LazyCall → LazyM LazyAnswer
  | .readCheckpoint key => do
    let bytes ← LazyCheckpointStore.readCheckpoint P room key
    return .bytes bytes
  | .verifyAll => do
    let report ← LazyCheckpointStore.verifyAll P room
    return .report report
  | .readStreamRange c start length => do
    let bytes ← LazyCheckpointStore.readStreamRange P room c start length
    return .bytes bytes

/-- A call with its answer; a rejected one leaves the reader in use. -/
inductive LazyStep (P : Primitives) (room : Nat) :
    LazyCheckpointStore → LazyCall × Except StoreError LazyAnswer → LazyCheckpointStore →
      Prop where
  | call {r r' : LazyCheckpointStore} {call : LazyCall} {answer : Except StoreError LazyAnswer}
      (hRun : call.run P room r = answered answer r') : LazyStep P room r (call, answer) r'

/-- The answer of a call. -/
def LazyCall.answer (P : Primitives) (room : Nat) (call : LazyCall) (r : LazyCheckpointStore) :
    Except StoreError LazyAnswer :=
  match call.run P room r with
  | .ok answer _ => .ok answer
  | .error e _ => .error e

/-- Every call can be made. -/
theorem LazyStep.of_run {P : Primitives} {room : Nat} {r : LazyCheckpointStore} (call : LazyCall) :
    LazyStep P room r (call, call.answer P room r) (finalState (call.run P room) r) := by
  refine .call ?_
  unfold LazyCall.answer finalState
  cases call.run P room r <;> rfl

/-- The reader with nothing kept. -/
def LazyCheckpointStore.cleared (r : LazyCheckpointStore) : LazyCheckpointStore :=
  { r with cache := .empty, blockEntries := .empty }

section Runs

variable {P : Primitives} {room : Nat} {r r' : LazyCheckpointStore}
  {log : List (LazyCall × Except StoreError LazyAnswer)}

theorem CachesOk.like_cleared (h : CachesOk P r) : Like P r r.cleared :=
  ⟨⟨rfl, rfl, rfl, rfl, rfl, rfl⟩,
    ⟨h.capacity, FifoCache.sound_empty, FifoCache.sound_empty⟩⟩

theorem answered_inj {α : Type} {answer answer' : Except StoreError α}
    (h : answered answer r = answered answer' r') : answer = answer' ∧ r = r' := by
  cases answer <;> cases answer' <;> cases h <;> exact ⟨rfl, rfl⟩

theorem LazyCall.settles {base : LazyCheckpointStore} (call : LazyCall) :
    Settles P base (call.run P room) fun _ => True := by
  cases call with
  | readCheckpoint key =>
    exact settles_bind (readCheckpoint_settles key) fun _ _ => settles_pure trivial
  | verifyAll => exact settles_bind verifyAll_settles fun _ _ => settles_pure trivial
  | readStreamRange c start length =>
    exact settles_bind (readStreamRange_settles start length) fun _ _ => settles_pure trivial

/-- One call on a reader of the files of `base` answers as on every other one. -/
theorem LazyStep.answers {base : LazyCheckpointStore}
    {event : LazyCall × Except StoreError LazyAnswer} (h : LazyStep P room r event r')
    (hLike : Like P base r) : Answers P base (event.1.run P room) event.2 ∧ Like P base r' := by
  cases h with
  | @call _ call answer hRun =>
    have hSettles : Settles P base (call.run P room) fun _ => True := call.settles
    obtain ⟨known, hAnswers, -⟩ := hSettles
    obtain ⟨after, hAfter, hKnown⟩ := hAnswers r hLike
    obtain ⟨rfl, rfl⟩ := answered_inj (hRun.symm.trans hKnown)
    exact ⟨hAnswers, hAfter⟩

theorem runs_answer {base s t : LazyCheckpointStore}
    {events : List (LazyCall × Except StoreError LazyAnswer)}
    (hTrace : Traces (LazyStep P room) s events t) (hLike : Like P base s) :
    (∀ event ∈ events, Answers P base (event.1.run P room) event.2) ∧ Like P base t := by
  induction hTrace with
  | nil s => exact ⟨fun _ hMem => absurd hMem List.not_mem_nil, hLike⟩
  | cons hStep _ ih =>
    obtain ⟨hAnswers, hNext⟩ := hStep.answers hLike
    obtain ⟨hRest, hLast⟩ := ih hNext
    refine ⟨fun event hMem => ?_, hLast⟩
    rcases List.mem_cons.mp hMem with rfl | hLater
    · exact hAnswers
    · exact hRest event hLater

/-- In every run of calls of an opened reader each call answers as it does on the opened reader and
as it does with nothing kept, and the caches never grow past their capacity. -/
theorem lazy_reads_ignore_caches {environment : LazyEnvironment} {allowHotSuffix : Bool}
    {dir : Directory}
    (hOpen : LazyCheckpointStore.openInternal P room environment allowHotSuffix dir = .ok r)
    (hRun : Traces (LazyStep P room) r log r') :
    (∀ call answer, (call, answer) ∈ log →
      (∃ after, call.run P room r = answered answer after) ∧
        ∃ after, call.run P room r.cleared = answered answer after) ∧
      r'.cache.kept.size ≤ r.cacheCapacity ∧ r'.blockEntries.kept.size ≤ r.cacheCapacity ∧
      r.cacheCapacity ≤ lazyDiagnosticMaxCacheCapacity := by
  obtain ⟨hCaches, hMax⟩ := openInternal_cachesOk hOpen
  obtain ⟨hAnswers, hLast⟩ := runs_answer hRun hCaches.like
  have hCapacity := hLast.same.cacheCapacity
  refine ⟨?_, ?_, ?_, hMax⟩
  · intro call answer hMem
    obtain ⟨after, -, hAnswer⟩ := hAnswers (call, answer) hMem r hCaches.like
    obtain ⟨cold, -, hCold⟩ := hAnswers (call, answer) hMem r.cleared hCaches.like_cleared
    exact ⟨⟨after, hAnswer⟩, ⟨cold, hCold⟩⟩
  · rw [← hCapacity]
    exact hLast.caches.blocks.size
  · rw [← hCapacity]
    exact hLast.caches.entries.size

/-! ### A sealed checkpoint -/

/-- A compressor that copies. -/
def lazyPrimitives : Primitives where
  xxh3 _ := 0
  sha256 _ := Vector.replicate 32 0
  compress _ bytes := bytes
  decompress bytes _ := some bytes

/-- The rows of one checkpoint, whose state is one leaf. -/
def sampleRows : List (Column × Bytes) :=
  [(.payload, ascii "0"), (.nodeField0, leBytes 8 0), (.nodeField1, leBytes 4 1), (.nodeKind, [0]),
    (.versionRoot, leBytes 8 0), (.versionParent, leBytes 4 noneParent),
    (.threadOffsets, leBytes 4 0 ++ leBytes 4 1), (.threadBytes, ascii "t"),
    (.cpThread, leBytes 4 0), (.cpNo, leBytes 4 0),
    (.cpIdOffsets, leBytes 4 0 ++ leBytes 4 1), (.cpIdBytes, ascii "c"),
    (.cpParentOrdinal, leBytes 4 noneParent), (.cpIdentityVersion, leBytes 4 0),
    (.cpMessagesVersion, leBytes 4 noneVersion), (.cpResultVersion, leBytes 4 noneVersion),
    (.cpLogicalLen, leBytes 8 28), (.cpStateHash, leBytes 8 0)]

/-- The checkpoint in one generation, in blocks of four bytes. -/
def sampleSealed : Except StoreError Directory := do
  let writer ← sampleRows.foldlM (fun writer row => writer.push lazyPrimitives row.1 row.2)
    (StreamingSegmentWriter.new 1 (fun _ => 0) 0 0 4 1)
  let (segment, file) ← writer.finalize lazyPrimitives 0 100 1 1
  let (route, hash) ← buildRouteFile lazyPrimitives 1 [("t", 0)] [("t", "c", 0)] []
  .ok {
    manifest := some { Manifest.empty with
      generation := 1
      sealedEndWalBytes := 100
      checkpointCount := 1
      versionCount := 1
      threadCount := 1
      streamSizes := segment.streamEnds
      segments := [segment]
      routes := [⟨1, 1, 1, route.length, hash⟩] }
    segments := KeyMap.empty.insert 1 file
    routes := KeyMap.empty.insert 1 route
    hot := none }

/-- The opening of that store, with room for one block. -/
def sampleOpening : Except StoreError LazyCheckpointStore := do
  let dir ← sampleSealed
  LazyCheckpointStore.openInternal lazyPrimitives (maxValue 63) ⟨some 1, false⟩ false dir

def sampleCheckpointCall : LazyCall := .readCheckpoint ⟨"t", "c"⟩

-- one evaluation for all facts, since each of them starts with the opening
theorem sampleOpening_reads : (match sampleOpening with
    | .ok reader => decide (reader.blockEntries.order = [toLex (0, 0)] ∧
        (finalState (sampleCheckpointCall.run lazyPrimitives (maxValue 63))
          reader).blockEntries.order = [toLex (0, 3)] ∧
        sampleCheckpointCall.answer lazyPrimitives (maxValue 63) reader =
          .ok (.bytes (ascii "\x7b\"identity\":0,\"messages\":[]\x7d")))
    | .error _ => false) = true := by
  decide +kernel

/-- The opening has kept a block entry. Reading the checkpoint puts others in its place, and the
checkpoint is then read again. -/
theorem lazy_reads_ignore_caches_sample : ∃ reader, sampleOpening = .ok reader ∧
    reader.blockEntries.order = [toLex (0, 0)] ∧
    (finalState (sampleCheckpointCall.run lazyPrimitives (maxValue 63))
      reader).blockEntries.order = [toLex (0, 3)] ∧
    ∃ after, sampleCheckpointCall.run lazyPrimitives (maxValue 63) reader.cleared =
      answered (.ok (.bytes (ascii "\x7b\"identity\":0,\"messages\":[]\x7d"))) after := by
  have hReads := sampleOpening_reads
  cases hOpen : sampleOpening with
  | error e =>
    rw [hOpen] at hReads
    cases hReads
  | ok reader =>
    rw [hOpen] at hReads
    obtain ⟨hKept, hEvicted, hState⟩ := of_decide_eq_true hReads
    obtain ⟨dir, -, hInternal⟩ := bind_eq_ok.mp hOpen
    have hRun := lazy_reads_ignore_caches hInternal (.cons (LazyStep.of_run sampleCheckpointCall)
      (.single (LazyStep.of_run sampleCheckpointCall)))
    have hFirst := (hRun.1 _ _ List.mem_cons_self).2
    rw [hState] at hFirst
    exact ⟨reader, rfl, hKept, hEvicted, hFirst⟩

end Runs

end TulyaStore.Checkpoint
