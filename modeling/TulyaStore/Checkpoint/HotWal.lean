import TulyaStore.Checkpoint.Apply
import TulyaStore.Checkpoint.HotWalCommit
import TulyaStore.Lib.Runs

/-!
# The hot WAL

`HotWal::append` makes room for a record in the preinitialized file, commits it and moves the
logical tail; `append_parsed_transaction` publishes the transaction in memory behind it. The file
stands at the logical tail whenever a commit begins (`StoreDiscipline`), and memory and tail move
exactly with a commit that succeeds (`hot_wal_commit_discipline`).
-/

namespace TulyaStore.Checkpoint

open Lib

variable {σ : Type}

/-! ## Room for a record -/

/-- The sizes of `CheckpointStoreConfig`, which `validate_config` has checked. -/
structure HotWalConfig where
  walSegmentBytes : Nat
  preinitChunkBytes : Nat
  segment_pos : 0 < walSegmentBytes
  chunk_pos : 0 < preinitChunkBytes

structure HotWal where
  logicalTail : Nat
  config : HotWalConfig
  committer : HotWalCommitter

def minReserveBytes : Nat := 1024 * 1024

/-- The doublings of `round_capacity`, from `capacity` on. -/
def doubleCapacity (segment floor : Nat) : Nat → Nat → Except HotWalError Nat
  | 0, capacity => if capacity < floor then .error .diverged else .ok capacity
  | fuel + 1, capacity =>
    if capacity < floor then do
      let doubled ← okOr (checkedMul 64 capacity 2) (.format "WAL adaptive capacity overflow")
      if doubled ≥ segment then return segment
      doubleCapacity segment floor fuel doubled
    else .ok capacity

/-- `round_capacity`. A capacity of 64 bits can be doubled at most 64 times. -/
def roundCapacity (required segment : Nat) : Except HotWalError Nat :=
  let floor := max required 1
  if floor ≤ segment then doubleCapacity segment floor 64 (min segment minReserveBytes)
  else do
    let padded ← okOr (checkedAdd 64 floor (segment - 1)) (.format "WAL capacity rounding overflow")
    okOr (checkedMul 64 (padded / segment) segment) (.format "WAL capacity multiplication overflow")

section Calls

variable {ω : Type}

/-- An I/O error of a call is an error of the program. -/
def orIo {α : Type} (reply : Except IoError α) : EStateM HotWalError (FileSession ω σ) α :=
  attempt (mapErr .io reply)

/-- The zero writes of `preinitialize_range`. Every round moves the cursor. -/
def zeroFill (d : FileDevice σ) (chunkBytes stop : Nat) :
    Nat → Nat → EStateM HotWalError (FileSession ω σ) Unit
  | 0, cursor => if cursor < stop then throw .diverged else pure ()
  | fuel + 1, cursor =>
    if cursor < stop then do
      let writeLen := min (stop - cursor) chunkBytes
      orIo (← perform d (.writeAll (List.replicate writeLen 0)))
      zeroFill d chunkBytes stop fuel (cursor + writeLen)
    else pure ()

/-- `preinitialize_range` -/
def preinitializeRange (d : FileDevice σ) (start stop chunkBytes : Nat) :
    EStateM HotWalError (FileSession ω σ) Unit :=
  if stop ≤ start then pure ()
  else do
    orIo (← perform d (.setLen stop))
    orIo (← perform d (.seek start))
    zeroFill d chunkBytes stop (stop - start) start
    orIo (← perform d .flush)
    orIo (← perform d .syncAll)

end Calls

/-! ## Appending -/

/-- A computation of the hot WAL. -/
abbrev HotM (σ : Type) : Type → Type := EStateM HotWalError (FileSession HotWal σ)

def HotWal.withCommitter (committer : HotWalCommitter) (hot : HotWal) : HotWal :=
  { hot with committer := committer }

/-- `recovery_required_after_mutation` -/
def HotWal.recoveryRequiredAfterMutation {α : Type} (x : HotM σ α) : HotM σ α := fun s =>
  match x s with
  | .ok a t => .ok a t
  | .error (.io source) t =>
    .error (.recoveryRequired (some source)) (t.withOwn (t.own.withCommitter ⟨true⟩))
  | .error error t => .error error (t.withOwn (t.own.withCommitter ⟨true⟩))

/-- The extension of the file in `append`. The file stands at the logical tail behind it. -/
def HotWal.grow (d : FileDevice σ) (currentCapacity newCapacity : Nat) : HotM σ Unit := do
  let hot := (← get).own
  recoveryRequiredAfterMutation
    (preinitializeRange d currentCapacity newCapacity hot.config.preinitChunkBytes)
  recoveryRequiredAfterMutation (do orIo (← perform d (.seek hot.logicalTail)))

/-- The part of `append` that makes room, with the tail behind the record and the capacity. -/
def HotWal.reserve (d : FileDevice σ) (record : WalRecord) : HotM σ (Nat × Nat) := do
  let hot := (← get).own
  let requiredTail ← attempt (okOr (checkedAdd 64 hot.logicalTail record.bytes.length)
    (.format "WAL logical tail overflow"))
  let currentCapacity ← orIo (← perform d .metadata)
  if requiredTail > currentCapacity then do
    let newCapacity ← attempt (roundCapacity requiredTail hot.config.walSegmentBytes)
    grow d currentCapacity newCapacity
    return (requiredTail, newCapacity)
  else return (requiredTail, currentCapacity)

/-- The report of an append, without its timings. -/
structure HotWalAppendReport where
  transactionBytes : Nat
  logicalTailBytes : Nat
  capacityBytes : Nat
deriving DecidableEq, Repr

/-- `HotWal::append` -/
def HotWal.append (d : FileDevice σ) (record : WalRecord) : HotM σ HotWalAppendReport := do
  attempt (← get).own.committer.ensureWritable
  let (requiredTail, capacity) ← reserve d record
  onPart HotWal.committer HotWal.withCommitter id (commit d record)
  modifyOwn fun hot => { hot with logicalTail := requiredTail }
  return ⟨record.bytes.length, requiredTail, capacity⟩

/-! ## The store -/

/-- The parts of `CheckpointStore` that an append changes. -/
structure HotStore where
  state : StoreState
  hot : HotWal

inductive AppendError where
  | store (error : StoreError)
  | hot (error : HotWalError)

/-- A computation of the store. -/
abbrev HotStoreM (σ : Type) : Type → Type := EStateM AppendError (FileSession HotStore σ)

/-- `append_parsed_transaction` -/
def appendParsedTransaction (d : FileDevice σ) (transaction : WalRecord) (tx : ParsedTransaction) :
    HotStoreM σ HotWalAppendReport := do
  let store := (← get).own
  attempt (mapErr .hot store.hot.committer.ensureWritable)
  let prepared ← attempt (mapErr .store (prepareTransactionApply store.state tx))
  let report ← onPart HotStore.hot (fun hot store => { store with hot := hot }) .hot
    (HotWal.append d transaction)
  modifyOwn fun store => { store with state := applyPreparedTransaction store.state prepared }
  return report

/-! ## Where the file stands -/

/-- The position of the file after a call; unknown after a failed seek or a failed `write_all`. A
failed write takes no byte. -/
def moveCursor (position : Option Nat) : FileEvent → Option Nat
  | ⟨.seek target, .ok _⟩ => some target
  | ⟨.seek _, .error _⟩ => none
  | ⟨.write _, .ok count⟩ => position.map (· + count)
  | ⟨.writeAll bytes, .ok _⟩ => position.map (· + bytes.length)
  | ⟨.writeAll _, .error _⟩ => none
  | _ => position

def cursorAfter (position : Option Nat) (events : List FileEvent) : Option Nat :=
  events.foldl moveCursor position

theorem cursorAfter_append (position : Option Nat) (events more : List FileEvent) :
    cursorAfter position (events ++ more) = cursorAfter (cursorAfter position events) more :=
  List.foldl_append

theorem cursorAfter_metadata {events : List FileEvent}
    (h : ∀ event ∈ events, event.call = .metadata) (position : Option Nat) :
    cursorAfter position events = position := by
  induction events with
  | nil => rfl
  | cons event events ih =>
    obtain ⟨call, reply⟩ := event
    obtain rfl : call = .metadata := h _ List.mem_cons_self
    exact ih fun other hMem => h other (List.mem_cons_of_mem _ hMem)

/-- Accepted bytes move the file by their number. -/
theorem Accepted.cursorAfter {bytes rest : Bytes} {events : List FileEvent}
    (h : Accepted bytes events rest) (start : Nat) :
    cursorAfter (some start) events = some (start + (bytes.length - rest.length)) := by
  induction h generalizing start with
  | done => simp [Checkpoint.cursorAfter]
  | @more bytes rest count events hPos hLe hRest ih =>
    have hShort : rest.length ≤ (bytes.drop count).length := by
      have hAll := congrArg List.length hRest.acceptedBytes_append
      rw [List.length_append] at hAll
      omega
    have hTail := ih (start + count)
    rw [List.length_drop] at hShort hTail
    change Checkpoint.cursorAfter (some (start + count)) events = _
    rw [hTail]
    congr 1
    omega

theorem Committed.cursorAfter {bytes : Bytes} {events : List FileEvent} (h : Committed bytes events)
    (start : Nat) : Checkpoint.cursorAfter (some start) events = some (start + bytes.length) := by
  obtain ⟨writes, rfl, hAccepted⟩ := h
  rw [cursorAfter_append, hAccepted.cursorAfter]
  rfl

theorem NothingAccepted.cursorAfter {bytes : Bytes} {events : List FileEvent}
    (h : NothingAccepted bytes events) (start : Nat) :
    Checkpoint.cursorAfter (some start) events = some start := by
  rcases h with ⟨-, rfl⟩ | ⟨-, event, rfl, ⟨source, rfl⟩ | rfl⟩ <;> rfl

/-! ## What making room does -/

section Reserve

variable {ω : Type} {d : FileDevice σ}

/-- The program called the file and changed nothing of its own. -/
def Talks (s t : FileSession ω σ) : Prop := t.own = s.own ∧ ∃ events, t.log = s.log ++ events

theorem Talks.refl (s : FileSession ω σ) : Talks s s := ⟨rfl, [], (List.append_nil _).symm⟩

theorem Talks.trans {s t u : FileSession ω σ} (hst : Talks s t) (htu : Talks t u) : Talks s u := by
  obtain ⟨hOwn, events, hLog⟩ := hst
  obtain ⟨hOwn', events', hLog'⟩ := htu
  exact ⟨hOwn'.trans hOwn, events ++ events', by rw [hLog', hLog, List.append_assoc]⟩

theorem keeps_perform (call : FileCall) :
    Keeps Talks (perform d call : EStateM HotWalError (FileSession ω σ) _) :=
  fun _ => ⟨rfl, _, rfl⟩

theorem keeps_orIo {α : Type} (reply : Except IoError α) :
    Keeps Talks (orIo reply : EStateM HotWalError (FileSession ω σ) α) :=
  keeps_attempt Talks.refl _

theorem keeps_then {α β : Type} {x : EStateM HotWalError (FileSession ω σ) α}
    {f : α → EStateM HotWalError (FileSession ω σ) β} (hx : Keeps Talks x)
    (hf : ∀ a, Keeps Talks (f a)) : Keeps Talks (x >>= f) :=
  keeps_bind (R := Talks) (fun _ _ _ => Talks.trans) hx hf

theorem keeps_zeroFill (chunkBytes stop fuel cursor : Nat) :
    Keeps Talks (zeroFill d chunkBytes stop fuel cursor :
      EStateM HotWalError (FileSession ω σ) Unit) := by
  induction fuel generalizing cursor with
  | zero =>
    unfold zeroFill
    split
    · exact keeps_throw Talks.refl _
    · exact keeps_pure Talks.refl _
  | succ fuel ih =>
    unfold zeroFill
    split
    · exact keeps_then (keeps_perform _) fun reply => keeps_then (keeps_orIo reply) fun _ => ih _
    · exact keeps_pure Talks.refl _

theorem keeps_preinitializeRange (start stop chunkBytes : Nat) :
    Keeps Talks (preinitializeRange d start stop chunkBytes :
      EStateM HotWalError (FileSession ω σ) Unit) := by
  unfold preinitializeRange
  split
  · exact keeps_pure Talks.refl _
  · refine keeps_then (keeps_perform _) fun reply => keeps_then (keeps_orIo reply) fun _ => ?_
    refine keeps_then (keeps_perform _) fun reply => keeps_then (keeps_orIo reply) fun _ => ?_
    refine keeps_then (keeps_zeroFill _ _ _ _) fun _ => ?_
    refine keeps_then (keeps_perform _) fun reply => keeps_then (keeps_orIo reply) fun _ => ?_
    exact keeps_then (keeps_perform _) fun reply => keeps_orIo reply

theorem recoveryRequiredAfterMutation_run {α : Type} {x : HotM σ α} (hx : Keeps Talks x)
    (s : FileSession HotWal σ) :
    (∃ a t, HotWal.recoveryRequiredAfterMutation x s = .ok a t ∧ x s = .ok a t ∧ Talks s t) ∨
    ∃ error device events, HotWal.recoveryRequiredAfterMutation x s =
      .error error ⟨s.own.withCommitter ⟨true⟩, device, s.log ++ events⟩ := by
  have hTalks := hx s
  unfold Post at hTalks
  unfold HotWal.recoveryRequiredAfterMutation
  cases hRun : x s with
  | ok a t =>
    rw [hRun] at hTalks
    exact Or.inl ⟨a, t, rfl, rfl, hTalks⟩
  | error error t =>
    rw [hRun] at hTalks
    obtain ⟨hOwn, events, hLog⟩ := hTalks
    refine Or.inr ?_
    cases error with
    | io source =>
      exact ⟨.recoveryRequired (some source), t.device, events, by
        rw [← hLog, ← hOwn]
        rfl⟩
    | _ =>
      exact ⟨_, t.device, events, by
        rw [← hLog, ← hOwn]
        rfl⟩

theorem grow_outcome (currentCapacity newCapacity : Nat) (s : FileSession HotWal σ) :
    (∃ device events, HotWal.grow d currentCapacity newCapacity s =
        .ok () ⟨s.own, device, s.log ++ events⟩ ∧
      ∀ position, cursorAfter position events = some s.own.logicalTail) ∨
    ∃ error device events, HotWal.grow d currentCapacity newCapacity s =
      .error error ⟨s.own.withCommitter ⟨true⟩, device, s.log ++ events⟩ := by
  unfold HotWal.grow
  have hGet : (get : HotM σ _) s = .ok s s := rfl
  rw [bind_run_ok hGet]
  rcases recoveryRequiredAfterMutation_run (keeps_preinitializeRange (d := d) currentCapacity
      newCapacity s.own.config.preinitChunkBytes) s with
    ⟨_, t, hRun, -, hOwn, events, hLog⟩ | ⟨error, device, events, hRun⟩
  · rw [bind_run_ok hRun]
    obtain ⟨reply, device, hSeek⟩ := perform_run (ε := HotWalError) d (.seek s.own.logicalTail) t
    have hPart : (do orIo (← perform d (.seek s.own.logicalTail)) : HotM σ Unit) t = orIo reply
        ⟨t.own, device, t.log ++ [⟨.seek s.own.logicalTail, reply⟩]⟩ := bind_run_ok hSeek
    unfold HotWal.recoveryRequiredAfterMutation
    rw [hPart, hOwn, hLog, List.append_assoc]
    match reply with
    | .ok () =>
      refine Or.inl ⟨device, _, rfl, fun position => ?_⟩
      rw [cursorAfter_append]
      rfl
    | .error source => exact Or.inr ⟨_, device, _, rfl⟩
  · rw [bind_run_error hRun]
    exact Or.inr ⟨error, device, events, rfl⟩

/-- How making room ends: the file was only asked for its length, or the handle is poisoned, or the
file stands at the logical tail again. -/
inductive ReserveOutcome (record : Bytes) (s : FileSession HotWal σ) :
    EStateM.Result HotWalError (FileSession HotWal σ) (Nat × Nat) → Prop
  | refused {events : List FileEvent} {device : σ} {error : HotWalError} :
      (∀ event ∈ events, event.call = .metadata) →
      ReserveOutcome record s (.error error ⟨s.own, device, s.log ++ events⟩)
  | poisoned {events : List FileEvent} {device : σ} {error : HotWalError} :
      ReserveOutcome record s
        (.error error ⟨s.own.withCommitter ⟨true⟩, device, s.log ++ events⟩)
  | ready {events : List FileEvent} {device : σ} {capacity : Nat} :
      cursorAfter (some s.own.logicalTail) events = some s.own.logicalTail →
      ReserveOutcome record s (.ok (s.own.logicalTail + record.length, capacity)
        ⟨s.own, device, s.log ++ events⟩)

theorem reserve_outcome (record : WalRecord) (s : FileSession HotWal σ) :
    ReserveOutcome record.bytes s (HotWal.reserve d record s) := by
  unfold HotWal.reserve
  have hGet : (get : HotM σ _) s = .ok s s := rfl
  rw [bind_run_ok hGet]
  by_cases hTail : s.own.logicalTail + record.bytes.length < width 64
  · have hRequired : (attempt (okOr (checkedAdd 64 s.own.logicalTail record.bytes.length)
        (.format "WAL logical tail overflow")) : HotM σ Nat) s =
        .ok (s.own.logicalTail + record.bytes.length) s := by
      rw [checkedAdd_of_lt hTail]
      rfl
    rw [bind_run_ok hRequired]
    obtain ⟨reply, device, hRun⟩ := perform_run (ε := HotWalError) d .metadata s
    rw [bind_run_ok hRun]
    match reply with
    | .error source =>
      exact @ReserveOutcome.refused _ _ _ [⟨.metadata, .error source⟩] _ _ (by simp)
    | .ok currentCapacity =>
      change ReserveOutcome record.bytes s ((if s.own.logicalTail + record.bytes.length >
        currentCapacity then _ else _ : HotM σ (Nat × Nat)) _)
      split
      case isFalse =>
        exact @ReserveOutcome.ready _ _ _ [⟨.metadata, .ok currentCapacity⟩] _ _ rfl
      case isTrue hGrow =>
        cases hCapacity : roundCapacity (s.own.logicalTail + record.bytes.length)
            s.own.config.walSegmentBytes with
        | error error =>
          exact @ReserveOutcome.refused _ _ _ [⟨.metadata, .ok currentCapacity⟩] _ _ (by simp)
        | ok newCapacity =>
          rcases grow_outcome (d := d) currentCapacity newCapacity (⟨s.own, device,
              s.log ++ [⟨.metadata, .ok currentCapacity⟩]⟩ : FileSession HotWal σ) with
            ⟨device', events, hGrown, hCursor⟩ | ⟨error, device', events, hFailed⟩
          · change ReserveOutcome record.bytes s ((HotWal.grow d currentCapacity newCapacity >>=
              fun _ => pure (s.own.logicalTail + record.bytes.length, newCapacity)) _)
            rw [bind_run_ok hGrown]
            change ReserveOutcome record.bytes s (.ok (_, newCapacity) ⟨s.own, device',
              s.log ++ [⟨.metadata, .ok currentCapacity⟩] ++ events⟩)
            rw [List.append_assoc]
            refine .ready ?_
            rw [cursorAfter_append]
            exact hCursor _
          · change ReserveOutcome record.bytes s ((HotWal.grow d currentCapacity newCapacity >>=
              fun _ => pure (s.own.logicalTail + record.bytes.length, newCapacity)) _)
            rw [bind_run_error hFailed, List.append_assoc]
            exact .poisoned
  · have hRequired : (attempt (okOr (checkedAdd 64 s.own.logicalTail record.bytes.length)
        (.format "WAL logical tail overflow")) : HotM σ Nat) s =
        .error (.format "WAL logical tail overflow") s := by
      rw [checkedAdd_of_le (Nat.not_lt.mp hTail)]
      rfl
    rw [bind_run_error hRequired]
    have hRefused : ReserveOutcome record.bytes s
        (.error (.format "WAL logical tail overflow") ⟨s.own, s.device, s.log ++ []⟩) :=
      .refused (by simp)
    rw [List.append_nil] at hRefused
    exact hRefused

end Reserve

/-! ## Appends and commits -/

section Append

variable {d : FileDevice σ} {record : WalRecord}

/-- The append gets to its commit, in session `t`. -/
def CommitsIn (d : FileDevice σ) (record : WalRecord) (s : FileSession HotWal σ)
    (t : FileSession HotWalCommitter σ) : Prop :=
  s.own.committer.recoveryRequired = false ∧ ∃ room reserved,
    HotWal.reserve d record s = .ok room reserved ∧ t = reserved.withOwn reserved.own.committer

/-- The commit of the append returns `Ok`. -/
def CommitReturnsOk (d : FileDevice σ) (record : WalRecord) (s : FileSession HotWal σ) : Prop :=
  ∃ t u, CommitsIn d record s t ∧ commit d record t = .ok () u

/-- A commit begins at the logical tail. -/
theorem CommitsIn.cursorAfter {s : FileSession HotWal σ} {t : FileSession HotWalCommitter σ}
    (h : CommitsIn d record s t) : ∃ events, t.log = s.log ++ events ∧
      Checkpoint.cursorAfter (some s.own.logicalTail) events = some s.own.logicalTail := by
  obtain ⟨-, room, reserved, hReserve, rfl⟩ := h
  have hOutcome : ReserveOutcome record.bytes s (HotWal.reserve d record s) := reserve_outcome _ _
  rw [hReserve] at hOutcome
  cases hOutcome with
  | ready hCursor => exact ⟨_, rfl, hCursor⟩

theorem append_outcome {s : FileSession HotWal σ} (h : s.own.committer.recoveryRequired = false) :
    (∃ report device events, HotWal.append d record s = .ok report ⟨{ s.own with
          logicalTail := s.own.logicalTail + record.bytes.length }, device, s.log ++ events⟩ ∧
      cursorAfter (some s.own.logicalTail) events =
        some (s.own.logicalTail + record.bytes.length) ∧ CommitReturnsOk d record s) ∨
    ∃ error committer device events, HotWal.append d record s =
        .error error ⟨s.own.withCommitter committer, device, s.log ++ events⟩ ∧
      (committer.recoveryRequired = false →
        cursorAfter (some s.own.logicalTail) events = some s.own.logicalTail) ∧
      ¬ CommitReturnsOk d record s := by
  unfold HotWal.append
  have hGet : (get : HotM σ _) s = .ok s s := rfl
  have hHealthy : (attempt (Except.ok ()) : HotM σ Unit) s = .ok () s := rfl
  rw [bind_run_ok hGet, ensureWritable_healthy h, bind_run_ok hHealthy]
  have hOutcome : ReserveOutcome record.bytes s (HotWal.reserve d record s) := reserve_outcome _ _
  generalize hReserve : HotWal.reserve d record s = result at hOutcome
  have hNone : ∀ error t, result = .error error t → ¬ CommitReturnsOk d record s := by
    rintro error t rfl ⟨_, _, ⟨-, room, reserved, hRun, -⟩, -⟩
    rw [hReserve] at hRun
    cases hRun
  cases hOutcome with
  | @refused events device error hEvents =>
    rw [bind_run_error hReserve]
    exact Or.inr ⟨error, s.own.committer, device, events, rfl,
      fun _ => cursorAfter_metadata hEvents _, hNone _ _ rfl⟩
  | @poisoned events device error =>
    rw [bind_run_error hReserve]
    refine Or.inr ⟨error, ⟨true⟩, device, events, rfl, ?_, hNone _ _ rfl⟩
    intro hFalse
    cases hFalse
  | @ready events device capacity hCursor =>
    rw [bind_run_ok hReserve]
    have hCommit : CommitOutcome record.bytes (⟨s.own.committer, device, s.log ++ events⟩ :
        FileSession HotWalCommitter σ) (commit d record ⟨s.own.committer, device, s.log ++ events⟩) :=
      commit_outcome h
    generalize hRun : commit d record (⟨s.own.committer, device, s.log ++ events⟩ :
      FileSession HotWalCommitter σ) = outcome at hCommit
    have hOk : CommitReturnsOk d record s → ∃ u, outcome = .ok () u := by
      rintro ⟨_, u, ⟨-, room, reserved, hRun', rfl⟩, hCommitted⟩
      rw [hReserve] at hRun'
      cases hRun'
      exact ⟨u, hRun ▸ hCommitted⟩
    have hNotOk : ∀ error t, outcome = .error error t → ¬ CommitReturnsOk d record s := by
      rintro error t rfl hReturns
      obtain ⟨u, hSame⟩ := hOk hReturns
      cases hSame
    cases hCommit with
    | @committed writes device' hRecord hCommitted =>
      have hPart : onPart HotWal.committer HotWal.withCommitter id (commit d record)
          (⟨s.own, device, s.log ++ events⟩ : FileSession HotWal σ) =
          .ok () ⟨s.own, device', s.log ++ events ++ writes⟩ := by
        rw [onPart, Session.withOwn, hRun]
        rfl
      refine Or.inl ⟨⟨record.bytes.length, s.own.logicalTail + record.bytes.length, capacity⟩,
        device', events ++ writes, ?_, ?_, ?_⟩
      · dsimp only
        rw [bind_run_ok hPart, ← List.append_assoc]
        rfl
      · rw [cursorAfter_append, hCursor, hCommitted.cursorAfter]
      · exact ⟨_, _, ⟨h, _, _, hReserve, rfl⟩, hRun⟩
    | @rejected writes device' source hNothing =>
      have hPart : onPart HotWal.committer HotWal.withCommitter id (commit d record)
          (⟨s.own, device, s.log ++ events⟩ : FileSession HotWal σ) =
          .error (.io source) ⟨s.own, device', s.log ++ events ++ writes⟩ := by
        rw [onPart, Session.withOwn, hRun]
        rfl
      refine Or.inr ⟨.io source, s.own.committer, device', events ++ writes, ?_, ?_, hNotOk _ _ rfl⟩
      · dsimp only
        rw [bind_run_error hPart, ← List.append_assoc]
        rfl
      · rw [cursorAfter_append, hCursor, hNothing.cursorAfter]
        exact fun _ => rfl
    | @poisoned writes device' error hNothing hNot hRecord =>
      have hPart : onPart HotWal.committer HotWal.withCommitter id (commit d record)
          (⟨s.own, device, s.log ++ events⟩ : FileSession HotWal σ) =
          .error error ⟨s.own.withCommitter ⟨true⟩, device', s.log ++ events ++ writes⟩ := by
        rw [onPart, Session.withOwn, hRun]
        rfl
      refine Or.inr ⟨error, ⟨true⟩, device', events ++ writes, ?_, ?_, hNotOk _ _ rfl⟩
      · dsimp only
        rw [bind_run_error hPart, ← List.append_assoc]
      · intro hFalse
        cases hFalse

end Append

/-! ## The store -/

section Store

variable {d : FileDevice σ} {transaction : WalRecord} {tx : ParsedTransaction}

/-- What a successful append publishes. -/
def HotStore.publish (store : HotStore) (transaction : WalRecord)
    (prepared : PreparedTransactionApply) : HotStore where
  state := applyPreparedTransaction store.state prepared
  hot := { store.hot with logicalTail := store.hot.logicalTail + transaction.bytes.length }

theorem appendParsedTransaction_poisoned {s : FileSession HotStore σ}
    (h : s.own.hot.committer.recoveryRequired = true) :
    appendParsedTransaction d transaction tx s = .error (.hot (.recoveryRequired none)) s := by
  unfold appendParsedTransaction
  have hGet : (get : HotStoreM σ _) s = .ok s s := rfl
  rw [bind_run_ok hGet, ensureWritable_poisoned h]
  rfl

theorem appendParsedTransaction_outcome {s : FileSession HotStore σ}
    (h : s.own.hot.committer.recoveryRequired = false) :
    (∃ prepared report device events, prepareTransactionApply s.own.state tx = .ok prepared ∧
      appendParsedTransaction d transaction tx s =
        .ok report ⟨s.own.publish transaction prepared, device, s.log ++ events⟩ ∧
      cursorAfter (some s.own.hot.logicalTail) events =
        some (s.own.hot.logicalTail + transaction.bytes.length) ∧
      CommitReturnsOk d transaction (s.withOwn s.own.hot)) ∨
    ∃ error committer device events, appendParsedTransaction d transaction tx s =
        .error error ⟨⟨s.own.state, s.own.hot.withCommitter committer⟩, device, s.log ++ events⟩ ∧
      (committer.recoveryRequired = false →
        cursorAfter (some s.own.hot.logicalTail) events = some s.own.hot.logicalTail) ∧
      ((∃ e, prepareTransactionApply s.own.state tx = .error e) ∨
        ¬ CommitReturnsOk d transaction (s.withOwn s.own.hot)) := by
  unfold appendParsedTransaction
  have hGet : (get : HotStoreM σ _) s = .ok s s := rfl
  have hHealthy : (attempt (mapErr AppendError.hot (Except.ok ())) : HotStoreM σ Unit) s = .ok () s :=
    rfl
  rw [bind_run_ok hGet, ensureWritable_healthy h, bind_run_ok hHealthy]
  cases hPrepared : prepareTransactionApply s.own.state tx with
  | error e =>
    have hFailed : (attempt (mapErr AppendError.store (Except.error e)) :
        HotStoreM σ PreparedTransactionApply) s = .error (.store e) s := rfl
    rw [bind_run_error hFailed]
    refine Or.inr ⟨.store e, s.own.hot.committer, s.device, [], ?_, fun _ => rfl, Or.inl ⟨e, rfl⟩⟩
    rw [List.append_nil]
    rfl
  | ok prepared =>
    have hDone : (attempt (mapErr AppendError.store (Except.ok prepared)) :
        HotStoreM σ PreparedTransactionApply) s = .ok prepared s := rfl
    rw [bind_run_ok hDone]
    rcases @append_outcome σ d transaction (s.withOwn s.own.hot) h with
      ⟨report, device, events, hRun, hCursor, hReturns⟩ |
      ⟨error, committer, device, events, hRun, hCursor, hNot⟩
    · refine Or.inl ⟨prepared, report, device, events, rfl, ?_, hCursor, hReturns⟩
      have hPart : onPart HotStore.hot (fun hot store => { store with hot := hot }) AppendError.hot
          (HotWal.append d transaction) s = .ok report ⟨⟨s.own.state, { s.own.hot with
            logicalTail := s.own.hot.logicalTail + transaction.bytes.length }⟩, device,
            s.log ++ events⟩ := onPart_ok hRun
      rw [bind_run_ok hPart]
      rfl
    · refine Or.inr ⟨.hot error, committer, device, events, ?_, hCursor, Or.inr hNot⟩
      have hPart : onPart HotStore.hot (fun hot store => { store with hot := hot }) AppendError.hot
          (HotWal.append d transaction) s = .error (.hot error) ⟨⟨s.own.state,
            s.own.hot.withCommitter committer⟩, device, s.log ++ events⟩ := onPart_error hRun
      rw [bind_run_error hPart]

/-! ## The discipline -/

/-- What the commits on one handle do, for every script of answers of the file: which succeed, which
are rejected, each with the calls it makes, and that every other failure poisons. -/
structure CommitDiscipline (d : FileDevice σ) : Prop where
  ok_iff : ∀ record (s : FileSession HotWalCommitter σ), (∃ t, commit d record s = .ok () t) ↔
    s.own.recoveryRequired = false ∧ record.bytes ≠ [] ∧
      ∃ events last, Plays d s.device events last ∧ Committed record.bytes events
  committed : ∀ record (s : FileSession HotWalCommitter σ) events last,
    s.own.recoveryRequired = false → record.bytes ≠ [] → Plays d s.device events last →
    Committed record.bytes events →
      commit d record s = .ok () ⟨s.own, last, s.log ++ events⟩ ∧
        ∃ writes, events = writes ++ [flushed, synced] ∧ acceptedBytes writes = record.bytes
  /-- An empty record makes no call; otherwise one write accepted nothing. -/
  rejected : ∀ record (s : FileSession HotWalCommitter σ) events last,
    s.own.recoveryRequired = false → Plays d s.device events last →
    NothingAccepted record.bytes events →
      ∃ source, commit d record s = .error (.io source) ⟨s.own, last, s.log ++ events⟩
  poisons : ∀ record (s : FileSession HotWalCommitter σ) error t,
    s.own.recoveryRequired = false → commit d record s = .error error t →
    (∀ events last, Plays d s.device events last → ¬ NothingAccepted record.bytes events) →
      t.own.recoveryRequired = true
  stopped : ∀ s : FileSession HotWalCommitter σ, s.own.recoveryRequired = true →
    (∀ record, commit d record s = .error (.recoveryRequired none) s) ∧
    ∀ records, runCommits d records s = s

/-- What the next append does in a session whose file stood at `start` when it was opened. Memory and
tail move exactly when the commit returns `Ok`. -/
structure StoreDiscipline (d : FileDevice σ) (start : Nat) (s : FileSession HotStore σ) : Prop where
  at_tail : s.own.hot.committer.recoveryRequired = false →
    cursorAfter (some start) s.log = some s.own.hot.logicalTail
  commits_at_tail : ∀ record t, CommitsIn d record (s.withOwn s.own.hot) t →
    cursorAfter (some start) t.log = some s.own.hot.logicalTail
  ok_iff : ∀ record tx, (∃ report t, appendParsedTransaction d record tx s = .ok report t) ↔
    (∃ prepared, prepareTransactionApply s.own.state tx = .ok prepared) ∧
      CommitReturnsOk d record (s.withOwn s.own.hot)
  published : ∀ record tx report t, appendParsedTransaction d record tx s = .ok report t →
    ∃ prepared, prepareTransactionApply s.own.state tx = .ok prepared ∧
      t.own = s.own.publish record prepared
  unpublished : ∀ record tx error t, appendParsedTransaction d record tx s = .error error t →
    t.own.state = s.own.state ∧ t.own.hot.logicalTail = s.own.hot.logicalTail
  stopped : s.own.hot.committer.recoveryRequired = true → ∀ record tx,
    appendParsedTransaction d record tx s = .error (.hot (.recoveryRequired none)) s

/-- The handle of `open_at`: the file stands at the logical tail. -/
def openedStore (state : StoreState) (logicalTail : Nat) (config : HotWalConfig) (device : σ) :
    FileSession HotStore σ :=
  ⟨⟨state, ⟨logicalTail, config, ⟨false⟩⟩⟩, device, []⟩

/-- Appends one after the other, each after the outcome of the one before. -/
def runAppends (d : FileDevice σ) (calls : List (WalRecord × ParsedTransaction))
    (s : FileSession HotStore σ) : FileSession HotStore σ :=
  calls.foldl (fun s call => finalState (appendParsedTransaction d call.1 call.2) s) s

/-- The file of a handle that is not poisoned stands at the logical tail. -/
def AtTail (start : Nat) (s : FileSession HotStore σ) : Prop :=
  s.own.hot.committer.recoveryRequired = false →
    cursorAfter (some start) s.log = some s.own.hot.logicalTail

theorem AtTail.step {start : Nat} {s : FileSession HotStore σ} (h : AtTail start s) :
    AtTail start (finalState (appendParsedTransaction d transaction tx) s) := by
  unfold finalState
  cases hHealthy : s.own.hot.committer.recoveryRequired with
  | true =>
    rw [appendParsedTransaction_poisoned hHealthy]
    exact h
  | false =>
    rcases @appendParsedTransaction_outcome σ d transaction tx s hHealthy with
      ⟨prepared, report, device, events, -, hRun, hCursor, -⟩ |
      ⟨error, committer, device, events, hRun, hCursor, -⟩
    · rw [hRun]
      intro _
      rw [cursorAfter_append, h hHealthy]
      exact hCursor
    · rw [hRun]
      intro hStill
      rw [cursorAfter_append, h hHealthy]
      exact hCursor hStill

theorem commitDiscipline (d : FileDevice σ) : CommitDiscipline d where
  ok_iff _ _ := commit_eq_ok
  committed _ _ _ _ hHealthy hRecord hPlays hCommitted :=
    ⟨commit_committed hHealthy hRecord hPlays hCommitted, hCommitted.acceptedBytes⟩
  rejected _ _ _ _ hHealthy hPlays hNothing := commit_nothing hHealthy hPlays hNothing
  poisons _ _ _ _ hHealthy hRun hSome := commit_error hHealthy hRun hSome
  stopped _ h := ⟨fun _ => commit_poisoned h, runCommits_poisoned h⟩

theorem AtTail.discipline {start : Nat} {s : FileSession HotStore σ} (h : AtTail start s) :
    StoreDiscipline d start s where
  at_tail := h
  commits_at_tail record t hCommits := by
    obtain ⟨events, hLog, hCursor⟩ := hCommits.cursorAfter
    rw [hLog]
    change cursorAfter (some start) (s.log ++ events) = _
    rw [cursorAfter_append, h hCommits.1]
    exact hCursor
  ok_iff record tx := by
    cases hHealthy : s.own.hot.committer.recoveryRequired with
    | true =>
      rw [appendParsedTransaction_poisoned hHealthy]
      constructor
      · rintro ⟨report, t, hRun⟩
        cases hRun
      · rintro ⟨-, _, _, ⟨hStill, -⟩, -⟩
        change s.own.hot.committer.recoveryRequired = false at hStill
        rw [hHealthy] at hStill
        cases hStill
    | false =>
      rcases @appendParsedTransaction_outcome σ d record tx s hHealthy with
        ⟨prepared, report, device, events, hPrepared, hRun, -, hReturns⟩ |
        ⟨error, committer, device, events, hRun, -, hNot⟩
      · exact ⟨fun _ => ⟨⟨prepared, hPrepared⟩, hReturns⟩, fun _ => ⟨report, _, hRun⟩⟩
      · rw [hRun]
        constructor
        · rintro ⟨report, t, hSame⟩
          cases hSame
        · rintro ⟨⟨prepared, hPrepared⟩, hReturns⟩
          rcases hNot with ⟨e, hError⟩ | hNot
          · rw [hPrepared] at hError
            cases hError
          · exact absurd hReturns hNot
  published record tx report t hOk := by
    cases hHealthy : s.own.hot.committer.recoveryRequired with
    | true =>
      rw [appendParsedTransaction_poisoned hHealthy] at hOk
      cases hOk
    | false =>
      rcases @appendParsedTransaction_outcome σ d record tx s hHealthy with
        ⟨prepared, _, device, events, hPrepared, hRun, -, -⟩ | ⟨_, committer, device, events, hRun, -⟩
      · rw [hRun] at hOk
        cases hOk
        exact ⟨prepared, hPrepared, rfl⟩
      · rw [hRun] at hOk
        cases hOk
  unpublished record tx error t hError := by
    cases hHealthy : s.own.hot.committer.recoveryRequired with
    | true =>
      rw [appendParsedTransaction_poisoned hHealthy] at hError
      cases hError
      exact ⟨rfl, rfl⟩
    | false =>
      rcases @appendParsedTransaction_outcome σ d record tx s hHealthy with
        ⟨prepared, _, device, events, hPrepared, hRun, -, -⟩ | ⟨_, committer, device, events, hRun, -⟩
      · rw [hRun] at hError
        cases hError
      · rw [hRun] at hError
        cases hError
        exact ⟨rfl, rfl⟩
  stopped hPoisoned _ _ := appendParsedTransaction_poisoned hPoisoned

/-- Over every script of answers: a commit succeeds exactly where the file accepts a record that is not
empty, once and in order, and then flushes and syncs; it is rejected where nothing is accepted; every
other failure stops the handle; and the store publishes and moves its tail exactly with a commit that
succeeds. -/
theorem hot_wal_commit_discipline (d : FileDevice σ) :
    CommitDiscipline d ∧ ∀ state logicalTail config device calls,
      StoreDiscipline d logicalTail
        (runAppends d calls (openedStore state logicalTail config device)) := by
  refine ⟨commitDiscipline d, fun state logicalTail config device calls => AtTail.discipline ?_⟩
  have hOpened : AtTail logicalTail (openedStore state logicalTail config device) := fun _ => rfl
  exact run_invariant (fun s call h => AtTail.step h) hOpened calls

end Store

end TulyaStore.Checkpoint
