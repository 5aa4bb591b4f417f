import TulyaStore.Lib.Bytes
import TulyaStore.Lib.Device
import TulyaStore.Lib.Machine

/-!
# Committing a record to the hot WAL

The committer of one open writer handle (`hot_wal_commit.rs`): it writes the record with as many
writes as the file takes, flushes and syncs. The file is a device whose answers are arbitrary. A
commit succeeds exactly when the file answers the calls of a complete record (`commit_eq_ok`),
is rejected where the answers come to nothing before a byte was accepted (`commit_nothing`), and
every other failure poisons the committer (`commit_error`).
-/

namespace TulyaStore.Checkpoint

open Lib

/-! ## The file -/

/-- An I/O error: one the system reports, or one made here. -/
inductive IoError where
  | reported (code : Nat)
  | made (kind message : String)
deriving DecidableEq, Repr

/-- The calls on an open file. `HotWalCommitIo` is the part `write`, `flush` and `syncData`. -/
inductive FileCall where
  | metadata
  | setLen (len : Nat)
  | seek (position : Nat)
  | writeAll (bytes : Bytes)
  | write (bytes : Bytes)
  | flush
  | syncAll
  | syncData
deriving DecidableEq, Repr

@[reducible] def FileReply : FileCall → Type
  | .metadata => Except IoError Nat
  | .write _ => Except IoError Nat
  | _ => Except IoError Unit

abbrev FileDevice (σ : Type) : Type := Device FileCall FileReply σ

abbrev FileEvent : Type := Event FileCall FileReply

abbrev FileSession (ω σ : Type) : Type := Session FileCall FileReply ω σ

/-! ## Errors -/

/-- The step of a commit whose outcome is unknown. -/
inductive DurabilityOperation where
  | walFlush
  | walSyncData
deriving DecidableEq, Repr

/-- The errors of the hot WAL. The path they carry is that of the file. -/
inductive HotWalError where
  | io (source : IoError)
  | recoveryRequired (source : Option IoError)
  | durabilityIndeterminate (operation : DurabilityOperation) (source : IoError)
  | format (message : String)
  /-- The fuel of a loop ran out. -/
  | diverged
deriving DecidableEq, Repr

def emptyRecord : IoError := .made "InvalidInput" "hot WAL commit record is empty"

def noProgress : IoError := .made "WriteZero" "hot WAL write made no progress"

def overReported : IoError :=
  .made "InvalidData" "hot WAL writer reported more bytes than supplied"

def cursorExceeded : IoError := .made "InvalidData" "hot WAL write cursor exceeded record length"

def cursorOverflow : IoError := .made "InvalidData" "hot WAL write cursor overflow"

/-! ## The committer -/

/-- A byte slice: its length is an integer of 64 bits. -/
structure WalRecord where
  bytes : Bytes
  fits : bytes.length < width 64

structure HotWalCommitter where
  recoveryRequired : Bool
deriving DecidableEq, Repr

variable {σ : Type}

/-- A computation of the committer. -/
abbrev CommitM (σ : Type) : Type → Type := EStateM HotWalError (FileSession HotWalCommitter σ)

/-- `ensure_writable` -/
def HotWalCommitter.ensureWritable (committer : HotWalCommitter) : Except HotWalError Unit :=
  if committer.recoveryRequired then .error (.recoveryRequired none) else .ok ()

/-- Marks the committer and fails. -/
def poisonWith {α : Type} (error : HotWalError) : CommitM σ α := do
  modifyOwn fun _ => ⟨true⟩
  throw error

/-- `write_failure` -/
def writeFailure {α : Type} (bytesWritten : Nat) (source : IoError) : CommitM σ α :=
  if bytesWritten = 0 then throw (.io source) else poisonWith (.recoveryRequired (some source))

/-- The writes of one record, from `written` on. -/
def writeLoop (d : FileDevice σ) (record : Bytes) : Nat → Nat → CommitM σ Unit
  | 0, written => if written < record.length then throw .diverged else pure ()
  | fuel + 1, written =>
    if written < record.length then do
      let remaining ← attempt (okOr (slice record written record.length) (.io cursorExceeded))
      match ← perform d (.write remaining) with
      | .ok 0 => writeFailure written noProgress
      | .ok count =>
        if count ≤ remaining.length then do
          let written ← attempt (okOr (checkedAdd 64 written count) (.io cursorOverflow))
          writeLoop d record fuel written
        else poisonWith (.recoveryRequired (some overReported))
      | .error source => writeFailure written source
    else pure ()

/-- The flush and the durability barrier. -/
def makeDurable (d : FileDevice σ) : CommitM σ Unit := do
  match ← perform d .flush with
  | .ok () =>
    match ← perform d .syncData with
    | .ok () => pure ()
    | .error source => poisonWith (.durabilityIndeterminate .walSyncData source)
  | .error source => poisonWith (.durabilityIndeterminate .walFlush source)

/-- `commit`, without its timings. Every round of the writes accepts a byte, so their number is
at most that of the bytes. -/
def commit (d : FileDevice σ) (record : WalRecord) : CommitM σ Unit := do
  attempt (← get).own.ensureWritable
  if record.bytes = [] then throw (.io emptyRecord)
  writeLoop d record.bytes record.bytes.length 0
  makeDurable d

/-! ## Traces -/

/-- The writes offer what is left of the bytes, accept some of it each time, and leave `rest`. -/
inductive Accepted : Bytes → List FileEvent → Bytes → Prop
  | done {bytes : Bytes} : Accepted bytes [] bytes
  | more {bytes rest : Bytes} {count : Nat} {events : List FileEvent} :
      1 ≤ count → count ≤ bytes.length → Accepted (bytes.drop count) events rest →
      Accepted bytes (⟨.write bytes, .ok count⟩ :: events) rest

/-- The bytes that writes accepted, in order. -/
def acceptedBytes : List FileEvent → Bytes
  | [] => []
  | ⟨.write bytes, .ok count⟩ :: events => bytes.take count ++ acceptedBytes events
  | _ :: events => acceptedBytes events

/-- What is accepted is what was offered, each byte once and in order. -/
theorem Accepted.acceptedBytes_append {bytes rest : Bytes} {events : List FileEvent}
    (h : Accepted bytes events rest) : acceptedBytes events ++ rest = bytes := by
  induction h with
  | done => rfl
  | more _ _ _ ih => rw [acceptedBytes, List.append_assoc, ih, List.take_append_drop]

/-- A write that accepts nothing: an error, or no progress. -/
def Refused (bytes : Bytes) (event : FileEvent) : Prop :=
  (∃ source, event = ⟨.write bytes, .error source⟩) ∨ event = ⟨.write bytes, .ok 0⟩

def OverReported (bytes : Bytes) (event : FileEvent) : Prop :=
  ∃ count, bytes.length < count ∧ event = ⟨.write bytes, .ok count⟩

def flushed : FileEvent := ⟨.flush, .ok ()⟩

def synced : FileEvent := ⟨.syncData, .ok ()⟩

/-! ## The writer loop -/

section Writes

variable {d : FileDevice σ} {record : WalRecord}

theorem poisonWith_run {α : Type} (error : HotWalError) (s : FileSession HotWalCommitter σ) :
    (poisonWith error : CommitM σ α) s = .error error ⟨⟨true⟩, s.device, s.log⟩ := rfl

/-- How the writes of a record end: all of it is accepted, or nothing at all and the committer is
as before, or the committer is poisoned. -/
inductive WriteOutcome (record : Bytes) (written : Nat) (s : FileSession HotWalCommitter σ) :
    EStateM.Result HotWalError (FileSession HotWalCommitter σ) Unit → Prop
  | complete {writes : List FileEvent} {device : σ} :
      Accepted (record.drop written) writes [] →
      WriteOutcome record written s (.ok () ⟨s.own, device, s.log ++ writes⟩)
  | refused {event : FileEvent} {device : σ} {source : IoError} :
      written = 0 → Refused record event →
      WriteOutcome record written s (.error (.io source) ⟨s.own, device, s.log ++ [event]⟩)
  | torn {writes : List FileEvent} {event : FileEvent} {rest : Bytes} {device : σ}
      {error : HotWalError} :
      Accepted (record.drop written) writes rest → rest ≠ [] →
      (Refused rest event ∧ rest.length < record.length) ∨ OverReported rest event →
      WriteOutcome record written s (.error error ⟨⟨true⟩, device, s.log ++ (writes ++ [event])⟩)

/-- The first write was accepted in part. -/
theorem WriteOutcome.step {written count : Nat} {s t : FileSession HotWalCommitter σ}
    {result : EStateM.Result HotWalError (FileSession HotWalCommitter σ) Unit}
    (h : WriteOutcome record.bytes (written + count) t result)
    (hPos : 1 ≤ count) (hLe : written + count ≤ record.bytes.length) (hOwn : t.own = s.own)
    (hLog : t.log = s.log ++ [⟨.write (record.bytes.drop written), .ok count⟩]) :
    WriteOutcome record.bytes written s result := by
  have hDrop : record.bytes.drop (written + count) = (record.bytes.drop written).drop count := by
    rw [List.drop_drop]
  have hFits : count ≤ (record.bytes.drop written).length := by
    rw [List.length_drop]
    omega
  cases h with
  | complete hAccepted =>
    rw [hOwn, hLog, List.append_assoc]
    rw [hDrop] at hAccepted
    exact .complete (.more hPos hFits hAccepted)
  | refused hNone => omega
  | torn hAccepted hRest hEvent =>
    rw [hLog, List.append_assoc]
    rw [hDrop] at hAccepted
    exact .torn (.more hPos hFits hAccepted) hRest hEvent

theorem writeFailure_outcome {written : Nat} (source : IoError) {event : FileEvent}
    {s : FileSession HotWalCommitter σ} {device : σ} (hLt : written < record.bytes.length)
    (hEvent : Refused (record.bytes.drop written) event) :
    WriteOutcome record.bytes written s
      (writeFailure written source ⟨s.own, device, s.log ++ [event]⟩) := by
  unfold writeFailure
  split
  case isTrue hNone =>
    subst hNone
    exact .refused rfl hEvent
  case isFalse hSome =>
    rw [poisonWith_run]
    refine .torn (Accepted.done) (List.ne_nil_of_length_pos ?_) (Or.inl ⟨hEvent, ?_⟩)
    · rw [List.length_drop]
      omega
    · rw [List.length_drop]
      omega

theorem writes_done {written : Nat} (s : FileSession HotWalCommitter σ)
    (h : ¬ written < record.bytes.length) : WriteOutcome record.bytes written s (.ok () s) := by
  have hRest : record.bytes.drop written = [] := List.drop_eq_nil_iff.mpr (Nat.not_lt.mp h)
  have hComplete : WriteOutcome record.bytes written s (.ok () ⟨s.own, s.device, s.log ++ []⟩) :=
    .complete (hRest ▸ .done)
  rw [List.append_nil] at hComplete
  exact hComplete

/-- What is left of the record is what the next write offers. -/
theorem remaining_run {written : Nat} (h : written ≤ record.bytes.length)
    (s : FileSession HotWalCommitter σ) :
    attempt (okOr (slice record.bytes written record.bytes.length) (HotWalError.io cursorExceeded)) s =
      .ok (record.bytes.drop written) s := by
  have hSlice : slice record.bytes written record.bytes.length =
      some (record.bytes.drop written) :=
    slice_eq_some.mpr ⟨h, Nat.le_refl _, List.take_of_length_le (by simp)⟩
  rw [hSlice]
  rfl

/-- A part of the record that is accepted is one round of the writes. -/
theorem writeLoop_step {fuel written count : Nat} {s : FileSession HotWalCommitter σ} {next : σ}
    (hAnswer : d.answer s.device (.write (record.bytes.drop written)) = (.ok count, next))
    (hPos : 1 ≤ count) (hLe : written + count ≤ record.bytes.length) :
    writeLoop d record.bytes (fuel + 1) written s =
      writeLoop d record.bytes fuel (written + count)
        ⟨s.own, next, s.log ++ [⟨.write (record.bytes.drop written), .ok count⟩]⟩ := by
  have hFits := record.fits
  have hAdd : checkedAdd 64 written count = some (written + count) := checkedAdd_of_lt (by omega)
  have hCount : count ≤ (record.bytes.drop written).length := by
    rw [List.length_drop]
    omega
  rw [writeLoop, if_pos (by omega), bind_run_ok (remaining_run (by omega) s),
    bind_run_ok (perform_run_of hAnswer)]
  obtain ⟨count, rfl⟩ : ∃ n, count = n + 1 := ⟨count - 1, by omega⟩
  change (if count + 1 ≤ _ then (attempt (okOr (checkedAdd 64 written (count + 1)) _) >>=
    fun next => writeLoop d record.bytes fuel next) else _ : CommitM σ Unit) _ = _
  rw [if_pos hCount, hAdd]
  rfl

theorem writeLoop_outcome {fuel written : Nat} (hFuel : record.bytes.length - written ≤ fuel)
    (hWritten : written ≤ record.bytes.length) (s : FileSession HotWalCommitter σ) :
    WriteOutcome record.bytes written s (writeLoop d record.bytes fuel written s) := by
  induction fuel generalizing written s with
  | zero =>
    have hNot : ¬ written < record.bytes.length := by omega
    rw [writeLoop, if_neg hNot]
    exact writes_done s hNot
  | succ fuel ih =>
    by_cases hLt : written < record.bytes.length
    · obtain ⟨reply, next, hAnswer⟩ : ∃ reply next,
          d.answer s.device (.write (record.bytes.drop written)) = (reply, next) := ⟨_, _, rfl⟩
      have hLen : (record.bytes.drop written).length = record.bytes.length - written :=
        List.length_drop
      by_cases hAccepts : ∃ count, reply = .ok count ∧ 1 ≤ count ∧
          written + count ≤ record.bytes.length
      · obtain ⟨count, rfl, hPos, hLe⟩ := hAccepts
        rw [writeLoop_step hAnswer hPos hLe]
        exact (ih (by omega) hLe _).step hPos hLe rfl rfl
      · rw [writeLoop, if_pos hLt, bind_run_ok (remaining_run hWritten s),
          bind_run_ok (perform_run_of hAnswer)]
        match reply with
        | .error source => exact writeFailure_outcome source hLt (Or.inl ⟨source, rfl⟩)
        | .ok 0 => exact writeFailure_outcome noProgress hLt (Or.inr rfl)
        | .ok (count + 1) =>
          have hOver : (record.bytes.drop written).length < count + 1 := by
            by_contra hInside
            exact hAccepts ⟨count + 1, rfl, Nat.le_add_left 1 count, by omega⟩
          have hTorn : WriteOutcome record.bytes written s (.error (.recoveryRequired
              (some overReported)) ⟨⟨true⟩, next, s.log ++ ([] ++
                [⟨.write (record.bytes.drop written), .ok (count + 1)⟩])⟩) :=
            .torn .done (List.ne_nil_of_length_pos (by omega)) (Or.inr ⟨count + 1, hOver, rfl⟩)
          change WriteOutcome record.bytes written s ((if count + 1 ≤ _ then _ else _ :
            CommitM σ Unit) _)
          rw [if_neg (Nat.not_le.mpr hOver)]
          exact hTorn
    · rw [writeLoop, if_neg hLt]
      exact writes_done s hLt

/-! ## The commit -/

/-- The events of a committed record: the writes accept all of it, then one flush and one sync
succeed. -/
def Committed (record : Bytes) (events : List FileEvent) : Prop :=
  ∃ writes, events = writes ++ [flushed, synced] ∧ Accepted record writes []

theorem Committed.acceptedBytes {bytes : Bytes} {events : List FileEvent}
    (h : Committed bytes events) : ∃ writes, events = writes ++ [flushed, synced] ∧
      acceptedBytes writes = bytes := by
  obtain ⟨writes, rfl, hAccepted⟩ := h
  have hAll := hAccepted.acceptedBytes_append
  rw [List.append_nil] at hAll
  exact ⟨writes, rfl, hAll⟩

/-- The events of a commit that changed nothing: none for an empty record, otherwise one write that
accepts nothing. -/
def NothingAccepted (record : Bytes) (events : List FileEvent) : Prop :=
  (record = [] ∧ events = []) ∨ (record ≠ [] ∧ ∃ event, events = [event] ∧ Refused record event)

/-- How a commit by a committer that is not poisoned ends. -/
inductive CommitOutcome (record : Bytes) (s : FileSession HotWalCommitter σ) :
    EStateM.Result HotWalError (FileSession HotWalCommitter σ) Unit → Prop
  | committed {events : List FileEvent} {device : σ} :
      record ≠ [] → Committed record events →
      CommitOutcome record s (.ok () ⟨s.own, device, s.log ++ events⟩)
  | rejected {events : List FileEvent} {device : σ} {source : IoError} :
      NothingAccepted record events →
      CommitOutcome record s (.error (.io source) ⟨s.own, device, s.log ++ events⟩)
  | poisoned {events : List FileEvent} {device : σ} {error : HotWalError} :
      ¬ NothingAccepted record events → ¬ Committed record events → record ≠ [] →
      CommitOutcome record s (.error error ⟨⟨true⟩, device, s.log ++ events⟩)

theorem refused_ne_flush {bytes : Bytes} {reply : Except IoError Unit} :
    ¬ Refused bytes ⟨.flush, reply⟩ := by
  rintro (⟨source, h⟩ | h) <;> cases h

theorem refused_ne_sync {bytes : Bytes} {reply : Except IoError Unit} :
    ¬ Refused bytes ⟨.syncData, reply⟩ := by
  rintro (⟨source, h⟩ | h) <;> cases h

/-- Only events that end with a successful sync are those of a committed record. -/
theorem not_committed_of_last {record : Bytes} {events : List FileEvent} {event : FileEvent}
    (h : event ≠ synced) : ¬ Committed record (events ++ [event]) := by
  rintro ⟨writes, hSame, -⟩
  have hLast := congrArg List.getLast? hSame
  simp only [List.getLast?_append, List.getLast?_singleton,
    List.getLast?_cons_cons, Option.some_or, Option.some.injEq] at hLast
  exact h hLast

/-- Events that end with another call than a write are not those of a rejected commit. -/
theorem not_nothingAccepted_of_last {record : Bytes} {writes : List FileEvent} {event : FileEvent}
    (h : ∀ bytes, ¬ Refused bytes event) : ¬ NothingAccepted record (writes ++ [event]) := by
  rintro (⟨-, hNone⟩ | ⟨-, refused, hSame, hRefused⟩)
  · exact absurd hNone (by simp)
  · have hLast := congrArg List.getLast? hSame
    rw [List.getLast?_concat, List.getLast?_singleton, Option.some.injEq] at hLast
    exact h record (hLast ▸ hRefused)

theorem ne_synced_of_torn {record rest : Bytes} {event : FileEvent}
    (h : (Refused rest event ∧ rest.length < record.length) ∨ OverReported rest event) :
    event ≠ synced := by
  rintro rfl
  rcases h with ⟨hRefused, -⟩ | ⟨count, -, hSame⟩
  · exact refused_ne_sync hRefused
  · cases hSame

theorem not_nothingAccepted_of_torn {record rest : Bytes} {writes : List FileEvent}
    {event : FileEvent} (hAccepted : Accepted record writes rest)
    (h : (Refused rest event ∧ rest.length < record.length) ∨ OverReported rest event) :
    ¬ NothingAccepted record (writes ++ [event]) := by
  rintro (⟨-, hNone⟩ | ⟨-, refused, hSame, hRefused⟩)
  · exact absurd hNone (by simp)
  · have hWrites : writes = [] := by
      have hLen := congrArg List.length hSame
      rw [List.length_append, List.length_singleton, List.length_singleton] at hLen
      exact List.eq_nil_of_length_eq_zero (by omega)
    subst hWrites
    cases hAccepted
    obtain rfl : event = refused := List.singleton_inj.mp hSame
    rcases h with ⟨-, hLt⟩ | ⟨count, hOver, rfl⟩
    · exact absurd hLt (Nat.lt_irrefl _)
    · rcases hRefused with ⟨source, hEvent⟩ | hEvent
      · cases hEvent
      · cases hEvent
        exact absurd hOver (Nat.not_lt_zero _)

theorem makeDurable_outcome {writes : List FileEvent} {s t : FileSession HotWalCommitter σ}
    (hRecord : record.bytes ≠ []) (hOwn : t.own = s.own) (hLog : t.log = s.log ++ writes)
    (hAccepted : Accepted record.bytes writes []) :
    CommitOutcome record.bytes s (makeDurable d t) := by
  unfold makeDurable
  obtain ⟨reply, device, hRun⟩ := perform_run (ε := HotWalError) d .flush t
  rw [bind_run_ok hRun]
  match reply with
  | .error source =>
    change CommitOutcome record.bytes s (.error (.durabilityIndeterminate .walFlush source)
      ⟨⟨true⟩, device, t.log ++ [⟨.flush, .error source⟩]⟩)
    rw [hLog, List.append_assoc]
    exact .poisoned (not_nothingAccepted_of_last fun _ => refused_ne_flush)
      (not_committed_of_last fun h => by cases h) hRecord
  | .ok () =>
    obtain ⟨reply, device', hSync⟩ := perform_run (ε := HotWalError) d .syncData
      (⟨t.own, device, t.log ++ [flushed]⟩ : FileSession HotWalCommitter σ)
    change CommitOutcome record.bytes s ((perform d .syncData >>= fun reply => _)
      (⟨t.own, device, t.log ++ [flushed]⟩ : FileSession HotWalCommitter σ))
    rw [bind_run_ok hSync, hLog, hOwn]
    match reply with
    | .error source =>
      change CommitOutcome record.bytes s (.error (.durabilityIndeterminate .walSyncData source)
        ⟨⟨true⟩, device', s.log ++ writes ++ [flushed] ++ [⟨.syncData, .error source⟩]⟩)
      rw [List.append_assoc, List.append_assoc, ← List.append_assoc writes]
      exact .poisoned (not_nothingAccepted_of_last fun _ => refused_ne_sync)
        (not_committed_of_last fun h => by cases h) hRecord
    | .ok () =>
      change CommitOutcome record.bytes s (.ok ()
        ⟨s.own, device', s.log ++ writes ++ [flushed] ++ [synced]⟩)
      rw [List.append_assoc, List.append_assoc]
      exact .committed hRecord ⟨writes, rfl, hAccepted⟩

theorem ensureWritable_poisoned {committer : HotWalCommitter} (h : committer.recoveryRequired = true) :
    committer.ensureWritable = .error (.recoveryRequired none) := by
  rw [HotWalCommitter.ensureWritable, if_pos h]

theorem ensureWritable_healthy {committer : HotWalCommitter}
    (h : committer.recoveryRequired = false) : committer.ensureWritable = .ok () := by
  rw [HotWalCommitter.ensureWritable, if_neg (by rw [h]; decide)]

/-- A poisoned committer fails without a call. -/
theorem commit_poisoned {s : FileSession HotWalCommitter σ} (h : s.own.recoveryRequired = true) :
    commit d record s = .error (.recoveryRequired none) s := by
  unfold commit
  have hGet : (get : CommitM σ _) s = .ok s s := rfl
  rw [bind_run_ok hGet, ensureWritable_poisoned h]
  rfl

theorem commit_outcome {s : FileSession HotWalCommitter σ} (h : s.own.recoveryRequired = false) :
    CommitOutcome record.bytes s (commit d record s) := by
  unfold commit
  have hGet : (get : CommitM σ _) s = .ok s s := rfl
  have hHealthy : (attempt (Except.ok ()) : CommitM σ Unit) s = .ok () s := rfl
  rw [bind_run_ok hGet, ensureWritable_healthy h, bind_run_ok hHealthy]
  by_cases hEmpty : record.bytes = []
  · have hRejected : CommitOutcome record.bytes s
        (.error (.io emptyRecord) ⟨s.own, s.device, s.log ++ []⟩) :=
      .rejected (Or.inl ⟨hEmpty, rfl⟩)
    rw [List.append_nil] at hRejected
    rw [if_pos hEmpty]
    exact hRejected
  · rw [if_neg hEmpty]
    change CommitOutcome record.bytes s
      ((writeLoop d record.bytes record.bytes.length 0 >>= fun _ => makeDurable d) s)
    have hWrites : WriteOutcome record.bytes 0 s
        (writeLoop d record.bytes record.bytes.length 0 s) :=
      writeLoop_outcome (Nat.le_refl _) (Nat.zero_le _) s
    generalize hRun : writeLoop d record.bytes record.bytes.length 0 s = result at hWrites
    cases hWrites with
    | complete hAccepted =>
      rw [bind_run_ok hRun]
      exact makeDurable_outcome hEmpty rfl rfl hAccepted
    | refused _ hRefused =>
      rw [bind_run_error hRun]
      exact .rejected (Or.inr ⟨hEmpty, _, rfl, hRefused⟩)
    | torn hAccepted hRest hEvent =>
      rw [bind_run_error hRun]
      exact .poisoned (not_nothingAccepted_of_torn hAccepted hEvent)
        (not_committed_of_last (ne_synced_of_torn hEvent)) hEmpty

/-! ## The answers of the file -/

theorem keeps_poisonWith {α : Type} (error : HotWalError) :
    Keeps (Played d) (poisonWith error : CommitM σ α) := fun s => Played.refl s

theorem keeps_writeFailure {α : Type} (written : Nat) (source : IoError) :
    Keeps (Played d) (writeFailure written source : CommitM σ α) := by
  unfold writeFailure
  split
  · exact keeps_throw Played.refl _
  · exact keeps_poisonWith _

theorem keeps_writeLoop (bytes : Bytes) (fuel written : Nat) :
    Keeps (Played d) (writeLoop d bytes fuel written) := by
  induction fuel generalizing written with
  | zero =>
    unfold writeLoop
    split
    · exact keeps_throw Played.refl _
    · exact keeps_pure Played.refl _
  | succ fuel ih =>
    unfold writeLoop
    split
    case isFalse => exact keeps_pure Played.refl _
    case isTrue =>
      refine keeps_played_bind (keeps_attempt Played.refl _) fun remaining => ?_
      refine keeps_played_bind (keeps_played_perform _ _) fun reply => ?_
      split
      · exact keeps_writeFailure _ _
      · split
        · exact keeps_played_bind (keeps_attempt Played.refl _) fun _ => ih _
        · exact keeps_poisonWith _
      · exact keeps_writeFailure _ _

theorem keeps_makeDurable : Keeps (Played d) (makeDurable d) := by
  refine keeps_played_bind (keeps_played_perform _ _) fun reply => ?_
  split
  · refine keeps_played_bind (keeps_played_perform _ _) fun reply => ?_
    split
    · exact keeps_pure Played.refl _
    · exact keeps_poisonWith _
  · exact keeps_poisonWith _

/-- A commit logs calls that the file answers. -/
theorem keeps_commit : Keeps (Played d) (commit d record) := by
  refine keeps_played_bind (fun s => Played.refl s) fun s => ?_
  refine keeps_played_bind (keeps_attempt Played.refl _) fun _ => ?_
  have hRest : Keeps (Played d) (writeLoop d record.bytes record.bytes.length 0 >>= fun _ =>
      makeDurable d) := keeps_played_bind (keeps_writeLoop _ _ _) fun _ => keeps_makeDurable
  dsimp only
  split
  · exact keeps_played_bind (keeps_throw Played.refl _) fun _ => hRest
  · exact hRest

/-- The writes go on as the file answers them. -/
theorem writeLoop_accepted {bytes rest : Bytes} {writes : List FileEvent}
    (hAccepted : Accepted bytes writes rest) {written : Nat} {s : FileSession HotWalCommitter σ}
    {next : σ} (hPlays : Plays d s.device writes next) (hBytes : record.bytes.drop written = bytes)
    (hWritten : written ≤ record.bytes.length) (fuel : Nat) :
    writeLoop d record.bytes (writes.length + fuel) written s =
      writeLoop d record.bytes fuel (record.bytes.length - rest.length)
        ⟨s.own, next, s.log ++ writes⟩ := by
  induction hAccepted generalizing written s with
  | done =>
    cases hPlays
    have hLength := congrArg List.length hBytes
    rw [List.length_drop] at hLength
    rw [List.append_nil, List.length_nil, Nat.zero_add, ← hLength,
      Nat.sub_sub_self hWritten]
  | @more bytes rest count events hPos hLe hRest ih =>
    cases hPlays with
    | @cons _ next _ _ _ hAnswer hLater =>
      subst hBytes
      rw [List.length_drop] at hLe
      have hSteps : (⟨.write (record.bytes.drop written), .ok count⟩ :: events : List FileEvent).length +
          fuel = (events.length + fuel) + 1 := by
        rw [List.length_cons]
        omega
      rw [hSteps, writeLoop_step hAnswer hPos (by omega),
        @ih (written + count) ⟨s.own, next, s.log ++ [_]⟩ hLater (by rw [List.drop_drop]) (by omega),
        List.append_assoc]
      rfl

theorem Accepted.length_le {bytes rest : Bytes} {events : List FileEvent}
    (h : Accepted bytes events rest) : events.length + rest.length ≤ bytes.length := by
  induction h with
  | done => exact Nat.le_of_eq (Nat.zero_add _)
  | more hPos hLe _ ih =>
    rw [List.length_drop] at ih
    rw [List.length_cons]
    omega

theorem makeDurable_synced {s : FileSession HotWalCommitter σ} {last : σ}
    (h : Plays d s.device [flushed, synced] last) :
    makeDurable d s = .ok () ⟨s.own, last, s.log ++ [flushed, synced]⟩ := by
  cases h with
  | @cons _ next _ _ _ hFlush hRest =>
    cases hRest with
    | cons hSync hEnd =>
      cases hEnd
      have hFirst : d.answer s.device .flush = (.ok (), next) := hFlush
      have hSecond : d.answer (⟨s.own, next, s.log ++ [flushed]⟩ :
          FileSession HotWalCommitter σ).device .syncData = (.ok (), last) := hSync
      unfold makeDurable
      rw [bind_run_ok (perform_run_of hFirst)]
      change (perform d .syncData >>= fun reply => _) (⟨s.own, next, s.log ++ [flushed]⟩ :
        FileSession HotWalCommitter σ) = _
      rw [bind_run_ok (perform_run_of hSecond)]
      change EStateM.Result.ok () (⟨s.own, last, s.log ++ [flushed] ++ [synced]⟩ :
        FileSession HotWalCommitter σ) = _
      rw [List.append_assoc]
      rfl

/-- A first write that accepts nothing ends the writes. -/
theorem writeLoop_refused {fuel : Nat} {s : FileSession HotWalCommitter σ} {event : FileEvent}
    {next : σ} (hRecord : record.bytes ≠ [])
    (hAnswer : d.answer s.device event.call = (event.reply, next))
    (hRefused : Refused record.bytes event) :
    ∃ source, writeLoop d record.bytes (fuel + 1) 0 s =
      .error (.io source) ⟨s.own, next, s.log ++ [event]⟩ := by
  have hPos : 0 < record.bytes.length := List.length_pos_iff.mpr hRecord
  have hFirst := @remaining_run σ record 0 (Nat.zero_le _) s
  rw [List.drop_zero] at hFirst
  rw [writeLoop, if_pos hPos, bind_run_ok hFirst]
  rcases hRefused with ⟨source, rfl⟩ | rfl
  · have hWrite : d.answer s.device (.write record.bytes) = (.error source, next) := hAnswer
    rw [bind_run_ok (perform_run_of hWrite)]
    exact ⟨source, rfl⟩
  · have hWrite : d.answer s.device (.write record.bytes) = (.ok 0, next) := hAnswer
    rw [bind_run_ok (perform_run_of hWrite)]
    exact ⟨noProgress, rfl⟩

/-- The committer lets a commit begin. -/
theorem commit_healthy {s : FileSession HotWalCommitter σ} (h : s.own.recoveryRequired = false) :
    commit d record s = (do
      if record.bytes = [] then throw (.io emptyRecord)
      writeLoop d record.bytes record.bytes.length 0
      makeDurable d : CommitM σ Unit) s := by
  have hGet : (get : CommitM σ _) s = .ok s s := rfl
  have hHealthy : (attempt (Except.ok ()) : CommitM σ Unit) s = .ok () s := rfl
  unfold commit
  rw [bind_run_ok hGet, ensureWritable_healthy h, bind_run_ok hHealthy]

/-- A commit whose record the file accepts, flushes and syncs makes exactly these calls. -/
theorem commit_committed {s : FileSession HotWalCommitter σ} {events : List FileEvent} {last : σ}
    (h : s.own.recoveryRequired = false) (hRecord : record.bytes ≠ [])
    (hPlays : Plays d s.device events last) (hCommitted : Committed record.bytes events) :
    commit d record s = .ok () ⟨s.own, last, s.log ++ events⟩ := by
  obtain ⟨writes, rfl, hAccepted⟩ := hCommitted
  obtain ⟨middle, hWrites, hBarrier⟩ := hPlays.of_append
  obtain ⟨fuel, hFuel⟩ := Nat.exists_eq_add_of_le hAccepted.length_le
  have hLoop : writeLoop d record.bytes record.bytes.length 0 s =
      .ok () ⟨s.own, middle, s.log ++ writes⟩ := by
    rw [List.length_nil, Nat.add_zero] at hFuel
    have hNot : ¬ record.bytes.length - ([] : Bytes).length < record.bytes.length := by simp
    conv_lhs => rw [show record.bytes.length = writes.length + fuel from hFuel]
    rw [writeLoop_accepted hAccepted hWrites (List.drop_zero) (Nat.zero_le _)]
    cases fuel <;> rw [writeLoop, if_neg hNot] <;> rfl
  rw [commit_healthy h, if_neg hRecord]
  change (writeLoop d record.bytes record.bytes.length 0 >>= fun _ => makeDurable d) s = _
  rw [bind_run_ok hLoop, makeDurable_synced hBarrier, List.append_assoc]

/-- A commit that comes to nothing before a byte is accepted is rejected, with exactly these calls,
and leaves the committer as it is. -/
theorem commit_nothing {s : FileSession HotWalCommitter σ} {events : List FileEvent} {last : σ}
    (h : s.own.recoveryRequired = false) (hPlays : Plays d s.device events last)
    (hNothing : NothingAccepted record.bytes events) :
    ∃ source, commit d record s = .error (.io source) ⟨s.own, last, s.log ++ events⟩ := by
  rw [commit_healthy h]
  rcases hNothing with ⟨hEmpty, rfl⟩ | ⟨hRecord, event, rfl, hRefused⟩
  · cases hPlays
    rw [if_pos hEmpty, List.append_nil]
    exact ⟨emptyRecord, rfl⟩
  · cases hPlays with
    | cons hAnswer hEnd =>
      cases hEnd
      obtain ⟨fuel, hFuel⟩ := Nat.exists_eq_succ_of_ne_zero
        (List.length_pos_iff.mpr hRecord).ne'
      obtain ⟨source, hLoop⟩ := @writeLoop_refused σ d record fuel s event _ hRecord hAnswer hRefused
      have hWrites : writeLoop d record.bytes record.bytes.length 0 s = .error (.io source) _ :=
        (congrArg (fun n => writeLoop d record.bytes n 0 s) hFuel).trans hLoop
      rw [if_neg hRecord]
      change ∃ source, (writeLoop d record.bytes record.bytes.length 0 >>= fun _ => makeDurable d) s = _
      exact ⟨source, bind_run_error hWrites⟩

/-- A commit succeeds exactly when the file answers the calls of a complete record. -/
theorem commit_eq_ok {s : FileSession HotWalCommitter σ} :
    (∃ t, commit d record s = .ok () t) ↔ s.own.recoveryRequired = false ∧ record.bytes ≠ [] ∧
      ∃ events last, Plays d s.device events last ∧ Committed record.bytes events := by
  constructor
  · rintro ⟨t, hRun⟩
    cases hHealthy : s.own.recoveryRequired with
    | true =>
      rw [commit_poisoned hHealthy] at hRun
      cases hRun
    | false =>
      have hPlayed : Played d s t := post_ok (x := commit d record) (keeps_commit s) hRun
      have hOutcome : CommitOutcome record.bytes s (commit d record s) := commit_outcome hHealthy
      rw [hRun] at hOutcome
      obtain ⟨events, hLog, hPlays⟩ := hPlayed
      cases hOutcome with
      | committed hRecord hCommitted =>
        rw [List.append_cancel_left hLog] at hCommitted
        exact ⟨rfl, hRecord, events, _, hPlays, hCommitted⟩
  · rintro ⟨hHealthy, hRecord, events, last, hPlays, hCommitted⟩
    exact ⟨_, commit_committed hHealthy hRecord hPlays hCommitted⟩

/-- A failure that the file had a part in by accepting something, or by more than a refusal, poisons
the committer. -/
theorem commit_error {s t : FileSession HotWalCommitter σ} {error : HotWalError}
    (hHealthy : s.own.recoveryRequired = false) (hRun : commit d record s = .error error t)
    (hSome : ∀ events last, Plays d s.device events last → ¬ NothingAccepted record.bytes events) :
    t.own.recoveryRequired = true := by
  have hPlayed : Played d s t := post_error (x := commit d record) (keeps_commit s) hRun
  have hOutcome : CommitOutcome record.bytes s (commit d record s) := commit_outcome hHealthy
  rw [hRun] at hOutcome
  obtain ⟨events, hLog, hPlays⟩ := hPlayed
  cases hOutcome with
  | rejected hNothing =>
    rw [List.append_cancel_left hLog] at hNothing
    exact absurd hNothing (hSome events _ hPlays)
  | poisoned => rfl

/-- The commits of several records on one handle, each after the outcome of the one before. -/
def runCommits (d : FileDevice σ) (records : List WalRecord) (s : FileSession HotWalCommitter σ) :
    FileSession HotWalCommitter σ :=
  records.foldl (fun s record => finalState (commit d record) s) s

/-- After a poisoning failure nothing is called any more. -/
theorem runCommits_poisoned {s : FileSession HotWalCommitter σ} (h : s.own.recoveryRequired = true)
    (records : List WalRecord) : runCommits d records s = s := by
  induction records with
  | nil => rfl
  | cons record records ih =>
    rw [runCommits, List.foldl_cons, finalState, commit_poisoned h]
    exact ih

end Writes

end TulyaStore.Checkpoint
