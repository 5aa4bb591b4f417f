import TulyaStore.Checkpoint.Nodes

/-!
# The invariant of the committed state

`StateInv s`: the node table is well formed, every version has a root that denotes bytes, the
checkpoints carry their own index and name earlier parents, and the index maps are exactly the
positions in the lists they index. `StateInv.append` is the step: a transaction that the store
encodes for what it already holds (`Entry.Grounded`), and that the apply checks accept, keeps
the invariant.
-/

namespace TulyaStore.Checkpoint

open Lib

/-! ## Threads -/

/-- The threads of the checkpoints, in order of first appearance. -/
def threadsOf (checkpoints : List CheckpointInfo) : List String :=
  checkpoints.foldl (fun threads c =>
    if c.threadId ∈ threads then threads else threads ++ [c.threadId]) []

theorem threadsOf_append_singleton (cs : List CheckpointInfo) (c : CheckpointInfo) :
    threadsOf (cs ++ [c]) =
      if c.threadId ∈ threadsOf cs then threadsOf cs else threadsOf cs ++ [c.threadId] := by
  rw [threadsOf, List.foldl_append]
  rfl

theorem nodup_threadsOf (cs : List CheckpointInfo) : (threadsOf cs).Nodup := by
  induction cs using List.reverseRecOn with
  | nil => simp [threadsOf]
  | append_singleton cs c ih =>
    rw [threadsOf_append_singleton]
    split
    case isTrue => exact ih
    case isFalse hNew =>
      refine List.nodup_append.mpr ⟨ih, by simp, ?_⟩
      rintro t ht u hu rfl
      exact hNew (List.mem_singleton.mp hu ▸ ht)

/-! ## The invariant -/

/-- The framing of a message state around its messages. -/
def messageFraming : Nat := 31

/-- What a checkpoint of a well-formed state satisfies. -/
structure InfoOk (s : StoreState) (info : CheckpointInfo) : Prop where
  threadId : ValidIdentifier info.threadId
  checkpointId : ValidIdentifier info.checkpointId
  parent : ∀ parent ∈ info.parentCheckpointId, ValidIdentifier parent
  identity : ∃ bs, VersionDenotes (eagerReader s) s.versions info.identityVersion bs
  messages : ∀ v ∈ info.messagesVersion, ∃ bs, VersionDenotes (eagerReader s) s.versions v bs ∧
    info.logicalStateLen = bs.length + messageFraming
  result : info.resultVersion = none
  stateLen : info.logicalStateLen < 2 ^ 64

structure StateInv (s : StoreState) : Prop where
  nodes : NodesOk s
  parentsLen : s.parents.length = s.versions.length
  versionsLt : s.versions.length < 2 ^ 32
  parents : ∀ (v p : Nat), s.parents[v]? = some (some p) → p < v
  roots : ∀ root ∈ s.versions, ∃ n bs, root = some n ∧ n < s.nodeCount ∧
    Denotes (eagerReader s) n bs ∧ bs.length < 2 ^ 64
  checkpointsLt : s.checkpoints.length < 2 ^ 32
  ordinal : ∀ (i : Nat) info, s.checkpoints[i]? = some info → info.ordinal = i
  keys : (s.checkpoints.map CheckpointInfo.key).Nodup
  index : s.checkpointOrdinals = .indexOf (s.checkpoints.map CheckpointInfo.key)
  threads : s.threads = threadsOf s.checkpoints
  threadsLt : s.threads.length ≤ 2 ^ 32
  threadIndex : s.threadOrdinals = .indexOf s.threads
  parentPrior : ∀ (i : Nat) info key, s.checkpoints[i]? = some info → info.parentKey = some key →
    ∃ j < i, ∃ parent, s.checkpoints[j]? = some parent ∧ parent.key = key
  infos : ∀ info ∈ s.checkpoints, InfoOk s info
  requests : ∀ key record, s.requestRecords.get key = some record → record.key = key ∧
    0 < key.length ∧ key.length ≤ maxRequestIdBytes ∧
    record.checkpointOrdinal < s.checkpoints.length
  retired : ∀ key, s.retiredRequests.containsKey key = true →
    0 < key.length ∧ key.length ≤ maxRequestIdBytes ∧ s.requestRecords.containsKey key = false
  deleted : ∀ key, s.deletedCheckpoints.containsKey key = true →
    ValidIdentifier key.threadId ∧ ValidIdentifier key.checkpointId ∧
      s.checkpointOrdinals.containsKey key = false

/-! ## What an accepted transaction does -/

/-- The state with the transaction appended. -/
def appended (s : StoreState) (tx : ParsedTransaction) : StoreState :=
  { s with
    arenaBytes := s.arenaBytes ++ tx.bytes
    compactNodes := s.compactNodes ++ tx.compactNodes
    wideNodes := s.wideNodes ++ tx.wideNodes
    versions := s.versions ++ tx.roots
    parents := s.parents ++ tx.parents
    threadOrdinals := if s.threadOrdinals.containsKey tx.checkpoint.threadId = true
      then s.threadOrdinals
      else s.threadOrdinals.insert tx.checkpoint.threadId s.threads.length
    threads := if s.threadOrdinals.containsKey tx.checkpoint.threadId = true then s.threads
      else s.threads ++ [tx.checkpoint.threadId]
    checkpointOrdinals := s.checkpointOrdinals.insert tx.checkpoint.key tx.checkpoint.ordinal
    requestRecords := match requestRecordOf tx with
      | some (requestId, record) => s.requestRecords.insert requestId record
      | none => s.requestRecords
    checkpoints := s.checkpoints ++ [tx.checkpoint] }

/-- What the checks ask of a transaction. -/
structure Admissible (s : StoreState) (tx : ParsedTransaction) : Prop where
  count : tx.checkpointCount ≠ 0
  continues : s.geometry = .ok (tx.startGeometry (tx.checkpointCount - 1))
  parent : ∀ key, tx.checkpoint.parentKey = some key →
    ∃ ordinal, s.checkpointOrdinals.get key = some ordinal ∧ ordinal < tx.checkpoint.ordinal
  fresh : s.checkpointOrdinals.containsKey tx.checkpoint.key = false
  live : s.deletedCheckpoints.containsKey tx.checkpoint.key = false
  request : ∀ requestId ∈ tx.requestId, s.requestRecords.get requestId = none
  nodes : validateNewNodes s tx = .ok ()
  thread : s.threadOrdinals.containsKey tx.checkpoint.threadId = true ∨ s.threads.length < 2 ^ 32

theorem validateParent_eq_ok {s : StoreState} {info : CheckpointInfo} :
    validateParent s info = .ok () ↔ ∀ key, info.parentKey = some key →
      ∃ ordinal, s.checkpointOrdinals.get key = some ordinal ∧ ordinal < info.ordinal := by
  unfold validateParent
  cases info.parentKey with
  | none => simp
  | some key =>
    simp only [bind_eq_ok, okOr_eq_ok, failIf_eq_ok, Nat.not_le, Option.some.injEq]
    constructor
    · rintro ⟨ordinal, hGet, hLt⟩ key' rfl
      exact ⟨ordinal, hGet, hLt⟩
    · intro h
      exact h key rfl

theorem validateRequest_eq_ok {s : StoreState} {tx : ParsedTransaction} :
    validateRequest s tx = .ok () ↔
      ∀ requestId ∈ tx.requestId, s.requestRecords.get requestId = none := by
  unfold validateRequest
  cases hId : tx.requestId with
  | none => simp
  | some requestId =>
    cases hGet : s.requestRecords.get requestId with
    | none => simp [hGet]
    | some record => simp [hGet, bind_eq_ok]

theorem applyTransaction_eq_ok {s s' : StoreState} {tx : ParsedTransaction} :
    applyTransaction s tx = .ok s' ↔ Admissible s tx ∧ s' = appended s tx := by
  constructor
  · intro h
    simp only [applyTransaction, prepareTransactionApply, validateTransactionAgainstState,
      rejectDeletedCheckpoint, bind_eq_ok, failIf_eq_ok, Except.ok.injEq, not_not] at h
    obtain ⟨prepared, ⟨_, hCount, g, hGeometry, _, rfl, _,
      ⟨_, hParent, _, hFresh, _, hLive, _, hRequest, hNodes⟩, newThread, hThread, rfl⟩, rfl⟩ := h
    have hAdmissible : Admissible s tx := by
      refine ⟨hCount, hGeometry, validateParent_eq_ok.mp hParent, by simpa using hFresh,
        by simpa using hLive, validateRequest_eq_ok.mp hRequest, hNodes, ?_⟩
      unfold newThreadOf at hThread
      split at hThread
      case isTrue hKnown => exact .inl hKnown
      case isFalse hNew =>
        simp only [bind_eq_ok, okOr_eq_ok, tryFrom_eq_some, width] at hThread
        obtain ⟨_, ⟨hLt, _⟩, _⟩ := hThread
        exact .inr hLt
    refine ⟨hAdmissible, ?_⟩
    unfold newThreadOf at hThread
    split at hThread
    case isTrue hKnown =>
      obtain rfl := Except.ok.inj hThread
      rw [appended, if_pos hKnown, if_pos hKnown]
      rfl
    case isFalse hNew =>
      simp only [bind_eq_ok, okOr_eq_ok, tryFrom_eq_some, Except.ok.injEq] at hThread
      obtain ⟨_, ⟨_, rfl⟩, rfl⟩ := hThread
      rw [appended, if_neg hNew, if_neg hNew]
      rfl
  · rintro ⟨hAdm, rfl⟩
    have hPrepared : ∃ newThread, newThreadOf s tx.checkpoint.threadId = .ok newThread ∧
        applyPreparedTransaction s ⟨tx, newThread, tx.checkpoint.key, requestRecordOf tx⟩ =
          appended s tx := by
      unfold newThreadOf
      by_cases hKnown : s.threadOrdinals.containsKey tx.checkpoint.threadId = true
      · refine ⟨none, by simp [hKnown], ?_⟩
        rw [appended, if_pos hKnown, if_pos hKnown]
        rfl
      · have hLt : s.threads.length < width 32 := hAdm.thread.resolve_left hKnown
        refine ⟨some (tx.checkpoint.threadId, s.threads.length), ?_, ?_⟩
        · simp [hKnown, tryFrom_of_lt hLt]
        · rw [appended, if_neg hKnown, if_neg hKnown]
          rfl
    obtain ⟨newThread, hThread, hApply⟩ := hPrepared
    simp only [applyTransaction, prepareTransactionApply, validateTransactionAgainstState,
      rejectDeletedCheckpoint]
    rw [failIf_neg hAdm.count, ok_bind, hAdm.continues, ok_bind, failIf_neg (by simp), ok_bind,
      validateParent_eq_ok.mpr hAdm.parent, ok_bind, failIf_neg (by simp [hAdm.fresh]), ok_bind,
      failIf_neg (by simp [hAdm.live]), ok_bind, validateRequest_eq_ok.mpr hAdm.request, ok_bind,
      hAdm.nodes, ok_bind, hThread, ok_bind, ok_bind, hApply]

end TulyaStore.Checkpoint
