import TulyaStore.History.Runs

/-!
# What the model promises

What holds along every trace of the model: a version keeps its place, its lineage, its length and
its binding for ever, and its bytes until it is expired (`Later`); the ledger has the newest
requests that were committed, each once (`Issuing`); and a request is protected against a second
commit for as long as fewer versions than the ledger holds have followed (`Protected`).
-/

namespace TulyaStore.History

open Lib Sequence

namespace HistoryModel

variable {sha256 : Bytes → Digest} {m m' m'' : HistoryModel} {event : AuthorityEvent}

/-- What an event changes, an operation has changed. -/
theorem Event.step (h : m.Event sha256 event m') :
    m' = m ∨ ∃ operation answer, Step sha256 m operation answer m' ∧
      (event = .answered (.mutate operation) (some answer) ∨
        event = .interrupted (.mutate operation) ∨
        event = .failed (.mutate operation) (.indeterminate .fileSyncAll)) := by
  cases h with
  | answered hCall =>
    cases hCall with
    | mutate hStep => exact .inr ⟨_, _, hStep, .inl rfl⟩
    | _ => exact .inl rfl
  | done hCall =>
    cases hCall with
    | mutate hStep => exact .inr ⟨_, _, hStep, .inr (.inl rfl)⟩
    | _ => exact .inl rfl
  | unsynced hCall =>
    cases hCall with
    | mutate hStep => exact .inr ⟨_, _, hStep, .inr (.inr rfl)⟩
    | _ => exact .inl rfl
  | _ => exact .inl rfl

/-! ## Versions -/

/-- The same version later: its bytes may have been given up. -/
structure Outlives (old new : ModelVersion) : Prop where
  version : new.version = old.version
  len : new.len = old.len
  binding : new.binding = old.binding
  content : new.content = old.content ∨ new.content = none

theorem Outlives.refl (entry : ModelVersion) : Outlives entry entry := ⟨rfl, rfl, rfl, .inl rfl⟩

theorem Outlives.trans {a b c : ModelVersion} (h : Outlives a b) (hNext : Outlives b c) :
    Outlives a c where
  version := hNext.version.trans h.version
  len := hNext.len.trans h.len
  binding := hNext.binding.trans h.binding
  content := by
    rcases hNext.content with hSame | hNone
    · rw [hSame]
      exact h.content
    · exact .inr hNone

/-- The model later. -/
structure Later (m m' : HistoryModel) : Prop where
  histories : m.histories <+: m'.histories
  versions : ∀ (i : Nat) (old : ModelVersion), m.versions[i]? = some old →
    ∃ new, m'.versions[i]? = some new ∧ Outlives old new
  count : m.versions.length ≤ m'.versions.length

theorem Later.refl (m : HistoryModel) : Later m m :=
  ⟨List.prefix_rfl, fun _ old hGet => ⟨old, hGet, .refl old⟩, Nat.le_refl _⟩

theorem Later.trans (h : Later m m') (hNext : Later m' m'') : Later m m'' where
  histories := h.histories.trans hNext.histories
  versions i old hGet := by
    obtain ⟨new, hNew, hOutlives⟩ := h.versions i old hGet
    obtain ⟨newer, hNewer, hMore⟩ := hNext.versions i new hNew
    exact ⟨newer, hNewer, hOutlives.trans hMore⟩
  count := h.count.trans hNext.count

theorem later_record (commit : Commit) (bytes : Bytes) : Later m (m.record commit bytes) where
  histories := List.prefix_rfl
  versions i old hGet := by
    have hLt := (List.getElem?_eq_some_iff.mp hGet).1
    refine ⟨old, ?_, .refl old⟩
    change (m.versions ++ _)[i]? = some old
    rw [List.getElem?_append_left hLt, hGet]
  count := by
    change _ ≤ (m.versions ++ _).length
    rw [List.length_append]
    exact Nat.le_add_right _ _

theorem later_expire (id : VersionId) : Later m (m.expire id) where
  histories := List.prefix_rfl
  versions i old hGet := by
    refine ⟨if old.version.id = id then { old with content := none } else old, ?_, ?_⟩
    · change (m.versions.map _)[i]? = _
      rw [List.getElem?_map, hGet]
      rfl
    · split
      case isTrue => exact ⟨rfl, rfl, rfl, .inr rfl⟩
      case isFalse => exact .refl old
  count := by
    change _ ≤ (m.versions.map _).length
    rw [List.length_map]

theorem Step.later {operation : Operation} {answer : Answer}
    (h : Step sha256 m operation answer m') : Later m m' := by
  cases h with
  | created => exact ⟨List.prefix_append _ _, (Later.refl m).versions, Nat.le_refl _⟩
  | committed => exact later_record _ _
  | expired => exact later_expire _
  | retired => exact ⟨List.prefix_rfl, (Later.refl m).versions, Nat.le_refl _⟩
  | _ => exact .refl m

theorem Event.later (h : m.Event sha256 event m') : Later m m' := by
  rcases h.step with rfl | ⟨operation, answer, hStep, -⟩
  · exact .refl m'
  · exact hStep.later

theorem later_of_traces {events : List AuthorityEvent}
    (h : Traces (Event sha256) m events m') : Later m m' :=
  h.related (I := fun _ => True) Later.refl (fun _ _ _ => Later.trans) (fun _ _ _ _ _ => trivial)
    (fun _ _ _ _ hEvent => hEvent.later) trivial

theorem Later.versions_prefix (h : Later m m') :
    m.versions.map ModelVersion.version <+: m'.versions.map ModelVersion.version := by
  rw [List.prefix_iff_getElem?]
  intro i hLt
  rw [List.length_map] at hLt
  obtain ⟨new, hNew, hOutlives⟩ := h.versions i _ (List.getElem?_eq_getElem hLt)
  rw [List.getElem?_map, hNew, Option.map_some, hOutlives.version, List.getElem_map]

theorem Later.history (h : Later m m') {i : Nat} (hLt : i < m.histories.length) :
    m'.histories[i]? = m.histories[i]? := by
  obtain ⟨more, hMore⟩ := h.histories
  rw [← hMore, List.getElem?_append_left hLt]

/-! ## The invariant of the model -/

/-- What holds of every model: versions are numbered densely, the receipts are of different
requests, no more than the ledger holds, and an active receipt names a version that still has its
bytes. -/
structure Valid (m : HistoryModel) : Prop where
  dense : ∀ (i : Nat) (entry : ModelVersion), m.versions[i]? = some entry → entry.version.id = ⟨i⟩
  requests : (m.receipts.map Receipt.request).Nodup
  horizon : m.receipts.length ≤ stagingRequestReceiptCapacity
  active : ∀ receipt ∈ m.receipts, ∀ id, receipt.version = some id →
    ∃ entry, m.versions[id.id]? = some entry ∧ entry.content.isSome

theorem valid_empty : Valid empty where
  dense := fun _ _ hGet => by cases hGet
  requests := List.nodup_nil
  horizon := Nat.zero_le _
  active := fun _ hMem => by cases hMem

theorem newest_suffix {α : Type} (xs : List α) : newest xs <:+ xs := List.drop_suffix _ _

theorem length_newest {α : Type} (xs : List α) :
    (newest xs).length ≤ stagingRequestReceiptCapacity := by
  rw [newest, List.length_drop]
  omega

/-- The receipts a commit leaves are old ones or its own. -/
theorem mem_withReceipt {receipts : List Receipt} {requestId : Option Bytes} {digest : Digest}
    {id : VersionId} {receipt : Receipt}
    (h : receipt ∈ withReceipt receipts requestId digest id) :
    receipt ∈ receipts ∨ receipt.version = some id := by
  cases requestId with
  | none => exact .inl h
  | some request =>
    rw [withReceipt] at h
    rcases List.mem_append.mp ((newest_suffix _).subset h) with hOld | hNew
    · exact .inl hOld
    · exact .inr (by rw [List.mem_singleton.mp hNew])

theorem Valid.record (h : Valid m) {commit : Commit} {bytes : Bytes}
    (hNew : ∀ request, commit.requestId = some request →
      request ∉ m.receipts.map Receipt.request) : Valid (m.record commit bytes) where
  dense := by
    intro i entry hGet
    change (m.versions ++ _)[i]? = some entry at hGet
    by_cases hLt : i < m.versions.length
    · rw [List.getElem?_append_left hLt] at hGet
      exact h.dense i entry hGet
    · rw [List.getElem?_append_right (Nat.le_of_not_lt hLt)] at hGet
      rw [List.getElem?_singleton] at hGet
      split at hGet
      case isTrue hZero =>
        have hEnd : i = m.versions.length := by omega
        cases hGet
        rw [hEnd]
        rfl
      case isFalse => cases hGet
  requests := by
    change ((withReceipt m.receipts commit.requestId commit.digest _).map Receipt.request).Nodup
    cases hRequest : commit.requestId with
    | none => exact h.requests
    | some request =>
      have hAll : ((m.receipts ++ [Receipt.mk request commit.digest (some ⟨m.versions.length⟩)]).map
          Receipt.request).Nodup := by
        rw [List.map_append, List.map_singleton, List.nodup_append]
        refine ⟨h.requests, List.nodup_singleton _, ?_⟩
        intro old hOld new hMem hSame
        rw [List.mem_singleton.mp hMem] at hSame
        rw [hSame] at hOld
        exact hNew request hRequest hOld
      exact hAll.sublist ((newest_suffix _).sublist.map _)
  horizon := by
    change (withReceipt m.receipts commit.requestId commit.digest _).length ≤ _
    cases commit.requestId with
    | none => exact h.horizon
    | some request => exact length_newest _
  active := by
    intro receipt hMem id hVersion
    change ∃ entry, (m.versions ++ _)[id.id]? = some entry ∧ _
    rcases mem_withReceipt hMem with hOld | hOwn
    · obtain ⟨entry, hGet, hSome⟩ := h.active receipt hOld id hVersion
      have hLt := (List.getElem?_eq_some_iff.mp hGet).1
      exact ⟨entry, by rw [List.getElem?_append_left hLt, hGet], hSome⟩
    · rw [hOwn] at hVersion
      cases hVersion
      exact ⟨_, List.getElem?_concat_length, rfl⟩

theorem Valid.expire (h : Valid m) (id : VersionId) : Valid (m.expire id) where
  dense := by
    intro i entry hGet
    change (m.versions.map _)[i]? = some entry at hGet
    rw [List.getElem?_map] at hGet
    obtain ⟨old, hOld, rfl⟩ := Option.map_eq_some_iff.mp hGet
    rw [← h.dense i old hOld]
    split <;> rfl
  requests := by
    have hSame : (m.expire id).receipts.map Receipt.request = m.receipts.map Receipt.request := by
      change (m.receipts.map _).map _ = _
      rw [List.map_map]
      refine List.map_congr_left fun receipt _ => ?_
      rw [Function.comp_apply]
      split <;> rfl
    rw [hSame]
    exact h.requests
  horizon := by
    change (m.receipts.map _).length ≤ _
    rw [List.length_map]
    exact h.horizon
  active := by
    intro receipt hMem other hVersion
    obtain ⟨old, hOld, rfl⟩ := List.mem_map.mp hMem
    split at hVersion
    case isTrue => cases hVersion
    case isFalse hNot =>
      obtain ⟨entry, hGet, hSome⟩ := h.active old hOld other hVersion
      refine ⟨entry, ?_, hSome⟩
      change (m.versions.map _)[other.id]? = some entry
      rw [List.getElem?_map, hGet, Option.map_some, if_neg]
      intro hSame
      rw [h.dense _ _ hGet] at hSame
      exact hNot (hSame ▸ hVersion)

theorem Valid.retire (h : Valid m) (request : Bytes) : Valid (m.retire request) where
  dense := h.dense
  requests := by
    have hSame : (m.retire request).receipts.map Receipt.request =
        m.receipts.map Receipt.request := by
      change (m.receipts.map _).map _ = _
      rw [List.map_map]
      refine List.map_congr_left fun receipt _ => ?_
      rw [Function.comp_apply]
      split <;> rfl
    rw [hSame]
    exact h.requests
  horizon := by
    change (m.receipts.map _).length ≤ _
    rw [List.length_map]
    exact h.horizon
  active := by
    intro receipt hMem id hVersion
    obtain ⟨old, hOld, rfl⟩ := List.mem_map.mp hMem
    split at hVersion
    case isTrue => cases hVersion
    case isFalse => exact h.active old hOld id hVersion

theorem Event.valid (h : m.Event sha256 event m') (hValid : Valid m) : Valid m' := by
  rcases h.step with rfl | ⟨operation, answer, hStep, -⟩
  · exact hValid
  · cases hStep with
    | created => exact ⟨hValid.dense, hValid.requests, hValid.horizon, hValid.active⟩
    | committed _ _ _ hNew => exact hValid.record hNew
    | expired => exact hValid.expire _
    | retired => exact hValid.retire _
    | _ => exact hValid

theorem valid_of_traces {events : List AuthorityEvent} (h : Traces (Event sha256) m events m')
    (hValid : Valid m) : Valid m' :=
  h.invariant (fun _ _ _ hBefore hEvent => hEvent.valid hBefore) hValid

/-! ## Bytes are given up by expiration only -/

/-- The operation of an event that may have taken effect. -/
def operationOf : AuthorityEvent → Option Operation
  | .answered (.mutate operation) _ => some operation
  | .interrupted (.mutate operation) => some operation
  | .failed (.mutate operation) (.indeterminate .fileSyncAll) => some operation
  | _ => none

theorem Event.operation_of_change (h : m.Event sha256 event m') :
    m' = m ∨ ∃ operation answer, operationOf event = some operation ∧
      Step sha256 m operation answer m' := by
  rcases h.step with hSame | ⟨operation, answer, hStep, rfl | rfl | rfl⟩
  · exact .inl hSame
  · exact .inr ⟨operation, answer, rfl, hStep⟩
  · exact .inr ⟨operation, answer, rfl, hStep⟩
  · exact .inr ⟨operation, answer, rfl, hStep⟩

/-- Seals and collections leave the model, however they end. -/
theorem Event.maintenance {call : AuthorityCall} (hCall : ∀ operation, call ≠ .mutate operation)
    (h : m.Event sha256 event m')
    (hEvent : (∃ answer, event = .answered call answer) ∨ (∃ e, event = .failed call e) ∨
      event = .interrupted call) : m' = m := by
  have hNone : operationOf event = none := by
    cases call with
    | mutate operation => exact absurd rfl (hCall operation)
    | sealWithSync => rcases hEvent with ⟨answer, rfl⟩ | ⟨e, rfl⟩ | rfl <;> rfl
    | gcWithSync entries => rcases hEvent with ⟨answer, rfl⟩ | ⟨e, rfl⟩ | rfl <;> rfl
  rcases h.operation_of_change with hSame | ⟨operation, answer, hSome, -⟩
  · exact hSame
  · rw [hNone] at hSome
    cases hSome

/-- A version that has lost its bytes was expired. -/
theorem Event.expires (h : m.Event sha256 event m') (hValid : Valid m) {i : Nat}
    {old new : ModelVersion} (hOld : m.versions[i]? = some old) (hNew : m'.versions[i]? = some new)
    (hHad : old.content.isSome) (hLost : new.content = none) :
    operationOf event = some (.expire ⟨i⟩) := by
  have hSame : m'.versions[i]? = m.versions[i]? → operationOf event = some (.expire ⟨i⟩) := by
    intro hGet
    rw [hGet, hOld] at hNew
    cases hNew
    rw [hLost] at hHad
    cases hHad
  rcases h.operation_of_change with rfl | ⟨operation, answer, hOperation, hStep⟩
  · exact hSame rfl
  · cases hStep with
    | @expired id entry hVersion hRetained =>
      change (m.versions.map _)[i]? = some new at hNew
      rw [List.getElem?_map, hOld, Option.map_some] at hNew
      cases hNew
      split at hLost
      case isTrue hId =>
        rw [← hId, hValid.dense i old hOld] at hOperation
        exact hOperation
      case isFalse =>
        rw [hLost] at hHad
        cases hHad
    | committed =>
      refine hSame ?_
      change (m.versions ++ _)[i]? = _
      exact List.getElem?_append_left (List.getElem?_eq_some_iff.mp hOld).1
    | _ => exact hSame rfl

theorem expired_of_traces {events : List AuthorityEvent} (h : Traces (Event sha256) m events m')
    (hValid : Valid m) {i : Nat} {old new : ModelVersion} (hOld : m.versions[i]? = some old)
    (hNew : m'.versions[i]? = some new) (hHad : old.content.isSome) (hLost : new.content = none) :
    ∃ event ∈ events, operationOf event = some (.expire ⟨i⟩) := by
  induction h generalizing old with
  | nil m =>
    rw [hOld] at hNew
    cases hNew
    rw [hLost] at hHad
    cases hHad
  | @cons m next _ event events hEvent hRest ih =>
    obtain ⟨middle, hMiddle, hOutlives⟩ := hEvent.later.versions i old hOld
    rcases hOutlives.content with hKept | hGone
    · obtain ⟨other, hMem, hOperation⟩ := ih (hEvent.valid hValid) hMiddle hNew (hKept ▸ hHad)
      exact ⟨other, List.mem_cons_of_mem _ hMem, hOperation⟩
    · exact ⟨event, List.mem_cons_self, hEvent.expires hValid hOld hMiddle hHad hGone⟩

/-! ## The ledger -/

/-- The request of an operation. -/
def requestOf : Operation → Option Bytes
  | .splice _ _ _ _ _ requestId _ => requestId
  | .append _ _ _ requestId _ => requestId
  | .fork _ _ requestId _ => requestId
  | _ => none

theorem commitOf_request {operation : Operation} {commit : Commit}
    (h : m.commitOf sha256 operation = some commit) : commit.requestId = requestOf operation := by
  have hSplice : ∀ {history parent offset deleteLen insert requestId binding},
      m.spliceCommit sha256 history parent offset deleteLen insert requestId binding = some commit →
        commit.requestId = requestId := by
    intro history parent offset deleteLen insert requestId binding hSome
    obtain ⟨found, -, hIf⟩ := Option.bind_eq_some_iff.mp hSome
    split at hIf
    case isTrue =>
      cases hIf
      rfl
    case isFalse => cases hIf
  cases operation with
  | splice => exact hSplice h
  | append =>
    obtain ⟨found, -, hRest⟩ := Option.bind_eq_some_iff.mp h
    exact hSplice hRest
  | fork =>
    obtain ⟨entry, -, rfl⟩ := Option.map_eq_some_iff.mp h
    rfl
  | _ => cases h

/-- A trace with the requests of the commits that took effect in it: those behind which there is
one more version. -/
inductive Issuing (sha256 : Bytes → Digest) :
    HistoryModel → List AuthorityEvent → List Bytes → HistoryModel → Prop where
  | nil (m : HistoryModel) : Issuing sha256 m [] [] m
  | kept {m m' m'' : HistoryModel} {event : AuthorityEvent} {events : List AuthorityEvent}
      {issued : List Bytes} (hEvent : m.Event sha256 event m')
      (hCount : m'.versions.length = m.versions.length)
      (hRest : Issuing sha256 m' events issued m'') : Issuing sha256 m (event :: events) issued m''
  | issued {m m' m'' : HistoryModel} {event : AuthorityEvent} {events : List AuthorityEvent}
      {issued : List Bytes} (hEvent : m.Event sha256 event m')
      (hCount : m'.versions.length = m.versions.length + 1)
      (hRest : Issuing sha256 m' events issued m'') :
      Issuing sha256 m (event :: events)
        (((operationOf event).bind requestOf).toList ++ issued) m''

/-- An event that adds no version leaves the requests of the ledger, and one that does adds its
own. -/
theorem Event.requests (h : m.Event sha256 event m') :
    (m'.versions.length = m.versions.length ∧
      m'.receipts.map Receipt.request = m.receipts.map Receipt.request) ∨
    (m'.versions.length = m.versions.length + 1 ∧
      m'.receipts.map Receipt.request = match (operationOf event).bind requestOf with
        | some request => newest (m.receipts.map Receipt.request ++ [request])
        | none => m.receipts.map Receipt.request) := by
  have hMapped : ∀ f : Receipt → Receipt, (∀ receipt, (f receipt).request = receipt.request) →
      (m.receipts.map f).map Receipt.request = m.receipts.map Receipt.request := by
    intro f hRequest
    rw [List.map_map]
    exact List.map_congr_left fun receipt _ => hRequest receipt
  rcases h.operation_of_change with rfl | ⟨operation, answer, hOperation, hStep⟩
  · exact .inl ⟨rfl, rfl⟩
  · cases hStep with
    | @committed _ commit bytes hCommit hAdmits hBytes hNew =>
      refine .inr ⟨List.length_append, ?_⟩
      rw [hOperation, Option.bind_some, ← commitOf_request hCommit]
      change (withReceipt m.receipts commit.requestId commit.digest _).map Receipt.request = _
      cases commit.requestId with
      | none => rfl
      | some request =>
        rw [withReceipt, newest_map, List.map_append, List.map_singleton]
    | expired =>
      refine .inl ⟨List.length_map _, hMapped _ fun receipt => ?_⟩
      split <;> rfl
    | retired =>
      refine .inl ⟨rfl, hMapped _ fun receipt => ?_⟩
      split <;> rfl
    | _ => exact .inl ⟨rfl, rfl⟩

/-- The request of a commit that takes effect is new to the ledger. -/
theorem Event.request_new (h : m.Event sha256 event m')
    (hCount : m'.versions.length = m.versions.length + 1) {request : Bytes}
    (hRequest : (operationOf event).bind requestOf = some request) :
    request ∉ m.receipts.map Receipt.request := by
  rcases h.operation_of_change with rfl | ⟨operation, answer, hOperation, hStep⟩
  · omega
  · cases hStep with
    | committed hCommit hAdmits hBytes hNew =>
      refine hNew request ?_
      rw [hOperation, Option.bind_some] at hRequest
      rw [commitOf_request hCommit, hRequest]
    | @expired id entry hVersion hRetained =>
      have hLen : (m.expire id).versions.length = m.versions.length := List.length_map _
      omega
    | created => exact absurd hCount (by change ¬m.versions.length = _; omega)
    | retired => exact absurd hCount (by change ¬m.versions.length = _; omega)
    | _ => omega

theorem issuing_of_traces {events : List AuthorityEvent} (h : Traces (Event sha256) m events m') :
    ∃ issued, Issuing sha256 m events issued m' := by
  induction h with
  | nil m => exact ⟨[], .nil m⟩
  | cons hEvent _ ih =>
    obtain ⟨issued, hIssued⟩ := ih
    rcases hEvent.requests with ⟨hCount, -⟩ | ⟨hCount, -⟩
    · exact ⟨issued, .kept hEvent hCount hIssued⟩
    · exact ⟨_, .issued hEvent hCount hIssued⟩

/-- The ledger has the newest of the requests committed, in their order. -/
theorem Issuing.ledger {events : List AuthorityEvent} {issued before : List Bytes}
    (h : Issuing sha256 m events issued m')
    (hBefore : m.receipts.map Receipt.request = newest before) :
    m'.receipts.map Receipt.request = newest (before ++ issued) := by
  induction h generalizing before with
  | nil m => rw [List.append_nil, hBefore]
  | kept hEvent hCount _ ih =>
    refine ih ?_
    rcases hEvent.requests with ⟨-, hRequests⟩ | ⟨hMore, -⟩
    · rw [hRequests, hBefore]
    · omega
  | issued hEvent hCount _ ih =>
    rw [← List.append_assoc]
    refine ih ?_
    rcases hEvent.requests with ⟨hSame, -⟩ | ⟨-, hRequests⟩
    · omega
    · rw [hRequests]
      cases (operationOf _).bind requestOf with
      | none =>
        rw [Option.toList_none, List.append_nil]
        exact hBefore
      | some request =>
        rw [Option.toList_some, hBefore]
        exact newest_append_singleton before request

/-- A request that takes effect is none of the newest ones in front of it. -/
theorem Issuing.spaced {events : List AuthorityEvent} {issued before : List Bytes}
    (h : Issuing sha256 m events issued m') (hValid : Valid m)
    (hBefore : m.receipts.map Receipt.request = newest before) :
    ∀ earlier request later, issued = earlier ++ request :: later →
      request ∉ newest (before ++ earlier) := by
  induction h generalizing before with
  | nil m =>
    intro earlier request later hSplit
    cases earlier <;> cases hSplit
  | kept hEvent hCount _ ih =>
    refine ih (hEvent.valid hValid) ?_
    rcases hEvent.requests with ⟨-, hRequests⟩ | ⟨hMore, -⟩
    · rw [hRequests, hBefore]
    · omega
  | @issued m m₁ m₂ event events issued hEvent hCount hRest ih =>
    rcases hEvent.requests with ⟨hSame, -⟩ | ⟨-, hRequests⟩
    · omega
    · intro earlier request later hSplit
      cases hRequest : (operationOf event).bind requestOf with
      | none =>
        rw [hRequest] at hSplit hRequests
        exact ih (hEvent.valid hValid) (hRequests.trans hBefore) earlier request later hSplit
      | some own =>
        rw [hRequest] at hSplit hRequests
        dsimp only at hRequests
        have hNext : m₁.receipts.map Receipt.request = newest (before ++ [own]) := by
          rw [hRequests, hBefore, newest_append_singleton]
        cases earlier with
        | nil =>
          cases hSplit
          rw [List.append_nil, ← hBefore]
          exact hEvent.request_new hCount hRequest
        | cons first earlier =>
          cases hSplit
          have hOthers := ih (hEvent.valid hValid) hNext earlier request later rfl
          rw [List.append_assoc] at hOthers
          exact hOthers

/-! ## Protected requests -/

/-- The ledger has the request with what it was committed with, behind at most `n` newer ones. -/
def Protects (m : HistoryModel) (request : Bytes) (digest : Digest) (id : VersionId) (n : Nat) :
    Prop :=
  ∃ older newer version, m.receipts = older ++ ⟨request, digest, version⟩ :: newer ∧
    (version = some id ∨ version = none) ∧ newer.length ≤ n

variable {request : Bytes} {digest : Digest} {id : VersionId} {n : Nat}

theorem protects_record {commit : Commit} {bytes : Bytes}
    (hRequest : commit.requestId = some request) :
    Protects (m.record commit bytes) request commit.digest ⟨m.versions.length⟩ 0 := by
  have hPos : 0 < stagingRequestReceiptCapacity := by decide
  refine ⟨m.receipts.drop (m.receipts.length + 1 - stagingRequestReceiptCapacity), [],
    some ⟨m.versions.length⟩, ?_, .inl rfl, Nat.le_refl _⟩
  change withReceipt m.receipts commit.requestId commit.digest _ = _
  rw [hRequest, withReceipt, newest, List.length_append, List.length_singleton]
  exact List.drop_append_of_le_length (by omega)

theorem Protects.mono (h : m.Protects request digest id n) {k : Nat} (hLe : n ≤ k) :
    m.Protects request digest id k := by
  obtain ⟨older, newer, version, hReceipts, hVersion, hLen⟩ := h
  exact ⟨older, newer, version, hReceipts, hVersion, Nat.le_trans hLen hLe⟩

/-- A receipt that is retired is still one of its request. -/
theorem Protects.map (h : m.Protects request digest id n) {f : Receipt → Receipt}
    (hf : ∀ receipt, f receipt = receipt ∨ f receipt = { receipt with version := none })
    (hReceipts : m'.receipts = m.receipts.map f) : m'.Protects request digest id n := by
  obtain ⟨older, newer, version, hSplit, hVersion, hLen⟩ := h
  have hOwn : ∃ version', f ⟨request, digest, version⟩ = ⟨request, digest, version'⟩ ∧
      (version' = some id ∨ version' = none) := by
    rcases hf ⟨request, digest, version⟩ with hSame | hNone
    · exact ⟨version, hSame, hVersion⟩
    · exact ⟨none, hNone, .inr rfl⟩
  obtain ⟨version', hMap, hVersion'⟩ := hOwn
  refine ⟨older.map f, newer.map f, version', ?_, hVersion', ?_⟩
  · rw [hReceipts, hSplit, List.map_append, List.map_cons, hMap]
  · rw [List.length_map]
    exact hLen

/-- One more receipt leaves a request in the ledger that has fewer newer ones than the ledger
holds. -/
theorem Protects.record (h : m.Protects request digest id n)
    (hRoom : n + 1 < stagingRequestReceiptCapacity) (commit : Commit) (bytes : Bytes) :
    (m.record commit bytes).Protects request digest id (n + 1) := by
  obtain ⟨older, newer, version, hSplit, hVersion, hLen⟩ := h
  cases hRequest : commit.requestId with
  | none =>
    refine ⟨older, newer, version, ?_, hVersion, Nat.le_succ_of_le hLen⟩
    change withReceipt m.receipts commit.requestId commit.digest _ = _
    rw [hRequest]
    exact hSplit
  | some own =>
    refine ⟨older.drop (m.receipts.length + 1 - stagingRequestReceiptCapacity),
      newer ++ [⟨own, commit.digest, some ⟨m.versions.length⟩⟩], version, ?_, hVersion, ?_⟩
    · change withReceipt m.receipts commit.requestId commit.digest _ = _
      have hTotal : m.receipts.length = older.length + (newer.length + 1) := by
        rw [hSplit, List.length_append, List.length_cons]
      rw [hRequest, withReceipt, newest, List.length_append, List.length_singleton,
        ← List.cons_append, ← List.drop_append_of_le_length (by omega), hSplit, List.append_assoc]
    · rw [List.length_append, List.length_singleton]
      omega

theorem Event.protects (h : m.Event sha256 event m') (hProtects : m.Protects request digest id n)
    (hRoom : n + (m'.versions.length - m.versions.length) < stagingRequestReceiptCapacity) :
    m'.Protects request digest id (n + (m'.versions.length - m.versions.length)) := by
  have hMore : ∀ k, m.Protects request digest id (n + k) := fun k => hProtects.mono (by omega)
  rcases h.step with rfl | ⟨operation, answer, hStep, -⟩
  · exact hMore _
  · cases hStep with
    | @committed _ commit bytes hCommit hAdmits hBytes hNew =>
      have hCount : (m.record commit bytes).versions.length = m.versions.length + 1 :=
        List.length_append
      rw [hCount, Nat.add_sub_cancel_left] at hRoom ⊢
      exact hProtects.record hRoom commit bytes
    | expired =>
      refine (hMore _).map (fun receipt => ?_) rfl
      split
      case isTrue => exact .inr rfl
      case isFalse => exact .inl rfl
    | retired =>
      refine (hMore _).map (fun receipt => ?_) rfl
      split
      case isTrue => exact .inr rfl
      case isFalse => exact .inl rfl
    | created => exact hMore _
    | _ => exact hMore _

/-- A request stays in the ledger while fewer versions follow it than the ledger holds. -/
theorem protects_of_traces {events : List AuthorityEvent} (h : Traces (Event sha256) m events m')
    (hProtects : m.Protects request digest id n)
    (hRoom : n + (m'.versions.length - m.versions.length) < stagingRequestReceiptCapacity) :
    m'.Protects request digest id (n + (m'.versions.length - m.versions.length)) := by
  induction h generalizing n with
  | nil m => exact hProtects.mono (Nat.le_add_right _ _)
  | @cons m next last event events hEvent hRest ih =>
    have hFirst := hEvent.later.count
    have hLast := (later_of_traces hRest).count
    have hNext := hEvent.protects hProtects (by omega)
    exact (ih hNext (by omega)).mono (by omega)

/-! ## What an operation commits later -/

theorem Later.lookup (h : Later m m') {history : HistoryId} {parent : VersionId}
    {old : ModelVersion} (hOld : m.lookup history parent = some old) :
    ∃ new, m'.lookup history parent = some new ∧ Outlives old new := by
  obtain ⟨entry, hGet, hIf⟩ := Option.bind_eq_some_iff.mp hOld
  split at hIf
  case isTrue hHistory =>
    cases hIf
    obtain ⟨new, hNew, hOutlives⟩ := h.versions _ _ hGet
    refine ⟨new, ?_, hOutlives⟩
    rw [HistoryModel.lookup, hNew]
    exact if_pos (by rw [hOutlives.version, hHistory])
  case isFalse => cases hIf

theorem Later.parentOf (h : Later m m') {history : HistoryId} {parent : Option VersionId}
    {len : Nat} {bytes : Option Bytes} (hOld : m.parentOf history parent = some (len, bytes)) :
    ∃ bytes', m'.parentOf history parent = some (len, bytes') := by
  cases parent with
  | none => exact ⟨bytes, hOld⟩
  | some version =>
    obtain ⟨old, hLookup, hPair⟩ := Option.map_eq_some_iff.mp hOld
    cases hPair
    obtain ⟨new, hNew, hOutlives⟩ := h.lookup hLookup
    refine ⟨new.content, ?_⟩
    rw [HistoryModel.parentOf, hNew, ← hOutlives.len]
    rfl

/-- What an operation commits is the same later, up to bytes that were given up. -/
theorem Later.commitOf (h : Later m m') {operation : Operation} {commit : Commit}
    (hCommit : m.commitOf sha256 operation = some commit) :
    ∃ content, m'.commitOf sha256 operation = some { commit with content } := by
  have hSplice : ∀ {history parent offset deleteLen insert requestId binding},
      m.spliceCommit sha256 history parent offset deleteLen insert requestId binding = some commit →
        ∃ content, m'.spliceCommit sha256 history parent offset deleteLen insert requestId binding =
          some { commit with content } := by
    intro history parent offset deleteLen insert requestId binding hSome
    obtain ⟨⟨len, bytes⟩, hParent, hIf⟩ := Option.bind_eq_some_iff.mp hSome
    split at hIf
    case isTrue hBounds =>
      cases hIf
      obtain ⟨bytes', hParent'⟩ := h.parentOf hParent
      refine ⟨bytes'.map fun old => editBytes old offset deleteLen insert, ?_⟩
      rw [spliceCommit, hParent', Option.bind_some]
      exact if_pos hBounds
    case isFalse => cases hIf
  cases operation with
  | splice => exact hSplice hCommit
  | append history parent bytes requestId binding =>
    obtain ⟨⟨len, old⟩, hParent, hRest⟩ := Option.bind_eq_some_iff.mp hCommit
    obtain ⟨old', hParent'⟩ := h.parentOf hParent
    obtain ⟨content, hLater⟩ := hSplice hRest
    refine ⟨content, ?_⟩
    change (m'.parentOf history parent).bind _ = _
    rw [hParent']
    exact hLater
  | fork history parent requestId binding =>
    obtain ⟨entry, hLookup, rfl⟩ := Option.map_eq_some_iff.mp hCommit
    obtain ⟨new, hNew, -⟩ := h.lookup hLookup
    refine ⟨new.content, ?_⟩
    change (m'.lookup history parent).map _ = _
    rw [hNew]
    rfl
  | _ => cases hCommit

theorem Later.admits (h : Later m m') {commit : Commit} (hAdmits : m.Admits commit)
    (content : Option Bytes) : m'.Admits { commit with content } :=
  ⟨Nat.lt_of_lt_of_le hAdmits.1 h.histories.length_le, hAdmits.2⟩

end HistoryModel

end TulyaStore.History
