import TulyaStore.History.Promises

/-!
# Retries

A call whose request the ledger knows is answered from the ledger: no step is taken, and the
answer is the version the request was committed as, that it was retired, or a refusal. A call is
answered with the version or with `retired` whenever it commits in the model what was committed
under its request.
-/

namespace TulyaStore.History

open Lib FileM Sequence V2AvlSequence PersistentHistoryStore

/-- The answer to a request whose receipt names the given version. -/
def HistoryModel.answerOf (m : HistoryModel) : Option VersionId → Option CommitOutcome
  | some id => m.versions[id.id]?.map fun entry => .replayed entry.version
  | none => some .retired

section Retries

variable {sha256 : Bytes → Digest} {s : PersistentHistoryStore} {a : V2AvlSequence}

/-! ## The ledger's answer -/

theorem mem_receiptOrder {receipt : Receipt} (h : receipt ∈ (s.view a).receipts) :
    receipt.request ∈ s.receiptOrder := by
  rw [← view_requests (a := a)]
  exact List.mem_map_of_mem h

/-- A request in the ledger is never taken for an unknown one. -/
theorem classifyRequest_ne_unknown (h : LedgerInv s) {request : Bytes} {digest : Digest}
    (hMem : request ∈ s.receiptOrder) :
    s.classifyRequest (some request) digest ≠ .ok .unknown := by
  intro hUnknown
  obtain ⟨_, -, hRest⟩ := bind_eq_ok.mp hUnknown
  rcases h.tables.mem.mp hMem with ⟨entry, hActive⟩ | ⟨found, hRetired⟩
  · rw [hActive] at hRest
    dsimp only at hRest
    split at hRest
    case isTrue =>
      obtain ⟨record, -, hEq⟩ := bind_eq_ok.mp hRest
      cases hEq
    case isFalse => cases hRest
  · have hNone : s.activeRequests.get request = none := by
      cases hActive : s.activeRequests.get request with
      | none => rfl
      | some entry =>
        have hOther := h.tables.disjoint hActive
        rw [hRetired] at hOther
        cases hOther
    rw [hNone, hRetired] at hRest
    dsimp only at hRest
    split at hRest
    case isTrue => cases hRest
    case isFalse => cases hRest

/-- The receipt of a request is what it is found to be under its own digest. -/
theorem classifyRequest_of_receipt (h : StoreInv s) {request : Bytes} {digest : Digest}
    {version : Option VersionId} {outcome : CommitOutcome}
    (hMem : ⟨request, digest, version⟩ ∈ (s.view a).receipts)
    (hAnswer : (s.view a).answerOf version = some outcome) :
    ∃ found, s.classifyRequest (some request) digest = .ok found ∧ found ≠ .unknown ∧
      knownOutcome found = outcome := by
  have hValid := h.ledger.valid request (mem_receiptOrder hMem)
  cases version with
  | some id =>
    obtain ⟨entry, hEntry, rfl⟩ := Option.map_eq_some_iff.mp hAnswer
    change (s.versions.map _)[id.id]? = some entry at hEntry
    rw [List.getElem?_map] at hEntry
    obtain ⟨record, hGet, rfl⟩ := Option.map_eq_some_iff.mp hEntry
    have hRecord : s.versionRecord id = .ok record :=
      versionRecord_eq_ok.mpr ⟨hGet, h.catalogue.dense _ _ hGet⟩
    refine ⟨.replayed record.version, ?_, (fun hSame => by cases hSame), rfl⟩
    rw [classifyRequest, hValid, ok_bind, (mem_view_active h.ledger).mp hMem]
    dsimp only
    rw [if_pos rfl, hRecord]
    rfl
  | none =>
    cases hAnswer
    have hRetired := (mem_view_retired h.ledger).mp hMem
    have hNone : s.activeRequests.get request = none := by
      cases hActive : s.activeRequests.get request with
      | none => rfl
      | some entry =>
        have hOther := h.ledger.tables.disjoint hActive
        rw [hRetired] at hOther
        cases hOther
    refine ⟨.retired, ?_, (fun hSame => by cases hSame), rfl⟩
    rw [classifyRequest, hValid, ok_bind, hNone, hRetired]
    dsimp only
    rw [if_pos rfl]
    rfl

/-! ## The previews -/

/-- The preview of a call whose request is known. -/
def knownPreview {P : Type} : RequestClass → Preview P
  | .replayed version => .replayed version
  | _ => .retired

theorem admits_checks (h : StoreInv s) {commit : Commit} (hAdmits : (s.view a).Admits commit) :
    commit.history ∈ s.histories ∧ validateOptionalBinding commit.binding = .ok () := by
  obtain ⟨hHistory, hBinding⟩ := hAdmits
  refine ⟨(h.catalogue.histories _).mpr ?_, ?_⟩
  · change commit.history.id < (List.map _ (List.range s.nextHistoryId)).length at hHistory
    rw [List.length_map, List.length_range] at hHistory
    exact hHistory
  · cases hSome : commit.binding with
    | none => rfl
    | some bytes => exact hBinding bytes hSome

/-- The record behind a version of the model. -/
theorem versionRecord_of_lookup (h : StoreInv s) {history : HistoryId} {id : VersionId}
    {entry : ModelVersion} (hLookup : (s.view a).lookup history id = some entry) :
    ∃ record, s.versionRecord id = .ok record ∧ record.version.history = history ∧
      entry = s.versionView a record := by
  obtain ⟨found, hGet, hIf⟩ := Option.bind_eq_some_iff.mp hLookup
  change (s.versions.map _)[id.id]? = some found at hGet
  rw [List.getElem?_map] at hGet
  obtain ⟨record, hRecord, rfl⟩ := Option.map_eq_some_iff.mp hGet
  split at hIf
  case isTrue hHistory =>
    cases hIf
    exact ⟨record, versionRecord_eq_ok.mpr ⟨hRecord, h.catalogue.dense _ _ hRecord⟩, hHistory, rfl⟩
  case isFalse => cases hIf

/-- The parent of a splice of the model is the one the store finds. -/
theorem spliceParent_of_view (h : StoreInv s) {history : HistoryId} {parent : Option VersionId}
    {len : Nat} {bytes : Option Bytes}
    (hParent : (s.view a).parentOf history parent = some (len, bytes)) :
    ∃ root, s.spliceParent history parent = .ok (root, len) := by
  cases parent with
  | none =>
    cases hParent
    exact ⟨none, rfl⟩
  | some id =>
    obtain ⟨entry, hLookup, hPair⟩ := Option.map_eq_some_iff.mp hParent
    cases hPair
    obtain ⟨record, hRecord, hHistory, rfl⟩ := versionRecord_of_lookup h hLookup
    refine ⟨record.root, ?_⟩
    rw [spliceParent, parentRecord_eq_ok.mpr ⟨hRecord, hHistory⟩]
    rfl

/-- A splice whose request is known is answered from the ledger. -/
theorem previewSplice_known (h : StoreInv s) (hUnpoisoned : s.poisoned = false)
    {history : HistoryId} {parent : Option VersionId} {offset deleteLen : Nat} {insert : Bytes}
    {requestId binding : Option Bytes} {commit : Commit}
    (hCommit : (s.view a).spliceCommit sha256 history parent offset deleteLen insert requestId
      binding = some commit) (hAdmits : (s.view a).Admits commit) {found : RequestClass}
    (hClass : s.classifyRequest commit.requestId commit.digest = .ok found)
    (hKnown : found ≠ .unknown) :
    s.previewSplice sha256 history parent offset deleteLen insert requestId binding =
      .ok (knownPreview found) := by
  obtain ⟨⟨len, bytes⟩, hParent, hIf⟩ := Option.bind_eq_some_iff.mp hCommit
  split at hIf
  case isTrue hBounds =>
    cases hIf
    obtain ⟨hHistory, hBinding⟩ := admits_checks h hAdmits
    obtain ⟨root, hStoreParent⟩ := spliceParent_of_view h hParent
    have hCoordinates : checkSpliceCoordinates previewSpliceTexts parent len offset deleteLen
        insert =
        .ok (len - deleteLen + insert.length) :=
      (checkSpliceCoordinates_iff (spliceParent_root hStoreParent)).mpr ⟨hBounds, rfl⟩
    rw [previewSplice, requireUnpoisoned, failIf_neg (by rw [hUnpoisoned]; simp), ok_bind,
      failIf_neg (not_not.mpr hHistory), ok_bind, hBinding, ok_bind, hStoreParent, ok_bind]
    dsimp only
    rw [hCoordinates, ok_bind, hClass, ok_bind]
    cases found with
    | unknown => exact absurd rfl hKnown
    | replayed version => rfl
    | retired => rfl
  case isFalse => cases hIf

/-- A fork whose request is known is answered from the ledger. -/
theorem previewFork_known (h : StoreInv s) (hUnpoisoned : s.poisoned = false)
    {history : HistoryId} {parent : VersionId} {requestId binding : Option Bytes} {commit : Commit}
    (hCommit : (s.view a).commitOf sha256 (.fork history parent requestId binding) = some commit)
    (hAdmits : (s.view a).Admits commit) {found : RequestClass}
    (hClass : s.classifyRequest commit.requestId commit.digest = .ok found)
    (hKnown : found ≠ .unknown) :
    s.previewFork sha256 history parent requestId binding = .ok (knownPreview found) := by
  obtain ⟨entry, hLookup, rfl⟩ := Option.map_eq_some_iff.mp hCommit
  obtain ⟨hHistory, hBinding⟩ := admits_checks h hAdmits
  obtain ⟨record, hRecord, hOwn, rfl⟩ := versionRecord_of_lookup h hLookup
  rw [previewFork, requireUnpoisoned, failIf_neg (by rw [hUnpoisoned]; simp), ok_bind,
    failIf_neg (not_not.mpr hHistory), ok_bind, hBinding, ok_bind,
    parentRecord_eq_ok.mpr ⟨hRecord, hOwn⟩, ok_bind]
  dsimp only at hClass ⊢
  rw [hClass, ok_bind]
  cases found with
  | unknown => exact absurd rfl hKnown
  | replayed version => rfl
  | retired => rfl

/-! ## The calls -/

variable {files : HistoryFiles} {physical : Nat} {auth : WritableHistoryAuthority}

theorem Live.splice_known (h : Live sha256 auth files physical a) {history : HistoryId}
    {parent : Option VersionId} {offset deleteLen : Nat} {insert : Bytes}
    {requestId binding : Option Bytes} {found : RequestClass}
    (hPreview : auth.store.previewSplice sha256 history parent offset deleteLen insert requestId
      binding = .ok (knownPreview found)) (hKnown : found ≠ .unknown) :
    WritableHistoryAuthority.splice sha256 history parent offset deleteLen insert requestId binding
      auth files = ([], .ok (knownOutcome found), auth) := by
  refine (bind_run_quiet h.requireUnpoisoned_run).trans ?_
  refine (bind_run_quiet get_run).trans ?_
  rw [hPreview]
  cases found with
  | unknown => exact absurd rfl hKnown
  | replayed version => exact bind_run_quiet (attempt_run _)
  | retired => exact bind_run_quiet (attempt_run _)

theorem Live.fork_known (h : Live sha256 auth files physical a) {history : HistoryId}
    {parent : VersionId} {requestId binding : Option Bytes} {found : RequestClass}
    (hPreview : auth.store.previewFork sha256 history parent requestId binding =
      .ok (knownPreview found)) (hKnown : found ≠ .unknown) :
    WritableHistoryAuthority.fork sha256 history parent requestId binding auth files =
      ([], .ok (knownOutcome found), auth) := by
  refine (bind_run_quiet h.requireUnpoisoned_run).trans ?_
  refine (bind_run_quiet get_run).trans ?_
  rw [hPreview]
  cases found with
  | unknown => exact absurd rfl hKnown
  | replayed version => exact bind_run_quiet (attempt_run _)
  | retired => exact bind_run_quiet (attempt_run _)

/-- An operation that commits in the model what its request was committed with is answered from
the ledger, without a step. -/
theorem Live.perform_known (h : Live sha256 auth files physical a) {operation : Operation}
    {commit : Commit} {request : Bytes} {version : Option VersionId} {outcome : CommitOutcome}
    (hCommit : (auth.store.view a).commitOf sha256 operation = some commit)
    (hAdmits : (auth.store.view a).Admits commit) (hRequest : commit.requestId = some request)
    (hReceipt : ⟨request, commit.digest, version⟩ ∈ (auth.store.view a).receipts)
    (hAnswer : (auth.store.view a).answerOf version = some outcome) :
    History.perform sha256 operation auth files = ([], .ok (.commit outcome), auth) := by
  have hInv := h.recoverable.inv
  have hUnpoisoned := h.recoverable.unpoisoned
  obtain ⟨found, hClass, hKnown, rfl⟩ := classifyRequest_of_receipt hInv hReceipt hAnswer
  rw [← hRequest] at hClass
  cases operation with
  | splice =>
    have hPreview := previewSplice_known hInv hUnpoisoned hCommit hAdmits hClass hKnown
    exact bind_run_quiet (h.splice_known hPreview hKnown)
  | append history parent bytes requestId binding =>
    obtain ⟨⟨len, old⟩, hParent, hRest⟩ := Option.bind_eq_some_iff.mp hCommit
    obtain ⟨root, hStoreParent⟩ := spliceParent_of_view hInv hParent
    have hOffset : auth.store.appendOffset history parent = .ok len := by
      rw [appendOffset, hStoreParent]
      rfl
    have hPreview := previewSplice_known hInv hUnpoisoned hRest hAdmits hClass hKnown
    have hAppend : WritableHistoryAuthority.append sha256 history parent bytes requestId binding
        auth
        files = ([], .ok (knownOutcome found), auth) := by
      refine (bind_run_quiet h.requireUnpoisoned_run).trans ?_
      refine (bind_run_quiet get_run).trans ?_
      rw [hOffset]
      exact (bind_run_quiet (attempt_run _)).trans (h.splice_known hPreview hKnown)
    exact bind_run_quiet hAppend
  | fork =>
    have hPreview := previewFork_known hInv hUnpoisoned hCommit hAdmits hClass hKnown
    exact bind_run_quiet (h.fork_known hPreview hKnown)
  | _ => cases hCommit

/-- What the ledger answers is what a receipt of the request says. -/
theorem answer_of_known (h : LedgerInv s) {request : Bytes} {digest : Digest} {found : RequestClass}
    (hClass : s.classifyRequest (some request) digest = .ok found) (hKnown : found ≠ .unknown) :
    ∃ receipt ∈ (s.view a).receipts, receipt.request = request ∧
      (s.view a).answerOf receipt.version = some (knownOutcome found) := by
  obtain ⟨own, hOwn, hCases⟩ := classifyRequest_known hClass hKnown
  cases hOwn
  rcases hCases with ⟨id, record, hActive, hRecord, rfl⟩ | ⟨hRetired, rfl⟩
  · refine ⟨_, (mem_view_active h).mpr hActive, rfl, ?_⟩
    have hView := view_version s a (versionRecord_eq_ok.mp hRecord).1
    rw [HistoryModel.answerOf, hView]
    rfl
  · exact ⟨_, (mem_view_retired h).mpr hRetired, rfl, rfl⟩

/-- A call that is rejected, or answered with what the ledger has for its request; either way it
takes no step. -/
def FromLedger (x : AuthorityM CommitOutcome) (auth : WritableHistoryAuthority)
    (files : HistoryFiles) (m : HistoryModel) (request : Bytes) : Prop :=
  (∃ e, x auth files = ([], .error (.rejected e), auth)) ∨
    ∃ outcome, x auth files = ([], .ok outcome, auth) ∧
      ∃ receipt ∈ m.receipts, receipt.request = request ∧ m.answerOf receipt.version = some outcome

theorem Live.splice_held (h : Live sha256 auth files physical a) {history : HistoryId}
    {parent : Option VersionId} {offset deleteLen : Nat} {insert : Bytes} {request : Bytes}
    {binding : Option Bytes} (hMem : request ∈ auth.store.receiptOrder) :
    FromLedger (WritableHistoryAuthority.splice sha256 history parent offset deleteLen insert
      (some request) binding) auth files (auth.store.view a) request := by
  cases hPreview : auth.store.previewSplice sha256 history parent offset deleteLen insert
      (some request) binding with
  | error e =>
    refine .inl ⟨e, ?_⟩
    refine (bind_run_quiet h.requireUnpoisoned_run).trans ?_
    refine (bind_run_quiet get_run).trans ?_
    rw [hPreview]
    exact bind_run_error attempt_rejects
  | ok preview =>
    obtain ⟨_, _, _, found, -, -, hClass, hSame, -⟩ := previewSplice_eq_ok hPreview
    have hKnown : found ≠ .unknown := by
      rintro rfl
      exact classifyRequest_ne_unknown h.recoverable.inv.ledger hMem hClass
    have hPreviewed : preview = knownPreview found := by
      rw [hSame hKnown]
      cases found <;> rfl
    rw [hPreviewed] at hPreview
    exact .inr ⟨_, h.splice_known hPreview hKnown,
      answer_of_known h.recoverable.inv.ledger hClass hKnown⟩

theorem Live.fork_held (h : Live sha256 auth files physical a) {history : HistoryId}
    {parent : VersionId} {request : Bytes} {binding : Option Bytes}
    (hMem : request ∈ auth.store.receiptOrder) :
    FromLedger (WritableHistoryAuthority.fork sha256 history parent (some request) binding) auth
      files (auth.store.view a) request := by
  cases hPreview : auth.store.previewFork sha256 history parent (some request) binding with
  | error e =>
    refine .inl ⟨e, ?_⟩
    refine (bind_run_quiet h.requireUnpoisoned_run).trans ?_
    refine (bind_run_quiet get_run).trans ?_
    rw [hPreview]
    exact bind_run_error attempt_rejects
  | ok preview =>
    obtain ⟨_, found, -, -, hClass, hSame, -⟩ := previewFork_eq_ok hPreview
    have hKnown : found ≠ .unknown := by
      rintro rfl
      exact classifyRequest_ne_unknown h.recoverable.inv.ledger hMem hClass
    have hPreviewed : preview = knownPreview found := by
      rw [hSame hKnown]
      cases found <;> rfl
    rw [hPreviewed] at hPreview
    exact .inr ⟨_, h.fork_known hPreview hKnown,
      answer_of_known h.recoverable.inv.ledger hClass hKnown⟩

theorem Live.append_held (h : Live sha256 auth files physical a) {history : HistoryId}
    {parent : Option VersionId} {bytes request : Bytes} {binding : Option Bytes}
    (hMem : request ∈ auth.store.receiptOrder) :
    FromLedger (WritableHistoryAuthority.append sha256 history parent bytes (some request) binding)
      auth files (auth.store.view a) request := by
  cases hOffset : auth.store.appendOffset history parent with
  | error e =>
    refine .inl ⟨e, ?_⟩
    refine (bind_run_quiet h.requireUnpoisoned_run).trans ?_
    refine (bind_run_quiet get_run).trans ?_
    rw [hOffset]
    exact bind_run_error attempt_rejects
  | ok offset =>
    have hSplice : WritableHistoryAuthority.append sha256 history parent bytes (some request)
        binding
        auth files = WritableHistoryAuthority.splice sha256 history parent offset 0 bytes
          (some request) binding auth files := by
      refine (bind_run_quiet h.requireUnpoisoned_run).trans ?_
      refine (bind_run_quiet get_run).trans ?_
      rw [hOffset]
      exact bind_run_quiet (attempt_run _)
    unfold FromLedger
    rw [hSplice]
    exact h.splice_held hMem

theorem FromLedger.perform {x : AuthorityM CommitOutcome} {m : HistoryModel} {request : Bytes}
    (h : FromLedger x auth files m request) {answer : Answer}
    {result : Except DurableError Answer} {steps : List (FileStep HistoryFile)}
    {auth' : WritableHistoryAuthority}
    (hRun : (do let outcome ← x; return Answer.commit outcome) auth files =
    (steps, result, auth')) :
    steps = [] ∧ auth' = auth ∧ (result = .ok answer →
      ∃ outcome, answer = .commit outcome ∧ ∃ receipt ∈ m.receipts, receipt.request = request ∧
        m.answerOf receipt.version = some outcome) := by
  rcases h with ⟨e, hError⟩ | ⟨outcome, hOk, hReceipt⟩
  · rw [bind_run_error hError] at hRun
    cases hRun
    exact ⟨rfl, rfl, fun hSame => by cases hSame⟩
  · rw [bind_run_quiet hOk] at hRun
    cases hRun
    refine ⟨rfl, rfl, fun hSame => ?_⟩
    cases hSame
    exact ⟨outcome, rfl, hReceipt⟩

/-- A call that carries a request of the ledger takes no step, and what it answers is what the
ledger has for the request. -/
theorem Live.perform_held (h : Live sha256 auth files physical a) {operation : Operation}
    {request : Bytes} (hRequest : HistoryModel.requestOf operation = some request)
    (hMem : request ∈ auth.store.receiptOrder) {steps : List (FileStep HistoryFile)}
    {result : Except DurableError Answer} {auth' : WritableHistoryAuthority}
    (hRun : History.perform sha256 operation auth files = (steps, result, auth'))
    (answer : Answer) :
    steps = [] ∧ auth' = auth ∧ (result = .ok answer →
      ∃ outcome, answer = .commit outcome ∧ ∃ receipt ∈ (auth.store.view a).receipts,
        receipt.request = request ∧
          (auth.store.view a).answerOf receipt.version = some outcome) := by
  cases operation with
  | splice =>
    cases hRequest
    exact (h.splice_held hMem).perform hRun
  | append =>
    cases hRequest
    exact (h.append_held hMem).perform hRun
  | fork =>
    cases hRequest
    exact (h.fork_held hMem).perform hRun
  | _ => cases hRequest

end Retries

end TulyaStore.History
