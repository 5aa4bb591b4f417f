import TulyaStore.History.Ledger
import TulyaStore.Sequence.Contents

/-!
# What a history store is for

A history store keeps the bytes of every version until the version is expired, and it answers a
request it has committed once with what it committed then. `HistoryModel` says this without
content files, logs and roots: a list of histories, a list of versions with their bytes, and the
receipts of the most recent requests. `Step` is what the operations do to it, with their answers.
-/

namespace TulyaStore.History

open Lib Sequence

/-- A receipt: what a request was committed with and the version it gave, none once retired. -/
structure Receipt where
  request : Bytes
  digest : Digest
  version : Option VersionId
deriving DecidableEq, Repr

/-- A version with its bytes; an expired version has lost them. -/
structure ModelVersion where
  version : Version
  len : Nat
  binding : Option Bytes
  content : Option Bytes
deriving DecidableEq, Repr

structure HistoryModel where
  /-- The binding of each history. -/
  histories : List (Option Bytes)
  versions : List ModelVersion
  /-- Oldest to newest. -/
  receipts : List Receipt
deriving DecidableEq, Repr

/-- The last `stagingRequestReceiptCapacity` elements. -/
def newest {α : Type} (xs : List α) : List α := xs.drop (xs.length - stagingRequestReceiptCapacity)

theorem newest_map {α β : Type} (f : α → β) (xs : List α) :
    (newest xs).map f = newest (xs.map f) := by
  rw [newest, newest, List.map_drop, List.length_map]

theorem newest_append_singleton {α : Type} (xs : List α) (x : α) :
    newest (newest xs ++ [x]) = newest (xs ++ [x]) := by
  have hPos : 0 < stagingRequestReceiptCapacity := by decide
  unfold newest
  generalize stagingRequestReceiptCapacity = capacity at hPos ⊢
  simp only [List.length_append, List.length_drop, List.length_singleton]
  rw [← List.drop_append_of_le_length (by omega), List.drop_drop]
  congr 1
  omega

/-! ## Operations -/

/-- The operations of a client. -/
inductive Operation where
  | createHistory (binding : Option Bytes)
  | splice (history : HistoryId) (parent : Option VersionId) (offset deleteLen : Nat)
      (insert : Bytes) (requestId binding : Option Bytes)
  | append (history : HistoryId) (parent : Option VersionId) (bytes : Bytes)
      (requestId binding : Option Bytes)
  | fork (history : HistoryId) (parent : VersionId) (requestId binding : Option Bytes)
  | expire (version : VersionId)
  | retire (requestId : Bytes)
deriving DecidableEq, Repr

inductive Answer where
  | history (id : HistoryId)
  | commit (outcome : CommitOutcome)
  | expire (outcome : ExpireOutcome)
  | retired
deriving DecidableEq, Repr

/-- What an operation asks to commit. The bytes are missing when the parent has lost its own. -/
structure Commit where
  history : HistoryId
  parent : Option VersionId
  requestId : Option Bytes
  binding : Option Bytes
  digest : Digest
  content : Option Bytes
deriving DecidableEq, Repr

namespace HistoryModel

def empty : HistoryModel := ⟨[], [], []⟩

/-- The version of a history. -/
def lookup (m : HistoryModel) (history : HistoryId) (id : VersionId) : Option ModelVersion :=
  m.versions[id.id]?.bind fun entry => if entry.version.history = history then some entry else none

/-- The length of the parent of a splice and its bytes; a root version starts from nothing. -/
def parentOf (m : HistoryModel) (history : HistoryId) (parent : Option VersionId) :
    Option (Nat × Option Bytes) :=
  match parent with
  | none => some (0, some [])
  | some id => (m.lookup history id).map fun entry => (entry.len, entry.content)

section Commits

variable (sha256 : Bytes → Digest)

/-- A splice within its parent that has an effect and leaves something. -/
def SpliceInBounds (parentLen offset deleteLen : Nat) (insert : Bytes) : Prop :=
  offset ≤ parentLen ∧ deleteLen ≤ parentLen - offset ∧ (deleteLen = 0 → insert ≠ []) ∧
    0 < parentLen - deleteLen + insert.length ∧ parentLen - deleteLen + insert.length < width 64

instance (parentLen offset deleteLen : Nat) (insert : Bytes) :
    Decidable (SpliceInBounds parentLen offset deleteLen insert) :=
  inferInstanceAs (Decidable (_ ∧ _))

def spliceCommit (m : HistoryModel) (history : HistoryId) (parent : Option VersionId)
    (offset deleteLen : Nat) (insert : Bytes) (requestId binding : Option Bytes) : Option Commit :=
  (m.parentOf history parent).bind fun found =>
    if SpliceInBounds found.1 offset deleteLen insert then
      some ⟨history, parent, requestId, binding,
        historySpliceDigest sha256 history parent offset deleteLen insert binding,
        found.2.map fun old => editBytes old offset deleteLen insert⟩
    else none

/-- What an operation commits, if it is one that commits. -/
def commitOf (m : HistoryModel) : Operation → Option Commit
  | .splice history parent offset deleteLen insert requestId binding =>
    m.spliceCommit sha256 history parent offset deleteLen insert requestId binding
  | .append history parent bytes requestId binding =>
    (m.parentOf history parent).bind fun found =>
      m.spliceCommit sha256 history parent found.1 0 bytes requestId binding
  | .fork history parent requestId binding =>
    (m.lookup history parent).map fun entry =>
      ⟨history, some parent, requestId, binding, historyForkDigest sha256 history parent binding,
        entry.content⟩
  | .createHistory _ => none
  | .expire _ => none
  | .retire _ => none

end Commits

def createHistory (m : HistoryModel) (binding : Option Bytes) : HistoryModel :=
  { m with histories := m.histories ++ [binding] }

/-- The history of a commit is known, and its binding is within bounds. -/
def Admits (m : HistoryModel) (commit : Commit) : Prop :=
  commit.history.id < m.histories.length ∧
    ∀ bytes, commit.binding = some bytes → validateBinding bytes = .ok ()

/-- The version a commit gives. -/
def freshVersion (m : HistoryModel) (commit : Commit) : Version :=
  ⟨commit.history, ⟨m.versions.length⟩, commit.parent⟩

/-- The receipts with the one of a commit as the newest. -/
def withReceipt (receipts : List Receipt) (requestId : Option Bytes) (digest : Digest)
    (id : VersionId) : List Receipt :=
  match requestId with
  | some request => newest (receipts ++ [⟨request, digest, some id⟩])
  | none => receipts

/-- One more version, and its receipt as the newest one. -/
def record (m : HistoryModel) (commit : Commit) (bytes : Bytes) : HistoryModel :=
  { m with
    versions := m.versions ++
      [⟨m.freshVersion commit, bytes.length, commit.binding, some bytes⟩]
    receipts := withReceipt m.receipts commit.requestId commit.digest ⟨m.versions.length⟩ }

/-- The bytes of a version and its receipt are given up. -/
def expire (m : HistoryModel) (id : VersionId) : HistoryModel :=
  { m with
    versions := m.versions.map fun entry =>
      if entry.version.id = id then { entry with content := none } else entry
    receipts := m.receipts.map fun receipt =>
      if receipt.version = some id then { receipt with version := none } else receipt }

def retire (m : HistoryModel) (request : Bytes) : HistoryModel :=
  { m with
    receipts := m.receipts.map fun receipt =>
      if receipt.request = request then { receipt with version := none } else receipt }

/-- What an operation does to the model, with its answer. -/
inductive Step (sha256 : Bytes → Digest) (m : HistoryModel) :
    Operation → Answer → HistoryModel → Prop where
  | created {binding : Option Bytes} (hNew : binding = none ∨ binding ∉ m.histories) :
      Step sha256 m (.createHistory binding) (.history ⟨m.histories.length⟩)
        (m.createHistory binding)
  | known {bytes : Bytes} {id : HistoryId} (hKnown : m.histories[id.id]? = some (some bytes)) :
      Step sha256 m (.createHistory (some bytes)) (.history id) m
  | committed {operation : Operation} {commit : Commit} {bytes : Bytes}
      (hCommit : m.commitOf sha256 operation = some commit) (hAdmits : m.Admits commit)
      (hBytes : commit.content = some bytes)
      (hNew : ∀ request, commit.requestId = some request →
        request ∉ m.receipts.map Receipt.request) :
      Step sha256 m operation (.commit (.committed (m.freshVersion commit))) (m.record commit bytes)
  | replayed {operation : Operation} {commit : Commit} {request : Bytes} {id : VersionId}
      {entry : ModelVersion} (hCommit : m.commitOf sha256 operation = some commit)
      (hRequest : commit.requestId = some request)
      (hReceipt : ⟨request, commit.digest, some id⟩ ∈ m.receipts)
      (hVersion : m.versions[id.id]? = some entry) :
      Step sha256 m operation (.commit (.replayed entry.version)) m
  | replayedRetired {operation : Operation} {commit : Commit} {request : Bytes}
      (hCommit : m.commitOf sha256 operation = some commit)
      (hRequest : commit.requestId = some request)
      (hReceipt : ⟨request, commit.digest, none⟩ ∈ m.receipts) :
      Step sha256 m operation (.commit .retired) m
  | expired {id : VersionId} {entry : ModelVersion} (hVersion : m.versions[id.id]? = some entry)
      (hRetained : entry.content.isSome) :
      Step sha256 m (.expire id) (.expire .expired) (m.expire id)
  | alreadyExpired {id : VersionId} {entry : ModelVersion}
      (hVersion : m.versions[id.id]? = some entry) (hLost : entry.content = none) :
      Step sha256 m (.expire id) (.expire .alreadyExpired) m
  | retired {request : Bytes} {digest : Digest} {id : VersionId}
      (hReceipt : ⟨request, digest, some id⟩ ∈ m.receipts) :
      Step sha256 m (.retire request) .retired (m.retire request)

end HistoryModel

end TulyaStore.History
