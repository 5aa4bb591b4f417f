import TulyaStore.Checkpoint.RecordCodec

/-!
# Machine arithmetic in the record parser

The parser adds and subtracts cursors without checking them. Here it is once more with every
such operation on 64-bit words, where leaving the word is a fault of its own (`Fault.overflow`).
On a record that a slice can hold no operation faults, and the result is the parser's
(`parseTransactionMachine_eq`): the length checks before the sections are read bound every
cursor by the length of the record.
-/

namespace TulyaStore.Checkpoint

open Lib

/-- How a step over machine words ends early. -/
inductive Fault where
  | overflow
  | rejected (error : StoreError)
deriving DecidableEq, Repr

/-- The longest slice (`isize::MAX`). -/
def maxSliceLen : Nat := maxValue 63

section Machine

variable {α β : Type}

/-- A step that checks its own arithmetic. -/
def checked (x : Except StoreError α) : Except Fault α := mapErr .rejected x

/-- `a + b` -/
def wordAdd (a b : Nat) : Except Fault Nat := okOr (checkedAdd 64 a b) .overflow

/-- `a - b` -/
def wordSub (a b : Nat) : Except Fault Nat := do
  failIf (a < b) .overflow
  .ok (a - b)

theorem wordAdd_of_lt {a b : Nat} (h : a + b < 2 ^ 64) : wordAdd a b = .ok (a + b) := by
  rw [wordAdd, checkedAdd_of_lt h, okOr_some]

theorem wordSub_of_le {a b : Nat} (h : b ≤ a) : wordSub a b = .ok (a - b) := by
  rw [wordSub, failIf_neg (Nat.not_lt.mpr h), ok_bind]

@[simp] theorem checked_ok (a : α) : checked (.ok a) = .ok a := rfl

/-- Two programs that start with the same checked step agree when they agree on its results. -/
theorem checked_bind {x : Except StoreError α} {f : α → Except Fault β}
    {g : α → Except StoreError β} (h : ∀ a, x = .ok a → f a = checked (g a)) :
    checked x >>= f = checked (x >>= g) := by
  cases x with
  | ok a => exact h a rfl
  | error e => rfl

/-- The same when the first program also computes `k` of the result. -/
theorem checked_map_bind {γ : Type} {x : Except StoreError α} {k : α → γ}
    {f : γ → Except Fault β} {g : α → Except StoreError β}
    (h : ∀ a, x = .ok a → f (k a) = checked (g a)) :
    checked (x >>= fun a => .ok (k a)) >>= f = checked (x >>= g) := by
  cases x with
  | ok a => exact h a rfl
  | error e => rfl

end Machine

section Parser

variable (P : Primitives)

def parseCheckpointRecordMachine (record : Bytes) (versionCount ordinal : Nat) :
    Except Fault CheckpointInfo := do
  checked (failIf (record.length < checkpointPrefixSize + 8 ∨ record.take 4 ≠ checkpointMagic)
    (.format "invalid checkpoint record"))
  let f ← checked (parseCheckpointFields record)
  checked (failIf (f.recordLen ≠ record.length) (.format "checkpoint record length mismatch"))
  let checksumAt ← wordSub record.length 8
  let checksum ← checked (readU64 record checksumAt)
  checked (failIf ((P.xxh3 (record.take checksumAt)).toNat ≠ checksum)
    (.format "checkpoint checksum mismatch"))
  checked (failIf (versionCount ≤ f.identity) (.format "identity version out of bounds"))
  checked (failIf (f.threadLen = 0 ∨ f.threadLen > maxCheckpointIdentifierBytes)
    (.format "thread id is empty or exceeds the byte limit"))
  checked (failIf (f.checkpointLen = 0 ∨ f.checkpointLen > maxCheckpointIdentifierBytes)
    (.format "checkpoint id is empty or exceeds the byte limit"))
  checked (failIf (f.parentLen > maxCheckpointIdentifierBytes)
    (.format "parent checkpoint id exceeds the byte limit"))
  let payloadEnd := checkpointPrefixSize + f.threadLen + f.checkpointLen + f.parentLen
  let payloadStop ← wordAdd payloadEnd 8
  checked (failIf (payloadStop ≠ record.length) (.format "checkpoint payload geometry mismatch"))
  let threadEnd ← wordAdd checkpointPrefixSize f.threadLen
  let threadId ← checked (readString record checkpointPrefixSize threadEnd
    "thread bytes outside checkpoint record" "thread id is not UTF-8")
  let checkpointEnd ← wordAdd threadEnd f.checkpointLen
  let checkpointId ← checked (readString record threadEnd checkpointEnd
    "checkpoint id bytes outside record" "checkpoint id is not UTF-8")
  let parentEnd ← wordAdd checkpointEnd f.parentLen
  let parent ← checked (readString record checkpointEnd parentEnd
    "parent id bytes outside record" "parent checkpoint id is not UTF-8")
  let messagesVersion ← checked (optionalVersion versionCount f.messages)
  let resultVersion ← checked (optionalVersion versionCount f.result)
  .ok { ordinal := ordinal, threadId := threadId, checkpointNo := UInt32.ofNat f.checkpointNo,
        checkpointId := checkpointId,
        parentCheckpointId := if (utf8 parent).isEmpty then none else some parent,
        identityVersion := f.identity, messagesVersion := messagesVersion,
        resultVersion := resultVersion, logicalStateLen := f.stateLen,
        stateHash := UInt64.ofNat f.stateHash }

def checkEnvelopeMachine (record : Bytes) (geometry : Option Geometry) :
    Except Fault TxHeader := do
  checked (failIf (record.length < txHeaderSize + txChecksumSize ∨ record.take 4 ≠ txMagic)
    (.format "invalid T2W1 transaction header"))
  let h ← checked (parseHeader record)
  checked (failIf (h.total ≠ record.length) (.format "transaction length mismatch"))
  let checksumAt ← wordSub record.length txChecksumSize
  let checksum ← checked (readU64 record checksumAt)
  checked (failIf ((P.xxh3 (record.take checksumAt)).toNat ≠ checksum)
    (.format "transaction checksum mismatch"))
  checked (failIf (h.requestLen > maxRequestIdBytes)
    (.format "request id exceeds the byte limit"))
  checked (failIf (h.checkpointCount = 0)
    (.format "transaction checkpoint count must be non-zero"))
  checked (failIf (h.versionCount ≠ h.versionStart + h.rootCount)
    (.format "transaction version topology is inconsistent"))
  checked (checkContinues h geometry)
  let expected ← checked (okOr (tryFrom 64 h.expectedLen)
    (.format "transaction payload geometry overflow"))
  checked (failIf (expected ≠ record.length) (.format "transaction payload geometry mismatch"))
  .ok h

/-- The root records, and the cursor behind them. -/
def parseRootsMachine (record : Bytes) :
    Nat → Nat → Nat → Except Fault (List (Option Nat × Option Nat) × Nat)
  | 0, _, cursor => .ok ([], cursor)
  | count + 1, expectedId, cursor => do
    let rootEnd ← wordAdd cursor rootRecordSize
    let slot ← checked (okOr (slice record cursor rootEnd)
      (.format "root record outside transaction"))
    let root ← checked (parseRoot P slot expectedId)
    let (rest, stop) ← parseRootsMachine record count (expectedId + 1) rootEnd
    .ok (root :: rest, stop)

/-- The sections of a record, and the cursor behind the checkpoint record. -/
def parseSectionsMachine (record : Bytes) (h : TxHeader) : Except Fault (TxSections × Nat) := do
  let requestEnd := txHeaderSize + h.requestLen
  let request ← checked (okOr (slice record txHeaderSize requestEnd)
    (.format "request id outside transaction"))
  let byteEnd ← wordAdd requestEnd h.payloadLen
  let bytes ← checked (okOr (slice record requestEnd byteEnd)
    (.format "transaction byte delta outside record"))
  let compactEnd ← wordAdd byteEnd (h.compactNodes * compactNodeSize)
  let compactNodes ← checked (okOr (slice record byteEnd compactEnd)
    (.format "compact nodes outside transaction"))
  let wideEnd ← wordAdd compactEnd (h.wideNodes * wideRecordSize)
  let wideNodes ← checked (okOr (slice record compactEnd wideEnd)
    (.format "wide nodes outside transaction"))
  let (roots, rootEnd) ← parseRootsMachine P record h.rootCount h.versionStart wideEnd
  let checkpointEnd ← wordAdd rootEnd h.checkpointRecordLen
  let checkpointRecord ← checked (okOr (slice record rootEnd checkpointEnd)
    (.format "checkpoint record outside transaction"))
  .ok ({ request, bytes, compactNodes, wideNodes, roots, checkpointRecord }, checkpointEnd)

def parseTransactionMachine (record : Bytes) (geometry : Option Geometry) (startOffset : Nat) :
    Except Fault ParsedTransaction := do
  let h ← checkEnvelopeMachine P record geometry
  let (s, cursor) ← parseSectionsMachine P record h
  let ordinal ← wordSub h.checkpointCount 1
  let checkpoint ← parseCheckpointRecordMachine P s.checkpointRecord h.versionCount ordinal
  let checksumAt ← wordSub record.length txChecksumSize
  checked (failIf (cursor ≠ checksumAt) (.format "transaction cursor mismatch"))
  let byteEnd ← checked (okOr (checkedAdd 64 h.byteLen s.bytes.length)
    (.format "byte watermark overflow"))
  let nodeEnd ← checked (okOr (checkedAdd 64 h.nodeCount h.compactNodes)
    (.format "node watermark overflow"))
  let wideEnd ← checked (okOr (checkedAdd 64 h.wideCount h.wideNodes)
    (.format "wide watermark overflow"))
  let endOffset ← checked (okOr (checkedAdd 64 startOffset record.length)
    (.format "transaction file offset overflow"))
  .ok { endOffset := endOffset, versionStart := h.versionStart, versionCount := h.versionCount,
        checkpointCount := h.checkpointCount, byteStart := h.byteLen, byteEnd := byteEnd,
        bytes := s.bytes, nodeStart := h.nodeCount, nodeEnd := nodeEnd,
        compactNodes := s.compactNodes, wideStart := h.wideCount, wideEnd := wideEnd,
        wideNodes := s.wideNodes, roots := s.roots.map Prod.fst, parents := s.roots.map Prod.snd,
        checkpoint := checkpoint,
        requestId := if h.requestLen = 0 then none else some s.request,
        operationDigest := P.sha256 record }

end Parser

/-! ## No operation leaves its word -/

variable {P : Primitives} {record : Bytes}

theorem parseCheckpointRecordMachine_eq {versionCount ordinal : Nat} :
    parseCheckpointRecordMachine P record versionCount ordinal =
      checked (parseCheckpointRecord P record versionCount ordinal) := by
  unfold parseCheckpointRecordMachine parseCheckpointRecord
  refine checked_bind (fun _ hShape => ?_)
  have hShort := failIf_eq_ok.mp hShape
  refine checked_bind (fun f _ => checked_bind (fun _ _ => ?_))
  rw [wordSub_of_le (by omega), ok_bind]
  refine checked_bind (fun _ _ => checked_bind (fun _ _ => checked_bind (fun _ _ => ?_)))
  refine checked_bind (fun _ hThread => checked_bind (fun _ hCheckpoint =>
    checked_bind (fun _ hParent => ?_)))
  have hThread' := failIf_eq_ok.mp hThread
  have hCheckpoint' := failIf_eq_ok.mp hCheckpoint
  have hParent' := failIf_eq_ok.mp hParent
  have hPrefix : checkpointPrefixSize = 52 := rfl
  have hMax : maxCheckpointIdentifierBytes = 4096 := rfl
  dsimp only
  rw [wordAdd_of_lt (by omega), ok_bind]
  refine checked_bind (fun _ _ => ?_)
  rw [wordAdd_of_lt (by omega), ok_bind]
  refine checked_bind (fun _ _ => ?_)
  rw [wordAdd_of_lt (by omega), ok_bind]
  refine checked_bind (fun _ _ => ?_)
  rw [wordAdd_of_lt (by omega), ok_bind]
  refine checked_bind (fun _ _ => checked_bind (fun _ _ => checked_bind (fun _ _ => rfl)))

theorem checkEnvelopeMachine_eq {geometry : Option Geometry} :
    checkEnvelopeMachine P record geometry = checked (checkEnvelope P record geometry) := by
  unfold checkEnvelopeMachine checkEnvelope
  refine checked_bind (fun _ hShape => ?_)
  have hShort := failIf_eq_ok.mp hShape
  refine checked_bind (fun h _ => checked_bind (fun _ _ => ?_))
  rw [wordSub_of_le (by omega), ok_bind]
  repeat refine checked_bind (fun _ _ => ?_)
  rfl

theorem parseRootsMachine_eq {count expectedId cursor : Nat}
    (h : cursor + count * rootRecordSize < 2 ^ 64) :
    parseRootsMachine P record count expectedId cursor =
      checked (parseRoots P record count expectedId cursor >>=
        fun roots => .ok (roots, cursor + count * rootRecordSize)) := by
  induction count generalizing expectedId cursor with
  | zero => simp [parseRootsMachine, parseRoots]
  | succ count ih =>
    have hStep : cursor + rootRecordSize + count * rootRecordSize =
        cursor + (count + 1) * rootRecordSize := by rw [Nat.succ_mul]; omega
    rw [← hStep] at h ⊢
    simp only [parseRootsMachine, parseRoots, bind_assoc]
    rw [wordAdd_of_lt (by omega), ok_bind]
    refine checked_bind (fun slot _ => checked_bind (fun root _ => ?_))
    rw [ih h]
    exact checked_map_bind (fun rest _ => rfl)

/-- Every cursor of a record whose header adds up lies inside the record. -/
theorem parseSectionsMachine_eq {h : TxHeader} (hLen : h.expectedLen = record.length)
    (hSlice : record.length ≤ maxSliceLen) :
    parseSectionsMachine P record h = checked (parseSections P record h >>= fun s =>
      .ok (s, h.rootCursor + h.rootCount * rootRecordSize + h.checkpointRecordLen)) := by
  have hMax : maxSliceLen < 2 ^ 64 := by decide
  simp only [TxHeader.expectedLen] at hLen
  simp only [parseSectionsMachine, parseSections, bind_assoc, ok_bind]
  refine checked_bind (fun request _ => ?_)
  rw [wordAdd_of_lt (by omega), ok_bind]
  refine checked_bind (fun bytes _ => ?_)
  rw [wordAdd_of_lt (by omega), ok_bind]
  refine checked_bind (fun compact _ => ?_)
  rw [wordAdd_of_lt (by omega), ok_bind]
  refine checked_bind (fun wide _ => ?_)
  rw [parseRootsMachine_eq (by omega)]
  refine checked_map_bind (fun roots _ => ?_)
  dsimp only
  rw [wordAdd_of_lt (by omega), ok_bind]
  exact checked_bind (fun _ _ => rfl)

/-- On a record that a slice can hold, no operation of the parser leaves its word. -/
theorem parseTransactionMachine_eq (hSlice : record.length ≤ maxSliceLen)
    (geometry : Option Geometry) (startOffset : Nat) :
    parseTransactionMachine P record geometry startOffset =
      checked (parseTransactionWithGeometry P record geometry startOffset) := by
  simp only [parseTransactionMachine, parseTransactionWithGeometry, checkEnvelopeMachine_eq]
  refine checked_bind (fun h hEnvelope => ?_)
  obtain ⟨_, _, hLen, _, hCount, _⟩ := checkEnvelope_inv hEnvelope
  rw [parseSectionsMachine_eq hLen hSlice]
  refine checked_map_bind (fun s _ => ?_)
  dsimp only
  have hShort : txChecksumSize ≤ record.length := by
    rw [← hLen, TxHeader.expectedLen]
    omega
  rw [wordSub_of_le (Nat.one_le_iff_ne_zero.mpr hCount), ok_bind, parseCheckpointRecordMachine_eq]
  refine checked_bind (fun checkpoint _ => ?_)
  rw [wordSub_of_le hShort, ok_bind]
  repeat refine checked_bind (fun _ _ => ?_)
  rfl

end TulyaStore.Checkpoint
