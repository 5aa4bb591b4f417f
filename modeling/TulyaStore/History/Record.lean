import TulyaStore.Lib.Fields
import TulyaStore.Sequence.Backend

/-!
# Records of the history log

The record bodies of the durable history log (`durable_log.rs`): the five kinds of record,
their encoder with its limits, and the decoder, which walks the body with a cursor and
accepts it only when nothing is left behind.
-/

namespace TulyaStore.History

open Lib Sequence

inductive HistoryError where
  | sequence (error : SequenceError)
  | invalid (message : String)
  | overflow (message : String)
  | capacity (message : String)
  | requestConflict
  | versionExpired
  | poisoned
deriving DecidableEq, Repr

/-- A core-assigned history identity. -/
structure HistoryId where
  id : Nat
deriving DecidableEq, Repr

/-- A core-assigned version identity. -/
structure VersionId where
  id : Nat
deriving DecidableEq, Repr

/-- `MAX_HISTORY_REQUEST_ID_BYTES` -/
def maxHistoryRequestIdBytes : Nat := 4096

/-- `MAX_HISTORY_BINDING_BYTES` -/
def maxHistoryBindingBytes : Nat := 4096

/-- `NO_PARENT` -/
def noParent : Nat := maxValue 64

def recordCreateHistory : UInt8 := 1

def recordRetire : UInt8 := 3

def recordSplice : UInt8 := 4

def recordFork : UInt8 := 5

def recordExpireVersion : UInt8 := 6

/-- Where one durable splice placed its content. -/
structure PhysicalPlacement where
  generation : Nat
  payloadStart : Nat
  payloadEnd : Nat
  nodeStart : Nat
  nodeEnd : Nat
  deltaDigest : Digest
  resultRoot : Vector UInt8 v2RootRecordSize
deriving DecidableEq, Repr

inductive HistoryLogRecord where
  | createHistory (history : HistoryId) (binding : Option Bytes)
  | splice (history : HistoryId) (version : VersionId) (parent : Option VersionId)
      (offset deleteLen : Nat) (insert : Bytes) (requestId binding : Option Bytes)
      (digest : Digest) (physical : Option PhysicalPlacement)
  | fork (history : HistoryId) (version parent : VersionId) (requestId binding : Option Bytes)
      (digest : Digest)
  | expireVersion (history : HistoryId) (version : VersionId)
  | retire (requestId : Bytes) (digest : Digest)
deriving DecidableEq, Repr

/-! ## Encoding -/

def putBytes (bytes : Bytes) : Bytes := leBytes 8 bytes.length ++ bytes

/-- The request identity of a splice or fork record; its absence is the length zero. -/
def encodeRequestId (requestId : Option Bytes) : Except HistoryError Bytes :=
  match requestId with
  | some id => do
    failIf (id.length > maxHistoryRequestIdBytes)
      (.invalid "history log request identity exceeds the byte limit")
    return leBytes 8 id.length ++ id
  | none => return leBytes 8 0

/-- The optional binding: zero when absent, else its length plus one and its bytes. -/
def encodeBinding (binding : Option Bytes) : Except HistoryError Bytes :=
  match binding with
  | some bytes => do
    failIf (bytes.length > maxHistoryBindingBytes)
      (.invalid "history log binding exceeds the byte limit")
    return leBytes 8 (bytes.length + 1) ++ bytes
  | none => return leBytes 8 0

def encodePhysical (physical : Option PhysicalPlacement) : Bytes :=
  match physical with
  | some placement =>
    1 :: (leBytes 8 placement.generation ++ leBytes 8 placement.payloadStart ++
      leBytes 8 placement.payloadEnd ++ leBytes 8 placement.nodeStart ++
      leBytes 8 placement.nodeEnd ++ placement.deltaDigest.toList ++
      placement.resultRoot.toList)
  | none => [0]

def optionalLen (bytes : Option Bytes) : Nat := (bytes.map List.length).getD 0

/-- `encoded_record_len`: the source adds these with checks, and all of them fail with the
one error. -/
def encodedRecordLen (record : HistoryLogRecord) : Except HistoryError Nat :=
  let len := match record with
    | .createHistory _ binding => 1 + 8 + 8 + optionalLen binding
    | .splice _ _ _ _ _ insert requestId binding _ physical =>
      1 + 8 + 8 + 8 + 8 + 8 + 8 + insert.length + 8 + optionalLen requestId + 8 +
        optionalLen binding + 32 +
        (if physical.isSome then 1 + 8 + 8 + 8 + 8 + 8 + 32 + v2RootRecordSize else 1)
    | .fork _ _ _ requestId binding _ =>
      1 + 8 + 8 + 8 + 8 + optionalLen requestId + 8 + optionalLen binding + 32
    | .expireVersion _ _ => 1 + 8 + 8
    | .retire requestId _ => 1 + 8 + requestId.length + 32
  okOr (tryFrom 64 len) (.overflow "history log record length exceeds usize")

def encodeHistoryLogRecord (record : HistoryLogRecord) : Except HistoryError Bytes := do
  let _ ← encodedRecordLen record
  match record with
  | .createHistory history binding =>
    let binding ← encodeBinding binding
    return recordCreateHistory :: (leBytes 8 history.id ++ binding)
  | .splice history version parent offset deleteLen insert requestId binding digest physical =>
    let requestId ← encodeRequestId requestId
    let binding ← encodeBinding binding
    return recordSplice :: (leBytes 8 history.id ++ leBytes 8 version.id ++
      leBytes 8 ((parent.map VersionId.id).getD noParent) ++ leBytes 8 offset ++
      leBytes 8 deleteLen ++ putBytes insert ++ requestId ++ binding ++ digest.toList ++
      encodePhysical physical)
  | .fork history version parent requestId binding digest =>
    let requestId ← encodeRequestId requestId
    let binding ← encodeBinding binding
    return recordFork :: (leBytes 8 history.id ++ leBytes 8 version.id ++
      leBytes 8 parent.id ++ requestId ++ binding ++ digest.toList)
  | .expireVersion history version =>
    return recordExpireVersion :: (leBytes 8 history.id ++ leBytes 8 version.id)
  | .retire requestId digest =>
    failIf (requestId.length > maxHistoryRequestIdBytes)
      (.invalid "history log request identity exceeds the byte limit")
    return recordRetire :: (leBytes 8 requestId.length ++ requestId ++ digest.toList)

/-! ## Decoding -/

structure LogCursor where
  bytes : Bytes
  pos : Nat
deriving DecidableEq, Repr

/-- A step of the decoder: it moves the cursor, or fails. -/
abbrev LogReader := StateT LogCursor (Except HistoryError)

namespace LogCursor

def take (len : Nat) : LogReader Bytes := fun cursor => do
  let stop ← okOr (checkedAdd 64 cursor.pos len)
    (.overflow "history log field range exceeds usize")
  let bytes ← okOr (slice cursor.bytes cursor.pos stop)
    (.invalid "history log record is truncated")
  return (bytes, { cursor with pos := stop })

def takeByte : LogReader UInt8 := do
  let bytes ← take 1
  return bytes.headD 0

def takeU64 : LogReader Nat := do
  let bytes ← take 8
  return leValue bytes

def takeBytes (len : Nat) : LogReader Bytes := do
  let len ← liftM (okOr (tryFrom 64 len)
    (HistoryError.overflow "history log field length exceeds usize"))
  take len

def takeArray (n : Nat) : LogReader (Vector UInt8 n) := do
  let bytes ← take n
  liftM (okOr (asArray n bytes) (HistoryError.invalid "history log field width mismatch"))

end LogCursor

open LogCursor

def decodeRequestId : LogReader (Option Bytes) := do
  let requestLen ← takeU64
  if requestLen = 0 then
    return none
  else
    liftM (failIf (requestLen > maxHistoryRequestIdBytes)
      (HistoryError.invalid "history log request identity exceeds the byte limit"))
    let bytes ← takeBytes requestLen
    return some bytes

def decodeOptionalBinding : LogReader (Option Bytes) := do
  let stored ← takeU64
  if stored = 0 then
    return none
  else
    let len := stored - 1
    liftM (failIf (len = 0 ∨ len > maxHistoryBindingBytes)
      (HistoryError.invalid "history log binding is outside bounds"))
    let bytes ← takeBytes len
    return some bytes

def decodePhysical : LogReader (Option PhysicalPlacement) := do
  let present ← takeByte
  if present = 0 then
    return none
  else if present = 1 then
    let generation ← takeU64
    let payloadStart ← takeU64
    let payloadEnd ← takeU64
    let nodeStart ← takeU64
    let nodeEnd ← takeU64
    let deltaDigest ← takeArray 32
    let resultRoot ← takeArray v2RootRecordSize
    return some
      ⟨generation, payloadStart, payloadEnd, nodeStart, nodeEnd, deltaDigest, resultRoot⟩
  else
    throw (.invalid "history log splice physical presence is unsupported")

def decodeCreateHistory : LogReader HistoryLogRecord := do
  let history ← takeU64
  let binding ← decodeOptionalBinding
  return .createHistory ⟨history⟩ binding

def decodeSplice : LogReader HistoryLogRecord := do
  let history ← takeU64
  let version ← takeU64
  let rawParent ← takeU64
  let parent : Option VersionId := if rawParent = noParent then none else some ⟨rawParent⟩
  let offset ← takeU64
  let deleteLen ← takeU64
  let insertLen ← takeU64
  let insert ← takeBytes insertLen
  let requestId ← decodeRequestId
  let binding ← decodeOptionalBinding
  let digest ← takeArray 32
  let physical ← decodePhysical
  return .splice ⟨history⟩ ⟨version⟩ parent offset deleteLen insert requestId binding digest
    physical

def decodeFork : LogReader HistoryLogRecord := do
  let history ← takeU64
  let version ← takeU64
  let parent ← takeU64
  let requestId ← decodeRequestId
  let binding ← decodeOptionalBinding
  let digest ← takeArray 32
  return .fork ⟨history⟩ ⟨version⟩ ⟨parent⟩ requestId binding digest

def decodeExpireVersion : LogReader HistoryLogRecord := do
  let history ← takeU64
  let version ← takeU64
  return .expireVersion ⟨history⟩ ⟨version⟩

def decodeRetire : LogReader HistoryLogRecord := do
  let requestLen ← takeU64
  liftM (failIf (requestLen = 0 ∨ requestLen > maxHistoryRequestIdBytes)
    (HistoryError.invalid "history log retired request identity is outside bounds"))
  let requestId ← takeBytes requestLen
  let digest ← takeArray 32
  return .retire requestId digest

def decodeRecordKind (kind : UInt8) : LogReader HistoryLogRecord :=
  if kind = recordCreateHistory then decodeCreateHistory
  else if kind = recordSplice then decodeSplice
  else if kind = recordFork then decodeFork
  else if kind = recordExpireVersion then decodeExpireVersion
  else if kind = recordRetire then decodeRetire
  else throw (.invalid "history log record kind is unsupported")

def decodeHistoryLogRecord (bytes : Bytes) : Except HistoryError HistoryLogRecord := do
  let (kind, cursor) ← takeByte ⟨bytes, 0⟩
  let (record, cursor) ← decodeRecordKind kind cursor
  failIf (cursor.pos ≠ bytes.length) (.invalid "history log record has trailing bytes")
  return record

end TulyaStore.History
