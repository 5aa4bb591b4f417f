import TulyaStore.Checkpoint.Model
import TulyaStore.Lib.Fields

/-!
# Write-ahead records

The T2W1 record of one transaction (`transaction.rs`): a header of watermarks and section
lengths, an optional request id, the payload delta, the node slots, the new version roots,
the checkpoint record, and a checksum over all of it. The encoders build the record of an
identity checkpoint and of a message checkpoint; the parser checks every field before it
accepts one.
-/

namespace TulyaStore.Checkpoint

open Lib

/-! ## Reading fields -/

def readU32 (data : Bytes) (offset : Nat) : Except StoreError Nat :=
  okOr (readLe 4 data offset) (.format "truncated u32")

def readU64 (data : Bytes) (offset : Nat) : Except StoreError Nat :=
  okOr (readLe 8 data offset) (.format "truncated u64")

/-! ## Checks on identifiers -/

def validateRequestId (requestId : Bytes) : Except StoreError Unit :=
  failIf (requestId.isEmpty = true ∨ requestId.length > maxRequestIdBytes)
    (.format "request id is empty or exceeds the byte limit")

def validateCheckpointIdentifier (value label : String) : Except StoreError Unit :=
  failIf ((utf8 value).isEmpty = true ∨ (utf8 value).length > maxCheckpointIdentifierBytes)
    (.format (label ++ " is empty or exceeds the byte limit"))

def validateParentIdentifier (parent : Option String) : Except StoreError Unit :=
  match parent with
  | none => .ok ()
  | some parent => validateCheckpointIdentifier parent "parent checkpoint id"

/-! ## Encoding -/

section Encode

variable (P : Primitives)

/-- The bytes followed by their checksum. -/
def withChecksum (body : Bytes) : Bytes := body ++ leBytes 8 (P.xxh3 body).toNat

def compactLeaf (offset length : Nat) : Bytes :=
  leBytes 8 offset ++ leBytes 4 length ++ leBytes 4 kindLeaf

def compactBinary (leftDelta rightDelta : Nat) : Bytes :=
  leBytes 4 leftDelta ++ leBytes 4 rightDelta ++ leBytes 4 0 ++ leBytes 4 kindBinary

def rootRecord (version root : Nat) (parent : Option Nat) : Bytes :=
  withChecksum P (rootMagic ++ leBytes 4 version ++ leBytes 8 root ++
    leBytes 4 (parent.getD noneParent) ++ leBytes 4 0)

/-- What one append puts into its record, apart from the store's watermarks. -/
structure TransactionDelta where
  payload : Bytes
  slots : List Bytes
  /-- New versions: id, root node, parent version. -/
  roots : List (Nat × Nat × Option Nat)
  identityVersion : Nat
  messagesVersion : Option Nat
  versionCount : Nat
deriving DecidableEq, Repr

/-- The checkpoint a record commits. -/
structure CheckpointHead where
  threadId : String
  checkpointId : String
  checkpointNo : UInt32
  parentCheckpointId : Option String
  stateLen : Nat
  stateHash : UInt64
deriving DecidableEq, Repr

def CheckpointHead.parentId (head : CheckpointHead) : String := head.parentCheckpointId.getD ""

def CheckpointHead.recordLen (head : CheckpointHead) : Nat :=
  checkpointPrefixSize + (utf8 head.threadId).length + (utf8 head.checkpointId).length +
    (utf8 head.parentId).length + txChecksumSize

/-- The numeric fields of a checkpoint record, in the order they are written. -/
structure CheckpointFields where
  recordLen : Nat
  checkpointNo : Nat
  identity : Nat
  messages : Nat
  result : Nat
  threadLen : Nat
  checkpointLen : Nat
  parentLen : Nat
  stateLen : Nat
  stateHash : Nat
deriving DecidableEq, Repr

def CheckpointFields.bytes (f : CheckpointFields) : Bytes :=
  checkpointMagic ++ leBytes 4 f.recordLen ++ leBytes 4 f.checkpointNo ++ leBytes 4 f.identity ++
    leBytes 4 f.messages ++ leBytes 4 f.result ++ leBytes 4 f.threadLen ++
    leBytes 4 f.checkpointLen ++ leBytes 4 f.parentLen ++ leBytes 8 f.stateLen ++
    leBytes 8 f.stateHash

def CheckpointHead.fields (head : CheckpointHead) (identityVersion : Nat)
    (messagesVersion : Option Nat) : CheckpointFields where
  recordLen := head.recordLen
  checkpointNo := head.checkpointNo.toNat
  identity := identityVersion
  messages := messagesVersion.getD noneVersion
  result := noneVersion
  threadLen := (utf8 head.threadId).length
  checkpointLen := (utf8 head.checkpointId).length
  parentLen := (utf8 head.parentId).length
  stateLen := head.stateLen
  stateHash := head.stateHash.toNat

def checkpointRecord (head : CheckpointHead) (identityVersion : Nat)
    (messagesVersion : Option Nat) : Bytes :=
  withChecksum P ((head.fields identityVersion messagesVersion).bytes ++ utf8 head.threadId ++
    utf8 head.checkpointId ++ utf8 head.parentId)

/-- The header fields of a record, in the order they are written. -/
structure TxHeader where
  total : Nat
  versionStart : Nat
  versionCount : Nat
  checkpointCount : Nat
  rootCount : Nat
  byteLen : Nat
  payloadLen : Nat
  nodeCount : Nat
  compactNodes : Nat
  wideNodes : Nat
  wideCount : Nat
  checkpointRecordLen : Nat
  requestLen : Nat
deriving DecidableEq, Repr

def TxHeader.bytes (h : TxHeader) : Bytes :=
  txMagic ++ leBytes 4 h.total ++ leBytes 4 h.versionStart ++ leBytes 4 h.versionCount ++
    leBytes 4 h.checkpointCount ++ leBytes 4 h.rootCount ++ leBytes 8 h.byteLen ++
    leBytes 8 h.payloadLen ++ leBytes 8 h.nodeCount ++ leBytes 4 h.compactNodes ++
    leBytes 4 h.wideNodes ++ leBytes 8 h.wideCount ++ leBytes 4 h.checkpointRecordLen ++
    leBytes 4 h.requestLen

/-- Lays out the record of a delta; both encoders end here. `label` starts the message of
the length check. -/
def assembleTransaction (label : String) (geometry : Geometry) (checkpointCount : Nat)
    (head : CheckpointHead) (delta : TransactionDelta) : Except StoreError Bytes := do
  let record := checkpointRecord P head delta.identityVersion delta.messagesVersion
  let slots := delta.slots.flatten
  let roots := (delta.roots.map (fun r => rootRecord P r.1 r.2.1 r.2.2)).flatten
  let total ← okOr (tryFrom 32 (txHeaderSize + delta.payload.length + slots.length + roots.length +
    record.length + txChecksumSize)) (.format (label ++ " exceeds the u32 length limit"))
  let header : TxHeader :=
    { total := total, versionStart := geometry.versionCount, versionCount := delta.versionCount,
      checkpointCount := checkpointCount, rootCount := delta.versionCount - geometry.versionCount,
      byteLen := geometry.byteLen, payloadLen := delta.payload.length,
      nodeCount := geometry.nodeCount, compactNodes := delta.slots.length, wideNodes := 0,
      wideCount := geometry.wideCount, checkpointRecordLen := head.recordLen, requestLen := 0 }
  .ok (withChecksum P (header.bytes ++ delta.payload ++ slots ++ roots ++ record))

/-- The version count as the `u32` field of a record. -/
def versionStartField (geometry : Geometry) : Except StoreError Nat :=
  okOr (tryFrom 32 geometry.versionCount) (.format "version count exceeds the T2W1 u32 limit")

/-- The advanced checkpoint count as the `u32` field of a record; `limit` names the width in
the first message. -/
def checkpointCountField (geometry : Geometry) (limit : String) : Except StoreError Nat := do
  let next ← okOr (checkedAdd 64 geometry.checkpointCount 1)
    (.format ("checkpoint count overflows the T2W1 " ++ limit ++ " limit"))
  okOr (tryFrom 32 next) (.format "checkpoint count exceeds the T2W1 u32 limit")

def identityPrefix : Bytes := ascii "\x7b\"identity\":"

def emptyMessagesSuffix : Bytes := ascii ",\"messages\":[]\x7d"

/-- The canonical state of an identity checkpoint. -/
def identityState (identity : Bytes) : Bytes := identityPrefix ++ identity ++ emptyMessagesSuffix

def encodeSingleIdentityTransaction (geometry : Geometry) (threadId checkpointId : String)
    (checkpointNo : UInt32) (parentCheckpointId : Option String) (identity : Bytes) :
    Except StoreError Bytes := do
  validateCheckpointIdentifier threadId "thread id"
  validateCheckpointIdentifier checkpointId "checkpoint id"
  validateParentIdentifier parentCheckpointId
  let versionStart ← versionStartField geometry
  let versionCount ← okOr (checkedAdd 32 versionStart 1)
    (.format "version count overflows the T2W1 u32 limit")
  let checkpointCount ← checkpointCountField geometry "u32"
  let identityLen ← okOr (tryFrom 32 identity.length)
    (.format "identity length exceeds the compact leaf limit")
  let canonical := identityState identity
  assembleTransaction P "transaction" geometry checkpointCount
    { threadId := threadId, checkpointId := checkpointId, checkpointNo := checkpointNo,
      parentCheckpointId := parentCheckpointId, stateLen := canonical.length,
      stateHash := P.xxh3 canonical }
    { payload := identity, slots := [compactLeaf geometry.byteLen identityLen],
      roots := [(versionStart, geometry.nodeCount,
        if versionStart = 0 then none else some (versionStart - 1))],
      identityVersion := versionStart, messagesVersion := none, versionCount := versionCount }

/-- The first message checkpoint of an empty store: a `null` identity and the messages. -/
def firstMessageDelta (geometry : Geometry) (versionStart : Nat) (body : Bytes) :
    Except StoreError TransactionDelta := do
  let messagesNode ← okOr (checkedAdd 64 geometry.nodeCount 1) (.format "message node id overflow")
  let messageOffset ← okOr (checkedAdd 64 geometry.byteLen 4)
    (.format "message leaf offset overflow")
  let bodyLen ← okOr (tryFrom 32 body.length) (.format "message delta exceeds compact-node length")
  let messagesVersion ← okOr (checkedAdd 32 versionStart 1) (.format "message version id overflow")
  let versionCount ← okOr (checkedAdd 32 messagesVersion 1)
    (.format "message version count overflow")
  .ok { payload := ascii "null" ++ body,
        slots := [compactLeaf geometry.byteLen 4, compactLeaf messageOffset bodyLen],
        roots := [(versionStart, geometry.nodeCount, none), (messagesVersion, messagesNode, none)],
        identityVersion := versionStart, messagesVersion := some messagesVersion,
        versionCount := versionCount }

/-- A message checkpoint on a parent: one leaf for the new messages and one binary node over
the parent's root. `parent` is the parent's identity version, messages root and messages
version. -/
def childMessageDelta (geometry : Geometry) (versionStart : Nat) (parent : Nat × Nat × Nat)
    (body : Bytes) : Except StoreError TransactionDelta := do
  let payload := ascii "," ++ body
  let rootNode ← okOr (checkedAdd 64 geometry.nodeCount 1)
    (.format "message binary root id overflow")
  let payloadLen ← okOr (tryFrom 32 payload.length)
    (.format "message delta exceeds compact-node length")
  failIf (rootNode < parent.2.1) (.format "message parent root is not topologically prior")
  let leftDelta ← okOr (tryFrom 32 (rootNode - parent.2.1))
    (.format "message parent delta exceeds compact-node limit")
  let rightDelta ← okOr (tryFrom 32 (rootNode - geometry.nodeCount))
    (.format "message leaf delta exceeds compact-node limit")
  let versionCount ← okOr (checkedAdd 32 versionStart 1) (.format "message version count overflow")
  .ok { payload := payload,
        slots := [compactLeaf geometry.byteLen payloadLen, compactBinary leftDelta rightDelta],
        roots := [(versionStart, rootNode, some parent.2.2)],
        identityVersion := parent.1, messagesVersion := some versionStart,
        versionCount := versionCount }

/-- A message checkpoint without a parent in a store that has checkpoints: its identity is
the one of the store's first checkpoint. -/
def rootMessageDelta (geometry : Geometry) (versionStart : Nat) (first : Option CheckpointInfo)
    (body : Bytes) : Except StoreError TransactionDelta := do
  let first ← okOr first (.format "non-empty store is missing its first checkpoint")
  let bodyLen ← okOr (tryFrom 32 body.length) (.format "message delta exceeds compact-node length")
  let versionCount ← okOr (checkedAdd 32 versionStart 1) (.format "message version count overflow")
  .ok { payload := body, slots := [compactLeaf geometry.byteLen bodyLen],
        roots := [(versionStart, geometry.nodeCount, none)],
        identityVersion := first.identityVersion, messagesVersion := some versionStart,
        versionCount := versionCount }

def messageDelta (geometry : Geometry) (first : Option CheckpointInfo)
    (parentCheckpointId : Option String) (parent : Option (Nat × Nat × Nat)) (versionStart : Nat)
    (body : Bytes) : Except StoreError TransactionDelta :=
  if geometry.checkpointCount = 0 then do
    failIf (parent.isSome = true ∨ parentCheckpointId.isSome = true ∨ first.isSome = true)
      (.format "first message checkpoint cannot have a parent")
    firstMessageDelta geometry versionStart body
  else match parent with
    | some parent => do
      failIf (parentCheckpointId.isNone = true) (.format "message parent metadata is inconsistent")
      childMessageDelta geometry versionStart parent body
    | none => do
      failIf (parentCheckpointId.isSome = true) (.format "message parent checkpoint is absent")
      rootMessageDelta geometry versionStart first body

def encodeMessageAppendTransaction (geometry : Geometry) (first : Option CheckpointInfo)
    (threadId checkpointId : String) (checkpointNo : UInt32) (parentCheckpointId : Option String)
    (parent : Option (Nat × Nat × Nat)) (body : Bytes) (stateLen : Nat) (stateHash : UInt64) :
    Except StoreError Bytes := do
  validateCheckpointIdentifier threadId "thread id"
  validateCheckpointIdentifier checkpointId "checkpoint id"
  validateParentIdentifier parentCheckpointId
  failIf (body.isEmpty = true) (.format "message checkpoint body is empty")
  let versionStart ← versionStartField geometry
  let checkpointCount ← checkpointCountField geometry "u64"
  let delta ← messageDelta geometry first parentCheckpointId parent versionStart body
  assembleTransaction P "message transaction" geometry checkpointCount
    { threadId := threadId, checkpointId := checkpointId, checkpointNo := checkpointNo,
      parentCheckpointId := parentCheckpointId, stateLen := stateLen, stateHash := stateHash }
    delta

/-- A requestless record with a request id put after its header, under a new checksum. -/
def encodeTransactionWithRequestId (transaction requestId : Bytes) : Except StoreError Bytes := do
  validateRequestId requestId
  failIf (transaction.length < txHeaderSize + txChecksumSize ∨ transaction.take 4 ≠ txMagic)
    (.format "invalid requestless transaction")
  let requestField ← readU32 transaction 68
  failIf (requestField ≠ 0) (.format "requestless transaction has a non-zero request field")
  let newLen ← okOr (tryFrom 32 (transaction.length + requestId.length))
    (.format "request-bearing transaction exceeds u32 length")
  let head ← okOr (slice transaction 8 68) (.format "transaction header missing")
  let body ← okOr (slice transaction txHeaderSize (transaction.length - txChecksumSize))
    (.format "transaction body missing")
  .ok (withChecksum P (txMagic ++ leBytes 4 newLen ++ head ++ leBytes 4 requestId.length ++
    requestId ++ body))

end Encode

/-! ## Parsing -/

section Parse

variable (P : Primitives)

/-- The stored value, or nothing when it is the sentinel. -/
def optionalField (none' raw : Nat) : Option Nat := if raw = none' then none else some raw

def parseRoot (record : Bytes) (expectedId : Nat) :
    Except StoreError (Option Nat × Option Nat) := do
  failIf (record.length ≠ rootRecordSize ∨ record.take 4 ≠ rootMagic)
    (.format "invalid root record")
  let checksum ← readU64 record 24
  failIf ((P.xxh3 (record.take 24)).toNat ≠ checksum) (.format "root checksum mismatch")
  let id ← readU32 record 4
  failIf (id ≠ expectedId) (.format "root id is not sequential")
  let rawRoot ← readU64 record 8
  let rawParent ← readU32 record 16
  failIf (rawParent ≠ noneParent ∧ ¬ rawParent < id)
    (.format "root parent is not topologically prior")
  .ok (optionalField noneRoot rawRoot, optionalField noneParent rawParent)

/-- The root records of `count` versions from `expectedId` on, starting at `cursor`. -/
def parseRoots (record : Bytes) : Nat → Nat → Nat → Except StoreError (List (Option Nat × Option Nat))
  | 0, _, _ => .ok []
  | count + 1, expectedId, cursor => do
    let slot ← okOr (slice record cursor (cursor + rootRecordSize))
      (.format "root record outside transaction")
    let root ← parseRoot P slot expectedId
    let rest ← parseRoots record count (expectedId + 1) (cursor + rootRecordSize)
    .ok (root :: rest)

def optionalVersion (versionCount raw : Nat) : Except StoreError (Option Nat) := do
  failIf (raw ≠ noneVersion ∧ ¬ raw < versionCount)
    (.format "optional checkpoint version out of bounds")
  .ok (optionalField noneVersion raw)

/-- A string section of a record. -/
def readString (data : Bytes) (start stop : Nat) (outside notUtf8 : String) :
    Except StoreError String := do
  let bytes ← okOr (slice data start stop) (.format outside)
  okOr (fromUtf8 bytes) (.format notUtf8)

def parseCheckpointFields (record : Bytes) : Except StoreError CheckpointFields := do
  let recordLen ← readU32 record 4
  let checkpointNo ← readU32 record 8
  let identity ← readU32 record 12
  let messages ← readU32 record 16
  let result ← readU32 record 20
  let threadLen ← readU32 record 24
  let checkpointLen ← readU32 record 28
  let parentLen ← readU32 record 32
  let stateLen ← readU64 record 36
  let stateHash ← readU64 record 44
  .ok { recordLen, checkpointNo, identity, messages, result, threadLen, checkpointLen, parentLen,
        stateLen, stateHash }

def parseCheckpointRecord (record : Bytes) (versionCount ordinal : Nat) :
    Except StoreError CheckpointInfo := do
  failIf (record.length < checkpointPrefixSize + 8 ∨ record.take 4 ≠ checkpointMagic)
    (.format "invalid checkpoint record")
  let f ← parseCheckpointFields record
  failIf (f.recordLen ≠ record.length) (.format "checkpoint record length mismatch")
  let checksum ← readU64 record (record.length - 8)
  failIf ((P.xxh3 (record.take (record.length - 8))).toNat ≠ checksum)
    (.format "checkpoint checksum mismatch")
  failIf (versionCount ≤ f.identity) (.format "identity version out of bounds")
  failIf (f.threadLen = 0 ∨ f.threadLen > maxCheckpointIdentifierBytes)
    (.format "thread id is empty or exceeds the byte limit")
  failIf (f.checkpointLen = 0 ∨ f.checkpointLen > maxCheckpointIdentifierBytes)
    (.format "checkpoint id is empty or exceeds the byte limit")
  failIf (f.parentLen > maxCheckpointIdentifierBytes)
    (.format "parent checkpoint id exceeds the byte limit")
  let threadEnd := checkpointPrefixSize + f.threadLen
  let checkpointEnd := threadEnd + f.checkpointLen
  let parentEnd := checkpointEnd + f.parentLen
  failIf (parentEnd + 8 ≠ record.length) (.format "checkpoint payload geometry mismatch")
  let threadId ← readString record checkpointPrefixSize threadEnd
    "thread bytes outside checkpoint record" "thread id is not UTF-8"
  let checkpointId ← readString record threadEnd checkpointEnd
    "checkpoint id bytes outside record" "checkpoint id is not UTF-8"
  let parent ← readString record checkpointEnd parentEnd
    "parent id bytes outside record" "parent checkpoint id is not UTF-8"
  let messagesVersion ← optionalVersion versionCount f.messages
  let resultVersion ← optionalVersion versionCount f.result
  .ok { ordinal := ordinal, threadId := threadId, checkpointNo := UInt32.ofNat f.checkpointNo,
        checkpointId := checkpointId,
        parentCheckpointId := if (utf8 parent).isEmpty then none else some parent,
        identityVersion := f.identity, messagesVersion := messagesVersion,
        resultVersion := resultVersion, logicalStateLen := f.stateLen,
        stateHash := UInt64.ofNat f.stateHash }

def parseHeader (record : Bytes) : Except StoreError TxHeader := do
  let total ← readU32 record 4
  let versionStart ← readU32 record 8
  let versionCount ← readU32 record 12
  let checkpointCount ← readU32 record 16
  let rootCount ← readU32 record 20
  let byteLen ← readU64 record 24
  let payloadLen ← readU64 record 32
  let nodeCount ← readU64 record 40
  let compactNodes ← readU32 record 48
  let wideNodes ← readU32 record 52
  let wideCount ← readU64 record 56
  let checkpointRecordLen ← readU32 record 64
  let requestLen ← readU32 record 68
  .ok { total, versionStart, versionCount, checkpointCount, rootCount, byteLen, payloadLen,
        nodeCount, compactNodes, wideNodes, wideCount, checkpointRecordLen, requestLen }

/-- The watermarks of the record continue the given geometry. -/
def checkContinues (header : TxHeader) (geometry : Option Geometry) : Except StoreError Unit :=
  match geometry with
  | none => .ok ()
  | some geometry => do
    let expected ← okOr (checkedAdd 64 geometry.checkpointCount 1)
      (.format "checkpoint topology overflows u64")
    failIf (header.versionStart ≠ geometry.versionCount ∨ header.checkpointCount ≠ expected ∨
        header.byteLen ≠ geometry.byteLen ∨ header.nodeCount ≠ geometry.nodeCount ∨
        header.wideCount ≠ geometry.wideCount)
      (.format "transaction topology/watermark mismatch")

/-- The length a record with this header must have. -/
def TxHeader.expectedLen (h : TxHeader) : Nat :=
  txHeaderSize + h.requestLen + h.payloadLen + h.compactNodes * compactNodeSize +
    h.wideNodes * wideRecordSize + h.rootCount * rootRecordSize + h.checkpointRecordLen +
    txChecksumSize

/-- The checks on a record before its sections are read: its shape, checksum and header. -/
def checkEnvelope (record : Bytes) (geometry : Option Geometry) : Except StoreError TxHeader := do
  failIf (record.length < txHeaderSize + txChecksumSize ∨ record.take 4 ≠ txMagic)
    (.format "invalid T2W1 transaction header")
  let h ← parseHeader record
  failIf (h.total ≠ record.length) (.format "transaction length mismatch")
  let checksum ← readU64 record (record.length - txChecksumSize)
  failIf ((P.xxh3 (record.take (record.length - txChecksumSize))).toNat ≠ checksum)
    (.format "transaction checksum mismatch")
  failIf (h.requestLen > maxRequestIdBytes) (.format "request id exceeds the byte limit")
  failIf (h.checkpointCount = 0) (.format "transaction checkpoint count must be non-zero")
  failIf (h.versionCount ≠ h.versionStart + h.rootCount)
    (.format "transaction version topology is inconsistent")
  checkContinues h geometry
  let expected ← okOr (tryFrom 64 h.expectedLen) (.format "transaction payload geometry overflow")
  failIf (expected ≠ record.length) (.format "transaction payload geometry mismatch")
  .ok h

/-- The byte sections of a record. -/
structure TxSections where
  request : Bytes
  bytes : Bytes
  compactNodes : Bytes
  wideNodes : Bytes
  roots : List (Option Nat × Option Nat)
  checkpointRecord : Bytes
deriving DecidableEq, Repr

/-- Where the section of root records starts. -/
def TxHeader.rootCursor (h : TxHeader) : Nat :=
  txHeaderSize + h.requestLen + h.payloadLen + h.compactNodes * compactNodeSize +
    h.wideNodes * wideRecordSize

def parseSections (record : Bytes) (h : TxHeader) : Except StoreError TxSections := do
  let requestEnd := txHeaderSize + h.requestLen
  let request ← okOr (slice record txHeaderSize requestEnd)
    (.format "request id outside transaction")
  let byteEnd := requestEnd + h.payloadLen
  let bytes ← okOr (slice record requestEnd byteEnd)
    (.format "transaction byte delta outside record")
  let compactEnd := byteEnd + h.compactNodes * compactNodeSize
  let compactNodes ← okOr (slice record byteEnd compactEnd)
    (.format "compact nodes outside transaction")
  let wideNodes ← okOr (slice record compactEnd h.rootCursor)
    (.format "wide nodes outside transaction")
  let roots ← parseRoots P record h.rootCount h.versionStart h.rootCursor
  let rootEnd := h.rootCursor + h.rootCount * rootRecordSize
  let checkpointRecord ← okOr (slice record rootEnd (rootEnd + h.checkpointRecordLen))
    (.format "checkpoint record outside transaction")
  .ok { request, bytes, compactNodes, wideNodes, roots, checkpointRecord }

def parseTransactionWithGeometry (record : Bytes) (geometry : Option Geometry)
    (startOffset : Nat) : Except StoreError ParsedTransaction := do
  let h ← checkEnvelope P record geometry
  let s ← parseSections P record h
  let checkpoint ← parseCheckpointRecord P s.checkpointRecord h.versionCount (h.checkpointCount - 1)
  let cursor := h.rootCursor + h.rootCount * rootRecordSize + h.checkpointRecordLen
  failIf (cursor ≠ record.length - txChecksumSize) (.format "transaction cursor mismatch")
  let byteEnd ← okOr (checkedAdd 64 h.byteLen s.bytes.length) (.format "byte watermark overflow")
  let nodeEnd ← okOr (checkedAdd 64 h.nodeCount h.compactNodes)
    (.format "node watermark overflow")
  let wideEnd ← okOr (checkedAdd 64 h.wideCount h.wideNodes) (.format "wide watermark overflow")
  let endOffset ← okOr (checkedAdd 64 startOffset record.length)
    (.format "transaction file offset overflow")
  .ok { endOffset := endOffset, versionStart := h.versionStart, versionCount := h.versionCount,
        checkpointCount := h.checkpointCount, byteStart := h.byteLen, byteEnd := byteEnd,
        bytes := s.bytes, nodeStart := h.nodeCount, nodeEnd := nodeEnd,
        compactNodes := s.compactNodes, wideStart := h.wideCount, wideEnd := wideEnd,
        wideNodes := s.wideNodes, roots := s.roots.map Prod.fst, parents := s.roots.map Prod.snd,
        checkpoint := checkpoint,
        requestId := if h.requestLen = 0 then none else some s.request,
        operationDigest := P.sha256 record }

def parseTransactionUnchecked (record : Bytes) (startOffset : Nat) :
    Except StoreError ParsedTransaction :=
  parseTransactionWithGeometry P record none startOffset

def parseTransaction (record : Bytes) (geometry : Geometry) (startOffset : Nat) :
    Except StoreError ParsedTransaction :=
  parseTransactionWithGeometry P record (some geometry) startOffset

end Parse

end TulyaStore.Checkpoint
