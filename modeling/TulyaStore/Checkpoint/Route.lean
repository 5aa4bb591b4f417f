import Mathlib.Data.List.Sort
import TulyaStore.Checkpoint.Record

/-!
# Route files

Each generation has a route file next to its segment (`manifest.rs`): hashed keys of the threads
and checkpoints it adds, and behind the keys an optional section of request records, which is
found from a footer at the end of the file. `buildRouteFile` writes one, `validateRouteFile`
checks one against its manifest entry, `routeRequestRecords` reads the request records back.
-/

namespace TulyaStore.Checkpoint

open Lib

def routeMagic : Bytes := ascii "T3ROUT01"

def routeFormatVersion : Nat := 1

def routeHeaderSize : Nat := 64

def routeEntrySize : Nat := 24

def requestSectionMagic : Bytes := ascii "T2REQ01" ++ [0]

def requestFooterMagic : Bytes := ascii "T2REQF1" ++ [0]

def requestSectionVersion : Nat := 1

def requestSectionHeaderBytes : Nat := 20

def requestSectionFooterBytes : Nat := 16

structure RouteMeta where
  generation : Nat
  threadEntryCount : Nat
  checkpointEntryCount : Nat
  routeFileBytes : Nat
  routeIndexHash : UInt64
deriving DecidableEq, Repr

/-! ## Building -/

structure RouteEntry where
  hash : UInt64
  ordinal : Nat
  key : Bytes
deriving DecidableEq, Repr

/-- Entries are sorted by hash, then by key. -/
def RouteEntry.le (left right : RouteEntry) : Prop :=
  left.hash < right.hash ∨ (left.hash = right.hash ∧ left.key ≤ right.key)

instance : DecidableRel RouteEntry.le := fun left right =>
  inferInstanceAs (Decidable (left.hash < right.hash ∨
    (left.hash = right.hash ∧ left.key ≤ right.key)))

section Build

variable (P : Primitives)

def routeKey (thread : String) (checkpoint : Option String) : Except StoreError Bytes := do
  let threadLen ← okOr (tryFrom 32 (utf8 thread).length) (.format "route thread length overflow")
  let checkpointBytes := (checkpoint.map utf8).getD []
  let checkpointLen ← okOr (tryFrom 32 checkpointBytes.length)
    (.format "route checkpoint length overflow")
  .ok ((if checkpoint.isSome then 1 else 0) :: (leBytes 4 threadLen ++ utf8 thread ++
    leBytes 4 checkpointLen ++ checkpointBytes))

def routeEntry (thread : String) (checkpoint : Option String) (ordinal : Nat) :
    Except StoreError RouteEntry := do
  let key ← routeKey thread checkpoint
  .ok { hash := P.xxh3 key, ordinal := ordinal, key := key }

def routeThreads : List (String × Nat) → Except StoreError (List RouteEntry)
  | [] => .ok []
  | (thread, ordinal) :: rest => do
    let entry ← routeEntry P thread none ordinal
    let entries ← routeThreads rest
    .ok (entry :: entries)

def routeCheckpoints : List (String × String × Nat) → Except StoreError (List RouteEntry)
  | [] => .ok []
  | (thread, checkpoint, ordinal) :: rest => do
    let entry ← routeEntry P thread (some checkpoint) ordinal
    let entries ← routeCheckpoints rest
    .ok (entry :: entries)

def RouteEntry.row (e : RouteEntry) (keyOffset keyLen : Nat) : Bytes :=
  leBytes 8 e.hash.toNat ++ leBytes 4 e.ordinal ++ leBytes 4 keyOffset ++ leBytes 4 keyLen ++
    leBytes 4 0

/-- The rows of the table and the key blob, given the blob in front of the first key. -/
def routeTable : Bytes → List RouteEntry → Except StoreError (Bytes × Bytes)
  | blob, [] => .ok ([], blob)
  | blob, e :: rest => do
    let keyOffset ← okOr (tryFrom 32 blob.length) (.format "route key offset overflow")
    let keyLen ← okOr (tryFrom 32 e.key.length) (.format "route key length overflow")
    let (table, blob) ← routeTable (blob ++ e.key) rest
    .ok (e.row keyOffset keyLen ++ table, blob)

/-- One record of the request section. -/
def RequestRecord.bytes (record : RequestRecord) : Bytes :=
  leBytes 4 record.key.length ++ leBytes 4 record.checkpointOrdinal ++
    record.operationDigest.toList ++ record.key

def requestRecordBytes : List RequestRecord → Except StoreError Bytes
  | [] => .ok []
  | record :: rest => do
    validateRequestId record.key
    let _ ← okOr (tryFrom 32 record.key.length) (.format "request key length exceeds u32")
    let bytes ← requestRecordBytes rest
    .ok (record.bytes ++ bytes)

def requestSectionBytes (records : List RequestRecord) : Except StoreError Bytes :=
  if records.isEmpty then .ok []
  else do
    let count ← okOr (tryFrom 32 records.length)
      (.format "request section record count exceeds u32")
    let bytes ← requestRecordBytes records
    let body := requestSectionMagic ++ leBytes 4 requestSectionVersion ++ leBytes 4 0 ++
      leBytes 4 count ++ bytes
    let sectionBytes ← okOr (tryFrom 64 body.length) (.format "request section length exceeds u64")
    .ok (body ++ leBytes 8 sectionBytes ++ requestFooterMagic)

/-- The header of a route file. -/
def routeHeader (generation threads checkpoints checkpointTable keyBlob : Nat) (hash : UInt64) :
    Bytes :=
  routeMagic ++ leBytes 4 routeFormatVersion ++ leBytes 4 0 ++ leBytes 8 generation ++
    leBytes 4 threads ++ leBytes 4 checkpoints ++ leBytes 8 routeHeaderSize ++
    leBytes 8 checkpointTable ++ leBytes 8 keyBlob ++ leBytes 8 hash.toNat

/-- The hash over everything behind the header. -/
def routeIndexHash (tail : Bytes) : UInt64 := if tail.isEmpty then 0 else P.xxh3 tail

def buildRouteFile (generation : Nat) (newThreads : List (String × Nat))
    (newCheckpoints : List (String × String × Nat)) (newRequests : List RequestRecord) :
    Except StoreError (Bytes × UInt64) := do
  let threads ← routeThreads P newThreads
  let checkpoints ← routeCheckpoints P newCheckpoints
  let threads := threads.insertionSort RouteEntry.le
  let checkpoints := checkpoints.insertionSort RouteEntry.le
  let threadBytes ← okOr (checkedMul 64 threads.length routeEntrySize)
    (.format "route thread table overflow")
  let checkpointBytes ← okOr (checkedMul 64 checkpoints.length routeEntrySize)
    (.format "route checkpoint table overflow")
  let checkpointTable ← okOr (checkedAdd 64 routeHeaderSize threadBytes)
    (.format "route checkpoint offset overflow")
  let keyBlob ← okOr (checkedAdd 64 checkpointTable checkpointBytes)
    (.format "route key blob offset overflow")
  let (table, blob) ← routeTable [] (threads ++ checkpoints)
  let requests ← requestSectionBytes newRequests
  let tail := table ++ blob ++ requests
  let hash := routeIndexHash P tail
  let threadCount ← okOr (tryFrom 32 threads.length) (.format "route thread count overflow")
  let checkpointCount ← okOr (tryFrom 32 checkpoints.length)
    (.format "route checkpoint count overflow")
  .ok (routeHeader generation threadCount checkpointCount checkpointTable keyBlob hash ++ tail,
    hash)

end Build

/-! ## Reading -/

section Read

variable (P : Primitives)

/-- The bytes a fixed range of a file holds, when it is that long. -/
def holdsAt (bytes : Bytes) (offset : Nat) (expected : Bytes) : Prop :=
  slice bytes offset (offset + expected.length) = some expected

instance (bytes : Bytes) (offset : Nat) (expected : Bytes) :
    Decidable (holdsAt bytes offset expected) :=
  inferInstanceAs (Decidable (_ = _))

def validateRouteFile (bytes : Bytes) (route : RouteMeta) : Except StoreError Unit := do
  failIf (bytes.length < routeHeaderSize) (.format "route header truncated")
  failIf (¬ holdsAt bytes 0 routeMagic) (.format "route magic mismatch")
  let version ← readU32 bytes 8
  failIf (version ≠ routeFormatVersion) (.format "route format version mismatch")
  let reserved ← readU32 bytes 12
  failIf (reserved ≠ 0) (.format "route reserved header field is nonzero")
  let generation ← readU64 bytes 16
  failIf (generation ≠ route.generation) (.format "route generation mismatch")
  let threads ← readU32 bytes 24
  let checkpoints ← readU32 bytes 28
  failIf (threads ≠ route.threadEntryCount ∨ checkpoints ≠ route.checkpointEntryCount)
    (.format "route entry counts mismatch manifest")
  let threadTable ← readU64 bytes 32
  let checkpointTable ← readU64 bytes 40
  let keyBlob ← readU64 bytes 48
  let storedHash ← readU64 bytes 56
  let threadBytes ← okOr (checkedMul 64 route.threadEntryCount routeEntrySize)
    (.format "route thread table size overflow")
  let expectedCheckpointTable ← okOr (checkedAdd 64 routeHeaderSize threadBytes)
    (.format "route checkpoint table offset overflow")
  let checkpointBytes ← okOr (checkedMul 64 route.checkpointEntryCount routeEntrySize)
    (.format "route checkpoint table size overflow")
  let expectedKeyBlob ← okOr (checkedAdd 64 expectedCheckpointTable checkpointBytes)
    (.format "route key blob offset overflow")
  failIf (threadTable ≠ routeHeaderSize ∨ checkpointTable ≠ expectedCheckpointTable ∨
      keyBlob ≠ expectedKeyBlob ∨ keyBlob > bytes.length)
    (.format "route table offsets mismatch deterministic layout")
  failIf (storedHash ≠ route.routeIndexHash.toNat ∨
      (routeIndexHash P (bytes.drop routeHeaderSize)).toNat ≠ storedHash)
    (.format "route index checksum mismatch")

/-- The largest key end among `count` entries of a table, from entry `i` on. -/
def routeKeyEnd (bytes : Bytes) (tableOffset : Nat) : Nat → Nat → Nat → Except StoreError Nat
  | 0, _, keyEnd => .ok keyEnd
  | count + 1, i, keyEnd => do
    let start ← okOr (checkedMul 64 i routeEntrySize) (.format "route entry offset overflow")
    let base ← okOr (checkedAdd 64 tableOffset start) (.format "route entry offset overflow")
    let keyOffset ← readU32 bytes (base + 12)
    let keyLen ← readU32 bytes (base + 16)
    routeKeyEnd bytes tableOffset count (i + 1) (max keyEnd (keyOffset + keyLen))

/-- The digest that 32 bytes are. -/
def digestOf (bytes : Bytes) : Option Digest :=
  if h : bytes.length = 32 then some ⟨bytes.toArray, by simpa using h⟩ else none

/-- `count` request records from the cursor on, and the cursor behind them. -/
def readRequestRecords (bytes : Bytes) (sectionEnd : Nat) : Nat → Nat →
    Except StoreError (List RequestRecord × Nat)
  | 0, cursor => .ok ([], cursor)
  | count + 1, cursor => do
    let keyLen ← readU32 bytes cursor
    let checkpointOrdinal ← readU32 bytes (cursor + 4)
    let keyStart := cursor + 40
    let keyEnd := keyStart + keyLen
    failIf (keyEnd > sectionEnd) (.format "request record exceeds section")
    let key ← okOr (slice bytes keyStart keyEnd) (.format "request key outside section")
    validateRequestId key
    let digest ← okOr (slice bytes (cursor + 8) keyStart) (.format "request digest outside section")
    let digest ← okOr (digestOf digest) (.format "request digest width mismatch")
    let (records, stop) ← readRequestRecords bytes sectionEnd count keyEnd
    .ok ({ key := key, operationDigest := digest, checkpointOrdinal := checkpointOrdinal } ::
      records, stop)

/-- The request section that the footer at `footerStart` announces. -/
def readRequestSection (bytes : Bytes) (keyBlobEnd footerStart : Nat) :
    Except StoreError (List RequestRecord) := do
  let sectionBytes ← readU64 bytes footerStart
  failIf (footerStart < sectionBytes) (.format "request section starts before file")
  let sectionStart := footerStart - sectionBytes
  failIf (sectionStart ≠ keyBlobEnd) (.format "request section is not contiguous with route keys")
  failIf (sectionBytes < requestSectionHeaderBytes ∨ ¬ holdsAt bytes sectionStart requestSectionMagic)
    (.format "request section header is invalid")
  let version ← readU32 bytes (sectionStart + 8)
  failIf (version ≠ requestSectionVersion) (.format "request section header is invalid")
  let reserved ← readU32 bytes (sectionStart + 12)
  failIf (reserved ≠ 0) (.format "request section header is invalid")
  let count ← readU32 bytes (sectionStart + 16)
  let sectionEnd := sectionStart + sectionBytes
  let (records, cursor) ← readRequestRecords bytes sectionEnd count
    (sectionStart + requestSectionHeaderBytes)
  failIf (cursor ≠ sectionEnd) (.format "request section has trailing record bytes")
  .ok records

def routeRequestRecords (bytes : Bytes) : Except StoreError (List RequestRecord) := do
  failIf (bytes.length < routeHeaderSize) (.format "route file is shorter than its header")
  let threads ← readU32 bytes 24
  let checkpoints ← readU32 bytes 28
  let threadTable ← readU64 bytes 32
  let checkpointTable ← readU64 bytes 40
  let keyBlob ← readU64 bytes 48
  let threadKeyEnd ← routeKeyEnd bytes threadTable threads 0 0
  let keyBlobLen ← routeKeyEnd bytes checkpointTable checkpoints 0 threadKeyEnd
  let keyBlobEnd ← okOr (checkedAdd 64 keyBlob keyBlobLen) (.format "route key blob end overflow")
  failIf (keyBlobEnd > bytes.length) (.format "route key blob exceeds file")
  -- the header alone is longer than a footer
  let footerStart := bytes.length - requestSectionFooterBytes
  if holdsAt bytes (footerStart + 8) requestFooterMagic then
    readRequestSection bytes keyBlobEnd footerStart
  else .ok []

end Read

end TulyaStore.Checkpoint
