import Mathlib.Data.Prod.Lex
import Mathlib.Data.String.Basic
import TulyaStore.Lib.Bytes
import TulyaStore.Lib.Check
import TulyaStore.Lib.KeyMap

/-!
# Data model of the checkpoint store

The records of `model.rs` and the constants of `storage_format.rs`: watermarks
(`Geometry`), checkpoint metadata, one parsed write-ahead transaction, and the committed
in-memory state. Identifiers are strings and reach the disk as UTF-8. Hash maps are
`KeyMap`s: equal exactly when they agree on every key.

XXH3, SHA-256 and the block codec are the `Primitives` of everything that uses them.
-/

namespace TulyaStore.Checkpoint

open Lib

/-- The output of SHA-256. -/
abbrev Digest := Vector UInt8 32

/-- The functions of other packages the store calls. -/
structure Primitives where
  xxh3 : Bytes → UInt64
  sha256 : Bytes → Digest
  /-- `zstd::bulk::compress` at a level. -/
  compress : Int → Bytes → Bytes
  /-- `Decompressor::decompress` with a capacity. -/
  decompress : Bytes → Nat → Option Bytes

inductive StoreError where
  | format (message : String)
  /-- A read past the end of a file, or of a file that is not there. -/
  | io
  | codec
  | requestIdConflict
  | checkpointNotFound
  | checkpointDeleted
  | pruneRequiresSealedStore
  | pruneRequiresEagerRecovery
  /-- A vector would grow past what it can hold: the source panics or aborts there. -/
  | capacity
  | diverged
deriving DecidableEq, Repr

/-! ## Constants -/

def txMagic : Bytes := ascii "T2W1"

def rootMagic : Bytes := ascii "T2R1"

def checkpointMagic : Bytes := ascii "T2P1"

def txHeaderSize : Nat := 72

def txChecksumSize : Nat := 8

def rootRecordSize : Nat := 32

def checkpointPrefixSize : Nat := 52

def compactNodeSize : Nat := 16

def wideRecordSize : Nat := 32

/-- `NONE_ROOT` -/
def noneRoot : Nat := maxValue 64

/-- `NONE_VERSION` -/
def noneVersion : Nat := maxValue 32

/-- `NONE_PARENT` -/
def noneParent : Nat := maxValue 32

def kindLeaf : Nat := 0xD1000001

def kindBinary : Nat := 0xD1000002

def kindWide : Nat := 0xD1000003

def wideKindLeaf : Nat := 1

def wideKindBinary : Nat := 2

def maxCheckpointIdentifierBytes : Nat := 4096

def maxRequestIdBytes : Nat := 4096

/-! ## Identifiers -/

/-- The UTF-8 bytes of a string. -/
def utf8 (s : String) : Bytes := s.toByteArray.data.toList

/-- The string a UTF-8 byte string stands for (`str::from_utf8`). -/
def fromUtf8 (bytes : Bytes) : Option String := String.fromUTF8? ⟨⟨bytes⟩⟩

@[simp] theorem fromUtf8_utf8 (s : String) : fromUtf8 (utf8 s) = some s := by
  have hBytes : (⟨⟨utf8 s⟩⟩ : ByteArray) = s.toByteArray := by simp [utf8]
  have hValid : s.toByteArray.IsValidUTF8 := s.isValidUTF8
  rw [fromUtf8, hBytes, String.fromUTF8?, dif_pos hValid]
  rfl

theorem utf8_injective {s t : String} (h : utf8 s = utf8 t) : s = t := by
  have hSome : some s = some t := by rw [← fromUtf8_utf8 s, h, fromUtf8_utf8]
  exact Option.some.inj hSome

theorem fromUtf8_eq_some {bytes : Bytes} {s : String} : fromUtf8 bytes = some s ↔ bytes = utf8 s := by
  constructor
  · intro h
    unfold fromUtf8 String.fromUTF8? at h
    split at h
    · cases h
      rfl
    · cases h
  · rintro rfl
    exact fromUtf8_utf8 s

/-- A checkpoint key `(thread_id, checkpoint_id)`. -/
structure CheckpointKey where
  threadId : String
  checkpointId : String
deriving DecidableEq, Repr

def CheckpointKey.toPair (k : CheckpointKey) : String ×ₗ String :=
  toLex (k.threadId, k.checkpointId)

theorem CheckpointKey.toPair_injective : Function.Injective CheckpointKey.toPair := by
  intro a b h
  have hPair : (a.threadId, a.checkpointId) = (b.threadId, b.checkpointId) := toLex.injective h
  cases a
  cases b
  simpa using hPair

/-- Keys are ordered as tuples of strings. -/
instance : LinearOrder CheckpointKey :=
  LinearOrder.lift' CheckpointKey.toPair CheckpointKey.toPair_injective

/-! ## Records -/

/-- The watermarks of a store: how much of each table is committed. -/
structure Geometry where
  byteLen : Nat
  nodeCount : Nat
  wideCount : Nat
  versionCount : Nat
  checkpointCount : Nat
deriving DecidableEq, Repr

/-- `Geometry::default()` -/
def Geometry.zero : Geometry := ⟨0, 0, 0, 0, 0⟩

structure CheckpointInfo where
  ordinal : Nat
  threadId : String
  checkpointNo : UInt32
  checkpointId : String
  parentCheckpointId : Option String
  identityVersion : Nat
  messagesVersion : Option Nat
  resultVersion : Option Nat
  logicalStateLen : Nat
  stateHash : UInt64
deriving DecidableEq, Repr

def CheckpointInfo.key (info : CheckpointInfo) : CheckpointKey := ⟨info.threadId, info.checkpointId⟩

/-- The key of the parent, which lives in the same thread. -/
def CheckpointInfo.parentKey (info : CheckpointInfo) : Option CheckpointKey :=
  info.parentCheckpointId.map (fun parent => ⟨info.threadId, parent⟩)

/-- A transaction read from the write-ahead log. -/
structure ParsedTransaction where
  endOffset : Nat
  versionStart : Nat
  versionCount : Nat
  checkpointCount : Nat
  byteStart : Nat
  byteEnd : Nat
  bytes : Bytes
  nodeStart : Nat
  nodeEnd : Nat
  compactNodes : Bytes
  wideStart : Nat
  wideEnd : Nat
  wideNodes : Bytes
  roots : List (Option Nat)
  parents : List (Option Nat)
  checkpoint : CheckpointInfo
  requestId : Option Bytes
  operationDigest : Digest
deriving DecidableEq, Repr

def Geometry.advance (tx : ParsedTransaction) : Geometry :=
  ⟨tx.byteEnd, tx.nodeEnd, tx.wideEnd, tx.versionCount, tx.checkpointCount⟩

structure RequestRecord where
  key : Bytes
  operationDigest : Digest
  checkpointOrdinal : Nat
deriving DecidableEq, Repr

structure StoreState where
  /-- The sealed base the byte and node vectors are an overlay of, in lazy mode. -/
  baseGeometry : Option Geometry
  arenaBytes : Bytes
  compactNodes : Bytes
  wideNodes : Bytes
  versions : List (Option Nat)
  parents : List (Option Nat)
  checkpoints : List CheckpointInfo
  threads : List String
  threadOrdinals : KeyMap String Nat
  checkpointOrdinals : KeyMap CheckpointKey Nat
  requestRecords : KeyMap Bytes RequestRecord
  deletedCheckpoints : KeyMap CheckpointKey Unit
  retiredRequests : KeyMap Bytes Digest
deriving DecidableEq

/-- `StoreState::default()` -/
def StoreState.empty : StoreState where
  baseGeometry := none
  arenaBytes := []
  compactNodes := []
  wideNodes := []
  versions := []
  parents := []
  checkpoints := []
  threads := []
  threadOrdinals := .empty
  checkpointOrdinals := .empty
  requestRecords := .empty
  deletedCheckpoints := .empty
  retiredRequests := .empty

namespace StoreState

def lazyBaseGeometry (state : StoreState) : Geometry := state.baseGeometry.getD .zero

def geometry (state : StoreState) : Except StoreError Geometry := do
  let base := state.lazyBaseGeometry
  let byteLen ← okOr (checkedAdd 64 base.byteLen state.arenaBytes.length)
    (.format "combined arena byte length overflow")
  let nodeCount ← okOr (checkedAdd 64 base.nodeCount (state.compactNodes.length / compactNodeSize))
    (.format "combined node count overflow")
  let wideCount ← okOr (checkedAdd 64 base.wideCount (state.wideNodes.length / wideRecordSize))
    (.format "combined wide count overflow")
  .ok ⟨byteLen, nodeCount, wideCount, state.versions.length, state.checkpoints.length⟩

end StoreState

end TulyaStore.Checkpoint
