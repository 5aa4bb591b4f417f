import TulyaStore.V2.State

/-!
# The hot log of commits

A hot frame (`hot_frame_v2.rs`) is a `T2C2` commit followed by a footer that repeats the length of
the frame and the digest of the commit. The footer is written last, so the probe can tell a frame
that was cut short, with zeros behind the cut, from a complete one. Recovery (`recovery_v2.rs`)
applies complete frames in order and stops at the end, at zeros or at a torn frame.
-/

namespace TulyaStore.V2

open Lib Sequence

def v2HotFooterMagic : Bytes := ascii "T2E2"

def v2HotFooterSize : Nat := 40

/-- `V2_COMMIT_DIGEST_OFFSET` -/
def v2CommitDigestOffset : Nat := 56

/-- `V2_COMMIT_DIGEST_END` -/
def v2CommitDigestEnd : Nat := 88

inductive V2HotFrameError where
  | commit (error : V2CommitError)
  | invalid (message : String)
  | overflow (message : String)
deriving DecidableEq, Repr

inductive V2HotFrameProbe where
  | complete (commitLen frameLen : Nat)
  | torn
deriving DecidableEq, Repr

def allZero (bytes : Bytes) : Bool := bytes.all (· = 0)

/-- The footer of a frame with the given length around a commit with the given digest. -/
def hotFooter (frameLen : Nat) (commitDigest : Bytes) : Bytes :=
  v2HotFooterMagic ++ leBytes 4 frameLen ++ commitDigest

/-- `is_zero_padded_prefix` -/
def isZeroPadded (actual expected : Bytes) : Bool :=
  if actual.length ≠ expected.length then false
  else (List.range (actual.length + 1)).reverse.any fun written =>
    slice actual 0 written = slice expected 0 written && allZero (actual.drop written)

section Hash

variable (sha256 : Bytes → Digest)

def encodeV2HotFrame (commit : Bytes) : Except V2HotFrameError Bytes := do
  let decoded ← mapErr .commit (decodeV2Commit sha256 commit)
  let frameLen ← okOr (checkedAdd 64 commit.length v2HotFooterSize)
    (.overflow "v2 hot frame length exceeds usize")
  let frameLen ← okOr (tryFrom 32 frameLen) (.overflow "v2 hot frame length exceeds u32")
  let output := commit ++ hotFooter frameLen decoded.commitDigest.toList
  failIf (output.length ≠ frameLen)
    (.invalid "v2 hot frame encoder produced an unexpected length")
  return output

/-- The part of the probe that looks at the footer. -/
def probeFooter (bytes : Bytes) (commitLen frameLen : Nat) :
    Except V2HotFrameError V2HotFrameProbe := do
  let frameLenField ← okOr (tryFrom 32 frameLen) (.overflow "v2 hot frame length exceeds u32")
  let commitDigest ← okOr (slice bytes v2CommitDigestOffset v2CommitDigestEnd)
    (.invalid "v2 hot commit digest field is truncated")
  let expectedFooter := hotFooter frameLenField commitDigest
  let actualFooter ← okOr (slice bytes commitLen frameLen)
    (.invalid "v2 hot footer range is truncated")
  if actualFooter ≠ expectedFooter then
    if isZeroPadded actualFooter expectedFooter = true then .ok .torn
    else .error (.invalid "v2 hot completion footer mismatch")
  else return .complete commitLen frameLen

/-- The part of the probe behind the magic, for a length field that is there. -/
def probeLength (bytes : Bytes) : Except V2HotFrameError V2HotFrameProbe := do
  let commitLen ← okOr (readLe 4 bytes 4) (.invalid "v2 hot u32 field is truncated")
  if commitLen < v2CommitHeaderSize then
    if (slice bytes 8 (min bytes.length v2CommitHeaderSize)).any allZero = true then .ok .torn
    else .error (.invalid "v2 hot commit length is shorter than its header")
  else do
    let frameLen ← okOr (checkedAdd 64 commitLen v2HotFooterSize)
      (.overflow "v2 hot frame length exceeds usize")
    if frameLen > bytes.length then .ok .torn else probeFooter bytes commitLen frameLen

def probeV2HotFrame (bytes : Bytes) : Except V2HotFrameError V2HotFrameProbe :=
  if bytes.length < v2CommitMagic.length then
    if bytes <+: v2CommitMagic then .ok .torn
    else .error (.invalid "v2 hot frame magic is truncated")
  else if slice bytes 0 4 ≠ some v2CommitMagic then
    .error (.invalid "v2 hot frame commit magic mismatch")
  else if bytes.length < 8 then .ok .torn
  else probeLength bytes

/-! ## Recovery -/

/-- `V2_STRUCTURAL_MAGIC`, which is the magic of the WAL transactions. -/
def v2StructuralMagic : Bytes := ascii "T2W2"

/-- `diverged` stands for a loop that does not end, which no input reaches. -/
inductive V2RecoveryError where
  | apply (error : V2ApplyError)
  | frame (error : V2HotFrameError)
  | invalid (message : String)
  | overflow (message : String)
  | diverged
deriving DecidableEq, Repr

inductive V2RecoveryStop where
  | endOfBytes
  | zeroReserve
  | tornFinalCommit
deriving DecidableEq, Repr

structure V2RecoveredHotWal where
  state : V2CommittedState
  logicalTail : Nat
  commitCount : Nat
  stop : V2RecoveryStop
deriving DecidableEq

def startsWithZeroReserve (bytes : Bytes) : Bool :=
  0 < min bytes.length 4 && allZero (bytes.take (min bytes.length 4))

/-- What the scanner finds in front of it. -/
inductive V2ScannedFrame where
  | stop (reason : V2RecoveryStop)
  | commit (commitLen frameLen : Nat)
deriving DecidableEq, Repr

/-- The answer of the probe, as the scanner takes it. -/
def scannedProbe : Except V2HotFrameError V2HotFrameProbe → Except V2RecoveryError V2ScannedFrame
  | .ok (.complete commitLen frameLen) => .ok (.commit commitLen frameLen)
  | .ok .torn => .ok (.stop .tornFinalCommit)
  | .error e => .error (.frame e)

/-- The part of a turn of the recovery in front of the apply. -/
def scanHotFrame (remaining : Bytes) : Except V2RecoveryError V2ScannedFrame :=
  if startsWithZeroReserve remaining = true then
    if allZero remaining = true then .ok (.stop .zeroReserve)
    else .error (.invalid "v2 WAL zero reserve contains nonzero trailing bytes")
  else if slice remaining 0 4 = some v2StructuralMagic then
    .error (.invalid "bare T2W2 structural transaction cannot be recovered as a commit")
  else scannedProbe (probeV2HotFrame remaining)

/-- A recovered commit has to be a new one. -/
def applyRecovered (record : Bytes) (state : V2CommittedState) :
    Except V2RecoveryError V2CommittedState :=
  match applyV2Commit sha256 record state with
  | .ok (.applied _) next => .ok next
  | .ok (.replayed _) _ =>
    .error (.invalid "v2 WAL contains a duplicate physical retry commit")
  | .ok .retiredRequest _ =>
    .error (.invalid "v2 WAL commit resolves to a retired request identity")
  | .error e _ => .error (.apply e)

/-- The state, the cursor and the count of commits between two turns. -/
structure RecoveryState where
  state : V2CommittedState
  cursor : Nat
  commitCount : Nat
deriving DecidableEq

/-- The result of a recovery that stops. -/
def finishRecovery (progress : RecoveryState) (stop : V2RecoveryStop) :
    Except V2RecoveryError V2RecoveredHotWal := do
  let logicalTail ← okOr (tryFrom 64 progress.cursor)
    (.overflow "v2 logical WAL tail exceeds u64")
  return ⟨progress.state, logicalTail, progress.commitCount, stop⟩

/-- A turn of the recovery that found a complete frame. -/
def recoverCommit (remaining : Bytes) (progress : RecoveryState) (commitLen frameLen : Nat) :
    Except V2RecoveryError RecoveryState := do
  let record ← okOr (slice remaining 0 commitLen) (.invalid "v2 commit range exceeds WAL bytes")
  let state ← applyRecovered sha256 record progress.state
  let cursor ← okOr (checkedAdd 64 progress.cursor frameLen)
    (.overflow "v2 recovery cursor exceeds usize")
  let commitCount ← okOr (checkedAdd 64 progress.commitCount 1)
    (.overflow "v2 recovery commit count exceeds u64")
  return ⟨state, cursor, commitCount⟩

def recoverFrames (bytes : Bytes) : Nat → RecoveryState → Except V2RecoveryError V2RecoveredHotWal
  | 0, _ => .error .diverged
  | fuel + 1, progress =>
    if progress.cursor < bytes.length then do
      match ← scanHotFrame (bytes.drop progress.cursor) with
      | .stop reason => finishRecovery progress reason
      | .commit commitLen frameLen => do
        let next ← recoverCommit sha256 (bytes.drop progress.cursor) progress commitLen frameLen
        recoverFrames bytes fuel next
    else finishRecovery progress .endOfBytes

/-- `recover_v2_hot_wal`. A frame is longer than zero bytes, so the fuel lasts. -/
def recoverV2HotWal (bytes : Bytes) (state : V2CommittedState) :
    Except V2RecoveryError V2RecoveredHotWal :=
  recoverFrames sha256 bytes (bytes.length + 1) ⟨state, 0, 0⟩

end Hash

end TulyaStore.V2
