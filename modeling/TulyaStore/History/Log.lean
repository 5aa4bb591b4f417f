import TulyaStore.History.Record

/-!
# The history log

Frames of the durable history log (`durable_log.rs`), the scan over them and the append
that follows it. A frame holds one record body between a header with its length and a
footer with the frame length and a digest. The scan stops at a torn tail, that is at a
frame the remaining bytes are too few for, and fails on any other defect; `append_frame`
cuts the file at the tail the scan has found before it writes.
-/

namespace TulyaStore.History

open Lib Sequence

def historyLogMagic : Bytes := ascii "THL5"

def historyLogFooterMagic : Bytes := ascii "THLF"

def historyLogHeaderSize : Nat := 12

def historyLogFooterSize : Nat := 44

def historyLogDigestDomain : Bytes := ascii "tulya-history/v1/log-frame\x00"

section Frames

variable (sha256 : Bytes → Digest)

def frameDigest (bytes : Bytes) : Digest := sha256 (historyLogDigestDomain ++ bytes)

/-- What the digest of a frame covers. -/
def framePrefix (body : Bytes) : Bytes :=
  historyLogMagic ++ leBytes 8 body.length ++ body ++ historyLogFooterMagic ++
    leBytes 8 (body.length + (historyLogHeaderSize + historyLogFooterSize))

def encodeHistoryLogFrame (body : Bytes) : Except HistoryError Bytes := do
  let _ ← okOr (checkedAdd 64 body.length (historyLogHeaderSize + historyLogFooterSize))
    (.overflow "history log frame length exceeds usize")
  return framePrefix body ++ (frameDigest sha256 (framePrefix body)).toList

inductive FrameProbe where
  | complete (body : Bytes) (consumed : Nat)
  | torn
deriving DecidableEq, Repr

def probeHistoryLogFrame (bytes : Bytes) : Except HistoryError FrameProbe :=
  if bytes.length < historyLogMagic.length then .ok .torn
  else if bytes.take 4 ≠ historyLogMagic then .error (.invalid "history log frame magic mismatch")
  else if bytes.length < historyLogHeaderSize then .ok .torn
  else do
    let bodyLen ← okOr (readLe 8 bytes 4) (.invalid "history log body length is truncated")
    let frameLen ← okOr (checkedAdd 64 bodyLen (historyLogHeaderSize + historyLogFooterSize))
      (.overflow "history log frame length exceeds usize")
    if frameLen > bytes.length then return .torn
    else
      let body ← okOr (slice bytes historyLogHeaderSize (historyLogHeaderSize + bodyLen))
        (.invalid "history log body range is truncated")
      let footer ← okOr (slice bytes (historyLogHeaderSize + bodyLen) frameLen)
        (.invalid "history log footer range is truncated")
      failIf (footer.take 4 ≠ historyLogFooterMagic)
        (.invalid "history log footer magic mismatch")
      let storedLen ← okOr (readLe 8 footer 4) (.invalid "history log frame length is truncated")
      failIf (storedLen ≠ frameLen)
        (.invalid "history log frame length disagrees with its footer")
      failIf (slice footer 12 44 ≠
          some (frameDigest sha256 (bytes.take (frameLen - 32))).toList)
        (.invalid "history log frame digest mismatch")
      return .complete body frameLen

/-- The scan loop of `decode_history_log` from an offset, with the records so far. Every
turn passes a complete frame, so the number of bytes bounds the turns. -/
def decodeFrames (bytes : Bytes) :
    Nat → Nat → List HistoryLogRecord → Except HistoryError (List HistoryLogRecord × Nat)
  | 0, offset, records => .ok (records, offset)
  | fuel + 1, offset, records =>
    if offset < bytes.length then do
      match ← probeHistoryLogFrame sha256 (bytes.drop offset) with
      | .torn => return (records, offset)
      | .complete body consumed =>
        let record ← decodeHistoryLogRecord body
        let next ← okOr (checkedAdd 64 offset consumed)
          (.overflow "history log recovery offset exceeds usize")
        decodeFrames bytes fuel next (records ++ [record])
    else .ok (records, offset)

def decodeHistoryLog (bytes : Bytes) : Except HistoryError (List HistoryLogRecord × Nat) := do
  let (records, offset) ← decodeFrames sha256 bytes bytes.length 0 []
  let consumed ← okOr (tryFrom 64 offset)
    (.overflow "history log recovery offset exceeds u64")
  return (records, consumed)

def scanLogTail (bytes : Bytes) : Except HistoryError Nat := do
  let (_, consumed) ← decodeHistoryLog sha256 bytes
  return consumed

/-- The file behind a log handle and the logical tail its opening has found. -/
structure DurableHistoryLog where
  file : Bytes
  tail : Nat
deriving DecidableEq, Repr

/-- `DurableHistoryLog::open_write` on the bytes of the file. -/
def DurableHistoryLog.openWrite (file : Bytes) : Except HistoryError DurableHistoryLog := do
  let tail ← scanLogTail sha256 file
  return ⟨file, tail⟩

/-- `append_frame`: the file is cut at the tail and the frame written there. -/
def DurableHistoryLog.appendFrame (log : DurableHistoryLog) (frame : Bytes) :
    Option DurableHistoryLog := do
  let advanced ← checkedAdd 64 log.tail frame.length
  return ⟨log.file.take log.tail ++ frame, advanced⟩

/-- The log of a list of records: their frames one after the other. -/
def encodeHistoryLog : List HistoryLogRecord → Except HistoryError Bytes
  | [] => .ok []
  | record :: records => do
    let body ← encodeHistoryLogRecord record
    let frame ← encodeHistoryLogFrame sha256 body
    let rest ← encodeHistoryLog records
    return frame ++ rest

end Frames

end TulyaStore.History
