import TulyaStore.Checkpoint.RecordCodec
import TulyaStore.Checkpoint.Segment

/-!
# Segments hold what was pushed

`WriterOk` is the invariant of the streaming writer: the blocks written for a stream decompress
to the data pushed to it, up to what still sits in its buffer. `segmentHolds_finalize` is the
round trip: reading the finished file appends to every stream exactly the data pushed to it.
-/

namespace TulyaStore.Checkpoint

open Lib

variable {P : Primitives}

/-! ## Blocks -/

/-- The block in the payload holds these raw bytes. -/
structure BlockHolds (P : Primitives) (level : Int) (payload : Bytes) (rawOffset : Nat)
    (block : LocalBlock) (raw : Bytes) : Prop where
  rawOffset : block.rawOffset = rawOffset
  rawLen : block.rawLen = raw.length
  rawLt : raw.length < 2 ^ 32
  encodedLt : block.encodedLen < 2 ^ 32
  encoded : slice payload block.encodedOffset (block.encodedOffset + block.encodedLen) =
    some (P.compress level raw)
  hash : block.rawHash = P.xxh3 raw

/-- The blocks of a stream hold these pieces, the first of which starts at the raw offset. -/
def BlocksHold (P : Primitives) (level : Int) (payload : Bytes) :
    Nat → List LocalBlock → List Bytes → Prop
  | _, [], [] => True
  | offset, block :: blocks, raw :: raws =>
    BlockHolds P level payload offset block raw ∧
      BlocksHold P level payload (offset + raw.length) blocks raws
  | _, _, _ => False

section Blocks

variable {level : Int} {payload : Bytes}

theorem BlockHolds.mono {payload' : Bytes} {offset : Nat} {block : LocalBlock} {raw : Bytes}
    (h : BlockHolds P level payload offset block raw) (hp : payload <+: payload') :
    BlockHolds P level payload' offset block raw := by
  obtain ⟨rest, rfl⟩ := hp
  exact { h with encoded := slice_append h.encoded }

theorem BlocksHold.mono {payload' : Bytes} (hp : payload <+: payload') {offset : Nat}
    {blocks : List LocalBlock} {raws : List Bytes}
    (h : BlocksHold P level payload offset blocks raws) :
    BlocksHold P level payload' offset blocks raws := by
  induction blocks generalizing offset raws with
  | nil =>
    cases raws with
    | nil => trivial
    | cons raw raws => exact h.elim
  | cons block blocks ih =>
    cases raws with
    | nil => exact h.elim
    | cons raw raws => exact ⟨h.1.mono hp, ih h.2⟩

theorem BlocksHold.append {offset : Nat} {blocks : List LocalBlock} {raws : List Bytes}
    (h : BlocksHold P level payload offset blocks raws) {block : LocalBlock} {raw : Bytes}
    (hb : BlockHolds P level payload (offset + raws.flatten.length) block raw) :
    BlocksHold P level payload offset (blocks ++ [block]) (raws ++ [raw]) := by
  induction blocks generalizing offset raws with
  | nil =>
    cases raws with
    | nil => exact ⟨by simpa using hb, trivial⟩
    | cons raw raws => exact h.elim
  | cons b blocks ih =>
    cases raws with
    | nil => exact h.elim
    | cons r raws =>
      refine ⟨h.1, ih h.2 ?_⟩
      simpa [Nat.add_assoc] using hb

theorem BlocksHold.length {offset : Nat} {blocks : List LocalBlock} {raws : List Bytes}
    (h : BlocksHold P level payload offset blocks raws) : blocks.length = raws.length := by
  induction blocks generalizing offset raws with
  | nil =>
    cases raws with
    | nil => rfl
    | cons raw raws => exact h.elim
  | cons b blocks ih =>
    cases raws with
    | nil => exact h.elim
    | cons r raws => simp [ih h.2]

end Blocks

/-! ## The writer -/

/-- A stream of the writer: its blocks and buffer hold what it was fed, up to `pending`. -/
structure StreamHolds (P : Primitives) (level : Int) (payload : Bytes) (state : StreamState)
    (raws : List Bytes) (pending : Bytes) : Prop where
  blocks : BlocksHold P level payload 0 state.blocks raws
  hashed : state.hashed = raws.flatten ++ state.rawBuf ++ pending
  flushed : state.flushedRawLen = raws.flatten.length
  rawLen : state.rawLen = state.hashed.length
  rawLt : state.rawLen < 2 ^ 64

structure WriterOk (P : Primitives) (w : StreamingSegmentWriter) (pending : Column → Bytes) :
    Prop where
  streams : ∀ c, ∃ raws, StreamHolds P w.zstdLevel w.payload (w.states c) raws (pending c)
  payloadBytes : w.payloadBytes = w.payload.length
  payloadLt : w.payload.length < 2 ^ 64

/-- Nothing has been pushed and not yet stored. -/
def noPending : Column → Bytes := fun _ => []

/-- The writers agree on their settings and on what each stream was fed. -/
structure SameFeed (w w' : StreamingSegmentWriter) : Prop where
  streamStarts : w'.streamStarts = w.streamStarts
  blockSize : w'.blockSize = w.blockSize
  zstdLevel : w'.zstdLevel = w.zstdLevel
  generation : w'.generation = w.generation
  checkpointStart : w'.checkpointStart = w.checkpointStart
  versionStart : w'.versionStart = w.versionStart
  hashed : ∀ c, (w'.states c).hashed = (w.states c).hashed

theorem SameFeed.refl (w : StreamingSegmentWriter) : SameFeed w w :=
  ⟨rfl, rfl, rfl, rfl, rfl, rfl, fun _ => rfl⟩

theorem SameFeed.trans {w w' w'' : StreamingSegmentWriter} (h : SameFeed w w')
    (h' : SameFeed w' w'') : SameFeed w w'' :=
  ⟨h'.streamStarts.trans h.streamStarts, h'.blockSize.trans h.blockSize,
    h'.zstdLevel.trans h.zstdLevel, h'.generation.trans h.generation,
    h'.checkpointStart.trans h.checkpointStart, h'.versionStart.trans h.versionStart,
    fun c => (h'.hashed c).trans (h.hashed c)⟩

section Writer

variable {w w' : StreamingSegmentWriter} {c : Column} {pending : Column → Bytes}

theorem WriterOk.new (generation : Nat) (starts : Column → Nat) (checkpointStart versionStart : Nat)
    (blockSize : Nat) (level : Int) :
    WriterOk P (.new generation starts checkpointStart versionStart blockSize level) noPending where
  streams := fun _ => ⟨[], trivial, rfl, rfl, rfl, Nat.two_pow_pos 64⟩
  payloadBytes := rfl
  payloadLt := Nat.two_pow_pos 64

theorem flushStreamBlock_spec (h : WriterOk P w pending)
    (hFlush : w.flushStreamBlock P c = .ok w') :
    WriterOk P w' pending ∧ SameFeed w w' ∧ (w'.states c).rawBuf = [] ∧
      ∀ d, (w.states d).rawBuf = [] → (w'.states d).rawBuf = [] := by
  simp only [StreamingSegmentWriter.flushStreamBlock] at hFlush
  split at hFlush
  case isTrue hEmpty =>
    obtain rfl := Except.ok.inj hFlush
    exact ⟨h, .refl w, by simpa using hEmpty, fun _ hd => hd⟩
  case isFalse hNonempty =>
    simp only [bind_eq_ok, okOr_eq_ok, tryFrom_eq_some, checkedAdd_eq_some, width,
      Except.ok.injEq] at hFlush
    obtain ⟨_, ⟨hRaw, rfl⟩, _, ⟨hEncoded, rfl⟩, _, ⟨_, rfl⟩, _, ⟨hPayload, rfl⟩, rfl⟩ := hFlush
    rw [h.payloadBytes] at hPayload ⊢
    have hPrefix : w.payload <+: w.payload ++ P.compress w.zstdLevel (w.states c).rawBuf :=
      List.prefix_append _ _
    refine ⟨⟨?_, by simp, by simpa using hPayload⟩, ⟨rfl, rfl, rfl, rfl, rfl, rfl, ?_⟩, ?_, ?_⟩
    · intro d
      by_cases hd : d = c
      · subst hd
        obtain ⟨raws, hs⟩ := h.streams d
        refine ⟨raws ++ [(w.states d).rawBuf], ?_⟩
        simp only [StreamingSegmentWriter.setState, Function.update_self]
        refine ⟨(hs.blocks.mono hPrefix).append ?_, ?_, ?_, hs.rawLen, hs.rawLt⟩
        · refine ⟨?_, rfl, hRaw, hEncoded, slice_append_self, rfl⟩
          simpa using hs.flushed
        · rw [hs.hashed]
          simp
        · rw [hs.flushed]
          simp
      · obtain ⟨raws, hs⟩ := h.streams d
        simp only [StreamingSegmentWriter.setState, Function.update_of_ne hd]
        exact ⟨raws, { hs with blocks := hs.blocks.mono hPrefix }⟩
    · intro d
      by_cases hd : d = c
      · subst hd
        simp [StreamingSegmentWriter.setState]
      · simp [StreamingSegmentWriter.setState, Function.update_of_ne hd]
    · simp [StreamingSegmentWriter.setState]
    · intro d hd
      by_cases hdc : d = c
      · subst hdc
        simp [StreamingSegmentWriter.setState]
      · simpa [StreamingSegmentWriter.setState, Function.update_of_ne hdc] using hd

/-- The data of one push waits to be stored. -/
def pendingAt (c : Column) (data : Bytes) : Column → Bytes := Function.update noPending c data

theorem pendingAt_nil (c : Column) : pendingAt c [] = noPending := Function.update_eq_self c noPending

/-- Moving a piece of the pending data into the buffer. -/
theorem WriterOk.fill {data : Bytes} (h : WriterOk P w (pendingAt c data)) (take : Nat) :
    WriterOk P (w.setState c { w.states c with rawBuf := (w.states c).rawBuf ++ data.take take })
        (pendingAt c (data.drop take)) ∧
      SameFeed w (w.setState c { w.states c with
        rawBuf := (w.states c).rawBuf ++ data.take take }) := by
  refine ⟨⟨?_, h.payloadBytes, h.payloadLt⟩, ⟨rfl, rfl, rfl, rfl, rfl, rfl, ?_⟩⟩
  · intro d
    obtain ⟨raws, hs⟩ := h.streams d
    by_cases hd : d = c
    · subst hd
      simp only [pendingAt, Function.update_self, StreamingSegmentWriter.setState] at hs ⊢
      refine ⟨raws, hs.blocks, ?_, hs.flushed, hs.rawLen, hs.rawLt⟩
      simpa using hs.hashed
    · simp only [pendingAt, Function.update_of_ne hd, StreamingSegmentWriter.setState] at hs ⊢
      exact ⟨raws, hs⟩
  · intro d
    by_cases hd : d = c
    · subst hd
      simp [StreamingSegmentWriter.setState]
    · simp [StreamingSegmentWriter.setState, Function.update_of_ne hd]

theorem pushLoop_spec {fuel : Nat} {data : Bytes} (h : WriterOk P w (pendingAt c data))
    (hLoop : StreamingSegmentWriter.pushLoop P c fuel data w = .ok w') :
    WriterOk P w' noPending ∧ SameFeed w w' := by
  induction fuel generalizing data w with
  | zero =>
    unfold StreamingSegmentWriter.pushLoop at hLoop
    split at hLoop
    case isTrue hEmpty =>
      obtain rfl := Except.ok.inj hLoop
      obtain rfl : data = [] := by simpa using hEmpty
      exact ⟨pendingAt_nil c ▸ h, .refl w⟩
    case isFalse => cases hLoop
  | succ fuel ih =>
    unfold StreamingSegmentWriter.pushLoop at hLoop
    split at hLoop
    case isTrue hEmpty =>
      obtain rfl := Except.ok.inj hLoop
      obtain rfl : data = [] := by simpa using hEmpty
      exact ⟨pendingAt_nil c ▸ h, .refl w⟩
    case isFalse =>
      obtain ⟨next, hNext, hRest⟩ := bind_eq_ok.mp hLoop
      set take := min (w.blockSize - (w.states c).rawBuf.length) data.length
      obtain ⟨hFilled, hSame⟩ := h.fill take
      have hStep : WriterOk P next (pendingAt c (data.drop take)) ∧ SameFeed w next := by
        unfold StreamingSegmentWriter.flushIfFull at hNext
        split at hNext
        case isTrue =>
          obtain ⟨hOk, hSame', _⟩ := flushStreamBlock_spec hFilled hNext
          exact ⟨hOk, hSame.trans hSame'⟩
        case isFalse =>
          obtain rfl := Except.ok.inj hNext
          exact ⟨hFilled, hSame⟩
      obtain ⟨hOk, hSame'⟩ := ih hStep.1 hRest
      exact ⟨hOk, hStep.2.trans hSame'⟩

/-- `push` feeds one stream and nothing else. -/
structure Fed (w w' : StreamingSegmentWriter) (c : Column) (data : Bytes) : Prop where
  streamStarts : w'.streamStarts = w.streamStarts
  blockSize : w'.blockSize = w.blockSize
  zstdLevel : w'.zstdLevel = w.zstdLevel
  generation : w'.generation = w.generation
  checkpointStart : w'.checkpointStart = w.checkpointStart
  versionStart : w'.versionStart = w.versionStart
  hashed : ∀ d, (w'.states d).hashed =
    if d = c then (w.states d).hashed ++ data else (w.states d).hashed

theorem push_spec {data : Bytes} (h : WriterOk P w noPending) (hPush : w.push P c data = .ok w') :
    WriterOk P w' noPending ∧ Fed w w' c data := by
  unfold StreamingSegmentWriter.push at hPush
  simp only [bind_eq_ok, okOr_eq_ok, checkedAdd_eq_some, width] at hPush
  obtain ⟨_, ⟨hLt, rfl⟩, hLoop⟩ := hPush
  have hStart : WriterOk P (w.setState c { w.states c with
      rawLen := (w.states c).rawLen + data.length,
      hashed := (w.states c).hashed ++ data }) (pendingAt c data) := by
    refine ⟨?_, h.payloadBytes, h.payloadLt⟩
    intro d
    obtain ⟨raws, hs⟩ := h.streams d
    by_cases hd : d = c
    · subst hd
      simp only [pendingAt, Function.update_self, StreamingSegmentWriter.setState]
      refine ⟨raws, hs.blocks, ?_, hs.flushed, ?_, hLt⟩
      · have hHashed := hs.hashed
        simp only [noPending, List.append_nil] at hHashed
        simp [hHashed]
      · rw [List.length_append, hs.rawLen]
    · simp only [pendingAt, Function.update_of_ne hd, StreamingSegmentWriter.setState]
      exact ⟨raws, hs⟩
  obtain ⟨hOk, hSame⟩ := pushLoop_spec hStart hLoop
  refine ⟨hOk, hSame.streamStarts, hSame.blockSize, hSame.zstdLevel, hSame.generation,
    hSame.checkpointStart, hSame.versionStart, ?_⟩
  intro d
  rw [hSame.hashed d]
  by_cases hd : d = c
  · subst hd
    simp [StreamingSegmentWriter.setState]
  · simp [StreamingSegmentWriter.setState, hd]

theorem flushAll_spec {cs : List Column} (h : WriterOk P w noPending)
    (hFlush : w.flushAll P cs = .ok w') :
    WriterOk P w' noPending ∧ SameFeed w w' ∧ (∀ d ∈ cs, (w'.states d).rawBuf = []) ∧
      ∀ d, (w.states d).rawBuf = [] → (w'.states d).rawBuf = [] := by
  induction cs generalizing w with
  | nil =>
    obtain rfl := Except.ok.inj hFlush
    exact ⟨h, .refl w, by simp, fun _ hd => hd⟩
  | cons c cs ih =>
    obtain ⟨next, hNext, hRest⟩ := bind_eq_ok.mp hFlush
    obtain ⟨hOk, hSame, hEmpty, hKeep⟩ := flushStreamBlock_spec h hNext
    obtain ⟨hOk', hSame', hAll, hKeep'⟩ := ih hOk hRest
    refine ⟨hOk', hSame.trans hSame', ?_, fun d hd => hKeep' d (hKeep d hd)⟩
    intro d hd
    obtain rfl | hd := List.mem_cons.mp hd
    · exact hKeep' _ hEmpty
    · exact hAll d hd

end Writer

/-! ## Tables -/

theorem readLe_at {w o k base : Nat} {data x : Bytes}
    (h : slice data base (base + k) = some x) (ho : o + w ≤ k) :
    readLe w data (base + o) = readLe w x o := by
  have hLen := length_of_slice h
  rw [Nat.add_sub_cancel_left] at hLen
  have hOuter := slice_slice h (Nat.le_add_right o w) (by omega)
  have hInner : slice x o (o + w) = some ((x.drop o).take (o + w - o)) :=
    slice_eq_some.mpr ⟨by omega, by omega, rfl⟩
  rw [readLe, readLe, Nat.add_assoc, hOuter, hInner]

structure StreamEntry.Fits (e : StreamEntry) : Prop where
  globalStart : e.globalStart < 256 ^ 8
  globalEnd : e.globalEnd < 256 ^ 8
  rawLen : e.rawLen < 256 ^ 8
  firstBlock : e.firstBlock < 256 ^ 4
  blockCount : e.blockCount < 256 ^ 4

structure BlockEntry.Fits (e : BlockEntry) : Prop where
  streamId : e.streamId < 256 ^ 4
  rawOffset : e.rawOffset < 256 ^ 8
  encodedOffset : e.encodedOffset < 256 ^ 8
  rawLen : e.rawLen < 256 ^ 4
  encodedLen : e.encodedLen < 256 ^ 4

@[simp] theorem StreamEntry.length_bytes (e : StreamEntry) : e.bytes.length = streamEntrySize := by
  simp [StreamEntry.bytes, streamEntrySize]

@[simp] theorem BlockEntry.length_bytes (e : BlockEntry) : e.bytes.length = blockEntrySize := by
  simp [BlockEntry.bytes, blockEntrySize]

theorem toNat_lt_256 (x : UInt64) : x.toNat < 256 ^ 8 := by
  have hLt := x.toNat_lt
  omega

theorem readStreamEntry_at {index : Bytes} {base : Nat} {e : StreamEntry} (hf : e.Fits)
    (h : slice index base (base + streamEntrySize) = some e.bytes) :
    readStreamEntry index base = .ok e := by
  obtain ⟨h1, h2, h3, h4, h5⟩ := hf
  have h6 := toNat_lt_256 e.rawHash
  have hRead : ∀ w o, o + w ≤ streamEntrySize →
      readLe w index (base + o) = readLe w e.bytes o := fun w o ho => readLe_at h ho
  have hZero : readLe 8 index base = readLe 8 e.bytes 0 := hRead 8 0 (by decide)
  have hLast : readLe 8 e.bytes 32 = some e.rawHash.toNat := by
    simp only [StreamEntry.bytes, List.append_assoc, readLe_leBytes_skip, Nat.reduceLeDiff,
      Nat.reduceSub]
    have hHere := readLe_here [] h6
    rwa [List.append_nil] at hHere
  simp only [readStreamEntry, readU32, readU64]
  rw [hZero, hRead 8 8 (by decide), hRead 8 16 (by decide), hRead 4 24 (by decide),
    hRead 4 28 (by decide), hRead 8 32 (by decide), hLast]
  simp only [StreamEntry.bytes, List.append_assoc, readLe_leBytes_skip, readLe_here,
    Nat.reduceLeDiff, Nat.reduceSub, h1, h2, h3, h4, h5, okOr_some, ok_bind, UInt64.ofNat_toNat]

theorem readBlockEntry_at {index : Bytes} {base : Nat} {e : BlockEntry} (hf : e.Fits)
    (h : slice index base (base + blockEntrySize) = some e.bytes) :
    readBlockEntry index base = .ok e := by
  obtain ⟨h1, h2, h3, h4, h5⟩ := hf
  have h6 := toNat_lt_256 e.rawHash
  have hRead : ∀ w o, o + w ≤ blockEntrySize →
      readLe w index (base + o) = readLe w e.bytes o := fun w o ho => readLe_at h ho
  have hZero : readLe 4 index base = readLe 4 e.bytes 0 := hRead 4 0 (by decide)
  have hLast : readLe 8 e.bytes 32 = some e.rawHash.toNat := by
    simp only [BlockEntry.bytes, List.append_assoc, readLe_leBytes_skip, Nat.reduceLeDiff,
      Nat.reduceSub]
    have hHere := readLe_here [] h6
    rwa [List.append_nil] at hHere
  simp only [readBlockEntry, readU32, readU64]
  rw [hZero, hRead 8 8 (by decide), hRead 8 16 (by decide), hRead 4 24 (by decide),
    hRead 4 28 (by decide), hRead 8 32 (by decide), hLast]
  simp only [BlockEntry.bytes, List.append_assoc, readLe_leBytes_skip, readLe_here,
    Nat.reduceLeDiff, Nat.reduceSub, h1, h2, h3, h4, h5, okOr_some, ok_bind, UInt64.ofNat_toNat]

/-- An entry the stream-table check accepts. -/
def StreamEntry.InTable (blockCount : Nat) (e : StreamEntry) : Prop :=
  e.globalStart ≤ e.globalEnd ∧ e.rawLen = e.globalEnd - e.globalStart ∧
    e.firstBlock + e.blockCount ≤ blockCount

/-- An entry the block-table check accepts. -/
def BlockEntry.InTable (payloadBytes : Nat) (e : BlockEntry) : Prop :=
  e.streamId < streamCount ∧ e.encodedOffset + e.encodedLen ≤ payloadBytes

theorem readStreamTable_eq {entries : List StreamEntry} {post : Bytes} {blockCount : Nat}
    (hFits : ∀ e ∈ entries, e.Fits ∧ e.InTable blockCount) (count i : Nat)
    (hLen : i + count = entries.length) :
    readStreamTable ((entries.map StreamEntry.bytes).flatten ++ post) blockCount count i =
      .ok (entries.drop i) := by
  induction count generalizing i with
  | zero =>
    rw [List.drop_eq_nil_of_le (by omega)]
    rfl
  | succ count ih =>
    have hi : i < entries.length := by omega
    obtain ⟨hf, hOrder, hRaw, hBlocks⟩ := hFits entries[i] (List.getElem_mem hi)
    have hRecord : slice ((entries.map StreamEntry.bytes).flatten ++ post) (i * streamEntrySize)
        (i * streamEntrySize + streamEntrySize) = some entries[i].bytes := by
      refine slice_record ?_ ?_ post
      · intro x hx
        obtain ⟨e, _, rfl⟩ := List.mem_map.mp hx
        exact e.length_bytes
      · rw [List.getElem?_map, List.getElem?_eq_getElem hi]
        rfl
    rw [readStreamTable, readStreamEntry_at hf hRecord, ok_bind, failIf_neg (by omega), ok_bind,
      ih (i + 1) (by omega), ok_bind, ← List.drop_eq_getElem_cons hi]

theorem readBlockTable_eq {entries : List BlockEntry} {pre : Bytes} {payloadBytes : Nat}
    (hPayload : payloadBytes < 2 ^ 64)
    (hFits : ∀ e ∈ entries, e.Fits ∧ e.InTable payloadBytes) (count i : Nat)
    (hLen : i + count = entries.length) :
    readBlockTable (pre ++ (entries.map BlockEntry.bytes).flatten) pre.length payloadBytes count i =
      .ok (entries.drop i) := by
  induction count generalizing i with
  | zero =>
    rw [List.drop_eq_nil_of_le (by omega)]
    rfl
  | succ count ih =>
    have hi : i < entries.length := by omega
    obtain ⟨hf, hStream, hEnd⟩ := hFits entries[i] (List.getElem_mem hi)
    have hRecord : slice (pre ++ (entries.map BlockEntry.bytes).flatten)
        (pre.length + i * blockEntrySize) (pre.length + i * blockEntrySize + blockEntrySize) =
        some entries[i].bytes := by
      rw [Nat.add_assoc, slice_skip]
      have hAt := @slice_record _ blockEntrySize (entries.map BlockEntry.bytes) ?_ i
        entries[i].bytes ?_ []
      · rwa [List.append_nil] at hAt
      · intro x hx
        obtain ⟨e, _, rfl⟩ := List.mem_map.mp hx
        exact e.length_bytes
      · rw [List.getElem?_map, List.getElem?_eq_getElem hi]
        rfl
    have hSum : checkedAdd 64 entries[i].encodedOffset entries[i].encodedLen =
        some (entries[i].encodedOffset + entries[i].encodedLen) :=
      checkedAdd_of_lt (by rw [width]; omega)
    rw [readBlockTable, readBlockEntry_at hf hRecord, ok_bind, hSum, okOr_some, ok_bind,
      failIf_neg (by omega), ok_bind, ih (i + 1) (by omega), ok_bind,
      ← List.drop_eq_getElem_cons hi]

/-! ## The header -/

/-- Decompression to the raw length inverts compression. -/
def CodecOk (P : Primitives) : Prop :=
  ∀ level raw, P.decompress (P.compress level raw) raw.length = some raw

/-- Every field fits the width it is written in. -/
structure SegmentHeader.Fits (h : SegmentHeader) : Prop where
  generation : h.generation < 256 ^ 8
  checkpointStartCount : h.checkpointStartCount < 256 ^ 8
  checkpointEndCount : h.checkpointEndCount < 256 ^ 8
  versionStartCount : h.versionStartCount < 256 ^ 8
  versionEndCount : h.versionEndCount < 256 ^ 8
  blockSize : h.blockSize < 256 ^ 4
  blockCount : h.blockCount < 256 ^ 4
  payloadOffset : h.payloadOffset < 256 ^ 8
  payloadBytes : h.payloadBytes < 256 ^ 8
  indexOffset : h.indexOffset < 256 ^ 8
  streamTableBytes : h.streamTableBytes < 256 ^ 8
  blockTableBytes : h.blockTableBytes < 256 ^ 8

/-- The sections of the file lie where the checks expect them. -/
structure SegmentHeader.Laid (h : SegmentHeader) : Prop where
  blockSize : 0 < h.blockSize
  payloadOffset : h.payloadOffset = segmentHeaderSize
  indexOffset : h.indexOffset = segmentHeaderSize + h.payloadBytes
  streamTableBytes : h.streamTableBytes = streamCount * streamEntrySize
  blockTableBytes : h.blockTableBytes = h.blockCount * blockEntrySize

theorem readLe_segmentMagic {w off : Nat} (ys : Bytes) (h : 8 ≤ off) :
    readLe w (segmentMagic ++ ys) off = readLe w ys (off - 8) :=
  readLe_skip segmentMagic ys h

theorem SegmentHeader.length_body (h : SegmentHeader) : h.body.length = 112 := by
  simp only [SegmentHeader.body, List.length_append, length_leBytes]
  rfl

@[simp] theorem length_segmentHeaderBytes (h : SegmentHeader) :
    (segmentHeaderBytes P h).length = segmentHeaderSize := by
  rw [segmentHeaderBytes, length_withChecksum, h.length_body]
  rfl

theorem parseSegmentHeader_eq {h : SegmentHeader} (hf : h.Fits) (hl : h.Laid) :
    parseSegmentHeader P (segmentHeaderBytes P h) = .ok h := by
  obtain ⟨h1, h2, h3, h4, h5, h6, h7, h8, h9, h10, h11, h12⟩ := hf
  have h13 := toNat_lt_256 h.indexHash
  have hMagic : (segmentHeaderBytes P h).take 8 = segmentMagic := rfl
  have hBody : (segmentHeaderBytes P h).take 112 = h.body := by
    rw [segmentHeaderBytes, ← h.length_body, take_withChecksum]
  have hSum : readU64 (segmentHeaderBytes P h) 112 = .ok (P.xxh3 h.body).toNat := by
    have hRead := readU64_withChecksum (P := P) h.body
    rwa [h.length_body] at hRead
  have hVersion : segmentFormatVersion < 256 ^ 4 := by decide
  have hStreams : streamCount < 256 ^ 4 := by decide
  have hSkip : ∀ {w off v : Nat}, readLe w h.body off = some v →
      readLe w (segmentHeaderBytes P h) off = some v := fun hr => readLe_append hr
  have hU32 : ∀ {off v : Nat}, readLe 4 h.body off = some v →
      readU32 (segmentHeaderBytes P h) off = .ok v := fun hr => readU32_of (hSkip hr)
  have hU64 : ∀ {off v : Nat}, readLe 8 h.body off = some v →
      readU64 (segmentHeaderBytes P h) off = .ok v := fun hr => readU64_of (hSkip hr)
  have hIndexHash : readLe 8 h.body 104 = some h.indexHash.toNat := by
    simp only [SegmentHeader.body, List.append_assoc, readLe_segmentMagic, readLe_leBytes_skip,
      Nat.reduceLeDiff, Nat.reduceSub, readLe_last h13]
  have hIndex : checkedAdd 64 h.payloadOffset h.payloadBytes = some h.indexOffset := by
    rw [hl.indexOffset, ← hl.payloadOffset]
    refine checkedAdd_of_lt ?_
    rw [width, hl.payloadOffset, ← hl.indexOffset]
    omega
  have hTable : checkedMul 64 h.blockCount blockEntrySize = some h.blockTableBytes := by
    rw [hl.blockTableBytes]
    refine tryFrom_of_lt ?_
    rw [width, ← hl.blockTableBytes]
    omega
  have hBlockSize := hl.blockSize
  unfold parseSegmentHeader
  rw [failIf_neg (by rw [length_segmentHeaderBytes, hMagic]; simp), ok_bind,
    hU32 (v := segmentFormatVersion), ok_bind, failIf_neg (by simp), ok_bind,
    hU32 (v := streamCount), ok_bind, failIf_neg (by simp), ok_bind,
    hU64 (v := h.generation), ok_bind, hU64 (v := h.checkpointStartCount), ok_bind,
    hU64 (v := h.checkpointEndCount), ok_bind, hU64 (v := h.versionStartCount), ok_bind,
    hU64 (v := h.versionEndCount), ok_bind, hU32 (v := h.blockSize), ok_bind,
    hU32 (v := h.blockCount), ok_bind, hU64 (v := h.payloadOffset), ok_bind,
    hU64 (v := h.payloadBytes), ok_bind, hU64 (v := h.indexOffset), ok_bind,
    hU64 (v := h.streamTableBytes), ok_bind, hU64 (v := h.blockTableBytes), ok_bind,
    hU64 hIndexHash, ok_bind, hSum, ok_bind, hBody, failIf_neg (by simp), ok_bind,
    failIf_neg (by rw [hl.payloadOffset]; omega), ok_bind, hIndex, okOr_some, ok_bind,
    failIf_neg (by rw [hl.streamTableBytes]; simp), ok_bind, hTable, okOr_some, ok_bind,
    failIf_neg (by simp), ok_bind, UInt64.ofNat_toNat]
  all_goals
    simp only [SegmentHeader.body, List.append_assoc, readLe_segmentMagic, readLe_leBytes_skip,
      readLe_here, Nat.reduceLeDiff, Nat.reduceSub, Nat.le_refl, Nat.sub_self, hVersion, hStreams,
      h1, h2, h3, h4, h5, h6, h7, h8, h9, h10, h11, h12]

/-! ## Reading the blocks back -/

section Back

variable {w : StreamingSegmentWriter} {c : Column}

/-- The table entry of a block of a stream. -/
def LocalBlock.entry (c : Column) (block : LocalBlock) : BlockEntry :=
  { streamId := c.id, rawOffset := block.rawOffset, encodedOffset := block.encodedOffset,
    rawLen := block.rawLen, encodedLen := block.encodedLen, rawHash := block.rawHash }

theorem blockEntries_eq (w : StreamingSegmentWriter) (c : Column) :
    w.blockEntries c = (w.states c).blocks.map (LocalBlock.entry c) := rfl

theorem readBlocks_eq (hCodec : CodecOk P) {level : Int} {header : SegmentHeader}
    {head payload tail : Bytes} (hHead : head.length = segmentHeaderSize)
    (hOffset : header.payloadOffset = segmentHeaderSize)
    (hLt : (head ++ payload ++ tail).length < 2 ^ 64) {offset : Nat} {blocks : List LocalBlock}
    {raws : List Bytes} (h : BlocksHold P level payload offset blocks raws) :
    readBlocks P (head ++ payload ++ tail) header c.id (blocks.map (LocalBlock.entry c)) =
      .ok raws.flatten := by
  induction blocks generalizing offset raws with
  | nil =>
    cases raws with
    | nil => rfl
    | cons raw raws => exact h.elim
  | cons block blocks ih =>
    cases raws with
    | nil => exact h.elim
    | cons raw raws =>
      obtain ⟨hb, hRest⟩ := h
      have hIn : block.encodedOffset + block.encodedLen ≤ payload.length :=
        (slice_eq_some.mp hb.encoded).2.1
      simp only [List.length_append] at hLt
      have hStart : checkedAdd 64 header.payloadOffset (block.entry c).encodedOffset =
          some (head.length + block.encodedOffset) := by
        rw [hOffset, ← hHead]
        exact checkedAdd_of_lt (show head.length + block.encodedOffset < 2 ^ 64 by omega)
      have hRead : readExact (head ++ payload ++ tail) (head.length + block.encodedOffset)
          (block.entry c).encodedLen = .ok (P.compress level raw) := by
        rw [readExact, List.append_assoc, Nat.add_assoc, slice_skip, LocalBlock.entry,
          slice_append hb.encoded, okOr_some]
      have hRaw : P.decompress (P.compress level raw) (block.entry c).rawLen = some raw := by
        rw [LocalBlock.entry, hb.rawLen]
        exact hCodec level raw
      rw [List.map_cons, readBlocks, failIf_neg (by simp [LocalBlock.entry]), ok_bind, hStart,
        okOr_some, ok_bind, hRead, ok_bind, hRaw, okOr_some, ok_bind,
        failIf_neg (by simp [LocalBlock.entry, hb.hash, hb.rawLen]), ok_bind, ih hRest, ok_bind,
        List.flatten_cons]

theorem WriterOk.pieces (h : WriterOk P w noPending) (hEmpty : (w.states c).rawBuf = []) :
    ∃ raws, BlocksHold P w.zstdLevel w.payload 0 (w.states c).blocks raws ∧
      (w.states c).hashed = raws.flatten ∧ (w.states c).rawLen = (w.states c).hashed.length := by
  obtain ⟨raws, hs⟩ := h.streams c
  refine ⟨raws, hs.blocks, ?_, hs.rawLen⟩
  rw [hs.hashed, hEmpty, noPending, List.append_nil, List.append_nil]

theorem readSegmentStream_eq (hCodec : CodecOk P) (h : WriterOk P w noPending)
    (hEmpty : (w.states c).rawBuf = []) {parsed : ParsedSegmentIndex} {head tail : Bytes}
    (hHead : head.length = segmentHeaderSize)
    (hOffset : parsed.header.payloadOffset = segmentHeaderSize)
    (hLt : (head ++ w.payload ++ tail).length < 2 ^ 64) {pre post : List BlockEntry}
    (hBlocks : parsed.blocks = pre ++ (w.blockEntries c ++ post)) {stop : Nat} :
    readSegmentStream P (head ++ w.payload ++ tail) parsed c.id (w.streamStarts c)
      ⟨w.streamStarts c, stop, (w.states c).rawLen, pre.length, (w.states c).blocks.length,
        (w.states c).rawHash P⟩ = .ok (w.states c).hashed := by
  obtain ⟨raws, hHold, hHashed, hRawLen⟩ := h.pieces hEmpty
  have hSlice : slice parsed.blocks pre.length (pre.length + (w.states c).blocks.length) =
      some ((w.states c).blocks.map (LocalBlock.entry c)) := by
    rw [hBlocks, blockEntries_eq]
    exact slice_at rfl (by simp)
  have hHash : ¬ ((w.states c).hashed.length ≠ (w.states c).rawLen ∨ ((w.states c).rawLen > 0 ∧
      P.xxh3 (w.states c).hashed ≠ (w.states c).rawHash P)) := by
    rw [StreamState.rawHash]
    by_cases hZero : (w.states c).rawLen = 0 <;> simp [hZero, hRawLen.symm]
  rw [readSegmentStream, failIf_neg (by simp), ok_bind, hSlice, okOr_some, ok_bind,
    readBlocks_eq hCodec hHead hOffset hLt hHold, ok_bind, ← hHashed, failIf_neg hHash, ok_bind]

theorem readSegmentStreams_eq (hCodec : CodecOk P) (h : WriterOk P w noPending)
    (hEmpty : ∀ c, (w.states c).rawBuf = []) {parsed : ParsedSegmentIndex} {head tail : Bytes}
    (hHead : head.length = segmentHeaderSize)
    (hOffset : parsed.header.payloadOffset = segmentHeaderSize)
    (hLt : (head ++ w.payload ++ tail).length < 2 ^ 64) {cs : List Column} (hNodup : cs.Nodup)
    {pre : List BlockEntry} (hBlocks : parsed.blocks = pre ++ (cs.map w.blockEntries).flatten)
    {entries : List StreamEntry} (hEntries : w.streamEntries P pre.length cs = .ok entries)
    {streams : Column → Bytes} (hStreams : ∀ c ∈ cs, (streams c).length = w.streamStarts c) :
    readSegmentStreams P (head ++ w.payload ++ tail) parsed (cs.zip entries) streams =
      .ok (fun c => if c ∈ cs then streams c ++ (w.states c).hashed else streams c) := by
  induction cs generalizing pre entries streams with
  | nil => simp [readSegmentStreams]
  | cons c cs ih =>
    simp only [StreamingSegmentWriter.streamEntries, bind_eq_ok, okOr_eq_ok, tryFrom_eq_some,
      checkedAdd_eq_some, Except.ok.injEq] at hEntries
    obtain ⟨_, ⟨_, rfl⟩, _, ⟨_, rfl⟩, _, ⟨_, rfl⟩, rest, hRest, rfl⟩ := hEntries
    obtain ⟨hNotMem, hNodup⟩ := List.nodup_cons.mp hNodup
    rw [List.map_cons, List.flatten_cons] at hBlocks
    have hCount : pre.length + (w.states c).blocks.length = (pre ++ w.blockEntries c).length := by
      simp [blockEntries_eq]
    rw [hCount] at hRest
    rw [List.zip_cons_cons, readSegmentStreams, hStreams c (by simp),
      readSegmentStream_eq hCodec h (hEmpty c) hHead hOffset hLt hBlocks, ok_bind,
      ih hNodup (by rw [hBlocks, List.append_assoc]) hRest]
    · congr 1
      funext d
      by_cases hd : d = c
      · subst hd
        simp [hNotMem]
      · simp [hd]
    · intro d hd
      have hNe : d ≠ c := fun heq => hNotMem (heq ▸ hd)
      rw [Function.update_of_ne hNe]
      exact hStreams d (List.mem_cons_of_mem c hd)

end Back

/-! ## The finished file -/

/-- The settings of the writer fit the header. -/
structure StreamingSegmentWriter.Fits (w : StreamingSegmentWriter) : Prop where
  generation : w.generation < 2 ^ 64
  checkpointStart : w.checkpointStart < 2 ^ 64
  versionStart : w.versionStart < 2 ^ 64
  blockSizePos : 0 < w.blockSize
  blockSizeLt : w.blockSize < 2 ^ 32

/-- Reading the file appends these suffixes to the streams. -/
structure SegmentHolds (P : Primitives) (file : Bytes) (m : SegmentMeta) (suffix : Column → Bytes) :
    Prop where
  fileBytes : m.segmentFileBytes = file.length
  streamEnds : ∀ c, m.streamEnds c = m.streamStarts c + (suffix c).length
  endsLt : ∀ c, m.streamEnds c < 2 ^ 64
  read : ∀ streams : Column → Bytes, (∀ c, (streams c).length = m.streamStarts c) →
    readSegment P file m streams = .ok (fun c => streams c ++ suffix c)

section Finalize

variable {w w' : StreamingSegmentWriter}

theorem streamEntries_length {cs : List Column} {count : Nat} {entries : List StreamEntry}
    (h : w.streamEntries P count cs = .ok entries) : entries.length = cs.length := by
  induction cs generalizing count entries with
  | nil =>
    obtain rfl := Except.ok.inj h
    rfl
  | cons c cs ih =>
    simp only [StreamingSegmentWriter.streamEntries, bind_eq_ok, Except.ok.injEq] at h
    obtain ⟨_, _, _, _, _, _, rest, hRest, rfl⟩ := h
    simp [ih hRest]

theorem streamEntries_globalEnd {cs : List Column} {count : Nat} {entries : List StreamEntry}
    (h : w.streamEntries P count cs = .ok entries) {k : Nat} {c : Column} (hk : cs[k]? = some c) :
    entries[k]?.map StreamEntry.globalEnd = some (w.streamStarts c + (w.states c).rawLen) ∧
      w.streamStarts c + (w.states c).rawLen < 2 ^ 64 := by
  induction cs generalizing count entries k with
  | nil => simp at hk
  | cons d cs ih =>
    simp only [StreamingSegmentWriter.streamEntries, bind_eq_ok, okOr_eq_ok, checkedAdd_eq_some,
      width, Except.ok.injEq] at h
    obtain ⟨_, _, _, ⟨hLt, rfl⟩, _, _, rest, hRest, rfl⟩ := h
    cases k with
    | zero =>
      obtain rfl : d = c := by simpa using hk
      exact ⟨rfl, hLt⟩
    | succ k => exact ih hRest (by simpa using hk)

theorem streamEntries_inTable (h : WriterOk P w noPending) {cs : List Column} {count : Nat}
    {entries : List StreamEntry} (hEntries : w.streamEntries P count cs = .ok entries) :
    ∀ e ∈ entries, e.Fits ∧ e.InTable (count + (cs.map w.blockEntries).flatten.length) := by
  induction cs generalizing count entries with
  | nil =>
    obtain rfl := Except.ok.inj hEntries
    simp
  | cons c cs ih =>
    simp only [StreamingSegmentWriter.streamEntries, bind_eq_ok, okOr_eq_ok, tryFrom_eq_some,
      checkedAdd_eq_some, width, Except.ok.injEq] at hEntries
    obtain ⟨_, ⟨hFirst, rfl⟩, _, ⟨hEnd, rfl⟩, _, ⟨hBlocks, rfl⟩, rest, hRest, rfl⟩ := hEntries
    obtain ⟨raws, hs⟩ := h.streams c
    have hRaw := hs.rawLt
    have hCount : (w.blockEntries c).length = (w.states c).blocks.length := by
      simp [blockEntries_eq]
    rw [List.map_cons, List.flatten_cons, List.length_append, hCount]
    intro e he
    obtain rfl | he := List.mem_cons.mp he
    · refine ⟨⟨?_, ?_, ?_, ?_, ?_⟩, ?_, ?_, ?_⟩ <;> simp only [] <;> omega
    · obtain ⟨hf, hOrder, hLen, hIn⟩ := ih hRest e he
      exact ⟨hf, hOrder, hLen, by omega⟩

theorem BlocksHold.mem {level : Int} {payload : Bytes} {offset : Nat} {blocks : List LocalBlock}
    {raws : List Bytes} (h : BlocksHold P level payload offset blocks raws) :
    ∀ block ∈ blocks, ∃ at' raw, BlockHolds P level payload at' block raw ∧
      at' ≤ offset + raws.flatten.length := by
  induction blocks generalizing offset raws with
  | nil => simp
  | cons b blocks ih =>
    cases raws with
    | nil => exact h.elim
    | cons raw raws =>
      intro block hBlock
      rw [List.flatten_cons, List.length_append]
      obtain rfl | hBlock := List.mem_cons.mp hBlock
      · exact ⟨offset, raw, h.1, by omega⟩
      · obtain ⟨at', raw', hb, hLe⟩ := ih h.2 block hBlock
        exact ⟨at', raw', hb, by omega⟩

theorem blockEntries_inTable (h : WriterOk P w noPending) :
    ∀ e ∈ (Column.all.map w.blockEntries).flatten, e.Fits ∧ e.InTable w.payload.length := by
  intro e he
  obtain ⟨_, hMem, he⟩ := List.mem_flatten.mp he
  obtain ⟨c, _, rfl⟩ := List.mem_map.mp hMem
  rw [blockEntries_eq] at he
  obtain ⟨block, hBlock, rfl⟩ := List.mem_map.mp he
  obtain ⟨raws, hs⟩ := h.streams c
  obtain ⟨at', raw, hb, hLe⟩ := hs.blocks.mem block hBlock
  have hId : c.id < 22 := by cases c <;> decide
  have hIn : block.encodedOffset + block.encodedLen ≤ w.payload.length :=
    (slice_eq_some.mp hb.encoded).2.1
  have hLen : (w.states c).hashed.length = (raws.flatten ++ (w.states c).rawBuf).length := by
    rw [hs.hashed, noPending, List.append_nil]
  have hRaw := hs.rawLt
  have hOffset := hb.rawOffset
  have hRawLen := hb.rawLen
  have hRawLt := hb.rawLt
  have hEncoded := hb.encodedLt
  have hPayload := h.payloadLt
  rw [hs.rawLen, hLen, List.length_append] at hRaw
  refine ⟨⟨?_, ?_, ?_, ?_, ?_⟩, ?_, ?_⟩ <;>
    simp only [LocalBlock.entry, streamCount] <;> omega

theorem readSegmentIndexFile_eq {header : SegmentHeader} (hf : header.Fits) (hl : header.Laid)
    {payload index : Bytes} {streams : List StreamEntry} {blocks : List BlockEntry}
    (hIndex : index = (streams.map StreamEntry.bytes).flatten ++ (blocks.map BlockEntry.bytes).flatten)
    (hPayload : header.payloadBytes = payload.length) (hHash : header.indexHash = P.xxh3 index)
    (hStreams : streams.length = streamCount) (hBlocks : blocks.length = header.blockCount)
    (hStreamsIn : ∀ e ∈ streams, e.Fits ∧ e.InTable header.blockCount)
    (hBlocksIn : ∀ e ∈ blocks, e.Fits ∧ e.InTable header.payloadBytes)
    (hLt : (segmentHeaderBytes P header ++ payload ++ index).length < 2 ^ 64) :
    readSegmentIndexFile P (segmentHeaderBytes P header ++ payload ++ index) =
      .ok ⟨header, streams, blocks⟩ := by
  have hStreamTable : (streams.map StreamEntry.bytes).flatten.length = header.streamTableBytes := by
    rw [length_flatten_records (w := streamEntrySize), List.length_map, hStreams,
      hl.streamTableBytes]
    intro x hx
    obtain ⟨e, _, rfl⟩ := List.mem_map.mp hx
    exact e.length_bytes
  have hBlockTable : (blocks.map BlockEntry.bytes).flatten.length = header.blockTableBytes := by
    rw [length_flatten_records (w := blockEntrySize), List.length_map, hBlocks, hl.blockTableBytes]
    intro x hx
    obtain ⟨e, _, rfl⟩ := List.mem_map.mp hx
    exact e.length_bytes
  have hIndexLen : index.length = header.streamTableBytes + header.blockTableBytes := by
    rw [hIndex, List.length_append, hStreamTable, hBlockTable]
  have hOffset : header.indexOffset = (segmentHeaderBytes P header ++ payload).length := by
    rw [hl.indexOffset, List.length_append, length_segmentHeaderBytes, hPayload]
  have hFile : (segmentHeaderBytes P header ++ payload ++ index).length =
      header.indexOffset + (header.streamTableBytes + header.blockTableBytes) := by
    rw [List.length_append, ← hOffset, hIndexLen]
  have hHeader : readExact (segmentHeaderBytes P header ++ payload ++ index) 0 segmentHeaderSize =
      .ok (segmentHeaderBytes P header) := by
    have hAt : slice ([] ++ (segmentHeaderBytes P header ++ (payload ++ index))) 0
        segmentHeaderSize = some (segmentHeaderBytes P header) := slice_at rfl (by simp)
    rw [readExact, List.append_assoc, Nat.zero_add]
    rw [List.nil_append] at hAt
    rw [hAt, okOr_some]
  have hRead : readExact (segmentHeaderBytes P header ++ payload ++ index) header.indexOffset
      (header.streamTableBytes + header.blockTableBytes) = .ok index := by
    rw [readExact, ← hIndexLen, hOffset, slice_append_self, okOr_some]
  rw [hFile] at hLt
  have hTables : readStreamTable ((streams.map StreamEntry.bytes).flatten ++
      (blocks.map BlockEntry.bytes).flatten) header.blockCount streamCount 0 =
      .ok (streams.drop 0) := readStreamTable_eq hStreamsIn streamCount 0 (by omega)
  have hPayloadLt : header.payloadBytes < 2 ^ 64 := by
    have hLe := hl.indexOffset
    omega
  have hBlockRows : readBlockTable ((streams.map StreamEntry.bytes).flatten ++
      (blocks.map BlockEntry.bytes).flatten) (streams.map StreamEntry.bytes).flatten.length
      header.payloadBytes header.blockCount 0 = .ok (blocks.drop 0) :=
    readBlockTable_eq hPayloadLt hBlocksIn header.blockCount 0 (by omega)
  rw [← hIndex, List.drop_zero] at hTables hBlockRows
  rw [hStreamTable] at hBlockRows
  unfold readSegmentIndexFile
  rw [hHeader, ok_bind, parseSegmentHeader_eq hf hl, ok_bind,
    checkedAdd_of_lt (by rw [width]; omega), okOr_some, ok_bind,
    checkedAdd_of_lt (by rw [width]; exact hLt), okOr_some, ok_bind,
    failIf_neg (by rw [hFile]; simp), ok_bind, hRead, ok_bind, failIf_neg (by simp [hHash]),
    ok_bind, hTables, ok_bind, hBlockRows, ok_bind]

/-- The file of a writer whose streams are all flushed. -/
theorem segmentHolds_flushed (hCodec : CodecOk P) (h : WriterOk P w noPending)
    (hEmpty : ∀ c, (w.states c).rawBuf = []) {entries : List StreamEntry}
    (hEntries : w.streamEntries P 0 Column.all = .ok entries) {header : SegmentHeader}
    (hf : header.Fits) (hl : header.Laid) {index : Bytes}
    (hIndex : index = (entries.map StreamEntry.bytes).flatten ++
      ((Column.all.map w.blockEntries).flatten.map BlockEntry.bytes).flatten)
    (hPayload : header.payloadBytes = w.payload.length) (hHash : header.indexHash = P.xxh3 index)
    (hCount : header.blockCount = (Column.all.map w.blockEntries).flatten.length)
    (hLt : (segmentHeaderBytes P header ++ w.payload ++ index).length < 2 ^ 64)
    {m : SegmentMeta} (hGeneration : m.generation = header.generation)
    (hCheckpointStart : m.checkpointStartCount = header.checkpointStartCount)
    (hCheckpointEnd : m.checkpointEndCount = header.checkpointEndCount)
    (hVersionStart : m.versionStartCount = header.versionStartCount)
    (hVersionEnd : m.versionEndCount = header.versionEndCount)
    {streams : Column → Bytes} (hStreams : ∀ c, (streams c).length = w.streamStarts c) :
    readSegment P (segmentHeaderBytes P header ++ w.payload ++ index) m streams =
      .ok (fun c => streams c ++ (w.states c).hashed) := by
  have hStreamsIn := streamEntries_inTable h hEntries
  have hBlocksIn := blockEntries_inTable h
  rw [Nat.zero_add, ← hCount] at hStreamsIn
  rw [← hPayload] at hBlocksIn
  have hParsed := readSegmentIndexFile_eq hf hl hIndex hPayload hHash
    (streamEntries_length hEntries) hCount.symm hStreamsIn hBlocksIn hLt
  have hRead := @readSegmentStreams_eq P w hCodec h hEmpty
    ⟨header, entries, (Column.all.map w.blockEntries).flatten⟩ _ _
    (length_segmentHeaderBytes header) hl.payloadOffset hLt Column.all Column.nodup_all [] rfl
    entries hEntries streams (fun c _ => hStreams c)
  have hSuffix : (fun c => if c ∈ Column.all then streams c ++ (w.states c).hashed else streams c) =
      fun c => streams c ++ (w.states c).hashed := by
    funext c
    rw [if_pos c.mem_all]
  rw [readSegment, hParsed, ok_bind,
    failIf_neg (by simp [hGeneration, hCheckpointStart, hCheckpointEnd, hVersionStart, hVersionEnd]),
    ok_bind, hRead, hSuffix]

theorem index_ne_nil {entries : List StreamEntry} (h : entries.length = streamCount)
    (post : Bytes) : ((entries.map StreamEntry.bytes).flatten ++ post).isEmpty = false := by
  cases entries with
  | nil => simp [streamCount] at h
  | cons e entries =>
    have hLen : e.bytes.length = 40 := e.length_bytes
    rw [List.isEmpty_eq_false_iff]
    intro hNil
    have hZero := congrArg List.length hNil
    simp [hLen] at hZero

/-- The round trip: the finished file holds what was pushed. -/
theorem segmentHolds_finalize (hCodec : CodecOk P) (h : WriterOk P w noPending) (hFits : w.Fits)
    {walStart walEnd checkpointEnd versionEnd : Nat} (hCheckpoint : checkpointEnd < 2 ^ 64)
    (hVersion : versionEnd < 2 ^ 64) {m : SegmentMeta} {file : Bytes}
    (hFinal : w.finalize P walStart walEnd checkpointEnd versionEnd = .ok (m, file)) :
    SegmentHolds P file m (fun c => (w.states c).hashed) := by
  simp only [StreamingSegmentWriter.finalize, bind_eq_ok, okOr_eq_ok, checkedMul, tryFrom_eq_some,
    checkedAdd_eq_some, width, Except.ok.injEq, Prod.mk.injEq] at hFinal
  obtain ⟨w', hFlush, entries, hEntries, _, ⟨hIndexLt, rfl⟩, _, ⟨hCountLt, rfl⟩, _, ⟨hTableLt, rfl⟩,
    _, ⟨hFileLt, rfl⟩, total, _, rfl, rfl⟩ := hFinal
  obtain ⟨hOk, hSame, hEmpty, _⟩ := flushAll_spec h hFlush
  have hEmpty : ∀ c, (w'.states c).rawBuf = [] := fun c => hEmpty c c.mem_all
  have hPayloadLt := hOk.payloadLt
  rw [index_ne_nil (streamEntries_length hEntries)] at hFileLt ⊢
  simp only [Bool.false_eq_true, if_false] at hFileLt ⊢
  have hEnds : ∀ c : Column, (entries[c.id]?.map StreamEntry.globalEnd).getD 0 =
      w'.streamStarts c + (w.states c).hashed.length ∧
      w'.streamStarts c + (w.states c).hashed.length < 2 ^ 64 := by
    intro c
    obtain ⟨raws, hs⟩ := hOk.streams c
    obtain ⟨hEnd, hLt⟩ := streamEntries_globalEnd hEntries c.getElem?_all
    rw [hs.rawLen, hSame.hashed c] at hEnd hLt
    rw [hEnd]
    exact ⟨rfl, hLt⟩
  constructor
  case fileBytes => dsimp only
  case streamEnds => exact fun c => (hEnds c).1
  case endsLt =>
    intro c
    dsimp only
    rw [(hEnds c).1]
    exact (hEnds c).2
  case read =>
    intro streams hStreams
    obtain ⟨f1, f2, f3, f4, f5⟩ := hFits
    rw [← hSame.generation] at f1
    rw [← hSame.checkpointStart] at f2
    rw [← hSame.versionStart] at f3
    rw [← hSame.blockSize] at f4 f5
    have hSuffix : (fun c => streams c ++ (w.states c).hashed) =
        fun c => streams c ++ (w'.states c).hashed := by
      funext c
      rw [hSame.hashed c]
    rw [hSuffix]
    refine segmentHolds_flushed hCodec hOk hEmpty hEntries ?_ ⟨f4, rfl, rfl, rfl, rfl⟩ rfl
      hOk.payloadBytes rfl rfl hFileLt rfl rfl rfl rfl rfl hStreams
    have hPayloadBytes := hOk.payloadBytes
    have hSizes : segmentHeaderSize = 120 ∧ streamCount * streamEntrySize = 880 := ⟨rfl, rfl⟩
    constructor <;> dsimp only <;> omega

/-- The manifest entry records what `finalize` was given. -/
structure SegmentMeta.Describes (m : SegmentMeta) (w : StreamingSegmentWriter)
    (walStart walEnd checkpointEnd versionEnd : Nat) : Prop where
  generation : m.generation = w.generation
  walStartBytes : m.walStartBytes = walStart
  walEndBytes : m.walEndBytes = walEnd
  checkpointStartCount : m.checkpointStartCount = w.checkpointStart
  checkpointEndCount : m.checkpointEndCount = checkpointEnd
  versionStartCount : m.versionStartCount = w.versionStart
  versionEndCount : m.versionEndCount = versionEnd
  streamStarts : m.streamStarts = w.streamStarts

theorem describes_finalize (h : WriterOk P w noPending)
    {walStart walEnd checkpointEnd versionEnd : Nat} {m : SegmentMeta} {file : Bytes}
    (hFinal : w.finalize P walStart walEnd checkpointEnd versionEnd = .ok (m, file)) :
    m.Describes w walStart walEnd checkpointEnd versionEnd := by
  simp only [StreamingSegmentWriter.finalize, bind_eq_ok, Except.ok.injEq, Prod.mk.injEq] at hFinal
  obtain ⟨w', hFlush, _, _, _, _, _, _, _, _, _, _, _, _, rfl, _⟩ := hFinal
  obtain ⟨_, hSame, _⟩ := flushAll_spec h hFlush
  exact ⟨hSame.generation, rfl, rfl, hSame.checkpointStart, rfl, hSame.versionStart, rfl,
    hSame.streamStarts⟩

end Finalize

end TulyaStore.Checkpoint
