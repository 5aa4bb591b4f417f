import TulyaStore.Checkpoint.SegmentCodec
import TulyaStore.Lib.Chunks

/-!
# When a segment can be written

The streaming writer checks every counter it moves. Its blocks are the pieces of the block size of
what each stream was fed (`Packed`), so all the counters are functions of the final contents:
`SegmentFits` asks of those contents exactly what the checks ask, and with `SegmentFits` neither a
push nor `finalize` fails; and a segment that was written fits (`segment_writes_iff`).
-/

namespace TulyaStore.Checkpoint

open Lib

variable {P : Primitives}

/-! ## Sums over the columns -/

/-- The sum of a number over all streams. -/
def columnSum (f : Column → Nat) : Nat := (Column.all.map f).sum

theorem columnSum_zero : (columnSum fun _ => 0) = 0 := rfl

theorem columnSum_congr {f g : Column → Nat} (h : ∀ c, f c = g c) : columnSum f = columnSum g :=
  congrArg columnSum (funext h)

theorem sum_map_le {cs : List Column} {f g : Column → Nat} (h : ∀ c, f c ≤ g c) :
    (cs.map f).sum ≤ (cs.map g).sum := by
  induction cs with
  | nil => exact Nat.le_refl _
  | cons c cs ih =>
    rw [List.map_cons, List.map_cons, List.sum_cons, List.sum_cons]
    exact Nat.add_le_add (h c) ih

theorem columnSum_le {f g : Column → Nat} (h : ∀ c, f c ≤ g c) : columnSum f ≤ columnSum g :=
  sum_map_le h

theorem sum_map_changed {cs : List Column} (hNodup : cs.Nodup) {f g : Column → Nat} {c : Column}
    {n : Nat} (hMem : c ∈ cs) (hAt : g c = f c + n) (hElse : ∀ d, d ≠ c → g d = f d) :
    (cs.map g).sum = (cs.map f).sum + n := by
  induction cs with
  | nil => cases hMem
  | cons d cs ih =>
    obtain ⟨hNew, hNodup⟩ := List.nodup_cons.mp hNodup
    rw [List.map_cons, List.map_cons, List.sum_cons, List.sum_cons]
    rcases List.mem_cons.mp hMem with rfl | hMem
    · have hRest : cs.map g = cs.map f := by
        refine List.map_congr_left fun d hd => hElse d ?_
        intro hEq
        exact hNew (hEq ▸ hd)
      rw [hRest, hAt]
      omega
    · have hNe : d ≠ c := by
        intro hEq
        exact hNew (hEq ▸ hMem)
      rw [ih hNodup hMem, hElse d hNe]
      omega

/-- A sum in which one term has changed. -/
theorem columnSum_changed {f g : Column → Nat} {c : Column} {n : Nat} (hAt : g c = f c + n)
    (hElse : ∀ d, d ≠ c → g d = f d) : columnSum g = columnSum f + n :=
  sum_map_changed Column.nodup_all c.mem_all hAt hElse

/-! ## The size of a segment -/

/-- The compressed lengths of some blocks. -/
def encodedSizes (P : Primitives) (level : Int) (raws : List Bytes) : List Nat :=
  raws.map fun raw => (P.compress level raw).length

section Sizes

variable (P) (blockSize : Nat) (level : Int) (contents : Column → Bytes)

/-- The number of blocks that hold these contents. -/
def segmentBlocks : Nat := columnSum fun c => (pieces blockSize (contents c)).length

/-- The bytes the blocks take in the file. -/
def segmentPayload : Nat :=
  columnSum fun c => (encodedSizes P level (pieces blockSize (contents c))).sum

/-- The length of the file: header, blocks, stream table and block table. -/
def segmentLength : Nat :=
  segmentHeaderSize + segmentPayload P blockSize level contents +
    (streamCount * streamEntrySize + segmentBlocks blockSize contents * blockEntrySize)

/-- The contents can be sealed in one segment whose streams start here. -/
structure SegmentFits (starts : Column → Nat) : Prop where
  ends : ∀ c, starts c + (contents c).length < 2 ^ 64
  raw : (columnSum fun c => (contents c).length) < 2 ^ 64
  encoded : ∀ c, ∀ raw ∈ pieces blockSize (contents c), (P.compress level raw).length < 2 ^ 32
  blocks : segmentBlocks blockSize contents < 2 ^ 32
  file : segmentLength P blockSize level contents < 2 ^ 64

end Sizes

/-! ## The blocks are the pieces -/

/-- The invariant of the writer together with the sizes of its blocks. -/
structure Packed (P : Primitives) (w : StreamingSegmentWriter) (pending : Column → Bytes) :
    Prop where
  streams : ∀ c, ∃ raws, StreamHolds P w.zstdLevel w.payload (w.states c) raws (pending c) ∧
    (∀ raw ∈ raws, raw.length = w.blockSize) ∧ (w.states c).rawBuf.length < w.blockSize
  payloadBytes : w.payloadBytes = w.payload.length
  payloadLt : w.payload.length < 2 ^ 64
  stored : w.payload.length =
    columnSum fun c => ((w.states c).blocks.map LocalBlock.encodedLen).sum

theorem BlocksHold.encodedLens {level : Int} {payload : Bytes} {offset : Nat}
    {blocks : List LocalBlock} {raws : List Bytes}
    (h : BlocksHold P level payload offset blocks raws) :
    blocks.map LocalBlock.encodedLen = encodedSizes P level raws := by
  induction blocks generalizing offset raws with
  | nil =>
    cases raws with
    | nil => rfl
    | cons raw raws => exact h.elim
  | cons block blocks ih =>
    cases raws with
    | nil => exact h.elim
    | cons raw raws =>
      have hLen := length_of_slice h.1.encoded
      rw [Nat.add_sub_cancel_left] at hLen
      rw [List.map_cons, ih h.2, encodedSizes, encodedSizes, List.map_cons, hLen]

namespace Packed

variable {w : StreamingSegmentWriter} {pending : Column → Bytes}

theorem writerOk (h : Packed P w pending) : WriterOk P w pending where
  streams := fun c => by
    obtain ⟨raws, hs, _⟩ := h.streams c
    exact ⟨raws, hs⟩
  payloadBytes := h.payloadBytes
  payloadLt := h.payloadLt

theorem new (generation : Nat) (starts : Column → Nat) (checkpointStart versionStart : Nat)
    {blockSize : Nat} (hSize : 0 < blockSize) (level : Int) :
    Packed P (.new generation starts checkpointStart versionStart blockSize level) noPending where
  streams := fun _ =>
    ⟨[], ⟨trivial, rfl, rfl, rfl, Nat.two_pow_pos 64⟩, fun _ hRaw =>
      absurd hRaw List.not_mem_nil, hSize⟩
  payloadBytes := rfl
  payloadLt := Nat.two_pow_pos 64
  stored := columnSum_zero.symm

end Packed

/-! ## Flushing -/

/-- Pieces of the block size are the first pieces of what they begin. -/
theorem isInitial_pieces {w : Nat} (hw : 0 < w) {raws : List Bytes} {xs : Bytes}
    (h : ∀ raw ∈ raws, raw.length = w) (hp : raws.flatten <+: xs) : raws <+: pieces w xs := by
  have hInitial := chunksExact_isInitial hw hp
  rw [chunksExact_flatten hw h] at hInitial
  exact hInitial.trans (chunksExact_isInitial_pieces w xs)

/-- Every stream is a beginning of these contents, and so are its blocks. -/
structure Within (P : Primitives) (w : StreamingSegmentWriter) (contents : Column → Bytes)
    (raws : Column → List Bytes) (pending : Column → Bytes) : Prop where
  holds : ∀ c, StreamHolds P w.zstdLevel w.payload (w.states c) (raws c) (pending c)
  pieces : ∀ c, raws c <+: pieces w.blockSize (contents c)
  payloadBytes : w.payloadBytes = w.payload.length
  stored : w.payload.length =
    columnSum fun c => ((w.states c).blocks.map LocalBlock.encodedLen).sum

/-- The writer after the buffer of a stream has become a block. -/
def StreamingSegmentWriter.flushed (P : Primitives) (w : StreamingSegmentWriter) (c : Column) :
    StreamingSegmentWriter :=
  let state := w.states c
  let encoded := P.compress w.zstdLevel state.rawBuf
  let block : LocalBlock :=
    { rawOffset := state.flushedRawLen, encodedOffset := w.payloadBytes,
      rawLen := state.rawBuf.length, encodedLen := encoded.length, rawHash := P.xxh3 state.rawBuf }
  { w.setState c { state with
      rawBuf := [], flushedRawLen := state.flushedRawLen + state.rawBuf.length,
      blocks := state.blocks ++ [block] } with
    payload := w.payload ++ encoded, payloadBytes := w.payloadBytes + encoded.length }

theorem sameFeed_flushed (w : StreamingSegmentWriter) (c : Column) :
    SameFeed w (w.flushed P c) := by
  refine ⟨rfl, rfl, rfl, rfl, rfl, rfl, fun d => ?_⟩
  by_cases hd : d = c
  · subst hd
    simp [StreamingSegmentWriter.flushed, StreamingSegmentWriter.setState]
  · simp [StreamingSegmentWriter.flushed, StreamingSegmentWriter.setState, Function.update_of_ne hd]

section Flush

variable {w : StreamingSegmentWriter} {contents pending : Column → Bytes}
  {raws : Column → List Bytes} {c : Column} {starts : Column → Nat}

/-- The buffer is the next piece of the stream. -/
def NextPiece (w : StreamingSegmentWriter) (contents : Column → Bytes) (raws : Column → List Bytes)
    (c : Column) : Prop :=
  raws c ++ [(w.states c).rawBuf] <+: pieces w.blockSize (contents c)

theorem NextPiece.encoded_lt (hNext : NextPiece w contents raws c)
    (hFits : SegmentFits P w.blockSize w.zstdLevel contents starts) :
    (P.compress w.zstdLevel (w.states c).rawBuf).length < 2 ^ 32 :=
  hFits.encoded c _ (hNext.subset (List.mem_append_right _ List.mem_cons_self))

theorem sum_encodedSizes_le {level : Int} {xs ys : List Bytes} (h : xs <+: ys) :
    (encodedSizes P level xs).sum ≤ (encodedSizes P level ys).sum := by
  obtain ⟨zs, rfl⟩ := h
  rw [encodedSizes, encodedSizes, List.map_append, List.sum_append]
  exact Nat.le_add_right _ _

/-- A block that belongs to contents that fit can be written. -/
theorem flushStreamBlock_within (h : Within P w contents raws pending)
    (hFits : SegmentFits P w.blockSize w.zstdLevel contents starts) (hSize : 0 < w.blockSize)
    (hSizeLt : w.blockSize < 2 ^ 32) (hBuf : (w.states c).rawBuf.length ≤ w.blockSize)
    (hFull : (w.states c).rawBuf ≠ []) (hNext : NextPiece w contents raws c) :
    w.flushStreamBlock P c = .ok (w.flushed P c) := by
  have hs := h.holds c
  have hEncoded := hNext.encoded_lt hFits
  -- the flushed lengths stay below the length of the stream
  have hRawLt : (w.states c).flushedRawLen + (w.states c).rawBuf.length < 2 ^ 64 := by
    obtain ⟨more, hMore⟩ := hNext
    have hLen := congrArg (fun raws => raws.flatten.length) hMore
    have hEnds := hFits.ends c
    simp only [flatten_pieces hSize, List.flatten_append, List.length_append, List.flatten_cons,
      List.flatten_nil, List.append_nil] at hLen
    rw [hs.flushed]
    omega
  -- the block takes its place among all blocks of the segment
  have hPayload : w.payload.length + (P.compress w.zstdLevel (w.states c).rawBuf).length <
      2 ^ 64 := by
    have hFile := hFits.file
    have hSum : (columnSum fun d => if d = c then
        (encodedSizes P w.zstdLevel (raws c ++ [(w.states c).rawBuf])).sum
        else (encodedSizes P w.zstdLevel (raws d)).sum) ≤
        segmentPayload P w.blockSize w.zstdLevel contents := by
      refine columnSum_le fun d => ?_
      by_cases hd : d = c
      · subst hd
        rw [if_pos rfl]
        exact sum_encodedSizes_le hNext
      · rw [if_neg hd]
        exact sum_encodedSizes_le (h.pieces d)
    have hChanged := columnSum_changed (c := c)
      (f := fun d => ((w.states d).blocks.map LocalBlock.encodedLen).sum)
      (g := fun d => if d = c then (encodedSizes P w.zstdLevel
        (raws c ++ [(w.states c).rawBuf])).sum
        else (encodedSizes P w.zstdLevel (raws d)).sum)
      (n := (P.compress w.zstdLevel (w.states c).rawBuf).length)
      (by
        rw [if_pos rfl, (h.holds c).blocks.encodedLens, encodedSizes, encodedSizes, List.map_append,
          List.sum_append]
        simp)
      (fun d hd => by rw [if_neg hd, (h.holds d).blocks.encodedLens])
    rw [segmentLength] at hFile
    rw [h.stored]
    omega
  have hNonempty : ¬ (w.states c).rawBuf.isEmpty = true := by simpa using hFull
  rw [StreamingSegmentWriter.flushStreamBlock]
  dsimp only
  rw [if_neg hNonempty, tryFrom_of_lt (show _ < width 32 by rw [width]; omega), okOr_some, ok_bind,
    tryFrom_of_lt (show _ < width 32 by rw [width]; exact hEncoded), okOr_some, ok_bind,
    checkedAdd_of_lt (by rw [width]; exact hRawLt), okOr_some, ok_bind,
    checkedAdd_of_lt (by rw [width, h.payloadBytes]; exact hPayload), okOr_some, ok_bind]
  rfl

/-- What the blocks hold after a flush. -/
theorem Within.flushed (h : Within P w contents raws pending)
    (hEncoded : (P.compress w.zstdLevel (w.states c).rawBuf).length < 2 ^ 32)
    (hBuf : (w.states c).rawBuf.length < 2 ^ 32) (hNext : NextPiece w contents raws c) :
    Within P (w.flushed P c) contents (Function.update raws c (raws c ++ [(w.states c).rawBuf]))
      pending := by
  have hInitial : w.payload <+: w.payload ++ P.compress w.zstdLevel (w.states c).rawBuf :=
    List.prefix_append _ _
  refine ⟨fun d => ?_, fun d => ?_, ?_, ?_⟩
  · by_cases hd : d = c
    · subst hd
      have hs := h.holds d
      simp only [StreamingSegmentWriter.flushed, StreamingSegmentWriter.setState,
        Function.update_self]
      refine ⟨(hs.blocks.mono hInitial).append ?_, ?_, ?_, hs.rawLen, hs.rawLt⟩
      · refine ⟨?_, rfl, hBuf, hEncoded, ?_, rfl⟩
        · rw [Nat.zero_add]
          exact hs.flushed
        · dsimp only
          rw [h.payloadBytes]
          exact slice_append_self
      · rw [hs.hashed]
        simp
      · rw [hs.flushed]
        simp
    · have hs := h.holds d
      simp only [StreamingSegmentWriter.flushed, StreamingSegmentWriter.setState,
        Function.update_of_ne hd]
      exact { hs with blocks := hs.blocks.mono hInitial }
  · by_cases hd : d = c
    · subst hd
      rw [Function.update_self]
      exact hNext
    · rw [Function.update_of_ne hd]
      exact h.pieces d
  · simp only [StreamingSegmentWriter.flushed, List.length_append, h.payloadBytes]
  · simp only [StreamingSegmentWriter.flushed, List.length_append, h.stored]
    refine (columnSum_changed (c := c) ?_ fun d hd => ?_).symm
    · simp [StreamingSegmentWriter.setState]
    · simp [StreamingSegmentWriter.setState, Function.update_of_ne hd]

end Flush

/-! ## Pushing -/

/-- The streams together with what is still to be pushed fit in a segment. -/
structure Room (P : Primitives) (w : StreamingSegmentWriter) (ahead : Column → Bytes) : Prop where
  packed : Packed P w noPending
  sizePos : 0 < w.blockSize
  sizeLt : w.blockSize < 2 ^ 32
  fits : SegmentFits P w.blockSize w.zstdLevel (fun c => (w.states c).hashed ++ ahead c)
    w.streamStarts

section Push

variable {w : StreamingSegmentWriter} {contents pending : Column → Bytes} {c : Column}

/-- A writer whose streams begin the contents, seen through its blocks. -/
theorem Packed.within (h : Packed P w pending) (hSize : 0 < w.blockSize)
    (hAhead : ∀ c, (w.states c).hashed <+: contents c) :
    ∃ raws : Column → List Bytes, Within P w contents raws pending ∧
      (∀ c, ∀ raw ∈ raws c, raw.length = w.blockSize) ∧
      ∀ c, (w.states c).rawBuf.length < w.blockSize := by
  choose raws hs hLen hBuf using h.streams
  refine ⟨raws, ⟨hs, fun c => ?_, h.payloadBytes, h.stored⟩, hLen, hBuf⟩
  refine isInitial_pieces hSize (hLen c) (List.IsPrefix.trans ?_ (hAhead c))
  rw [(hs c).hashed, List.append_assoc]
  exact List.prefix_append _ _

theorem Within.packed {raws : Column → List Bytes} (h : Within P w contents raws pending)
    (hFits : w.payload.length < 2 ^ 64) (hLen : ∀ c, ∀ raw ∈ raws c, raw.length = w.blockSize)
    (hBuf : ∀ c, (w.states c).rawBuf.length < w.blockSize) : Packed P w pending where
  streams := fun c => ⟨raws c, h.holds c, hLen c, hBuf c⟩
  payloadBytes := h.payloadBytes
  payloadLt := hFits
  stored := h.stored

/-- The payload of blocks that belong to contents that fit. -/
theorem Within.payload_lt {raws : Column → List Bytes} {starts : Column → Nat}
    (h : Within P w contents raws pending)
    (hFits : SegmentFits P w.blockSize w.zstdLevel contents starts) :
    w.payload.length < 2 ^ 64 := by
  have hSum : (columnSum fun d => ((w.states d).blocks.map LocalBlock.encodedLen).sum) ≤
      segmentPayload P w.blockSize w.zstdLevel contents := by
    refine columnSum_le fun d => ?_
    rw [(h.holds d).blocks.encodedLens]
    exact sum_encodedSizes_le (h.pieces d)
  have hFile := hFits.file
  rw [segmentLength] at hFile
  rw [h.stored]
  omega

/-- The buffer of a stream takes some of the pending data. -/
def StreamingSegmentWriter.filled (w : StreamingSegmentWriter) (c : Column) (data : Bytes) :
    StreamingSegmentWriter :=
  w.setState c { w.states c with rawBuf := (w.states c).rawBuf ++ data }

theorem states_filled (w : StreamingSegmentWriter) (c d : Column) (data : Bytes) :
    (w.filled c data).states d = if d = c then
      { w.states d with rawBuf := (w.states d).rawBuf ++ data } else w.states d := by
  by_cases hd : d = c
  · subst hd
    simp [StreamingSegmentWriter.filled, StreamingSegmentWriter.setState]
  · simp [StreamingSegmentWriter.filled, StreamingSegmentWriter.setState, hd]

theorem sameFeed_filled (w : StreamingSegmentWriter) (c : Column) (data : Bytes) :
    SameFeed w (w.filled c data) := by
  refine ⟨rfl, rfl, rfl, rfl, rfl, rfl, fun d => ?_⟩
  rw [states_filled]
  by_cases hd : d = c
  · rw [if_pos hd]
  · rw [if_neg hd]

theorem Within.filled {raws : Column → List Bytes} {data : Bytes}
    (h : Within P w contents raws (pendingAt c data)) (take : Nat) :
    Within P (w.filled c (data.take take)) contents raws (pendingAt c (data.drop take)) where
  holds := fun d => by
    have hs := h.holds d
    rw [states_filled]
    by_cases hd : d = c
    · subst hd
      rw [if_pos rfl]
      simp only [pendingAt, Function.update_self] at hs ⊢
      refine ⟨hs.blocks, ?_, hs.flushed, hs.rawLen, hs.rawLt⟩
      simpa using hs.hashed
    · rw [if_neg hd]
      simp only [pendingAt, Function.update_of_ne hd] at hs ⊢
      exact hs
  pieces := h.pieces
  payloadBytes := h.payloadBytes
  stored := by
    refine h.stored.trans (columnSum_congr fun d => ?_)
    rw [states_filled]
    by_cases hd : d = c
    · rw [if_pos hd]
    · rw [if_neg hd]

/-- A flush that succeeds has written the next piece. -/
theorem flushStreamBlock_inv {w' : StreamingSegmentWriter}
    (hFull : ¬ (w.states c).rawBuf.isEmpty = true)
    (hFlush : w.flushStreamBlock P c = .ok w') :
    (P.compress w.zstdLevel (w.states c).rawBuf).length < 2 ^ 32 ∧ w' = w.flushed P c := by
  rw [StreamingSegmentWriter.flushStreamBlock] at hFlush
  dsimp only at hFlush
  rw [if_neg hFull] at hFlush
  simp only [bind_eq_ok, okOr_eq_ok, tryFrom_eq_some, checkedAdd_eq_some, width,
    Except.ok.injEq] at hFlush
  obtain ⟨_, ⟨_, rfl⟩, _, ⟨hEncoded, rfl⟩, _, ⟨_, rfl⟩, _, ⟨_, rfl⟩, rfl⟩ := hFlush
  exact ⟨hEncoded, rfl⟩

/-- A buffer that is filled up is the next piece. -/
theorem Within.nextPiece {raws : Column → List Bytes} {data : Bytes} {take : Nat}
    (h : Within P w contents raws (pendingAt c data)) (hSize : 0 < w.blockSize)
    (hLen : ∀ raw ∈ raws c, raw.length = w.blockSize) (hAhead : (w.states c).hashed <+: contents c)
    (hFull : ((w.filled c (data.take take)).states c).rawBuf.length = w.blockSize) :
    NextPiece (w.filled c (data.take take)) contents raws c := by
  refine isInitial_pieces hSize ?_ ?_
  · intro raw hRaw
    rcases List.mem_append.mp hRaw with hRaw | hRaw
    · exact hLen raw hRaw
    · rw [List.mem_singleton.mp hRaw]
      exact hFull
  · refine List.IsPrefix.trans ?_ hAhead
    rw [← (sameFeed_filled w c (data.take take)).hashed c, ((h.filled take).holds c).hashed,
      List.flatten_append, List.flatten_singleton]
    exact List.prefix_append _ _

/-- The buffer of a stream behind a turn of the loop of `push`. -/
theorem length_filled {data : Bytes} {take : Nat}
    (hTake : take = min (w.blockSize - (w.states c).rawBuf.length) data.length) :
    ((w.filled c (data.take take)).states c).rawBuf.length =
      (w.states c).rawBuf.length + take := by
  rw [states_filled, if_pos rfl, List.length_append, List.length_take_of_le (by omega)]

/-- One turn of the loop of `push` that succeeds leaves blocks of the block size. -/
theorem flushIfFull_packed {data : Bytes} {next : StreamingSegmentWriter}
    (h : Packed P w (pendingAt c data)) (hSize : 0 < w.blockSize) (hSizeLt : w.blockSize < 2 ^ 32)
    {take : Nat} (hTake : take = min (w.blockSize - (w.states c).rawBuf.length) data.length)
    (hNext : (w.filled c (data.take take)).flushIfFull P c = .ok next) :
    Packed P next (pendingAt c (data.drop take)) ∧ SameFeed w next := by
  have hSelf : ∀ d, (w.states d).hashed <+: (fun d => (w.states d).hashed) d :=
    fun _ => List.prefix_rfl
  obtain ⟨raws, hw, hLen, hBuf⟩ := h.within hSize hSelf
  have hFilled := hw.filled take
  have hBufLen := length_filled hTake
  have hShort := hBuf c
  have hSame := sameFeed_filled w c (data.take take)
  have hOk : WriterOk P (w.filled c (data.take take)) (pendingAt c (data.drop take)) :=
    (h.writerOk.fill take).1
  have hElse : ∀ d, d ≠ c → ((w.filled c (data.take take)).states d).rawBuf.length <
      w.blockSize := by
    intro d hd
    rw [states_filled, if_neg hd]
    exact hBuf d
  unfold StreamingSegmentWriter.flushIfFull at hNext
  split at hNext
  case isTrue hFull =>
    have hNonempty : ¬ ((w.filled c (data.take take)).states c).rawBuf.isEmpty = true := by
      intro hNil
      rw [List.isEmpty_iff.mp hNil] at hFull
      exact absurd (show 0 = w.blockSize from hFull) (by omega)
    have hLast := (flushStreamBlock_spec hOk hNext).1.payloadLt
    obtain ⟨hEncoded, rfl⟩ := flushStreamBlock_inv hNonempty hNext
    have hFlushed := hFilled.flushed hEncoded (lt_of_le_of_lt hFull.le hSizeLt)
      (hw.nextPiece hSize (hLen c) (hSelf c) hFull)
    refine ⟨hFlushed.packed hLast ?_ ?_, hSame.trans (sameFeed_flushed _ c)⟩
    · intro d raw hRaw
      by_cases hd : d = c
      · subst hd
        rw [Function.update_self] at hRaw
        rcases List.mem_append.mp hRaw with hRaw | hRaw
        · exact hLen d raw hRaw
        · rw [List.mem_singleton.mp hRaw]
          exact hFull
      · rw [Function.update_of_ne hd] at hRaw
        exact hLen d raw hRaw
    · intro d
      by_cases hd : d = c
      · subst hd
        simp [StreamingSegmentWriter.flushed, StreamingSegmentWriter.setState]
        exact hSize
      · simp only [StreamingSegmentWriter.flushed, StreamingSegmentWriter.setState,
          Function.update_of_ne hd]
        exact hElse d hd
  case isFalse hFull =>
    obtain rfl := Except.ok.inj hNext
    refine ⟨hFilled.packed hOk.payloadLt hLen fun d => ?_, hSame⟩
    by_cases hd : d = c
    · subst hd
      have hNe : (w.states d).rawBuf.length + take ≠ w.blockSize := by
        rw [← hBufLen]
        exact hFull
      rw [hBufLen]
      exact lt_of_le_of_ne (show _ ≤ w.blockSize by omega) hNe
    · exact hElse d hd

/-- One turn of the loop of `push`, with room for the contents. -/
theorem flushIfFull_within {data : Bytes} {starts : Column → Nat}
    (h : Packed P w (pendingAt c data)) (hSize : 0 < w.blockSize) (hSizeLt : w.blockSize < 2 ^ 32)
    (hFits : SegmentFits P w.blockSize w.zstdLevel contents starts)
    (hAhead : ∀ c, (w.states c).hashed <+: contents c) {take : Nat}
    (hTake : take = min (w.blockSize - (w.states c).rawBuf.length) data.length) :
    ∃ next, (w.filled c (data.take take)).flushIfFull P c = .ok next ∧
      Packed P next (pendingAt c (data.drop take)) ∧ SameFeed w next := by
  obtain ⟨raws, hw, hLen, hBuf⟩ := h.within hSize hAhead
  obtain ⟨next, hNext⟩ : ∃ next, (w.filled c (data.take take)).flushIfFull P c = .ok next := by
    unfold StreamingSegmentWriter.flushIfFull
    by_cases hFull : ((w.filled c (data.take take)).states c).rawBuf.length =
        (w.filled c (data.take take)).blockSize
    · have hNonempty : ((w.filled c (data.take take)).states c).rawBuf ≠ [] := by
        intro hNil
        rw [hNil] at hFull
        exact absurd (show 0 = w.blockSize from hFull) (by omega)
      rw [if_pos hFull]
      exact ⟨_, flushStreamBlock_within (hw.filled take) hFits hSize hSizeLt hFull.le hNonempty
        (hw.nextPiece hSize (hLen c) (hAhead c) hFull)⟩
    · rw [if_neg hFull]
      exact ⟨_, rfl⟩
  exact ⟨next, hNext, flushIfFull_packed h hSize hSizeLt hTake hNext⟩

theorem pushLoop_packed {fuel : Nat} {data : Bytes} {w' : StreamingSegmentWriter}
    (h : Packed P w (pendingAt c data)) (hSize : 0 < w.blockSize) (hSizeLt : w.blockSize < 2 ^ 32)
    (hLoop : StreamingSegmentWriter.pushLoop P c fuel data w = .ok w') :
    Packed P w' noPending := by
  induction fuel generalizing data w with
  | zero =>
    unfold StreamingSegmentWriter.pushLoop at hLoop
    split at hLoop
    case isTrue hEmpty =>
      obtain rfl := Except.ok.inj hLoop
      obtain rfl : data = [] := List.isEmpty_iff.mp hEmpty
      exact pendingAt_nil c ▸ h
    case isFalse => cases hLoop
  | succ fuel ih =>
    unfold StreamingSegmentWriter.pushLoop at hLoop
    split at hLoop
    case isTrue hEmpty =>
      obtain rfl := Except.ok.inj hLoop
      obtain rfl : data = [] := List.isEmpty_iff.mp hEmpty
      exact pendingAt_nil c ▸ h
    case isFalse =>
      obtain ⟨next, hNext, hRest⟩ := bind_eq_ok.mp hLoop
      obtain ⟨hPacked, hSame⟩ := flushIfFull_packed h hSize hSizeLt rfl hNext
      exact ih hPacked (by rw [hSame.blockSize]; exact hSize)
        (by rw [hSame.blockSize]; exact hSizeLt) hRest

theorem pushLoop_within {starts : Column → Nat} (hSize : 0 < w.blockSize)
    (hSizeLt : w.blockSize < 2 ^ 32)
    (hFits : SegmentFits P w.blockSize w.zstdLevel contents starts)
    (hAhead : ∀ c, (w.states c).hashed <+: contents c) {fuel : Nat} {data : Bytes}
    (hFuel : data.length ≤ fuel) (h : Packed P w (pendingAt c data)) :
    ∃ w', StreamingSegmentWriter.pushLoop P c fuel data w = .ok w' ∧ Packed P w' noPending ∧
      SameFeed w w' := by
  induction fuel generalizing data w with
  | zero =>
    obtain rfl : data = [] := List.length_eq_zero_iff.mp (Nat.le_zero.mp hFuel)
    exact ⟨w, rfl, pendingAt_nil c ▸ h, .refl w⟩
  | succ fuel ih =>
    unfold StreamingSegmentWriter.pushLoop
    by_cases hEmpty : data.isEmpty = true
    · obtain rfl : data = [] := List.isEmpty_iff.mp hEmpty
      exact ⟨w, rfl, pendingAt_nil c ▸ h, .refl w⟩
    · rw [if_neg hEmpty]
      obtain ⟨next, hNext, hPacked, hSame⟩ :=
        flushIfFull_within h hSize hSizeLt hFits hAhead rfl
      obtain ⟨_, _, _, hBuf⟩ := h.within hSize hAhead
      have hShort := hBuf c
      have hPos : 0 < data.length := by
        cases data with
        | nil => exact absurd rfl hEmpty
        | cons b data => simp
      obtain ⟨w', hLoop, hDone, hSame'⟩ := ih (by rw [hSame.blockSize]; exact hSize)
        (by rw [hSame.blockSize]; exact hSizeLt)
        (by rw [hSame.blockSize, hSame.zstdLevel]; exact hFits)
        (fun d => by rw [hSame.hashed d]; exact hAhead d) (by rw [List.length_drop]; omega) hPacked
      refine ⟨w', ?_, hDone, hSame.trans hSame'⟩
      exact bind_eq_ok.mpr ⟨next, hNext, hLoop⟩

/-- The beginning of a push: the data is announced and waits to be stored. -/
theorem Packed.announce {data : Bytes} (h : Packed P w noPending)
    (hLt : (w.states c).rawLen + data.length < 2 ^ 64) :
    Packed P (w.setState c { w.states c with
      rawLen := (w.states c).rawLen + data.length,
      hashed := (w.states c).hashed ++ data }) (pendingAt c data) where
  streams := fun d => by
    obtain ⟨raws, hs, hLen, hBuf⟩ := h.streams d
    by_cases hd : d = c
    · subst hd
      simp only [pendingAt, Function.update_self, StreamingSegmentWriter.setState]
      refine ⟨raws, ⟨hs.blocks, ?_, hs.flushed, ?_, hLt⟩, hLen, hBuf⟩
      · have hHashed := hs.hashed
        rw [noPending, List.append_nil] at hHashed
        rw [hHashed]
      · rw [List.length_append, hs.rawLen]
    · simp only [pendingAt, Function.update_of_ne hd, StreamingSegmentWriter.setState]
      exact ⟨raws, hs, hLen, hBuf⟩
  payloadBytes := h.payloadBytes
  payloadLt := h.payloadLt
  stored := by
    refine h.stored.trans (columnSum_congr fun d => ?_)
    by_cases hd : d = c
    · subst hd
      simp [StreamingSegmentWriter.setState]
    · simp [StreamingSegmentWriter.setState, hd]

/-- A push that succeeds keeps the blocks at the block size. -/
theorem push_packed {data : Bytes} {w' : StreamingSegmentWriter} (h : Packed P w noPending)
    (hSize : 0 < w.blockSize) (hSizeLt : w.blockSize < 2 ^ 32) (hPush : w.push P c data = .ok w') :
    Packed P w' noPending := by
  simp only [StreamingSegmentWriter.push, bind_eq_ok, okOr_eq_ok, checkedAdd_eq_some,
    width] at hPush
  obtain ⟨_, ⟨hLt, rfl⟩, hLoop⟩ := hPush
  exact pushLoop_packed (h.announce hLt) hSize hSizeLt hLoop

/-- `push` succeeds on data there is room for. -/
theorem push_room {ahead : Column → Bytes} {data rest : Bytes} (h : Room P w ahead)
    (hAhead : ahead c = data ++ rest) :
    ∃ w', w.push P c data = .ok w' ∧ Fed w w' c data ∧
      Room P w' (Function.update ahead c rest) := by
  have hEnds := h.fits.ends c
  obtain ⟨raws, hs, _⟩ := h.packed.streams c
  have hRawLen := hs.rawLen
  rw [hAhead, List.length_append, List.length_append] at hEnds
  have hLt : (w.states c).rawLen + data.length < 2 ^ 64 := by omega
  have hStart := h.packed.announce hLt
  let begun := w.setState c { w.states c with
    rawLen := (w.states c).rawLen + data.length, hashed := (w.states c).hashed ++ data }
  have hBegin : ∀ d, (begun.states d).hashed <+: (w.states d).hashed ++ ahead d := by
    intro d
    by_cases hd : d = c
    · subst hd
      simp [begun, StreamingSegmentWriter.setState, hAhead]
    · simp [begun, StreamingSegmentWriter.setState, hd]
  have hBegunFits : SegmentFits P begun.blockSize begun.zstdLevel
      (fun d => (w.states d).hashed ++ ahead d) w.streamStarts := h.fits
  obtain ⟨w', hLoop, hPacked, hSame⟩ :=
    pushLoop_within (w := begun) h.sizePos h.sizeLt hBegunFits hBegin le_rfl hStart
  have hPush : w.push P c data = .ok w' := by
    rw [StreamingSegmentWriter.push]
    rw [checkedAdd_of_lt (by rw [width]; exact hLt), okOr_some, ok_bind]
    exact hLoop
  have hFed := (push_spec h.packed.writerOk hPush).2
  refine ⟨w', hPush, hFed, hPacked, by rw [hFed.blockSize]; exact h.sizePos,
    by rw [hFed.blockSize]; exact h.sizeLt, ?_⟩
  have hTotal : (fun d => (w'.states d).hashed ++ Function.update ahead c rest d) =
      fun d => (w.states d).hashed ++ ahead d := by
    funext d
    rw [hFed.hashed d]
    by_cases hd : d = c
    · subst hd
      rw [if_pos rfl, Function.update_self, hAhead, List.append_assoc]
    · rw [if_neg hd, Function.update_of_ne hd]
  rw [hTotal, hFed.blockSize, hFed.zstdLevel, hFed.streamStarts]
  exact h.fits

end Push

/-! ## Several pushes -/

/-- Data for the streams, in the order it is pushed. -/
abbrev Feed := List (Column × Bytes)

/-- What a feed brings to one stream. -/
def Feed.to (c : Column) : Feed → Bytes
  | [] => []
  | (d, data) :: feed => if d = c then data ++ Feed.to c feed else Feed.to c feed

theorem Feed.to_append (c : Column) (feed feed' : Feed) :
    Feed.to c (feed ++ feed') = Feed.to c feed ++ Feed.to c feed' := by
  induction feed with
  | nil => rfl
  | cons row feed ih =>
    obtain ⟨d, data⟩ := row
    rw [List.cons_append, Feed.to, Feed.to, ih]
    by_cases hd : d = c
    · rw [if_pos hd, if_pos hd, List.append_assoc]
    · rw [if_neg hd, if_neg hd]

/-- The pushes of a feed. -/
def pushAll (P : Primitives) (w : StreamingSegmentWriter) (feed : Feed) :
    Except StoreError StreamingSegmentWriter := feed.foldlM (fun w row => w.push P row.1 row.2) w

/-- The writers differ in what the streams were fed. -/
structure FedAll (w w' : StreamingSegmentWriter) (feed : Feed) : Prop where
  streamStarts : w'.streamStarts = w.streamStarts
  blockSize : w'.blockSize = w.blockSize
  zstdLevel : w'.zstdLevel = w.zstdLevel
  generation : w'.generation = w.generation
  checkpointStart : w'.checkpointStart = w.checkpointStart
  versionStart : w'.versionStart = w.versionStart
  hashed : ∀ d, (w'.states d).hashed = (w.states d).hashed ++ Feed.to d feed

theorem FedAll.refl (w : StreamingSegmentWriter) : FedAll w w [] :=
  ⟨rfl, rfl, rfl, rfl, rfl, rfl, fun _ => (List.append_nil _).symm⟩

theorem FedAll.trans {w w' w'' : StreamingSegmentWriter} {feed feed' : Feed} (h : FedAll w w' feed)
    (h' : FedAll w' w'' feed') : FedAll w w'' (feed ++ feed') where
  streamStarts := h'.streamStarts.trans h.streamStarts
  blockSize := h'.blockSize.trans h.blockSize
  zstdLevel := h'.zstdLevel.trans h.zstdLevel
  generation := h'.generation.trans h.generation
  checkpointStart := h'.checkpointStart.trans h.checkpointStart
  versionStart := h'.versionStart.trans h.versionStart
  hashed := fun d => by rw [h'.hashed, h.hashed, Feed.to_append, List.append_assoc]

theorem Fed.all {w w' : StreamingSegmentWriter} {c : Column} {data : Bytes} (h : Fed w w' c data) :
    FedAll w w' [(c, data)] where
  streamStarts := h.streamStarts
  blockSize := h.blockSize
  zstdLevel := h.zstdLevel
  generation := h.generation
  checkpointStart := h.checkpointStart
  versionStart := h.versionStart
  hashed := fun d => by
    rw [h.hashed, Feed.to, Feed.to, List.append_nil]
    by_cases hd : d = c
    · rw [if_pos hd, if_pos hd.symm]
    · rw [if_neg hd, if_neg (Ne.symm hd), List.append_nil]

section Feeds

variable {w w' : StreamingSegmentWriter} {feed feed' : Feed}

theorem pushAll_fed (h : WriterOk P w noPending) (hAll : pushAll P w feed = .ok w') :
    WriterOk P w' noPending ∧ FedAll w w' feed := by
  induction feed generalizing w with
  | nil =>
    obtain rfl := Except.ok.inj hAll
    exact ⟨h, .refl w⟩
  | cons row feed ih =>
    rw [pushAll, List.foldlM_cons, bind_eq_ok] at hAll
    obtain ⟨next, hPush, hRest⟩ := hAll
    obtain ⟨hOk, hFed⟩ := push_spec h hPush
    obtain ⟨hOk', hAllFed⟩ := ih hOk hRest
    exact ⟨hOk', hFed.all.trans hAllFed⟩

theorem pushAll_packed (h : Packed P w noPending) (hSize : 0 < w.blockSize)
    (hSizeLt : w.blockSize < 2 ^ 32) (hAll : pushAll P w feed = .ok w') :
    Packed P w' noPending := by
  induction feed generalizing w with
  | nil =>
    obtain rfl := Except.ok.inj hAll
    exact h
  | cons row feed ih =>
    rw [pushAll, List.foldlM_cons, bind_eq_ok] at hAll
    obtain ⟨next, hPush, hRest⟩ := hAll
    have hSame := (push_spec h.writerOk hPush).2.blockSize
    exact ih (push_packed h hSize hSizeLt hPush) (by rw [hSame]; exact hSize)
      (by rw [hSame]; exact hSizeLt) hRest

/-- A feed goes through when there is room for all of it. -/
theorem pushAll_room {ahead : Column → Bytes} (h : Room P w fun c => Feed.to c feed ++ ahead c) :
    ∃ w', pushAll P w feed = .ok w' ∧ FedAll w w' feed ∧ Room P w' ahead := by
  induction feed generalizing w with
  | nil => exact ⟨w, rfl, .refl w, h⟩
  | cons row feed ih =>
    obtain ⟨c, data⟩ := row
    have hHere : Feed.to c ((c, data) :: feed) ++ ahead c =
        data ++ (Feed.to c feed ++ ahead c) := by
      rw [Feed.to, if_pos rfl, List.append_assoc]
    obtain ⟨next, hPush, hFed, hRoom⟩ := push_room h hHere
    have hAhead : Function.update (fun d => Feed.to d ((c, data) :: feed) ++ ahead d) c
        (Feed.to c feed ++ ahead c) = fun d => Feed.to d feed ++ ahead d := by
      funext d
      by_cases hd : d = c
      · subst hd
        rw [Function.update_self]
      · rw [Function.update_of_ne hd, Feed.to, if_neg (Ne.symm hd)]
    rw [hAhead] at hRoom
    obtain ⟨w', hAll, hFedAll, hDone⟩ := ih hRoom
    refine ⟨w', ?_, hFed.all.trans hFedAll, hDone⟩
    rw [pushAll, List.foldlM_cons, hPush, ok_bind]
    exact hAll

end Feeds

/-! ## Finishing -/

/-- The blocks and the buffer of every stream are the pieces of what it was fed. -/
structure Settled (P : Primitives) (w : StreamingSegmentWriter) (contents : Column → Bytes)
    (raws : Column → List Bytes) : Prop where
  within : Within P w contents raws noPending
  last : ∀ c, raws c ++ (if (w.states c).rawBuf.isEmpty then [] else [(w.states c).rawBuf]) =
    pieces w.blockSize (contents c)
  short : ∀ c, (w.states c).rawBuf.length ≤ w.blockSize

section Finish

variable {w w' : StreamingSegmentWriter} {contents : Column → Bytes} {raws : Column → List Bytes}
  {starts : Column → Nat} {c : Column}

theorem Packed.settled (h : Packed P w noPending) (hSize : 0 < w.blockSize) :
    ∃ raws, Settled P w (fun c => (w.states c).hashed) raws := by
  have hWhole : ∀ c, (w.states c).hashed <+: (w.states c).hashed := fun _ => List.prefix_rfl
  obtain ⟨raws, hw, hLen, hBuf⟩ := h.within hSize hWhole
  refine ⟨raws, hw, fun c => ?_, fun c => (hBuf c).le⟩
  have hHashed := (hw.holds c).hashed
  rw [noPending, List.append_nil] at hHashed
  obtain ⟨hChunks, hRest⟩ := chunksExact_eq hSize (hLen c) (hBuf c)
  rw [hHashed, pieces, hChunks, hRest]

theorem Settled.next (h : Settled P w contents raws)
    (hFull : ¬ (w.states c).rawBuf.isEmpty = true) :
    NextPiece w contents raws c := by
  have hLast := h.last c
  rw [if_neg hFull] at hLast
  rw [NextPiece, hLast]

theorem Settled.flushed (h : Settled P w contents raws)
    (hFull : ¬ (w.states c).rawBuf.isEmpty = true) (hSizeLt : w.blockSize < 2 ^ 32)
    (hEncoded : (P.compress w.zstdLevel (w.states c).rawBuf).length < 2 ^ 32) :
    Settled P (w.flushed P c) contents
      (Function.update raws c (raws c ++ [(w.states c).rawBuf])) where
  within := h.within.flushed hEncoded (lt_of_le_of_lt (h.short c) hSizeLt) (h.next hFull)
  last := fun d => by
    by_cases hd : d = c
    · subst hd
      have hLast := h.last d
      rw [if_neg hFull] at hLast
      simp only [StreamingSegmentWriter.flushed, StreamingSegmentWriter.setState,
        Function.update_self, List.isEmpty_nil, if_true, List.append_nil]
      exact hLast
    · simp only [StreamingSegmentWriter.flushed, StreamingSegmentWriter.setState,
        Function.update_of_ne hd]
      exact h.last d
  short := fun d => by
    by_cases hd : d = c
    · subst hd
      simp [StreamingSegmentWriter.flushed, StreamingSegmentWriter.setState]
    · simp only [StreamingSegmentWriter.flushed, StreamingSegmentWriter.setState,
        Function.update_of_ne hd]
      exact h.short d

theorem Settled.flush (h : Settled P w contents raws) (hSizeLt : w.blockSize < 2 ^ 32)
    (hFlush : w.flushStreamBlock P c = .ok w') :
    ∃ raws', Settled P w' contents raws' ∧ w'.blockSize = w.blockSize := by
  by_cases hFull : (w.states c).rawBuf.isEmpty = true
  · rw [StreamingSegmentWriter.flushStreamBlock] at hFlush
    dsimp only at hFlush
    rw [if_pos hFull] at hFlush
    obtain rfl := Except.ok.inj hFlush
    exact ⟨raws, h, rfl⟩
  · obtain ⟨hEncoded, rfl⟩ := flushStreamBlock_inv hFull hFlush
    exact ⟨_, h.flushed hFull hSizeLt hEncoded, rfl⟩

theorem Settled.flushAll {cs : List Column} (h : Settled P w contents raws)
    (hSizeLt : w.blockSize < 2 ^ 32) (hFlush : w.flushAll P cs = .ok w') :
    ∃ raws', Settled P w' contents raws' := by
  induction cs generalizing w raws with
  | nil =>
    obtain rfl := Except.ok.inj hFlush
    exact ⟨raws, h⟩
  | cons c cs ih =>
    obtain ⟨next, hNext, hRest⟩ := bind_eq_ok.mp hFlush
    obtain ⟨_, hSettled, hSize⟩ := h.flush hSizeLt hNext
    exact ih hSettled (by rw [hSize]; exact hSizeLt) hRest

theorem flushAll_settled {cs : List Column} (h : Settled P w contents raws)
    (hSize : 0 < w.blockSize) (hSizeLt : w.blockSize < 2 ^ 32)
    (hFits : SegmentFits P w.blockSize w.zstdLevel contents starts) :
    ∃ w', w.flushAll P cs = .ok w' := by
  induction cs generalizing w raws with
  | nil => exact ⟨w, rfl⟩
  | cons c cs ih =>
    by_cases hFull : (w.states c).rawBuf.isEmpty = true
    · obtain ⟨w', hRest⟩ := ih h hSize hSizeLt hFits
      refine ⟨w', ?_⟩
      rw [StreamingSegmentWriter.flushAll, StreamingSegmentWriter.flushStreamBlock]
      dsimp only
      rw [if_pos hFull, ok_bind]
      exact hRest
    · have hNext := h.next hFull
      have hFlush := flushStreamBlock_within h.within hFits hSize hSizeLt (h.short c)
        (by simpa using hFull) hNext
      obtain ⟨w', hRest⟩ := ih (h.flushed hFull hSizeLt (hNext.encoded_lt hFits)) hSize hSizeLt
        hFits
      refine ⟨w', ?_⟩
      rw [StreamingSegmentWriter.flushAll, hFlush, ok_bind]
      exact hRest

/-- Without anything in the buffers the blocks are the pieces. -/
theorem Settled.all (h : Settled P w contents raws) (hEmpty : ∀ c, (w.states c).rawBuf = [])
    (c : Column) :
    raws c = pieces w.blockSize (contents c) := by
  have hLast := h.last c
  rw [hEmpty c] at hLast
  simpa using hLast

theorem Settled.count (h : Settled P w contents raws) (hEmpty : ∀ c, (w.states c).rawBuf = []) :
    (Column.all.map w.blockEntries).flatten.length = segmentBlocks w.blockSize contents := by
  rw [List.length_flatten, List.map_map, segmentBlocks, columnSum]
  congr 1
  refine List.map_congr_left fun c _ => ?_
  rw [Function.comp_apply, blockEntries_eq, List.length_map, ← h.all hEmpty c,
    (h.within.holds c).blocks.length]

theorem Settled.payload (h : Settled P w contents raws) (hEmpty : ∀ c, (w.states c).rawBuf = []) :
    w.payload.length = segmentPayload P w.blockSize w.zstdLevel contents := by
  rw [h.within.stored, segmentPayload]
  refine columnSum_congr fun c => ?_
  rw [(h.within.holds c).blocks.encodedLens, h.all hEmpty c]

theorem Settled.rawLen (h : Settled P w contents raws)
    (hHashed : ∀ c, (w.states c).hashed = contents c)
    (c : Column) : (w.states c).rawLen = (contents c).length := by
  rw [(h.within.holds c).rawLen, hHashed c]

/-! ### The tables -/

theorem streamEntries_ok {cs : List Column} {count : Nat}
    (hEnds : ∀ c ∈ cs, w.streamStarts c + (w.states c).rawLen < 2 ^ 64)
    (hCount : count + (cs.map w.blockEntries).flatten.length < 2 ^ 32) :
    ∃ entries, w.streamEntries P count cs = .ok entries := by
  induction cs generalizing count with
  | nil => exact ⟨[], rfl⟩
  | cons c cs ih =>
    rw [List.map_cons, List.flatten_cons, List.length_append, blockEntries_eq,
      List.length_map] at hCount
    have hRestCount : count + (w.states c).blocks.length +
        (cs.map w.blockEntries).flatten.length < 2 ^ 32 := by omega
    obtain ⟨rest, hRest⟩ := ih (fun d hd => hEnds d (List.mem_cons_of_mem c hd)) hRestCount
    have hEnd := hEnds c List.mem_cons_self
    rw [StreamingSegmentWriter.streamEntries]
    rw [tryFrom_of_lt (show count < width 32 by rw [width]; omega), okOr_some, ok_bind,
      checkedAdd_of_lt (by rw [width]; exact hEnd), okOr_some, ok_bind,
      tryFrom_of_lt (show (w.states c).blocks.length < width 32 by rw [width]; omega), okOr_some,
      ok_bind, hRest, ok_bind]
    exact ⟨_, rfl⟩

theorem streamEntries_rawLens {cs : List Column} {count : Nat} {entries : List StreamEntry}
    (h : w.streamEntries P count cs = .ok entries) :
    entries.map StreamEntry.rawLen = cs.map fun c => (w.states c).rawLen := by
  induction cs generalizing count entries with
  | nil =>
    obtain rfl := Except.ok.inj h
    rfl
  | cons c cs ih =>
    simp only [StreamingSegmentWriter.streamEntries, bind_eq_ok, Except.ok.injEq] at h
    obtain ⟨_, _, _, _, _, _, rest, hRest, rfl⟩ := h
    rw [List.map_cons, List.map_cons, ih hRest]

theorem rawTotal_eq_ok {total result : Nat} {entries : List StreamEntry} (hTotal : total < 2 ^ 64) :
    StreamingSegmentWriter.rawTotal total entries = .ok result ↔
      total + (entries.map StreamEntry.rawLen).sum < 2 ^ 64 ∧
        result = total + (entries.map StreamEntry.rawLen).sum := by
  induction entries generalizing total with
  | nil =>
    rw [StreamingSegmentWriter.rawTotal, Except.ok.injEq, List.map_nil, List.sum_nil]
    omega
  | cons e entries ih =>
    rw [StreamingSegmentWriter.rawTotal, List.map_cons, List.sum_cons]
    simp only [bind_eq_ok, okOr_eq_ok, checkedAdd_eq_some, width]
    constructor
    · intro h
      obtain ⟨_, ⟨hLt, rfl⟩, hRest⟩ := h
      obtain ⟨hSum, rfl⟩ := (ih hLt).mp hRest
      omega
    · intro h
      obtain ⟨hSum, rfl⟩ := h
      have hLt : total + e.rawLen < 2 ^ 64 := by omega
      exact ⟨_, ⟨hLt, rfl⟩, (ih hLt).mpr ⟨by omega, by omega⟩⟩

theorem length_index {entries : List StreamEntry} (hEntries : entries.length = streamCount)
    (blocks : List BlockEntry) :
    ((entries.map StreamEntry.bytes).flatten ++ (blocks.map BlockEntry.bytes).flatten).length =
      streamCount * streamEntrySize + blocks.length * blockEntrySize := by
  have hStreams : (entries.map StreamEntry.bytes).flatten.length =
      streamCount * streamEntrySize := by
    rw [length_flatten_records (w := streamEntrySize), List.length_map, hEntries]
    intro x hx
    obtain ⟨e, _, rfl⟩ := List.mem_map.mp hx
    exact e.length_bytes
  have hBlocks : (blocks.map BlockEntry.bytes).flatten.length = blocks.length * blockEntrySize := by
    rw [length_flatten_records (w := blockEntrySize), List.length_map]
    intro x hx
    obtain ⟨e, _, rfl⟩ := List.mem_map.mp hx
    exact e.length_bytes
  rw [List.length_append, hStreams, hBlocks]

/-- The length of the file `finalize` puts together. -/
theorem Settled.fileLength (h : Settled P w contents raws) (hEmpty : ∀ c, (w.states c).rawBuf = [])
    {entries : List StreamEntry} (hEntries : w.streamEntries P 0 Column.all = .ok entries)
    (header : SegmentHeader) :
    (segmentHeaderBytes P header ++ w.payload ++ ((entries.map StreamEntry.bytes).flatten ++
      ((Column.all.map w.blockEntries).flatten.map BlockEntry.bytes).flatten)).length =
      segmentLength P w.blockSize w.zstdLevel contents := by
  rw [List.length_append, List.length_append, length_segmentHeaderBytes, h.payload hEmpty,
    length_index (streamEntries_length hEntries), h.count hEmpty, segmentLength]

theorem rawTotal_settled (h : Settled P w contents raws)
    (hHashed : ∀ c, (w.states c).hashed = contents c) {entries : List StreamEntry}
    (hEntries : w.streamEntries P 0 Column.all = .ok entries) {result : Nat} :
    StreamingSegmentWriter.rawTotal 0 entries = .ok result ↔
      (columnSum fun c => (contents c).length) < 2 ^ 64 ∧
        result = columnSum fun c => (contents c).length := by
  have hSum : (entries.map StreamEntry.rawLen).sum = columnSum fun c => (contents c).length := by
    rw [streamEntries_rawLens hEntries, columnSum]
    congr 1
    exact List.map_congr_left fun c _ => h.rawLen hHashed c
  rw [rawTotal_eq_ok (Nat.two_pow_pos 64), Nat.zero_add, hSum]

/-- With room for what it was fed the writer can finish its segment. -/
theorem finalize_room (h : Room P w fun _ => []) (walStart walEnd checkpointEnd versionEnd : Nat) :
    ∃ m file, w.finalize P walStart walEnd checkpointEnd versionEnd = .ok (m, file) := by
  obtain ⟨hPacked, hSize, hSizeLt, hFits⟩ := h
  simp only [List.append_nil] at hFits
  obtain ⟨raws, hSettled⟩ := hPacked.settled hSize
  obtain ⟨w', hFlush⟩ : ∃ w', w.flushAll P Column.all = .ok w' :=
    flushAll_settled hSettled hSize hSizeLt hFits
  obtain ⟨raws', hSettled'⟩ := hSettled.flushAll hSizeLt hFlush
  obtain ⟨_, hSame, hEmpty, _⟩ := flushAll_spec hPacked.writerOk hFlush
  have hEmpty : ∀ c, (w'.states c).rawBuf = [] := fun c => hEmpty c c.mem_all
  rw [← hSame.blockSize, ← hSame.zstdLevel, ← hSame.streamStarts] at hFits
  have hCount := hSettled'.count hEmpty
  have hBlocks := hFits.blocks
  have hEnds : ∀ c ∈ Column.all, w'.streamStarts c + (w'.states c).rawLen < 2 ^ 64 := by
    intro c _
    rw [hSettled'.rawLen hSame.hashed c]
    exact hFits.ends c
  have hFew : 0 + (Column.all.map w'.blockEntries).flatten.length < 2 ^ 32 := by
    rw [hCount]
    omega
  obtain ⟨entries, hEntries⟩ := streamEntries_ok (P := P) hEnds hFew
  have hTotal := (rawTotal_settled hSettled' hSame.hashed hEntries).mpr ⟨hFits.raw, rfl⟩
  have hFile := hFits.file
  have hPayload := hSettled'.payload hEmpty
  have hHeaderLt : segmentHeaderSize + w'.payloadBytes < width 64 := by
    rw [hSettled'.within.payloadBytes, hPayload, width]
    rw [segmentLength] at hFile
    omega
  have hTableLt : (Column.all.map w'.blockEntries).flatten.length * blockEntrySize < width 64 := by
    rw [hCount, width]
    rw [segmentLength] at hFile
    omega
  rw [StreamingSegmentWriter.finalize, hFlush, ok_bind, hEntries, ok_bind]
  dsimp only
  rw [checkedAdd_of_lt hHeaderLt, okOr_some, ok_bind,
    tryFrom_of_lt (show _ < width 32 by rw [hCount, width]; exact hBlocks), okOr_some, ok_bind,
    checkedMul, tryFrom_of_lt hTableLt, okOr_some, ok_bind, tryFrom_of_lt, okOr_some, ok_bind,
    hTotal, ok_bind]
  · exact ⟨_, _, rfl⟩
  · rw [hSettled'.fileLength hEmpty hEntries, width]
    exact hFile

/-- A finished segment fits. -/
theorem finalize_fits (h : Packed P w noPending) (hSize : 0 < w.blockSize)
    (hSizeLt : w.blockSize < 2 ^ 32) {walStart walEnd checkpointEnd versionEnd : Nat}
    {result : SegmentMeta × Bytes}
    (hFinal : w.finalize P walStart walEnd checkpointEnd versionEnd = .ok result) :
    SegmentFits P w.blockSize w.zstdLevel (fun c => (w.states c).hashed) w.streamStarts := by
  obtain ⟨raws, hSettled⟩ := h.settled hSize
  simp only [StreamingSegmentWriter.finalize, bind_eq_ok, okOr_eq_ok, checkedMul, tryFrom_eq_some,
    checkedAdd_eq_some, width, Except.ok.injEq] at hFinal
  obtain ⟨w', hFlush, entries, hEntries, _, ⟨_, rfl⟩, _, ⟨hCountLt, rfl⟩, _, ⟨_, rfl⟩,
    _, ⟨hFileLt, rfl⟩, total, hTotal, _⟩ := hFinal
  obtain ⟨raws', hSettled'⟩ := hSettled.flushAll hSizeLt hFlush
  obtain ⟨_, hSame, hEmpty, _⟩ := flushAll_spec h.writerOk hFlush
  have hEmpty : ∀ c, (w'.states c).rawBuf = [] := fun c => hEmpty c c.mem_all
  rw [hSettled'.fileLength hEmpty hEntries] at hFileLt
  rw [hSettled'.count hEmpty] at hCountLt
  rw [← hSame.blockSize, ← hSame.zstdLevel, ← hSame.streamStarts]
  refine ⟨fun c => ?_, ((rawTotal_settled hSettled' hSame.hashed hEntries).mp hTotal).1, ?_,
    hCountLt, hFileLt⟩
  · have hEnd := (streamEntries_globalEnd hEntries c.getElem?_all).2
    rw [hSettled'.rawLen hSame.hashed c] at hEnd
    exact hEnd
  · intro c raw hRaw
    rw [← hSettled'.all hEmpty c] at hRaw
    have hHolds := (hSettled'.within.holds c).blocks
    have hMem : (P.compress w'.zstdLevel raw).length ∈
        ((w'.states c).blocks.map LocalBlock.encodedLen) := by
      rw [hHolds.encodedLens]
      exact List.mem_map_of_mem hRaw
    obtain ⟨block, hBlock, hLen⟩ := List.mem_map.mp hMem
    obtain ⟨_, _, hb, _⟩ := hHolds.mem block hBlock
    rw [← hLen]
    exact hb.encodedLt

end Finish

/-! ## Which contents can be written -/

/-- A segment can be written exactly if its contents fit, in whatever pieces they are pushed. -/
theorem segment_writes_iff {starts : Column → Nat} {blockSize : Nat} {level : Int} {feed : Feed}
    (hSize : 0 < blockSize) (hSizeLt : blockSize < 2 ^ 32)
    (generation checkpointStart versionStart walStart walEnd checkpointEnd versionEnd : Nat) :
    (∃ w result, pushAll P (.new generation starts checkpointStart versionStart blockSize level)
        feed = .ok w ∧ w.finalize P walStart walEnd checkpointEnd versionEnd = .ok result) ↔
      SegmentFits P blockSize level (fun c => Feed.to c feed) starts := by
  have hNew : Packed P (.new generation starts checkpointStart versionStart blockSize level)
      noPending := Packed.new generation starts checkpointStart versionStart hSize level
  constructor
  · rintro ⟨w, result, hAll, hFinal⟩
    have hFed := (pushAll_fed hNew.writerOk hAll).2
    have hPacked := pushAll_packed hNew hSize hSizeLt hAll
    have hFits := finalize_fits hPacked (by rw [hFed.blockSize]; exact hSize)
      (by rw [hFed.blockSize]; exact hSizeLt) hFinal
    have hContents : (fun c => (w.states c).hashed) = fun c => Feed.to c feed := by
      funext c
      rw [hFed.hashed c]
      rfl
    rw [hContents, hFed.blockSize, hFed.zstdLevel, hFed.streamStarts] at hFits
    exact hFits
  · intro hFits
    have hRoom : Room P (.new generation starts checkpointStart versionStart blockSize level)
        fun c => Feed.to c feed ++ [] := by
      refine ⟨hNew, hSize, hSizeLt, ?_⟩
      simp only [List.append_nil]
      exact hFits
    obtain ⟨w, hAll, -, hDone⟩ := pushAll_room hRoom
    obtain ⟨m, file, hFinal⟩ := finalize_room hDone walStart walEnd checkpointEnd versionEnd
    exact ⟨w, (m, file), hAll, hFinal⟩

/-- A compressor that copies. -/
def copyingPrimitives : Primitives where
  xxh3 _ := 0
  sha256 _ := Vector.replicate 32 0
  compress _ bytes := bytes
  decompress bytes _ := some bytes

theorem segment_writes_iff_sample :
    (∃ w result, pushAll copyingPrimitives (.new 1 (fun _ => 0) 0 0 4 0)
        [(.payload, [1, 2, 3, 4, 5])] = .ok w ∧
      w.finalize copyingPrimitives 0 5 1 1 = .ok result) ↔
      SegmentFits copyingPrimitives 4 0 (fun c => Feed.to c [(.payload, [1, 2, 3, 4, 5])])
        fun _ => 0 :=
  segment_writes_iff (by decide) (by decide) 1 0 0 0 5 1 1

end TulyaStore.Checkpoint
