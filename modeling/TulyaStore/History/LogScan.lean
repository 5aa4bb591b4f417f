import TulyaStore.History.Log

/-!
# What the scan of a history log finds

`probe_frame` and `frame_of_probe_complete` say that a frame is recognised exactly where a
frame stands, and `probe_eq_torn` describes the torn tails. From these the scan passes the
frames in front of any position (`decodeFrames_frames`), and `decodeHistoryLog_damaged_iff`
decides what a damaged frame does: the scan reports it unless the altered length field
announces more bytes than the file has left.
-/

namespace TulyaStore.History

open Lib Sequence

variable {sha256 : Bytes → Digest}

/-! ## Complete frames -/

/-- The frame of a body. -/
def frameBytes (sha256 : Bytes → Digest) (body : Bytes) : Bytes :=
  framePrefix body ++ (frameDigest sha256 (framePrefix body)).toList

theorem encodeHistoryLogFrame_eq_ok {body frame : Bytes} :
    encodeHistoryLogFrame sha256 body = .ok frame ↔
      body.length + 56 < width 64 ∧ frame = frameBytes sha256 body := by
  simp only [encodeHistoryLogFrame, bind_eq_ok, okOr_eq_ok, checkedAdd_eq_some, pure_eq_ok,
    historyLogHeaderSize, historyLogFooterSize]
  constructor
  · rintro ⟨_, ⟨hLt, _⟩, rfl⟩
    exact ⟨hLt, rfl⟩
  · rintro ⟨hLt, rfl⟩
    exact ⟨_, ⟨hLt, rfl⟩, rfl⟩

@[simp] theorem length_historyLogMagic : historyLogMagic.length = 4 := by decide

@[simp] theorem length_historyLogFooterMagic : historyLogFooterMagic.length = 4 := by decide

theorem length_framePrefix (body : Bytes) : (framePrefix body).length = body.length + 24 := by
  simp only [framePrefix, List.length_append, length_historyLogMagic, length_leBytes,
    length_historyLogFooterMagic]
  omega

theorem length_frameBytes (body : Bytes) :
    (frameBytes sha256 body).length = body.length + 56 := by
  simp only [frameBytes, List.length_append, length_framePrefix, Vector.length_toList]

/-- The length field of the frame that starts the bytes. -/
def announcedLen (bytes : Bytes) : Nat := leValue ((bytes.drop 4).take 8)

theorem readLe_eq_announcedLen {bytes : Bytes} (h : 12 ≤ bytes.length) :
    readLe 8 bytes 4 = some (announcedLen bytes) := by
  have hSlice : slice bytes 4 (4 + 8) = some ((bytes.drop 4).take 8) :=
    slice_eq_some.mpr ⟨by omega, by omega, rfl⟩
  rw [readLe, hSlice, Option.map_some, announcedLen]

theorem probe_frame {body : Bytes} (h : body.length + 56 < width 64) (rest : Bytes) :
    probeHistoryLogFrame sha256 (frameBytes sha256 body ++ rest) =
      .ok (.complete body (body.length + 56)) := by
  have hWidth : width 64 = 256 ^ 8 := by decide
  set digest := (frameDigest sha256 (framePrefix body)).toList with hDigest
  have hDigestLen : digest.length = 32 := by simp [hDigest]
  set footer := historyLogFooterMagic ++ (leBytes 8 (body.length + 56) ++ digest) with hFooter
  have hShape : frameBytes sha256 body ++ rest =
      historyLogMagic ++ (leBytes 8 body.length ++ (body ++ (footer ++ rest))) := by
    simp [frameBytes, framePrefix, footer, digest, historyLogHeaderSize, historyLogFooterSize]
  have hLen := @length_frameBytes sha256 body
  have hFooterLen : footer.length = 44 := by
    simp [footer, hDigestLen]
  have hMagic : (frameBytes sha256 body ++ rest).take 4 = historyLogMagic := by
    rw [hShape]
    exact List.take_left' rfl
  have hBodyLen : readLe 8 (frameBytes sha256 body ++ rest) 4 = some body.length := by
    rw [hShape, readLe_skip _ _ (by simp)]
    exact readLe_here _ (by omega)
  have hAdd : checkedAdd 64 body.length (historyLogHeaderSize + historyLogFooterSize) =
      some (body.length + 56) := checkedAdd_of_lt h
  have hBody : slice (frameBytes sha256 body ++ rest) historyLogHeaderSize
      (historyLogHeaderSize + body.length) = some body := by
    rw [hShape, ← List.append_assoc]
    exact slice_at (by simp [historyLogHeaderSize]) (by simp [historyLogHeaderSize])
  have hFooterSlice : slice (frameBytes sha256 body ++ rest)
      (historyLogHeaderSize + body.length) (body.length + 56) = some footer := by
    rw [hShape, ← List.append_assoc, ← List.append_assoc]
    exact slice_at (by simp [historyLogHeaderSize]; omega) (by simp [hFooterLen]; omega)
  have hStored : readLe 8 footer 4 = some (body.length + 56) := by
    rw [hFooter, readLe_skip _ _ (by simp)]
    exact readLe_here _ (by omega)
  have hStoredDigest : slice footer 12 44 = some digest := by
    have hAt : slice ((historyLogFooterMagic ++ leBytes 8 (body.length + 56)) ++ (digest ++ []))
        12 44 = some digest := slice_at (by simp) (by simp [hDigestLen])
    rw [hFooter]
    simpa using hAt
  have hPrefix : (frameBytes sha256 body ++ rest).take (body.length + 56 - 32) =
      framePrefix body := by
    rw [frameBytes, List.append_assoc]
    exact List.take_left' (by rw [length_framePrefix]; omega)
  unfold probeHistoryLogFrame
  rw [if_neg (by simp only [length_historyLogMagic, List.length_append]; omega),
    if_neg (not_not.mpr hMagic),
    if_neg (by simp only [historyLogHeaderSize, List.length_append]; omega), hBodyLen, okOr_some,
    ok_bind, hAdd, okOr_some, ok_bind, if_neg (by simp only [List.length_append]; omega), hBody,
    okOr_some, ok_bind, hFooterSlice, okOr_some, ok_bind, failIf_neg (by simp [hFooter]), ok_bind,
    hStored, okOr_some, ok_bind, failIf_neg (by simp), ok_bind, hPrefix,
    failIf_neg (not_not.mpr hStoredDigest), ok_bind]
  rfl

/-- A frame is found only where one stands. -/
theorem frame_of_probe_complete {bytes body : Bytes} {consumed : Nat}
    (h : probeHistoryLogFrame sha256 bytes = .ok (.complete body consumed)) :
    consumed = body.length + 56 ∧ ∃ rest, bytes = frameBytes sha256 body ++ rest := by
  unfold probeHistoryLogFrame at h
  split at h
  case isTrue => cases h
  case isFalse =>
  split at h
  case isTrue => cases h
  case isFalse hMagic =>
  split at h
  case isTrue => cases h
  case isFalse hHeader =>
  have hMagic : bytes.take 4 = historyLogMagic := not_not.mp hMagic
  simp only [historyLogHeaderSize, Nat.not_lt] at hHeader
  rw [readLe_eq_announcedLen hHeader, okOr_some, ok_bind] at h
  obtain ⟨frameLen, hAdd, h⟩ := bind_eq_ok.mp h
  obtain ⟨-, rfl⟩ := checkedAdd_eq_some.mp (okOr_eq_ok.mp hAdd)
  split at h
  case isTrue => cases h
  case isFalse hFits =>
  simp only [bind_eq_ok, okOr_eq_ok, failIf_eq_ok, pure_eq_ok, not_not] at h
  obtain ⟨body', hBody, footer, hFooter, -, hFooterMagic, stored, hStored, -, rfl, -, hDigest,
    hResult⟩ := h
  simp only [historyLogHeaderSize, historyLogFooterSize] at *
  obtain ⟨rfl, rfl⟩ : body' = body ∧ announcedLen bytes + 56 = consumed := by
    simpa using hResult
  have hBodyLen : body'.length = announcedLen bytes := by
    rw [length_of_slice hBody]
    omega
  have hFooterLen : footer.length = 44 := by
    rw [length_of_slice hFooter]
    omega
  -- the pieces of the frame, in the order they stand in the file
  have h0 : slice bytes 0 4 = some historyLogMagic :=
    slice_eq_some.mpr ⟨by omega, by omega, by simpa using hMagic⟩
  have h4 : slice bytes 4 12 = some (leBytes 8 body'.length) := by
    refine slice_eq_some.mpr ⟨by omega, by omega, ?_⟩
    have hLen : ((bytes.drop 4).take 8).length = 8 := by
      simp only [List.length_take, List.length_drop]
      omega
    have hBytes := leBytes_leValue ((bytes.drop 4).take 8)
    rw [hLen] at hBytes
    rw [hBodyLen, announcedLen, hBytes]
  have hF0 : slice bytes (12 + announcedLen bytes) (12 + announcedLen bytes + 4) =
      some historyLogFooterMagic := by
    have hPart := slice_slice hFooter (Nat.zero_le 4) (by omega)
    simpa [hFooterMagic] using hPart
  have hF4 : slice bytes (12 + announcedLen bytes + 4) (12 + announcedLen bytes + 12) =
      some (leBytes 8 (announcedLen bytes + 56)) := by
    have hPart := slice_slice hFooter (show 4 ≤ 12 by omega) (by omega)
    have hValue : leValue ((footer.drop 4).take 8) = announcedLen bytes + 56 := by
      have hField : readLe 8 footer 4 = some (announcedLen footer) :=
        readLe_eq_announcedLen (by omega)
      rw [hStored] at hField
      exact (Option.some.inj hField).symm
    have hLen : ((footer.drop 4).take 8).length = 8 := by
      simp only [List.length_take, List.length_drop]
      omega
    have hBytes := leBytes_leValue ((footer.drop 4).take 8)
    rw [hLen, hValue] at hBytes
    rw [hPart, hBytes]
  have hPrefix : slice bytes 0 (12 + announcedLen bytes + 12) = some (framePrefix body') := by
    have hAll := slice_concat (slice_concat (slice_concat (slice_concat h0 h4) hBody) hF0) hF4
    rw [hAll, framePrefix, hBodyLen]
    rfl
  have hTake : bytes.take (announcedLen bytes + (12 + 44) - 32) = framePrefix body' := by
    obtain ⟨-, -, hTake⟩ := slice_eq_some.mp hPrefix
    have hSize : announcedLen bytes + (12 + 44) - 32 = 12 + announcedLen bytes + 12 := by omega
    rw [hSize]
    simpa using hTake
  have hFrame : slice bytes 0 (announcedLen bytes + 56) = some (frameBytes sha256 body') := by
    have hPart := slice_slice hFooter (show 12 ≤ 44 by omega) (by omega)
    obtain ⟨-, -, hStoredDigest⟩ := slice_eq_some.mp hDigest
    rw [hTake] at hStoredDigest
    rw [hStoredDigest] at hPart
    have hAll := slice_concat hPrefix hPart
    rw [frameBytes, ← hAll]
    congr 1
    omega
  refine ⟨by omega, bytes.drop (announcedLen bytes + 56), ?_⟩
  obtain ⟨-, -, hTakeAll⟩ := slice_eq_some.mp hFrame
  have hTakeAll : bytes.take (announcedLen bytes + 56) = frameBytes sha256 body' := by
    simpa using hTakeAll
  rw [← hTakeAll, List.take_append_drop]

/-- The bytes start with a header whose length field announces more than there is. -/
def Overruns (bytes : Bytes) : Prop :=
  bytes.take 4 = historyLogMagic ∧ announcedLen bytes + 56 < width 64 ∧
    bytes.length < announcedLen bytes + 56

instance (bytes : Bytes) : Decidable (Overruns bytes) := inferInstanceAs (Decidable (_ ∧ _ ∧ _))

/-- With a whole header in sight, the torn tails are the frames longer than the rest. -/
theorem probe_eq_torn {bytes : Bytes} (h : 12 ≤ bytes.length) :
    probeHistoryLogFrame sha256 bytes = .ok .torn ↔ Overruns bytes := by
  unfold probeHistoryLogFrame Overruns
  rw [if_neg (by simp only [length_historyLogMagic]; omega)]
  split
  case isTrue hMagic => simp [hMagic]
  case isFalse hMagic =>
  have hMagic : bytes.take 4 = historyLogMagic := not_not.mp hMagic
  rw [if_neg (by simp only [historyLogHeaderSize]; omega), readLe_eq_announcedLen h, okOr_some,
    ok_bind]
  by_cases hFits : announcedLen bytes + 56 < width 64
  case neg =>
    rw [checkedAdd_of_le (by simpa [historyLogHeaderSize, historyLogFooterSize] using hFits)]
    simp [hFits]
  case pos =>
  have hAdd : checkedAdd 64 (announcedLen bytes) (historyLogHeaderSize + historyLogFooterSize) =
      some (announcedLen bytes + 56) := checkedAdd_of_lt hFits
  rw [hAdd, okOr_some, ok_bind]
  split
  case isTrue hOver => simp [hMagic, hFits, hOver, pure, Except.pure]
  case isFalse hOver =>
  have hNot : ¬ bytes.length < announcedLen bytes + 56 := hOver
  simp only [hNot, and_false, iff_false]
  intro hTorn
  simp only [bind_eq_ok, pure_eq_ok, reduceCtorEq, and_false, exists_const] at hTorn

/-! ## Passing complete frames -/

/-- The frames of bodies, one after the other. -/
def framesBytes (sha256 : Bytes → Digest) (bodies : List Bytes) : Bytes :=
  (bodies.map (frameBytes sha256)).flatten

theorem framesBytes_cons (body : Bytes) (bodies : List Bytes) :
    framesBytes sha256 (body :: bodies) = frameBytes sha256 body ++ framesBytes sha256 bodies := by
  simp [framesBytes]

/-- The turn of the scan at a complete frame. -/
theorem decodeFrames_frame {bytes body rest : Bytes} {offset : Nat} (fuel : Nat)
    (records : List HistoryLogRecord) (hSize : bytes.length < width 64)
    (hAt : bytes.drop offset = frameBytes sha256 body ++ rest) :
    decodeFrames sha256 bytes (fuel + 1) offset records =
      (decodeHistoryLogRecord body >>= fun record =>
        decodeFrames sha256 bytes fuel (offset + (body.length + 56)) (records ++ [record])) := by
  have hLen := congrArg List.length hAt
  simp only [List.length_drop, List.length_append, length_frameBytes] at hLen
  have hNext : offset + (body.length + 56) < width 64 := by omega
  rw [decodeFrames, if_pos (by omega), hAt, probe_frame (by omega), ok_bind]
  simp only [checkedAdd_of_lt hNext, okOr_some, ok_bind]

/-- The scan over the frames that stand in front of anything. -/
theorem decodeFrames_frames {bytes rest : Bytes} {bodies : List Bytes} {offset : Nat} (fuel : Nat)
    (records : List HistoryLogRecord) (hSize : bytes.length < width 64)
    (hAt : bytes.drop offset = framesBytes sha256 bodies ++ rest) :
    decodeFrames sha256 bytes (bodies.length + fuel) offset records =
      (bodies.mapM decodeHistoryLogRecord >>= fun found =>
        decodeFrames sha256 bytes fuel (offset + (framesBytes sha256 bodies).length)
          (records ++ found)) := by
  induction bodies generalizing offset records with
  | nil => simp [framesBytes, pure, Except.pure]
  | cons body bodies ih =>
    rw [framesBytes_cons, List.append_assoc] at hAt
    have hNext : bytes.drop (offset + (body.length + 56)) = framesBytes sha256 bodies ++ rest := by
      rw [← List.drop_drop, hAt]
      exact List.drop_left' (length_frameBytes body)
    have hFuel : (body :: bodies).length + fuel = bodies.length + fuel + 1 := by
      rw [List.length_cons]
      omega
    rw [hFuel, decodeFrames_frame _ records hSize hAt, List.mapM_cons]
    cases decodeHistoryLogRecord body with
    | error e => rfl
    | ok record =>
      simp only [ok_bind]
      rw [ih _ hNext]
      cases bodies.mapM decodeHistoryLogRecord with
      | error e => rfl
      | ok found =>
        simp only [ok_bind, pure_bind]
        rw [framesBytes_cons, List.length_append, length_frameBytes, Nat.add_assoc offset]
        simp only [List.append_assoc, List.singleton_append]

/-- The bodies of a written log. -/
theorem bodies_of_encodeHistoryLog {records : List HistoryLogRecord} {log : Bytes}
    (h : encodeHistoryLog sha256 records = .ok log) :
    ∃ bodies, records.mapM encodeHistoryLogRecord = .ok bodies ∧
      log = framesBytes sha256 bodies := by
  induction records generalizing log with
  | nil =>
    cases h
    exact ⟨[], rfl, rfl⟩
  | cons record records ih =>
    simp only [encodeHistoryLog, bind_eq_ok, pure_eq_ok] at h
    obtain ⟨body, hBody, frame, hFrame, rest, hRest, rfl⟩ := h
    obtain ⟨-, rfl⟩ := encodeHistoryLogFrame_eq_ok.mp hFrame
    obtain ⟨bodies, hBodies, rfl⟩ := ih hRest
    refine ⟨body :: bodies, ?_, (framesBytes_cons body bodies).symm⟩
    rw [List.mapM_cons, hBody, ok_bind, hBodies, ok_bind]
    rfl

/-! ## Damage -/

/-- The turn of the scan at bytes no frame starts. -/
theorem decodeFrames_damaged {bytes rest : Bytes} {offset : Nat} (fuel : Nat)
    (records : List HistoryLogRecord) (hAt : bytes.drop offset = rest) (hHeader : 12 ≤ rest.length)
    (hNoFrame : ∀ body tail, rest ≠ frameBytes sha256 body ++ tail) :
    (Overruns rest → decodeFrames sha256 bytes (fuel + 1) offset records = .ok (records, offset)) ∧
      (¬ Overruns rest → ∃ e, decodeFrames sha256 bytes (fuel + 1) offset records = .error e) := by
  have hLen := congrArg List.length hAt
  rw [List.length_drop] at hLen
  rw [decodeFrames, if_pos (by omega), hAt]
  constructor
  · intro hOver
    rw [(probe_eq_torn hHeader).mpr hOver]
    rfl
  · intro hOver
    cases hProbe : probeHistoryLogFrame sha256 rest with
    | error e => exact ⟨e, rfl⟩
    | ok probe =>
      cases probe with
      | torn => exact absurd ((probe_eq_torn hHeader).mp hProbe) hOver
      | complete body consumed =>
        obtain ⟨-, tail, hFrame⟩ := frame_of_probe_complete hProbe
        exact absurd hFrame (hNoFrame body tail)

/-- The record can be read back from its body. -/
def ReadsBack (record : HistoryLogRecord) : Prop :=
  ∃ body found, encodeHistoryLogRecord record = .ok body ∧ decodeHistoryLogRecord body = .ok found

theorem mapM_decode_iff {records : List HistoryLogRecord} {bodies : List Bytes}
    (h : records.mapM encodeHistoryLogRecord = .ok bodies) :
    (∃ found, bodies.mapM decodeHistoryLogRecord = .ok found) ↔ ∀ r ∈ records, ReadsBack r := by
  induction records generalizing bodies with
  | nil =>
    cases h
    simp [pure, Except.pure]
  | cons record records ih =>
    rw [List.mapM_cons] at h
    obtain ⟨body, hBody, h⟩ := bind_eq_ok.mp h
    obtain ⟨rest, hRest, h⟩ := bind_eq_ok.mp h
    obtain rfl : body :: rest = bodies := pure_eq_ok.mp h
    have hHead : ReadsBack record ↔ ∃ found, decodeHistoryLogRecord body = .ok found := by
      simp [ReadsBack, hBody]
    rw [List.forall_mem_cons, hHead, ← ih hRest, List.mapM_cons]
    simp only [bind_eq_ok, pure_eq_ok]
    constructor
    · rintro ⟨_, found, hFound, founds, hFounds, _⟩
      exact ⟨⟨found, hFound⟩, ⟨founds, hFounds⟩⟩
    · rintro ⟨⟨found, hFound⟩, ⟨founds, hFounds⟩⟩
      exact ⟨_, found, hFound, founds, hFounds, rfl⟩

/-- The digest shows the change: no frame with a digest of its own stands at the start. -/
def DigestShows (sha256 : Bytes → Digest) (bytes : Bytes) : Prop :=
  ∀ body tail, bytes ≠ frameBytes sha256 body ++ tail

theorem length_le_framesBytes (bodies : List Bytes) :
    bodies.length ≤ (framesBytes sha256 bodies).length := by
  induction bodies with
  | nil => simp [framesBytes]
  | cons body bodies ih =>
    rw [framesBytes_cons, List.length_append, length_frameBytes, List.length_cons]
    omega

theorem length_of_one_frame {record : HistoryLogRecord} {frame : Bytes}
    (h : encodeHistoryLog sha256 [record] = .ok frame) : 56 ≤ frame.length := by
  simp only [encodeHistoryLog, bind_eq_ok, pure_eq_ok] at h
  obtain ⟨body, -, _, hFrame, _, -, rfl⟩ := h
  obtain ⟨-, rfl⟩ := encodeHistoryLogFrame_eq_ok.mp hFrame
  rw [List.length_append, length_frameBytes]
  omega

/-- A log with one damaged frame is rejected, unless the damage makes the frame announce more
bytes than are left and everything in front of it is readable: then the scan takes the frame
and all behind it for a torn tail. -/
theorem decodeHistoryLog_damaged_iff {before : List HistoryLogRecord}
    {record : HistoryLogRecord} {front frame back damaged : Bytes}
    (hBefore : encodeHistoryLog sha256 before = .ok front)
    (hFrame : encodeHistoryLog sha256 [record] = .ok frame)
    (hKeeps : damaged.length = frame.length)
    (hFile : (front ++ (damaged ++ back)).length < width 64)
    (hShows : DigestShows sha256 (damaged ++ back)) :
    (∃ e, decodeHistoryLog sha256 (front ++ (damaged ++ back)) = .error e) ↔
      ¬ (Overruns (damaged ++ back) ∧ ∀ r ∈ before, ReadsBack r) := by
  obtain ⟨bodies, hBodies, rfl⟩ := bodies_of_encodeHistoryLog hBefore
  have hFrameLen := length_of_one_frame hFrame
  have hCount := @length_le_framesBytes sha256 bodies
  set log := framesBytes sha256 bodies ++ (damaged ++ back) with hLog
  have hLen : log.length =
      (framesBytes sha256 bodies).length + (damaged.length + back.length) := by
    rw [hLog, List.length_append, List.length_append]
  obtain ⟨fuel, hFuel⟩ : ∃ fuel, log.length = bodies.length + (fuel + 1) :=
    ⟨log.length - bodies.length - 1, by omega⟩
  have hScan := decodeFrames_frames (fuel + 1) [] hFile (show log.drop 0 = _ from hLog)
  simp only [Nat.zero_add, List.nil_append] at hScan
  have hRest : log.drop (framesBytes sha256 bodies).length = damaged ++ back := by
    rw [hLog]
    exact List.drop_left
  rw [← mapM_decode_iff hBodies, decodeHistoryLog, hFuel, hScan]
  cases hFound : bodies.mapM decodeHistoryLogRecord with
  | error e => exact ⟨fun _ hBoth => by simp at hBoth, fun _ => ⟨e, rfl⟩⟩
  | ok found =>
    obtain ⟨hTorn, hFails⟩ := decodeFrames_damaged fuel found hRest
      (by rw [List.length_append]; omega) hShows
    rw [ok_bind]
    constructor
    · rintro ⟨e, hError⟩ ⟨hOver, -⟩
      have hTail : (framesBytes sha256 bodies).length < width 64 := by omega
      simp only [hTorn hOver, ok_bind, tryFrom_of_lt hTail, okOr_some] at hError
      cases hError
    · intro hNot
      obtain ⟨e, hError⟩ := hFails (fun hOver => hNot ⟨hOver, found, rfl⟩)
      exact ⟨e, by rw [hError]; rfl⟩

/-! The expiry of version 0 of history 0 as the only record of a log, with a changed digest
byte and with a length field that is one too large. -/

def sampleRecord : HistoryLogRecord := .expireVersion ⟨0⟩ ⟨0⟩

/-- SHA-256 on the frame of the sample record. -/
def sampleLogSha256 (message : Bytes) : Digest :=
  if message = historyLogDigestDomain ++ framePrefix (recordExpireVersion :: leBytes 16 0) then
    digestOfNat 0xd76cc9a74aad59eea4d005aa5f4bf2bc4bf2444c2673c920e792c595014c5055
  else digestOfNat 0

def sampleFrame : Bytes := frameBytes sampleLogSha256 (recordExpireVersion :: leBytes 16 0)

theorem decodeHistoryLog_changedDigest :
    ∃ e, decodeHistoryLog sampleLogSha256 ([] ++ (sampleFrame.set 72 0 ++ [])) = .error e := by
  have hShows : DigestShows sampleLogSha256 (sampleFrame.set 72 0 ++ []) := by
    intro body tail hFrame
    have hProbe : probeHistoryLogFrame sampleLogSha256 (sampleFrame.set 72 0 ++ []) =
        .error (.invalid "history log frame digest mismatch") := by decide +kernel
    have hLen := congrArg List.length hFrame
    have hSize : (sampleFrame.set 72 0 ++ []).length = 73 := by decide +kernel
    rw [hSize, List.length_append, length_frameBytes] at hLen
    rw [hFrame, probe_frame (by rw [width]; omega)] at hProbe
    cases hProbe
  have hWritten : encodeHistoryLog sampleLogSha256 [sampleRecord] = .ok sampleFrame := by
    decide +kernel
  exact (@decodeHistoryLog_damaged_iff _ [] _ _ _ _ _ rfl hWritten (by decide +kernel)
    (by decide +kernel) hShows).mpr (fun hBoth => absurd hBoth.1 (by decide +kernel))

/-- A frame whose length field is one too large is dropped without an error, and the next append
cuts it off. -/
theorem not_rejected_longerLength :
    (¬ ∀ (before after : List HistoryLogRecord) (record : HistoryLogRecord)
        (front frame back damaged : Bytes),
      encodeHistoryLog sampleLogSha256 before = .ok front →
      encodeHistoryLog sampleLogSha256 [record] = .ok frame →
      encodeHistoryLog sampleLogSha256 after = .ok back →
      damaged.length = frame.length → damaged ≠ frame →
      (announcedLen damaged = announcedLen frame → DigestShows sampleLogSha256 (damaged ++ back)) →
      ∃ e, decodeHistoryLog sampleLogSha256 (front ++ (damaged ++ back)) = .error e) ∧
    (do
      let log ← (DurableHistoryLog.openWrite sampleLogSha256 (sampleFrame.set 4 18)).toOption
      log.appendFrame sampleFrame) = some ⟨sampleFrame, 73⟩ := by
  have hWritten : encodeHistoryLog sampleLogSha256 [sampleRecord] = .ok sampleFrame := by
    decide +kernel
  refine ⟨fun hAll => ?_, by decide +kernel⟩
  obtain ⟨e, hError⟩ := hAll [] [] sampleRecord [] sampleFrame [] (sampleFrame.set 4 18) rfl
    hWritten rfl (by decide +kernel) (by decide +kernel)
    (fun hSame => absurd hSame (by decide +kernel))
  have hOk : decodeHistoryLog sampleLogSha256 ([] ++ (sampleFrame.set 4 18 ++ [])) =
      .ok ([], 0) := by decide +kernel
  rw [hOk] at hError
  cases hError

end TulyaStore.History
