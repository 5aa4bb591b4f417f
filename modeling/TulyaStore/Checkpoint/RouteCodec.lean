import TulyaStore.Checkpoint.RecordCodec
import TulyaStore.Checkpoint.Route

/-!
# Route files read back

`validateRouteFile_build`: a file the builder made passes the check against its manifest entry.
`routeRequestRecords_build`: its request records read back. Without any request records the
footer is looked for where the last key ends, so there the file must not end in the footer's
magic by itself; `routeRequestRecords_of_footer` is what happens when it does.
-/

namespace TulyaStore.Checkpoint

open Lib

variable {P : Primitives}

/-! ## The key table -/

@[simp] theorem RouteEntry.length_row (e : RouteEntry) (keyOffset keyLen : Nat) :
    (e.row keyOffset keyLen).length = routeEntrySize := by
  simp [RouteEntry.row, routeEntrySize]

theorem routeTable_append {pre table blob : Bytes} {es es' : List RouteEntry}
    (h : routeTable pre (es ++ es') = .ok (table, blob)) :
    ∃ t m t', routeTable pre es = .ok (t, m) ∧ routeTable m es' = .ok (t', blob) ∧
      table = t ++ t' := by
  induction es generalizing pre table with
  | nil => exact ⟨[], pre, table, rfl, h, rfl⟩
  | cons e es ih =>
    simp only [List.cons_append, routeTable, bind_eq_ok, okOr_eq_ok, Except.ok.injEq,
      Prod.exists, Prod.mk.injEq] at h
    obtain ⟨offset, hOffset, len, hLen, rest, blob', hRest, rfl, rfl⟩ := h
    obtain ⟨t, m, t', ht, ht', rfl⟩ := ih hRest
    refine ⟨e.row offset len ++ t, m, t', ?_, ht', by rw [List.append_assoc]⟩
    rw [routeTable, hOffset, okOr_some, ok_bind, hLen, okOr_some, ok_bind, ht, ok_bind]

/-- The key blob stays in the range of its offsets. -/
theorem blob_lt_of_routeTable {pre table blob : Bytes} {es : List RouteEntry}
    (h : routeTable pre es = .ok (table, blob)) (hPre : pre.length < 2 ^ 33) :
    blob.length < 2 ^ 33 := by
  induction es generalizing pre table with
  | nil =>
    obtain ⟨_, rfl⟩ := Prod.mk.injEq .. ▸ Except.ok.inj h
    exact hPre
  | cons e es ih =>
    simp only [routeTable, bind_eq_ok, okOr_eq_ok, tryFrom_eq_some, width, Except.ok.injEq,
      Prod.exists, Prod.mk.injEq] at h
    obtain ⟨_, ⟨hOffset, rfl⟩, _, ⟨hLen, rfl⟩, rest, blob', hRest, rfl, rfl⟩ := h
    refine ih hRest ?_
    rw [List.length_append]
    omega

theorem length_routeTable {pre table blob : Bytes} {es : List RouteEntry}
    (h : routeTable pre es = .ok (table, blob)) :
    table.length = es.length * routeEntrySize := by
  induction es generalizing pre table with
  | nil =>
    obtain ⟨rfl, _⟩ := Prod.mk.injEq .. ▸ Except.ok.inj h
    rfl
  | cons e es ih =>
    simp only [routeTable, bind_eq_ok, okOr_eq_ok, Except.ok.injEq, Prod.exists,
      Prod.mk.injEq] at h
    obtain ⟨_, _, _, _, rest, blob', hRest, rfl, rfl⟩ := h
    rw [List.length_append, RouteEntry.length_row, ih hRest, List.length_cons, Nat.succ_mul,
      Nat.add_comm]

/-- Scanning a table finds where its keys end. -/
theorem routeKeyEnd_eq {pre table blob head post : Bytes} {es : List RouteEntry}
    (h : routeTable pre es = .ok (table, blob)) {tableOffset i : Nat}
    (hHead : head.length = tableOffset + i * routeEntrySize)
    (hLt : (head ++ table).length < 2 ^ 64) :
    routeKeyEnd (head ++ (table ++ post)) tableOffset es.length i pre.length =
      .ok blob.length := by
  induction es generalizing pre table head i with
  | nil =>
    obtain ⟨rfl, rfl⟩ := Prod.mk.injEq .. ▸ Except.ok.inj h
    rfl
  | cons e es ih =>
    simp only [routeTable, bind_eq_ok, okOr_eq_ok, tryFrom_eq_some, width, Except.ok.injEq,
      Prod.exists, Prod.mk.injEq] at h
    obtain ⟨_, ⟨hOffset, rfl⟩, _, ⟨hLen, rfl⟩, rest, blob', hRest, rfl, rfl⟩ := h
    set row := e.row pre.length e.key.length with hRow
    have hRowLen : row.length = 24 := e.length_row _ _
    have hBytes : head ++ (row ++ rest ++ post) = (head ++ row) ++ (rest ++ post) := by
      simp only [List.append_assoc]
    have hNext : (head ++ row).length = tableOffset + (i + 1) * routeEntrySize := by
      rw [List.length_append, hHead, hRowLen, Nat.succ_mul, Nat.add_assoc]
      rfl
    have hStart : i * routeEntrySize < 2 ^ 64 ∧ tableOffset + i * routeEntrySize < 2 ^ 64 := by
      rw [List.length_append, hHead] at hLt
      omega
    have hField : ∀ {o v : Nat}, readLe 4 row o = some v →
        readU32 (head ++ (row ++ rest ++ post)) (tableOffset + i * routeEntrySize + o) = .ok v := by
      intro o v hv
      rw [← hHead]
      apply readU32_of
      rw [readLe_skip _ _ (Nat.le_add_right _ _), Nat.add_sub_cancel_left, List.append_assoc]
      exact readLe_append hv
    have hKeyOffset : readLe 4 row 12 = some pre.length := by
      simp only [hRow, RouteEntry.row, List.append_assoc, readLe_leBytes_skip, Nat.reduceLeDiff,
        Nat.reduceSub]
      exact readLe_here _ (by omega)
    have hKeyLen : readLe 4 row 16 = some e.key.length := by
      simp only [hRow, RouteEntry.row, List.append_assoc, readLe_leBytes_skip, Nat.reduceLeDiff,
        Nat.reduceSub]
      exact readLe_here _ (by omega)
    have hMax : max pre.length (pre.length + e.key.length) = (pre ++ e.key).length := by
      rw [List.length_append]
      omega
    rw [List.length_cons, routeKeyEnd, checkedMul, tryFrom_of_lt hStart.1, okOr_some, ok_bind,
      checkedAdd_of_lt hStart.2, okOr_some, ok_bind, hField hKeyOffset, ok_bind, hField hKeyLen,
      ok_bind, hMax, hBytes]
    exact ih hRest hNext (by rwa [List.append_assoc])

/-! ## The request section -/

theorem digestOf_toList (d : Digest) : digestOf d.toList = some d := by
  obtain ⟨⟨l⟩, hl⟩ := d
  have hLen : l.length = 32 := by simpa using hl
  simp [digestOf, Vector.toList, hLen]

theorem validateRequestId_eq_ok {key : Bytes} {u : Unit} :
    validateRequestId key = .ok u ↔ 0 < key.length ∧ key.length ≤ maxRequestIdBytes := by
  rw [validateRequestId, failIf_eq_ok, List.isEmpty_iff]
  constructor
  · intro h
    refine ⟨List.length_pos_iff.mpr (fun hNil => h (.inl hNil)), ?_⟩
    by_contra hGt
    exact h (.inr (by omega))
  · rintro ⟨hPos, hLe⟩ (rfl | hGt)
    · simp at hPos
    · omega

@[simp] theorem RequestRecord.length_bytes (r : RequestRecord) :
    r.bytes.length = 40 + r.key.length := by
  simp [RequestRecord.bytes]
  omega

theorem readRequestRecords_eq {records : List RequestRecord} {bytes pre post : Bytes}
    (h : requestRecordBytes records = .ok bytes)
    (hOrdinals : ∀ r ∈ records, r.checkpointOrdinal < 2 ^ 32) {sectionEnd : Nat}
    (hEnd : pre.length + bytes.length ≤ sectionEnd) :
    readRequestRecords (pre ++ (bytes ++ post)) sectionEnd records.length pre.length =
      .ok (records, pre.length + bytes.length) := by
  induction records generalizing bytes pre with
  | nil =>
    obtain rfl := Except.ok.inj h
    rfl
  | cons r records ih =>
    simp only [requestRecordBytes, bind_eq_ok, okOr_eq_ok, tryFrom_eq_some, width,
      Except.ok.injEq] at h
    obtain ⟨_, hKey, _, ⟨hLen, rfl⟩, rest, hRest, rfl⟩ := h
    have hOrdinal := hOrdinals r (by simp)
    rw [List.length_append, RequestRecord.length_bytes] at hEnd
    have hField : ∀ {o v : Nat}, readLe 4 r.bytes o = some v →
        readU32 (pre ++ (r.bytes ++ rest ++ post)) (pre.length + o) = .ok v := by
      intro o v hv
      apply readU32_of
      rw [readLe_skip _ _ (Nat.le_add_right _ _), Nat.add_sub_cancel_left, List.append_assoc]
      exact readLe_append hv
    have hKeyLen : readU32 (pre ++ (r.bytes ++ rest ++ post)) pre.length = .ok r.key.length := by
      refine hField (o := 0) ?_
      rw [RequestRecord.bytes, List.append_assoc, List.append_assoc]
      exact readLe_here _ (by omega)
    have hOrd : readLe 4 r.bytes 4 = some r.checkpointOrdinal := by
      simp only [RequestRecord.bytes, List.append_assoc, readLe_leBytes_skip, Nat.le_refl,
        Nat.sub_self]
      exact readLe_here _ (by omega)
    have hDigest : slice (pre ++ (r.bytes ++ rest ++ post)) (pre.length + 8) (pre.length + 40) =
        some r.operationDigest.toList := by
      have hBytes : r.bytes ++ rest ++ post = (leBytes 4 r.key.length ++
          leBytes 4 r.checkpointOrdinal) ++ (r.operationDigest.toList ++
            (r.key ++ (rest ++ post))) := by
        simp only [RequestRecord.bytes, List.append_assoc]
      rw [slice_skip, hBytes]
      exact slice_at (by simp) (by simp)
    have hKeyBytes : slice (pre ++ (r.bytes ++ rest ++ post)) (pre.length + 40)
        (pre.length + 40 + r.key.length) = some r.key := by
      have hBytes : r.bytes ++ rest ++ post = (leBytes 4 r.key.length ++
          leBytes 4 r.checkpointOrdinal ++ r.operationDigest.toList) ++
            (r.key ++ (rest ++ post)) := by
        simp only [RequestRecord.bytes, List.append_assoc]
      rw [Nat.add_assoc, slice_skip, hBytes]
      exact slice_at (by simp) (by simp)
    have hNext : pre ++ (r.bytes ++ rest ++ post) = (pre ++ r.bytes) ++ (rest ++ post) := by
      simp only [List.append_assoc]
    have hCursor : pre.length + 40 + r.key.length = (pre ++ r.bytes).length := by
      rw [List.length_append, RequestRecord.length_bytes]
      omega
    have hTail : readRequestRecords (pre ++ r.bytes ++ (rest ++ post)) sectionEnd records.length
        (pre ++ r.bytes).length = .ok (records, (pre ++ r.bytes).length + rest.length) :=
      ih hRest (fun q hq => hOrdinals q (List.mem_cons_of_mem r hq))
        (by rw [List.length_append, RequestRecord.length_bytes]; omega)
    rw [List.length_cons, readRequestRecords, hKeyLen, ok_bind, hField hOrd, ok_bind]
    simp only []
    rw [failIf_neg (by omega), ok_bind, hKeyBytes, okOr_some, ok_bind, hKey, ok_bind, hDigest,
      okOr_some, ok_bind, digestOf_toList, okOr_some, ok_bind, hCursor, hNext, hTail, ok_bind]
    simp only [List.length_append, Nat.add_assoc]

/-! ## The whole file -/

/-- What the builder puts together. -/
structure RouteFile where
  threads : List RouteEntry
  checkpoints : List RouteEntry
  table : Bytes
  blob : Bytes
  requests : Bytes

namespace RouteFile

def tail (f : RouteFile) : Bytes := f.table ++ f.blob ++ f.requests

/-- Where the checkpoint table starts. -/
def checkpointTable (f : RouteFile) : Nat := routeHeaderSize + f.threads.length * routeEntrySize

/-- Where the keys start. -/
def keyBlob (f : RouteFile) : Nat := f.checkpointTable + f.checkpoints.length * routeEntrySize

def bytes (P : Primitives) (generation : Nat) (f : RouteFile) : Bytes :=
  routeHeader generation f.threads.length f.checkpoints.length f.checkpointTable f.keyBlob
    (routeIndexHash P f.tail) ++ f.tail

/-- The parts belong together and fit their fields. -/
structure Ok (f : RouteFile) : Prop where
  threads : f.threads.length < 2 ^ 32
  checkpoints : f.checkpoints.length < 2 ^ 32
  table : routeTable [] (f.threads ++ f.checkpoints) = .ok (f.table, f.blob)

end RouteFile

theorem length_routeThreads {ts : List (String × Nat)} {es : List RouteEntry}
    (h : routeThreads P ts = .ok es) : es.length = ts.length := by
  induction ts generalizing es with
  | nil =>
    obtain rfl := Except.ok.inj h
    rfl
  | cons t ts ih =>
    simp only [routeThreads, bind_eq_ok, Except.ok.injEq] at h
    obtain ⟨e, _, es', hRest, rfl⟩ := h
    simp [ih hRest]

theorem length_routeCheckpoints {cs : List (String × String × Nat)} {es : List RouteEntry}
    (h : routeCheckpoints P cs = .ok es) : es.length = cs.length := by
  induction cs generalizing es with
  | nil =>
    obtain rfl := Except.ok.inj h
    rfl
  | cons c cs ih =>
    simp only [routeCheckpoints, bind_eq_ok, Except.ok.injEq] at h
    obtain ⟨e, _, es', hRest, rfl⟩ := h
    simp [ih hRest]

theorem buildRouteFile_inv {generation : Nat} {ts : List (String × Nat)}
    {cs : List (String × String × Nat)} {rs : List RequestRecord} {bytes : Bytes} {hash : UInt64}
    (h : buildRouteFile P generation ts cs rs = .ok (bytes, hash)) :
    ∃ f : RouteFile, f.Ok ∧ f.threads.length = ts.length ∧ f.checkpoints.length = cs.length ∧
      requestSectionBytes rs = .ok f.requests ∧ hash = routeIndexHash P f.tail ∧
      bytes = f.bytes P generation := by
  simp only [buildRouteFile, checkedMul, bind_eq_ok, okOr_eq_ok, tryFrom_eq_some,
    checkedAdd_eq_some, width, Except.ok.injEq, Prod.exists, Prod.mk.injEq,
    List.length_insertionSort] at h
  obtain ⟨es, hThreads, fs, hCheckpoints, _, ⟨_, rfl⟩, _, ⟨_, rfl⟩, _, ⟨_, rfl⟩, _, ⟨_, rfl⟩,
    table, blob, hTable, sec, hRequests, _, ⟨hThreadCount, rfl⟩, _, ⟨hCheckpointCount, rfl⟩, rfl,
    rfl⟩ := h
  refine ⟨⟨es.insertionSort RouteEntry.le, fs.insertionSort RouteEntry.le, table, blob, sec⟩,
    ⟨?_, ?_, hTable⟩, ?_, ?_, hRequests, rfl, ?_⟩
  · simpa using hThreadCount
  · simpa using hCheckpointCount
  · simpa using length_routeThreads hThreads
  · simpa using length_routeCheckpoints hCheckpoints
  · simp [RouteFile.bytes, RouteFile.tail, RouteFile.checkpointTable, RouteFile.keyBlob]

@[simp] theorem length_routeHeader (generation threads checkpoints checkpointTable keyBlob : Nat)
    (hash : UInt64) : (routeHeader generation threads checkpoints checkpointTable keyBlob
      hash).length = routeHeaderSize := by
  simp only [routeHeader, List.length_append, length_leBytes]
  rfl

theorem readLe_routeMagic {w off : Nat} (ys : Bytes) (h : 8 ≤ off) :
    readLe w (routeMagic ++ ys) off = readLe w ys (off - 8) :=
  readLe_skip routeMagic ys h

namespace RouteFile

variable {f : RouteFile} {generation : Nat}

theorem Ok.keyBlob_lt (h : f.Ok) : f.checkpointTable < 2 ^ 40 ∧ f.keyBlob < 2 ^ 40 := by
  have hThreads := h.threads
  have hCheckpoints := h.checkpoints
  simp only [keyBlob, checkpointTable, routeHeaderSize, routeEntrySize]
  omega

/-- The fields of the header of a built file. -/
structure Reads (P : Primitives) (generation : Nat) (f : RouteFile) : Prop where
  magic : holdsAt (f.bytes P generation) 0 routeMagic
  version : readU32 (f.bytes P generation) 8 = .ok routeFormatVersion
  reserved : readU32 (f.bytes P generation) 12 = .ok 0
  generationField : readU64 (f.bytes P generation) 16 = .ok generation
  threads : readU32 (f.bytes P generation) 24 = .ok f.threads.length
  checkpoints : readU32 (f.bytes P generation) 28 = .ok f.checkpoints.length
  threadTable : readU64 (f.bytes P generation) 32 = .ok routeHeaderSize
  checkpointTable : readU64 (f.bytes P generation) 40 = .ok f.checkpointTable
  keyBlob : readU64 (f.bytes P generation) 48 = .ok f.keyBlob
  hash : readU64 (f.bytes P generation) 56 = .ok (routeIndexHash P f.tail).toNat

theorem Ok.reads (h : f.Ok) (hGeneration : generation < 2 ^ 64) : f.Reads P generation := by
  have h1 : generation < 256 ^ 8 := by omega
  have h2 : f.threads.length < 256 ^ 4 := by
    have := h.threads
    omega
  have h3 : f.checkpoints.length < 256 ^ 4 := by
    have := h.checkpoints
    omega
  have h4 : f.checkpointTable < 256 ^ 8 := by
    have := h.keyBlob_lt.1
    omega
  have h5 : f.keyBlob < 256 ^ 8 := by
    have := h.keyBlob_lt.2
    omega
  have h6 : (routeIndexHash P f.tail).toNat < 256 ^ 8 := (routeIndexHash P f.tail).toNat_lt
  have h7 : routeFormatVersion < 256 ^ 4 := by decide
  have h8 : routeHeaderSize < 256 ^ 8 := by decide
  have h9 : 0 < 256 ^ 4 := by decide
  have hMagic : holdsAt (f.bytes P generation) 0 routeMagic := by
    have hAt : slice ([] ++ (routeMagic ++ (f.bytes P generation).drop 8)) 0 8 = some routeMagic :=
      slice_at rfl rfl
    exact hAt
  constructor
  case magic => exact hMagic
  all_goals
    first
    | apply readU32_of
    | apply readU64_of
    simp only [bytes, routeHeader, List.append_assoc, readLe_routeMagic, readLe_leBytes_skip,
      readLe_here, Nat.reduceLeDiff, Nat.reduceSub, Nat.le_refl, Nat.sub_self, h1, h2, h3, h4, h5,
      h6, h7, h8, h9]

theorem drop_header (P : Primitives) (generation : Nat) (f : RouteFile) :
    (f.bytes P generation).drop routeHeaderSize = f.tail := by
  have hDrop : ∀ {head tail : Bytes}, head.length = routeHeaderSize →
      (head ++ tail).drop routeHeaderSize = tail := by
    intro head tail hLen
    rw [← hLen, List.drop_left]
  exact hDrop (length_routeHeader ..)

theorem length_bytes (P : Primitives) (generation : Nat) (f : RouteFile) :
    (f.bytes P generation).length = routeHeaderSize + f.tail.length := by
  rw [bytes, List.length_append, length_routeHeader]

theorem Ok.length_table (h : f.Ok) :
    f.table.length = (f.threads.length + f.checkpoints.length) * routeEntrySize := by
  rw [length_routeTable h.table, List.length_append]

/-- The keys end where the request section starts. -/
theorem Ok.keyBlob_end (h : f.Ok) (P : Primitives) (generation : Nat) :
    (f.bytes P generation).length = f.keyBlob + f.blob.length + f.requests.length := by
  rw [length_bytes, tail, List.length_append, List.length_append, h.length_table, keyBlob,
    checkpointTable, Nat.add_mul]
  omega

theorem Ok.validate (h : f.Ok) (hGeneration : generation < 2 ^ 64) (fileBytes : Nat) :
    validateRouteFile P (f.bytes P generation) ⟨generation, f.threads.length,
      f.checkpoints.length, fileBytes, routeIndexHash P f.tail⟩ = .ok () := by
  have hr : f.Reads P generation := h.reads hGeneration
  have hLen := length_bytes P generation f
  have hEnd := h.keyBlob_end P generation
  have hLt := h.keyBlob_lt
  have hThreads := h.threads
  have hCheckpoints := h.checkpoints
  have hThreadBytes : checkedMul 64 f.threads.length routeEntrySize =
      some (f.threads.length * routeEntrySize) :=
    tryFrom_of_lt (by rw [width, routeEntrySize]; omega)
  have hCheckpointBytes : checkedMul 64 f.checkpoints.length routeEntrySize =
      some (f.checkpoints.length * routeEntrySize) :=
    tryFrom_of_lt (by rw [width, routeEntrySize]; omega)
  have hCheckpointTable : checkedAdd 64 routeHeaderSize (f.threads.length * routeEntrySize) =
      some f.checkpointTable := checkedAdd_of_lt (by rw [width, ← checkpointTable]; omega)
  have hKeyBlob : checkedAdd 64 f.checkpointTable (f.checkpoints.length * routeEntrySize) =
      some f.keyBlob := checkedAdd_of_lt (by rw [width, ← keyBlob]; omega)
  simp only [validateRouteFile]
  rw [failIf_neg (by omega), ok_bind, failIf_neg (not_not.mpr hr.magic), ok_bind, hr.version,
    ok_bind, failIf_neg (by simp), ok_bind, hr.reserved, ok_bind, failIf_neg (by simp), ok_bind,
    hr.generationField, ok_bind, failIf_neg (by simp), ok_bind, hr.threads, ok_bind,
    hr.checkpoints, ok_bind, failIf_neg (by simp), ok_bind, hr.threadTable, ok_bind,
    hr.checkpointTable, ok_bind, hr.keyBlob, ok_bind, hr.hash, ok_bind, hThreadBytes, okOr_some,
    ok_bind, hCheckpointTable, okOr_some, ok_bind, hCheckpointBytes, okOr_some, ok_bind, hKeyBlob,
    okOr_some, ok_bind, failIf_neg (by omega), ok_bind,
    failIf_neg (by rw [drop_header]; simp)]

/-- Reading the request records comes down to the footer. -/
theorem Ok.routeRequestRecords (h : f.Ok) (hGeneration : generation < 2 ^ 64) :
    routeRequestRecords (f.bytes P generation) =
      (if holdsAt (f.bytes P generation)
          ((f.bytes P generation).length - requestSectionFooterBytes + 8) requestFooterMagic then
        readRequestSection (f.bytes P generation) (f.keyBlob + f.blob.length)
          ((f.bytes P generation).length - requestSectionFooterBytes)
      else .ok []) := by
  have hr : f.Reads P generation := h.reads hGeneration
  have hLen := length_bytes P generation f
  have hEnd := h.keyBlob_end P generation
  have hLt := h.keyBlob_lt
  obtain ⟨t, m, t', hThreads, hCheckpoints, hTable⟩ := routeTable_append h.table
  have hTableLen := length_routeTable hThreads
  have hTableLen' := length_routeTable hCheckpoints
  set header := routeHeader generation f.threads.length f.checkpoints.length f.checkpointTable
    f.keyBlob (routeIndexHash P f.tail) with hHeader
  have hHeaderLen : header.length = routeHeaderSize := length_routeHeader ..
  have hTail : f.tail = t ++ (t' ++ f.blob ++ f.requests) := by
    rw [tail, hTable]
    simp only [List.append_assoc]
  have hBytes : f.bytes P generation = header ++ (t ++ (t' ++ f.blob ++ f.requests)) :=
    congrArg (header ++ ·) hTail
  have hBytes' : f.bytes P generation = (header ++ t) ++ (t' ++ (f.blob ++ f.requests)) := by
    rw [hBytes]
    simp only [List.append_assoc]
  have hSizes : (header ++ t).length = f.checkpointTable ∧
      (header ++ t ++ t').length = f.keyBlob := by
    simp only [List.length_append, hHeaderLen, hTableLen, hTableLen', keyBlob, checkpointTable]
    exact ⟨trivial, trivial⟩
  have hFirst : routeKeyEnd (f.bytes P generation) routeHeaderSize f.threads.length 0 0 =
      .ok m.length := by
    rw [hBytes]
    refine routeKeyEnd_eq hThreads (by rw [hHeaderLen, Nat.zero_mul, Nat.add_zero]) ?_
    rw [hSizes.1]
    omega
  have hSecond : routeKeyEnd (f.bytes P generation) f.checkpointTable f.checkpoints.length 0
      m.length = .ok f.blob.length := by
    rw [hBytes']
    refine routeKeyEnd_eq hCheckpoints (by rw [hSizes.1, Nat.zero_mul, Nat.add_zero]) ?_
    rw [hSizes.2]
    omega
  have hBlob : f.blob.length < 2 ^ 33 := blob_lt_of_routeTable h.table (by decide)
  simp only [Checkpoint.routeRequestRecords]
  rw [failIf_neg (by omega), ok_bind, hr.threads, ok_bind, hr.checkpoints, ok_bind, hr.threadTable,
    ok_bind, hr.checkpointTable, ok_bind, hr.keyBlob, ok_bind, hFirst, ok_bind, hSecond, ok_bind,
    checkedAdd_of_lt (by rw [width]; omega), okOr_some, ok_bind, failIf_neg (by omega), ok_bind]

theorem holdsAt_append_self (pre x : Bytes) : holdsAt (pre ++ x) pre.length x := slice_append_self

/-- The request section reads back. -/
theorem Ok.readRequestSection (h : f.Ok) {records : List RequestRecord}
    (hRequests : requestSectionBytes records = .ok f.requests) (hNonempty : records ≠ [])
    (hOrdinals : ∀ r ∈ records, r.checkpointOrdinal < 2 ^ 32) :
    holdsAt (f.bytes P generation)
        ((f.bytes P generation).length - requestSectionFooterBytes + 8) requestFooterMagic ∧
      readRequestSection (f.bytes P generation) (f.keyBlob + f.blob.length)
        ((f.bytes P generation).length - requestSectionFooterBytes) = .ok records := by
  have hEnd := h.keyBlob_end P generation
  have hFalse : ¬ records.isEmpty = true := by simpa using hNonempty
  rw [requestSectionBytes, if_neg hFalse] at hRequests
  simp only [bind_eq_ok, okOr_eq_ok, tryFrom_eq_some, width, Except.ok.injEq] at hRequests
  obtain ⟨_, ⟨hCount, rfl⟩, body, hBody, _, ⟨hSectionLt, rfl⟩, hSection⟩ := hRequests
  -- the file is the keys, the section, its length and the footer's magic
  obtain ⟨front, hFront, hFrontLen⟩ : ∃ front, f.bytes P generation = front ++ f.requests ∧
      front.length = f.keyBlob + f.blob.length := by
    refine ⟨routeHeader generation f.threads.length f.checkpoints.length f.checkpointTable
      f.keyBlob (routeIndexHash P f.tail) ++ f.table ++ f.blob, ?_, ?_⟩
    · rw [bytes]
      nth_rewrite 2 [tail]
      simp only [List.append_assoc]
    · rw [List.length_append, List.length_append, length_routeHeader, h.length_table, keyBlob,
        checkpointTable, Nat.add_mul]
      omega
  set head := requestSectionMagic ++ leBytes 4 requestSectionVersion ++ leBytes 4 0 ++
    leBytes 4 records.length with hHead
  have hHeadLen : head.length = requestSectionHeaderBytes := by
    simp only [hHead, List.length_append, length_leBytes]
    rfl
  have hMagicLen : requestFooterMagic.length = 8 := rfl
  have hTotal : (f.bytes P generation).length - requestSectionFooterBytes =
      front.length + (head ++ body).length := by
    rw [hFront, ← hSection]
    simp only [List.length_append, length_leBytes, hMagicLen, requestSectionFooterBytes]
    omega
  have hBytes : f.bytes P generation = front ++ (head ++ (body ++
      (leBytes 8 (head ++ body).length ++ requestFooterMagic))) := by
    rw [hFront, ← hSection]
    simp only [List.append_assoc]
  set size := (head ++ body).length with hSize
  set file := front ++ (head ++ (body ++ (leBytes 8 size ++ requestFooterMagic))) with hFile
  have hSizeEq : size = requestSectionHeaderBytes + body.length := by
    rw [hSize, List.length_append, hHeadLen]
  have hFooter : holdsAt file (front.length + size + 8) requestFooterMagic := by
    have hSplit : file = (front ++ (head ++ (body ++ leBytes 8 size))) ++ requestFooterMagic := by
      simp only [hFile, List.append_assoc]
    have hAt := holdsAt_append_self (front ++ (head ++ (body ++ leBytes 8 size)))
      requestFooterMagic
    have hOffset : front.length + size + 8 =
        (front ++ (head ++ (body ++ leBytes 8 size))).length := by
      simp only [hSize, List.length_append, length_leBytes]
      omega
    rwa [← hSplit, ← hOffset] at hAt
  have hField : ∀ {w o v : Nat}, readLe w head o = some v →
      readLe w file (front.length + o) = some v := by
    intro w o v hv
    rw [hFile, readLe_skip _ _ (Nat.le_add_right _ _), Nat.add_sub_cancel_left]
    exact readLe_append hv
  have hStored : readU64 file (front.length + size) = .ok size := by
    apply readU64_of
    have hSplit : file = (front ++ (head ++ body)) ++ (leBytes 8 size ++ requestFooterMagic) := by
      simp only [hFile, List.append_assoc]
    have hOffset : front.length + size = (front ++ (head ++ body)).length := by
      rw [List.length_append]
    rw [hSplit, hOffset, readLe_skip _ _ le_rfl, Nat.sub_self]
    exact readLe_here _ (by omega)
  have hMagic : holdsAt file front.length requestSectionMagic := by
    have hSplit : file = front ++ (requestSectionMagic ++ (leBytes 4 requestSectionVersion ++
        (leBytes 4 0 ++ (leBytes 4 records.length ++ (body ++
          (leBytes 8 size ++ requestFooterMagic)))))) := by
      simp only [hFile, hHead, List.append_assoc]
    rw [holdsAt, hSplit]
    exact slice_at rfl rfl
  have hSkip : ∀ {w o : Nat} (ys : Bytes), 8 ≤ o →
      readLe w (requestSectionMagic ++ ys) o = readLe w ys (o - 8) :=
    fun ys ho => readLe_skip requestSectionMagic ys ho
  have hVersion : readU32 file (front.length + 8) = .ok requestSectionVersion := by
    refine readU32_of (hField ?_)
    simp only [hHead, List.append_assoc]
    rw [hSkip _ (by decide)]
    exact readLe_here _ (by decide)
  have hReserved : readU32 file (front.length + 12) = .ok 0 := by
    refine readU32_of (hField ?_)
    simp only [hHead, List.append_assoc]
    rw [hSkip _ (by decide), readLe_leBytes_skip _ _ _ (by decide)]
    exact readLe_here _ (by decide)
  have hRecordCount : readU32 file (front.length + 16) = .ok records.length := by
    refine readU32_of (hField ?_)
    simp only [hHead, List.append_assoc]
    rw [hSkip _ (by decide), readLe_leBytes_skip _ _ _ (by decide),
      readLe_leBytes_skip _ _ _ (by decide)]
    exact readLe_last (by omega)
  have hRecords : readRequestRecords file (front.length + size) records.length
      (front.length + requestSectionHeaderBytes) = .ok (records, front.length + size) := by
    have hSplit : file = (front ++ head) ++ (body ++ (leBytes 8 size ++ requestFooterMagic)) := by
      simp only [hFile, List.append_assoc]
    have hCursor : front.length + requestSectionHeaderBytes = (front ++ head).length := by
      rw [List.length_append, hHeadLen]
    have hStop : front.length + size = (front ++ head).length + body.length := by
      rw [← hCursor, hSizeEq, Nat.add_assoc]
    rw [hSplit, hCursor, hStop]
    exact readRequestRecords_eq hBody hOrdinals le_rfl
  rw [hTotal, hBytes]
  refine ⟨hFooter, ?_⟩
  simp only [Checkpoint.readRequestSection]
  rw [hStored, ok_bind, failIf_neg (by omega), ok_bind, Nat.add_sub_cancel,
    failIf_neg (by rw [hFrontLen]; simp), ok_bind,
    failIf_neg (by rw [not_or, not_not]; exact ⟨by omega, hMagic⟩), ok_bind, hVersion, ok_bind,
    failIf_neg (by simp), ok_bind, hReserved, ok_bind, failIf_neg (by simp), ok_bind,
    hRecordCount, ok_bind, hRecords, ok_bind]
  simp only []
  rw [failIf_neg (by simp), ok_bind]

end RouteFile

/-! ## Built files -/

section Built

variable {generation : Nat} {ts : List (String × Nat)} {cs : List (String × String × Nat)}
  {rs : List RequestRecord} {bytes : Bytes} {hash : UInt64}

theorem validateRouteFile_build (h : buildRouteFile P generation ts cs rs = .ok (bytes, hash))
    (hGeneration : generation < 2 ^ 64) (fileBytes : Nat) :
    validateRouteFile P bytes ⟨generation, ts.length, cs.length, fileBytes, hash⟩ = .ok () := by
  obtain ⟨f, hf, hThreads, hCheckpoints, _, rfl, rfl⟩ := buildRouteFile_inv h
  rw [← hThreads, ← hCheckpoints]
  exact hf.validate hGeneration fileBytes

/-- The file ends in the magic of the request footer. -/
def EndsInFooter (bytes : Bytes) : Prop := requestFooterMagic <:+ bytes

instance (bytes : Bytes) : Decidable (EndsInFooter bytes) :=
  inferInstanceAs (Decidable (_ <:+ _))

theorem endsInFooter_iff {bytes : Bytes} (h : requestSectionFooterBytes ≤ bytes.length) :
    EndsInFooter bytes ↔
      holdsAt bytes (bytes.length - requestSectionFooterBytes + 8) requestFooterMagic := by
  have hLen : requestFooterMagic.length = 8 := rfl
  simp only [requestSectionFooterBytes] at h ⊢
  constructor
  · rintro ⟨front, rfl⟩
    have hAt := RouteFile.holdsAt_append_self front requestFooterMagic
    rw [List.length_append, hLen] at h ⊢
    rwa [show front.length + 8 - 16 + 8 = front.length by omega]
  · intro hHolds
    obtain ⟨_, hIn, hTake⟩ := slice_eq_some.mp hHolds
    refine List.IsSuffix.trans ?_ (List.drop_suffix (bytes.length - 16 + 8) bytes)
    rw [List.take_of_length_le (by rw [List.length_drop, hLen]; omega)] at hTake
    exact ⟨[], hTake.symm⟩

/-- The request records read back, unless there are none and the last key ends in the footer's
magic. -/
theorem routeRequestRecords_build (h : buildRouteFile P generation ts cs rs = .ok (bytes, hash))
    (hGeneration : generation < 2 ^ 64) (hOrdinals : ∀ r ∈ rs, r.checkpointOrdinal < 2 ^ 32)
    (hFooter : rs = [] → ¬ EndsInFooter bytes) : routeRequestRecords bytes = .ok rs := by
  obtain ⟨f, hf, _, _, hRequests, _, rfl⟩ := buildRouteFile_inv h
  rw [hf.routeRequestRecords hGeneration]
  by_cases hEmpty : rs = []
  · have hLen := f.length_bytes P generation
    rw [endsInFooter_iff (by rw [hLen]; simp only [requestSectionFooterBytes, routeHeaderSize]; omega)]
      at hFooter
    rw [if_neg (hFooter hEmpty), hEmpty]
  · obtain ⟨hHolds, hRead⟩ := hf.readRequestSection (P := P) hRequests hEmpty hOrdinals
    rw [if_pos hHolds, hRead]

/-- Without request records, a file that ends in the footer's magic is rejected. -/
theorem routeRequestRecords_of_footer (h : buildRouteFile P generation ts cs [] = .ok (bytes, hash))
    (hGeneration : generation < 2 ^ 64) (hFooter : EndsInFooter bytes) :
    ∃ e, routeRequestRecords bytes = .error e := by
  obtain ⟨f, hf, _, _, hRequests, _, rfl⟩ := buildRouteFile_inv h
  have hLen := f.length_bytes P generation
  have hEnd := hf.keyBlob_end P generation
  have hNil : f.requests = [] := (Except.ok.inj hRequests).symm
  have hLong : requestSectionFooterBytes ≤ (f.bytes P generation).length := by
    rw [hLen]
    simp only [requestSectionFooterBytes, routeHeaderSize]
    omega
  rw [hf.routeRequestRecords hGeneration, if_pos ((endsInFooter_iff hLong).mp hFooter)]
  rw [hNil, List.length_nil, Nat.add_zero] at hEnd
  simp only [requestSectionFooterBytes] at hLong ⊢
  simp only [readRequestSection]
  cases readU64 (f.bytes P generation) ((f.bytes P generation).length - 16) with
  | error e => exact ⟨e, rfl⟩
  | ok size =>
    rw [ok_bind]
    by_cases hBefore : (f.bytes P generation).length - 16 < size
    · exact ⟨_, by rw [failIf_pos hBefore, error_bind]⟩
    · exact ⟨_, by rw [failIf_neg hBefore, ok_bind, failIf_pos (by omega), error_bind]⟩

end Built

end TulyaStore.Checkpoint
