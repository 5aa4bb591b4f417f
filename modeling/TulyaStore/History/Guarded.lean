import TulyaStore.History.Snapshot
import TulyaStore.V2.Guarded
import TulyaStore.V2.StateRuns

/-!
# The history snapshot decoder with its requests and panics

The decoder of history snapshots once more, with the capacities it asks for and the index and the
sum that would panic. Its counts are bounded in the header, in front of every table, and the lists
it walks again for a set of identities are the tables themselves.
-/

namespace TulyaStore.History

open Lib Lib.Decoder Sequence Snapshot SnapshotCursor

namespace Guarded

/-- A step of the guarded decoder over its cursor. -/
abbrev SnapshotReader := StateT LogCursor (Decoder HistoryError)

/-- A step that reserves nothing and checks everything. -/
def plain {α : Type} (x : History.SnapshotReader α) : SnapshotReader α := fun cursor =>
  lift (x cursor)

/-- The parent of the version at `index`, with the element in front of it. -/
def decodeParent (before : List SnapshotVersion) (history rawParent : Nat) :
    Decoder HistoryError (Option VersionId) :=
  if rawParent = noParent then return none
  else do
    lift (failIf (rawParent ≥ before.length)
      (.invalid "history snapshot version parent is not topologically prior"))
    let parent ← orPanic before[rawParent]?
    lift (failIf (parent.history ≠ ⟨history⟩)
      (.invalid "history snapshot version parent belongs to a different history"))
    return some ⟨rawParent⟩

/-- The fields of a version behind its parent. -/
def takeVersionRest (history : Nat) (parent : Option VersionId) :
    History.SnapshotReader SnapshotVersion := do
  let binding ← takeOptionalBytes
  let lifecycleByte ← takeByte
  let lifecycle ← liftM (decodeLifecycle lifecycleByte)
  let presenceByte ← takeByte
  let rootPresent ← liftM (decodeRootPresence presenceByte)
  let len ← takeU64
  liftM (failIf (len = 0) (HistoryError.invalid "history snapshot version length is zero"))
  liftM (failIf (lifecycle = .retained ∧ ¬ rootPresent)
    (HistoryError.invalid "history snapshot retained version has no materialized root"))
  let root ← takeRoot rootPresent
  return ⟨⟨history⟩, parent, binding, lifecycle, rootPresent, len, root⟩

def takeVersion (historyCount : Nat) (before : List SnapshotVersion) :
    SnapshotReader SnapshotVersion := do
  let history ← plain takeU64
  plain (liftM (failIf (history ≥ historyCount)
    (HistoryError.invalid "history snapshot version references a missing history")))
  let rawParent ← plain takeU64
  let parent ← liftM (decodeParent before history rawParent)
  plain (takeVersionRest history parent)

def takeVersions (historyCount : Nat) : List SnapshotVersion → Nat →
    SnapshotReader (List SnapshotVersion)
  | before, 0 => return before
  | before, n + 1 => do
    let version ← takeVersion historyCount before
    takeVersions historyCount (before ++ [version]) n

/-- `validate_snapshot_receipt_consistency` -/
def validateReceiptConsistency (versions : List SnapshotVersion) (active : List SnapshotActive)
    (retired : List SnapshotRetired) (receiptOrder : List Bytes) : Decoder HistoryError Unit := do
  lift (failIf (receiptOrder.length > stagingRequestReceiptCapacity)
    (.invalid "history snapshot receipt horizon exceeds its staging capacity"))
  reserve receiptOrder.length
  lift (failIf (¬ receiptOrder.Nodup) (.invalid "history snapshot receipt order is duplicated"))
  let ledgers ← add active.length retired.length
  lift (failIf (receiptOrder.length ≠ ledgers)
    (.invalid "history snapshot receipt order disagrees with its ledgers"))
  reserve active.length
  lift (checkActiveReceipts receiptOrder [] active)
  lift (retired.forM (checkRetiredReceipt receiptOrder (active.map SnapshotActive.requestId)))
  reserve active.length
  lift (checkClaims versions [] active)

/-- The fields of the header. -/
structure Header where
  generation : Nat
  representedWalEnd : Nat
  counts : Counts
  physicalGeneration : Nat
  payloadEnd : Nat
  nodeCount : Nat
  nextHistoryId : Nat
  nextVersionId : Nat
deriving DecidableEq, Repr

/-- The header and its counts, which reserve nothing. -/
def takeHeader : History.SnapshotReader Header := do
  let magic ← take 4
  liftM (failIf (magic ≠ historySnapshotMagic)
    (HistoryError.invalid "history snapshot magic mismatch"))
  let totalLen ← takeU64
  let cursor ← get
  liftM (failIf (totalLen ≠ cursor.bytes.length)
    (HistoryError.invalid "history snapshot length disagrees with its bytes"))
  let schema ← takeU32
  liftM (failIf (schema ≠ historySnapshotSchema)
    (HistoryError.invalid "history snapshot schema is unsupported"))
  let generation ← takeU64
  let representedWalEnd ← takeU64
  let counts ← takeCounts
  let physicalGeneration ← takeU64
  let payloadEnd ← takeU64
  let nodeCount ← takeU64
  let nextHistoryId ← takeU64
  let nextVersionId ← takeU64
  liftM (failIf (nextHistoryId ≠ counts.histories)
    (HistoryError.invalid "history snapshot next history identity disagrees with its table"))
  liftM (failIf (nextVersionId ≠ counts.versions)
    (HistoryError.invalid "history snapshot next version identity disagrees with its table"))
  return ⟨generation, representedWalEnd, counts, physicalGeneration, payloadEnd, nodeCount,
    nextHistoryId, nextVersionId⟩

/-- Everything in front of the digest. -/
def takeSnapshot : SnapshotReader HistorySnapshot := do
  let header ← plain takeHeader
  let counts := header.counts
  liftM (reserve (ε := HistoryError) counts.histories)
  let historyBindings ← plain (takeMany takeOptionalBytes counts.histories)
  liftM (reserve (ε := HistoryError) historyBindings.length)
  plain (liftM (failIf (¬ (historyBindings.filterMap id).Nodup)
    (HistoryError.invalid "history snapshot history bindings are not unique")))
  liftM (reserve (ε := HistoryError) counts.versions)
  let versions ← takeVersions counts.histories [] counts.versions
  liftM (reserve (ε := HistoryError) counts.active)
  let active ← plain (takeActive counts.versions [] counts.active)
  liftM (reserve (ε := HistoryError) active.length)
  liftM (reserve (ε := HistoryError) counts.retired)
  let retired ← plain (takeRetired (active.map SnapshotActive.requestId) [] counts.retired)
  liftM (reserve (ε := HistoryError) counts.receiptOrder)
  let receiptOrder ← plain (takeMany takeRequestId counts.receiptOrder)
  liftM (validateReceiptConsistency versions active retired receiptOrder)
  return {
    generation := header.generation
    representedWalEnd := header.representedWalEnd
    physicalGeneration := header.physicalGeneration
    payloadEnd := header.payloadEnd
    nodeCount := header.nodeCount
    nextHistoryId := header.nextHistoryId
    nextVersionId := header.nextVersionId
    historyBindings, versions, active, retired, receiptOrder }

/-- `decode_history_snapshot` -/
def decodeHistorySnapshot (sha256 : Bytes → Digest) (bytes : Bytes) :
    Decoder HistoryError HistorySnapshot := do
  let (snapshot, cursor) ← takeSnapshot ⟨bytes, 0⟩
  lift (failIf (bytes.length < 32) (.invalid "history snapshot digest is truncated"))
  lift (failIf (cursor.pos ≠ bytes.length - 32)
    (.invalid "history snapshot sections disagree with its digest boundary"))
  lift (failIf ((snapshotDigest sha256 (bytes.take (bytes.length - 32))).toList ≠
      bytes.drop (bytes.length - 32))
    (.invalid "history snapshot digest mismatch"))
  return snapshot

/-! ## Readers within a limit -/

/-- Each byte list a step is given it hands on. -/
def KeepsBytes {α : Type} (x : History.SnapshotReader α) : Prop :=
  ∀ cursor a cursor', x cursor = .ok (a, cursor') → cursor'.bytes = cursor.bytes

section Keeps

variable {α β : Type} {x : History.SnapshotReader α} {f : α → History.SnapshotReader β}

theorem keepsBytes_bind (hx : KeepsBytes x) (hf : ∀ a, KeepsBytes (f a)) : KeepsBytes (x >>= f) := by
  intro cursor b cursor' h
  obtain ⟨⟨a, middle⟩, hFirst, hRest⟩ := bind_eq_ok.mp h
  exact (hf a middle b cursor' hRest).trans (hx cursor a middle hFirst)

theorem keepsBytes_pure (a : α) : KeepsBytes (pure a) := by
  intro cursor b cursor' h
  cases h
  rfl

theorem keepsBytes_check (y : Except HistoryError α) : KeepsBytes (liftM y) := by
  intro cursor a cursor' h
  cases y with
  | error e => cases h
  | ok b =>
    cases h
    rfl

theorem keepsBytes_take (n : Nat) : KeepsBytes (take n) := by
  intro cursor a cursor' h
  obtain ⟨_, -, h⟩ := bind_eq_ok.mp h
  obtain ⟨_, -, h⟩ := bind_eq_ok.mp h
  cases h
  rfl

theorem keepsBytes_takeU64 : KeepsBytes takeU64 :=
  keepsBytes_bind (keepsBytes_take 8) fun _ => keepsBytes_pure _

theorem keepsBytes_get : KeepsBytes (get : History.SnapshotReader LogCursor) := by
  intro cursor a cursor' h
  cases h
  rfl

theorem keepsBytes_boundedCount (message : String) : KeepsBytes (boundedCount message) :=
  keepsBytes_bind keepsBytes_takeU64 fun _ => keepsBytes_bind keepsBytes_get fun _ =>
    keepsBytes_bind (keepsBytes_check _) fun _ => keepsBytes_pure _

end Keeps

section Within

variable {α β : Type} {limit : Nat} {cursor : LogCursor}

theorem within_plain (y : History.SnapshotReader α) : Within limit (plain y cursor) (y cursor) :=
  within_lift _

theorem within_read {x : SnapshotReader α} {y : History.SnapshotReader α}
    {f : α → SnapshotReader β} {g : α → History.SnapshotReader β}
    (hx : Within limit (x cursor) (y cursor))
    (hf : ∀ a cursor', y cursor = .ok (a, cursor') → Within limit (f a cursor') (g a cursor')) :
    Within limit ((x >>= f) cursor) ((y >>= g) cursor) :=
  within_bind hx fun read h => hf read.1 read.2 h

theorem within_request {n : Nat} {f : Unit → SnapshotReader α} {y : Except HistoryError (α × LogCursor)}
    (h : n ≤ limit) (hf : Within limit (f () cursor) y) :
    Within limit ((liftM (reserve (ε := HistoryError) n) >>= f) cursor) y := by
  change Within limit (reserve n >>= fun _ => f () cursor) y
  exact within_reserve_bind h hf

theorem within_check {x : Decoder HistoryError α} {y : Except HistoryError α}
    (h : Within limit x y) :
    Within limit ((liftM x : SnapshotReader α) cursor) ((liftM y : History.SnapshotReader α) cursor) :=
  within_bind h fun _ _ => within_pure _

end Within

/-! ## The tables -/

section Tables

variable {cursor cursor' : LogCursor}

theorem length_takeMany {α : Type} {x : History.SnapshotReader α} {n : Nat} {read : List α}
    (h : takeMany x n cursor = .ok (read, cursor')) : read.length = n := by
  induction n generalizing cursor read with
  | zero =>
    cases h
    rfl
  | succ n ih =>
    obtain ⟨⟨head, middle⟩, -, h⟩ := bind_eq_ok.mp h
    obtain ⟨⟨rest, last⟩, hRest, h⟩ := bind_eq_ok.mp h
    cases h
    rw [List.length_cons, ih hRest]

theorem length_takeActive {versionCount n : Nat} {before read : List SnapshotActive}
    (h : takeActive versionCount before n cursor = .ok (read, cursor')) :
    read.length = before.length + n := by
  induction n generalizing cursor before with
  | zero =>
    cases h
    rfl
  | succ n ih =>
    obtain ⟨⟨requestId, _⟩, -, h⟩ := bind_eq_ok.mp h
    obtain ⟨_, -, h⟩ := bind_eq_ok.mp h
    obtain ⟨⟨digest, _⟩, -, h⟩ := bind_eq_ok.mp h
    obtain ⟨⟨version, _⟩, -, h⟩ := bind_eq_ok.mp h
    obtain ⟨_, -, h⟩ := bind_eq_ok.mp h
    rw [ih h, List.length_append, List.length_singleton]
    omega

theorem length_takeRetired {activeIds : List Bytes} {n : Nat} {before read : List SnapshotRetired}
    (h : takeRetired activeIds before n cursor = .ok (read, cursor')) :
    read.length = before.length + n := by
  induction n generalizing cursor before with
  | zero =>
    cases h
    rfl
  | succ n ih =>
    obtain ⟨⟨requestId, _⟩, -, h⟩ := bind_eq_ok.mp h
    obtain ⟨_, -, h⟩ := bind_eq_ok.mp h
    obtain ⟨_, -, h⟩ := bind_eq_ok.mp h
    obtain ⟨⟨digest, _⟩, -, h⟩ := bind_eq_ok.mp h
    rw [ih h, List.length_append, List.length_singleton]
    omega

/-- Behind its check the parent is a version that was read. -/
theorem decodeParent_lift (before : List SnapshotVersion) (history rawParent : Nat) :
    decodeParent before history rawParent =
      lift (Snapshot.decodeParent before history rawParent) := by
  rw [decodeParent, Snapshot.decodeParent]
  by_cases hNone : rawParent = noParent
  · rw [if_pos hNone, if_pos hNone]
    rfl
  · rw [if_neg hNone, if_neg hNone]
    by_cases hPrior : rawParent < before.length
    · rw [failIf_neg (Nat.not_le.mpr hPrior), lift_ok, pure_bind,
        List.getElem?_eq_getElem hPrior, orPanic_some rfl, pure_bind, okOr_some, ok_bind, lift_bind]
      rfl
    · have hAfter := Nat.not_lt.mp hPrior
      rw [failIf_pos hAfter, List.getElem?_eq_none hAfter]
      rfl

theorem takeVersion_within (limit historyCount : Nat) (before : List SnapshotVersion) :
    Within limit (takeVersion historyCount before cursor)
      (Snapshot.takeVersion historyCount before cursor) := by
  refine within_read (within_plain _) fun history _ _ => ?_
  refine within_read (within_plain _) fun _ _ _ => ?_
  refine within_read (within_plain _) fun rawParent _ _ => ?_
  rw [decodeParent_lift]
  refine within_read (within_check (within_lift _)) fun parent _ _ => ?_
  exact within_plain (takeVersionRest history parent)

theorem takeVersions_within (limit historyCount n : Nat) (before : List SnapshotVersion) :
    Within limit (takeVersions historyCount before n cursor)
      (Snapshot.takeVersions historyCount before n cursor) := by
  induction n generalizing before cursor with
  | zero => exact within_pure _
  | succ n ih => exact within_read (takeVersion_within _ _ _) fun _ _ _ => ih _

theorem validateReceiptConsistency_within {limit : Nat} {versions : List SnapshotVersion}
    {active : List SnapshotActive} {retired : List SnapshotRetired} {receiptOrder : List Bytes}
    (hActive : active.length ≤ limit) (hOrder : receiptOrder.length ≤ limit)
    (hSum : active.length + retired.length < width 64) :
    Within limit (validateReceiptConsistency versions active retired receiptOrder)
      (Snapshot.validateReceiptConsistency versions active retired receiptOrder) := by
  refine within_bind (within_lift _) fun _ _ => within_reserve_bind hOrder ?_
  refine within_bind (within_lift _) fun _ _ => ?_
  rw [add_of_lt hSum, pure_bind]
  refine within_bind (within_lift _) fun _ _ => within_reserve_bind hActive ?_
  refine within_bind (within_lift _) fun _ _ => within_bind (within_lift _) fun _ _ => ?_
  exact within_reserve_bind hActive (within_lift _)

end Tables

/-! ## The whole artifact -/

theorem boundedCount_le {message : String} {cursor cursor' : LogCursor} {count : Nat}
    (h : boundedCount message cursor = .ok (count, cursor')) : count ≤ cursor.bytes.length := by
  obtain ⟨⟨raw, middle⟩, hRaw, h⟩ := bind_eq_ok.mp h
  obtain ⟨⟨_, _⟩, hCheck, h⟩ := bind_eq_ok.mp h
  obtain ⟨_, hFits, -⟩ := bind_eq_ok.mp hCheck
  cases h
  rw [← keepsBytes_takeU64 _ _ _ hRaw]
  exact (Nat.not_lt.mp (failIf_eq_ok.mp hFits)).trans (Nat.sub_le _ _)

/-- Every count is bounded by the length of what it counts. -/
structure Counts.Fit (counts : Counts) (limit : Nat) : Prop where
  histories : counts.histories ≤ limit
  versions : counts.versions ≤ limit
  active : counts.active ≤ limit
  retired : counts.retired ≤ limit
  receiptOrder : counts.receiptOrder ≤ limit

theorem takeCounts_fit {cursor cursor' : LogCursor} {counts : Counts}
    (h : takeCounts cursor = .ok (counts, cursor')) : Counts.Fit counts cursor.bytes.length := by
  obtain ⟨⟨histories, c₁⟩, hHistories, h⟩ := bind_eq_ok.mp h
  obtain ⟨⟨versions, c₂⟩, hVersions, h⟩ := bind_eq_ok.mp h
  obtain ⟨⟨active, c₃⟩, hActive, h⟩ := bind_eq_ok.mp h
  obtain ⟨⟨retired, c₄⟩, hRetired, h⟩ := bind_eq_ok.mp h
  obtain ⟨⟨receiptOrder, c₅⟩, hOrder, h⟩ := bind_eq_ok.mp h
  cases h
  have h₁ := keepsBytes_boundedCount _ _ _ _ hHistories
  have h₂ := (keepsBytes_boundedCount _ _ _ _ hVersions).trans h₁
  have h₃ := (keepsBytes_boundedCount _ _ _ _ hActive).trans h₂
  have h₄ := (keepsBytes_boundedCount _ _ _ _ hRetired).trans h₃
  exact {
    histories := boundedCount_le hHistories
    versions := h₁ ▸ boundedCount_le hVersions
    active := h₂ ▸ boundedCount_le hActive
    retired := h₃ ▸ boundedCount_le hRetired
    receiptOrder := h₄ ▸ boundedCount_le hOrder }

theorem takeHeader_fit {bytes : Bytes} {header : Header} {cursor : LogCursor}
    (h : takeHeader ⟨bytes, 0⟩ = .ok (header, cursor)) : Counts.Fit header.counts bytes.length := by
  obtain ⟨⟨magic, c₁⟩, hMagic, h⟩ := bind_eq_ok.mp h
  obtain ⟨⟨_, c₂⟩, hCheckMagic, h⟩ := bind_eq_ok.mp h
  obtain ⟨⟨totalLen, c₃⟩, hTotal, h⟩ := bind_eq_ok.mp h
  obtain ⟨⟨_, c₄⟩, hCheckTotal, h⟩ := bind_eq_ok.mp h
  obtain ⟨⟨schema, c₅⟩, hSchema, h⟩ := bind_eq_ok.mp h
  obtain ⟨⟨_, c₆⟩, hCheckSchema, h⟩ := bind_eq_ok.mp h
  obtain ⟨⟨generation, c₇⟩, hGeneration, h⟩ := bind_eq_ok.mp h
  obtain ⟨⟨walEnd, c₈⟩, hWalEnd, h⟩ := bind_eq_ok.mp h
  obtain ⟨⟨counts, c₉⟩, hCounts, h⟩ := bind_eq_ok.mp h
  have hSchemaKeeps : KeepsBytes takeU32 :=
    keepsBytes_bind (keepsBytes_take 4) fun _ => keepsBytes_pure _
  have hBytes : c₈.bytes = bytes :=
    calc c₈.bytes = c₇.bytes := keepsBytes_takeU64 _ _ _ hWalEnd
      _ = c₆.bytes := keepsBytes_takeU64 _ _ _ hGeneration
      _ = c₅.bytes := keepsBytes_check _ _ _ _ hCheckSchema
      _ = c₄.bytes := hSchemaKeeps _ _ _ hSchema
      _ = c₃.bytes := keepsBytes_check _ _ _ _ hCheckTotal
      _ = c₂.bytes := keepsBytes_takeU64 _ _ _ hTotal
      _ = c₁.bytes := keepsBytes_check _ _ _ _ hCheckMagic
      _ = bytes := keepsBytes_take _ _ _ _ hMagic
  have hFit := takeCounts_fit hCounts
  rw [hBytes] at hFit
  obtain ⟨⟨_, _⟩, -, h⟩ := bind_eq_ok.mp h
  obtain ⟨⟨_, _⟩, -, h⟩ := bind_eq_ok.mp h
  obtain ⟨⟨_, _⟩, -, h⟩ := bind_eq_ok.mp h
  obtain ⟨⟨_, _⟩, -, h⟩ := bind_eq_ok.mp h
  obtain ⟨⟨_, _⟩, -, h⟩ := bind_eq_ok.mp h
  obtain ⟨⟨_, _⟩, -, h⟩ := bind_eq_ok.mp h
  obtain ⟨⟨_, _⟩, -, h⟩ := bind_eq_ok.mp h
  cases h
  exact hFit

theorem takeSnapshot_eq : Snapshot.takeSnapshot = (do
    let header ← takeHeader
    let counts := header.counts
    let historyBindings ← takeMany takeOptionalBytes counts.histories
    liftM (failIf (¬ (historyBindings.filterMap id).Nodup)
      (HistoryError.invalid "history snapshot history bindings are not unique"))
    let versions ← Snapshot.takeVersions counts.histories [] counts.versions
    let active ← takeActive counts.versions [] counts.active
    let retired ← takeRetired (active.map SnapshotActive.requestId) [] counts.retired
    let receiptOrder ← takeMany takeRequestId counts.receiptOrder
    liftM (Snapshot.validateReceiptConsistency versions active retired receiptOrder)
    return {
      generation := header.generation
      representedWalEnd := header.representedWalEnd
      physicalGeneration := header.physicalGeneration
      payloadEnd := header.payloadEnd
      nodeCount := header.nodeCount
      nextHistoryId := header.nextHistoryId
      nextVersionId := header.nextVersionId
      historyBindings, versions, active, retired, receiptOrder }) := by
  simp only [Snapshot.takeSnapshot, takeHeader, bind_assoc, pure_bind]

/-- A history snapshot decoder asks for no more entries than there are bytes. -/
theorem decodeHistorySnapshot_within (sha256 : Bytes → Digest) {bytes : Bytes}
    (hLen : bytes.length < width 63) :
    Within bytes.length (decodeHistorySnapshot sha256 bytes)
      (History.decodeHistorySnapshot sha256 bytes) := by
  have hSnapshot : Within bytes.length (takeSnapshot ⟨bytes, 0⟩)
      (Snapshot.takeSnapshot ⟨bytes, 0⟩) := by
    rw [takeSnapshot_eq]
    refine within_read (within_plain _) fun header _ hHeader => ?_
    have hFit := takeHeader_fit hHeader
    refine within_request hFit.histories ?_
    refine within_read (within_plain _) fun historyBindings _ hBindings => ?_
    have hBindingsLen := (length_takeMany hBindings).trans_le hFit.histories
    refine within_request hBindingsLen ?_
    refine within_read (within_plain _) fun _ _ _ => within_request hFit.versions ?_
    refine within_read (takeVersions_within _ _ _ _) fun versions _ _ => ?_
    refine within_request hFit.active ?_
    refine within_read (within_plain _) fun active _ hActive => ?_
    have hActiveLen : active.length ≤ bytes.length := by
      rw [length_takeActive hActive, List.length_nil, Nat.zero_add]
      exact hFit.active
    refine within_request hActiveLen (within_request hFit.retired ?_)
    refine within_read (within_plain _) fun retired _ hRetired => ?_
    have hRetiredLen : retired.length ≤ bytes.length := by
      rw [length_takeRetired hRetired, List.length_nil, Nat.zero_add]
      exact hFit.retired
    refine within_request hFit.receiptOrder ?_
    refine within_read (within_plain _) fun receiptOrder _ hOrder => ?_
    have hOrderLen := (length_takeMany hOrder).trans_le hFit.receiptOrder
    have hWidth : width 64 = 2 * width 63 := by decide
    refine within_read (within_check (validateReceiptConsistency_within hActiveLen hOrderLen
      (by omega))) fun _ _ _ => ?_
    exact within_pure _
  refine within_bind hSnapshot fun read _ => ?_
  refine within_bind (within_lift _) fun _ _ => within_bind (within_lift _) fun _ _ => ?_
  exact within_bind (within_lift _) fun _ _ => within_pure _

end Guarded

/-! ## Bounded decoding -/

section Bounded

variable (sha256 : Bytes → Digest)

/-- The four decoders return what their plain forms do, without a panic and without a request above
the length of their input, and the loop without a count stops. The checkpoint records of a snapshot
go through the decoder of commits, whose sums do not overflow either. -/
structure BoundedDecoding (bytes : Bytes) : Prop where
  snapshot : Within bytes.length (V2.Guarded.decodeV2SealedSnapshot sha256 bytes)
    (V2.decodeV2SealedSnapshot sha256 bytes)
  checkpoint : ∀ part versionCount, V2.Guarded.decodeV2Checkpoint part versionCount =
    lift (V2.decodeV2Checkpoint part versionCount)
  terminates : V2.decodeV2SealedSnapshot sha256 bytes ≠ .error .diverged
  commit : Within bytes.length (V2.Guarded.decodeV2Commit sha256 bytes)
    (V2.decodeV2Commit sha256 bytes)
  image : Within bytes.length (V2.Guarded.decodeV2Image sha256 bytes)
    (V2.decodeV2Image sha256 bytes)
  history : Within bytes.length (Guarded.decodeHistorySnapshot sha256 bytes)
    (decodeHistorySnapshot sha256 bytes)

/-- Decoding is bounded exactly when the version count of a sealed snapshot is. A slice has at most
`isize::MAX` bytes. -/
theorem boundedDecoding_iff {bytes : Bytes} (hLen : bytes.length < width 63) :
    BoundedDecoding sha256 bytes ↔ V2.Guarded.VersionCountFits sha256 bytes := by
  constructor
  · intro hBounded
    exact (V2.Guarded.decodeV2SealedSnapshot_within_iff hLen).mp hBounded.snapshot
  · intro hFits
    exact {
      snapshot := V2.Guarded.decodeV2SealedSnapshot_within hLen hFits
      checkpoint := V2.Guarded.decodeV2Checkpoint_lift
      terminates := V2.decodeV2SealedSnapshot_ne_diverged
      commit := V2.Guarded.decodeV2Commit_within sha256 bytes
      image := V2.Guarded.decodeV2Image_within sha256 bytes
      history := Guarded.decodeHistorySnapshot_within sha256 hLen }

/-- The sealed snapshot behind the first commit of the sample decodes, and within its length. -/
theorem boundedDecoding_sealedSnapshot : ∃ bytes snapshot,
    V2.exportV2SealedState V2.sampleRunSha256 V2.sampleFirstState = .ok (some bytes) ∧
    V2.decodeV2SealedSnapshot V2.sampleRunSha256 bytes = .ok snapshot ∧
    snapshot.versions.length = 1 ∧ BoundedDecoding V2.sampleRunSha256 bytes := by
  have hRuns : (V2.exportV2SealedState V2.sampleRunSha256 V2.sampleFirstState).toOption.join.any
      (fun bytes => (V2.decodeV2SealedSnapshot V2.sampleRunSha256 bytes).toOption.any
        fun snapshot => decide (snapshot.versions.length = 1 ∧ bytes.length < 1000)) = true := by
    decide +kernel
  obtain ⟨bytes, hBytes, hAny⟩ := (Option.any_eq_true _ _).mp hRuns
  obtain ⟨snapshot, hSnapshot, hFacts⟩ := (Option.any_eq_true _ _).mp hAny
  obtain ⟨hOne, hShort⟩ := of_decide_eq_true hFacts
  have hExport : V2.exportV2SealedState V2.sampleRunSha256 V2.sampleFirstState =
      .ok (some bytes) := by
    cases hState : V2.exportV2SealedState V2.sampleRunSha256 V2.sampleFirstState with
    | error error =>
      rw [hState] at hBytes
      cases hBytes
    | ok exported =>
      rw [hState] at hBytes
      exact congrArg Except.ok (Option.join_eq_some_iff.mp hBytes |> Option.some.inj)
  have hDecode : V2.decodeV2SealedSnapshot V2.sampleRunSha256 bytes = .ok snapshot := by
    cases hState : V2.decodeV2SealedSnapshot V2.sampleRunSha256 bytes with
    | error error =>
      rw [hState] at hSnapshot
      cases hSnapshot
    | ok decoded =>
      rw [hState] at hSnapshot
      cases hSnapshot
      rfl
  have hLen : bytes.length < width 63 := hShort.trans (by decide)
  exact ⟨bytes, snapshot, hExport, hDecode, hOne, (boundedDecoding_iff V2.sampleRunSha256 hLen).mpr
    (V2.Guarded.versionCountFits_of_decoded hDecode)⟩

/-- A header of a snapshot whose version count is the largest number of 64 bits. -/
def craftedHeader : Bytes :=
  V2.v2SnapshotMagic ++ leBytes 4 V2.v2SnapshotSchema ++ leBytes 8 96 ++ leBytes 8 0 ++
    leBytes 8 (2 ^ 64 - 1) ++ leBytes 8 0 ++ leBytes 8 0 ++ leBytes 8 0 ++ leBytes 4 72 ++ leBytes 4 0

/-- SHA-256 on the crafted header. -/
def craftedDigest : Digest :=
  digestOfNat 0x99c3b48f424c0db354f4d1b86bdcfbbf96502e84891c4e18fd195d20371d256e

/-- The whole snapshot: its header and the digest of it. -/
def craftedSnapshot : Bytes := craftedHeader ++ craftedDigest.toList

/-- The crafted snapshot asks for more versions than any allocation can hold. -/
theorem not_boundedDecoding : ¬ ∀ (sha256 : Bytes → Digest) (bytes : Bytes),
    bytes.length < width 63 → BoundedDecoding sha256 bytes := by
  intro hAll
  have hLen : craftedSnapshot.length = 96 := by decide +kernel
  have hSmall : 96 < width 63 := by decide
  have hBounded := hAll (fun _ => craftedDigest) craftedSnapshot (hLen ▸ hSmall)
  have hFits := (V2.Guarded.decodeV2SealedSnapshot_within_iff (hLen ▸ hSmall)).mp hBounded.snapshot
  have hHeader : V2.decodeSnapshotHeader craftedSnapshot =
      .ok ⟨96, 0, 2 ^ 64 - 1, 0, 0, 0, 72⟩ := by decide +kernel
  have hDigest : V2.checkSnapshotDigest (fun _ => craftedDigest) craftedSnapshot
      ⟨96, 0, 2 ^ 64 - 1, 0, 0, 0, 72⟩ = .ok () := by decide +kernel
  have hCount := hFits _ hHeader hDigest (by rw [hLen]; decide)
  rw [hLen] at hCount
  exact absurd hCount (by decide)

end Bounded

end TulyaStore.History
