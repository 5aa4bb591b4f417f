import TulyaStore.Checkpoint.RecordCodec
import TulyaStore.Checkpoint.State
import TulyaStore.Lib.Runs

/-!
# What the transaction checks close over

Whatever bytes a record is made of, once the parser and the apply checks have accepted it
every node of the state decodes to bytes of the arena or to earlier nodes, every root is a
node, and every version a checkpoint names exists (`Closed`). Two things stay unchecked: a
version may have no root, and a checkpoint may name it; and the nodes, which are shared, may stand
for more bytes than a vector holds. A checkpoint can be read exactly when every version it names
has a root and its canonical state fits a vector (`readable_iff`).
-/

namespace TulyaStore.Checkpoint

open Lib

variable {P : Primitives} {room : Nat} {s : StoreState} {tx : ParsedTransaction}

/-! ## Parsed transactions -/

/-- The versions a checkpoint refers to. -/
def CheckpointInfo.namedVersions (info : CheckpointInfo) : List Nat :=
  info.identityVersion :: (info.messagesVersion.toList ++ info.resultVersion.toList)

/-- What the parser guarantees of a transaction, whatever record it was read from. -/
structure TxShape (tx : ParsedTransaction) : Prop where
  compact : tx.compactNodes.length = (tx.nodeEnd - tx.nodeStart) * compactNodeSize
  nodeEnd : tx.nodeStart ≤ tx.nodeEnd
  wideAligned : wideRecordSize ∣ tx.wideNodes.length
  versionCount : tx.versionCount = tx.versionStart + tx.roots.length
  named : ∀ v ∈ tx.checkpoint.namedVersions, v < tx.versionCount

theorem parseRoots_length {record : Bytes} {count id cursor : Nat}
    {roots : List (Option Nat × Option Nat)}
    (h : parseRoots P record count id cursor = .ok roots) : roots.length = count := by
  induction count generalizing id cursor roots with
  | zero =>
    obtain rfl : [] = roots := by simpa [parseRoots] using h
    rfl
  | succ count ih =>
    simp only [parseRoots, bind_eq_ok, Except.ok.injEq] at h
    obtain ⟨_, _, root, _, rest, hRest, rfl⟩ := h
    rw [List.length_cons, ih hRest]

theorem optionalVersion_lt {versionCount raw : Nat} {version : Option Nat}
    (h : optionalVersion versionCount raw = .ok version) : ∀ v ∈ version, v < versionCount := by
  simp only [optionalVersion, bind_eq_ok, failIf_eq_ok, Except.ok.injEq, optionalField] at h
  obtain ⟨_, hRaw, rfl⟩ := h
  intro v hv
  split at hv
  case isTrue => exact absurd hv (by simp)
  case isFalse hNone =>
    obtain rfl : raw = v := by simpa using hv
    exact not_not.mp (fun hLt => hRaw ⟨hNone, hLt⟩)

/-- A parsed checkpoint names versions below the version count. -/
theorem parseCheckpointRecord_named {record : Bytes} {versionCount ordinal : Nat}
    {info : CheckpointInfo}
    (h : parseCheckpointRecord P record versionCount ordinal = .ok info) :
    ∀ v ∈ info.namedVersions, v < versionCount := by
  simp only [parseCheckpointRecord, bind_eq_ok, failIf_eq_ok, Except.ok.injEq, Nat.not_le] at h
  obtain ⟨_, _, f, _, _, _, _, _, _, _, _, hIdentity, _, _, _, _, _, _, _, _, _, _, _, _, _, _,
    messages, hMessages, result, hResult, rfl⟩ := h
  intro v hv
  simp only [CheckpointInfo.namedVersions, List.mem_cons, List.mem_append,
    Option.mem_toList] at hv
  obtain rfl | hv | hv := hv
  · exact hIdentity
  · exact optionalVersion_lt hMessages v hv
  · exact optionalVersion_lt hResult v hv

/-- A parsed transaction has its shape. -/
theorem txShape_of_parse {record : Bytes} {geometry : Option Geometry} {startOffset : Nat}
    (h : parseTransactionWithGeometry P record geometry startOffset = .ok tx) : TxShape tx := by
  obtain ⟨hd, sections, info, hEnvelope, hSections, hInfo, _, _, _, _, rfl⟩ := parse_inv h
  obtain ⟨_, _, _, hVersions, _, _⟩ := checkEnvelope_inv hEnvelope
  simp only [parseSections, bind_eq_ok, okOr_eq_ok, Except.ok.injEq] at hSections
  obtain ⟨_, _, _, _, compact, hCompact, wide, hWide, roots, hRoots, _, _, rfl⟩ := hSections
  have hCompactLen := length_of_slice hCompact
  have hWideLen := length_of_slice hWide
  have hRootsLen := parseRoots_length hRoots
  refine ⟨?_, Nat.le_add_right _ _, ?_, ?_, parseCheckpointRecord_named hInfo⟩
  · dsimp only
    rw [hCompactLen, Nat.add_sub_cancel_left, Nat.add_sub_cancel_left]
  · dsimp only
    rw [hWideLen, TxHeader.rootCursor, Nat.add_sub_cancel_left]
    exact Nat.dvd_mul_left _ _
  · simp only [List.length_map, hRootsLen, hVersions]

/-! ## Validated nodes -/

/-- The wide record the checks looked at is the one the grown state holds. -/
theorem wideRecordAt_appended (hAligned : wideRecordSize ∣ s.wideNodes.length) {index : Nat}
    {record : Bytes} (h : wideRecordAt s tx index = .ok record) :
    slice (s.wideNodes ++ tx.wideNodes) (index * wideRecordSize)
      (index * wideRecordSize + wideRecordSize) = some record := by
  simp only [wideRecordAt] at h
  split at h
  case isTrue => exact slice_append (okOr_eq_ok.mp h)
  case isFalse hOut =>
    obtain ⟨n, hLen⟩ := hAligned
    have hStart : s.wideNodes.length ≤ index * wideRecordSize := by
      rw [hLen, Nat.mul_comm]
      refine Nat.mul_le_mul_right _ (Nat.not_lt.mp (fun hLt => hOut ?_))
      rw [hLen, ← Nat.succ_mul, Nat.mul_comm]
      exact Nat.mul_le_mul_left _ hLt
    obtain ⟨k, hk⟩ := Nat.exists_eq_add_of_le hStart
    have hSlice := okOr_eq_ok.mp h
    rw [hk, Nat.add_assoc, Nat.add_sub_cancel_left, Nat.add_sub_cancel_left] at hSlice
    rw [hk, Nat.add_assoc, slice_skip]
    exact hSlice

/-- A wide record that passes the checks decodes to a node inside. -/
theorem decodeWide_of_validate {arenaLen nodeId : Nat} {record : Bytes}
    (h : validateWide arenaLen nodeId record = .ok ()) :
    ∃ node, decodeWide record nodeId = .ok node ∧ node.Inside nodeId arenaLen := by
  unfold validateWide at h
  unfold decodeWide
  obtain ⟨kind, hKind, h⟩ := bind_eq_ok.mp h
  rw [hKind, ok_bind]
  by_cases hLeaf : kind = wideKindLeaf
  · rw [if_pos hLeaf] at h ⊢
    simp only [bind_eq_ok, okOr_eq_ok, checkedAdd_eq_some, failIf_eq_ok, Nat.not_lt] at h
    obtain ⟨offset, hOffset, length, hLength, _, ⟨_, rfl⟩, hIn⟩ := h
    exact ⟨.leaf offset length, by rw [hOffset, ok_bind, hLength, ok_bind], hIn⟩
  rw [if_neg hLeaf] at h ⊢
  by_cases hBinary : kind = wideKindBinary
  · rw [if_pos hBinary] at h ⊢
    simp only [bind_eq_ok, failIf_eq_ok] at h
    obtain ⟨left, hLeft, right, hRight, hPrior⟩ := h
    refine ⟨.binary left right, ?_, ?_⟩
    · rw [hLeft, ok_bind, hRight, ok_bind, failIf_neg hPrior, ok_bind]
    · exact ⟨by omega, by omega⟩
  · rw [if_neg hBinary] at h
    exact absurd h (by simp)

/-- A slot that passes the checks decodes, in the grown state, to a node inside. -/
theorem decodeSlot_of_validate (hBase : s.baseGeometry = none)
    (hAligned : wideRecordSize ∣ s.wideNodes.length) {arenaLen nodeId : Nat} {slot : Bytes}
    (h : validateSlot s tx arenaLen nodeId slot = .ok ()) :
    ∃ node, decodeSlot (appended s tx) nodeId slot = .ok node ∧ node.Inside nodeId arenaLen := by
  have hBase' : (appended s tx).lazyBaseGeometry = .zero := lazyBaseGeometry_of_none hBase
  unfold validateSlot at h
  unfold decodeSlot
  obtain ⟨kind, hKind, h⟩ := bind_eq_ok.mp h
  rw [hKind, ok_bind]
  by_cases hLeaf : kind = kindLeaf
  · rw [if_pos hLeaf] at h ⊢
    simp only [bind_eq_ok, okOr_eq_ok, checkedAdd_eq_some, failIf_eq_ok, Nat.not_lt] at h
    obtain ⟨offset, hOffset, length, hLength, _, ⟨_, rfl⟩, hIn⟩ := h
    exact ⟨.leaf offset length, by rw [hOffset, ok_bind, hLength, ok_bind], hIn⟩
  rw [if_neg hLeaf] at h ⊢
  by_cases hBinary : kind = kindBinary
  · rw [if_pos hBinary] at h ⊢
    simp only [bind_eq_ok, failIf_eq_ok] at h
    obtain ⟨left, hLeft, right, hRight, hDeltas⟩ := h
    refine ⟨.binary (nodeId - left) (nodeId - right), ?_, ?_⟩
    · rw [hLeft, ok_bind, hRight, ok_bind, failIf_neg hDeltas, ok_bind]
    · exact ⟨by omega, by omega⟩
  rw [if_neg hBinary] at h ⊢
  by_cases hWide : kind = kindWide
  · rw [if_pos hWide] at h ⊢
    obtain ⟨index, hIndex, h⟩ := bind_eq_ok.mp h
    rw [lazyBaseGeometry_of_none hBase] at h
    simp only [Geometry.zero, Nat.not_lt_zero, if_false, Nat.sub_zero] at h
    obtain ⟨record, hRecord, h⟩ := bind_eq_ok.mp h
    obtain ⟨node, hDecode, hInside⟩ := decodeWide_of_validate h
    refine ⟨node, ?_, hInside⟩
    have hSlice := wideRecordAt_appended hAligned hRecord
    have hBelow : ¬ index < Geometry.zero.wideCount := Nat.not_lt_zero _
    rw [hIndex, ok_bind, hBase']
    dsimp only
    rw [failIf_neg hBelow, ok_bind]
    change (do
      let record ← okOr (slice (s.wideNodes ++ tx.wideNodes) (index * wideRecordSize)
        (index * wideRecordSize + wideRecordSize)) _
      decodeWide record nodeId) = _
    rw [hSlice, okOr_some, ok_bind, hDecode]
  · rw [if_neg hWide] at h
    exact absurd h (by simp)

theorem validateSlots_get {arenaLen nodeId : Nat} {slots : List Bytes} {u : Unit}
    (h : validateSlots s tx arenaLen nodeId slots = .ok u) :
    ∀ (k : Nat) slot, slots[k]? = some slot →
      validateSlot s tx arenaLen (nodeId + k) slot = .ok () := by
  induction slots generalizing nodeId with
  | nil => simp
  | cons slot rest ih =>
    simp only [validateSlots, bind_eq_ok] at h
    obtain ⟨_, _, _, hSlot, hRest⟩ := h
    intro k slot' hk
    cases k with
    | zero =>
      obtain rfl : slot = slot' := by simpa using hk
      exact hSlot
    | succ k =>
      have hAt := ih hRest k slot' (by simpa using hk)
      rwa [Nat.add_assoc, Nat.add_comm 1 k] at hAt

/-! ## Closed states -/

/-- Everything an accepted transaction was checked for. -/
structure Closed (s : StoreState) : Prop where
  table : TableOk s
  roots : ∀ n, some n ∈ s.versions → n < s.nodeCount
  named : ∀ info ∈ s.checkpoints, ∀ v ∈ info.namedVersions, v < s.versions.length
  threads : s.threads.length ≤ s.checkpoints.length

theorem closed_empty : Closed .empty where
  table := ⟨rfl, Nat.dvd_zero _, Nat.dvd_zero _, by decide, fun i hi => absurd hi (Nat.not_lt_zero i)⟩
  roots := by simp [StoreState.empty]
  named := by simp [StoreState.empty]
  threads := by simp [StoreState.empty]

/-- The watermarks of a state, as far as nothing overflows. -/
theorem geometry_inv {g : Geometry} (h : s.geometry = .ok g) (hBase : s.baseGeometry = none) :
    g.byteLen = s.arenaBytes.length ∧ g.nodeCount = s.nodeCount ∧
      g.versionCount = s.versions.length := by
  simp only [StoreState.geometry, lazyBaseGeometry_of_none hBase, Geometry.zero, bind_eq_ok,
    okOr_eq_ok, checkedAdd_eq_some, Nat.zero_add, Except.ok.injEq] at h
  obtain ⟨_, ⟨_, rfl⟩, _, ⟨_, rfl⟩, _, _, rfl⟩ := h
  exact ⟨rfl, rfl, rfl⟩

theorem rootsOutside_eq_false {nodeEnd : Nat} {roots : List (Option Nat)}
    (h : ¬ rootsOutside nodeEnd roots = true) : ∀ n, some n ∈ roots → n < nodeEnd := by
  intro n hn
  by_contra hOut
  refine h (List.any_eq_true.mpr ⟨some n, hn, ?_⟩)
  simpa using hOut

theorem extends_appended (hBase : s.baseGeometry = none) : Extends s (appended s tx) :=
  ⟨hBase, hBase, List.prefix_append _ _, List.prefix_append _ _, List.prefix_append _ _⟩

/-- One accepted transaction keeps the state closed. -/
theorem Closed.append (h : Closed s) (hAdm : Admissible s tx) (hShape : TxShape tx) :
    Closed (appended s tx) := by
  have hBase := h.table.base
  obtain ⟨hByteLen, hNodeCount, hVersions⟩ := geometry_inv hAdm.continues hBase
  have hValid := hAdm.nodes
  simp only [validateNewNodes, hAdm.continues, ok_bind, bind_eq_ok, okOr_eq_ok,
    checkedAdd_eq_some, failIf_eq_ok] at hValid
  obtain ⟨arenaLen, ⟨hArenaLt, rfl⟩, _, _, _, hSlots, _, _, hRoots⟩ := hValid
  rw [hByteLen] at hArenaLt hSlots
  rw [hNodeCount] at hSlots
  have hWidth : 0 < compactNodeSize := by decide
  have hTxAligned : compactNodeSize ∣ tx.compactNodes.length :=
    hShape.compact ▸ Nat.dvd_mul_left _ _
  have hFlat := flatten_chunksExact hWidth hTxAligned
  have hCompact : (appended s tx).compactNodes =
      s.compactNodes ++ (chunksExact compactNodeSize tx.compactNodes).flatten := by
    rw [hFlat]
    rfl
  have hLengths : ∀ slot ∈ chunksExact compactNodeSize tx.compactNodes,
      slot.length = compactNodeSize := fun slot hSlot => length_of_mem_chunksExact hSlot
  have hCount : (appended s tx).nodeCount = s.nodeCount + (tx.nodeEnd - tx.nodeStart) := by
    rw [nodeCount_appended h.table.compactAligned hCompact hLengths, length_chunksExact,
      hShape.compact, Nat.mul_div_cancel _ hWidth]
  have hNodeEnd : (appended s tx).nodeCount = tx.nodeEnd := by
    have hStart : tx.nodeStart = s.nodeCount := hNodeCount
    have hLe := hShape.nodeEnd
    omega
  have hArena : (appended s tx).arenaBytes.length = s.arenaBytes.length + tx.bytes.length :=
    List.length_append
  have hExtends : Extends s (appended s tx) := extends_appended hBase
  refine ⟨⟨hBase, ?_, ?_, hArena ▸ hArenaLt, ?_⟩, ?_, ?_, ?_⟩
  · rw [hCompact, hFlat, List.length_append]
    exact Nat.dvd_add h.table.compactAligned hTxAligned
  · exact List.length_append ▸ Nat.dvd_add h.table.wideAligned hShape.wideAligned
  · intro i hi
    by_cases hOld : i < s.nodeCount
    · obtain ⟨node, hDecode, hInside⟩ := h.table.node i hOld
      refine ⟨node, hExtends.decodeNode hDecode, ?_⟩
      cases node with
      | leaf offset length => exact Nat.le_trans hInside (by omega)
      | binary left right => exact hInside
    · obtain ⟨k, rfl⟩ : ∃ k, i = s.nodeCount + k := ⟨i - s.nodeCount, by omega⟩
      have hk : k < (chunksExact compactNodeSize tx.compactNodes).length := by
        rw [length_chunksExact, hShape.compact, Nat.mul_div_cancel _ hWidth]
        omega
      have hGet := List.getElem?_eq_getElem hk
      obtain ⟨node, hDecode, hInside⟩ := decodeSlot_of_validate hBase h.table.wideAligned
        (validateSlots_get hSlots k _ hGet)
      rw [← hArena] at hInside
      refine ⟨node, ?_, hInside⟩
      have hBase' : (appended s tx).baseGeometry = none := hBase
      rw [decodeNode_appended hBase' h.table.compactAligned hCompact hLengths hGet]
      exact hDecode
  · intro n hn
    obtain hOld | hNew := List.mem_append.mp hn
    · have hLt := h.roots n hOld
      omega
    · rw [hNodeEnd]
      exact rootsOutside_eq_false hRoots n hNew
  · intro info hInfo v hv
    have hLen : (appended s tx).versions.length = s.versions.length + tx.roots.length :=
      List.length_append
    obtain hOld | hNew := List.mem_append.mp hInfo
    · have hLt := h.named info hOld v hv
      omega
    · obtain rfl := List.mem_singleton.mp hNew
      have hLt := hShape.named v hv
      have hStart : tx.versionStart = s.versions.length := hVersions
      have hCountEq := hShape.versionCount
      omega
  · have hThreads := h.threads
    have hGrow : (appended s tx).threads.length ≤ s.threads.length + 1 := by
      simp only [appended]
      split <;> simp
    have hCheckpoints : (appended s tx).checkpoints.length = s.checkpoints.length + 1 :=
      List.length_append
    omega

/-! ## Reading a closed state -/

/-- The versions the checkpoint names have roots, and with what is under them its canonical state
has at most `room` bytes. -/
def StateFits (room : Nat) (s : StoreState) (info : CheckpointInfo) : Prop :=
  ∃ identity messages result,
    CheckpointDenotes (eagerReader s) s.versions info identity messages result ∧
      (canonicalState identity (messages.getD []) result).length ≤ room

/-- The checkpoint and each of its versions can be read with vectors of `room` bytes. -/
structure Readable (room : Nat) (s : StoreState) (info : CheckpointInfo) : Prop where
  state : ∃ bytes, reconstructCheckpoint (eagerReader s) room s.versions info = .ok bytes
  versions : ∀ v ∈ info.namedVersions,
    ∃ bytes, extractVersion (eagerReader s) room s.versions v = .ok bytes

/-- A version that is read has a root, and what is under it. -/
theorem Closed.versionDenotes (h : Closed s) {v : Nat} {bytes : Bytes}
    (hRead : extractVersion (eagerReader s) room s.versions v = .ok bytes) :
    ∃ bs, VersionDenotes (eagerReader s) s.versions v bs := by
  simp only [extractVersion, versionRoot, bind_eq_ok, okOr_eq_ok, Option.join_eq_some_iff] at hRead
  obtain ⟨root, hRoot, -⟩ := hRead
  obtain ⟨bs, hDenotes⟩ := h.table.denotes root (h.roots root (List.mem_of_getElem? hRoot))
  exact ⟨bs, root, hRoot, hDenotes⟩

theorem Closed.channelDenotes (h : Closed s) {version : Option Nat} {bytes : Option Bytes}
    (hRead : extractOptional (eagerReader s) room s.versions version = .ok bytes) :
    ∃ bs, ChannelDenotes (eagerReader s) s.versions version bs := by
  cases version with
  | none => exact ⟨none, trivial⟩
  | some v =>
    obtain ⟨channel, hChannel, -⟩ := bind_eq_ok.mp hRead
    obtain ⟨bs, hDenotes⟩ := h.versionDenotes hChannel
    exact ⟨some bs, hDenotes⟩

/-- A checkpoint of a closed state reads exactly when its versions have roots and a vector can hold
its canonical state. -/
theorem Closed.readable_iff (h : Closed s) {info : CheckpointInfo} :
    Readable room s info ↔ StateFits room s info := by
  constructor
  · rintro ⟨⟨bytes, hRead⟩, -⟩
    have hParts := hRead
    simp only [reconstructCheckpoint, bind_eq_ok] at hParts
    obtain ⟨_, hIdentity, _, hMessages, _, hResult, -⟩ := hParts
    obtain ⟨identity, hIdentity⟩ := h.versionDenotes hIdentity
    obtain ⟨messages, hMessages⟩ := h.channelDenotes hMessages
    obtain ⟨result, hResult⟩ := h.channelDenotes hResult
    have hDenotes : CheckpointDenotes (eagerReader s) s.versions info identity messages result :=
      ⟨hIdentity, hMessages, hResult⟩
    refine ⟨identity, messages, result, hDenotes, ?_⟩
    by_contra hLarge
    rw [reconstructCheckpoint_eq hDenotes, if_neg hLarge] at hRead
    cases hRead
  · rintro ⟨identity, messages, result, hDenotes, hLe⟩
    have hChannels := length_channels_le identity (messages.getD []) result
    refine ⟨⟨_, by rw [reconstructCheckpoint_eq hDenotes, if_pos hLe]⟩, ?_⟩
    have hOptional : ∀ {version : Option Nat} {bs : Option Bytes},
        ChannelDenotes (eagerReader s) s.versions version bs → (bs.getD []).length ≤ room →
        ∀ v ∈ version, ∃ bytes, extractVersion (eagerReader s) room s.versions v = .ok bytes := by
      rintro version bs hBs hFits v rfl
      cases bs with
      | none => exact hBs.elim
      | some bs =>
        rw [Option.getD_some] at hFits
        exact ⟨bs, by rw [extractVersion_eq hBs, if_pos hFits]⟩
    intro v hv
    simp only [CheckpointInfo.namedVersions, List.mem_cons, List.mem_append,
      Option.mem_toList] at hv
    obtain rfl | hv | hv := hv
    · exact ⟨identity, by rw [extractVersion_eq hDenotes.identity, if_pos (by omega)]⟩
    · exact hOptional hDenotes.messages (by omega) v hv
    · exact hOptional hDenotes.result (by omega) v hv

/-! ## Reading behind an append -/

/-- A version that exists holds the same bytes behind an append. -/
theorem Closed.versionDenotes_append (h : Closed s) {v : Nat} (hv : v < s.versions.length)
    {bs : Bytes} : VersionDenotes (eagerReader (appended s tx)) (appended s tx).versions v bs ↔
      VersionDenotes (eagerReader s) s.versions v bs := by
  have hExtends := @extends_appended s tx h.table.base
  have hSame : (appended s tx).versions[v]? = s.versions[v]? := List.getElem?_append_left hv
  constructor
  · rintro ⟨root, hRoot, hDenotes⟩
    rw [hSame] at hRoot
    obtain ⟨old, hOld⟩ := h.table.denotes root (h.roots root (List.mem_of_getElem? hRoot))
    rw [hDenotes.unique (hExtends.denotes hOld)]
    exact ⟨root, hRoot, hOld⟩
  · rintro ⟨root, hRoot, hDenotes⟩
    exact ⟨root, hSame.trans hRoot, hExtends.denotes hDenotes⟩

theorem Closed.channelDenotes_append (h : Closed s) {version : Option Nat}
    (hv : ∀ v ∈ version, v < s.versions.length) {bs : Option Bytes} :
    ChannelDenotes (eagerReader (appended s tx)) (appended s tx).versions version bs ↔
      ChannelDenotes (eagerReader s) s.versions version bs := by
  cases version <;> cases bs <;> simp only [ChannelDenotes]
  exact h.versionDenotes_append (hv _ rfl)

/-- A checkpoint that exists is as readable behind an append as before. -/
theorem Closed.stateFits_append (h : Closed s) {info : CheckpointInfo}
    (hInfo : info ∈ s.checkpoints) :
    StateFits room (appended s tx) info ↔ StateFits room s info := by
  have hNamed := h.named info hInfo
  simp only [CheckpointInfo.namedVersions, List.mem_cons, List.mem_append, Option.mem_toList] at hNamed
  have hDenotes : ∀ identity messages result,
      CheckpointDenotes (eagerReader (appended s tx)) (appended s tx).versions info identity
        messages result ↔
        CheckpointDenotes (eagerReader s) s.versions info identity messages result := by
    intro identity messages result
    have hIdentity := @Closed.versionDenotes_append s tx h _ (hNamed _ (Or.inl rfl)) identity
    have hMessages := @Closed.channelDenotes_append s tx h info.messagesVersion
      (fun v hv => hNamed v (Or.inr (Or.inl hv))) messages
    have hResult := @Closed.channelDenotes_append s tx h info.resultVersion
      (fun v hv => hNamed v (Or.inr (Or.inr hv))) result
    exact ⟨fun hAll => ⟨hIdentity.mp hAll.identity, hMessages.mp hAll.messages,
      hResult.mp hAll.result⟩, fun hAll => ⟨hIdentity.mpr hAll.identity,
      hMessages.mpr hAll.messages, hResult.mpr hAll.result⟩⟩
  simp only [StateFits, hDenotes]

/-! ## Runs of accepted records -/

/-- A byte string offered as the next record, with the watermarks and the file offset it is
parsed at. -/
structure Offer where
  record : Bytes
  geometry : Geometry
  offset : Nat

/-- Parses and applies an offered record. -/
def acceptOffer (P : Primitives) (s : StoreState) (o : Offer) : Except StoreError StoreState := do
  let tx ← parseTransaction P o.record o.geometry o.offset
  applyTransaction s tx

/-- The state after a list of offers, when each of them is accepted. -/
def acceptOffers (P : Primitives) (s : StoreState) (offers : List Offer) : Option StoreState :=
  runSteps (fun s o => (acceptOffer P s o).toOption) s offers

/-- Behind the offered record, its own versions and nodes included, the versions that its checkpoint
names have roots, and its canonical state has at most `room` bytes. -/
def OfferFits (P : Primitives) (room : Nat) (s : StoreState) (o : Offer) : Prop :=
  ∀ tx, parseTransaction P o.record o.geometry o.offset = .ok tx →
    StateFits room (appended s tx) tx.checkpoint

theorem acceptOffer_inv {s' : StoreState} {o : Offer}
    (h : (acceptOffer P s o).toOption = some s') :
    ∃ tx, parseTransaction P o.record o.geometry o.offset = .ok tx ∧ Admissible s tx ∧
      s' = appended s tx := by
  have hOk : acceptOffer P s o = .ok s' := by
    cases hAccept : acceptOffer P s o with
    | ok t => simpa [hAccept, Except.toOption] using h
    | error e => simp [hAccept, Except.toOption] at h
  obtain ⟨tx, hParse, hApply⟩ := bind_eq_ok.mp hOk
  exact ⟨tx, hParse, applyTransaction_eq_ok.mp hApply⟩

theorem Closed.accept {s' : StoreState} {o : Offer} (h : Closed s)
    (hAccept : (acceptOffer P s o).toOption = some s') : Closed s' := by
  obtain ⟨tx, hParse, hAdm, rfl⟩ := acceptOffer_inv hAccept
  exact h.append hAdm (txShape_of_parse hParse)

/-- What one accepted record adds to the readability of the state. -/
theorem Closed.stateFits_accept {s' : StoreState} {o : Offer} (h : Closed s)
    (hAccept : (acceptOffer P s o).toOption = some s') :
    (∀ info ∈ s'.checkpoints, StateFits room s' info) ↔
      (∀ info ∈ s.checkpoints, StateFits room s info) ∧ OfferFits P room s o := by
  obtain ⟨tx, hParse, _, rfl⟩ := acceptOffer_inv hAccept
  have hOffer : OfferFits P room s o ↔ StateFits room (appended s tx) tx.checkpoint := by
    constructor
    · intro hAll
      exact hAll tx hParse
    · intro hTx tx' hParse'
      obtain rfl : tx = tx' := Except.ok.inj (hParse.symm.trans hParse')
      exact hTx
  rw [hOffer]
  constructor
  · intro hAll
    refine ⟨fun info hInfo =>
      (h.stateFits_append hInfo).mp (hAll info (List.mem_append_left _ hInfo)), ?_⟩
    exact hAll tx.checkpoint (List.mem_append_right _ (List.mem_singleton_self _))
  · rintro ⟨hBefore, hNew⟩ info hInfo
    obtain hInfo | hInfo := List.mem_append.mp hInfo
    · exact (h.stateFits_append hInfo).mpr (hBefore info hInfo)
    · obtain rfl := List.mem_singleton.mp hInfo
      exact hNew

/-- After any accepted records, all checkpoints can be read with vectors of `room` bytes exactly
when each record, where it was accepted, named only versions with a root, and a canonical state of
at most `room` bytes. -/
theorem readable_after_offers (P : Primitives) (room : Nat) (offers : List Offer) (s : StoreState)
    (h : acceptOffers P .empty offers = some s) :
    (∀ info ∈ s.checkpoints, Readable room s info) ↔
      StepsMeet (fun s o => (acceptOffer P s o).toOption) (OfferFits P room) .empty offers := by
  have hRun : runSteps (fun s o => (acceptOffer P s o).toOption) .empty offers = some s := h
  have hClosed : Closed s :=
    runSteps_keeps (fun _ _ _ hc ha => hc.accept ha) closed_empty hRun
  have hFits : (∀ info ∈ s.checkpoints, StateFits room s info) ↔
      (∀ info ∈ StoreState.empty.checkpoints, StateFits room .empty info) ∧
        StepsMeet (fun s o => (acceptOffer P s o).toOption) (OfferFits P room) .empty offers :=
    runSteps_iff (I := Closed) (Q := fun s => ∀ info ∈ s.checkpoints, StateFits room s info)
      (fun _ _ _ hc ha => hc.accept ha) (fun _ _ _ hc ha => hc.stateFits_accept ha)
      closed_empty hRun
  have hReadable : (∀ info ∈ s.checkpoints, Readable room s info) ↔
      ∀ info ∈ s.checkpoints, StateFits room s info :=
    forall₂_congr (fun _ _ => hClosed.readable_iff)
  rw [hReadable, hFits]
  simp [StoreState.empty]

/-- A digest written as one number, the first byte most significant. -/
def digestOfNat (n : Nat) : Digest := Vector.ofFn fun i => UInt8.ofNat (n / 256 ^ (31 - i.val) % 256)

/-- XXH3 and SHA-256 on the record below and its parts. -/
def identityPrimitives : Primitives where
  xxh3 bytes :=
    if bytes.length = 24 then 0x4313bb46df11ad32
    else if bytes.length = 54 then 0xa9d2996906f94e5
    else 0xaf9c3bc262854fc3
  sha256 _ := digestOfNat 0xa4d24698eb523f0199142131ea6143488dbc4e395a32d4254c27305c9839f5a3
  compress _ bytes := bytes
  decompress bytes _ := some bytes

/-- The record of checkpoint `c` of thread `t` with the identity `0`. -/
def identityRecord : Bytes :=
  let head : CheckpointHead := ⟨"t", "c", 0, none, 28, 0xbf6fa59daee25045⟩
  let header : TxHeader := ⟨191, 0, 1, 1, 1, 0, 1, 0, 1, 0, 0, 62, 0⟩
  withChecksum identityPrimitives (header.bytes ++ ascii "0" ++ compactLeaf 0 1 ++
    rootRecord identityPrimitives 0 0 none ++ checkpointRecord identityPrimitives head 0 none)

def identityOffer : Offer := ⟨identityRecord, .zero, 0⟩

def readAll (room : Nat) (s : StoreState) : List (Except StoreError Bytes) :=
  s.checkpoints.map (reconstructCheckpoint (eagerReader s) room s.versions)

theorem acceptOffers_identity :
    (acceptOffers identityPrimitives .empty [identityOffer]).map (fun s =>
        (readAll 28 s, s.checkpoints.all fun info => info.namedVersions.all fun v =>
          (extractVersion (eagerReader s) 28 s.versions v).toOption.isSome)) =
      some ([.ok (ascii "\x7b\"identity\":0,\"messages\":[]\x7d")], true) := by
  decide +kernel

/-- The record is accepted and its checkpoint is read back, so its state fits. -/
theorem readable_after_offers_identity :
    ∃ s, acceptOffers identityPrimitives .empty [identityOffer] = some s ∧
      readAll 28 s = [.ok (ascii "\x7b\"identity\":0,\"messages\":[]\x7d")] ∧
      StepsMeet (fun s o => (acceptOffer identityPrimitives s o).toOption)
        (OfferFits identityPrimitives 28) .empty [identityOffer] := by
  obtain ⟨s, hRun, hBoth⟩ := Option.map_eq_some_iff.mp acceptOffers_identity
  obtain ⟨hReads, hVersions⟩ := Prod.mk.inj hBoth
  refine ⟨s, hRun, hReads, (readable_after_offers identityPrimitives 28 _ s hRun).mp ?_⟩
  intro info hInfo
  constructor
  · have hRead : reconstructCheckpoint (eagerReader s) 28 s.versions info ∈ readAll 28 s :=
      List.mem_map_of_mem hInfo
    rw [hReads, List.mem_singleton] at hRead
    exact ⟨_, hRead⟩
  · intro v hv
    have hRead := List.all_eq_true.mp (List.all_eq_true.mp hVersions info hInfo) v hv
    exact exists_ok_of_isSome hRead

/-! ## A version without a root -/

/-- XXH3 and SHA-256 on the record below and its parts. -/
def rootlessPrimitives : Primitives where
  xxh3 bytes :=
    if bytes.length = 24 then 0x1e56a388b4a994dd
    else if bytes.length = 54 then 0x6ba1be25b7b12a5
    else 0xeb5c4dbe5dd99a97
  sha256 _ := digestOfNat 0x1f578a20a8f018aca6ec7fa34e5e748a9ee41956b8cafb43299fd84c4998c109
  compress _ bytes := bytes
  decompress bytes _ := some bytes

/-- The record of checkpoint `c` of thread `t`, whose identity is a version without a root. -/
def rootlessRecord : Bytes :=
  let head : CheckpointHead := ⟨"t", "c", 0, none, 0, 0⟩
  let header : TxHeader := ⟨174, 0, 1, 1, 1, 0, 0, 0, 0, 0, 0, 62, 0⟩
  withChecksum rootlessPrimitives (header.bytes ++ rootRecord rootlessPrimitives 0 noneRoot none ++
    checkpointRecord rootlessPrimitives head 0 none)

def rootlessOffer : Offer := ⟨rootlessRecord, .zero, 0⟩

theorem acceptOffers_rootless :
    (acceptOffers rootlessPrimitives .empty [rootlessOffer]).map
        (readAll (2 ^ 63 - 1)) =
      some [.error (.format "version has no root")] := by
  decide +kernel

/-- A checkpoint whose version has no root is accepted, and cannot be read. -/
theorem not_readable_after_offers :
    ¬ ∀ (P : Primitives) (offers : List Offer) (s : StoreState),
      acceptOffers P .empty offers = some s → ∀ info ∈ s.checkpoints, Readable (2 ^ 63 - 1) s info := by
  intro hAll
  obtain ⟨s, hRun, hReads⟩ := Option.map_eq_some_iff.mp acceptOffers_rootless
  obtain ⟨info, hInfos, hRead⟩ := List.map_eq_singleton_iff.mp hReads
  have hInfo : info ∈ s.checkpoints := by rw [hInfos]; exact List.mem_singleton_self _
  obtain ⟨bytes, hBytes⟩ := (hAll _ _ s hRun info hInfo).state
  rw [hRead] at hBytes
  exact absurd hBytes (by simp)

end TulyaStore.Checkpoint
