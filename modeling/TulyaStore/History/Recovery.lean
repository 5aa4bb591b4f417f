import TulyaStore.History.Authority
import TulyaStore.History.Logged
import TulyaStore.History.RecordCodec
import TulyaStore.Sequence.Tiling

/-!
# What a directory recovers to

A history directory stands for the store its manifest seals together with the records of its hot
log. `Recoverable` says so of a store and the arena its roots live in, and the opening of such a
directory gives exactly this store (`Recoverable.opens`). Nothing but the manifest, the snapshot and
the hot log of the generation and the two content files enters into it, so steps on other files
leave it as it is (`Recoverable.frame`).
-/

namespace TulyaStore.History

open Lib Sequence V2AvlSequence PersistentHistoryStore

/-! ## Stores bound to other content -/

section Content

variable {s : PersistentHistoryStore} {content : PhysicalContentStore}

theorem StoreInv.onContent (h : StoreInv s) : StoreInv (s.onContent content) where
  ledger := ⟨h.ledger.tables, h.ledger.horizon, h.ledger.valid, h.ledger.retained,
    h.ledger.single⟩
  catalogue := ⟨h.catalogue.dense, h.catalogue.nextVersion, h.catalogue.versionLimit,
    h.catalogue.histories, h.catalogue.historyLimit, h.catalogue.history, h.catalogue.parent,
    h.catalogue.len, h.catalogue.expired, h.catalogue.materialized, h.catalogue.root⟩
  bindings := ⟨h.bindings.history, h.bindings.unique, h.bindings.version⟩

/-- Different histories have different bindings. -/
theorem StoreInv.validateReplayedHistoryBindings (h : StoreInv s) :
    s.validateReplayedHistoryBindings = .ok () := by
  have hNodup : s.historyBindings.values.Nodup := by
    rw [KeyMap.values, List.nodup_iff_pairwise_ne, List.pairwise_map]
    have hKeys := KeyMap.nodup_keys s.historyBindings
    rw [KeyMap.keys, List.nodup_iff_pairwise_ne, List.pairwise_map] at hKeys
    refine List.Pairwise.imp_of_mem ?_ hKeys
    intro x y hx hy hNe hSame
    refine hNe (h.bindings.unique x.1 y.1 x.2 (KeyMap.mem_entries.mp hx) ?_)
    rw [hSame]
    exact KeyMap.mem_entries.mp hy
  rw [PersistentHistoryStore.validateReplayedHistoryBindings,
    failIf_neg (not_not.mpr (hNodup.filter _))]

end Content

/-! ## Replays -/

section Replays

variable (sha256 : Bytes → Digest)

/-- Over any files that hold the arena `a`, the replay of the records leads from `base` to `s`. -/
structure Replays (generation : Nat) (base : PersistentHistoryStore) (baseArena : V2AvlSequence)
    (records : List HistoryLogRecord) (s : PersistentHistoryStore) (a : V2AvlSequence) : Prop where
  grows : Grows baseArena a
  replay : ∀ payload nodes, HoldsArena payload nodes generation a →
    applyRecoveredRecords sha256 (base.onContent (boundStore payload nodes generation baseArena))
      records = .ok (s.onContent (boundStore payload nodes generation a))

variable {sha256} {generation : Nat} {base s s' : PersistentHistoryStore}
  {baseArena a b : V2AvlSequence} {records : List HistoryLogRecord}

theorem Replays.start (generation : Nat) (s : PersistentHistoryStore) (a : V2AvlSequence) :
    Replays sha256 generation s a [] s a :=
  ⟨Grows.refl a, fun _ _ _ => rfl⟩

theorem Replays.next (h : Replays sha256 generation base baseArena records s a)
    {record : HistoryLogRecord} (hLogged : Logged sha256 generation s a record s' b) :
    Replays sha256 generation base baseArena (records ++ [record]) s' b := by
  refine ⟨h.grows.trans hLogged.grows, ?_⟩
  intro payload nodes hHolds
  have hBefore := h.replay payload nodes (hHolds.of_grows hLogged.grows)
  rw [applyRecoveredRecords] at hBefore ⊢
  rw [List.foldlM_append, hBefore, ok_bind, List.foldlM_cons, hLogged.replay payload nodes hHolds,
    ok_bind]
  rfl

theorem Replays.onContent (h : Replays sha256 generation base baseArena records s a)
    (content : PhysicalContentStore) :
    Replays sha256 generation base baseArena records (s.onContent content) a :=
  ⟨h.grows, h.replay⟩

end Replays

/-! ## The sealed base of a directory -/

section Base

variable (sha256 : Bytes → Digest)

/-- The store in front of the hot log, with the generation of the log, that of the content and the
arena of the store: the genesis, or the store whose snapshot the manifest names. -/
inductive BaseIn (files : HistoryFiles) :
    Nat → Nat → PersistentHistoryStore → V2AvlSequence → Prop where
  | genesis (hManifest : files .manifest = none) : BaseIn files 0 0 .new .empty
  | snapshot {store : PersistentHistoryStore} {content : PhysicalContentStore}
      {a : V2AvlSequence} {generation walEnd : Nat} {bytes : Bytes}
      (hManifest : files .manifest =
        some (encodeHistoryManifest ⟨generation, some (.forSnapshot sha256 bytes)⟩))
      (hSnapshot : files (.snapshot generation) = some bytes)
      (hInv : StoreInv store) (hUnpoisoned : store.poisoned = false)
      (hOver : OverArena sha256 store content a) (hGeneration : generation < width 64)
      (hEnd : walEnd < width 64)
      (hEncode : encodeHistorySnapshot sha256 store generation walEnd = .ok bytes) :
      BaseIn files generation content.generation store a

variable {sha256} {fromSlice : Bytes → Option JsonValue} {files files' : HistoryFiles}
  {generation physical : Nat} {base : PersistentHistoryStore} {a : V2AvlSequence}

theorem BaseIn.frame (h : BaseIn sha256 files generation physical base a)
    (hManifest : files' .manifest = files .manifest)
    (hSnapshot : files' (.snapshot generation) = files (.snapshot generation)) :
    BaseIn sha256 files' generation physical base a := by
  cases h with
  | genesis hNone => exact .genesis (hManifest.trans hNone)
  | snapshot hSome hBytes hInv hUnpoisoned hOver hGeneration hEnd hEncode =>
    exact .snapshot (hManifest.trans hSome) (hSnapshot.trans hBytes) hInv hUnpoisoned hOver
      hGeneration hEnd hEncode

theorem encodeHistorySnapshot_length {store : PersistentHistoryStore} {walEnd : Nat} {bytes : Bytes}
    (h : encodeHistorySnapshot sha256 store generation walEnd = .ok bytes) :
    0 < bytes.length ∧ bytes.length < width 64 := by
  obtain ⟨snapshot, -, hStruct⟩ := bind_eq_ok.mp h
  simp only [encodeHistorySnapshotStruct, bind_eq_ok, failIf_eq_ok, pure_eq_ok, okOr_eq_ok,
    tryFrom_eq_some] at hStruct
  obtain ⟨_, -, _, -, body, -, totalLen, ⟨hLt, rfl⟩, rfl⟩ := hStruct
  simp only [List.length_append, length_putHeader, Vector.length_toList] at hLt ⊢
  omega

/-- The manifest and the snapshot lead back to the base. -/
theorem BaseIn.load (hReads : ReadsManifests fromSlice)
    (h : BaseIn sha256 files generation physical base a)
    (hHolds : HoldsArena (files (.payload physical)) (files (.nodes physical)) physical a) :
    ∃ manifest, readManifest fromSlice files = .ok manifest ∧
      (manifest.map HistoryManifest.generation).getD 0 = generation ∧
      loadBase sha256 files manifest = .ok (base.onContent
        (boundStore (files (.payload physical)) (files (.nodes physical)) physical a)) := by
  cases h with
  | genesis hManifest =>
    refine ⟨none, ?_, rfl, ?_⟩
    · rw [readManifest, hManifest]
      rfl
    · obtain ⟨payloadTail, hPayload⟩ := hHolds.payload
      obtain ⟨nodeTail, hNodes⟩ := hHolds.nodes
      have hOpen := hHolds.openExisting (by decide) (Nat.two_pow_pos 64)
      have hBoth : (files (.payload 0)).isSome = true ∧ (files (.nodes 0)).isSome = true := by
        rw [hPayload, hNodes]
        exact ⟨rfl, rfl⟩
      have hGenesis : importPhysicalGenesis (files (.payload 0)) (files (.nodes 0)) =
          .ok (PersistentHistoryStore.new.onContent
            (boundStore (files (.payload 0)) (files (.nodes 0)) 0 V2AvlSequence.empty)) := by
        rw [importPhysicalGenesis, if_pos hBoth]
        change (mapErr _ (PhysicalContentStore.openExisting (files (.payload 0)) (files (.nodes 0))
          0
          V2AvlSequence.empty.payload.length V2AvlSequence.empty.nodes.length) >>= _) = _
        rw [hOpen]
        rfl
      change (failIf _ _ >>= fun _ => importPhysicalGenesis (files (.payload 0)) (files (.nodes 0)))
        = _
      rw [failIf_neg (by simp), ok_bind, hGenesis]
  | @snapshot _ content _ _ walEnd bytes hManifest hSnapshot hInv hUnpoisoned hOver hGeneration hEnd
      hEncode =>
    obtain ⟨hPos, hLt⟩ := encodeHistorySnapshot_length hEncode
    have hFits : HistoryManifest.Fits ⟨generation, some (.forSnapshot sha256 bytes)⟩ := by
      refine ⟨hGeneration, ?_⟩
      intro sealedBase hSome
      cases hSome
      exact ⟨hPos, hLt⟩
    obtain ⟨snapshot, hSnap, hStruct⟩ := bind_eq_ok.mp hEncode
    have hIs := isSnapshot_of_ok hSnap
    have hCanonical := hIs.canonical hInv hOver hGeneration hEnd
    refine ⟨some ⟨generation, some (.forSnapshot sha256 bytes)⟩, ?_, rfl, ?_⟩
    · rw [readManifest, hManifest]
      dsimp only
      rw [decodeHistoryManifest_encode hReads hFits, ok_bind]
      rfl
    · have hPhysical : snapshot.physicalGeneration = content.generation := by
        rw [hIs.physicalGeneration, PersistentHistoryStore.physicalGeneration, hOver.backend]
        rfl
      change loadSealed sha256 files generation (.forSnapshot sha256 bytes) = _
      rw [loadSealed, hSnapshot, okOr_some, ok_bind, failIf_neg
        (by simp [ManifestSealed.forSnapshot]),
        ok_bind, failIf_neg (by simp [ManifestSealed.forSnapshot]), ok_bind,
        decodeHistorySnapshot_encode hCanonical hStruct, ok_bind,
        failIf_neg (not_not.mpr hIs.generation), ok_bind, hPhysical,
        hIs.importPhysicalSnapshot hInv hOver hCanonical hHolds]
      unfold PersistentHistoryStore.onContent
      rw [← hUnpoisoned]

end Base

/-! ## Recoverable directories -/

section Recoverable

variable (sha256 : Bytes → Digest)

/-- The directory recovers to the store `s` over the arena `a`: what it seals and the records of
its hot log lead there. -/
structure Recoverable (files : HistoryFiles) (generation physical : Nat)
    (s : PersistentHistoryStore) (a : V2AvlSequence) : Prop where
  inv : StoreInv s
  unpoisoned : s.poisoned = false
  physicalLimit : physical < width 64
  wellFormed : WellFormed sha256 a
  addressable : Addressable a
  tiled : Tiled a
  roots : RootsIn sha256 a s
  holds : HoldsArena (files (.payload physical)) (files (.nodes physical)) physical a
  log : ∃ base baseArena hot records tail, BaseIn sha256 files generation physical base baseArena ∧
    files (.hot generation) = some hot ∧ HoldsLog sha256 hot records tail ∧
    Replays sha256 physical base baseArena records s a

/-- Some generation of the directory recovers to the store. -/
def Recovers (files : HistoryFiles) (s : PersistentHistoryStore) (a : V2AvlSequence) : Prop :=
  ∃ generation physical, Recoverable sha256 files generation physical s a

variable {sha256} {fromSlice : Bytes → Option JsonValue} {files files' : HistoryFiles}
  {generation physical : Nat} {s : PersistentHistoryStore} {a : V2AvlSequence}

theorem Recoverable.recovers (h : Recoverable sha256 files generation physical s a) :
    Recovers sha256 files s a := ⟨generation, physical, h⟩

theorem Recoverable.onContent (h : Recoverable sha256 files generation physical s a)
    (content : PhysicalContentStore) :
    Recoverable sha256 files generation physical (s.onContent content) a where
  inv := h.inv.onContent
  unpoisoned := h.unpoisoned
  physicalLimit := h.physicalLimit
  wellFormed := h.wellFormed
  addressable := h.addressable
  tiled := h.tiled
  roots := h.roots
  holds := h.holds
  log := by
    obtain ⟨base, baseArena, hot, records, tail, hBase, hHot, hLog, hReplays⟩ := h.log
    exact ⟨base, baseArena, hot, records, tail, hBase, hHot, hLog, hReplays.onContent content⟩

/-- A directory with the same manifest, snapshot and hot log and content files that still hold the
arena. -/
theorem Recoverable.frame (h : Recoverable sha256 files generation physical s a)
    (hManifest : files' .manifest = files .manifest)
    (hSnapshot : files' (.snapshot generation) = files (.snapshot generation))
    (hHot : files' (.hot generation) = files (.hot generation))
    (hHolds : HoldsArena (files' (.payload physical)) (files' (.nodes physical)) physical a) :
    Recoverable sha256 files' generation physical s a := by
  obtain ⟨base, baseArena, hot, records, tail, hBase, hFile, hLog, hReplays⟩ := h.log
  exact { h with
    holds := hHolds
    log := ⟨base, baseArena, hot, records, tail, hBase.frame hManifest hSnapshot, hHot.trans hFile,
      hLog, hReplays⟩ }

/-- The names a recovery looks at. -/
def Authoritative (generation physical : Nat) (name : HistoryFile) : Prop :=
  name = .manifest ∨ name = .snapshot generation ∨ name = .hot generation ∨
    name = .payload physical ∨ name = .nodes physical

theorem Recoverable.of_same (h : Recoverable sha256 files generation physical s a)
    (hSame : ∀ name, Authoritative generation physical name → files' name = files name) :
    Recoverable sha256 files' generation physical s a := by
  refine h.frame (hSame _ (.inl rfl)) (hSame _ (.inr (.inl rfl))) (hSame _ (.inr (.inr (.inl rfl))))
    ?_
  rw [hSame _ (.inr (.inr (.inr (.inl rfl)))), hSame _ (.inr (.inr (.inr (.inr rfl))))]
  exact h.holds

theorem Recoverable.overArena (h : Recoverable sha256 files generation physical s a)
    {content : PhysicalContentStore} (hBackend : s.backend = .physical content)
    (hContent : content =
      boundStore (files (.payload physical)) (files (.nodes physical)) physical a) :
    OverArena sha256 s content a where
  backend := hBackend
  represents := hContent ▸ h.holds.represents
  generation := by
    rw [hContent]
    exact h.physicalLimit
  wellFormed := h.wellFormed
  addressable := h.addressable
  roots := h.roots

/-- The opening gives the store, bound to the content files. -/
theorem Recoverable.opens (h : Recoverable sha256 files generation physical s a)
    (hReads : ReadsManifests fromSlice) :
    ∃ stats, openHistoryAuthority sha256 fromSlice files = .ok ⟨s.onContent
      (boundStore (files (.payload physical)) (files (.nodes physical)) physical a), generation,
      stats⟩ := by
  obtain ⟨base, baseArena, hot, records, tail, hBase, hHot, hLog, hReplays⟩ := h.log
  obtain ⟨manifest, hManifest, hGeneration, hLoad⟩ :=
    hBase.load hReads (h.holds.of_grows hReplays.grows)
  have hReplay := hReplays.replay _ _ h.holds
  have hSuffix : loadSuffix files manifest generation = .ok hot := by
    rw [loadSuffix, hHot]
    rfl
  have hFrontiers : (s.onContent (boundStore (files (.payload physical)) (files (.nodes physical))
      physical a)).checkPhysicalFrontiers = .ok () := by
    change mapErr _ (boundStore _ _ physical a).checkFilesCoverFrontiers = _
    rw [h.holds.checkFilesCoverFrontiers h.addressable]
    rfl
  rw [openHistoryAuthority, hManifest, ok_bind]
  dsimp only
  rw [hGeneration, hLoad, ok_bind, hSuffix, ok_bind, replayHistorySuffix, hLog.decode, ok_bind]
  dsimp only
  rw [hReplay, ok_bind, h.inv.onContent.validateReplayedHistoryBindings, ok_bind]
  change ∃ stats, (Except.ok _ >>= fun store => store.checkPhysicalFrontiers >>= fun _ =>
    Except.ok (OpenedHistory.mk store generation _)) = _
  rw [ok_bind, hFrontiers, ok_bind]
  exact ⟨_, rfl⟩

end Recoverable

end TulyaStore.History
