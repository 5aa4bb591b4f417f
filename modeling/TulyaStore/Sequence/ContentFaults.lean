import TulyaStore.Sequence.ContentIo

/-!
# What failing calls leave of the content files

A store that is bound to its files keeps them through every call, whatever fails and wherever the
process stops: they hold the committed arena, with some tail behind it (`Opened`). A heal that
succeeds and a rollback that reports success leave no tail, and a commit that succeeds leaves its
delta there (`heal_opened`, `rollback_opened`, `commitAndSync_opened`). Only the creation of the
files can do harm, between its first call and the last header (`UntornCreation`).
-/

namespace TulyaStore.Sequence

open Lib DiskM V2AvlSequence ContentIo

/-! ## States of a store and its files -/

/-- The store stands at the frontier of the arena. -/
structure AtFrontier (generation : Nat) (a : V2AvlSequence) (own : OpenStore) : Prop where
  generation : own.generation = generation
  payloadEnd : own.committedPayloadEnd = a.payload.length
  nodeCount : own.committedNodeCount = a.nodes.length

/-- The store has its handles, and its files hold the arena. -/
structure Opened (generation : Nat) (a : V2AvlSequence) (own : OpenStore)
    (files : Files ContentName) : Prop where
  frontier : AtFrontier generation a own
  handles : own.payload = true ∧ own.nodes = true
  holds : HoldsArena (files .payload) (files .nodes) generation a

/-- There are no files, and nothing to hold: only generation 0 starts so. -/
def NoFiles (generation : Nat) (a : V2AvlSequence) (files : Files ContentName) : Prop :=
  generation = 0 ∧ a = empty ∧ files .payload = none ∧ files .nodes = none

/-- The store waits for its first mutation. -/
structure Unopened (generation : Nat) (a : V2AvlSequence) (own : OpenStore)
    (files : Files ContentName) : Prop where
  frontier : AtFrontier generation a own
  handles : own.payload = false ∧ own.nodes = false ∧ own.writable = false
  noFiles : NoFiles generation a files

/-- The files hold the arena and nothing else. -/
def ExactFiles (generation : Nat) (a : V2AvlSequence) (files : Files ContentName) : Prop :=
  files .payload = some (encodeHeader physicalPayloadMagic generation ++ a.payload) ∧
    files .nodes = some (encodeHeader physicalNodeMagic generation ++ nodeBytes a.nodes)

/-! ## Files -/

section Files

variable {generation : Nat} {a : V2AvlSequence} {files : Files ContentName}

theorem resized_of_le {file : Bytes} {len : Nat} (h : len ≤ file.length) :
    resized file len = file.take len := by
  rw [resized, Nat.sub_eq_zero_of_le h, List.replicate_zero, List.append_nil]

theorem HoldsArena.fileEnds (h : HoldsArena (files .payload) (files .nodes) generation a) :
    16 + a.payload.length ≤ fileEnd .payload files ∧
      16 + a.nodes.length * 72 ≤ fileEnd .nodes files := by
  obtain ⟨payloadTail, hPayload⟩ := h.payload
  obtain ⟨nodeTail, hNodes⟩ := h.nodes
  have hPayloadHeader := length_encodeHeader_payload generation
  have hNodeHeader := length_encodeHeader_node generation
  simp only [fileEnd, hPayload, hNodes, Option.getD_some, List.length_append, length_nodeBytes]
  omega

/-- Files of exactly the frontier lengths hold nothing else. -/
theorem HoldsArena.exact (h : HoldsArena (files .payload) (files .nodes) generation a)
    (hPayloadEnd : fileEnd .payload files ≤ 16 + a.payload.length)
    (hNodeEnd : fileEnd .nodes files ≤ 16 + a.nodes.length * 72) :
    ExactFiles generation a files := by
  obtain ⟨payloadTail, hPayload⟩ := h.payload
  obtain ⟨nodeTail, hNodes⟩ := h.nodes
  have hPayloadHeader := length_encodeHeader_payload generation
  have hNodeHeader := length_encodeHeader_node generation
  simp only [fileEnd, hPayload, hNodes, Option.getD_some, List.length_append,
    length_nodeBytes] at hPayloadEnd hNodeEnd
  have hPayloadTail : payloadTail = [] := List.length_eq_zero_iff.mp (by omega)
  have hNodeTail : nodeTail = [] := List.length_eq_zero_iff.mp (by omega)
  rw [hPayloadTail, List.append_nil] at hPayload
  rw [hNodeTail, List.append_nil] at hNodes
  exact ⟨hPayload, hNodes⟩

theorem ExactFiles.holds (h : ExactFiles generation a files) :
    HoldsArena (files .payload) (files .nodes) generation a :=
  ⟨⟨[], by rw [List.append_nil]; exact h.1⟩, ⟨[], by rw [List.append_nil]; exact h.2⟩⟩

theorem ExactFiles.fileEnds (h : ExactFiles generation a files) :
    fileEnd .payload files = 16 + a.payload.length ∧
      fileEnd .nodes files = 16 + a.nodes.length * 72 := by
  have hPayloadHeader := length_encodeHeader_payload generation
  have hNodeHeader := length_encodeHeader_node generation
  simp only [fileEnd, h.1, h.2, Option.getD_some, List.length_append, length_nodeBytes]
  omega

/-- The payload file is cut behind its frontier. -/
theorem HoldsArena.cutPayload (h : HoldsArena (files .payload) (files .nodes) generation a)
    {len : Nat} (hLen : 16 + a.payload.length ≤ len) (hEnd : len ≤ fileEnd .payload files) :
    HoldsArena ((FileStep.setLen .payload len).apply files .payload)
        ((FileStep.setLen .payload len).apply files .nodes) generation a ∧
      fileEnd .payload ((FileStep.setLen .payload len).apply files) = len ∧
      fileEnd .nodes ((FileStep.setLen .payload len).apply files) = fileEnd .nodes files := by
  obtain ⟨tail, hPayload⟩ := h.payload
  have hHeader := length_encodeHeader_payload generation
  simp only [fileEnd, hPayload, Option.getD_some] at hEnd
  have hAfter : (FileStep.setLen .payload len).apply files .payload =
      some (encodeHeader physicalPayloadMagic generation ++
        (a.payload ++ tail.take (len - (16 + a.payload.length)))) := by
    rw [FileStep.apply, setFile_self, hPayload, Option.map_some, resized_of_le hEnd,
      List.take_append, List.take_append, List.take_of_length_le (by omega),
      List.take_of_length_le (by omega), hHeader, Nat.sub_sub]
  have hOther : (FileStep.setLen .payload len).apply files .nodes = files .nodes :=
    setFile_of_ne (by decide)
  refine ⟨⟨⟨_, hAfter⟩, ?_⟩, ?_, ?_⟩
  · rw [hOther]
    exact h.nodes
  · simp only [List.length_append] at hEnd
    simp only [fileEnd, hAfter, Option.getD_some, List.length_append, List.length_take]
    omega
  · rw [fileEnd, hOther, fileEnd]

theorem HoldsArena.cutNodes (h : HoldsArena (files .payload) (files .nodes) generation a)
    {len : Nat} (hLen : 16 + a.nodes.length * 72 ≤ len) (hEnd : len ≤ fileEnd .nodes files) :
    HoldsArena ((FileStep.setLen .nodes len).apply files .payload)
        ((FileStep.setLen .nodes len).apply files .nodes) generation a ∧
      fileEnd .nodes ((FileStep.setLen .nodes len).apply files) = len ∧
      fileEnd .payload ((FileStep.setLen .nodes len).apply files) = fileEnd .payload files := by
  obtain ⟨tail, hNodes⟩ := h.nodes
  have hHeader := length_encodeHeader_node generation
  have hRecords : (nodeBytes a.nodes).length = a.nodes.length * 72 := length_nodeBytes
  simp only [fileEnd, hNodes, Option.getD_some] at hEnd
  have hAfter : (FileStep.setLen .nodes len).apply files .nodes =
      some (encodeHeader physicalNodeMagic generation ++
        (nodeBytes a.nodes ++ tail.take (len - (16 + a.nodes.length * 72)))) := by
    rw [FileStep.apply, setFile_self, hNodes, Option.map_some, resized_of_le hEnd,
      List.take_append, List.take_append, List.take_of_length_le (by omega),
      List.take_of_length_le (by omega), hHeader, hRecords, Nat.sub_sub]
  have hOther : (FileStep.setLen .nodes len).apply files .payload = files .payload :=
    setFile_of_ne (by decide)
  refine ⟨⟨?_, ⟨_, hAfter⟩⟩, ?_, ?_⟩
  · rw [hOther]
    exact h.payload
  · simp only [List.length_append] at hEnd
    simp only [fileEnd, hAfter, Option.getD_some, List.length_append, List.length_take]
    omega
  · rw [fileEnd, hOther, fileEnd]

/-- Bytes written at the end of a file of the store are a tail, or more of one. -/
theorem HoldsArena.writtenEnd (h : HoldsArena (files .payload) (files .nodes) generation a)
    (name : ContentName) (bytes : Bytes) :
    HoldsArena ((FileStep.write name (fileEnd name files) bytes).apply files .payload)
      ((FileStep.write name (fileEnd name files) bytes).apply files .nodes) generation a := by
  obtain ⟨payloadTail, hPayload⟩ := h.payload
  obtain ⟨nodeTail, hNodes⟩ := h.nodes
  cases name with
  | payload =>
    rw [fileEnd, hPayload, Option.getD_some, FileStep.apply_write_end hPayload]
    refine ⟨⟨payloadTail ++ bytes, ?_⟩, ⟨nodeTail, ?_⟩⟩
    · rw [setFile_self]
      simp only [List.append_assoc]
    · rw [setFile_of_ne (by decide), hNodes]
  | nodes =>
    rw [fileEnd, hNodes, Option.getD_some, FileStep.apply_write_end hNodes]
    refine ⟨⟨payloadTail, ?_⟩, ⟨nodeTail ++ bytes, ?_⟩⟩
    · rw [setFile_of_ne (by decide), hPayload]
    · rw [setFile_self]
      simp only [List.append_assoc]

end Files

/-! ## Calls of a store that has its files -/

section Calls

variable {generation : Nat} {a : V2AvlSequence} {c : Prop} {s : Mounted ContentName OpenStore}

theorem AtFrontier.expected {own : OpenStore} (h : AtFrontier generation a own)
    (hAddressable : Addressable a) :
    (own.view fun _ => none).expectedPayload = .ok (16 + a.payload.length) ∧
      (own.view fun _ => none).expectedNodes = .ok (16 + a.nodes.length * 72) := by
  unfold Addressable at hAddressable
  simp only [PhysicalContentStore.expectedPayload, PhysicalContentStore.expectedNodes,
    OpenStore.view, h.payloadEnd, h.nodeCount, physicalHeaderSize, physicalNodeRecordSize,
    v2NodeRecordSize]
  rw [checkedAdd_of_lt (by unfold width; omega), okOr_some,
    checkedMul_of_lt (by unfold width; omega), okOr_some, ok_bind,
    checkedAdd_of_lt (by unfold width; omega), okOr_some]
  exact ⟨rfl, rfl⟩

theorem AtFrontier.expectedPayload (h : AtFrontier generation a s.own)
    (hAddressable : Addressable a) {Q : Nat → Mounted ContentName OpenStore → Prop}
    {E : Halt V2AvlError → Mounted ContentName OpenStore → Prop}
    (hQ : Q (16 + a.payload.length) s) : Post ContentIo.expectedPayload s Q E := by
  refine post_get_bind ?_
  exact post_check_ok (h.expected hAddressable).1 hQ

theorem AtFrontier.expectedNodes (h : AtFrontier generation a s.own)
    (hAddressable : Addressable a) {Q : Nat → Mounted ContentName OpenStore → Prop}
    {E : Halt V2AvlError → Mounted ContentName OpenStore → Prop}
    (hQ : Q (16 + a.nodes.length * 72) s) : Post ContentIo.expectedNodes s Q E := by
  refine post_get_bind ?_
  exact post_check_ok (h.expected hAddressable).2 hQ

/-- The same store and files, with fewer answers to come. -/
def SameBut (c : Prop) (s t : Mounted ContentName OpenStore) : Prop :=
  t.own = s.own ∧ t.files = s.files ∧ Calm c t

theorem touch_post {e : V2AvlError} (hCalm : Calm c s) :
    Post (touch e) s (fun _ t => SameBut c s t) (fun _ t => SameBut c s t ∧ c) :=
  post_touch hCalm (fun _ hOwn hFiles hCalm' => ⟨hOwn, hFiles, hCalm'⟩)
    fun _ _ hOwn hFiles hC hCalm' => ⟨⟨hOwn, hFiles, hCalm'⟩, hC⟩

theorem openFile_post {e : V2AvlError} {name : ContentName} {file : Bytes} (hCalm : Calm c s)
    (hFile : s.files name = some file) :
    Post (openFile e name) s (fun _ t => SameBut c s t) (fun _ t => SameBut c s t ∧ c) := by
  refine post_bind (touch_post hCalm) ?_
  rintro _ t hSame
  refine post_get_bind ?_
  refine post_check_ok (failIf_neg ?_) hSame
  rw [hSame.2.1, hFile]
  exact Bool.false_ne_true

theorem fileLen_post {missing e : V2AvlError} {handle : OpenStore → Bool} {name : ContentName}
    (hCalm : Calm c s) (hHandle : handle s.own = true) :
    Post (fileLen missing e handle name) s
      (fun len t => len = fileEnd name s.files ∧ SameBut c s t) (fun _ t => SameBut c s t ∧ c) := by
  refine post_get_bind ?_
  rw [if_neg (by rw [hHandle]; decide)]
  refine post_bind (touch_post hCalm) ?_
  rintro _ t hSame
  refine post_get_bind ?_
  exact post_pure ⟨by rw [hSame.2.1], hSame⟩

/-- A cut of a handle that may write happens or leaves the files as they were. -/
theorem cutFile_post {e : V2AvlError} {name : ContentName} {len : Nat} (hCalm : Calm c s)
    (hWritable : s.own.writable = true) :
    Post (cutFile e name len) s
      (fun _ t => t.own = s.own ∧ t.files = (FileStep.setLen name len).apply s.files ∧ Calm c t)
      (fun _ t => SameBut c s t ∧ c) := by
  refine post_get_bind ?_
  rw [if_neg (by rw [hWritable]; decide)]
  exact post_call hCalm (fun t hOwn hFiles hCalm' => ⟨hOwn, hFiles, hCalm'⟩)
    fun _ t _ hOwn hFiles hC hCalm' => ⟨⟨hOwn, hFiles, hCalm'⟩, hC⟩

theorem ensureOpen_opened (hHandles : s.own.payload = true ∧ s.own.nodes = true)
    {Q : Unit → Mounted ContentName OpenStore → Prop}
    {E : Halt V2AvlError → Mounted ContentName OpenStore → Prop} (hQ : Q () s) :
    Post ensureOpen s Q E := by
  refine post_get_bind ?_
  rw [if_neg (by rw [hHandles.1, hHandles.2]; decide)]
  exact post_pure hQ

theorem ensureWritable_opened (h : Opened generation a s.own s.files) (hCalm : Calm c s) :
    Post ensureWritable s
      (fun _ t => Opened generation a t.own t.files ∧ t.own.writable = true ∧
        t.files = s.files ∧ Calm c t)
      (fun _ t => SameBut c s t ∧ c) := by
  obtain ⟨payloadTail, hPayload⟩ := h.holds.payload
  obtain ⟨nodeTail, hNodes⟩ := h.holds.nodes
  refine post_bind (Q := fun _ t => s = t) (ensureOpen_opened h.handles rfl) ?_
  rintro _ _ rfl
  refine post_get_bind ?_
  split
  case isFalse hWritable =>
    exact post_pure ⟨h, by simpa using hWritable, rfl, hCalm⟩
  case isTrue =>
    refine post_bind (openFile_post hCalm hPayload) ?_
    rintro _ t ⟨hOwn, hFiles, hCalm'⟩
    rw [← hFiles] at hNodes
    refine post_bind (post_mono (openFile_post hCalm' hNodes) (fun _ _ h => h) ?_) ?_
    · rintro halt u ⟨⟨hOwn', hFiles', hCalm''⟩, hC⟩
      exact ⟨⟨hOwn'.trans hOwn, hFiles'.trans hFiles, hCalm''⟩, hC⟩
    · rintro _ u ⟨hOwn', hFiles', hCalm''⟩
      have hOwnU : u.own = s.own := hOwn'.trans hOwn
      refine post_modifyOwn ⟨⟨⟨?_, ?_, ?_⟩, ⟨rfl, rfl⟩, ?_⟩, rfl, hFiles'.trans hFiles, hCalm''⟩
      · exact hOwnU ▸ h.frontier.generation
      · exact hOwnU ▸ h.frontier.payloadEnd
      · exact hOwnU ▸ h.frontier.nodeCount
      · rw [hFiles'.trans hFiles]
        exact h.holds

theorem Opened.same (h : Opened generation a s.own s.files) {t : Mounted ContentName OpenStore}
    (hSame : SameBut c s t) : Opened generation a t.own t.files := by
  rw [hSame.1, hSame.2.1]
  exact h

/-- The error half of a call that keeps the store bound to its files. -/
def StaysOpened (generation : Nat) (a : V2AvlSequence) (c : Prop)
    (t : Mounted ContentName OpenStore) : Prop :=
  Opened generation a t.own t.files ∧ c ∧ Calm c t

theorem Opened.stays (h : Opened generation a s.own s.files) {t : Mounted ContentName OpenStore}
    (hSame : SameBut c s t ∧ c) : StaysOpened generation a c t :=
  ⟨h.same hSame.1, hSame.2, hSame.1.2.2⟩

/-- A heal that succeeds leaves exactly the committed arena. -/
theorem heal_opened (h : Opened generation a s.own s.files) (hAddressable : Addressable a)
    (hCalm : Calm c s) :
    Post healForWrite s
      (fun _ t => Opened generation a t.own t.files ∧ t.own.writable = true ∧
        ExactFiles generation a t.files ∧ Calm c t)
      (fun _ t => StaysOpened generation a c t) := by
  refine post_bind (post_mono (ensureWritable_opened h hCalm) (fun _ _ h => h)
    fun _ _ ht => h.stays ht) ?_
  rintro _ t ⟨hOpened, hWritable, -, hCalm⟩
  refine post_bind (Q := fun r u => r = 16 + a.payload.length ∧ t = u)
    (hOpened.frontier.expectedPayload hAddressable ⟨rfl, rfl⟩) ?_
  rintro _ _ ⟨rfl, rfl⟩
  refine post_bind (Q := fun r u => r = 16 + a.nodes.length * 72 ∧ t = u)
    (hOpened.frontier.expectedNodes hAddressable ⟨rfl, rfl⟩) ?_
  rintro _ _ ⟨rfl, rfl⟩
  refine post_bind (post_mono (fileLen_post hCalm hOpened.handles.1) (fun _ _ h => h)
    fun _ _ hu => hOpened.stays hu) ?_
  rintro payloadLen u ⟨hPayloadLen, hSame⟩
  have hOpened := hOpened.same hSame
  have hWritable : u.own.writable = true := hSame.1 ▸ hWritable
  have hCalm := hSame.2.2
  rw [← hSame.2.1] at hPayloadLen
  refine post_bind (post_mono (fileLen_post hCalm hOpened.handles.2) (fun _ _ h => h)
    fun _ _ hv => hOpened.stays hv) ?_
  rintro nodesLen v ⟨hNodesLen, hSame⟩
  have hOpened := hOpened.same hSame
  have hWritable : v.own.writable = true := hSame.1 ▸ hWritable
  have hCalm := hSame.2.2
  rw [← hSame.2.1] at hPayloadLen hNodesLen
  obtain ⟨hPayloadEnd, hNodeEnd⟩ := hOpened.holds.fileEnds
  refine post_bind (Q := fun _ w => v = w) (post_check_ok (failIf_neg (by omega)) rfl) ?_
  rintro _ _ rfl
  -- the payload file is cut first; then both lengths are known
  have hFirst : Post (cutTail .payload payloadLen (16 + a.payload.length)) v
      (fun _ w => Opened generation a w.own w.files ∧ w.own.writable = true ∧ Calm c w ∧
        fileEnd .payload w.files = 16 + a.payload.length ∧ nodesLen = fileEnd .nodes w.files)
      (fun _ w => StaysOpened generation a c w) := by
    unfold cutTail
    split
    case isTrue hLong =>
      refine post_mono (cutFile_post hCalm hWritable) ?_
        fun _ _ hw => hOpened.stays hw
      rintro _ w ⟨hOwn, hFiles, hCalm⟩
      obtain ⟨hHolds, hEnd, hOther⟩ := hOpened.holds.cutPayload le_rfl (by omega)
      rw [hOwn, hFiles]
      exact ⟨⟨hOpened.frontier, hOpened.handles, hHolds⟩, hWritable, hCalm, hEnd,
        hNodesLen.trans hOther.symm⟩
    case isFalse hShort =>
      exact post_pure ⟨hOpened, hWritable, hCalm, by omega, hNodesLen⟩
  refine post_bind hFirst ?_
  rintro _ w ⟨hOpened, hWritable, hCalm, hPayloadExact, hNodesLen⟩
  obtain ⟨-, hNodeEnd⟩ := hOpened.holds.fileEnds
  unfold cutTail
  split
  case isTrue hLong =>
    refine post_mono (cutFile_post hCalm hWritable) ?_
      fun _ _ hx => hOpened.stays hx
    rintro _ x ⟨hOwn, hFiles, hCalm⟩
    obtain ⟨hHolds, hEnd, hOther⟩ := hOpened.holds.cutNodes le_rfl (by omega)
    rw [hOwn, hFiles]
    exact ⟨⟨hOpened.frontier, hOpened.handles, hHolds⟩, hWritable,
      hHolds.exact (by omega) (by omega), hCalm⟩
  case isFalse hShort =>
    exact post_pure ⟨hOpened, hWritable, hOpened.holds.exact (by omega) (by omega), hCalm⟩

/-- An append writes at the end of its file, or a first part of the bytes when it fails. -/
theorem appendAt_opened {e : V2AvlError} {name : ContentName} {bytes : Bytes}
    (h : Opened generation a s.own s.files) (hCalm : Calm c s) :
    Post (appendAt e name bytes) s
      (fun _ t => t.own = s.own ∧ Calm c t ∧
        t.files = (FileStep.write name (fileEnd name s.files) bytes).apply s.files)
      (fun _ t => StaysOpened generation a c t) := by
  refine post_bind (post_mono (touch_post hCalm) (fun _ _ h => h) fun _ _ ht => h.stays ht) ?_
  rintro _ t ⟨hOwn, hFiles, hCalm⟩
  refine post_call hCalm ?_ ?_
  · rintro u hOwn' hFiles' hCalm'
    rw [hFiles] at hFiles'
    exact ⟨hOwn'.trans hOwn, hCalm', hFiles'⟩
  · rintro halt u kept hOwn' hFiles' hC hCalm'
    rw [hFiles] at hFiles'
    refine ⟨?_, hC, hCalm'⟩
    rw [hOwn'.trans hOwn, hFiles']
    exact ⟨h.frontier, h.handles, h.holds.writtenEnd name _⟩

theorem appendPayloadDelta_opened (h : Opened generation a s.own s.files)
    (hAddressable : Addressable a) (hExact : ExactFiles generation a s.files) (hCalm : Calm c s)
    (bytes : Bytes) :
    Post (appendPayloadDelta bytes) s
      (fun _ t => Opened generation a t.own t.files ∧ Calm c t ∧
        t.files .payload = some (encodeHeader physicalPayloadMagic generation ++
          (a.payload ++ bytes)) ∧
        t.files .nodes = s.files .nodes)
      (fun _ t => StaysOpened generation a c t) := by
  refine post_bind (post_mono (ensureWritable_opened h hCalm) (fun _ _ h => h)
    fun _ _ ht => h.stays ht) ?_
  rintro _ t ⟨hOpened, -, hFiles, hCalm⟩
  have hExact : ExactFiles generation a t.files := hFiles ▸ hExact
  rw [← hFiles]
  split
  case isFalse hNil =>
    rw [not_not] at hNil
    exact post_pure ⟨hOpened, hCalm, by rw [hNil, List.append_nil]; exact hExact.1, rfl⟩
  case isTrue =>
    refine post_bind (Q := fun r u => r = 16 + a.payload.length ∧ t = u)
      (hOpened.frontier.expectedPayload hAddressable ⟨rfl, rfl⟩) ?_
    rintro _ _ ⟨rfl, rfl⟩
    refine post_bind (post_mono (fileLen_post hCalm hOpened.handles.1) (fun _ _ h => h)
      fun _ _ hu => hOpened.stays hu) ?_
    rintro len u ⟨hLen, hSame⟩
    have hOpened := hOpened.same hSame
    have hCalm := hSame.2.2
    rw [hExact.fileEnds.1] at hLen
    refine post_bind (Q := fun _ v => u = v) (post_check_ok (failIf_neg (by omega)) rfl) ?_
    rintro _ _ rfl
    refine post_mono (appendAt_opened hOpened hCalm) ?_ fun _ _ h => h
    rintro _ v ⟨hOwn, hCalm, hFiles⟩
    rw [hSame.2.1] at hFiles
    have hPayload := hExact.1
    have hWritten : v.files = setFile t.files .payload
        (some (encodeHeader physicalPayloadMagic generation ++ (a.payload ++ bytes))) := by
      rw [hFiles, fileEnd, hPayload, Option.getD_some, FileStep.apply_write_end hPayload,
        List.append_assoc]
    have hHolds := hExact.holds.writtenEnd .payload bytes
    rw [← hFiles] at hHolds
    refine ⟨⟨hOwn ▸ hOpened.frontier, hOwn ▸ hOpened.handles, hHolds⟩, hCalm, ?_, ?_⟩
    · rw [hWritten, setFile_self]
    · rw [hWritten, setFile_of_ne (by decide)]

theorem appendNodeDelta_opened (h : Opened generation a s.own s.files)
    (hAddressable : Addressable a)
    (hNodes : s.files .nodes =
      some (encodeHeader physicalNodeMagic generation ++ nodeBytes a.nodes))
    (hCalm : Calm c s) {bytes : Bytes} (hAligned : bytes.length % 72 = 0) :
    Post (appendNodeDelta bytes) s
      (fun _ t => Opened generation a t.own t.files ∧ Calm c t ∧
        t.files .payload = s.files .payload ∧
        t.files .nodes = some (encodeHeader physicalNodeMagic generation ++
          (nodeBytes a.nodes ++ bytes)))
      (fun _ t => StaysOpened generation a c t) := by
  unfold appendNodeDelta
  split
  case isFalse hNil =>
    rw [not_not] at hNil
    exact post_pure ⟨h, hCalm, rfl, by rw [hNil, List.append_nil]; exact hNodes⟩
  case isTrue =>
    refine post_bind (Q := fun _ v => s = v) (post_check_ok (failIf_neg (by
      simp only [physicalNodeRecordSize, v2NodeRecordSize]
      omega)) rfl) ?_
    rintro _ _ rfl
    refine post_bind (Q := fun r u => r = 16 + a.nodes.length * 72 ∧ s = u)
      (h.frontier.expectedNodes hAddressable ⟨rfl, rfl⟩) ?_
    rintro _ _ ⟨rfl, rfl⟩
    refine post_bind (post_mono (ensureWritable_opened h hCalm) (fun _ _ h => h)
      fun _ _ ht => h.stays ht) ?_
    rintro _ t ⟨hOpened, -, hFiles, hCalm⟩
    rw [← hFiles] at hNodes ⊢
    refine post_bind (post_mono (fileLen_post hCalm hOpened.handles.2) (fun _ _ h => h)
      fun _ _ hu => hOpened.stays hu) ?_
    rintro len u ⟨hLen, hSame⟩
    have hOpened' := hOpened.same hSame
    have hCalm := hSame.2.2
    have hEnd : fileEnd .nodes t.files = 16 + a.nodes.length * 72 := by
      have hHeader := length_encodeHeader_node generation
      simp only [fileEnd, hNodes, Option.getD_some, List.length_append, length_nodeBytes]
      omega
    rw [hEnd] at hLen
    refine post_bind (Q := fun _ v => u = v) (post_check_ok (failIf_neg (by omega)) rfl) ?_
    rintro _ _ rfl
    refine post_mono (appendAt_opened hOpened' hCalm) ?_ fun _ _ h => h
    rintro _ v ⟨hOwn, hCalm, hFiles⟩
    rw [hSame.2.1] at hFiles
    have hWritten : v.files = setFile t.files .nodes
        (some (encodeHeader physicalNodeMagic generation ++ (nodeBytes a.nodes ++ bytes))) := by
      rw [hFiles, fileEnd, hNodes, Option.getD_some, FileStep.apply_write_end hNodes,
        List.append_assoc]
    have hHolds := hOpened.holds.writtenEnd .nodes bytes
    rw [← hFiles] at hHolds
    refine ⟨⟨hOwn ▸ hOpened'.frontier, hOwn ▸ hOpened'.handles, hHolds⟩, hCalm, ?_, ?_⟩
    · rw [hWritten, setFile_of_ne (by decide)]
    · rw [hWritten, setFile_self]

theorem syncContent_opened (h : Opened generation a s.own s.files) (hCalm : Calm c s) :
    Post syncContent s
      (fun _ t => Opened generation a t.own t.files ∧ t.files = s.files ∧ Calm c t)
      (fun _ t => StaysOpened generation a c t) := by
  refine post_bind (post_mono (ensureWritable_opened h hCalm) (fun _ _ h => h)
    fun _ _ ht => h.stays ht) ?_
  rintro _ t ⟨hOpened, -, hFiles, hCalm⟩
  refine post_get_bind ?_
  refine post_bind (Q := fun _ v => t = v)
    (post_check_ok (failIf_neg (by rw [hOpened.handles.1]; decide)) rfl) ?_
  rintro _ _ rfl
  refine post_bind (post_mono (touch_post hCalm) (fun _ _ h => h) fun _ _ hu => hOpened.stays hu) ?_
  rintro _ u hSame
  refine post_bind (Q := fun _ v => u = v)
    (post_check_ok (failIf_neg (by rw [hOpened.handles.2]; decide)) rfl) ?_
  rintro _ _ rfl
  have hOpened' := hOpened.same hSame
  refine post_mono (touch_post hSame.2.2) ?_ fun _ _ hv => hOpened'.stays hv
  rintro _ v hSame'
  exact ⟨hOpened'.same hSame', (hSame'.2.1.trans hSame.2.1).trans hFiles, hSame'.2.2⟩

/-- A cut of any handle: it happens, or it fails, also because the handle may not write. -/
theorem cutFile_any {e : V2AvlError} {name : ContentName} {len : Nat} (hCalm : Calm c s) :
    Post (cutFile e name len) s
      (fun _ t => t.own = s.own ∧ t.files = (FileStep.setLen name len).apply s.files ∧ Calm c t)
      (fun halt t => SameBut c s t ∧ (halt = .stop → c)) := by
  cases hWritable : s.own.writable with
  | true =>
    exact post_mono (cutFile_post hCalm hWritable) (fun _ _ h => h)
      fun _ _ ht => ⟨ht.1, fun _ => ht.2⟩
  | false =>
    refine post_get_bind ?_
    rw [if_pos hWritable]
    exact post_fail ⟨⟨rfl, rfl, hCalm⟩, nofun⟩

/-- A rollback that reports success leaves exactly the committed arena; any other one leaves the
store bound to its files. -/
theorem rollback_opened (h : Opened generation a s.own s.files) (hAddressable : Addressable a)
    (hCalm : Calm c s) :
    Post rollbackToCommitted s
      (fun matched t => Opened generation a t.own t.files ∧ Calm c t ∧
        (matched = true → ExactFiles generation a t.files))
      (fun _ t => StaysOpened generation a c t) := by
  obtain ⟨hPayloadExpected, hNodesExpected⟩ := h.frontier.expected hAddressable
  obtain ⟨hPayloadEnd, -⟩ := h.holds.fileEnds
  refine post_get_bind ?_
  dsimp only
  rw [hPayloadExpected, hNodesExpected]
  refine post_get_bind ?_
  rw [if_neg (by rw [h.handles.1]; decide)]
  -- the payload file is cut, or the rollback ends here
  refine post_bind (Q := fun cut t => Opened generation a t.own t.files ∧ Calm c t ∧
      (cut = true → fileEnd .payload t.files = 16 + a.payload.length))
    (post_succeeds (post_mono (cutFile_any hCalm) ?_ fun _ _ ht => ht) ?_ ?_) ?_
  · rintro _ t ⟨hOwn, hFiles, hCalm⟩
    obtain ⟨hHolds, hEnd, -⟩ := h.holds.cutPayload le_rfl hPayloadEnd
    rw [hOwn, hFiles]
    exact ⟨⟨h.frontier, h.handles, hHolds⟩, hCalm, fun _ => hEnd⟩
  · rintro _ t ⟨hSame, -⟩
    exact ⟨h.same hSame, hSame.2.2, nofun⟩
  · rintro t ⟨hSame, hC⟩
    exact h.stays ⟨hSame, hC rfl⟩
  rintro cut t ⟨hOpened, hCalm, hCut⟩
  cases cut with
  | false => exact post_pure ⟨hOpened, hCalm, nofun⟩
  | true =>
    rw [if_pos rfl]
    refine post_get_bind ?_
    rw [if_neg (by rw [hOpened.handles.2]; decide)]
    obtain ⟨-, hNodeEnd⟩ := hOpened.holds.fileEnds
    refine post_succeeds (post_mono (cutFile_any hCalm) ?_ fun _ _ hu => hu) ?_ ?_
    · rintro _ u ⟨hOwn, hFiles, hCalm⟩
      obtain ⟨hHolds, hEnd, hOther⟩ := hOpened.holds.cutNodes le_rfl hNodeEnd
      rw [hOwn, hFiles]
      refine ⟨⟨hOpened.frontier, hOpened.handles, hHolds⟩, hCalm, fun _ => ?_⟩
      exact hHolds.exact (by rw [hOther, hCut rfl]) (by rw [hEnd])
    · rintro _ u ⟨hSame, -⟩
      exact ⟨hOpened.same hSame, hSame.2.2, nofun⟩
    · rintro u ⟨hSame, hC⟩
      exact hOpened.stays ⟨hSame, hC rfl⟩

/-- The handler of a failed append or barrier: whatever the rollback does, the error goes on. -/
theorem rollbackAndFail_opened {e : V2AvlError} {Q : Unit → Mounted ContentName OpenStore → Prop}
    (h : StaysOpened generation a c s) (hAddressable : Addressable a) :
    Post (do
      let _ ← rollbackToCommitted
      fail e) s Q (fun _ t => StaysOpened generation a c t) := by
  obtain ⟨hOpened, hC, hCalm⟩ := h
  refine post_bind (rollback_opened hOpened hAddressable hCalm) ?_
  rintro _ t ⟨hOpened, hCalm, -⟩
  exact post_fail ⟨hOpened, hC, hCalm⟩

/-- What a delta leaves when it is committed behind the arena. -/
def Committed (generation : Nat) (a : V2AvlSequence) (delta : PhysicalDelta)
    (files : Files ContentName) : Prop :=
  files .payload = some (encodeHeader physicalPayloadMagic generation ++
      (a.payload ++ delta.payload)) ∧
    files .nodes = some (encodeHeader physicalNodeMagic generation ++
      (nodeBytes a.nodes ++ delta.nodes))

/-- A commit and its barrier, from what the heal at their start does. -/
theorem commitAndSync_of_heal {E : Halt V2AvlError → Mounted ContentName OpenStore → Prop}
    (hHeal : Post healForWrite s
      (fun _ t => Opened generation a t.own t.files ∧ t.own.writable = true ∧
        ExactFiles generation a t.files ∧ Calm c t) E)
    (hE : ∀ halt t, StaysOpened generation a c t → E halt t) (hAddressable : Addressable a)
    {delta : PhysicalDelta} (hAligned : delta.nodes.length % 72 = 0) :
    Post (commitAndSync delta) s
      (fun _ t => Opened generation a t.own t.files ∧ Calm c t ∧
        Committed generation a delta t.files) E := by
  refine post_bind (Q := fun _ t => Opened generation a t.own t.files ∧ Calm c t ∧
    Committed generation a delta t.files) ?_ ?_
  · refine post_bind hHeal ?_
    rintro _ t ⟨hOpened, -, hExact, hCalm⟩
    refine post_mono (Q := fun _ t => Opened generation a t.own t.files ∧ Calm c t ∧
      Committed generation a delta t.files) ?_ (fun _ _ h => h) hE
    refine post_bind (appendPayloadDelta_opened hOpened hAddressable hExact hCalm _) ?_
    rintro _ u ⟨hOpened, hCalm, hPayload, hNodes⟩
    refine post_onError (post_mono (appendNodeDelta_opened hOpened hAddressable
      (hNodes.trans hExact.2) hCalm hAligned) ?_ fun _ _ hv => hv)
      (fun _ _ hv => rollbackAndFail_opened hv hAddressable) fun _ hv => hv
    rintro _ v ⟨hOpened, hCalm, hPayload', hNodes'⟩
    exact ⟨hOpened, hCalm, hPayload'.trans hPayload, hNodes'⟩
  · rintro _ t ⟨hOpened, hCalm, hCommitted⟩
    refine post_mono (Q := fun _ t => Opened generation a t.own t.files ∧ Calm c t ∧
      Committed generation a delta t.files) ?_ (fun _ _ h => h) hE
    refine post_onError (post_mono (syncContent_opened hOpened hCalm) ?_ fun _ _ hu => hu)
      (fun _ _ hu => rollbackAndFail_opened hu hAddressable) fun _ hu => hu
    rintro _ u ⟨hOpened, hFiles, hCalm⟩
    exact ⟨hOpened, hCalm, hFiles ▸ hCommitted⟩

end Calls

/-! ## Creating the files -/

/-- The creation of the files does no harm by the script: its first call does not end well, or the
files are complete before anything happens, and no sync of them fails. -/
def UntornCreation (answers : List Answer) : Prop :=
  answerAt answers 0 ≠ .done ∨
    ((∀ i < 4, answerAt answers i = .done) ∧ ∀ i < 6, (answerAt answers i).failing = false)

instance (answers : List Answer) : Decidable (UntornCreation answers) :=
  inferInstanceAs (Decidable (_ ∨ _))

/-- What a directory can hold for an arena: its files, or none when there is nothing to hold. -/
def Kept (generation : Nat) (a : V2AvlSequence) (files : Files ContentName) : Prop :=
  HoldsArena (files .payload) (files .nodes) generation a ∨ NoFiles generation a files

/-- What is left when a call of a store that is bound to its files, or to none, goes wrong. -/
def Survives (generation : Nat) (a : V2AvlSequence) (halt : Halt V2AvlError)
    (t : Mounted ContentName OpenStore) : Prop :=
  match halt with
  | .error _ => Opened generation a t.own t.files ∨ Unopened generation a t.own t.files
  | .stop => Kept generation a t.files

section Creation

variable {generation : Nat} {a : V2AvlSequence} {c : Prop} {s : Mounted ContentName OpenStore}

theorem StaysOpened.survives {halt : Halt V2AvlError} (h : StaysOpened generation a c s) :
    Survives generation a halt s := by
  cases halt with
  | error e => exact Or.inl h.1
  | stop => exact Or.inl h.1.holds

/-- What the four calls before the syncs make of a directory without the files. -/
theorem exactFiles_created (generation : Nat) (files : Files ContentName) :
    ExactFiles generation empty
      ((FileStep.write .nodes 0 (encodeHeader physicalNodeMagic generation)).apply
        ((FileStep.write .payload 0 (encodeHeader physicalPayloadMagic generation)).apply
          (setFile (setFile files .payload (some [])) .nodes (some [])))) := by
  have hWritten : ∀ bytes : Bytes, writtenAt [] 0 bytes = bytes := fun bytes => writtenAt_length [] bytes
  constructor
  · simp [FileStep.apply, setFile, hWritten, empty]
  · simp [FileStep.apply, setFile, hWritten, empty, nodeBytes]

/-- The two syncs of a creation, when they do not fail. -/
theorem syncs_untorn (hCalm : Calm c s)
    (hTwo : ∀ i < 2, (answerAt s.answers i).failing = false) :
    Post (do
      syncAll createFailed
      syncAll createFailed) s
      (fun _ t => SameBut c s t) (fun halt t => c ∧ halt = .stop ∧ t.files = s.files) := by
  refine post_bind (Q := fun _ t => t = ⟨s.own, s.files, s.answers.tail⟩)
    (post_call_stop (hTwo 0 (by decide)) hCalm rfl ?_) ?_
  · rintro t kept - hFiles hC
    exact ⟨hC, rfl, hFiles⟩
  · rintro _ _ rfl
    refine post_call_stop (by rw [answerAt_tail]; exact hTwo 1 (by decide)) hCalm.tail
      ⟨rfl, rfl, hCalm.tail.tail⟩ ?_
    rintro t kept - hFiles hC
    exact ⟨hC, rfl, hFiles⟩

theorem createFiles_untorn (hNone : s.files .payload = none ∧ s.files .nodes = none)
    (hUntorn : UntornCreation s.answers) (hCalm : Calm c s) :
    Post (createFiles generation) s
      (fun _ t => t.own = s.own ∧ ExactFiles generation empty t.files ∧ Calm c t)
      (fun halt t => c ∧ Calm c t ∧ match halt with
        | .error _ => t.own = s.own ∧ t.files = s.files
        | .stop => t.files = s.files ∨ ExactFiles generation empty t.files) := by
  obtain ⟨own, files, answers⟩ := s
  obtain ⟨hPayload, hNodes⟩ := hNone
  dsimp only at hPayload hNodes hUntorn
  rcases hUntorn with hFirst | ⟨hFour, hSix⟩
  · refine post_bind (Q := fun _ _ => False) (post_bind (Q := fun _ _ => False)
      (post_call_bad hFirst hCalm ?_) fun _ _ h => h.elim) fun _ _ h => h.elim
    rintro halt t kept hOwn hFiles hC hCalm'
    refine ⟨hC, hCalm', ?_⟩
    cases halt with
    | error e => exact ⟨hOwn, hFiles⟩
    | stop => exact Or.inl hFiles
  · have hAt : ∀ i < 4, answerAt answers i = .done := hFour
    have hNodes' : setFile files ContentName.payload (some []) .nodes = none := by
      rw [setFile_of_ne (by decide)]
      exact hNodes
    refine post_bind (Q := fun _ t => t = ⟨own, setFile files .payload (some []), answers.tail⟩)
      (post_createNew_done (hAt 0 (by decide)) hPayload rfl) ?_
    rintro _ _ rfl
    refine post_bind (Q := fun _ t => t = ⟨own, setFile (setFile files .payload (some []))
        .nodes (some []), answers.tail.tail⟩)
      (post_createNew_done (by rw [answerAt_tail]; exact hAt 1 (by decide))
        hNodes' rfl) ?_
    rintro _ _ rfl
    have hExact := exactFiles_created generation files
    refine post_bind (post_call_done (Q := fun _ t => t = ⟨own, _, answers.tail.tail.tail⟩)
      (by rw [answerAt_tail, answerAt_tail]; exact hAt 2 (by decide)) rfl) ?_
    rintro _ _ rfl
    refine post_bind (post_call_done (Q := fun _ t => t = ⟨own, _, answers.tail.tail.tail.tail⟩)
      (by rw [answerAt_tail, answerAt_tail, answerAt_tail]; exact hAt 3 (by decide)) rfl) ?_
    rintro _ _ rfl
    -- the files are complete, and the two syncs do not fail
    refine post_mono (syncs_untorn (fun hLeft => hCalm ?_) (fun i hi => ?_)) ?_ ?_
    · rintro rfl
      exact hLeft rfl
    · simpa only [answerAt_tail] using hSix (i + 4) (by omega)
    · rintro _ t ⟨hOwn, hFiles, hCalm⟩
      rw [hFiles]
      exact ⟨hOwn, hExact, hCalm⟩
    · rintro halt t ⟨hC, hStop, hFiles⟩
      rw [hStop, hFiles]
      exact ⟨hC, fun _ => hC, Or.inr hExact⟩

/-- A creation that succeeds leaves complete files, whatever the script. -/
theorem createFiles_ok (hNone : s.files .payload = none ∧ s.files .nodes = none) :
    Post (createFiles generation) s
      (fun _ t => t.own = s.own ∧ ExactFiles generation empty t.files) (fun _ _ => True) := by
  have hCalm : ∀ t : Mounted ContentName OpenStore, Calm True t := fun _ _ => trivial
  have hCreate : ∀ {name} {s : Mounted ContentName OpenStore}, s.files name = none →
      Post (createNew createFailed name) s
        (fun _ t => t.own = s.own ∧ t.files = setFile s.files name (some []))
        (fun _ _ => True) := by
    intro name s hName
    refine post_bind (Q := fun _ t => t.own = s.own ∧ t.files = s.files)
      (post_touch (hCalm s) (fun t hOwn hFiles _ => ⟨hOwn, hFiles⟩) fun _ _ _ _ _ _ => trivial) ?_
    rintro _ t ⟨hOwn, hFiles⟩
    refine post_get_bind ?_
    rw [if_neg (by rw [hFiles, hName]; exact Bool.false_ne_true)]
    refine post_modify ⟨hOwn, ?_⟩
    rw [FileStep.apply, hFiles, hName, Option.getD_none]
  obtain ⟨hPayload, hNodes⟩ := hNone
  refine post_bind (hCreate hPayload) ?_
  rintro _ t ⟨hOwn, hFiles⟩
  refine post_bind (hCreate (by rw [hFiles, setFile_of_ne (by decide)]; exact hNodes)) ?_
  rintro _ u ⟨hOwn', hFiles'⟩
  rw [hFiles] at hFiles'
  have hExact := exactFiles_created generation s.files
  rw [← hFiles'] at hExact
  refine post_bind (Q := fun _ v => v.own = u.own ∧ v.files = _)
    (post_call (hCalm u) (fun v hOwn hFiles _ => ⟨hOwn, hFiles⟩) fun _ _ _ _ _ _ _ => trivial) ?_
  rintro _ v ⟨hOwnV, hFilesV⟩
  rw [← hFilesV] at hExact
  refine post_bind (Q := fun _ w => w.own = v.own ∧ w.files = _)
    (post_call (hCalm v) (fun w hOwn hFiles _ => ⟨hOwn, hFiles⟩) fun _ _ _ _ _ _ _ => trivial) ?_
  rintro _ w ⟨hOwnW, hFilesW⟩
  rw [← hFilesW] at hExact
  have hOwnAll : w.own = s.own := hOwnW.trans (hOwnV.trans (hOwn'.trans hOwn))
  refine post_bind (Q := fun _ x => x.own = w.own ∧ x.files = w.files)
    (post_touch (hCalm w) (fun x hOwn hFiles _ => ⟨hOwn, hFiles⟩) fun _ _ _ _ _ _ => trivial) ?_
  rintro _ x ⟨hOwnX, hFilesX⟩
  refine post_touch (hCalm x) ?_ fun _ _ _ _ _ _ => trivial
  rintro y hOwnY hFilesY -
  rw [hFilesY, hFilesX]
  exact ⟨hOwnY.trans (hOwnX.trans hOwnAll), hExact⟩

/-- A store that has just become writable is left alone when it is made so again. -/
theorem ensureWritable_idle {α : Type} {f : Unit → ContentM α}
    {Q : α → Mounted ContentName OpenStore → Prop}
    {E : Halt V2AvlError → Mounted ContentName OpenStore → Prop}
    (hHandles : s.own.payload = true ∧ s.own.nodes = true) (hWritable : s.own.writable = true)
    (h : Post (ensureWritable >>= f) s Q E) : Post (f ()) s Q E := by
  have hIdle : ensureWritable s = .ok () s := by
    have hNo : ¬ (s.own.payload = false ∨ s.own.nodes = false) := by
      rw [hHandles.1, hHandles.2]
      decide
    obtain ⟨⟨generation, payload, nodes, writable, payloadEnd, nodeCount⟩, files, answers⟩ := s
    obtain ⟨rfl, rfl⟩ := hHandles
    cases hWritable
    rfl
  have hRun : (ensureWritable >>= f) s = f () s := by
    change EStateM.bind ensureWritable f s = _
    rw [EStateM.bind, hIdle]
  unfold Post at h ⊢
  rwa [hRun] at h

/-- The first mutation of a store creates its files; the rest follows from what that does. -/
theorem ensureWritable_of_creation {E : Halt V2AvlError → Mounted ContentName OpenStore → Prop}
    (h : Unopened generation a s.own s.files)
    (hCreate : Post (createFiles generation) s
      (fun _ t => t.own = s.own ∧ ExactFiles generation empty t.files ∧ Calm c t) E) :
    Post ensureWritable s
      (fun _ t => Opened generation a t.own t.files ∧ t.own.writable = true ∧ Calm c t) E := by
  obtain ⟨-, hEmpty, hPayload, hNodes⟩ := h.noFiles
  have hEnd : s.own.committedPayloadEnd = 0 := by rw [h.frontier.payloadEnd, hEmpty]; rfl
  have hCount : s.own.committedNodeCount = 0 := by rw [h.frontier.nodeCount, hEmpty]; rfl
  refine post_bind (Q := fun _ t => Opened generation a t.own t.files ∧ t.own.writable = true ∧
    Calm c t) ?_ ?_
  · refine post_get_bind ?_
    rw [if_pos (Or.inl h.handles.1)]
    refine post_bind (Q := fun _ t => s = t)
      (post_check_ok (failIf_neg (by rw [hEnd, hCount]; decide)) rfl) ?_
    rintro _ _ rfl
    rw [h.frontier.generation]
    refine post_bind hCreate ?_
    rintro _ t ⟨hOwn, hExact, hCalm⟩
    rw [← hEmpty] at hExact
    refine post_modifyOwn ⟨⟨⟨?_, ?_, ?_⟩, ⟨rfl, rfl⟩, hExact.holds⟩, rfl, hCalm⟩
    · exact hOwn ▸ h.frontier.generation
    · exact hOwn ▸ h.frontier.payloadEnd
    · exact hOwn ▸ h.frontier.nodeCount
  · rintro _ t ⟨hOpened, hWritable, hCalm⟩
    refine post_get_bind ?_
    rw [if_neg (by rw [hWritable]; decide)]
    exact post_pure ⟨hOpened, hWritable, hCalm⟩

theorem ensureWritable_unopened (h : Unopened generation a s.own s.files)
    (hUntorn : UntornCreation s.answers) (hCalm : Calm c s) :
    Post ensureWritable s
      (fun _ t => Opened generation a t.own t.files ∧ t.own.writable = true ∧ Calm c t)
      (fun halt t => Survives generation a halt t ∧ c) := by
  obtain ⟨-, hEmpty, hPayload, hNodes⟩ := h.noFiles
  refine ensureWritable_of_creation h (post_mono (createFiles_untorn ⟨hPayload, hNodes⟩ hUntorn
    hCalm) (fun _ _ ht => ht) ?_)
  rintro halt t ⟨hC, -, hLeft⟩
  refine ⟨?_, hC⟩
  cases halt with
  | error e =>
    obtain ⟨hOwn, hFiles⟩ := hLeft
    refine Or.inr ?_
    rw [hOwn, hFiles]
    exact h
  | stop =>
    rcases hLeft with hFiles | hExact
    · refine Or.inr ?_
      rw [hFiles]
      exact h.noFiles
    · rw [← hEmpty] at hExact
      exact Or.inl hExact.holds

/-- A store bound to its files, or to none. -/
def Bound (generation : Nat) (a : V2AvlSequence) (own : OpenStore) (files : Files ContentName) :
    Prop :=
  Opened generation a own files ∨ Unopened generation a own files

/-- The creation that a mutation of this store starts with, if any, does no harm. -/
def SafeScript (own : OpenStore) (answers : List Answer) : Prop :=
  own.payload = false → UntornCreation answers

instance (own : OpenStore) (answers : List Answer) : Decidable (SafeScript own answers) :=
  inferInstanceAs (Decidable (_ → _))

theorem heal_bound (h : Bound generation a s.own s.files) (hAddressable : Addressable a)
    (hSafe : SafeScript s.own s.answers) (hCalm : Calm c s) :
    Post healForWrite s
      (fun _ t => Opened generation a t.own t.files ∧ t.own.writable = true ∧
        ExactFiles generation a t.files ∧ Calm c t)
      (fun halt t => Survives generation a halt t ∧ c) := by
  rcases h with hOpened | hUnopened
  · exact post_mono (heal_opened hOpened hAddressable hCalm) (fun _ _ ht => ht)
      fun _ _ ht => ⟨ht.survives, ht.2.1⟩
  · refine post_bind (ensureWritable_unopened hUnopened (hSafe hUnopened.handles.1) hCalm) ?_
    rintro _ t ⟨hOpened, hWritable, hCalm⟩
    refine ensureWritable_idle (f := fun _ => _) hOpened.handles hWritable ?_
    exact post_mono (heal_opened hOpened hAddressable hCalm) (fun _ _ ht => ht)
      fun _ _ ht => ⟨ht.survives, ht.2.1⟩

/-- A heal that succeeds leaves exactly the committed arena, whatever the script. -/
theorem heal_exact (h : Bound generation a s.own s.files) (hAddressable : Addressable a) :
    Post healForWrite s (fun _ t => ExactFiles generation a t.files) (fun _ _ => True) := by
  have hCalm : ∀ t : Mounted ContentName OpenStore, Calm True t := fun _ _ => trivial
  have hOpenedHeal : ∀ {t : Mounted ContentName OpenStore}, Opened generation a t.own t.files →
      Post healForWrite t (fun _ u => ExactFiles generation a u.files) (fun _ _ => True) :=
    fun hOpened => post_mono (heal_opened hOpened hAddressable (hCalm _)) (fun _ _ hu => hu.2.2.1)
      fun _ _ _ => trivial
  rcases h with hOpened | hUnopened
  · exact hOpenedHeal hOpened
  · obtain ⟨-, -, hPayload, hNodes⟩ := hUnopened.noFiles
    refine post_bind (ensureWritable_of_creation hUnopened (post_mono
      (createFiles_ok ⟨hPayload, hNodes⟩) (fun _ t ht => ⟨ht.1, ht.2, hCalm t⟩)
      fun _ _ _ => trivial)) ?_
    rintro _ t ⟨hOpened, hWritable, -⟩
    exact ensureWritable_idle (f := fun _ => _) hOpened.handles hWritable (hOpenedHeal hOpened)

theorem commitAndSync_bound (h : Bound generation a s.own s.files) (hAddressable : Addressable a)
    (hSafe : SafeScript s.own s.answers) (hCalm : Calm c s) {delta : PhysicalDelta}
    (hAligned : delta.nodes.length % 72 = 0) :
    Post (commitAndSync delta) s
      (fun _ t => Opened generation a t.own t.files ∧ Calm c t ∧
        Committed generation a delta t.files)
      (fun halt t => Survives generation a halt t ∧ c) :=
  commitAndSync_of_heal (heal_bound h hAddressable hSafe hCalm)
    (fun _ _ ht => ⟨ht.survives, ht.2.1⟩) hAddressable hAligned

/-- A rollback of a store without files has nothing to do. -/
theorem rollback_bound (h : Bound generation a s.own s.files) (hAddressable : Addressable a)
    (hCalm : Calm c s) :
    Post rollbackToCommitted s
      (fun matched t => Bound generation a t.own t.files ∧
        (matched = true → ExactFiles generation a t.files ∨ NoFiles generation a t.files))
      (fun halt t => Survives generation a halt t) := by
  rcases h with hOpened | hUnopened
  · refine post_mono (rollback_opened hOpened hAddressable hCalm) ?_ fun _ _ ht => ht.survives
    rintro matched t ⟨hOpened, -, hExact⟩
    exact ⟨Or.inl hOpened, fun hMatched => Or.inl (hExact hMatched)⟩
  · obtain ⟨hPayloadLen, hNodesLen⟩ := hUnopened.frontier.expected hAddressable
    refine post_get_bind ?_
    dsimp only
    rw [hPayloadLen, hNodesLen]
    refine post_get_bind ?_
    rw [if_pos hUnopened.handles.1]
    exact post_pure ⟨Or.inr hUnopened, fun _ => Or.inr hUnopened.noFiles⟩

end Creation

end TulyaStore.Sequence
