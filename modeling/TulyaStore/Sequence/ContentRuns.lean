import TulyaStore.Sequence.ContentFaults

/-!
# Runs of a content store with failures and crashes

A run of the durable content store from any committed frontier on: splices that are committed and
adopted, or left behind the frontier, heals, rollbacks, crashes and openings, with any script of
answers for the calls of each. What is committed is the arena of the start and what the adopted
splices build on it in memory.

In every reached state the tails behind the frontier do no harm (`TailsHarmless`), as long as no
creation of the files is torn (`tails_harmless_of_untorn`). A torn creation is never repaired:
the files of a generation are created only where neither exists (`not_tails_harmless`).
-/

namespace TulyaStore.Sequence

open Lib DiskM V2AvlSequence ContentIo

/-! ## Opening -/

/-- The opening at the frontier of the arena. Generation 0 without commits is opened without
authority, as long as nothing is committed to it. -/
def openAt (generation : Nat) (a : V2AvlSequence) (writable : Bool) : OpenM OpenStore :=
  if generation = 0 ∧ a = empty then importPhysicalGenesis
  else openExisting generation a.payload.length a.nodes.length writable

section Opening

variable {generation : Nat} {a : V2AvlSequence} {c : Prop} {s : Mounted ContentName Unit}

/-- The files are as before, with fewer answers to come. -/
def Unchanged (c : Prop) (s t : Mounted ContentName Unit) : Prop :=
  t.files = s.files ∧ Calm c t

variable {t : Mounted ContentName Unit}

theorem touch_unchanged {e : V2AvlError} (h : Unchanged c s t) :
    Post (touch e) t (fun _ u => Unchanged c s u) (fun _ u => Unchanged c s u ∧ c) :=
  post_touch h.2 (fun _ _ hFiles hCalm => ⟨hFiles.trans h.1, hCalm⟩)
    fun _ _ _ hFiles hC hCalm => ⟨⟨hFiles.trans h.1, hCalm⟩, hC⟩

theorem openForRead_unchanged {name : ContentName} {file : Bytes} (h : Unchanged c s t)
    (hFile : s.files name = some file) :
    Post (openForRead name) t (fun r u => r = file ∧ Unchanged c s u)
      (fun _ u => Unchanged c s u ∧ c) := by
  refine post_bind (touch_unchanged h) ?_
  rintro _ u hSame
  refine post_get_bind ?_
  refine post_check_ok ?_ ⟨rfl, hSame⟩
  rw [hSame.1, hFile, okOr_some]

theorem readHeader_unchanged {header rest : Bytes} (h : Unchanged c s t)
    (hLen : header.length = 16) :
    Post (readHeader (header ++ rest)) t (fun r u => r = header ∧ Unchanged c s u)
      (fun _ u => Unchanged c s u ∧ c) := by
  refine post_bind (touch_unchanged h) ?_
  rintro _ u hSame
  refine post_check_ok ?_ ⟨rfl, hSame⟩
  rw [readExactAt_header hLen, okOr_some]

theorem checkHeader_encode {magic : Bytes} (hMagic : magic.length = 4)
    (hGeneration : generation < width 64) :
    checkHeader magic (encodeHeader magic generation) generation = .ok () := by
  rw [checkHeader, decodeHeader_encode hMagic hGeneration, ok_bind, failIf_neg (by simp)]

theorem AtFrontier.checkLengths {own : OpenStore} (h : AtFrontier generation a own)
    (hAddressable : Addressable a) (payloadTail nodeTail : Bytes) :
    (own.view fun _ => none).checkLengths
      (encodeHeader physicalPayloadMagic generation ++ (a.payload ++ payloadTail))
      (encodeHeader physicalNodeMagic generation ++ (nodeBytes a.nodes ++ nodeTail)) = .ok () := by
  obtain ⟨hPayloadExpected, hNodesExpected⟩ := h.expected hAddressable
  have hPayloadHeader := length_encodeHeader_payload generation
  have hNodeHeader := length_encodeHeader_node generation
  rw [PhysicalContentStore.checkLengths, hPayloadExpected, ok_bind, hNodesExpected, ok_bind,
    failIf_neg]
  simp only [List.length_append, length_nodeBytes, hPayloadHeader, hNodeHeader]
  omega

/-- Files that hold the arena open at its frontier, unless a call fails. -/
theorem openExisting_unchanged
    (h : HoldsArena (s.files .payload) (s.files .nodes) generation a)
    (hAddressable : Addressable a) (hGeneration : generation < width 64) (hT : Unchanged c s t)
    (writable : Bool) :
    Post (openExisting generation a.payload.length a.nodes.length writable) t
      (fun store u => Opened generation a store s.files ∧ Unchanged c s u)
      (fun _ u => Unchanged c s u ∧ c) := by
  obtain ⟨payloadTail, hPayload⟩ := h.payload
  obtain ⟨nodeTail, hNodes⟩ := h.nodes
  have hPayloadMagic : physicalPayloadMagic.length = 4 := by decide
  have hNodeMagic : physicalNodeMagic.length = 4 := by decide
  have hFrontier : AtFrontier generation a
      ⟨generation, true, true, writable, a.payload.length, a.nodes.length⟩ := ⟨rfl, rfl, rfl⟩
  have hLengths := hFrontier.checkLengths hAddressable payloadTail nodeTail
  refine post_bind (openForRead_unchanged hT hPayload) ?_
  rintro payload u ⟨hPayloadFile, hU⟩
  refine post_bind (openForRead_unchanged hU hNodes) ?_
  rintro nodes v ⟨hNodesFile, hV⟩
  rw [hPayloadFile, hNodesFile]
  have hReadPayload := @readHeader_unchanged c s v
    (encodeHeader physicalPayloadMagic generation) (a.payload ++ payloadTail) hV
    (length_encodeHeader_payload generation)
  refine post_bind hReadPayload ?_
  rintro payloadHeader w ⟨hPayloadHeader, hW⟩
  have hReadNodes := @readHeader_unchanged c s w
    (encodeHeader physicalNodeMagic generation) (nodeBytes a.nodes ++ nodeTail) hW
    (length_encodeHeader_node generation)
  refine post_bind hReadNodes ?_
  rintro nodesHeader x ⟨hNodesHeader, hX⟩
  refine post_bind (Q := fun _ y => Unchanged c s y)
    (post_check_ok (by rw [hPayloadHeader, checkHeader_encode hPayloadMagic hGeneration]) hX) ?_
  rintro _ y hY
  refine post_bind (Q := fun _ z => Unchanged c s z)
    (post_check_ok (by rw [hNodesHeader, checkHeader_encode hNodeMagic hGeneration]) hY) ?_
  rintro _ z hZ
  refine post_bind (touch_unchanged hZ) ?_
  rintro _ x hX
  refine post_bind (touch_unchanged hX) ?_
  rintro _ y hY
  refine post_bind (Q := fun _ z => Unchanged c s z) (post_check_ok hLengths hY) ?_
  rintro _ z hZ
  exact post_pure ⟨⟨hFrontier, ⟨rfl, rfl⟩, h⟩, hZ⟩

/-- The existence checks of a genesis opening do not fail. -/
def SafeOpen (generation : Nat) (a : V2AvlSequence) (answers : List Answer) : Prop :=
  generation = 0 ∧ a = empty → ∀ i < 2, (answerAt answers i).failing = false

instance (answers : List Answer) : Decidable (SafeOpen generation a answers) :=
  inferInstanceAs (Decidable (_ → _))

/-- An existence check that does not fail. -/
theorem isFile_unchanged {name : ContentName} (h : Unchanged c s t)
    (hAnswer : (answerAt t.answers 0).failing = false) :
    Post (isFile name) t
      (fun r u => r = (s.files name).isSome ∧ Unchanged c s u ∧ u.answers = t.answers.tail)
      (fun _ u => Unchanged c s u ∧ c) := by
  refine post_bind (Q := fun r u => r = true ∧ Unchanged c s u ∧ u.answers = t.answers.tail)
    (post_succeeds (E := fun halt u => halt = .stop ∧ Unchanged c s u ∧ c)
      (post_call_stop hAnswer h.2 ⟨rfl, ⟨h.1, h.2.tail⟩, rfl⟩ ?_) nofun fun _ hu => hu.2) ?_
  · rintro u kept - hFiles hC
    exact ⟨rfl, ⟨hFiles.trans h.1, fun _ => hC⟩, hC⟩
  · rintro _ u ⟨rfl, hSame, hTail⟩
    refine post_get_bind (post_pure ⟨?_, hSame, hTail⟩)
    rw [Bool.true_and, hSame.1]

theorem openAt_post (h : Kept generation a s.files) (hAddressable : Addressable a)
    (hGeneration : generation < width 64)
    (hSafe : SafeOpen generation a s.answers) (hCalm : Calm c s) (writable : Bool) :
    Post (openAt generation a writable) s
      (fun store u => Bound generation a store s.files ∧ u.files = s.files)
      (fun _ u => u.files = s.files ∧ c) := by
  have hStart : Unchanged c s s := ⟨rfl, hCalm⟩
  unfold openAt
  split
  case isFalse hNot =>
    rcases h with hHolds | ⟨hZero, hEmpty, -⟩
    · exact post_mono (openExisting_unchanged hHolds hAddressable hGeneration hStart writable)
        (fun _ _ hu => ⟨Or.inl hu.1, hu.2.1⟩) fun _ _ hu => ⟨hu.1.1, hu.2⟩
    · exact absurd ⟨hZero, hEmpty⟩ hNot
  case isTrue hGenesis =>
    obtain ⟨rfl, rfl⟩ := hGenesis
    have hAnswers := hSafe ⟨rfl, rfl⟩
    refine post_bind (post_mono (isFile_unchanged hStart (hAnswers 0 (by decide)))
      (fun _ _ hu => hu) fun _ _ hu => ⟨hu.1.1, hu.2⟩) ?_
    rintro present u ⟨hPresent, hU, hTail⟩
    rcases h with hHolds | ⟨-, -, hPayload, hNodes⟩
    · obtain ⟨payloadTail, hPayload⟩ := hHolds.payload
      obtain ⟨nodeTail, hNodes⟩ := hHolds.nodes
      have hPresent : present = true := by rw [hPresent, hPayload, Option.isSome_some]
      rw [if_pos hPresent]
      refine post_bind (post_mono (isFile_unchanged hU
        (by rw [hTail, answerAt_tail]; exact hAnswers 1 (by decide)))
        (fun _ _ hv => hv) fun _ _ hv => ⟨hv.1.1, hv.2⟩) ?_
      rintro present v ⟨hPresent, hV, -⟩
      have hPresent : present = true := by rw [hPresent, hNodes, Option.isSome_some]
      rw [if_pos hPresent]
      exact post_mono (openExisting_unchanged hHolds hAddressable hGeneration hV false)
        (fun _ _ hw => ⟨Or.inl hw.1, hw.2.1⟩) fun _ _ hw => ⟨hw.1.1, hw.2⟩
    · rw [hPayload] at hPresent
      rw [if_neg (by rw [hPresent]; exact Bool.false_ne_true)]
      exact post_pure ⟨Or.inr ⟨⟨rfl, rfl, rfl⟩, ⟨rfl, rfl, rfl⟩, rfl, rfl, hPayload, hNodes⟩, hU.1⟩

end Opening

/-! ## Runs -/

/-- A store on its files, and the arena it stands for. After a crash there is no store until the
files are opened again. -/
structure ContentRun where
  generation : Nat
  inner : V2AvlSequence
  files : Files ContentName
  store : Option OpenStore

inductive ContentEvent where
  /-- A splice is prepared, committed with its barrier, and adopted or left behind the frontier. -/
  | splice (call : SeamCall) (answers : List Answer) (adopted : Bool)
  | heal (answers : List Answer)
  | rollback (answers : List Answer)
  /-- The process ends. Behind the frontier, up to which the files are synced, anything may be left. -/
  | crash (payloadTail nodeTail : Bytes)
  | reopen (writable : Bool) (answers : List Answer)

section Runs

variable (sha256 : Bytes → Digest)

/-- The arena after a call in memory. -/
def arenaAfter (call : SeamCall) (inner : V2AvlSequence) : V2AvlSequence :=
  match memoryCall sha256 call inner with
  | .ok _ b => b
  | .error _ b => b

/-- What a call that went wrong leaves: after an error the store lives on. -/
def afterHalt (run : ContentRun) (halt : Halt V2AvlError) (t : Mounted ContentName OpenStore) :
    ContentRun :=
  match halt with
  | .error _ => { run with files := t.files, store := some t.own }
  | .stop => { run with files := t.files, store := none }

/-- The outcome of a computation of the store. -/
def settle {α : Type} (run : ContentRun) (x : ContentM α) (store : OpenStore)
    (answers : List Answer) (onOk : Mounted ContentName OpenStore → ContentRun) : ContentRun :=
  match x ⟨store, run.files, answers⟩ with
  | .ok _ t => onOk t
  | .error halt t => afterHalt run halt t

/-- A directory whose files are cut at the frontier, with something else behind it. -/
def crashedFiles (inner : V2AvlSequence) (files : Files ContentName)
    (payloadTail nodeTail : Bytes) : Files ContentName
  | .payload => (files .payload).map fun file =>
      file.take (physicalHeaderSize + inner.payload.length) ++ payloadTail
  | .nodes => (files .nodes).map fun file =>
      file.take (physicalHeaderSize + inner.nodes.length * physicalNodeRecordSize) ++ nodeTail

def contentStep (run : ContentRun) (event : ContentEvent) : ContentRun :=
  match event, run.store with
  | .splice call answers adopted, some store =>
    match prepareCall sha256 (store.view run.files) call with
    | .error _ => run
    | .ok delta =>
      settle run (commitAndSync delta) store answers fun t =>
        if adopted then { run with
          inner := arenaAfter sha256 call run.inner
          files := t.files
          store := some (ContentIo.adoptPhysicalDelta delta t.own) }
        else { run with files := t.files, store := some t.own }
  | .heal answers, some store =>
    settle run healForWrite store answers fun t =>
      { run with files := t.files, store := some t.own }
  | .rollback answers, some store =>
    settle run rollbackToCommitted store answers fun t =>
      { run with files := t.files, store := some t.own }
  | .crash payloadTail nodeTail, _ =>
    { run with files := crashedFiles run.inner run.files payloadTail nodeTail, store := none }
  | .reopen writable answers, _ =>
    match openAt run.generation run.inner writable ⟨(), run.files, answers⟩ with
    | .ok store t => { run with files := t.files, store := some store }
    | .error _ t => { run with files := t.files, store := none }
  | _, none => run

def runContent (start : ContentRun) (events : List ContentEvent) : ContentRun :=
  events.foldl (contentStep sha256) start

/-- The splice stays within what vectors can hold. -/
def EventFits (run : ContentRun) : ContentEvent → Prop
  | .splice call _ _ => Addressable (calledArena sha256 run.inner call)
  | _ => True

/-- The event tears no creation of the files, and does not overlook them. -/
def EventSafe (run : ContentRun) : ContentEvent → Prop
  | .splice _ answers _ => ∀ store ∈ run.store, SafeScript store answers
  | .heal answers => ∀ store ∈ run.store, SafeScript store answers
  | .reopen _ answers => SafeOpen run.generation run.inner answers
  | _ => True

/-- A property of every event of a run and the state it meets. -/
def AllEvents (P : ContentRun → ContentEvent → Prop) : ContentRun → List ContentEvent → Prop
  | _, [] => True
  | run, event :: events => P run event ∧ AllEvents P (contentStep sha256 run event) events

end Runs

section Invariant

variable {sha256 : Bytes → Digest} {run : ContentRun} {store : OpenStore}
  {files : Files ContentName} {generation : Nat} {a : V2AvlSequence}

/-- A store at a committed frontier: the arena behind it is well formed, the files hold it up to the
frontier with anything behind it, or do not exist yet, and the store stands at the frontier. -/
structure RunBound (sha256 : Bytes → Digest) (run : ContentRun) : Prop where
  wellFormed : WellFormed sha256 run.inner
  addressable : Addressable run.inner
  generation : run.generation < width 64
  kept : Kept run.generation run.inner run.files
  store : ∀ store, run.store = some store → Bound run.generation run.inner store run.files

theorem Bound.kept (h : Bound generation a store files) : Kept generation a files := by
  rcases h with hOpened | hUnopened
  · exact Or.inl hOpened.holds
  · exact Or.inr hUnopened.noFiles

theorem Bound.frontier (h : Bound generation a store files) : AtFrontier generation a store := by
  rcases h with hOpened | hUnopened
  · exact hOpened.frontier
  · exact hUnopened.frontier

/-- What the store sees is the committed arena. -/
theorem Bound.represents (h : Bound generation a store files) :
    Represents (store.view files) a := by
  refine ⟨h.frontier.payloadEnd, h.frontier.nodeCount, ?_⟩
  rcases h with hOpened | hUnopened
  · obtain ⟨payloadTail, hPayload⟩ := hOpened.holds.payload
    obtain ⟨nodeTail, hNodes⟩ := hOpened.holds.nodes
    refine Or.inr ⟨payloadTail, nodeTail, ?_, ?_⟩
    · simp only [OpenStore.view, hOpened.handles.1, hOpened.frontier.generation, if_true, hPayload]
    · simp only [OpenStore.view, hOpened.handles.2, hOpened.frontier.generation, if_true, hNodes]
  · obtain ⟨-, hEmpty, -⟩ := hUnopened.noFiles
    refine Or.inl ⟨?_, ?_, hEmpty⟩
    · simp [OpenStore.view, hUnopened.handles.1]
    · simp [OpenStore.view, hUnopened.handles.2.1]

theorem Bound.generation_view (h : Bound generation a store files) :
    (store.view files).generation = generation := h.frontier.generation

theorem RunBound.halted (h : RunBound sha256 run) {halt : Halt V2AvlError}
    {t : Mounted ContentName OpenStore} (hLeft : Survives run.generation run.inner halt t) :
    RunBound sha256 (afterHalt run halt t) := by
  cases halt with
  | error e =>
    have hBound : Bound run.generation run.inner t.own t.files := hLeft
    refine ⟨h.wellFormed, h.addressable, h.generation, hBound.kept, ?_⟩
    rintro store hStore
    cases hStore
    exact hBound
  | stop => exact ⟨h.wellFormed, h.addressable, h.generation, hLeft, nofun⟩

/-- A computation that leaves the store bound to its files. -/
theorem RunBound.settle {α : Type} {x : ContentM α} {answers : List Answer}
    {onOk : Mounted ContentName OpenStore → ContentRun}
    {Q : α → Mounted ContentName OpenStore → Prop} (h : RunBound sha256 run)
    (hPost : Post x ⟨store, run.files, answers⟩ Q fun halt t =>
      Survives run.generation run.inner halt t)
    (hOk : ∀ r t, Q r t → RunBound sha256 (onOk t)) :
    RunBound sha256 (settle run x store answers onOk) := by
  unfold Sequence.settle
  unfold Post at hPost
  cases hRun : x ⟨store, run.files, answers⟩ with
  | ok r t =>
    rw [hRun] at hPost
    exact hOk r t hPost
  | error halt t =>
    rw [hRun] at hPost
    exact h.halted hPost

theorem RunBound.stays (h : RunBound sha256 run) {t : Mounted ContentName OpenStore}
    (hBound : Bound run.generation run.inner t.own t.files) :
    RunBound sha256 { run with files := t.files, store := some t.own } := by
  refine ⟨h.wellFormed, h.addressable, h.generation, hBound.kept, ?_⟩
  rintro store hStore
  cases hStore
  exact hBound

/-- The nodes of a delta are whole records. -/
theorem LeadsTo.aligned {b : V2AvlSequence} {payload nodes : Bytes} {root : V2RootRecord}
    (h : LeadsTo sha256 a b payload nodes root) : nodes.length % 72 = 0 := by
  rw [h.lengths.2.2]
  exact Nat.mul_mod_left _ _

/-- A committed delta leaves exactly the arena it leads to. -/
theorem Committed.exact {b : V2AvlSequence} {delta : PhysicalDelta}
    (h : Committed generation a delta files)
    (hLeads : LeadsTo sha256 a b delta.payload delta.nodes delta.root) :
    ExactFiles generation b files := by
  obtain ⟨fresh, hNodes, hBytes, -⟩ := hLeads.nodes
  refine ⟨?_, ?_⟩
  · rw [h.1, hLeads.payload]
  · rw [h.2, hNodes, nodeBytes_append, hBytes]

theorem Kept.crashed (h : Kept generation a files) (payloadTail nodeTail : Bytes) :
    Kept generation a (crashedFiles a files payloadTail nodeTail) := by
  rcases h with hHolds | ⟨hZero, hEmpty, hPayload, hNodes⟩
  · obtain ⟨payloadRest, hPayload⟩ := hHolds.payload
    obtain ⟨nodeRest, hNodes⟩ := hHolds.nodes
    have hPayloadHeader := length_encodeHeader_payload generation
    have hNodeHeader := length_encodeHeader_node generation
    refine Or.inl ⟨⟨payloadTail, ?_⟩, ⟨nodeTail, ?_⟩⟩
    · change (files .payload).map _ = _
      rw [hPayload, Option.map_some, ← List.append_assoc, List.take_left'
        (by rw [List.length_append, hPayloadHeader, physicalHeaderSize]), List.append_assoc]
    · change (files .nodes).map _ = _
      rw [hNodes, Option.map_some, ← List.append_assoc, List.take_left'
        (by rw [List.length_append, hNodeHeader, length_nodeBytes, physicalHeaderSize,
          physicalNodeRecordSize, v2NodeRecordSize]), List.append_assoc]
  · refine Or.inr ⟨hZero, hEmpty, ?_, ?_⟩
    · change (files .payload).map _ = _
      rw [hPayload, Option.map_none]
    · change (files .nodes).map _ = _
      rw [hNodes, Option.map_none]

/-- No event that fits and is safe breaks the invariant. -/
theorem RunBound.step (h : RunBound sha256 run) {event : ContentEvent}
    (hFits : EventFits sha256 run event) (hSafe : EventSafe run event) :
    RunBound sha256 (contentStep sha256 run event) := by
  have hCalm : ∀ store answers, Calm True
      (⟨store, run.files, answers⟩ : Mounted ContentName OpenStore) := fun _ _ _ => trivial
  cases event with
  | splice call answers adopted =>
    unfold contentStep
    cases hStore : run.store with
    | none => exact h
    | some store =>
      have hBound := h.store store hStore
      have hAgree := call_agrees hBound.represents h.wellFormed hFits
      dsimp only
      cases hMemory : memoryCall sha256 call run.inner with
      | error e b =>
        obtain ⟨-, e', hPrepare, -⟩ := hAgree.error e b hMemory
        rw [hPrepare]
        exact h
      | ok result b =>
        obtain ⟨-, hWf, hAddressable, delta, hPrepare, hDelta⟩ := hAgree.ok result b hMemory
        rw [hPrepare]
        dsimp only
        refine h.settle (post_mono (@commitAndSync_bound run.generation run.inner True
          ⟨store, run.files, answers⟩ hBound h.addressable (hSafe store hStore) (hCalm _ _) delta
          hDelta.leads.aligned) (fun _ _ ht => ht) fun _ _ ht => ht.1) ?_
        rintro - t ⟨hOpened, -, hCommitted⟩
        cases adopted with
        | false => exact h.stays (Or.inl hOpened)
        | true =>
          have hAfter : arenaAfter sha256 call run.inner = b := by
            unfold arenaAfter
            rw [hMemory]
          have hExact := hCommitted.exact hDelta.leads
          rw [if_pos rfl, hAfter]
          refine ⟨hWf, hAddressable, h.generation, Or.inl hExact.holds, ?_⟩
          rintro store' hStore'
          cases hStore'
          exact Or.inl ⟨⟨hOpened.frontier.generation, hDelta.new.1, hDelta.new.2⟩,
            hOpened.handles, hExact.holds⟩
  | heal answers =>
    unfold contentStep
    cases hStore : run.store with
    | none => exact h
    | some store =>
      refine h.settle (post_mono (@heal_bound run.generation run.inner True
        ⟨store, run.files, answers⟩ (h.store store hStore) h.addressable (hSafe store hStore)
        (hCalm _ _)) (fun _ _ ht => ht) fun _ _ ht => ht.1) ?_
      rintro - t ⟨hOpened, -⟩
      exact h.stays (Or.inl hOpened)
  | rollback answers =>
    unfold contentStep
    cases hStore : run.store with
    | none => exact h
    | some store =>
      refine h.settle (@rollback_bound run.generation run.inner True ⟨store, run.files, answers⟩
        (h.store store hStore) h.addressable (hCalm _ _)) ?_
      rintro - t ⟨hBound, -⟩
      exact h.stays hBound
  | crash payloadTail nodeTail =>
    exact ⟨h.wellFormed, h.addressable, h.generation, h.kept.crashed payloadTail nodeTail, nofun⟩
  | reopen writable answers =>
    have hOpen := @openAt_post run.generation run.inner True ⟨(), run.files, answers⟩ h.kept
      h.addressable h.generation hSafe (fun _ => trivial) writable
    unfold contentStep
    unfold Post at hOpen
    dsimp only at hOpen ⊢
    cases hRun : openAt run.generation run.inner writable ⟨(), run.files, answers⟩ with
    | ok store t =>
      rw [hRun] at hOpen
      obtain ⟨hBound, hFiles⟩ := hOpen
      rw [← hFiles] at hBound
      exact h.stays (t := ⟨store, t.files, []⟩) hBound
    | error halt t =>
      rw [hRun] at hOpen
      refine ⟨h.wellFormed, h.addressable, h.generation, ?_, nofun⟩
      change Kept run.generation run.inner t.files
      rw [hOpen.1]
      exact h.kept

theorem RunBound.reached (h : RunBound sha256 run) {events : List ContentEvent}
    (hFits : AllEvents sha256 (EventFits sha256) run events)
    (hSafe : AllEvents sha256 EventSafe run events) :
    RunBound sha256 (runContent sha256 run events) := by
  induction events generalizing run with
  | nil => exact h
  | cons event events ih => exact ih (h.step hFits.1 hSafe.1) hFits.2 hSafe.2

end Invariant

/-! ## Tails do no harm -/

/-- What holds of a store at its frontier, whatever is behind it. -/
structure TailsHarmless (sha256 : Bytes → Digest) (run : ContentRun) : Prop where
  /-- Every committed root reads the same bytes as in memory. -/
  reads : ∀ store, run.store = some store → ∀ t root, Denotes sha256 run.inner t root →
    ∀ offset length, readRange sha256 (store.view run.files) root offset length =
      readRange sha256 run.inner root offset length
  /-- Nothing behind the frontier is read. -/
  bounded : ∀ store, run.store = some store →
    (∀ start stop bytes, (store.view run.files).readPayloadRange start stop = .ok bytes →
      stop ≤ run.inner.payload.length) ∧
    ∀ nodeId record, (store.view run.files).loadRecord nodeId = .ok record →
      nodeId < run.inner.nodes.length
  heals : ∀ store, run.store = some store → ∀ answers t,
    healForWrite ⟨store, run.files, answers⟩ = .ok () t →
      ExactFiles run.generation run.inner t.files
  /-- A store without files has nothing to roll back. -/
  rollsBack : ∀ store, run.store = some store → ∀ answers t,
    rollbackToCommitted ⟨store, run.files, answers⟩ = .ok true t →
      ExactFiles run.generation run.inner t.files ∨ NoFiles run.generation run.inner t.files
  /-- The next splice is prepared and committed at the frontier, and leaves exactly the arena it
  leads to. -/
  commits : ∀ store, run.store = some store → ∀ call result b,
    Addressable (calledArena sha256 run.inner call) →
    memoryCall sha256 call run.inner = .ok result b →
      ∃ delta t, prepareCall sha256 (store.view run.files) call = .ok delta ∧
        delta.oldPayloadEnd = run.inner.payload.length ∧
        delta.oldNodeCount = run.inner.nodes.length ∧
        DeltaFor sha256 run.generation run.inner b result delta ∧
        commitAndSync delta ⟨store, run.files, []⟩ = .ok () t ∧
        ExactFiles run.generation b t.files
  opens : ∀ writable, ∃ store t,
    openAt run.generation run.inner writable ⟨(), run.files, []⟩ = .ok store t ∧
      t.files = run.files ∧ AtFrontier run.generation run.inner store

section Harmless

variable {sha256 : Bytes → Digest} {run : ContentRun}

/-- A store on files that hold its arena, whatever is behind the frontier. -/
theorem runBound_opened {generation : Nat} {a : V2AvlSequence} {files : Files ContentName}
    {store : OpenStore} (hWf : WellFormed sha256 a) (hAddressable : Addressable a)
    (hGeneration : generation < width 64) (hOpened : Opened generation a store files) :
    RunBound sha256 ⟨generation, a, files, some store⟩ := by
  refine ⟨hWf, hAddressable, hGeneration, Or.inl hOpened.holds, ?_⟩
  rintro store' hStore
  cases hStore
  exact Or.inl hOpened

/-- The store that is to create the files of generation 0. -/
theorem runBound_deferred : RunBound sha256 ⟨0, empty, fun _ => none, some (openDeferred 0)⟩ := by
  have hWf : WellFormed sha256 empty := by
    intro i node hNode
    simp [empty] at hNode
  have hNone : NoFiles 0 empty fun _ => none := ⟨rfl, rfl, rfl, rfl⟩
  refine ⟨hWf, by decide, by decide, Or.inr hNone, ?_⟩
  rintro store hStore
  cases hStore
  exact Or.inr ⟨⟨rfl, rfl, rfl⟩, ⟨rfl, rfl, rfl⟩, hNone⟩

/-- A committed read ends within the frontier. -/
theorem readPayloadRange_bounded {store : PhysicalContentStore} {start stop : Nat} {bytes : Bytes}
    (h : store.readPayloadRange start stop = .ok bytes) : stop ≤ store.committedPayloadEnd := by
  simp only [PhysicalContentStore.readPayloadRange, bind_eq_ok, failIf_eq_ok, exists_const] at h
  omega

theorem loadRecord_bounded {store : PhysicalContentStore} {nodeId : Nat} {record : V2NodeRecord}
    (h : store.loadRecord nodeId = .ok record) : nodeId < store.committedNodeCount := by
  simp only [PhysicalContentStore.loadRecord, bind_eq_ok, failIf_eq_ok, exists_const] at h
  omega

theorem RunBound.tailsHarmless (h : RunBound sha256 run) : TailsHarmless sha256 run where
  reads store hStore t root hDenotes offset length :=
    ((h.store store hStore).represents.mirrors h.wellFormed h.addressable).readRange hDenotes
      offset length
  bounded store hStore := by
    have hRepresents := (h.store store hStore).represents
    constructor
    · rintro start stop bytes hRead
      exact hRepresents.payloadEnd ▸ readPayloadRange_bounded hRead
    · rintro nodeId record hLoad
      exact hRepresents.nodeCount ▸ loadRecord_bounded hLoad
  heals store hStore answers t hRun := by
    have hHeal := @heal_exact run.generation run.inner ⟨store, run.files, answers⟩
      (h.store store hStore) h.addressable
    have hExact := post_ok hHeal hRun
    exact hExact
  rollsBack store hStore answers t hRun := by
    have hRollback := @rollback_bound run.generation run.inner True ⟨store, run.files, answers⟩
      (h.store store hStore) h.addressable fun _ => trivial
    have hMatched := post_ok hRollback hRun
    exact hMatched.2 rfl
  commits store hStore call result b hFits hMemory := by
    have hBound := h.store store hStore
    obtain ⟨-, -, -, delta, hPrepare, hDelta⟩ :=
      (call_agrees hBound.represents h.wellFormed hFits).ok result b hMemory
    rw [hBound.generation_view] at hDelta
    have hNoFault : UntornCreation [] := by decide
    have hQuiet : Calm False (⟨store, run.files, []⟩ : Mounted ContentName OpenStore) :=
      fun hNe => hNe rfl
    obtain ⟨_, t, hRun, -, -, hCommitted⟩ := ok_of_post (post_mono
      (@commitAndSync_bound run.generation run.inner False ⟨store, run.files, []⟩ hBound
        h.addressable (fun _ => hNoFault) hQuiet delta hDelta.leads.aligned) (fun _ _ ht => ht)
      fun _ _ ht => ht.2)
    exact ⟨delta, t, hPrepare, hDelta.old.1, hDelta.old.2, hDelta, hRun,
      hCommitted.exact hDelta.leads⟩
  opens writable := by
    have hQuiet : Calm False (⟨(), run.files, []⟩ : Mounted ContentName Unit) :=
      fun hNe => hNe rfl
    obtain ⟨store, t, hRun, hBound, hFiles⟩ := ok_of_post (post_mono
      (@openAt_post run.generation run.inner False ⟨(), run.files, []⟩ h.kept h.addressable
        h.generation (fun _ i hi => by rfl) hQuiet writable) (fun _ _ ht => ht)
      fun _ _ ht => ht.2)
    exact ⟨store, t, hRun, hFiles, hBound.frontier⟩

end Harmless

/-- From any committed frontier, in every state of a run that tears no creation of the files,
whatever else fails and wherever the process stops: every committed root reads the same bytes,
nothing behind the frontier is read, successful heals and rollbacks leave exactly the committed
files, the files open at their frontier, and the next splice is committed there. -/
theorem tails_harmless_of_untorn (sha256 : Bytes → Digest) (start : ContentRun)
    (hStart : RunBound sha256 start) (events : List ContentEvent)
    (hFits : AllEvents sha256 (EventFits sha256) start events)
    (hSafe : AllEvents sha256 EventSafe start events) :
    TailsHarmless sha256 (runContent sha256 start events) :=
  (hStart.reached hFits hSafe).tailsHarmless

def sampleArena : V2AvlSequence := arenaAfter sampleDeltaSha256 (.splice none 0 0 [1, 2, 3]) empty

/-- The files of a compacted generation, with an orphan tail in each. -/
def sampleTailedFiles : Files ContentName
  | .payload => some (encodeHeader physicalPayloadMagic 3 ++ (sampleArena.payload ++ [9]))
  | .nodes => some (encodeHeader physicalNodeMagic 3 ++ (nodeBytes sampleArena.nodes ++ [8, 8]))

def sampleContentStart : ContentRun :=
  ⟨3, sampleArena, sampleTailedFiles, some ⟨3, true, true, true, 3, 1⟩⟩

theorem runBound_sampleContentStart : RunBound sampleDeltaSha256 sampleContentStart := by
  have hBuilt : RunBound sampleDeltaSha256 (runContent sampleDeltaSha256
      ⟨0, empty, fun _ => none, some (openDeferred 0)⟩ [.splice (.splice none 0 0 [1, 2, 3]) [] true]) := by
    refine runBound_deferred.reached ⟨?_, trivial⟩ ⟨?_, trivial⟩
    · change Addressable _
      decide +kernel
    · change ∀ store ∈ _, SafeScript store _
      decide +kernel
  have hInner : (runContent sampleDeltaSha256 ⟨0, empty, fun _ => none, some (openDeferred 0)⟩
      [.splice (.splice none 0 0 [1, 2, 3]) [] true]).inner = sampleArena := by decide +kernel
  refine runBound_opened (hInner ▸ hBuilt.wellFormed) (hInner ▸ hBuilt.addressable) (by decide)
    ⟨⟨rfl, ?_, ?_⟩, ⟨rfl, rfl⟩, ⟨⟨[9], rfl⟩, ⟨[8, 8], rfl⟩⟩⟩
  · decide +kernel
  · decide +kernel

/-- The next splice writes one of its two bytes; the process ends with other bytes behind the
frontier; the files are opened again, and the splice is repeated and adopted. -/
def sampleContentEvents : List ContentEvent := [
  .splice (.append (some (.balancedV2 0 3)) [4, 5])
    [.done, .done, .done, .done, .done, .done, .failed 1] true,
  .crash [7] [6],
  .reopen false [],
  .splice (.append (some (.balancedV2 0 3)) [4, 5]) [] true]

theorem tails_harmless_of_untorn_sample :
    (runContent sampleDeltaSha256 sampleContentStart sampleContentEvents).files .payload =
      some (encodeHeader physicalPayloadMagic 3 ++ [1, 2, 3, 4, 5]) ∧
    TailsHarmless sampleDeltaSha256
      (runContent sampleDeltaSha256 sampleContentStart sampleContentEvents) := by
  refine ⟨by decide +kernel,
    tails_harmless_of_untorn sampleDeltaSha256 _ runBound_sampleContentStart _ ?_ ?_⟩
  · refine ⟨?_, trivial, trivial, ?_, trivial⟩
    · change Addressable _
      decide +kernel
    · change Addressable _
      decide +kernel
  · refine ⟨?_, trivial, ?_, ?_, trivial⟩
    · change ∀ store ∈ _, SafeScript store _
      decide +kernel
    · change SafeOpen _ _ _
      decide +kernel
    · change ∀ store ∈ _, SafeScript store _
      decide +kernel

/-- The payload file is created, and the process stops; the files are opened again. -/
def tornEvents : List ContentEvent := [
  .splice (.splice none 0 0 [1, 2, 3]) [.done, .stopped 0] true,
  .reopen false []]

/-- The creation of the files that stops behind its first call is never completed: the payload
file is there, and is not to be created again. -/
theorem not_tails_harmless : ¬ ∀ (sha256 : Bytes → Digest) (start : ContentRun),
    RunBound sha256 start → ∀ events, AllEvents sha256 (EventFits sha256) start events →
      TailsHarmless sha256 (runContent sha256 start events) := by
  intro hAll
  have hFits : AllEvents sampleDeltaSha256 (EventFits sampleDeltaSha256)
      ⟨0, empty, fun _ => none, some (openDeferred 0)⟩ tornEvents := by
    refine ⟨?_, trivial, trivial⟩
    change Addressable _
    decide +kernel
  have hHarmless := hAll sampleDeltaSha256 _ runBound_deferred tornEvents hFits
  have hStore : (runContent sampleDeltaSha256
      ⟨0, empty, fun _ => none, some (openDeferred 0)⟩ tornEvents).store =
      some (openDeferred 0) := by decide +kernel
  have hInner : (runContent sampleDeltaSha256
      ⟨0, empty, fun _ => none, some (openDeferred 0)⟩ tornEvents).inner = empty := by
    decide +kernel
  have hMemory : ∃ result b, memoryCall sampleDeltaSha256 (.splice none 0 0 [1, 2, 3]) empty =
      .ok result b := by
    have hOk : (match memoryCall sampleDeltaSha256 (.splice none 0 0 [1, 2, 3]) empty with
      | .ok _ _ => true
      | .error _ _ => false) = true := by decide +kernel
    cases hRun : memoryCall sampleDeltaSha256 (.splice none 0 0 [1, 2, 3]) empty with
    | ok result b => exact ⟨result, b, rfl⟩
    | error e b =>
      rw [hRun] at hOk
      cases hOk
  obtain ⟨result, b, hMemory⟩ := hMemory
  have hCall : Addressable (calledArena sampleDeltaSha256 empty (.splice none 0 0 [1, 2, 3])) := by
    decide +kernel
  rw [← hInner] at hMemory hCall
  obtain ⟨delta, t, hPrepare, -, -, -, hCommit, -⟩ :=
    hHarmless.commits _ hStore _ result b hCall hMemory
  have hFails : (match prepareCall sampleDeltaSha256 ((openDeferred 0).view
        (runContent sampleDeltaSha256 ⟨0, empty, fun _ => none, some (openDeferred 0)⟩
          tornEvents).files) (.splice none 0 0 [1, 2, 3]) with
      | .error _ => true
      | .ok delta =>
        match commitAndSync delta ⟨openDeferred 0, (runContent sampleDeltaSha256
          ⟨0, empty, fun _ => none, some (openDeferred 0)⟩ tornEvents).files, []⟩ with
        | .ok _ _ => true
        | .error _ _ => false) = false := by decide +kernel
  rw [hPrepare] at hFails
  dsimp only at hFails
  rw [hCommit] at hFails
  cases hFails

end TulyaStore.Sequence
