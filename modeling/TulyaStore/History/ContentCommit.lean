import TulyaStore.History.Recovery

/-!
# Content in front of its record

A splice writes its content before the record that names it: the files are cut to the frontier and
the delta goes behind it. Wherever this stops, and whichever step is refused, the files still hold
the arena of the frontier and nothing else has changed (`ContentOnly`), so the directory recovers to
the store it had.
-/

namespace TulyaStore.History

open Lib FileM Sequence V2AvlSequence PersistentHistoryStore PhysicalContentStore

/-! ## Cutting and appending -/

section Steps

variable {N : Type} [DecidableEq N] {files : Files N} {name : N}

theorem resized_append_left (kept tail : Bytes) : resized (kept ++ tail) kept.length = kept := by
  rw [resized, List.take_left, List.length_append, Nat.sub_eq_zero_of_le (Nat.le_add_right _ _),
    List.replicate_zero, List.append_nil]

end Steps

section ContentSteps

variable {files : HistoryFiles} {name : HistoryFile} {file kept tail bytes : Bytes}
  {P : HistoryFiles → Prop}

theorem applyAll_cutFile (hFile : files name = some (kept ++ tail)) :
    applyAll files (cutFile name (some (kept ++ tail)) (some kept)) =
      setFile files name (some kept) := by
  unfold cutFile
  rw [Option.getD_some, Option.getD_some]
  split
  case isTrue =>
    rw [applyAll_cons, applyAll_nil, FileStep.apply, hFile, Option.map_some, resized_append_left]
  case isFalse hShort =>
    have hNone : tail = [] := by
      rw [List.length_append] at hShort
      exact List.length_eq_zero_iff.mp (by omega)
    rw [hNone, List.append_nil] at hFile
    rw [applyAll_nil, setFile_same hFile]

theorem along_cutFile (hFile : files name = some (kept ++ tail)) (hStart : P files)
    (hCut : P (setFile files name (some kept))) :
    AlongSteps P files (cutFile name (some (kept ++ tail)) (some kept)) := by
  have hEnd := applyAll_cutFile hFile
  unfold cutFile at hEnd ⊢
  split
  case isTrue hLong =>
    rw [if_pos hLong, applyAll_cons, applyAll_nil] at hEnd
    refine alongSteps_cons_of_not_torn (fun _ hTorn => hTorn) hStart ?_
    rw [alongSteps_nil, hEnd]
    exact hCut
  case isFalse => exact hStart

theorem applyAll_appendFile (hFile : files name = some file) (bytes : Bytes) :
    applyAll files (appendFile name (some file) bytes) =
      setFile files name (some (file ++ bytes)) := by
  unfold appendFile
  split
  case isTrue hEmpty =>
    rw [List.isEmpty_iff.mp hEmpty, List.append_nil, applyAll_nil, setFile_same hFile]
  case isFalse =>
    rw [applyAll_cons, applyAll_nil, Option.getD_some, FileStep.apply_write_end hFile]

theorem along_appendFile (hFile : files name = some file)
    (hPart : ∀ k ≤ bytes.length, P (setFile files name (some (file ++ bytes.take k)))) :
    AlongSteps P files (appendFile name (some file) bytes) := by
  have hStart : P files := by
    have hNone := hPart 0 (Nat.zero_le _)
    rwa [List.take_zero, List.append_nil, setFile_same hFile] at hNone
  unfold appendFile
  split
  case isTrue => exact hStart
  case isFalse =>
    rw [Option.getD_some]
    refine alongSteps_write hStart ?_ ?_
    · intro k hLe
      rw [FileStep.apply_write_end hFile]
      exact hPart k hLe
    · rw [FileStep.apply_write_end hFile, alongSteps_nil]
      have hAll := hPart bytes.length (Nat.le_refl _)
      rwa [List.take_length] at hAll

theorem liftContent_run {σ α : Type} {x : ContentM σ α} {s s' : σ}
    {steps : List (FileStep HistoryFile)} {result : Except V2AvlError α}
    (h : x s files = (steps, result, s')) (f : V2AvlError → DurableError) :
    liftContent f x s files = (steps, mapErr f result, s') := by
  unfold liftContent
  rw [h]

end ContentSteps

/-! ## Directories that differ in their content -/

/-- The directory with other content behind the headers of a generation. -/
def withContent (files : HistoryFiles) (physical : Nat) (payload nodes : Bytes) : HistoryFiles :=
  setFile (setFile files (.payload physical)
      (some (encodeHeader physicalPayloadMagic physical ++ payload)))
    (.nodes physical) (some (encodeHeader physicalNodeMagic physical ++ nodes))

/-- The image differs from the directory in the content files only, which hold the arena. -/
structure ContentOnly (files : HistoryFiles) (physical : Nat) (a : V2AvlSequence)
    (image : HistoryFiles) : Prop where
  same : ∀ name, name ≠ .payload physical → name ≠ .nodes physical → image name = files name
  holds : HoldsArena (image (.payload physical)) (image (.nodes physical)) physical a

section Content

variable {files image : HistoryFiles} {physical : Nat} {a b : V2AvlSequence}
  {payload nodes : Bytes}

theorem payload_ne_nodes (generation other : Nat) :
    HistoryFile.payload generation ≠ .nodes other := by
  intro hSame
  cases hSame

@[simp] theorem withContent_payload : withContent files physical payload nodes (.payload physical) =
    some (encodeHeader physicalPayloadMagic physical ++ payload) := by
  rw [withContent, setFile_of_ne (payload_ne_nodes _ _), setFile_self]

@[simp] theorem withContent_nodes : withContent files physical payload nodes (.nodes physical) =
    some (encodeHeader physicalNodeMagic physical ++ nodes) := by
  rw [withContent, setFile_self]

theorem withContent_other {name : HistoryFile} (hPayload : name ≠ .payload physical)
    (hNodes : name ≠ .nodes physical) :
    withContent files physical payload nodes name = files name := by
  rw [withContent, setFile_of_ne hNodes, setFile_of_ne hPayload]

theorem contentOnly_withContent (hPayload : ∃ tail, payload = a.payload ++ tail)
    (hNodes : ∃ tail, nodes = nodeBytes a.nodes ++ tail) :
    ContentOnly files physical a (withContent files physical payload nodes) := by
  obtain ⟨payloadTail, rfl⟩ := hPayload
  obtain ⟨nodeTail, rfl⟩ := hNodes
  refine ⟨fun name hPayload hNodes => withContent_other hPayload hNodes, ?_⟩
  rw [withContent_payload, withContent_nodes]
  exact ⟨⟨payloadTail, rfl⟩, ⟨nodeTail, rfl⟩⟩

theorem ContentOnly.of_grows (h : ContentOnly files physical b image) (hGrows : Grows a b) :
    ContentOnly files physical a image :=
  ⟨h.same, h.holds.of_grows hGrows⟩

theorem withContent_setPayload (other : Bytes) :
    setFile (withContent files physical payload nodes) (.payload physical)
        (some (encodeHeader physicalPayloadMagic physical ++ other)) =
      withContent files physical other nodes := by
  rw [withContent, setFile_comm (payload_ne_nodes _ _).symm, setFile_setFile]
  rfl

theorem withContent_setNodes (other : Bytes) :
    setFile (withContent files physical payload nodes) (.nodes physical)
        (some (encodeHeader physicalNodeMagic physical ++ other)) =
      withContent files physical payload other := by
  rw [withContent, setFile_setFile]
  rfl

/-- Files that hold an arena have its content behind their headers, and tails. -/
theorem eq_withContent
    (h : HoldsArena (files (.payload physical)) (files (.nodes physical)) physical a) :
    ∃ payloadTail nodeTail, files =
      withContent files physical (a.payload ++ payloadTail) (nodeBytes a.nodes ++ nodeTail) := by
  obtain ⟨payloadTail, hPayload⟩ := h.payload
  obtain ⟨nodeTail, hNodes⟩ := h.nodes
  refine ⟨payloadTail, nodeTail, ?_⟩
  rw [withContent, setFile_same hPayload, setFile_same hNodes]

variable {P : HistoryFiles → Prop} {base : HistoryFiles} {tail other : Bytes}

theorem cutPayload_run (other : Bytes)
    (hFiles : files = withContent base physical (payload ++ tail) nodes) :
    applyAll files (cutFile (.payload physical) (files (.payload physical))
        (withContent base physical payload other (.payload physical))) =
      withContent base physical payload nodes := by
  subst hFiles
  rw [withContent_payload, withContent_payload, ← List.append_assoc, applyAll_cutFile,
    withContent_setPayload]
  rw [withContent_payload, List.append_assoc]

theorem cutNodes_run (hFiles : files = withContent base physical payload (nodes ++ tail)) :
    applyAll files (cutFile (.nodes physical) (files (.nodes physical))
        (withContent base physical other nodes (.nodes physical))) =
      withContent base physical payload nodes := by
  subst hFiles
  rw [withContent_nodes, withContent_nodes, ← List.append_assoc, applyAll_cutFile,
    withContent_setNodes]
  rw [withContent_nodes, List.append_assoc]

theorem along_cutPayload (hFiles : files = withContent base physical (payload ++ tail) nodes)
    (hStart : P files) (hCut : P (withContent base physical payload nodes)) :
    AlongSteps P files (cutFile (.payload physical) (files (.payload physical))
      (withContent base physical payload other (.payload physical))) := by
  subst hFiles
  rw [withContent_payload, withContent_payload, ← List.append_assoc]
  refine along_cutFile ?_ hStart ?_
  · rw [withContent_payload, List.append_assoc]
  · rw [withContent_setPayload]
    exact hCut

theorem along_cutNodes (hFiles : files = withContent base physical payload (nodes ++ tail))
    (hStart : P files) (hCut : P (withContent base physical payload nodes)) :
    AlongSteps P files (cutFile (.nodes physical) (files (.nodes physical))
      (withContent base physical other nodes (.nodes physical))) := by
  subst hFiles
  rw [withContent_nodes, withContent_nodes, ← List.append_assoc]
  refine along_cutFile ?_ hStart ?_
  · rw [withContent_nodes, List.append_assoc]
  · rw [withContent_setNodes]
    exact hCut

theorem appendPayload_run (tail : Bytes)
    (hFiles : files = withContent base physical payload nodes) :
    applyAll files (appendFile (.payload physical) (files (.payload physical)) tail) =
      withContent base physical (payload ++ tail) nodes := by
  subst hFiles
  rw [withContent_payload, applyAll_appendFile withContent_payload, List.append_assoc,
    withContent_setPayload]

theorem appendNodes_run (tail : Bytes) (hFiles : files = withContent base physical payload nodes) :
    applyAll files (appendFile (.nodes physical) (files (.nodes physical)) tail) =
      withContent base physical payload (nodes ++ tail) := by
  subst hFiles
  rw [withContent_nodes, applyAll_appendFile withContent_nodes, List.append_assoc,
    withContent_setNodes]

theorem along_appendPayload (hFiles : files = withContent base physical payload nodes)
    (hPart : ∀ part, P (withContent base physical (payload ++ part) nodes)) :
    AlongSteps P files (appendFile (.payload physical) (files (.payload physical)) tail) := by
  subst hFiles
  rw [withContent_payload]
  refine along_appendFile withContent_payload fun k _ => ?_
  rw [List.append_assoc, withContent_setPayload]
  exact hPart _

theorem along_appendNodes (hFiles : files = withContent base physical payload nodes)
    (hPart : ∀ part, P (withContent base physical payload (nodes ++ part))) :
    AlongSteps P files (appendFile (.nodes physical) (files (.nodes physical)) tail) := by
  subst hFiles
  rw [withContent_nodes]
  refine along_appendFile withContent_nodes fun k _ => ?_
  rw [List.append_assoc, withContent_setNodes]
  exact hPart _

end Content

/-! ## The commit -/

section Commit

variable {sha256 : Bytes → Digest} {files : HistoryFiles} {physical : Nat} {a b : V2AvlSequence}
  {σ : Type}

/-- The store bound to the files of the directory at the frontier of the arena. -/
def boundContent (files : HistoryFiles) (physical : Nat) (a : V2AvlSequence) :
    PhysicalContentStore :=
  boundStore (files (.payload physical)) (files (.nodes physical)) physical a

/-- The directory whose content files hold the arena and nothing else. -/
def exactContent (files : HistoryFiles) (physical : Nat) (a : V2AvlSequence) : HistoryFiles :=
  withContent files physical a.payload (nodeBytes a.nodes)

/-- More content behind the frontier of an arena. -/
theorem contentOnly_exact (hGrows : Grows a b) :
    ContentOnly files physical a (exactContent files physical b) := by
  have hOnly : ContentOnly files physical b (exactContent files physical b) :=
    contentOnly_withContent ⟨[], (List.append_nil _).symm⟩ ⟨[], (List.append_nil _).symm⟩
  exact hOnly.of_grows hGrows

theorem exactContent_holds : HoldsArena (exactContent files physical a (.payload physical))
    (exactContent files physical a (.nodes physical)) physical a := by
  rw [exactContent, withContent_payload, withContent_nodes]
  exact ⟨⟨[], by rw [List.append_nil]⟩, ⟨[], by rw [List.append_nil]⟩⟩

theorem ensureContent_run
    (h : HoldsArena (files (.payload physical)) (files (.nodes physical)) physical a) (s : σ) :
    ensureContent (boundContent files physical a) s files =
      ([], .ok (boundContent files physical a), s) := by
  obtain ⟨payloadTail, hPayload⟩ := h.payload
  obtain ⟨nodeTail, hNodes⟩ := h.nodes
  have hBoth : ¬ ((boundContent files physical a).payload = none ∨
      (boundContent files physical a).nodes = none) := by
    rw [boundContent, boundStore, hPayload, hNodes]
    simp
  rw [ensureContent, if_neg hBoth]
  rfl

/-- The heal leaves exactly the arena. -/
theorem healContent_run
    (h : HoldsArena (files (.payload physical)) (files (.nodes physical)) physical a)
    (hAddressable : Addressable a) (s : σ) :
    ∃ steps, healContent (boundContent files physical a) s files =
        (steps, .ok (boundContent (exactContent files physical a) physical a), s) ∧
      applyAll files steps = exactContent files physical a ∧
      AlongSteps (ContentOnly files physical a) files steps := by
  have hEnsure := ensureContent_run h s
  have hHeal : (boundContent files physical a).healForWrite =
      .ok (boundContent (exactContent files physical a) physical a) := by
    have hRun := h.represents.healForWrite hAddressable
    rw [boundContent, hRun, boundContent, exactContent, withContent_payload, withContent_nodes]
    rfl
  obtain ⟨payloadTail, nodeTail, hFiles⟩ := eq_withContent h
  have hFirst := cutPayload_run (nodeBytes a.nodes) hFiles
  have hHolds : ∀ payload nodes : Bytes, ContentOnly files physical a (withContent files physical
      (a.payload ++ payload) (nodeBytes a.nodes ++ nodes)) := fun payload nodes =>
    contentOnly_withContent ⟨payload, rfl⟩ ⟨nodes, rfl⟩
  have hCut := hHolds [] nodeTail
  have hExact := hHolds [] []
  rw [List.append_nil] at hCut hExact
  rw [List.append_nil] at hExact
  have hNodes : files (.nodes physical) = applyAll files (cutFile (.payload physical)
      (files (.payload physical)) (exactContent files physical a (.payload physical)))
        (.nodes physical) := by
    rw [exactContent, hFirst, withContent_nodes]
    conv_lhs => rw [hFiles]
    rw [withContent_nodes]
  refine ⟨cutFile (.payload physical) (files (.payload physical))
      (exactContent files physical a (.payload physical)) ++
    (cutFile (.nodes physical) (files (.nodes physical))
      (exactContent files physical a (.nodes physical)) ++ []), ?_, ?_, ?_⟩
  · refine (FileM.bind_run_quiet hEnsure).trans ?_
    refine (FileM.bind_run_quiet (by rw [hHeal]; exact FileM.attempt_run _)).trans ?_
    refine FileM.bind_run_ok (FileM.perform_run _) ?_
    exact FileM.bind_run_ok (FileM.perform_run _) rfl
  · rw [List.append_nil, applyAll_append, hNodes]
    exact cutNodes_run hFirst
  · rw [List.append_nil, alongSteps_append]
    constructor
    · exact along_cutPayload hFiles ⟨fun _ _ _ => rfl, h⟩ hCut
    · rw [hNodes]
      exact along_cutNodes hFirst (hFirst ▸ hCut) hExact

theorem boundContent_withContent {payload nodes : Bytes} :
    boundContent (withContent files physical payload nodes) physical a =
      withFiles ⟨physical, none, none, a.payload.length, a.nodes.length⟩ payload nodes := by
  rw [boundContent, withContent_payload, withContent_nodes]
  rfl

/-- The authority further on in a call, which has used up some of the answers. -/
def Onward (auth auth' : WritableHistoryAuthority) : Prop :=
  ∃ left, auth' = { auth with answers := left }

theorem Onward.refl (auth : WritableHistoryAuthority) : Onward auth auth := ⟨auth.answers, rfl⟩

theorem Onward.trans {auth auth' auth'' : WritableHistoryAuthority} (h : Onward auth auth')
    (hNext : Onward auth' auth'') : Onward auth auth'' := by
  obtain ⟨left, rfl⟩ := h
  obtain ⟨left', rfl⟩ := hNext
  exact ⟨left', rfl⟩

variable {image : HistoryFiles} {auth : WritableHistoryAuthority}

/-- A cut of a content file to its frontier. -/
theorem ContentOnly.cut (h : ContentOnly files physical a image) :
    ContentOnly files physical a
        ((FileStep.setLen (.payload physical) (16 + a.payload.length)).apply image) ∧
      ContentOnly files physical a
        ((FileStep.setLen (.nodes physical) (16 + a.nodes.length * 72)).apply image) := by
  obtain ⟨payloadTail, nodeTail, hImage⟩ := eq_withContent h.holds
  have hOnly : ∀ payload nodes : Bytes, ContentOnly files physical a
      (withContent image physical (a.payload ++ payload) (nodeBytes a.nodes ++ nodes)) := by
    intro payload nodes
    have hContent : ContentOnly image physical a _ :=
      contentOnly_withContent ⟨payload, rfl⟩ ⟨nodes, rfl⟩
    exact ⟨fun name hPayload hNodes => (hContent.same name hPayload hNodes).trans
      (h.same name hPayload hNodes), hContent.holds⟩
  have hPayload := h.holds.payload
  constructor
  · have hCut : (FileStep.setLen (.payload physical) (16 + a.payload.length)).apply image =
        withContent image physical (a.payload ++ []) (nodeBytes a.nodes ++ nodeTail) := by
      have hLen : (encodeHeader physicalPayloadMagic physical ++ a.payload).length =
          16 + a.payload.length := by
        rw [List.length_append, length_encodeHeader_payload]
      rw [List.append_nil]
      conv_lhs => rw [hImage]
      rw [FileStep.apply, withContent_payload, Option.map_some, ← List.append_assoc, ← hLen,
        resized_append_left, withContent_setPayload]
    rw [hCut]
    exact hOnly _ _
  · have hCut : (FileStep.setLen (.nodes physical) (16 + a.nodes.length * 72)).apply image =
        withContent image physical (a.payload ++ payloadTail) (nodeBytes a.nodes ++ []) := by
      have hLen : (encodeHeader physicalNodeMagic physical ++ nodeBytes a.nodes).length =
          16 + a.nodes.length * 72 := by
        rw [List.length_append, length_encodeHeader_node, length_nodeBytes]
      rw [List.append_nil]
      conv_lhs => rw [hImage]
      rw [FileStep.apply, withContent_nodes, Option.map_some, ← List.append_assoc, ← hLen,
        resized_append_left, withContent_setNodes]
    rw [hCut]
    exact hOnly _ _

theorem expectedPayload_bound {base : HistoryFiles} {len : Nat}
    (h : (boundContent base physical a).expectedPayload = .ok len) :
    len = 16 + a.payload.length := by
  rw [PhysicalContentStore.expectedPayload, okOr_eq_ok, checkedAdd_eq_some] at h
  exact h.2

theorem expectedNodes_bound {base : HistoryFiles} {len : Nat}
    (h : (boundContent base physical a).expectedNodes = .ok len) :
    len = 16 + a.nodes.length * 72 := by
  simp only [PhysicalContentStore.expectedNodes, bind_eq_ok, okOr_eq_ok, checkedAdd_eq_some,
    checkedMul, tryFrom_eq_some] at h
  obtain ⟨_, ⟨-, rfl⟩, -, rfl⟩ := h
  rfl

/-- A cut that may be refused. -/
theorem ContentOnly.refusableCut (h : ContentOnly files physical a image) {name : HistoryFile}
    {len : Nat} (hCut : ContentOnly files physical a ((FileStep.setLen name len).apply image)) :
    CrashSafe (ContentOnly files physical a)
      (FileM.refusable healFailure (FileM.step (.setLen name len)) :
        ContentM WritableHistoryAuthority Unit) auth image
      (fun _ auth' fs => Onward auth auth' ∧ fs = (FileStep.setLen name len).apply image)
      (fun _ auth' fs => Onward auth auth' ∧ fs = image) := by
  refine (CrashSafe.stepRefusable (.setLen name len) (fun _ hTorn => hTorn) h hCut
    healFailure).mono_error ?_
  intro e auth' fs hError
  exact hError.2

/-- A rollback keeps the content of the frontier, whatever it reports. -/
theorem ContentOnly.rollback (h : ContentOnly files physical a image) (base : HistoryFiles)
    {E : V2AvlError → WritableHistoryAuthority → HistoryFiles → Prop} :
    CrashSafe (ContentOnly files physical a) (rollbackContent (boundContent base physical a)) auth
      image (fun _ auth' fs => Onward auth auth' ∧ ContentOnly files physical a fs) E := by
  unfold rollbackContent
  split
  case h_1 payloadLen nodesLen hPayload hNodes =>
    rw [expectedPayload_bound hPayload, expectedNodes_bound hNodes]
    split
    case isTrue => exact .pure h ⟨.refl auth, h⟩
    case isFalse =>
      refine CrashSafe.succeeds (Q := fun _ auth' fs => Onward auth auth' ∧
        ContentOnly files physical a fs) ?_ fun _ _ hQ => hQ.2
      refine CrashSafe.bind ((h.refusableCut h.cut.1).mono_error ?_) ?_
      · intro _ auth' fs hOk
        rcases hOk with ⟨hOnward, rfl⟩
        exact ⟨h, hOnward, h⟩
      intro _ auth' fs hOk
      rcases hOk with ⟨hOnward, rfl⟩
      refine CrashSafe.bind (.attempt h.cut.1 (Q := fun _ auth'' fs => auth'' = auth' ∧ fs = _)
        (fun _ _ => ⟨rfl, rfl⟩) fun _ _ => ⟨h.cut.1, hOnward, h.cut.1⟩) ?_
      intro _ auth'' fs hOk
      rcases hOk with ⟨rfl, rfl⟩
      refine (h.cut.1.refusableCut h.cut.1.cut.2).mono_outcomes ?_ ?_
      · intro _ auth' fs hOk
        rcases hOk with ⟨hNext, rfl⟩
        exact ⟨hOnward.trans hNext, h.cut.1.cut.2⟩
      · intro _ auth' fs hOk
        rcases hOk with ⟨hNext, rfl⟩
        exact ⟨h.cut.1, hOnward.trans hNext, h.cut.1⟩
  case h_2 => exact .pure h ⟨.refl auth, h⟩

/-- Where the program behind a payload stands: nothing but content has been added. -/
def Refusing (auth : WritableHistoryAuthority) (files : HistoryFiles) (physical : Nat)
    (a : V2AvlSequence) (auth' : WritableHistoryAuthority) (fs : HistoryFiles) : Prop :=
  Onward auth auth' ∧ ContentOnly files physical a fs

/-- Steps that keep the content of the frontier and may be refused. -/
theorem refusable_perform {steps : List (FileStep HistoryFile)}
    (hAlong : AlongSteps (ContentOnly files physical a) image steps) (e : V2AvlError) :
    CrashSafe (ContentOnly files physical a)
      (FileM.refusable (fun _ => e) (FileM.perform steps) :
        ContentM WritableHistoryAuthority Unit) auth image
      (fun _ auth' fs => Onward auth auth' ∧ fs = applyAll image steps)
      (fun _ => Refusing auth files physical a) := by
  refine (CrashSafe.refusableAlong (FileM.perform_run steps) hAlong _).mono_outcomes ?_ ?_
  · intro _ auth' fs hOk
    exact hOk.2
  · intro e' auth' fs hError
    exact hError.2

/-- The commit of a delta leaves exactly the arena it leads to, and the frontier where it was; when
it fails, the files still hold the arena of the frontier. -/
theorem commitContent_safe
    (h : HoldsArena (files (.payload physical)) (files (.nodes physical)) physical a)
    {delta : PhysicalDelta}
    (hLeads : LeadsTo sha256 a b delta.payload delta.nodes delta.root) :
    CrashSafe (ContentOnly files physical a) (commitContent (boundContent files physical a) delta)
      auth files
      (fun content auth' fs => Onward auth auth' ∧ content = boundContent fs physical a ∧
        fs = exactContent files physical b)
      (fun _ => Refusing auth files physical a) := by
  have hAddressable := hLeads.addressable.of_grows hLeads.grows
  obtain ⟨healSteps, hHeal, hHealed, hAlong⟩ := healContent_run h hAddressable auth
  obtain ⟨fresh, hFresh, hBytes, -⟩ := hLeads.nodes
  obtain ⟨-, -, hNodesLen⟩ := hLeads.lengths
  have hBounds := hAddressable
  unfold Addressable at hBounds
  have hPayloadLt : 16 + a.payload.length < width 64 := by
    unfold width
    omega
  have hNodesLt : 16 + a.nodes.length * 72 < width 64 := by
    unfold width
    omega
  have hResult : nodeBytes b.nodes = nodeBytes a.nodes ++ delta.nodes := by
    rw [hFresh, nodeBytes_append, hBytes]
  have hMiddle : ∀ part : Bytes, ContentOnly files physical a
      (withContent files physical (a.payload ++ part) (nodeBytes a.nodes)) := fun part =>
    contentOnly_withContent ⟨part, rfl⟩ ⟨[], (List.append_nil _).symm⟩
  have hLast : ∀ part : Bytes, ContentOnly files physical a
      (withContent files physical b.payload (nodeBytes a.nodes ++ part)) := fun part =>
    contentOnly_withContent ⟨delta.payload, hLeads.payload⟩ ⟨part, rfl⟩
  have hPayload : (boundContent (exactContent files physical a) physical a).appendPayloadDelta
      delta.payload = .ok (boundContent
        (withContent files physical b.payload (nodeBytes a.nodes)) physical a) := by
    rw [exactContent, boundContent_withContent, boundContent_withContent, hLeads.payload]
    exact appendPayloadDelta_withFiles rfl hPayloadLt _
  have hNodes : (boundContent (withContent files physical b.payload (nodeBytes a.nodes)) physical
      a).appendNodeDelta delta.nodes =
        .ok (boundContent (exactContent files physical b) physical a) := by
    rw [exactContent, boundContent_withContent, boundContent_withContent, hResult]
    exact appendNodeDelta_withFiles rfl length_nodeBytes hNodesLt (by rw [hNodesLen]; simp)
  have hFirst := appendPayload_run delta.payload
    (rfl : withContent files physical a.payload (nodeBytes a.nodes) = _)
  rw [← hLeads.payload] at hFirst
  have hSecond := appendNodes_run delta.nodes hFirst
  rw [← hResult, hFirst] at hSecond
  refine CrashSafe.bind ((CrashSafe.refusableAlong hHeal hAlong healFailure).mono_error
    fun _ _ _ hError => hError.2) ?_
  intro content auth₁ fs hOk
  rcases hOk with ⟨rfl, hAnswers, rfl⟩
  have hOnward : Onward auth auth₁ := hAnswers
  rw [hHealed]
  refine CrashSafe.bind_quiet (by rw [hPayload]; exact FileM.attempt_run _) ?_
  refine CrashSafe.bind ((refusable_perform (along_appendPayload rfl hMiddle)
    payloadAppendFailed).mono_error
      fun _ _ _ hE => ⟨hOnward.trans hE.1, hE.2⟩) ?_
  intro _ auth₂ fs hOk
  rcases hOk with ⟨hOnward₂, rfl⟩
  rw [hFirst]
  unfold commitNodes
  refine CrashSafe.catching (E := fun _ => Refusing auth files physical a) ?_ ?_
  · refine CrashSafe.bind_quiet (by rw [hNodes]; exact FileM.attempt_run _) ?_
    refine CrashSafe.bind ((refusable_perform (along_appendNodes rfl hLast)
      nodeAppendFailed).mono_error
        fun _ _ _ hE => ⟨(hOnward.trans hOnward₂).trans hE.1, hE.2⟩) ?_
    intro _ auth₃ fs hOk
    rcases hOk with ⟨hOnward₃, rfl⟩
    rw [hSecond]
    have hEnd := hLast delta.nodes
    rw [← hResult] at hEnd
    exact .pure hEnd ⟨(hOnward.trans hOnward₂).trans hOnward₃, rfl, rfl⟩
  · intro e auth₃ fs hError
    rcases hError with ⟨hOnward₃, hOnly⟩
    refine CrashSafe.bind (hOnly.rollback _) ?_
    intro _ auth₄ fs hOk
    rcases hOk with ⟨hOnward₄, hOnly'⟩
    exact .throw hOnly' ⟨hOnward₃.trans hOnward₄, hOnly'⟩

/-- A content program with its error rewritten. -/
theorem CrashSafe.liftContent {σ α : Type} {P : HistoryFiles → Prop} {x : ContentM σ α} {s : σ}
    {Q : α → σ → HistoryFiles → Prop} {E : V2AvlError → σ → HistoryFiles → Prop}
    (h : CrashSafe P x s files Q E) (f : V2AvlError → DurableError) :
    CrashSafe P (liftContent f x) s files Q fun e t fs => ∃ e', e = f e' ∧ E e' t fs := by
  rcases hRun : x s files with ⟨steps, result, t⟩
  refine .of_run (liftContent_run hRun f) (h.along hRun) ?_ ?_
  · intro a hOk
    obtain rfl := mapErr_eq_ok.mp hOk
    exact h.ok hRun
  · intro e hError
    obtain ⟨e', rfl, rfl⟩ := mapErr_eq_error.mp hError
    exact ⟨e', rfl, h.error hRun⟩

/-- The barrier of a commit: its content is synced, or rolled back. -/
theorem contentBarrier_safe (h : ContentOnly files physical a image) (base : HistoryFiles) :
    CrashSafe (ContentOnly files physical a) (contentBarrier (boundContent base physical a)) auth
      image (fun _ auth' fs => Onward auth auth' ∧ fs = image)
      (fun e auth' fs => ((∃ error, e = .rejected error) ∨ e = .recoveryRequired) ∧
        Refusing auth files physical a auth' fs) := by
  have hAlong : AlongSteps (ContentOnly files physical a) image
      [.sync (.payload physical), .sync (.nodes physical)] :=
    alongSteps_cons_of_not_torn (fun _ hTorn => hTorn) h
      (alongSteps_cons_of_not_torn (fun _ hTorn => hTorn) h h)
  have hSync : CrashSafe (ContentOnly files physical a) (liftContent (fun _ => barrierFailed)
      (syncContent (boundContent base physical a))) auth image
      (fun _ auth' fs => Onward auth auth' ∧ fs = image)
      (fun e auth' fs => ∃ e', e = barrierFailed ∧ Refusing auth files physical a auth' fs) :=
    CrashSafe.liftContent (refusable_perform hAlong contentSyncFailed) _
  unfold contentBarrier
  refine CrashSafe.catching hSync ?_
  intro e auth' fs hError
  rcases hError with ⟨_, -, hOnward, hOnly⟩
  refine CrashSafe.bind ((CrashSafe.liftContent (hOnly.rollback base (E := fun _ _ _ => False))
    fun _ => barrierFailed).mono_error ?_) ?_
  · intro _ _ _ hOk
    rcases hOk with ⟨_, _, hFalse⟩
    exact hFalse.elim
  intro restored auth'' fs' hOk
  rcases hOk with ⟨hNext, hOnly'⟩
  refine .throw hOnly' ⟨?_, hOnward.trans hNext, hOnly'⟩
  cases restored with
  | true => exact .inl ⟨_, rfl⟩
  | false => exact .inr rfl

end Commit

end TulyaStore.History
