import TulyaStore.Checkpoint.RouteCodec

/-!
# When a route file reads back

A file without request records ends where its keys end, and the last eight of these bytes are
taken for a footer when they are its magic. The key of a thread ends in four zeros and the key
of a checkpoint in its identifier, so the outcome hangs on one identifier: that of the
checkpoint routed last (`route_file_round_trip`).
-/

namespace TulyaStore.Checkpoint

open Lib

variable {P : Primitives}

/-! ## The end of a key -/

section Key

/-- A short suffix of a row of bytes lies in its last part. -/
theorem suffix_append_iff {xs front back : Bytes} (h : xs.length ≤ back.length) :
    xs <:+ front ++ back ↔ xs <:+ back :=
  ⟨fun hSuffix => List.suffix_of_suffix_length_le hSuffix (List.suffix_append _ _) h,
    fun hSuffix => hSuffix.trans (List.suffix_append _ _)⟩

theorem length_requestFooterMagic : requestFooterMagic.length = 8 := rfl

/-- In front of fewer than eight bytes stand the zeros of their count. -/
theorem not_footer_of_short {front back : Bytes} (h : back.length < 8) :
    ¬ requestFooterMagic <:+ front ++ (leBytes 4 back.length ++ back) := by
  intro hFooter
  have hCount : leBytes 4 back.length = [UInt8.ofNat back.length, 0, 0, 0] := by
    have hSmall : back.length % 256 = back.length ∧ back.length / 256 = 0 := by omega
    simp [leBytes, hSmall]
  have hWhole : front ++ (leBytes 4 back.length ++ back) =
      (front ++ [UInt8.ofNat back.length, 0, 0]) ++ (0 :: back) := by
    rw [hCount]
    simp
  rw [hWhole] at hFooter
  have hTail : (0 :: back) <:+ requestFooterMagic :=
    List.suffix_of_suffix_length_le (List.suffix_append _ _) hFooter (by
      rw [List.length_cons, length_requestFooterMagic]
      omega)
  -- the only zero of the magic is its last byte, and a second one does not precede it
  obtain ⟨before, hBefore⟩ := hTail
  have hLen : before.length = 7 - back.length := by
    have := congrArg List.length hBefore
    simp only [List.length_append, List.length_cons, length_requestFooterMagic] at this
    omega
  have hZero : requestFooterMagic[before.length]? = some 0 := by
    rw [← hBefore]
    simp
  rw [hLen] at hZero
  have hEmpty : back = [] := by
    have hOnly : ∀ n < 8, requestFooterMagic[7 - n]? = some 0 → n = 0 := by decide
    exact List.length_eq_zero_iff.mp (hOnly _ h hZero)
  subst hEmpty
  have hTwo : [0, 0] <:+ requestFooterMagic := by
    refine List.suffix_of_suffix_length_le ?_ hFooter (by decide)
    exact ⟨front ++ [UInt8.ofNat 0, 0], by simp⟩
  exact absurd hTwo (by decide)

theorem routeKey_eq_ok {thread : String} {checkpoint : Option String} {key : Bytes}
    (h : routeKey thread checkpoint = .ok key) :
    ∃ front, key = front ++ (leBytes 4 ((checkpoint.map utf8).getD []).length ++
      (checkpoint.map utf8).getD []) := by
  simp only [routeKey, bind_eq_ok, okOr_eq_ok, tryFrom_eq_some, Except.ok.injEq] at h
  obtain ⟨_, ⟨-, rfl⟩, _, ⟨-, rfl⟩, rfl⟩ := h
  exact ⟨(if checkpoint.isSome then 1 else 0) :: (leBytes 4 (utf8 thread).length ++ utf8 thread),
    by simp⟩

theorem not_footer_threadKey {thread : String} {key : Bytes}
    (h : routeKey thread none = .ok key) : ¬ requestFooterMagic <:+ key := by
  obtain ⟨front, rfl⟩ := routeKey_eq_ok h
  exact not_footer_of_short (by simp)

/-- The key of a checkpoint ends in the magic exactly when its identifier does. -/
theorem footer_checkpointKey {thread checkpoint : String} {key : Bytes}
    (h : routeKey thread (some checkpoint) = .ok key) :
    requestFooterMagic <:+ key ↔ requestFooterMagic <:+ utf8 checkpoint := by
  obtain ⟨front, rfl⟩ := routeKey_eq_ok h
  simp only [Option.map_some, Option.getD_some]
  by_cases hShort : (utf8 checkpoint).length < 8
  · refine iff_of_false (not_footer_of_short hShort) fun hFooter => ?_
    have := hFooter.length_le
    rw [length_requestFooterMagic] at this
    omega
  · rw [← List.append_assoc]
    exact suffix_append_iff (by rw [length_requestFooterMagic]; omega)

end Key

/-! ## The end of the keys -/

section Blob

theorem blob_eq {pre table blob : Bytes} {es : List RouteEntry}
    (h : routeTable pre es = .ok (table, blob)) :
    blob = pre ++ (es.map RouteEntry.key).flatten := by
  induction es generalizing pre table with
  | nil =>
    obtain ⟨-, rfl⟩ := Prod.mk.injEq .. ▸ Except.ok.inj h
    simp
  | cons e es ih =>
    simp only [routeTable, bind_eq_ok, okOr_eq_ok, Except.ok.injEq, Prod.exists,
      Prod.mk.injEq] at h
    obtain ⟨_, _, _, _, rest, blob', hRest, rfl, rfl⟩ := h
    rw [ih hRest]
    simp

/-- Keys are longer than a footer's magic. -/
theorem length_routeKey {thread : String} {checkpoint : Option String} {key : Bytes}
    (h : routeKey thread checkpoint = .ok key) : 8 ≤ key.length := by
  simp only [routeKey, bind_eq_ok, okOr_eq_ok, tryFrom_eq_some, Except.ok.injEq] at h
  obtain ⟨_, ⟨-, rfl⟩, _, ⟨-, rfl⟩, rfl⟩ := h
  simp only [List.length_cons, List.length_append, length_leBytes]
  omega

/-- The entry a checkpoint is routed by. -/
def routedBy (P : Primitives) (checkpoint : String × String × Nat) (e : RouteEntry) : Prop :=
  routeEntry P checkpoint.1 (some checkpoint.2.1) checkpoint.2.2 = .ok e

theorem routeEntry_eq_ok {thread : String} {checkpoint : Option String} {ordinal : Nat}
    {e : RouteEntry} (h : routeEntry P thread checkpoint ordinal = .ok e) :
    routeKey thread checkpoint = .ok e.key ∧ e.hash = P.xxh3 e.key := by
  obtain ⟨key, hKey, hEq⟩ := bind_eq_ok.mp h
  cases hEq
  exact ⟨hKey, rfl⟩

theorem routeThreads_eq_ok {ts : List (String × Nat)} {es : List RouteEntry}
    (h : routeThreads P ts = .ok es) :
    ∀ e ∈ es, 8 ≤ e.key.length ∧ ¬ requestFooterMagic <:+ e.key := by
  induction ts generalizing es with
  | nil =>
    cases h
    exact fun _ hMem => absurd hMem List.not_mem_nil
  | cons t ts ih =>
    obtain ⟨e, hEntry, h⟩ := bind_eq_ok.mp h
    obtain ⟨rest, hRest, h⟩ := bind_eq_ok.mp h
    cases h
    intro e' hMem
    rcases List.mem_cons.mp hMem with rfl | hMem
    · have hKey := (routeEntry_eq_ok hEntry).1
      exact ⟨length_routeKey hKey, not_footer_threadKey hKey⟩
    · exact ih hRest e' hMem

theorem routeCheckpoints_eq_ok {cs : List (String × String × Nat)} {es : List RouteEntry}
    (h : routeCheckpoints P cs = .ok es) :
    (∀ e ∈ es, ∃ c ∈ cs, routedBy P c e) ∧ ∀ c ∈ cs, ∃ e ∈ es, routedBy P c e := by
  induction cs generalizing es with
  | nil =>
    cases h
    exact ⟨fun _ hMem => absurd hMem List.not_mem_nil, fun _ hMem => absurd hMem List.not_mem_nil⟩
  | cons c cs ih =>
    obtain ⟨e, hEntry, h⟩ := bind_eq_ok.mp h
    obtain ⟨rest, hRest, h⟩ := bind_eq_ok.mp h
    cases h
    obtain ⟨hFrom, hTo⟩ := ih hRest
    refine ⟨fun e' hMem => ?_, fun c' hMem => ?_⟩
    · rcases List.mem_cons.mp hMem with rfl | hMem
      · exact ⟨c, List.mem_cons_self, hEntry⟩
      · obtain ⟨c', hIn, hRouted⟩ := hFrom e' hMem
        exact ⟨c', List.mem_cons_of_mem _ hIn, hRouted⟩
    · rcases List.mem_cons.mp hMem with rfl | hMem
      · exact ⟨e, List.mem_cons_self, hEntry⟩
      · obtain ⟨e', hIn, hRouted⟩ := hTo c' hMem
        exact ⟨e', List.mem_cons_of_mem _ hIn, hRouted⟩

end Blob

/-! ## The checkpoint routed last -/

section Order

instance : Std.Total RouteEntry.le where
  total e e' := by
    unfold RouteEntry.le
    have hOrder : e.hash < e'.hash ∨ e.hash = e'.hash ∨ e'.hash < e.hash := by
      rw [UInt64.lt_iff_toNat_lt, UInt64.lt_iff_toNat_lt, ← UInt64.toNat_inj]
      omega
    rcases hOrder with h | h | h
    · exact Or.inl (Or.inl h)
    · rcases le_total e.key e'.key with hKey | hKey
      · exact Or.inl (Or.inr ⟨h, hKey⟩)
      · exact Or.inr (Or.inr ⟨h.symm, hKey⟩)
    · exact Or.inr (Or.inl h)

instance : IsTrans RouteEntry RouteEntry.le where
  trans e e' e'' := by
    unfold RouteEntry.le
    rintro (h | ⟨h, hKey⟩) (h' | ⟨h', hKey'⟩)
    · exact Or.inl (UInt64.lt_trans h h')
    · exact Or.inl (h' ▸ h)
    · exact Or.inl (h ▸ h')
    · exact Or.inr ⟨h.trans h', le_trans hKey hKey'⟩

theorem RouteEntry.le_refl (e : RouteEntry) : e.le e := Or.inr ⟨rfl, le_rfl⟩

theorem RouteEntry.key_eq_of_le {e e' : RouteEntry} (h : e.le e') (h' : e'.le e) :
    e.key = e'.key := by
  rcases h with h | ⟨h, hKey⟩
  · rcases h' with h' | ⟨h', -⟩
    · exact absurd h' (UInt64.lt_asymm h)
    · exact absurd h (h' ▸ UInt64.lt_irrefl _)
  · rcases h' with h' | ⟨-, hKey'⟩
    · exact absurd h' (h ▸ UInt64.lt_irrefl _)
    · exact le_antisymm hKey hKey'

/-- The last entry of the sorted table is the greatest one. -/
theorem exists_last {es : List RouteEntry} (h : es ≠ []) :
    ∃ front e, es.insertionSort RouteEntry.le = front ++ [e] ∧ e ∈ es ∧ ∀ e' ∈ es, e'.le e := by
  have hPerm := List.perm_insertionSort RouteEntry.le es
  have hNe : es.insertionSort RouteEntry.le ≠ [] := fun hNil => h (by
    rw [hNil] at hPerm
    exact hPerm.nil_eq.symm)
  have hSplit := List.dropLast_append_getLast hNe
  have hSorted := List.pairwise_insertionSort RouteEntry.le es
  rw [← hSplit] at hSorted
  refine ⟨_, _, hSplit.symm, hPerm.mem_iff.mp (List.getLast_mem hNe), fun e' hMem => ?_⟩
  have hIn : e' ∈ es.insertionSort RouteEntry.le := hPerm.mem_iff.mpr hMem
  rw [← hSplit] at hIn
  rcases List.mem_append.mp hIn with hIn | hIn
  · exact (List.pairwise_append.mp hSorted).2.2 e' hIn _ (List.mem_singleton.mpr rfl)
  · rw [List.mem_singleton.mp hIn]
    exact RouteEntry.le_refl _

end Order

/-- No checkpoint is routed behind this one. -/
def RoutedLast (P : Primitives) (cs : List (String × String × Nat))
    (checkpoint : String × String × Nat) : Prop :=
  ∀ other ∈ cs, ∀ e e', routedBy P other e → routedBy P checkpoint e' → e.le e'

/-- The identifier of the checkpoint routed last, if there is one, does not end in the magic of
the request footer. -/
def FooterFree (P : Primitives) (cs : List (String × String × Nat)) : Prop :=
  ∀ checkpoint ∈ cs, RoutedLast P cs checkpoint → ¬ requestFooterMagic <:+ utf8 checkpoint.2.1

section Built

variable {generation : Nat} {ts : List (String × Nat)} {cs : List (String × String × Nat)}
  {rs : List RequestRecord} {bytes : Bytes} {hash : UInt64}

/-- The header ends with the index hash. -/
theorem routeHeader_eq (generation threads checkpoints checkpointTable keyBlob : Nat)
    (hash : UInt64) : ∃ front,
      routeHeader generation threads checkpoints checkpointTable keyBlob hash =
        front ++ leBytes 8 hash.toNat := ⟨_, rfl⟩

/-- The parts of a file without request records. -/
theorem buildRouteFile_parts (h : buildRouteFile P generation ts cs [] = .ok (bytes, hash)) :
    ∃ front table threads checkpoints, routeThreads P ts = .ok threads ∧
      routeCheckpoints P cs = .ok checkpoints ∧
      bytes = front ++ leBytes 8 hash.toNat ++ table ++ ((threads.insertionSort RouteEntry.le ++
        checkpoints.insertionSort RouteEntry.le).map RouteEntry.key).flatten ∧
      (threads = [] → checkpoints = [] → table = [] ∧ hash = 0) := by
  simp only [buildRouteFile, checkedMul, bind_eq_ok, okOr_eq_ok, tryFrom_eq_some,
    checkedAdd_eq_some, width, Except.ok.injEq, Prod.exists, Prod.mk.injEq] at h
  obtain ⟨threads, hThreads, checkpoints, hCheckpoints, _, ⟨_, rfl⟩, _, ⟨_, rfl⟩, _, ⟨_, rfl⟩, _,
    ⟨_, rfl⟩, table, blob, hTable, sec, hRequests, _, ⟨_, rfl⟩, _, ⟨_, rfl⟩, hBytes, hHash⟩ := h
  have hBlob := blob_eq hTable
  obtain ⟨front, hHeader⟩ := routeHeader_eq generation
    (threads.insertionSort RouteEntry.le).length (checkpoints.insertionSort RouteEntry.le).length
    (routeHeaderSize + (threads.insertionSort RouteEntry.le).length * routeEntrySize)
    (routeHeaderSize + (threads.insertionSort RouteEntry.le).length * routeEntrySize +
      (checkpoints.insertionSort RouteEntry.le).length * routeEntrySize) hash
  cases hRequests
  rw [List.append_nil] at hBytes hHash
  rw [List.nil_append] at hBlob
  refine ⟨front, table, threads, checkpoints, hThreads, hCheckpoints, ?_, ?_⟩
  · rw [← hBytes, hHash, hHeader, ← hBlob]
    simp only [List.append_assoc]
  · rintro rfl rfl
    cases hTable
    exact ⟨rfl, hHash.symm⟩

/-- A file without request records ends in the magic of the footer exactly when the identifier
of the checkpoint routed last does. -/
theorem endsInFooter_build (h : buildRouteFile P generation ts cs [] = .ok (bytes, hash)) :
    EndsInFooter bytes ↔ ¬ FooterFree P cs := by
  obtain ⟨front, table, threads, checkpoints, hThreads, hCheckpoints, rfl, hEmpty⟩ :=
    buildRouteFile_parts h
  obtain ⟨hFrom, hTo⟩ := routeCheckpoints_eq_ok hCheckpoints
  have hPlain := routeThreads_eq_ok hThreads
  have hLast : ∀ {pre : Bytes} {es : List RouteEntry} {e : RouteEntry}, 8 ≤ e.key.length →
      (requestFooterMagic <:+ pre ++ ((es ++ [e]).map RouteEntry.key).flatten ↔
        requestFooterMagic <:+ e.key) := by
    intro pre es e hLong
    rw [List.map_append, List.flatten_append, List.map_singleton, List.flatten_singleton,
      ← List.append_assoc]
    exact suffix_append_iff hLong
  unfold EndsInFooter
  by_cases hNone : checkpoints = []
  · have hFree : FooterFree P cs := fun c hMem => by
      obtain ⟨e, hIn, -⟩ := hTo c hMem
      rw [hNone] at hIn
      exact absurd hIn List.not_mem_nil
    refine iff_of_false ?_ (not_not.mpr hFree)
    rw [hNone, List.insertionSort_nil, List.append_nil]
    by_cases hNoThread : threads = []
    · obtain ⟨rfl, rfl⟩ := hEmpty hNoThread hNone
      subst hNoThread
      intro hFooter
      simp only [List.insertionSort_nil, List.map_nil, List.flatten_nil, List.append_nil] at hFooter
      have hZeros : requestFooterMagic <:+ leBytes 8 (0 : UInt64).toNat :=
        (suffix_append_iff (by rw [length_leBytes]; decide)).mp hFooter
      exact absurd hZeros (by decide)
    · obtain ⟨es, e, hSorted, hMem, -⟩ := exists_last hNoThread
      rw [hSorted, hLast (hPlain e hMem).1]
      exact (hPlain e hMem).2
  · obtain ⟨es, e, hSorted, hMem, hGreatest⟩ := exists_last hNone
    obtain ⟨c, hIn, hRouted⟩ := hFrom e hMem
    have hKey := (routeEntry_eq_ok hRouted).1
    rw [hSorted, ← List.append_assoc, hLast (length_routeKey hKey), footer_checkpointKey hKey]
    constructor
    · intro hFooter hFree
      refine hFree c hIn ?_ hFooter
      intro other hOther e₁ e₂ hRouted₁ hRouted₂
      obtain ⟨e', hIn', hRouted'⟩ := hTo other hOther
      obtain rfl : e' = e₁ := Except.ok.inj (hRouted'.symm.trans hRouted₁)
      obtain rfl : e = e₂ := Except.ok.inj (hRouted.symm.trans hRouted₂)
      exact hGreatest e' hIn'
    · intro hNotFree
      unfold FooterFree at hNotFree
      push Not at hNotFree
      obtain ⟨c', hIn', hLastRouted, hFooter⟩ := hNotFree
      obtain ⟨e', hMem', hRouted'⟩ := hTo c' hIn'
      have hSame : e.key = e'.key :=
        RouteEntry.key_eq_of_le (hLastRouted c hIn e e' hRouted hRouted') (hGreatest e' hMem')
      have hKey' := (routeEntry_eq_ok hRouted').1
      rw [← footer_checkpointKey hKey, hSame, footer_checkpointKey hKey']
      exact hFooter

/-- A built route file passes its check and gives its request records back, exactly when it has
some or the identifier of the checkpoint routed last does not end in the magic of the request
footer. -/
theorem route_file_round_trip (P : Primitives) (generation : Nat) (ts : List (String × Nat))
    (cs : List (String × String × Nat)) (rs : List RequestRecord) (bytes : Bytes) (hash : UInt64)
    (h : buildRouteFile P generation ts cs rs = .ok (bytes, hash))
    (hGeneration : generation < 2 ^ 64) (hOrdinals : ∀ r ∈ rs, r.checkpointOrdinal < 2 ^ 32) :
    validateRouteFile P bytes ⟨generation, ts.length, cs.length, bytes.length, hash⟩ = .ok () ∧
      routeRequestRecords bytes = .ok rs ↔ rs ≠ [] ∨ FooterFree P cs := by
  have hValid := validateRouteFile_build h hGeneration bytes.length
  constructor
  · rintro ⟨-, hRead⟩
    by_contra hNot
    rw [not_or, not_not] at hNot
    obtain ⟨rfl, hNotFree⟩ := hNot
    obtain ⟨e, hError⟩ :=
      routeRequestRecords_of_footer h hGeneration ((endsInFooter_build h).mpr hNotFree)
    rw [hRead] at hError
    cases hError
  · intro hCondition
    refine ⟨hValid, routeRequestRecords_build h hGeneration hOrdinals ?_⟩
    rintro rfl hFooter
    rcases hCondition with hSome | hFree
    · exact hSome rfl
    · exact (endsInFooter_build h).mp hFooter hFree

end Built

/-! ## A file that reads back and one that does not -/

/-- A request whose result is the checkpoint at ordinal 0. -/
def sampleRequest : RequestRecord := ⟨ascii "r-1", Vector.replicate 32 7, 0⟩

/-- XXH3 on the two keys of the route file of thread `t` with checkpoint `c`, and on what follows
the header of that file with the request above. -/
def samplePrimitives : Primitives where
  xxh3 bytes :=
    if bytes = [0, 1, 0, 0, 0, 116, 0, 0, 0, 0] then 0x40e7ef45b48e4ff3
    else if bytes = [1, 1, 0, 0, 0, 116, 1, 0, 0, 0, 99] then 0x5866819144b3c58b
    else 0xacb9eaa0da7b78b5
  sha256 _ := Vector.replicate 32 0
  compress _ bytes := bytes
  decompress bytes _ := some bytes

theorem route_file_round_trip_sample : ∃ bytes hash,
    buildRouteFile samplePrimitives 1 [("t", 0)] [("t", "c", 0)] [sampleRequest] =
      .ok (bytes, hash) ∧
    validateRouteFile samplePrimitives bytes ⟨1, 1, 1, bytes.length, hash⟩ = .ok () ∧
    routeRequestRecords bytes = .ok [sampleRequest] := by
  have hBuilt : ∃ bytes hash,
      buildRouteFile samplePrimitives 1 [("t", 0)] [("t", "c", 0)] [sampleRequest] =
        .ok (bytes, hash) := ⟨_, _, rfl⟩
  obtain ⟨bytes, hash, hRun⟩ := hBuilt
  have hOrdinals : ∀ r ∈ [sampleRequest], r.checkpointOrdinal < 2 ^ 32 := by
    intro r hMem
    obtain rfl := List.mem_singleton.mp hMem
    decide
  have hBoth := (route_file_round_trip samplePrimitives 1 [("t", 0)] [("t", "c", 0)]
    [sampleRequest] bytes hash hRun (by decide) hOrdinals).mpr (Or.inl (List.cons_ne_nil _ _))
  exact ⟨bytes, hash, hRun, hBoth⟩

/-- A checkpoint whose identifier is the magic of the request footer. -/
def footerCheckpoint : String × String × Nat := ("t", "T2REQF1\x00", 0)

theorem route_file_round_trip_fails :
    ¬ ∃ P : Primitives, ∀ generation ts cs rs bytes hash,
      buildRouteFile P generation ts cs rs = .ok (bytes, hash) → generation < 2 ^ 64 →
      (∀ c ∈ cs, validateCheckpointIdentifier c.1 "thread id" = .ok () ∧
        validateCheckpointIdentifier c.2.1 "checkpoint id" = .ok ()) →
      (∀ r ∈ rs, r.checkpointOrdinal < 2 ^ 32) →
      validateRouteFile P bytes ⟨generation, ts.length, cs.length, bytes.length, hash⟩ = .ok () ∧
        routeRequestRecords bytes = .ok rs := by
  rintro ⟨P, hAll⟩
  have hBuilt : ∃ bytes hash,
      buildRouteFile P 1 [] [footerCheckpoint] [] = .ok (bytes, hash) := ⟨_, _, rfl⟩
  obtain ⟨bytes, hash, hRun⟩ := hBuilt
  have hValid : ∀ c ∈ [footerCheckpoint], validateCheckpointIdentifier c.1 "thread id" = .ok () ∧
      validateCheckpointIdentifier c.2.1 "checkpoint id" = .ok () := by
    intro c hMem
    obtain rfl := List.mem_singleton.mp hMem
    decide
  have hNotFree : ¬ FooterFree P [footerCheckpoint] := by
    intro hFree
    refine hFree footerCheckpoint List.mem_cons_self ?_ (by decide)
    intro other hMem e e' hRouted hRouted'
    obtain rfl := List.mem_singleton.mp hMem
    obtain rfl : e = e' := Except.ok.inj (hRouted.symm.trans hRouted')
    exact e.le_refl
  obtain ⟨e, hError⟩ :=
    routeRequestRecords_of_footer hRun (by decide) ((endsInFooter_build hRun).mpr hNotFree)
  have hRead := (hAll 1 [] [footerCheckpoint] [] bytes hash hRun (by decide) hValid
    (fun _ hMem => absurd hMem List.not_mem_nil)).2
  rw [hRead] at hError
  cases hError

end TulyaStore.Checkpoint
