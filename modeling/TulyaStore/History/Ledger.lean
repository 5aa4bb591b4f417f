import TulyaStore.History.Replay

/-!
# The request ledger

`LedgerTables` says that the receipt order lists the keys of the active and the retired ledger,
each once. A fresh receipt, a retirement and an expiration keep it, and the horizon then holds
the most recent receipts: `recent` of the requests committed so far.
-/

namespace TulyaStore.History

open Lib Sequence

/-- The receipt order lists the keys of the two ledgers, each once. -/
structure LedgerTables (active : KeyMap Bytes ActiveRequest) (retired : KeyMap Bytes Digest)
    (order : List Bytes) : Prop where
  nodup : order.Nodup
  perm : order.Perm (active.keys ++ retired.keys)

section Tables

variable {active : KeyMap Bytes ActiveRequest} {retired : KeyMap Bytes Digest}
  {order : List Bytes} {request : Bytes}

theorem LedgerTables.length (h : LedgerTables active retired order) :
    order.length = active.size + retired.size := by
  have hLen := h.perm.length_eq
  simpa using hLen

theorem LedgerTables.mem (h : LedgerTables active retired order) :
    request ∈ order ↔ (∃ entry, active.get request = some entry) ∨
      ∃ digest, retired.get request = some digest := by
  rw [h.perm.mem_iff, List.mem_append, KeyMap.mem_keys, KeyMap.mem_keys]

theorem LedgerTables.disjoint (h : LedgerTables active retired order) {entry : ActiveRequest}
    (hActive : active.get request = some entry) : retired.get request = none := by
  have hNodup := h.perm.nodup_iff.mp h.nodup
  have hDisjoint := (List.nodup_append.mp hNodup).2.2
  rw [← KeyMap.not_mem_keys]
  intro hRetired
  exact hDisjoint request (KeyMap.mem_keys.mpr ⟨entry, hActive⟩) request hRetired rfl

/-- A receipt moves from the active to the retired ledger. -/
theorem LedgerTables.retire (h : LedgerTables active retired order) {entry : ActiveRequest}
    (hActive : active.get request = some entry) (digest : Digest) :
    LedgerTables (active.erase request) (retired.insert request digest) order where
  nodup := h.nodup
  perm := by
    have hErase := KeyMap.keys_perm_erase hActive
    have hInsert := KeyMap.keys_insert_perm digest (h.disjoint hActive)
    calc order.Perm (active.keys ++ retired.keys) := h.perm
      _ |>.Perm (request :: (active.erase request).keys ++ retired.keys) :=
        hErase.append_right _
      _ |>.Perm ((active.erase request).keys ++ (request :: retired.keys)) :=
        List.perm_middle.symm
      _ |>.Perm _ := hInsert.symm.append_left _

/-- A new receipt is the newest. -/
theorem LedgerTables.push (h : LedgerTables active retired order)
    (hNew : request ∉ order) (entry : ActiveRequest) :
    LedgerTables (active.insert request entry) retired (order ++ [request]) where
  nodup := by
    rw [List.nodup_append]
    refine ⟨h.nodup, List.nodup_singleton _, ?_⟩
    rintro other hOther _ hSelf rfl
    rw [List.mem_singleton] at hSelf
    exact hNew (hSelf ▸ hOther)
  perm := by
    have hAbsent : active.get request = none := by
      rw [← KeyMap.not_mem_keys]
      exact fun hMem => hNew (h.perm.mem_iff.mpr (List.mem_append_left _ hMem))
    have hInsert := KeyMap.keys_insert_perm entry hAbsent
    calc (order ++ [request]).Perm (request :: order) := List.perm_append_singleton _ _
      _ |>.Perm (request :: (active.keys ++ retired.keys)) := h.perm.cons _
      _ |>.Perm _ := hInsert.symm.append_right _

/-- The oldest receipt is forgotten. -/
theorem LedgerTables.evict {rest : List Bytes}
    (h : LedgerTables active retired (request :: rest)) :
    if active.containsKey request then LedgerTables (active.erase request) retired rest
    else LedgerTables active (retired.erase request) rest := by
  obtain ⟨hHead, hRest⟩ := List.nodup_cons.mp h.nodup
  split
  case isTrue hIn =>
    obtain ⟨entry, hEntry⟩ := KeyMap.containsKey_eq_true.mp hIn
    refine ⟨hRest, ?_⟩
    have hErase := (KeyMap.keys_perm_erase hEntry).append_right retired.keys
    exact (h.perm.trans hErase).cons_inv
  case isFalse hOut =>
    have hAbsent : active.get request = none :=
      KeyMap.containsKey_eq_false.mp (by simpa using hOut)
    obtain ⟨digest, hDigest⟩ : ∃ digest, retired.get request = some digest := by
      rcases h.mem.mp List.mem_cons_self with ⟨entry, hEntry⟩ | hDigest
      · rw [hAbsent] at hEntry
        cases hEntry
      · exact hDigest
    refine ⟨hRest, ?_⟩
    have hErase := (KeyMap.keys_perm_erase hDigest).append_left active.keys
    exact (h.perm.trans (hErase.trans List.perm_middle)).cons_inv

end Tables

/-! ## A fresh receipt -/

namespace PersistentHistoryStore

/-- The ledger after a fresh receipt: the order has it as its newest, and every request still
in the order has the entry it had. -/
structure Pushed (s s' : PersistentHistoryStore) (request : Bytes) (entry : ActiveRequest) :
    Prop where
  frame : s' = { s with
    activeRequests := s'.activeRequests
    retiredRequests := s'.retiredRequests
    receiptOrder := s'.receiptOrder }
  tables : LedgerTables s'.activeRequests s'.retiredRequests s'.receiptOrder
  order : s'.receiptOrder = if s.receiptOrder.length < stagingRequestReceiptCapacity then
    s.receiptOrder ++ [request] else s.receiptOrder.tail ++ [request]
  active : ∀ r ∈ s'.receiptOrder,
    s'.activeRequests.get r = (s.activeRequests.insert request entry).get r
  retired : ∀ r ∈ s'.receiptOrder, s'.retiredRequests.get r = s.retiredRequests.get r

variable {s : PersistentHistoryStore} {request : Bytes} {entry : ActiveRequest}

/-- Within the capacity nothing is evicted. -/
theorem enforceReceiptHorizon_of_le
    (h : LedgerTables s.activeRequests s.retiredRequests s.receiptOrder)
    (hLe : s.receiptOrder.length ≤ stagingRequestReceiptCapacity) :
    s.enforceReceiptHorizon = s := by
  rw [h.length] at hLe
  rw [enforceReceiptHorizon]
  cases s.receiptOrder with
  | nil => rfl
  | cons oldest rest => rw [enforceHorizonOver, if_neg (by omega)]

/-- One receipt above the capacity: the oldest goes, and the loop stops behind it. -/
theorem enforceReceiptHorizon_of_gt {oldest : Bytes} {rest : List Bytes}
    (h : LedgerTables s.activeRequests s.retiredRequests (oldest :: rest))
    (hOrder : s.receiptOrder = oldest :: rest)
    (hLen : rest.length = stagingRequestReceiptCapacity) :
    s.enforceReceiptHorizon = s.evictOldest oldest rest := by
  have hSize := h.length
  rw [List.length_cons] at hSize
  have hEvict := h.evict
  rw [enforceReceiptHorizon, hOrder, enforceHorizonOver, if_pos (by omega)]
  have hTables : LedgerTables (s.evictOldest oldest rest).activeRequests
      (s.evictOldest oldest rest).retiredRequests (s.evictOldest oldest rest).receiptOrder := by
    unfold evictOldest
    split
    case isTrue hIn => simpa [hIn] using hEvict
    case isFalse hOut => simpa [hOut] using hEvict
  have hRest : (s.evictOldest oldest rest).receiptOrder = rest := by
    unfold evictOldest
    split <;> rfl
  have hStop := enforceReceiptHorizon_of_le hTables (by rw [hRest, hLen])
  rw [enforceReceiptHorizon, hRest] at hStop
  exact hStop

theorem pushed_evictOldest {oldest : Bytes} {rest : List Bytes}
    (h : LedgerTables s.activeRequests s.retiredRequests (oldest :: rest)) :
    (∀ r ∈ rest, (s.evictOldest oldest rest).activeRequests.get r = s.activeRequests.get r) ∧
      ∀ r ∈ rest, (s.evictOldest oldest rest).retiredRequests.get r =
        s.retiredRequests.get r := by
  have hHead : ∀ r ∈ rest, r ≠ oldest := by
    rintro r hMem rfl
    exact (List.nodup_cons.mp h.nodup).1 hMem
  unfold evictOldest
  split
  case isTrue =>
    refine ⟨fun r hMem => ?_, fun _ _ => rfl⟩
    simp only [KeyMap.get_erase, if_neg (hHead r hMem)]
  case isFalse =>
    refine ⟨fun _ _ => rfl, fun r hMem => ?_⟩
    simp only [KeyMap.get_erase, if_neg (hHead r hMem)]

theorem pushFreshReceipt_pushed (entry : ActiveRequest)
    (h : LedgerTables s.activeRequests s.retiredRequests s.receiptOrder)
    (hLe : s.receiptOrder.length ≤ stagingRequestReceiptCapacity)
    (hNew : request ∉ s.receiptOrder) :
    Pushed s (s.pushFreshReceipt request entry.digest entry.version) request entry := by
  have hPush := h.push hNew entry
  unfold pushFreshReceipt
  by_cases hRoom : s.receiptOrder.length < stagingRequestReceiptCapacity
  · rw [enforceReceiptHorizon_of_le hPush (by
      rw [List.length_append, List.length_singleton]
      omega)]
    exact ⟨rfl, hPush, by rw [if_pos hRoom], fun _ _ => rfl, fun _ _ => rfl⟩
  · have hFull : s.receiptOrder.length = stagingRequestReceiptCapacity := by omega
    have hPos : 0 < stagingRequestReceiptCapacity := by decide
    obtain ⟨oldest, older, hOrder⟩ : ∃ oldest older, s.receiptOrder = oldest :: older := by
      cases hOrder : s.receiptOrder with
      | nil => rw [hOrder, List.length_nil] at hFull; omega
      | cons oldest older => exact ⟨oldest, older, rfl⟩
    rw [hOrder, List.cons_append] at hPush
    rw [enforceReceiptHorizon_of_gt hPush (by rw [hOrder, List.cons_append]) (by
      rw [hOrder, List.length_cons] at hFull
      rw [List.length_append, List.length_singleton, hFull])]
    have hEvict := hPush.evict
    obtain ⟨hActive, hRetired⟩ := pushed_evictOldest (s := { s with
      activeRequests := s.activeRequests.insert request entry
      receiptOrder := s.receiptOrder ++ [request] }) hPush
    have hRest : ∀ t : PersistentHistoryStore,
        (t.evictOldest oldest (older ++ [request])).receiptOrder = older ++ [request] := by
      intro t
      unfold evictOldest
      split <;> rfl
    refine ⟨?_, ?_, ?_, ?_, ?_⟩
    · unfold evictOldest
      split <;> rfl
    · unfold evictOldest
      split
      case isTrue hIn => simpa [hIn] using hEvict
      case isFalse hOut => simpa [hOut] using hEvict
    · rw [hRest, if_neg hRoom, hOrder, List.tail_cons]
    · rw [hRest]
      exact hActive
    · rw [hRest]
      exact hRetired

end PersistentHistoryStore

end TulyaStore.History
