import Mathlib.Algebra.Order.Ring.Nat
import Mathlib.Order.Basic
import Mathlib.Data.List.Induction
import Mathlib.Tactic.Common

/-!
# Finite maps as strictly sorted entry lists

A `KeyMap` stands for a hash map: it is determined by its lookups (`KeyMap.ext_get`), so two
maps built in different orders are equal as soon as they agree on every key. Its entries in
key order are what a program gets by collecting and sorting the pairs of a hash map, and
inserting them one by one gives the map back (`insertAll_entries`).
-/

namespace TulyaStore.Lib

variable {K V : Type} [LinearOrder K]

/-- Inserts into a sorted entry list, replacing the value of an equal key. -/
def insertEntry (k : K) (v : V) : List (K × V) → List (K × V)
  | [] => [(k, v)]
  | (k', v') :: rest =>
    if k < k' then (k, v) :: (k', v') :: rest
    else if k = k' then (k, v) :: rest
    else (k', v') :: insertEntry k v rest

/-- The value of a key in an entry list. -/
def findEntry (k : K) : List (K × V) → Option V
  | [] => none
  | (k', v') :: rest => if k = k' then some v' else findEntry k rest

theorem mem_insertEntry {k : K} {v : V} {e : K × V} {l : List (K × V)}
    (h : e ∈ insertEntry k v l) : e = (k, v) ∨ e ∈ l := by
  induction l with
  | nil => simpa [insertEntry] using h
  | cons hd tl ih =>
    obtain ⟨k', v'⟩ := hd
    rw [insertEntry] at h
    split_ifs at h <;> grind

theorem pairwise_insertEntry (k : K) (v : V) {l : List (K × V)}
    (h : l.Pairwise (fun a b => a.1 < b.1)) :
    (insertEntry k v l).Pairwise (fun a b => a.1 < b.1) := by
  induction l with
  | nil => simp [insertEntry]
  | cons hd tl ih =>
    obtain ⟨k', v'⟩ := hd
    obtain ⟨hHead, hTail⟩ := List.pairwise_cons.mp h
    rw [insertEntry]
    split_ifs with hLt hEq
    · refine List.pairwise_cons.mpr ⟨?_, h⟩
      intro e he
      rcases List.mem_cons.mp he with rfl | he
      · exact hLt
      · exact hLt.trans (hHead e he)
    · subst hEq
      exact List.pairwise_cons.mpr ⟨hHead, hTail⟩
    · have hGt : k' < k := lt_of_le_of_ne (not_lt.mp hLt) (Ne.symm hEq)
      refine List.pairwise_cons.mpr ⟨?_, ih hTail⟩
      intro e he
      rcases mem_insertEntry he with rfl | he
      · exact hGt
      · exact hHead e he

theorem findEntry_insertEntry (k k' : K) (v : V) (l : List (K × V)) :
    findEntry k' (insertEntry k v l) = if k' = k then some v else findEntry k' l := by
  induction l with
  | nil => simp [insertEntry, findEntry]
  | cons hd tl ih =>
    obtain ⟨k₀, v₀⟩ := hd
    rw [insertEntry]
    split_ifs with hLt hEq <;> grind [findEntry]

theorem findEntry_eq_none {k : K} {l : List (K × V)} (h : ∀ e ∈ l, k < e.1) :
    findEntry k l = none := by
  induction l with
  | nil => rfl
  | cons hd tl ih =>
    have hHead : k < hd.1 := h hd List.mem_cons_self
    have hTail : findEntry k tl = none := ih (fun e he => h e (List.mem_cons_of_mem _ he))
    simp [findEntry, hHead.ne, hTail]

theorem entries_ext {l m : List (K × V)} (hl : l.Pairwise (fun a b => a.1 < b.1))
    (hm : m.Pairwise (fun a b => a.1 < b.1)) (h : ∀ k, findEntry k l = findEntry k m) : l = m := by
  induction l generalizing m with
  | nil =>
    cases m with
    | nil => rfl
    | cons e m =>
      have hKey := h e.1
      simp [findEntry] at hKey
  | cons e l ih =>
    cases m with
    | nil =>
      have hKey := h e.1
      simp [findEntry] at hKey
    | cons f m =>
      obtain ⟨hHead, hTail⟩ := List.pairwise_cons.mp hl
      obtain ⟨hHead', hTail'⟩ := List.pairwise_cons.mp hm
      -- the smallest key of each list is found in the other, so both are the same
      have hKeys : e.1 = f.1 := by
        rcases lt_trichotomy e.1 f.1 with hLt | hEq | hGt
        · have hFound := h e.1
          have hAbsent : findEntry e.1 m = none :=
            findEntry_eq_none (fun g hg => hLt.trans (hHead' g hg))
          simp [findEntry, hLt.ne, hAbsent] at hFound
        · exact hEq
        · have hFound := h f.1
          have hAbsent : findEntry f.1 l = none :=
            findEntry_eq_none (fun g hg => hGt.trans (hHead g hg))
          simp [findEntry, hGt.ne, hAbsent] at hFound
      have hVals : e.2 = f.2 := by
        have hFound := h e.1
        simpa [findEntry, hKeys] using hFound
      have hRest : ∀ k, findEntry k l = findEntry k m := by
        intro k
        by_cases hk : k = e.1
        · subst hk
          rw [findEntry_eq_none hHead, findEntry_eq_none (fun g hg => hKeys ▸ hHead' g hg)]
        · have hFound := h k
          simpa [findEntry, hk, hKeys ▸ hk] using hFound
      rw [ih hTail hTail' hRest, Prod.ext hKeys hVals]

/-- A finite map, kept as its entries in key order. -/
structure KeyMap (K V : Type) [LinearOrder K] where
  entries : List (K × V)
  sorted : entries.Pairwise (fun a b => a.1 < b.1)

namespace KeyMap

def empty : KeyMap K V := ⟨[], List.Pairwise.nil⟩

def get (m : KeyMap K V) (k : K) : Option V := findEntry k m.entries

def containsKey (m : KeyMap K V) (k : K) : Bool := (m.get k).isSome

def insert (m : KeyMap K V) (k : K) (v : V) : KeyMap K V :=
  ⟨insertEntry k v m.entries, pairwise_insertEntry k v m.sorted⟩

/-- The values in key order. -/
def values (m : KeyMap K V) : List V := m.entries.map Prod.snd

instance [DecidableEq V] : DecidableEq (KeyMap K V) := fun m n =>
  decidable_of_iff (m.entries = n.entries) (by cases m; cases n; simp)

@[simp] theorem get_empty (k : K) : (empty : KeyMap K V).get k = none := rfl

@[simp] theorem containsKey_empty (k : K) : (empty : KeyMap K V).containsKey k = false := rfl

theorem get_insert (m : KeyMap K V) (k k' : K) (v : V) :
    (m.insert k v).get k' = if k' = k then some v else m.get k' :=
  findEntry_insertEntry k k' v m.entries

@[simp] theorem get_insert_self (m : KeyMap K V) (k : K) (v : V) :
    (m.insert k v).get k = some v := by
  simp [get_insert]

theorem containsKey_eq_true {m : KeyMap K V} {k : K} :
    m.containsKey k = true ↔ ∃ v, m.get k = some v := by
  simp [containsKey, Option.isSome_iff_exists]

theorem containsKey_eq_false {m : KeyMap K V} {k : K} :
    m.containsKey k = false ↔ m.get k = none := by
  simp [containsKey]

theorem ext_get {m n : KeyMap K V} (h : ∀ k, m.get k = n.get k) : m = n := by
  have hEntries : m.entries = n.entries := entries_ext m.sorted n.sorted h
  cases m
  cases n
  simpa using hEntries

theorem mem_entries {m : KeyMap K V} {k : K} {v : V} :
    (k, v) ∈ m.entries ↔ m.get k = some v := by
  obtain ⟨l, hl⟩ := m
  simp only [get]
  induction l with
  | nil => simp [findEntry]
  | cons e l ih =>
    obtain ⟨hHead, hTail⟩ := List.pairwise_cons.mp hl
    by_cases hk : k = e.1
    · subst hk
      have hNot : (e.1, v) ∉ l := by
        intro hMem
        exact lt_irrefl e.1 (hHead (e.1, v) hMem)
      simp [findEntry, hNot, Prod.ext_iff, eq_comm]
    · simp [findEntry, hk, Prod.ext_iff, ih hTail]

/-- Inserts a list of pairs one after the other. -/
def insertAll (m : KeyMap K V) (l : List (K × V)) : KeyMap K V :=
  l.foldl (fun m e => m.insert e.1 e.2) m

theorem get_insertAll {m : KeyMap K V} {l : List (K × V)}
    (hl : l.Pairwise (fun a b => a.1 < b.1)) (k : K) :
    (m.insertAll l).get k = (findEntry k l).or (m.get k) := by
  induction l generalizing m with
  | nil => simp [insertAll, findEntry]
  | cons e l ih =>
    obtain ⟨hHead, hTail⟩ := List.pairwise_cons.mp hl
    have hStep : (m.insertAll (e :: l)).get k = ((m.insert e.1 e.2).insertAll l).get k := rfl
    rw [hStep, ih hTail, get_insert]
    by_cases hk : k = e.1
    · subst hk
      simp [findEntry, findEntry_eq_none hHead]
    · simp [findEntry, hk]

theorem insertAll_entries (m : KeyMap K V) : empty.insertAll m.entries = m := by
  apply ext_get
  intro k
  rw [get_insertAll m.sorted, get_empty, Option.or_none]
  rfl

theorem insertAll_take_succ (m : KeyMap K V) {l : List (K × V)} {i : Nat} {k : K} {v : V}
    (h : l[i]? = some (k, v)) :
    m.insertAll (l.take (i + 1)) = (m.insertAll (l.take i)).insert k v := by
  rw [List.take_add_one, h, insertAll, List.foldl_append]
  rfl

/-- The keys in front of an entry are not its own. -/
theorem get_insertAll_take {m : KeyMap K V} {i : Nat} {k : K} {v : V}
    (h : m.entries[i]? = some (k, v)) : (empty.insertAll (m.entries.take i)).get k = none := by
  have hSplit := m.sorted
  rw [← List.take_append_drop i m.entries, List.pairwise_append] at hSplit
  obtain ⟨hSorted, -, hCross⟩ := hSplit
  have hBehind : (k, v) ∈ m.entries.drop i :=
    List.mem_of_getElem? (i := 0) (by rw [List.getElem?_drop, Nat.add_zero, h])
  rw [get_insertAll hSorted, get_empty, Option.or_none]
  cases hFound : findEntry k (m.entries.take i) with
  | none => rfl
  | some w =>
    have hMem : (k, w) ∈ m.entries.take i :=
      (mem_entries (m := ⟨m.entries.take i, hSorted⟩)).mpr hFound
    exact absurd (hCross _ hMem _ hBehind) (lt_irrefl k)

/-! ## Index maps -/

/-- Every key of the list under its position. -/
def indexOf (keys : List K) : KeyMap K Nat := empty.insertAll keys.zipIdx

@[simp] theorem indexOf_nil : indexOf ([] : List K) = empty := rfl

theorem indexOf_append_singleton (keys : List K) (k : K) :
    indexOf (keys ++ [k]) = (indexOf keys).insert k keys.length := by
  simp [indexOf, insertAll, List.zipIdx_append]

theorem get_indexOf {keys : List K} (h : keys.Nodup) {k : K} {i : Nat} :
    (indexOf keys).get k = some i ↔ keys[i]? = some k := by
  induction keys using List.reverseRecOn generalizing i with
  | nil => simp
  | append_singleton keys k' ih =>
    obtain ⟨hKeys, hNew⟩ : keys.Nodup ∧ k' ∉ keys := by
      have hSplit := List.nodup_append.mp h
      exact ⟨hSplit.1, fun hMem => hSplit.2.2 k' hMem k' (by simp) rfl⟩
    rw [indexOf_append_singleton, get_insert]
    by_cases hk : k = k'
    · subst hk
      rw [if_pos rfl, List.getElem?_append]
      by_cases hi : i < keys.length
      · have hOther : keys[i] ≠ k := fun hEq => hNew (hEq ▸ List.getElem_mem hi)
        simp only [hi, if_true, List.getElem?_eq_getElem, Option.some.injEq]
        constructor
        · intro hLen
          omega
        · exact fun hEq => absurd hEq hOther
      · simp only [hi, if_false, Option.some.injEq, List.getElem?_singleton]
        split <;> simp <;> omega
    · rw [if_neg hk, ih hKeys, List.getElem?_append]
      by_cases hi : i < keys.length
      · simp [hi]
      · simp only [hi, if_false, List.getElem?_singleton,
          List.getElem?_eq_none (Nat.le_of_not_lt hi)]
        split <;> simp [Ne.symm hk]

theorem containsKey_indexOf {keys : List K} (h : keys.Nodup) {k : K} :
    (indexOf keys).containsKey k = true ↔ k ∈ keys := by
  rw [containsKey_eq_true, List.mem_iff_getElem?]
  simp only [get_indexOf h]

/-! ## Removing a key -/

/-- The map without the key. -/
def erase (m : KeyMap K V) (k : K) : KeyMap K V :=
  ⟨m.entries.filter (fun e => e.1 ≠ k), m.sorted.filter _⟩

/-- The number of keys. -/
def size (m : KeyMap K V) : Nat := m.entries.length

/-- The keys in order. -/
def keys (m : KeyMap K V) : List K := m.entries.map Prod.fst

theorem mem_keys {m : KeyMap K V} {k : K} : k ∈ m.keys ↔ ∃ v, m.get k = some v := by
  simp [keys, mem_entries]

theorem nodup_keys (m : KeyMap K V) : m.keys.Nodup := by
  refine List.pairwise_map.mpr (m.sorted.imp ?_)
  exact fun h => h.ne

@[simp] theorem length_keys (m : KeyMap K V) : m.keys.length = m.size := by simp [keys, size]

theorem get_erase (m : KeyMap K V) (k k' : K) :
    (m.erase k).get k' = if k' = k then none else m.get k' := by
  have hEntry : ∀ v, (m.erase k).get k' = some v ↔ k' ≠ k ∧ m.get k' = some v := by
    intro v
    rw [← mem_entries, ← mem_entries, erase, List.mem_filter]
    simp [and_comm]
  cases hGet : (m.erase k).get k' with
  | some v =>
    obtain ⟨hNe, hOld⟩ := (hEntry v).mp hGet
    rw [if_neg hNe, hOld]
  | none =>
    split
    case isTrue => rfl
    case isFalse hNe =>
      cases hOld : m.get k' with
      | none => rfl
      | some v => rw [(hEntry v).mpr ⟨hNe, hOld⟩] at hGet; cases hGet

@[simp] theorem get_erase_self (m : KeyMap K V) (k : K) : (m.erase k).get k = none := by
  simp [get_erase]

/-- Maps with the same keys, apart from one that only the second has. -/
theorem keys_perm_cons {W : Type} {m : KeyMap K V} {n : KeyMap K W} {k : K} (hNew : k ∉ m.keys)
    (h : ∀ k', k' ∈ n.keys ↔ k' = k ∨ k' ∈ m.keys) : n.keys.Perm (k :: m.keys) := by
  refine (List.perm_ext_iff_of_nodup n.nodup_keys
    (List.nodup_cons.mpr ⟨hNew, m.nodup_keys⟩)).mpr ?_
  intro k'
  rw [h, List.mem_cons]

theorem mem_keys_insert {m : KeyMap K V} {k k' : K} {v : V} :
    k' ∈ (m.insert k v).keys ↔ k' = k ∨ k' ∈ m.keys := by
  simp only [mem_keys, get_insert]
  by_cases hk : k' = k <;> simp [hk]

theorem mem_keys_erase {m : KeyMap K V} {k k' : K} :
    k' ∈ (m.erase k).keys ↔ k' ≠ k ∧ k' ∈ m.keys := by
  simp only [mem_keys, get_erase]
  by_cases hk : k' = k <;> simp [hk]

theorem not_mem_keys {m : KeyMap K V} {k : K} : k ∉ m.keys ↔ m.get k = none := by
  rw [mem_keys]
  cases m.get k <;> simp

theorem keys_insert_perm {m : KeyMap K V} {k : K} (v : V) (h : m.get k = none) :
    (m.insert k v).keys.Perm (k :: m.keys) :=
  keys_perm_cons (not_mem_keys.mpr h) fun _ => mem_keys_insert

theorem keys_perm_erase {m : KeyMap K V} {k : K} {v : V} (h : m.get k = some v) :
    m.keys.Perm (k :: (m.erase k).keys) := by
  have hGone : k ∉ (m.erase k).keys := by simp [mem_keys_erase]
  refine keys_perm_cons hGone fun k' => ?_
  rw [mem_keys_erase]
  by_cases hk : k' = k
  · subst hk
    simp [mem_keys, h]
  · simp [hk]

theorem size_indexOf {keys : List K} (h : keys.Nodup) : (indexOf keys).size = keys.length := by
  have hPerm : (indexOf keys).keys.Perm keys := by
    refine (List.perm_ext_iff_of_nodup (nodup_keys _) h).mpr fun k => ?_
    rw [mem_keys, ← containsKey_eq_true, containsKey_indexOf h]
  rw [← length_keys, hPerm.length_eq]

end KeyMap

end TulyaStore.Lib
