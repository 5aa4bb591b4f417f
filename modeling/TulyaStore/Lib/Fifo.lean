import Mathlib.Data.List.Perm.Basic
import TulyaStore.Lib.KeyMap

/-!
# A bounded cache

A `FifoCache` keeps answers under their keys and the keys in the order they came; when it holds
more than its capacity it drops the oldest. `Sound` says that what it keeps is true, and that
the keys in order are the keys of the map. A put keeps a sound cache sound and finds its own
answer again (`put_sound`), so that asking through the cache is asking the source.
-/

namespace TulyaStore.Lib

variable {K V ε : Type} [LinearOrder K]

structure FifoCache (K V : Type) [LinearOrder K] where
  kept : KeyMap K V
  order : List K

namespace FifoCache

def empty : FifoCache K V := ⟨.empty, []⟩

/-- Drops the oldest answer of a cache that holds too many. -/
def trim (capacity : Nat) (noOldest : ε) (cache : FifoCache K V) : Except ε (FifoCache K V) :=
  if capacity < cache.kept.size then
    match cache.order with
    | [] => .error noOldest
    | oldest :: rest => .ok ⟨cache.kept.erase oldest, rest⟩
  else .ok cache

def put (capacity : Nat) (noOldest : ε) (key : K) (value : V) (cache : FifoCache K V) :
    Except ε (FifoCache K V) :=
  trim capacity noOldest ⟨cache.kept.insert key value, cache.order ++ [key]⟩

/-- The cache keeps true answers, no more than its capacity, and their keys in order. -/
structure Sound (capacity : Nat) (answer : K → V → Prop) (cache : FifoCache K V) : Prop where
  keys : cache.order.Perm cache.kept.keys
  size : cache.kept.size ≤ capacity
  answers : ∀ key value, cache.kept.get key = some value → answer key value

variable {capacity : Nat} {answer : K → V → Prop} {cache : FifoCache K V} {key : K} {value : V}

theorem sound_empty : Sound capacity answer (empty : FifoCache K V) where
  keys := .refl []
  size := Nat.zero_le capacity
  answers := by
    intro key value h
    cases h

/-- A new answer is kept, and what the cache keeps beside it is what it kept before. -/
theorem put_sound (h : Sound capacity answer cache) (hCapacity : 1 ≤ capacity)
    (hNew : cache.kept.get key = none) (hTrue : answer key value) (noOldest : ε) :
    ∃ cache', cache.put capacity noOldest key value = .ok cache' ∧ Sound capacity answer cache' ∧
      cache'.kept.get key = some value := by
  have hKeys : (cache.order ++ [key]).Perm (cache.kept.insert key value).keys := by
    refine List.perm_append_comm.trans ?_
    refine ((h.keys.cons key).trans ?_)
    exact (KeyMap.keys_insert_perm value hNew).symm
  have hAnswers : ∀ k v, (cache.kept.insert key value).get k = some v → answer k v := by
    intro k v hGet
    rw [KeyMap.get_insert] at hGet
    by_cases hk : k = key
    · rw [if_pos hk] at hGet
      cases hGet
      rw [hk]
      exact hTrue
    · rw [if_neg hk] at hGet
      exact h.answers k v hGet
  have hSize : (cache.kept.insert key value).size = cache.kept.size + 1 := by
    rw [← KeyMap.length_keys, (KeyMap.keys_insert_perm value hNew).length_eq, List.length_cons,
      KeyMap.length_keys]
  have hBound := h.size
  rw [put, trim]
  by_cases hFull : capacity < (cache.kept.insert key value).size
  · rw [if_pos hFull]
    cases hOrder : cache.order with
    | nil =>
      -- an empty cache never overflows
      have hZero := h.keys.length_eq
      rw [hOrder, List.length_nil, KeyMap.length_keys] at hZero
      omega
    | cons oldest rest =>
      rw [hOrder] at hKeys
      have hMem : oldest ∈ (cache.kept.insert key value).keys := hKeys.subset List.mem_cons_self
      obtain ⟨v, hGet⟩ := KeyMap.mem_keys.mp hMem
      have hErase := KeyMap.keys_perm_erase hGet
      have hRest : (rest ++ [key]).Perm ((cache.kept.insert key value).erase oldest).keys :=
        List.Perm.cons_inv (hKeys.trans hErase)
      have hNe : key ≠ oldest := by
        intro hEq
        have hOld : oldest ∈ cache.kept.keys := by
          refine h.keys.subset ?_
          rw [hOrder]
          exact List.mem_cons_self
        rw [← hEq] at hOld
        exact KeyMap.not_mem_keys.mpr hNew hOld
      refine ⟨_, rfl, ⟨hRest, ?_, ?_⟩, ?_⟩
      · have hLen := hErase.length_eq
        rw [List.length_cons, KeyMap.length_keys, KeyMap.length_keys] at hLen
        dsimp only
        omega
      · intro k v' hGet'
        rw [KeyMap.get_erase] at hGet'
        by_cases hk : k = oldest
        · rw [if_pos hk] at hGet'
          cases hGet'
        · rw [if_neg hk] at hGet'
          exact hAnswers k v' hGet'
      · dsimp only
        rw [KeyMap.get_erase, if_neg hNe, KeyMap.get_insert_self]
  · rw [if_neg hFull]
    exact ⟨_, rfl, ⟨hKeys, by dsimp only; omega, hAnswers⟩, KeyMap.get_insert_self ..⟩

end FifoCache

end TulyaStore.Lib
