import TulyaStore.Lib.Machine
import TulyaStore.Lib.Bytes

/-!
# Fields of a preimage

A hashed message is a row of fields, and two rows with equal bytes have equal fields when each
field says where it ends: a number of fixed width, an array, or bytes behind their length. Each
lemma takes one field off the front of both rows.

SHA-256 is a function into digests, so it has collisions; what is assumed is that two given
messages are none (`CollisionFree`).
-/

namespace TulyaStore.Lib

variable {k m n : Nat} {xs ys : Bytes}

/-- The messages `a` and `b` are no collision of the hash. -/
def CollisionFree {α β : Type} (hash : α → β) (a b : α) : Prop := hash a = hash b → a = b

theorem CollisionFree.iff {α β : Type} {hash : α → β} {a b : α} (h : CollisionFree hash a b) :
    hash a = hash b ↔ a = b :=
  ⟨h, congrArg hash⟩

theorem leBytes_append_inj (hm : m < 256 ^ k) (hn : n < 256 ^ k)
    (h : leBytes k m ++ xs = leBytes k n ++ ys) : m = n ∧ xs = ys := by
  obtain ⟨hNumber, hRest⟩ := List.append_inj h (by simp)
  exact ⟨leBytes_injective hm hn hNumber, hRest⟩

theorem prefixed_append_inj {a b : Bytes} (ha : a.length < 256 ^ k) (hb : b.length < 256 ^ k)
    (h : leBytes k a.length ++ (a ++ xs) = leBytes k b.length ++ (b ++ ys)) : a = b ∧ xs = ys := by
  obtain ⟨hLen, hRest⟩ := leBytes_append_inj ha hb h
  exact List.append_inj hRest hLen

end TulyaStore.Lib
