import Mathlib.Data.List.Induction
import Mathlib.Tactic.IntervalCases
import TulyaStore.Lib.Machine

/-!
# Decimal numbers in text

The digits of a number padded with zeros to a width, and the reading of an unsigned number: one
sign `+` is allowed in front, any number of digits follows, and every step is checked against
the width of the integer. A text reads as `n` when it is the padded spelling of `n` at its own
length, or a `+` and such a spelling (`parseUnsigned_eq_some`); so a number has many texts, and
one of every length (`parseUnsigned_paddedDigits`).
-/

namespace TulyaStore.Lib

/-- The last `k` decimal digits of `n`, the highest first. -/
def paddedDigits : Nat → Nat → List Char
  | 0, _ => []
  | k + 1, n => paddedDigits k (n / 10) ++ [Char.ofNat (48 + n % 10)]

/-- `to_digit(10)` -/
def digitValue (c : Char) : Option Nat :=
  if 48 ≤ c.toNat ∧ c.toNat ≤ 57 then some (c.toNat - 48) else none

/-- One more digit behind a number, checked for `w` bits. -/
def pushDigit (w value : Nat) (c : Char) : Option Nat := do
  let digit ← digitValue c
  let shifted ← checkedMul w value 10
  checkedAdd w shifted digit

def digitsValue (w : Nat) (text : List Char) : Option Nat := text.foldlM (pushDigit w) 0

/-- `parse` for an unsigned integer of `w` bits. -/
def parseUnsigned (w : Nat) : List Char → Option Nat
  | [] => none
  | ['+'] => none
  | '+' :: digits => digitsValue w digits
  | text => digitsValue w text

/-- What `strip_prefix` leaves. -/
def stripPrefix (start text : List Char) : Option (List Char) :=
  if text.take start.length = start then some (text.drop start.length) else none

/-- What `strip_suffix` leaves. -/
def stripSuffix (stop text : List Char) : Option (List Char) :=
  if text.drop (text.length - stop.length) = stop then
    some (text.take (text.length - stop.length)) else none

/-! ## Digits -/

@[simp] theorem length_paddedDigits (k n : Nat) : (paddedDigits k n).length = k := by
  induction k generalizing n with
  | zero => rfl
  | succ k ih => simp [paddedDigits, ih]

theorem toNat_digit {d : Nat} (h : d < 10) : (Char.ofNat (48 + d)).toNat = 48 + d := by
  interval_cases d <;> rfl

theorem digitValue_eq_some {c : Char} {d : Nat} :
    digitValue c = some d ↔ d < 10 ∧ c = Char.ofNat (48 + d) := by
  unfold digitValue
  constructor
  · intro h
    split at h
    case isTrue hIn =>
      obtain rfl := Option.some.inj h
      refine ⟨by omega, ?_⟩
      rw [show 48 + (c.toNat - 48) = c.toNat by omega, Char.ofNat_toNat]
    case isFalse => cases h
  · rintro ⟨hLt, rfl⟩
    rw [toNat_digit hLt, if_pos (by omega), Nat.add_sub_cancel_left]

theorem pushDigit_eq_some {w value n : Nat} {c : Char} :
    pushDigit w value c = some n ↔
      n < width w ∧ value = n / 10 ∧ c = Char.ofNat (48 + n % 10) := by
  simp only [pushDigit, Option.bind_eq_bind, Option.bind_eq_some_iff, digitValue_eq_some, checkedMul,
    tryFrom_eq_some, checkedAdd_eq_some]
  constructor
  · rintro ⟨d, ⟨hDigit, rfl⟩, _, ⟨-, rfl⟩, hLt, rfl⟩
    exact ⟨hLt, by omega, by congr 2; omega⟩
  · rintro ⟨hLt, rfl, rfl⟩
    exact ⟨n % 10, ⟨by omega, rfl⟩, _, ⟨by omega, rfl⟩, by omega, by omega⟩

/-- Digits read as `n` when they are its last digits and no higher one is missing. -/
theorem digitsValue_eq_some {w n : Nat} {text : List Char} :
    digitsValue w text = some n ↔
      n < width w ∧ n < 10 ^ text.length ∧ text = paddedDigits text.length n := by
  induction text using List.reverseRecOn generalizing n with
  | nil =>
    have hPos : 0 < width w := Nat.two_pow_pos w
    simp only [digitsValue, List.foldlM_nil, List.length_nil, Nat.pow_zero, paddedDigits, and_true,
      Nat.lt_one_iff]
    constructor
    · intro h
      obtain rfl : 0 = n := Option.some.inj h
      exact ⟨hPos, rfl⟩
    · rintro ⟨-, rfl⟩
      rfl
  | append_singleton text c ih =>
    have hSplit : digitsValue w (text ++ [c]) = (digitsValue w text).bind fun value =>
        pushDigit w value c := by
      rw [digitsValue, List.foldlM_append]
      simp [digitsValue]
    rw [hSplit, Option.bind_eq_some_iff, List.length_append, List.length_singleton, paddedDigits,
      Nat.pow_succ]
    constructor
    · rintro ⟨value, hValue, hPush⟩
      obtain ⟨hLt, rfl, rfl⟩ := pushDigit_eq_some.mp hPush
      obtain ⟨-, hBound, hText⟩ := ih.mp hValue
      refine ⟨hLt, by omega, ?_⟩
      rw [← hText]
    · rintro ⟨hLt, hBound, hText⟩
      obtain ⟨hHead, hLast⟩ := List.append_inj hText (by simp)
      refine ⟨n / 10, ih.mpr ⟨by omega, by omega, hHead⟩, pushDigit_eq_some.mpr ⟨hLt, rfl, ?_⟩⟩
      exact List.head_eq_of_cons_eq hLast

/-! ## Numbers -/

theorem parseUnsigned_eq_some {w n : Nat} {text : List Char} :
    parseUnsigned w text = some n ↔ ∃ digits, (text = digits ∨ text = '+' :: digits) ∧
      digits ≠ [] ∧ digitsValue w digits = some n := by
  have hPlus : ∀ rest, digitsValue w ('+' :: rest) = none := by
    intro rest
    have hDigit : digitValue '+' = none := by decide
    simp [digitsValue, List.foldlM_cons, pushDigit, hDigit]
  unfold parseUnsigned
  split
  case h_1 => simp
  case h_2 =>
    constructor
    · intro h
      cases h
    · rintro ⟨digits, rfl | hText, hNe, h⟩
      · rw [hPlus] at h
        cases h
      · exact absurd (List.tail_eq_of_cons_eq hText).symm hNe
  case h_3 digits hNe =>
    constructor
    · exact fun h => ⟨digits, .inr rfl, fun hNil => hNe (by rw [hNil]), h⟩
    · rintro ⟨other, rfl | hText, -, h⟩
      · rw [hPlus] at h
        cases h
      · obtain rfl := List.tail_eq_of_cons_eq hText
        exact h
  case h_4 hNe _ hOther =>
    constructor
    · exact fun h => ⟨text, .inl rfl, hNe, h⟩
    · rintro ⟨digits, rfl | hText, -, h⟩
      · exact h
      · exact absurd hText (hOther digits)

theorem parseUnsigned_lt {w n : Nat} {text : List Char} (h : parseUnsigned w text = some n) :
    n < width w := by
  obtain ⟨digits, -, -, hDigits⟩ := parseUnsigned_eq_some.mp h
  exact (digitsValue_eq_some.mp hDigits).1

/-- The padded spelling of a number reads as it at every width that holds its digits. -/
theorem parseUnsigned_paddedDigits {w k n : Nat} (hPos : 0 < k) (hFits : n < width w)
    (hDigits : n < 10 ^ k) : parseUnsigned w (paddedDigits k n) = some n := by
  refine parseUnsigned_eq_some.mpr ⟨_, .inl rfl, ?_, digitsValue_eq_some.mpr ⟨hFits, ?_, ?_⟩⟩
  · intro hNil
    have hLen := length_paddedDigits k n
    rw [hNil, List.length_nil] at hLen
    omega
  · rwa [length_paddedDigits]
  · rw [length_paddedDigits]

/-! ## Prefixes and suffixes -/

theorem stripPrefix_eq_some {start text rest : List Char} :
    stripPrefix start text = some rest ↔ text = start ++ rest := by
  unfold stripPrefix
  constructor
  · intro h
    split at h
    case isTrue hTake =>
      obtain rfl := Option.some.inj h
      conv_lhs => rw [← List.take_append_drop start.length text, hTake]
    case isFalse => cases h
  · rintro rfl
    rw [List.take_left, if_pos rfl, List.drop_left]

theorem stripSuffix_eq_some {stop text rest : List Char} :
    stripSuffix stop text = some rest ↔ text = rest ++ stop := by
  unfold stripSuffix
  constructor
  · intro h
    split at h
    case isTrue hDrop =>
      obtain rfl := Option.some.inj h
      conv_lhs => rw [← List.take_append_drop (text.length - stop.length) text, hDrop]
    case isFalse => cases h
  · rintro rfl
    rw [List.length_append, Nat.add_sub_cancel, List.drop_left, if_pos rfl, List.take_left]

end TulyaStore.Lib
