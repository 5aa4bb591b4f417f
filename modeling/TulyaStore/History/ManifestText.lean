import Mathlib.Data.Nat.Digits.Lemmas
import TulyaStore.History.Manifest

/-!
# A reader for the texts of manifests

`readJson` reads the JSON texts without escapes, lists, booleans, signs and fractions, and so every
text a manifest is written as (`readJson_manifest`). What is proved of an arbitrary reader of
manifests holds of this one.
-/

namespace TulyaStore.History

open Lib Sequence

/-! ## Tokens -/

def isBlank (byte : UInt8) : Bool := byte = 32 || byte = 9 || byte = 10 || byte = 13

def isDigit (byte : UInt8) : Bool := decide (48 ≤ byte.toNat ∧ byte.toNat ≤ 57)

/-- A byte that stands for itself inside a string. -/
def isPlain (byte : UInt8) : Bool := decide (byte ≠ 34 ∧ byte ≠ 92 ∧ 32 ≤ byte.toNat)

def skipBlanks (text : Bytes) : Bytes := text.dropWhile isBlank

/-- What is behind a word that comes next. -/
def expect (word text : Bytes) : Option Bytes :=
  if (skipBlanks text).take word.length = word then some ((skipBlanks text).drop word.length)
  else none

/-- The digits at the front; a zero stands alone. -/
def readNumber (text : Bytes) : Option (JsonValue × Bytes) :=
  let digits := text.takeWhile isDigit
  if digits = [] ∨ digits.head? = some 48 ∧ 1 < digits.length then none
  else
    let value := Nat.ofDigits 10 (digits.reverse.map fun digit => digit.toNat - 48)
    some (if value < width 64 then .number value else .other, text.dropWhile isDigit)

/-- The string behind its opening quote, with what is behind its closing one. -/
def readString (text : Bytes) : Option (Bytes × Bytes) := do
  let rest ← expect (ascii "\"") (text.dropWhile isPlain)
  some (text.takeWhile isPlain, rest)

/-! ## Values -/

mutual

def readValue : Nat → Bytes → Option (JsonValue × Bytes)
  | 0, _ => none
  | fuel + 1, text =>
    match expect (ascii "\"") text, expect (ascii "\x7b") text, expect (ascii "null") text with
    | some rest, _, _ => do
      let (text, rest) ← readString rest
      some (.string text, rest)
    | none, some rest, _ => do
      let (members, rest) ← readMembers fuel rest
      some (.object members, rest)
    | none, none, some rest => some (.null, rest)
    | none, none, none => readNumber (skipBlanks text)

/-- The members of an object up to its closing brace. -/
def readMembers : Nat → Bytes → Option (List (Bytes × JsonValue) × Bytes)
  | 0, _ => none
  | fuel + 1, text => do
    let rest ← expect (ascii "\"") text
    let (key, rest) ← readString rest
    let rest ← expect (ascii ":") rest
    let (value, rest) ← readValue fuel rest
    match expect (ascii "\x7d") rest with
    | some rest => some ([(key, value)], rest)
    | none => do
      let rest ← expect (ascii ",") rest
      let (others, rest) ← readMembers fuel rest
      some ((key, value) :: others, rest)

end

/-- The value of a text that has nothing but blanks behind it. -/
def readJson (text : Bytes) : Option JsonValue := do
  let (value, rest) ← readValue (text.length + 1) text
  if skipBlanks rest = [] then some value else none

/-! ## What is written is read -/

variable {text rest : Bytes} {fuel : Nat}

theorem expect_word (word : Bytes) {first : UInt8} (tail : Bytes) (hWord : word = first :: tail)
    (hFirst : isBlank first = false) : expect word (word ++ rest) = some rest := by
  have hBlank : skipBlanks (word ++ rest) = word ++ rest := by
    rw [hWord, List.cons_append, skipBlanks, List.dropWhile_cons, hFirst]
    rfl
  rw [expect, hBlank, List.take_left, if_pos rfl, List.drop_left]

theorem expect_ne (word : Bytes) {first byte : UInt8} (tail rest : Bytes)
    (hWord : word = first :: tail) (hByte : isBlank byte = false) (hNe : byte ≠ first) :
    expect word (byte :: rest) = none := by
  have hBlank : skipBlanks (byte :: rest) = byte :: rest := by
    rw [skipBlanks, List.dropWhile_cons, hByte]
    rfl
  rw [expect, hBlank, if_neg]
  intro hTake
  rw [hWord, List.length_cons, List.take_succ_cons] at hTake
  exact hNe (List.head_eq_of_cons_eq hTake)

theorem expect_quote : expect (ascii "\"") (34 :: rest) = some rest :=
  expect_word (ascii "\"") [] rfl (by decide)

theorem readString_quoted (hPlain : ∀ byte ∈ text, isPlain byte = true) :
    readString (text ++ 34 :: rest) = some (text, rest) := by
  have hQuote : isPlain 34 = false := by decide
  have hDrop : (text ++ 34 :: rest).dropWhile isPlain = 34 :: rest := by
    rw [List.dropWhile_append_of_pos hPlain, List.dropWhile_cons, hQuote]
    rfl
  have hTake : (text ++ 34 :: rest).takeWhile isPlain = text := by
    rw [List.takeWhile_append_of_pos hPlain, List.takeWhile_cons, hQuote]
    exact List.append_nil _
  rw [readString, hDrop, hTake, expect_quote]
  rfl

theorem digit_toNat {digit : Nat} (h : digit < 10) : (UInt8.ofNat (48 + digit)).toNat =
    48 + digit := by
  rw [UInt8.toNat_ofNat']
  exact Nat.mod_eq_of_lt (by omega)

theorem decimal_isDigit (n : Nat) : ∀ byte ∈ decimal n, isDigit byte = true := by
  intro byte hMem
  unfold decimal at hMem
  split at hMem
  case isTrue =>
    rw [List.mem_singleton.mp hMem]
    decide
  case isFalse =>
    obtain ⟨digit, hDigit, rfl⟩ := List.mem_map.mp hMem
    have hLt := Nat.digits_lt_base (by decide : 1 < 10) (List.mem_reverse.mp hDigit)
    rw [isDigit, digit_toNat hLt]
    exact decide_eq_true (by omega)

/-- A number in front of a byte that is no digit. -/
theorem readNumber_decimal (rest : Bytes) {n : Nat} {byte : UInt8} (hFits : n < width 64)
    (hStop : isDigit byte = false) :
    readNumber (decimal n ++ byte :: rest) = some (.number n, byte :: rest) := by
  have hTake : (decimal n ++ byte :: rest).takeWhile isDigit = decimal n := by
    rw [List.takeWhile_append_of_pos (decimal_isDigit n), List.takeWhile_cons, hStop]
    exact List.append_nil _
  have hDrop : (decimal n ++ byte :: rest).dropWhile isDigit = byte :: rest := by
    rw [List.dropWhile_append_of_pos (decimal_isDigit n), List.dropWhile_cons, hStop]
    rfl
  rw [readNumber, hTake, hDrop]
  by_cases hZero : n = 0
  · subst hZero
    rfl
  · have hText : decimal n = (Nat.digits 10 n).reverse.map fun digit => UInt8.ofNat (48 + digit) :=
      if_neg hZero
    have hValue : Nat.ofDigits 10 ((decimal n).reverse.map fun digit => digit.toNat - 48) = n := by
      rw [hText, ← List.map_reverse, List.reverse_reverse, List.map_map]
      have hDigits : (Nat.digits 10 n).map ((fun digit : UInt8 => digit.toNat - 48) ∘
          fun digit => UInt8.ofNat (48 + digit)) = Nat.digits 10 n := by
        refine (List.map_congr_left fun digit hMem => ?_).trans (List.map_id' _)
        rw [Function.comp_apply, digit_toNat (Nat.digits_lt_base (by decide) hMem)]
        omega
      rw [hDigits, Nat.ofDigits_digits]
    have hHead : (decimal n).head? ≠ some 48 := by
      rw [hText, List.head?_map, List.head?_reverse,
        List.getLast?_eq_some_getLast (Nat.digits_ne_nil_iff_ne_zero.mpr hZero)]
      intro hSame
      have hLast := Nat.getLast_digit_ne_zero 10 hZero
      have hLt := Nat.digits_lt_base (by decide : 1 < 10)
        (List.getLast_mem (Nat.digits_ne_nil_iff_ne_zero.mpr hZero))
      have hByte := congrArg UInt8.toNat (Option.some.inj hSame)
      rw [digit_toNat hLt] at hByte
      exact hLast (by simpa using hByte)
    have hNonempty : decimal n ≠ [] := by
      rw [hText]
      simp only [ne_eq, List.map_eq_nil_iff, List.reverse_eq_nil_iff]
      exact Nat.digits_ne_nil_iff_ne_zero.mpr hZero
    dsimp only
    rw [if_neg (by
      intro hCases
      rcases hCases with hNil | ⟨hFirst, -⟩
      · exact hNonempty hNil
      · exact hHead hFirst), hValue, if_pos hFits]

theorem hexDigit_isPlain {value : Nat} (h : value < 16) : isPlain (hexDigit value) = true := by
  have hAll : ∀ digit < 16, isPlain (hexDigit digit) = true := by decide
  exact hAll value h

theorem hexEncode_isPlain (digest : Digest) : ∀ byte ∈ hexEncode digest, isPlain byte = true := by
  intro byte hMem
  obtain ⟨raw, -, hRaw⟩ := List.mem_flatMap.mp hMem
  have hLt := raw.toNat_lt
  rcases List.mem_cons.mp hRaw with rfl | hLow
  · exact hexDigit_isPlain (by omega)
  · rw [List.mem_singleton.mp hLow]
    exact hexDigit_isPlain (by omega)

theorem isPlain_of_all (h : text.all isPlain = true) : ∀ byte ∈ text, isPlain byte = true :=
  List.all_eq_true.mp h

/-- A member in front of the next one. -/
theorem readMembers_next (key : Bytes) {value : Bytes} {found : JsonValue}
    {others : List (Bytes × JsonValue)} {left : Bytes}
    (hKey : ∀ byte ∈ key, isPlain byte = true)
    (hValue : readValue fuel (value ++ 44 :: rest) = some (found, 44 :: rest))
    (hOthers : readMembers fuel rest = some (others, left)) :
    readMembers (fuel + 1) (34 :: (key ++ 34 :: 58 :: (value ++ 44 :: rest))) =
      some ((key, found) :: others, left) := by
  have hColon : expect (ascii ":") (58 :: (value ++ 44 :: rest)) = some (value ++ 44 :: rest) := rfl
  have hBrace : expect (ascii "\x7d") (44 :: rest) = none := rfl
  have hComma : expect (ascii ",") (44 :: rest) = some rest := rfl
  rw [readMembers.eq_def]
  simp only [Option.bind_eq_bind, Option.bind_some, expect_quote, readString_quoted hKey, hColon,
    hValue, hBrace, hComma, hOthers]

/-- The last member. -/
theorem readMembers_last (key value : Bytes) (found : JsonValue)
    (hKey : ∀ byte ∈ key, isPlain byte = true)
    (hValue : readValue fuel (value ++ 125 :: rest) = some (found, 125 :: rest)) :
    readMembers (fuel + 1) (34 :: (key ++ 34 :: 58 :: (value ++ 125 :: rest))) =
      some ([(key, found)], rest) := by
  have hColon : expect (ascii ":") (58 :: (value ++ 125 :: rest)) = some (value ++ 125 :: rest) :=
    rfl
  have hBrace : expect (ascii "\x7d") (125 :: rest) = some rest := rfl
  rw [readMembers.eq_def]
  simp only [Option.bind_eq_bind, Option.bind_some, expect_quote, readString_quoted hKey, hColon,
    hValue, hBrace]

theorem readValue_string (hPlain : ∀ byte ∈ text, isPlain byte = true) :
    readValue (fuel + 1) (34 :: (text ++ 34 :: rest)) = some (.string text, rest) := by
  rw [readValue.eq_def]
  simp only [Option.bind_eq_bind, Option.bind_some, expect_quote, readString_quoted hPlain]

theorem readValue_object {members : List (Bytes × JsonValue)}
    (hMembers : readMembers fuel text = some (members, rest)) :
    readValue (fuel + 1) (123 :: text) = some (.object members, rest) := by
  have hQuote : expect (ascii "\"") (123 :: text) = none := rfl
  have hBrace : expect (ascii "\x7b") (123 :: text) = some text := rfl
  rw [readValue.eq_def]
  simp only [Option.bind_eq_bind, Option.bind_some, hQuote, hBrace, hMembers]

theorem readValue_number {n : Nat} {byte : UInt8} (hFits : n < width 64)
    (hStop : isDigit byte = false) :
    readValue (fuel + 1) (decimal n ++ byte :: rest) = some (.number n, byte :: rest) := by
  have hRead := readNumber_decimal rest hFits hStop
  obtain ⟨first, digits, hText⟩ : ∃ first digits, decimal n = first :: digits := by
    unfold decimal
    split
    case isTrue => exact ⟨48, [], rfl⟩
    case isFalse hZero =>
      refine List.exists_cons_of_ne_nil ?_
      simp only [ne_eq, List.map_eq_nil_iff, List.reverse_eq_nil_iff]
      exact Nat.digits_ne_nil_iff_ne_zero.mpr hZero
  have hFirst := decimal_isDigit n first (by rw [hText]; exact List.mem_cons_self)
  rw [hText, List.cons_append] at hRead ⊢
  have hNot : ∀ other : UInt8, isDigit other = false → first ≠ other := by
    intro other hOther hSame
    rw [hSame, hOther] at hFirst
    cases hFirst
  have hBlank : isBlank first = false := by
    simp [isBlank, hNot 32 (by decide), hNot 9 (by decide), hNot 10 (by decide), hNot 13
      (by decide)]
  have hSkip : skipBlanks (first :: (digits ++ byte :: rest)) =
      first :: (digits ++ byte :: rest) := by
    rw [skipBlanks, List.dropWhile_cons, hBlank]
    rfl
  have hQuote := expect_ne (ascii "\"") [] (digits ++ byte :: rest) rfl
    hBlank (hNot 34 (by decide))
  have hBrace := expect_ne (ascii "\x7b") [] (digits ++ byte :: rest) rfl
    hBlank (hNot 123 (by decide))
  have hNull := expect_ne (ascii "null") [117, 108, 108] (digits ++ byte :: rest) rfl
    hBlank (hNot 110 (by decide))
  rw [readValue.eq_def]
  simp only [hQuote, hBrace, hNull, hSkip, hRead]

/-! ## Manifests -/

theorem readValue_sealed {sealedBase : Option ManifestSealed}
    (hFits : ∀ base, sealedBase = some base → base.byteLen < width 64) :
    readValue (fuel + 4) (encodeSealed sealedBase ++ 125 :: rest) =
      some (sealedValue sealedBase, 125 :: rest) := by
  cases sealedBase with
  | none => rfl
  | some base =>
    have hString : readValue (fuel + 1)
        (34 :: (hexEncode base.sha256 ++ [34]) ++ 125 :: 125 :: rest) =
        some (.string (hexEncode base.sha256), 125 :: 125 :: rest) := by
      rw [List.cons_append, List.append_assoc]
      exact readValue_string (hexEncode_isPlain base.sha256)
    have hDigest := readMembers_last (ascii "sha256") _ _ (isPlain_of_all (by decide)) hString
    have hLen := readMembers_next (ascii "byte_len") (isPlain_of_all (by decide))
      (readValue_number (hFits base rfl) (by decide)) hDigest
    have hObject := readValue_object hLen
    have hText : encodeSealed (some base) ++ 125 :: rest =
        123 :: 34 :: (ascii "byte_len" ++ 34 :: 58 ::
        (decimal base.byteLen ++ 44 :: 34 :: (ascii "sha256" ++ 34 :: 58 ::
          ((34 :: (hexEncode base.sha256 ++ [34])) ++ 125 :: 125 :: rest)))) := by
      simp [encodeSealed, ascii]
    rw [hText]
    exact hObject

theorem readValue_manifest {manifest : HistoryManifest} (hFits : manifest.Fits) :
    readValue (fuel + 9) (encodeHistoryManifest manifest) =
      some (manifestValue manifest, [10]) := by
  obtain ⟨generation, sealedBase⟩ := manifest
  have hValue : readValue (fuel + 4) (encodeSealed sealedBase ++ 125 :: [10]) =
      some (sealedValue sealedBase, 125 :: [10]) :=
    readValue_sealed fun base hBase => (hFits.2 base hBase).2
  have hSealed := readMembers_last (ascii "sealed") _ _ (isPlain_of_all (by decide)) hValue
  have hGeneration := readMembers_next (ascii "generation") (isPlain_of_all (by decide))
    (readValue_number hFits.1 (by decide)) hSealed
  have hSchema := readMembers_next (ascii "manifest_schema") (isPlain_of_all (by decide))
    (readValue_number (n := historyManifestSchema) (by decide) (by decide)) hGeneration
  have hString : ∀ rest : Bytes, readValue (fuel + 7)
      (34 :: (historyFormatName ++ [34]) ++ 44 :: rest) =
        some (.string historyFormatName, 44 :: rest) := by
    intro rest
    rw [List.cons_append, List.append_assoc]
    exact readValue_string (isPlain_of_all (by decide))
  have hFormat := readMembers_next (ascii "format") (isPlain_of_all (by decide)) (hString _) hSchema
  have hText : encodeHistoryManifest ⟨generation, sealedBase⟩ =
      123 :: 34 :: (ascii "format" ++ 34 :: 58 ::
      ((34 :: (historyFormatName ++ [34])) ++ 44 :: 34 :: (ascii "manifest_schema" ++ 34 :: 58 ::
        (decimal historyManifestSchema ++ 44 :: 34 :: (ascii "generation" ++ 34 :: 58 ::
          (decimal generation ++ 44 :: 34 :: (ascii "sealed" ++ 34 :: 58 ::
            (encodeSealed sealedBase ++ 125 :: [10])))))))) := by
    simp [encodeHistoryManifest, ascii]
  rw [hText]
  exact readValue_object hFormat

/-- The reader reads every manifest as it is written. -/
theorem readJson_manifest : ReadsManifests readJson := by
  intro manifest hFits
  have hLen : 8 ≤ (encodeHistoryManifest manifest).length := by
    simp only [encodeHistoryManifest, List.length_append, ascii]
    simp
    omega
  obtain ⟨fuel, hFuel⟩ : ∃ fuel, (encodeHistoryManifest manifest).length + 1 = fuel + 9 :=
    ⟨(encodeHistoryManifest manifest).length - 8, by omega⟩
  rw [readJson, hFuel, readValue_manifest hFits]
  rfl

end TulyaStore.History
