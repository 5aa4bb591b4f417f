import Mathlib.Data.Nat.Digits.Defs
import TulyaStore.History.Record

/-!
# The generation manifest

The manifest of a history directory (`manifest.rs`): the generation and, once something was
sealed, the length and the digest of its snapshot. It is written as compact JSON. The JSON
reader is not part of the repository, so decoding takes it as a parameter: `fromSlice` gives
the value of a text.
-/

namespace TulyaStore.History

open Lib Sequence

/-- A JSON value as the manifest reader sees it. A number that is no `u64`, and a value of any
other kind, is `other`. -/
inductive JsonValue where
  | null
  | number (value : Nat)
  | string (value : Bytes)
  | object (members : List (Bytes × JsonValue))
  | other

namespace JsonValue

def asU64 : JsonValue → Option Nat
  | number value => some value
  | _ => none

def asStr : JsonValue → Option Bytes
  | string value => some value
  | _ => none

def asObject : JsonValue → Option (List (Bytes × JsonValue))
  | object members => some members
  | _ => none

def member (members : List (Bytes × JsonValue)) (key : Bytes) : Option JsonValue :=
  (members.find? fun entry => entry.1 = key).map Prod.snd

end JsonValue

open JsonValue

def historyFormatName : Bytes := ascii "tulya-history-store"

/-- `HISTORY_MANIFEST_SCHEMA` -/
def historyManifestSchema : Nat := 1

def manifestSealedDomain : Bytes := ascii "tulya-history/v1/manifest-sealed\x00"

structure ManifestSealed where
  byteLen : Nat
  sha256 : Digest
deriving DecidableEq, Repr

structure HistoryManifest where
  generation : Nat
  sealedBase : Option ManifestSealed
deriving DecidableEq, Repr

/-! ## Text -/

/-- The decimal digits of a number. -/
def decimal (n : Nat) : Bytes :=
  if n = 0 then [48] else (Nat.digits 10 n).reverse.map fun digit => UInt8.ofNat (48 + digit)

def hexDigit (value : Nat) : UInt8 :=
  if value < 10 then UInt8.ofNat (48 + value) else UInt8.ofNat (87 + value)

/-- `hex_encode` -/
def hexEncode (digest : Digest) : Bytes :=
  digest.toList.flatMap fun byte => [hexDigit (byte.toNat / 16), hexDigit (byte.toNat % 16)]

def encodeSealed (sealedBase : Option ManifestSealed) : Bytes :=
  match sealedBase with
  | none => ascii "null"
  | some base => ascii "\x7b\"byte_len\":" ++ decimal base.byteLen ++ ascii ",\"sha256\":\"" ++
      hexEncode base.sha256 ++ ascii "\"\x7d"

def encodeHistoryManifest (manifest : HistoryManifest) : Bytes :=
  ascii "\x7b\"format\":\"" ++ historyFormatName ++ ascii "\",\"manifest_schema\":" ++
    decimal historyManifestSchema ++ ascii ",\"generation\":" ++ decimal manifest.generation ++
    ascii ",\"sealed\":" ++ encodeSealed manifest.sealedBase ++ ascii "\x7d\n"

/-! ## Reading -/

/-- `hex_value` -/
def hexValue (byte : UInt8) : Except HistoryError Nat :=
  if 48 ≤ byte.toNat ∧ byte.toNat ≤ 57 then .ok (byte.toNat - 48)
  else if 97 ≤ byte.toNat ∧ byte.toNat ≤ 102 then .ok (byte.toNat - 97 + 10)
  else .error (.invalid "history manifest sealed digest must be lowercase hex")

def decodeHexPairs : Bytes → Except HistoryError Bytes
  | high :: low :: rest => do
    let high ← hexValue high
    let low ← hexValue low
    let tail ← decodeHexPairs rest
    return UInt8.ofNat (high * 16 + low) :: tail
  | _ => return []

/-- `decode_sha256` -/
def decodeSha256 (text : Bytes) : Except HistoryError Digest := do
  failIf (text.length ≠ 64) (.invalid "history manifest sealed digest must be 64 hex characters")
  let bytes ← decodeHexPairs text
  okOr (asArray 32 bytes) (.invalid "history manifest sealed digest must be 64 hex characters")

def checkKeys (known : List Bytes) (message : String) (members : List (Bytes × JsonValue)) :
    Except HistoryError Unit :=
  failIf (¬ ∀ entry ∈ members, entry.1 ∈ known) (.invalid message)

def decodeSealedObject (value : JsonValue) : Except HistoryError ManifestSealed := do
  let members ← okOr value.asObject
    (.invalid "history manifest sealed authority must be an object")
  checkKeys [ascii "byte_len", ascii "sha256"]
    "history manifest sealed authority contains an unknown field" members
  let byteLen ← okOr ((member members (ascii "byte_len")).bind asU64)
    (.invalid "history manifest sealed byte length is missing")
  failIf (byteLen = 0) (.invalid "history manifest sealed byte length must be positive")
  let text ← okOr ((member members (ascii "sha256")).bind asStr)
    (.invalid "history manifest sealed digest is missing")
  let digest ← decodeSha256 text
  return ⟨byteLen, digest⟩

def decodeSealed (value : JsonValue) : Except HistoryError (Option ManifestSealed) :=
  match value with
  | .null => return none
  | value => do
    let base ← decodeSealedObject value
    return some base

def decodeHistoryManifest (fromSlice : Bytes → Option JsonValue) (bytes : Bytes) :
    Except HistoryError HistoryManifest := do
  let value ← okOr (fromSlice bytes) (.invalid "history manifest JSON is malformed")
  let members ← okOr value.asObject (.invalid "history manifest must be a JSON object")
  checkKeys [ascii "format", ascii "manifest_schema", ascii "generation", ascii "sealed"]
    "history manifest contains an unknown field" members
  let format ← okOr ((member members (ascii "format")).bind asStr)
    (.invalid "history manifest format is missing")
  failIf (format ≠ historyFormatName) (.invalid "history manifest format name mismatch")
  let schema ← okOr ((member members (ascii "manifest_schema")).bind asU64)
    (.invalid "history manifest schema is missing")
  failIf (schema ≠ historyManifestSchema) (.invalid "history manifest schema is unsupported")
  let generation ← okOr ((member members (ascii "generation")).bind asU64)
    (.invalid "history manifest generation is missing")
  let sealedValue ← okOr (member members (ascii "sealed"))
    (.invalid "history manifest sealed authority is missing")
  let sealedBase ← decodeSealed sealedValue
  return ⟨generation, sealedBase⟩

/-- `sealed_artifact_digest` -/
def sealedArtifactDigest (sha256 : Bytes → Digest) (bytes : Bytes) : Digest :=
  sha256 (manifestSealedDomain ++ bytes)

/-- `ManifestSealed::for_snapshot` -/
def ManifestSealed.forSnapshot (sha256 : Bytes → Digest) (snapshotBytes : Bytes) :
    ManifestSealed :=
  ⟨snapshotBytes.length, sealedArtifactDigest sha256 snapshotBytes⟩

/-! ## The written text is read back -/

/-- The value the text of a manifest stands for. -/
def sealedValue (sealedBase : Option ManifestSealed) : JsonValue :=
  match sealedBase with
  | none => .null
  | some base => .object [(ascii "byte_len", .number base.byteLen),
      (ascii "sha256", .string (hexEncode base.sha256))]

def manifestValue (manifest : HistoryManifest) : JsonValue :=
  .object [(ascii "format", .string historyFormatName),
    (ascii "manifest_schema", .number historyManifestSchema),
    (ascii "generation", .number manifest.generation),
    (ascii "sealed", sealedValue manifest.sealedBase)]

/-- The manifests a directory can hold: their numbers are `u64`. -/
def HistoryManifest.Fits (manifest : HistoryManifest) : Prop :=
  manifest.generation < width 64 ∧
    ∀ base, manifest.sealedBase = some base → 0 < base.byteLen ∧ base.byteLen < width 64

/-- The reader gives the value of the JSON texts the store writes. -/
def ReadsManifests (fromSlice : Bytes → Option JsonValue) : Prop :=
  ∀ manifest : HistoryManifest, manifest.Fits →
    fromSlice (encodeHistoryManifest manifest) = some (manifestValue manifest)

theorem hexValue_hexDigit {value : Nat} (h : value < 16) :
    hexValue (hexDigit value) = .ok value := by
  have hAll : ∀ digit < 16, hexValue (hexDigit digit) = .ok digit := by decide
  exact hAll value h

theorem decodeHexPairs_encode (bytes : Bytes) :
    decodeHexPairs (bytes.flatMap fun byte =>
      [hexDigit (byte.toNat / 16), hexDigit (byte.toNat % 16)]) = .ok bytes := by
  induction bytes with
  | nil => rfl
  | cons byte rest ih =>
    have hByte := byte.toNat_lt
    have hSplit : byte.toNat / 16 * 16 + byte.toNat % 16 = byte.toNat := by omega
    rw [List.flatMap_cons]
    change decodeHexPairs (hexDigit (byte.toNat / 16) :: hexDigit (byte.toNat % 16) ::
      rest.flatMap fun byte => [hexDigit (byte.toNat / 16), hexDigit (byte.toNat % 16)]) = _
    rw [decodeHexPairs, hexValue_hexDigit (by omega), ok_bind, hexValue_hexDigit (by omega),
      ok_bind, ih, ok_bind, hSplit, UInt8.ofNat_toNat]
    rfl

theorem length_hexEncode (digest : Digest) : (hexEncode digest).length = 64 := by
  simp [hexEncode, List.length_flatMap]

theorem decodeSha256_hexEncode (digest : Digest) : decodeSha256 (hexEncode digest) = .ok digest := by
  rw [decodeSha256, failIf_neg (by simp [length_hexEncode]), ok_bind, hexEncode,
    decodeHexPairs_encode, ok_bind, asArray_toList, okOr_some]

theorem decodeSealed_value (sealedBase : Option ManifestSealed)
    (hPos : ∀ base, sealedBase = some base → 0 < base.byteLen) :
    decodeSealed (sealedValue sealedBase) = .ok sealedBase := by
  cases sealedBase with
  | none => rfl
  | some base =>
    have hByteLen : base.byteLen ≠ 0 := (hPos base rfl).ne'
    have hLen : member [(ascii "byte_len", .number base.byteLen),
        (ascii "sha256", .string (hexEncode base.sha256))] (ascii "byte_len") =
          some (.number base.byteLen) := rfl
    have hSha : member [(ascii "byte_len", .number base.byteLen),
        (ascii "sha256", .string (hexEncode base.sha256))] (ascii "sha256") =
          some (.string (hexEncode base.sha256)) := rfl
    have hKeys : checkKeys [ascii "byte_len", ascii "sha256"]
        "history manifest sealed authority contains an unknown field"
        [(ascii "byte_len", .number base.byteLen),
          (ascii "sha256", .string (hexEncode base.sha256))] = .ok () := by
      rw [checkKeys, failIf_neg]
      simp
    simp only [sealedValue, decodeSealed, decodeSealedObject, asObject, okOr_some, ok_bind, hKeys,
      hLen, hSha, Option.bind_some, asU64, asStr, failIf_neg hByteLen, decodeSha256_hexEncode]
    rfl

/-- A manifest survives its text. -/
theorem decodeHistoryManifest_encode {fromSlice : Bytes → Option JsonValue}
    (hReads : ReadsManifests fromSlice) {manifest : HistoryManifest} (hFits : manifest.Fits) :
    decodeHistoryManifest fromSlice (encodeHistoryManifest manifest) = .ok manifest := by
  obtain ⟨generation, sealedBase⟩ := manifest
  have hKeys : checkKeys [ascii "format", ascii "manifest_schema", ascii "generation",
      ascii "sealed"] "history manifest contains an unknown field"
      [(ascii "format", .string historyFormatName),
        (ascii "manifest_schema", .number historyManifestSchema),
        (ascii "generation", .number generation),
        (ascii "sealed", sealedValue sealedBase)] = .ok () := by
    rw [checkKeys, failIf_neg]
    simp
  have hSealed := decodeSealed_value sealedBase fun base hBase => (hFits.2 base hBase).1
  have hMember : ∀ key value, member [(ascii "format", .string historyFormatName),
        (ascii "manifest_schema", .number historyManifestSchema),
        (ascii "generation", .number generation),
        (ascii "sealed", sealedValue sealedBase)] key = value →
      member [(ascii "format", .string historyFormatName),
        (ascii "manifest_schema", .number historyManifestSchema),
        (ascii "generation", .number generation),
        (ascii "sealed", sealedValue sealedBase)] key = value := fun _ _ h => h
  rw [decodeHistoryManifest, hReads _ hFits]
  simp only [manifestValue, okOr_some, ok_bind, asObject, hKeys,
    hMember (ascii "format") (some (.string historyFormatName)) rfl,
    hMember (ascii "manifest_schema") (some (.number historyManifestSchema)) rfl,
    hMember (ascii "generation") (some (.number generation)) rfl,
    hMember (ascii "sealed") (some (sealedValue sealedBase)) rfl,
    Option.bind_some, asStr, asU64, hSealed]
  rw [failIf_neg (by simp), ok_bind, failIf_neg (by simp), ok_bind]
  rfl

end TulyaStore.History
