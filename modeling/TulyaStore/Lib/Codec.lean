import TulyaStore.Lib.Outcome

/-!
# Codecs

A codec is canonical when the decoder inverts the encoder and accepts nothing else
(`CanonicalCodec`). Both directions follow from one statement about the decoder
(`CanonicalCodec.of_decode_iff`), and two encodings of one value are equal.
-/

namespace TulyaStore.Lib

variable {α β ε ε' : Type} {Bytes : Type}

theorem map_eq_ok {f : α → β} {x : Except ε α} {b : β} :
    x.map f = .ok b ↔ ∃ a, x = .ok a ∧ f a = b := by
  cases x <;> simp [Except.map]

/-- The decoder returns what was encoded up to `normal`, for the values in `Valid`, and accepts only
what the encoder writes. -/
structure CanonicalCodec (Valid : α → Prop) (normal : α → α) (encode : α → Except ε Bytes)
    (decode : Bytes → Except ε' α) : Prop where
  decode_encode : ∀ value bytes, Valid value → encode value = .ok bytes →
    decode bytes = .ok (normal value)
  encode_decode : ∀ bytes value, decode bytes = .ok value → encode value = .ok bytes
  decode_inj : ∀ bytes bytes' value, decode bytes = .ok value → decode bytes' = .ok value →
    bytes = bytes'

variable {Valid : α → Prop} {normal : α → α} {encode : α → Except ε Bytes}
  {decode : Bytes → Except ε' α}

/-- A decoder that accepts only what the encoder writes accepts one encoding of a value. -/
theorem CanonicalCodec.intro
    (hForward : ∀ value bytes, Valid value → encode value = .ok bytes →
      decode bytes = .ok (normal value))
    (hBackward : ∀ bytes value, decode bytes = .ok value → encode value = .ok bytes) :
    CanonicalCodec Valid normal encode decode where
  decode_encode := hForward
  encode_decode := hBackward
  decode_inj bytes bytes' value h h' := by
    have hEncode := hBackward bytes value h
    rw [hBackward bytes' value h', Except.ok.injEq] at hEncode
    exact hEncode.symm

/-- A decoder that accepts exactly the encodings of the values in `Ok`. -/
theorem CanonicalCodec.of_decode_iff {P : α → Prop}
    (hDecode : ∀ bytes value, decode bytes = .ok value ↔ P value ∧ encode value = .ok bytes)
    (hValid : ∀ value bytes, Valid value → encode value = .ok bytes → P value) :
    CanonicalCodec Valid id encode decode :=
  .intro (fun value bytes h hEncode => (hDecode bytes value).mpr ⟨hValid value bytes h hEncode, hEncode⟩)
    fun bytes value h => ((hDecode bytes value).mp h).2

end TulyaStore.Lib
