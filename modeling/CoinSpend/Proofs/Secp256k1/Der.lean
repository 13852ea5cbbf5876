/-
This file states the rules of DER for a signature, and that the written form is the only one that
keeps them.
-/

import CoinSpend.Proofs.Secp256k1.Signature

namespace CoinSpend.Secp256k1

/-- The digits of a number in DER are the fewest whose first bit is clear. -/
structure DerDigits (value : Nat) (digits : Bytes) : Prop where
  value_eq : ofBigEndian digits = value
  unsigned : ∃ digit, digits.head? = some digit ∧ digit < 0x80
  shortest : ∀ digit rest, digits = 0x00 :: digit :: rest → 0x80 ≤ digit

/-- The digits of a scalar do not start with a zero. -/
theorem head_significantDigits {value : Nat} {digit : UInt8} {rest : Bytes}
    (digits : significantDigits value = digit :: rest) : digit ≠ 0 := by
  have stopped := List.head?_dropWhile_not (fun digit : UInt8 => decide (digit = 0))
    (toBigEndian 32 value)
  rw [← significantDigits, digits] at stopped
  simpa using stopped

/-- The written digits keep the rules. -/
theorem derDigits_signedDigits {value : Nat} (below : value < groupOrder) :
    DerDigits value (signedDigits value) := by
  have read := ofBigEndian_significantDigits below
  cases digits : significantDigits value with
  | nil =>
      have alone : signedDigits value = [0x00] := by
        rw [signedDigits, digits]
        rfl
      rw [digits] at read
      rw [alone]
      refine ⟨read, ⟨0x00, rfl, by decide⟩, ?_⟩
      intro digit rest same
      cases same
  | cons first rest =>
      have positive := head_significantDigits digits
      rw [digits] at read
      by_cases small : first < 0x80
      · have bare : signedDigits value = first :: rest := by simp [signedDigits, digits, small]
        rw [bare]
        refine ⟨read, ⟨first, rfl, small⟩, ?_⟩
        intro digit others same
        exact absurd (List.head_eq_of_cons_eq same) positive
      · have guarded : signedDigits value = 0x00 :: first :: rest := by
          simp [signedDigits, digits, small]
        rw [guarded]
        refine ⟨?_, ⟨0x00, rfl, by decide⟩, ?_⟩
        · rw [← ofBigEndian_dropZeros, List.dropWhile_cons_of_pos (by decide),
            ofBigEndian_dropZeros, read]
        · intro digit others same
          cases same
          exact UInt8.not_lt.mp small

/-- No other digits keep them. -/
theorem DerDigits.eq_signedDigits {value : Nat} {digits : Bytes} (der : DerDigits value digits)
    (below : value < groupOrder) : digits = signedDigits value := by
  have stripped : digits.dropWhile (· = 0) = significantDigits value := by
    have same : ofBigEndian digits = ofBigEndian (toBigEndian 32 value) := by
      rw [der.value_eq, ofBigEndian_toBigEndian (Nat.lt_trans below (by decide))]
    exact dropZeros_eq_of_value_eq same
  obtain ⟨first, found, small⟩ := der.unsigned
  obtain ⟨rest, rfl⟩ := List.head?_eq_some_iff.mp found
  by_cases zero : first = 0
  · subst zero
    rw [List.dropWhile_cons_of_pos (by decide)] at stripped
    cases rest with
    | nil =>
        rw [signedDigits, ← stripped]
        rfl
    | cons digit rest =>
        have high := der.shortest digit rest rfl
        have positive : digit ≠ 0 := by
          rintro rfl
          exact absurd high (by decide)
        rw [List.dropWhile_cons_of_neg (by simpa using positive)] at stripped
        simp [signedDigits, ← stripped, UInt8.not_lt.mpr high]
  · rw [List.dropWhile_cons_of_neg (by simpa using zero)] at stripped
    simp [signedDigits, ← stripped, small]

/-- An element is its tag, the count of its bytes and the bytes. -/
def derElement (tag : UInt8) (content : Bytes) : Bytes :=
  tag :: UInt8.ofNat content.length :: content

/-- A signature in DER is a sequence of two integers, short enough to state its length in one
byte. -/
def Signature.IsDer (signature : Signature) (der : Bytes) : Prop :=
  ∃ r s, DerDigits signature.r r ∧ DerDigits signature.s s ∧
    (derElement 0x02 r ++ derElement 0x02 s).length < 0x80 ∧
    der = derElement 0x30 (derElement 0x02 r ++ derElement 0x02 s)

/-- A signature in range has one form in DER. -/
theorem Signature.isDer_iff {signature : Signature} (inRange : signature.InRange) {der : Bytes} :
    signature.IsDer der ↔ der = signature.encodeDer := by
  constructor
  · rintro ⟨r, s, first, second, -, rfl⟩
    rw [first.eq_signedDigits inRange.1, second.eq_signedDigits inRange.2]
    rfl
  · rintro rfl
    refine ⟨signedDigits signature.r, signedDigits signature.s,
      derDigits_signedDigits inRange.1, derDigits_signedDigits inRange.2, ?_, rfl⟩
    change (derInteger signature.r ++ derInteger signature.s).length < 0x80
    exact Nat.lt_of_le_of_lt (length_derIntegers signature.r signature.s) (by decide)

end CoinSpend.Secp256k1
