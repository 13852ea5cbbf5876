/-
This file writes signatures in DER and states that the loose reading undoes it.
-/

import Mathlib.Data.List.DropRight
import CoinSpend.Bytes.Lemmas
import CoinSpend.Secp256k1.Ecdsa

namespace CoinSpend.Secp256k1

/-- The digits of a scalar without zeros in front. -/
def significantDigits (value : Nat) : Bytes := (toBigEndian 32 value).dropWhile (· = 0)

/-- A zero stands in front of a digit that would be read as a sign, and it stands alone for zero. -/
def signedDigits (value : Nat) : Bytes :=
  if (significantDigits value).head?.any (· < 0x80) then significantDigits value
  else 0x00 :: significantDigits value

/-- This function writes an integer as its tag, the count of its digits and the digits. -/
def derInteger (value : Nat) : Bytes :=
  0x02 :: UInt8.ofNat (signedDigits value).length :: signedDigits value

/-- The DER form of a signature is a sequence of two integers. -/
def Signature.encodeDer (signature : Signature) : Bytes :=
  let body := derInteger signature.r ++ derInteger signature.s
  0x30 :: UInt8.ofNat body.length :: body

theorem length_significantDigits (value : Nat) : (significantDigits value).length ≤ 32 := by
  have shorter := List.length_dropWhile_le (fun digit => decide (digit = 0)) (toBigEndian 32 value)
  rwa [length_toBigEndian] at shorter

theorem ofBigEndian_significantDigits {value : Nat} (below : value < groupOrder) :
    ofBigEndian (significantDigits value) = value := by
  rw [significantDigits, ofBigEndian_dropZeros, ofBigEndian_toBigEndian]
  exact Nat.lt_trans below (by decide)

theorem scalarOfDigits?_significantDigits {value : Nat} (below : value < groupOrder) :
    scalarOfDigits? (significantDigits value) = some value := by
  rw [scalarOfDigits?, if_neg (Nat.not_lt_of_le (length_significantDigits value)),
    ofBigEndian_significantDigits below]
  exact if_pos below

theorem length_signedDigits (value : Nat) : (signedDigits value).length ≤ 33 := by
  have shorter := length_significantDigits value
  rw [signedDigits]
  split
  · omega
  · rw [List.length_cons]
    omega

/-- The zero in front of a digit that would be read as a sign is dropped again. -/
theorem dropZeros_signedDigits (value : Nat) :
    (signedDigits value).dropWhile (· = 0) = significantDigits value := by
  have dropped : (significantDigits value).dropWhile (· = 0) = significantDigits value :=
    List.dropWhile_idempotent _ _
  rw [signedDigits]
  split
  · exact dropped
  · rw [List.dropWhile_cons_of_pos (by decide), dropped]

theorem toNat_shortLength {length : Nat} (short : length < 0x80) :
    (UInt8.ofNat length).toNat = length :=
  UInt8.toNat_ofNat_of_lt' (Nat.lt_trans short (by decide))

theorem readLength?_short {length : Nat} (short : length < 0x80) (rest : Bytes) :
    readLength? (UInt8.ofNat length :: rest) = some (length, rest) := by
  have below : UInt8.ofNat length < 0x80 := by
    rw [UInt8.lt_iff_toNat_lt, toNat_shortLength short]
    exact short
  rw [readLength?, if_pos below, toNat_shortLength short]

theorem dropSequenceLength?_short {length : Nat} (short : length < 0x80) (rest : Bytes) :
    dropSequenceLength? (UInt8.ofNat length :: rest) = some rest := by
  have noDigits : (UInt8.ofNat length).toNat - 0x80 = 0 := by
    rw [toNat_shortLength short]
    omega
  rw [dropSequenceLength?]
  simp only [noDigits, Nat.not_lt_zero, if_false, List.drop_zero]

/-- An integer is read up to its last digit, whatever follows. -/
theorem readInteger?_derInteger (value : Nat) (rest : Bytes) :
    readInteger? (derInteger value ++ rest) = some (significantDigits value, rest) := by
  have short : (signedDigits value).length < 0x80 :=
    Nat.lt_of_le_of_lt (length_signedDigits value) (by decide)
  have tagged : dropTag? 0x02 (derInteger value ++ rest) =
      some (UInt8.ofNat (signedDigits value).length :: (signedDigits value ++ rest)) := rfl
  have enough : ¬ (signedDigits value ++ rest).length < (signedDigits value).length := by
    rw [List.length_append]
    omega
  simp only [readInteger?, tagged, bind, Option.bind, readLength?_short short, if_neg enough,
    List.take_left, List.drop_left, dropZeros_signedDigits]

theorem length_derInteger (value : Nat) : (derInteger value).length ≤ 35 := by
  have shorter := length_signedDigits value
  rw [derInteger, List.length_cons, List.length_cons]
  omega

theorem length_derIntegers (r s : Nat) : (derInteger r ++ derInteger s).length ≤ 70 := by
  have first := length_derInteger r
  have second := length_derInteger s
  rw [List.length_append]
  omega

/-- The length of a written signature is stated in one byte, and a type fits behind it in a push. -/
theorem Signature.length_encodeDer (signature : Signature) :
    1 ≤ signature.encodeDer.length ∧ signature.encodeDer.length ≤ 74 := by
  have short := length_derIntegers signature.r signature.s
  rw [encodeDer, List.length_cons, List.length_cons]
  omega

/-- A written signature with numbers in range is read back. -/
theorem Signature.ofLooseDer?_encodeDer {signature : Signature} (inRange : signature.InRange) :
    ofLooseDer? signature.encodeDer = some signature := by
  have short : (derInteger signature.r ++ derInteger signature.s).length < 0x80 :=
    Nat.lt_of_le_of_lt (length_derIntegers signature.r signature.s) (by decide)
  have tagged : dropTag? 0x30 signature.encodeDer =
      some (UInt8.ofNat (derInteger signature.r ++ derInteger signature.s).length ::
        (derInteger signature.r ++ derInteger signature.s)) := rfl
  have last := readInteger?_derInteger signature.s []
  rw [List.append_nil] at last
  simp only [ofLooseDer?, tagged, bind, Option.bind, dropSequenceLength?_short short,
    readInteger?_derInteger, last, scalarOfDigits?_significantDigits inRange.1,
    scalarOfDigits?_significantDigits inRange.2]

example : Signature.encodeDer ⟨1, 0x80⟩ =
    [0x30, 0x07, 0x02, 0x01, 0x01, 0x02, 0x02, 0x00, 0x80] := by
  decide

theorem normalizeDer_encodeDer {signature : Signature} (inRange : signature.InRange) :
    normalizeDer signature.encodeDer = .ok signature.normalize.toCompact := by
  rw [normalizeDer, Signature.ofLooseDer?_encodeDer inRange]

/-- The group order is odd. -/
theorem groupOrder_eq : groupOrder = 2 * halfOrder + 1 := by
  decide

/-- A number and its negative lie on both sides of half the group order, and the low one is kept. -/
theorem Signature.normalize_negated (r : Nat) {s : Nat} (below : s < groupOrder) :
    normalize ⟨r, groupOrder - s⟩ = normalize ⟨r, s⟩ := by
  have halves := groupOrder_eq
  by_cases low : IsLow ⟨r, s⟩
  · have high : ¬ IsLow ⟨r, groupOrder - s⟩ := by
      change s ≤ halfOrder at low
      change ¬ groupOrder - s ≤ halfOrder
      omega
    rw [normalize, if_neg high, normalize, if_pos low, Nat.sub_sub_self below.le]
  · have negated : IsLow ⟨r, groupOrder - s⟩ := by
      change ¬ s ≤ halfOrder at low
      change groupOrder - s ≤ halfOrder
      omega
    rw [normalize, if_pos negated, normalize, if_neg low]

end CoinSpend.Secp256k1
