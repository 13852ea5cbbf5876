/-
This file states that a signature in DER is brought to one form of fixed size, with a low second
number.
-/

import CoinSpend.Proofs.Secp256k1.Der

namespace CoinSpend.Secp256k1

theorem scalarOfDigits?_lt {digits : Bytes} {value : Nat}
    (found : scalarOfDigits? digits = some value) : value < groupOrder := by
  rw [scalarOfDigits?] at found
  split at found
  · cases found
  · simp only at found
    split at found
    · next below =>
        cases found
        exact below
    · cases found

/-- Whatever is read loosely, both numbers are in range. -/
theorem Signature.inRange_of_ofLooseDer? {bytes : Bytes} {signature : Signature}
    (read : ofLooseDer? bytes = some signature) : signature.InRange := by
  simp only [ofLooseDer?, bind, Option.bind_eq_some_iff] at read
  obtain ⟨sequence, -, body, -, ⟨r, rest⟩, -, ⟨s, last⟩, -, numbers⟩ := read
  split at numbers
  · next first second firstFound secondFound =>
      cases numbers
      exact ⟨scalarOfDigits?_lt firstFound, scalarOfDigits?_lt secondFound⟩
  · cases numbers
    exact ⟨by decide, by decide⟩

theorem Signature.normalize_of_isLow {signature : Signature} (low : signature.IsLow) :
    signature.normalize = signature := if_pos low

theorem Signature.normalize_isLow (signature : Signature) : signature.normalize.IsLow := by
  rw [normalize]
  split
  · assumption
  · next high =>
      change ¬ signature.s ≤ halfOrder at high
      change groupOrder - signature.s ≤ halfOrder
      have halves := groupOrder_eq
      omega

theorem Signature.normalize_inRange {signature : Signature} (inRange : signature.InRange) :
    signature.normalize.InRange := by
  rw [normalize]
  split
  · exact inRange
  · next high =>
      change ¬ signature.s ≤ halfOrder at high
      exact ⟨inRange.1, Nat.sub_lt (by decide) (by omega)⟩

/-- Of a number and its negative the smaller one is kept. -/
theorem Signature.normalize_eq_min (r s : Nat) :
    normalize ⟨r, s⟩ = ⟨r, min s (groupOrder - s)⟩ := by
  have halves := groupOrder_eq
  by_cases low : IsLow ⟨r, s⟩
  · rw [normalize_of_isLow low]
    change s ≤ halfOrder at low
    rw [min_eq_left (by omega)]
  · rw [normalize, if_neg low]
    change ¬ s ≤ halfOrder at low
    rw [min_eq_right (by omega)]

theorem Signature.toCompact_take (signature : Signature) :
    signature.toCompact.bytes.take 32 = toBigEndian 32 signature.r :=
  List.take_left' (length_toBigEndian 32 signature.r)

theorem Signature.toCompact_drop (signature : Signature) :
    signature.toCompact.bytes.drop 32 = toBigEndian 32 signature.s :=
  List.drop_left' (length_toBigEndian 32 signature.r)

/-- The fixed size holds every number in range. -/
theorem Signature.values_toCompact {signature : Signature} (inRange : signature.InRange) :
    ofBigEndian (signature.toCompact.bytes.take 32) = signature.r ∧
      ofBigEndian (signature.toCompact.bytes.drop 32) = signature.s := by
  rw [toCompact_take, toCompact_drop]
  exact ⟨ofBigEndian_toBigEndian (Nat.lt_trans inRange.1 (by decide)),
    ofBigEndian_toBigEndian (Nat.lt_trans inRange.2 (by decide))⟩

theorem Signature.ofCompact?_toCompact {signature : Signature} (inRange : signature.InRange) :
    ofCompact? signature.toCompact = some signature := by
  obtain ⟨first, second⟩ := values_toCompact inRange
  rw [ofCompact?]
  simp only [first, second]
  exact if_pos inRange

/-- All that normalization delivers is a low signature with both numbers in range. -/
theorem exists_low_of_normalizeDer {der : Bytes} {octets : Octets 64}
    (normalized : normalizeDer der = .ok octets) :
    ∃ signature : Signature, signature.InRange ∧ signature.IsLow ∧
      octets = signature.toCompact := by
  rw [normalizeDer] at normalized
  split at normalized
  · next signature read =>
      cases normalized
      exact ⟨signature.normalize,
        Signature.normalize_inRange (Signature.inRange_of_ofLooseDer? read),
        signature.normalize_isLow, rfl⟩
  · cases normalized

theorem normalizeDer_of_isDer {signature : Signature} (inRange : signature.InRange) {der : Bytes}
    (written : signature.IsDer der) : normalizeDer der = .ok signature.normalize.toCompact := by
  rw [(Signature.isDer_iff inRange).mp written, normalizeDer_encodeDer inRange]

/-- Both numbers of a normalized signature are in range and the second one is low. The DER forms of
a signature and of its negative are normalized to the first number and the smaller one of the two
second numbers, and the DER form of what is delivered leads back to it. -/
theorem normalizeDer_low_form :
    (∀ der octets, normalizeDer der = .ok octets →
      ofBigEndian (octets.bytes.take 32) < groupOrder ∧
        ofBigEndian (octets.bytes.drop 32) ≤ (groupOrder - 1) / 2) ∧
    (∀ r s, r < groupOrder → 1 ≤ s → s < groupOrder →
      (∃ der, Signature.IsDer ⟨r, s⟩ der) ∧
      ∀ der, Signature.IsDer ⟨r, s⟩ der ∨ Signature.IsDer ⟨r, groupOrder - s⟩ der →
        ∃ octets, normalizeDer der = .ok octets ∧
          octets.bytes = toBigEndian 32 r ++ toBigEndian 32 (min s (groupOrder - s))) ∧
    (∀ der octets again, normalizeDer der = .ok octets →
      Signature.IsDer ⟨ofBigEndian (octets.bytes.take 32), ofBigEndian (octets.bytes.drop 32)⟩
        again → normalizeDer again = .ok octets) := by
  refine ⟨?_, ?_, ?_⟩
  · intro der octets normalized
    obtain ⟨signature, inRange, low, rfl⟩ := exists_low_of_normalizeDer normalized
    obtain ⟨first, second⟩ := Signature.values_toCompact inRange
    rw [first, second]
    exact ⟨inRange.1, low⟩
  · intro r s below positive small
    have inRange : Signature.InRange ⟨r, s⟩ := ⟨below, small⟩
    have negatedInRange : Signature.InRange ⟨r, groupOrder - s⟩ :=
      ⟨below, Nat.sub_lt (by decide) positive⟩
    refine ⟨⟨_, (Signature.isDer_iff inRange).mpr rfl⟩, ?_⟩
    rintro der (written | negated)
    · refine ⟨_, normalizeDer_of_isDer inRange written, ?_⟩
      rw [Signature.normalize_eq_min r s]
      rfl
    · refine ⟨_, normalizeDer_of_isDer negatedInRange negated, ?_⟩
      rw [Signature.normalize_negated r small, Signature.normalize_eq_min r s]
      rfl
  · intro der octets again normalized written
    obtain ⟨signature, inRange, low, rfl⟩ := exists_low_of_normalizeDer normalized
    obtain ⟨first, second⟩ := Signature.values_toCompact inRange
    rw [first, second] at written
    rw [normalizeDer_of_isDer inRange written, Signature.normalize_of_isLow low]

/-- The largest second number is folded to one, and the DER form of the result leads back to it. -/
theorem normalizeDer_mirrored :
    ∃ octets, normalizeDer (Signature.encodeDer ⟨1, groupOrder - 1⟩) = .ok octets ∧
      octets.bytes = toBigEndian 32 1 ++ toBigEndian 32 1 ∧
      ofBigEndian (octets.bytes.drop 32) ≤ (groupOrder - 1) / 2 ∧
      normalizeDer (Signature.encodeDer ⟨1, 1⟩) = .ok octets := by
  have high : Signature.IsDer ⟨1, groupOrder - 1⟩ (Signature.encodeDer ⟨1, groupOrder - 1⟩) :=
    (Signature.isDer_iff (by decide)).mpr rfl
  obtain ⟨octets, normalized, written⟩ := (normalizeDer_low_form.2.1 1 (groupOrder - 1)
    (by decide) (by decide) (by decide)).2 _ (.inl high)
  have ones : octets.bytes = toBigEndian 32 1 ++ toBigEndian 32 1 := written
  have first : ofBigEndian (octets.bytes.take 32) = 1 := by
    rw [ones]
    decide
  have second : ofBigEndian (octets.bytes.drop 32) = 1 := by
    rw [ones]
    decide
  refine ⟨octets, normalized, ones, (normalizeDer_low_form.1 _ octets normalized).2,
    normalizeDer_low_form.2.2 _ octets _ normalized ?_⟩
  rw [first, second]
  exact (Signature.isDer_iff (by decide)).mpr rfl

end CoinSpend.Secp256k1
