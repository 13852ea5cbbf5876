/-
This file states which byte strings are public keys.
-/

import CoinSpend.PublicKey

namespace CoinSpend

/-- The tag and the size of an encoded key go together. -/
inductive PublicKey.Encoding : (compressed : Bool) → Bytes → Prop
  | compressed {bytes : Bytes} (size : bytes.length = 33)
      (tag : bytes.head? = some 0x02 ∨ bytes.head? = some 0x03) : Encoding true bytes
  | uncompressed {bytes : Bytes} (size : bytes.length = 65)
      (tag : bytes.head? = some 0x04) : Encoding false bytes

theorem PublicKey.encoding_bytes (key : PublicKey) : Encoding key.isCompressed key.bytes := by
  cases key with
  | compressed odd x =>
      refine .compressed (compressedOctets odd x).length_eq ?_
      cases odd with
      | false => exact .inl rfl
      | true => exact .inr rfl
  | uncompressed x y => exact .uncompressed (uncompressedOctets x y).length_eq rfl

/-- A byte string is accepted as the key whose encoding it is. -/
theorem PublicKey.ofBytes_eq_ok {bytes : Bytes} {key : PublicKey} :
    ofBytes bytes = .ok key ↔ key.bytes = bytes := by
  constructor
  · intro accepted
    cases bytes with
    | nil => cases accepted
    | cons tag body =>
        rw [ofBytes] at accepted
        split at accepted
        · next short =>
            cases accepted
            rcases short.2 with rfl | rfl
            · rfl
            · rfl
        · split at accepted
          · next long =>
              cases accepted
              obtain ⟨-, rfl⟩ := long
              exact congrArg (List.cons 0x04) (List.take_append_drop 32 body)
          · cases accepted
  · rintro rfl
    cases key with
    | compressed odd x =>
        have short : x.bytes.length = 32 ∧ (parityTag odd = 0x02 ∨ parityTag odd = 0x03) := by
          refine ⟨x.length_eq, ?_⟩
          cases odd with
          | false => exact .inl rfl
          | true => exact .inr rfl
        have parity : decide (parityTag odd = 0x03) = odd := by
          cases odd with
          | false => rfl
          | true => rfl
        change ofBytes (parityTag odd :: x.bytes) = _
        rw [ofBytes, dif_pos short, parity]
    | uncompressed x y =>
        have size : (x.bytes ++ y.bytes).length = 64 := by
          rw [List.length_append, x.length_eq, y.length_eq]
        have notShort : ¬ ((x.bytes ++ y.bytes).length = 32 ∧
            ((0x04 : UInt8) = 0x02 ∨ (0x04 : UInt8) = 0x03)) := by
          rw [size]
          exact fun short => absurd short.1 (by decide)
        have first : (x.bytes ++ y.bytes).take 32 = x.bytes := List.take_left' x.length_eq
        have second : (x.bytes ++ y.bytes).drop 32 = y.bytes := List.drop_left' x.length_eq
        change ofBytes (0x04 :: (x.bytes ++ y.bytes)) = _
        rw [ofBytes, dif_neg notShort, dif_pos ⟨size, rfl⟩]
        simp only [first, second]

/-- Every encoding is the encoding of a key. -/
theorem PublicKey.exists_of_encoding {compressed : Bool} {bytes : Bytes}
    (encoding : Encoding compressed bytes) :
    ∃ key : PublicKey, key.bytes = bytes ∧ key.isCompressed = compressed := by
  cases encoding with
  | compressed size tag =>
      obtain ⟨first, body, rfl⟩ := List.exists_cons_of_length_eq_add_one size
      rw [List.length_cons, Nat.add_right_cancel_iff] at size
      rw [List.head?_cons, Option.some.injEq, Option.some.injEq] at tag
      rcases tag with rfl | rfl
      · exact ⟨.compressed false ⟨body, size⟩, rfl, rfl⟩
      · exact ⟨.compressed true ⟨body, size⟩, rfl, rfl⟩
  | uncompressed size tag =>
      obtain ⟨first, body, rfl⟩ := List.exists_cons_of_length_eq_add_one size
      rw [List.length_cons, Nat.add_right_cancel_iff] at size
      rw [List.head?_cons, Option.some.injEq] at tag
      have x : (body.take 32).length = 32 := by
        rw [List.length_take, size]
        rfl
      have y : (body.drop 32).length = 32 := by
        rw [List.length_drop, size]
      refine ⟨.uncompressed ⟨body.take 32, x⟩ ⟨body.drop 32, y⟩, ?_, rfl⟩
      rw [tag]
      exact congrArg (List.cons 0x04) (List.take_append_drop 32 body)

/-- What is not accepted as a key is no encoding of one. -/
theorem PublicKey.ofBytes_eq_error {bytes : Bytes} {fault : CredentialFault}
    (refused : ofBytes bytes = .error fault) (compressed : Bool) : ¬ Encoding compressed bytes := by
  intro encoding
  obtain ⟨key, written, -⟩ := exists_of_encoding encoding
  rw [ofBytes_eq_ok.mpr written] at refused
  cases refused

/-- All that can be wrong with an encoding concerns the key. -/
theorem PublicKey.concernsKey_of_ofBytes {bytes : Bytes} {fault : CredentialFault}
    (refused : ofBytes bytes = .error fault) : fault.concernsKey = true := by
  cases bytes with
  | nil =>
      cases refused
      rfl
  | cons tag body =>
      rw [ofBytes] at refused
      split at refused
      · cases refused
      · split at refused
        · cases refused
        · cases refused
          rfl

end CoinSpend
