/-
This file verifies ECDSA signatures and converts keys and signatures to their fixed-size forms.
-/

import CoinSpend.Fault
import CoinSpend.Secp256k1.Jacobian
import CoinSpend.Secp256k1.Signature

namespace CoinSpend.Secp256k1

/-- The sum of multiples that the verification equation compares with the signature. -/
def combination (key : Point) (signature : Signature) (message : Nat) : Jacobian :=
  let inverse := scalarInverse signature.s
  (Point.base.toJacobian.scale (message * inverse % groupOrder)).add
    (key.toJacobian.scale (signature.r * inverse % groupOrder))

/-- Only low signatures with two positive numbers can be valid. -/
def Valid (key : Point) (signature : Signature) (message : Nat) : Prop :=
  0 < signature.r ∧ 0 < signature.s ∧ signature.IsLow ∧
    (combination key signature message).HasScalarX signature.r

instance (key : Point) (signature : Signature) (message : Nat) :
    Decidable (Valid key signature message) := inferInstanceAs (Decidable (_ ∧ _))

/-- This function expands a compressed key. -/
def decompress (key : Octets 33) : Except CredentialFault (Octets 65) :=
  match Point.decode? key.bytes with
  | some point => .ok point.encode
  | none => .error .malformedKey

/-- This function brings a signature into its low form of two numbers. -/
def normalizeDer (der : Bytes) : Except CredentialFault (Octets 64) :=
  match Signature.ofLooseDer? der with
  | some signature => .ok signature.normalize.toCompact
  | none => .error .malformedSignature

/-- The key is read before the signature. -/
def verify (key : Octets 65) (signature : Octets 64) (digest : Octets 32) :
    Except CredentialFault Bool :=
  match Point.decode? key.bytes with
  | none => .error .malformedKey
  | some point =>
      match Signature.ofCompact? signature with
      | none => .error .malformedSignature
      | some parts => .ok (decide (Valid point parts digest.bigEndianValue))

end CoinSpend.Secp256k1
