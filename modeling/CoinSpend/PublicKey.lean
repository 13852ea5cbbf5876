/-
This file holds public keys in the encodings that an unlocking script may push.
-/

import CoinSpend.Digest
import CoinSpend.Secp256k1.Ecdsa

namespace CoinSpend

/-- A key keeps the encoding in which it was pushed, because its hash depends on that. -/
inductive PublicKey where
  | compressed (odd : Bool) (x : Octets 32)
  | uncompressed (x y : Octets 32)
deriving DecidableEq

def PublicKey.isCompressed : PublicKey → Bool
  | .compressed _ _ => true
  | .uncompressed _ _ => false

def parityTag (odd : Bool) : UInt8 := if odd then 0x03 else 0x02

def PublicKey.compressedOctets (odd : Bool) (x : Octets 32) : Octets 33 :=
  ⟨parityTag odd :: x.bytes, by simp [x.length_eq]⟩

def PublicKey.uncompressedOctets (x y : Octets 32) : Octets 65 :=
  ⟨0x04 :: (x.bytes ++ y.bytes), by simp [x.length_eq, y.length_eq]⟩

def PublicKey.bytes : PublicKey → Bytes
  | .compressed odd x => (compressedOctets odd x).bytes
  | .uncompressed x y => (uncompressedOctets x y).bytes

/-- The tag and the size decide; no coordinate is looked at. -/
def PublicKey.ofBytes : Bytes → Except CredentialFault PublicKey
  | [] => .error (.unsupportedKey 0 none)
  | tag :: body =>
      if short : body.length = 32 ∧ (tag = 0x02 ∨ tag = 0x03) then
        .ok (.compressed (tag = 0x03) ⟨body, short.1⟩)
      else if long : body.length = 64 ∧ tag = 0x04 then
        .ok (.uncompressed ⟨body.take 32, by simp [long.1]⟩ ⟨body.drop 32, by simp [long.1]⟩)
      else .error (.unsupportedKey (body.length + 1) (some tag))

/-- An uncompressed key is returned as it is, on the curve or not. -/
def PublicKey.expand : PublicKey → Except CredentialFault (Octets 65)
  | .compressed odd x => Secp256k1.decompress (compressedOctets odd x)
  | .uncompressed x y => .ok (uncompressedOctets x y)

def PublicKey.hash (key : PublicKey) : Octets 20 := Digest.keyHash key.bytes

end CoinSpend
