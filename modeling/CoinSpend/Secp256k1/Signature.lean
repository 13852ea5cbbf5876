/-
This file holds signatures, their fixed-size form and the loose reading of their DER form.
-/

import CoinSpend.Secp256k1.Field

namespace CoinSpend.Secp256k1

structure Signature where
  r : Nat
  s : Nat
deriving DecidableEq

/-- Both numbers are below the group order. -/
def Signature.InRange (signature : Signature) : Prop :=
  signature.r < groupOrder ∧ signature.s < groupOrder

instance (signature : Signature) : Decidable signature.InRange :=
  inferInstanceAs (Decidable (_ ∧ _))

def Signature.IsLow (signature : Signature) : Prop := signature.s ≤ halfOrder

instance (signature : Signature) : Decidable signature.IsLow :=
  inferInstanceAs (Decidable (_ ≤ _))

/-- A high second number is replaced by its negative. -/
def Signature.normalize (signature : Signature) : Signature :=
  if signature.IsLow then signature else ⟨signature.r, groupOrder - signature.s⟩

def Signature.toCompact (signature : Signature) : Octets 64 :=
  ⟨toBigEndian 32 signature.r ++ toBigEndian 32 signature.s, by simp⟩

def Signature.ofCompact? (octets : Octets 64) : Option Signature :=
  let signature : Signature :=
    ⟨ofBigEndian (octets.bytes.take 32), ofBigEndian (octets.bytes.drop 32)⟩
  if signature.InRange then some signature else none

/-- A tag has to match. -/
def dropTag? (tag : UInt8) : Bytes → Option Bytes
  | [] => none
  | byte :: rest => if byte = tag then some rest else none

/-- The length of the sequence is skipped and never compared with the bytes that follow. -/
def dropSequenceLength? : Bytes → Option Bytes
  | [] => none
  | byte :: rest =>
      let digits := byte.toNat - 0x80
      if rest.length < digits then none else some (rest.drop digits)

/-- A long length states the count of its digits; zeros in front do not count. -/
def readLength? : Bytes → Option (Nat × Bytes)
  | [] => none
  | byte :: rest =>
      if byte < 0x80 then some (byte.toNat, rest)
      else
        let count := byte.toNat - 0x80
        let digits := (rest.take count).dropWhile (· = 0)
        if rest.length < count ∨ 8 ≤ digits.length then none
        else some (ofBigEndian digits, rest.drop count)

/-- This function reads the digits of an integer of any size and ignores its sign; zeros in front
do not count. -/
def readInteger? (bytes : Bytes) : Option (Bytes × Bytes) := do
  let body ← dropTag? 0x02 bytes
  let (length, rest) ← readLength? body
  if rest.length < length then none
  else some ((rest.take length).dropWhile (· = 0), rest.drop length)

/-- This function gives the value of digits without a zero in front when it is below the group
order; more than 32 such digits never are. -/
def scalarOfDigits? (digits : Bytes) : Option Nat :=
  if 32 < digits.length then none
  else
    let value := ofBigEndian digits
    if value < groupOrder then some value else none

/-- Bytes behind the second integer are ignored, and a number out of range clears both. -/
def Signature.ofLooseDer? (bytes : Bytes) : Option Signature := do
  let sequence ← dropTag? 0x30 bytes
  let body ← dropSequenceLength? sequence
  let (r, rest) ← readInteger? body
  let (s, _) ← readInteger? rest
  match scalarOfDigits? r, scalarOfDigits? s with
  | some r, some s => some ⟨r, s⟩
  | _, _ => some ⟨0, 0⟩

end CoinSpend.Secp256k1
