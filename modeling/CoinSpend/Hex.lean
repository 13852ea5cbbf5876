/-
This file writes bytes as hexadecimal text and reads such text back.
-/

import CoinSpend.Bytes

namespace CoinSpend.Hex

def digits : List Char :=
  ['0', '1', '2', '3', '4', '5', '6', '7', '8', '9', 'a', 'b', 'c', 'd', 'e', 'f']

def digit (value : Nat) : Char := digits.getD value '0'

/-- The value of an ASCII digit; letters count in both cases. -/
def digitValue? (code : UInt8) : Option Nat :=
  if 0x30 ≤ code ∧ code ≤ 0x39 then some (code.toNat - 0x30)
  else if 0x61 ≤ code ∧ code ≤ 0x66 then some (code.toNat - 0x57)
  else if 0x41 ≤ code ∧ code ≤ 0x46 then some (code.toNat - 0x37)
  else none

def pair (byte : UInt8) : List Char := [digit (byte.toNat / 16), digit (byte.toNat % 16)]

/-- Every byte becomes two lower-case digits, the high one first. -/
def characters (bytes : Bytes) : List Char := bytes.flatMap pair

def encode (bytes : Bytes) : String := String.ofList (characters bytes)

/-- These are the ways in which a text fails to be hexadecimal. -/
inductive Defect where
  | oddDigits
  | invalidCharacter (code : UInt8) (position : Nat)
deriving DecidableEq

/-- This function reads pairs of digits and collects their bytes in reverse. -/
def decodePairs (position : Nat) (collected : Bytes) : Bytes → Except Defect Bytes
  | high :: low :: rest =>
      match digitValue? high, digitValue? low with
      | some upper, some lower =>
          decodePairs (position + 2) (UInt8.ofNat (16 * upper + lower) :: collected) rest
      | none, _ => .error (.invalidCharacter high position)
      | some _, none => .error (.invalidCharacter low (position + 1))
  | _ => .ok collected.reverse

/-- The count of characters is checked first, then each character from the left. -/
def decode (text : Bytes) : Except Defect Bytes :=
  if text.length % 2 = 1 then .error .oddDigits else decodePairs 0 [] text

end CoinSpend.Hex
