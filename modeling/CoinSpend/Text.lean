/-
This file trims the blanks of a text and quotes a single character for a message.
-/

import CoinSpend.Hex

namespace CoinSpend.Text

/-- The code points with the Unicode property White_Space, as inclusive ranges. -/
def blankRanges : List (Nat × Nat) := [
  (0x09, 0x0d), (0x20, 0x20), (0x85, 0x85), (0xa0, 0xa0), (0x1680, 0x1680),
  (0x2000, 0x200a), (0x2028, 0x2029), (0x202f, 0x202f), (0x205f, 0x205f), (0x3000, 0x3000)]

def isBlank (character : Char) : Bool :=
  blankRanges.any fun range => range.1 ≤ character.toNat && character.toNat ≤ range.2

/-- Trimming removes the blanks at both ends and none inside. -/
def trim (characters : List Char) : List Char :=
  ((characters.dropWhile isBlank).reverse.dropWhile isBlank).reverse

def utf8 (characters : List Char) : Bytes := characters.flatMap String.utf8EncodeChar

/-- The digits of a code point below 256, without a leading zero. -/
def shortHex (code : Nat) : List Char :=
  if code < 16 then [Hex.digit code] else [Hex.digit (code / 16), Hex.digit (code % 16)]

/-- Control characters, the quote and the backslash are escaped; every other one stands alone. -/
def escaped (character : Char) : List Char :=
  match character.toNat with
  | 0x00 => ['\x5c', '0']
  | 0x09 => ['\x5c', 't']
  | 0x0a => ['\x5c', 'n']
  | 0x0d => ['\x5c', 'r']
  | 0x27 => ['\x5c', '\x27']
  | 0x5c => ['\x5c', '\x5c']
  | code =>
      if code < 0x20 ∨ code = 0x7f then ['\x5c', 'u', '\x7b'] ++ shortHex code ++ ['\x7d']
      else [character]

def quoted (character : Char) : String :=
  String.ofList (['\x27'] ++ escaped character ++ ['\x27'])

end CoinSpend.Text
