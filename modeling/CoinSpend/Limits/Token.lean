/-
This file splits the text of a limits document into tokens.
-/

import CoinSpend.Decoder

namespace CoinSpend.Limits

/-- These are the tokens of a document that holds names and plain numbers only. -/
inductive Token where
  | openObject
  | closeObject
  | openArray
  | closeArray
  | colon
  | comma
  | name (characters : List Char)
  | number (value : Nat)
deriving DecidableEq

/-- This is the token that the scanner is inside of. -/
inductive Pending where
  | nothing
  | digits (value : Nat)
  | text (collected : List Char)
  | escape (collected : List Char)
  | codePoint (collected : List Char) (missing value : Nat)

/-- The scanner keeps the finished tokens in reverse. -/
structure Scanner where
  tokens : List Token
  pending : Pending

def Scanner.start : Scanner := ⟨[], .nothing⟩

def Scanner.push (scanner : Scanner) (token : Token) : Scanner :=
  ⟨token :: scanner.tokens, .nothing⟩

/-- Only these four characters may stand between tokens. -/
def isSpacing (character : Char) : Bool :=
  character = ' ' || character = '\t' || character = '\n' || character = '\r'

def decimalValue? (character : Char) : Option Nat :=
  if '0' ≤ character ∧ character ≤ '9' then some (character.toNat - '0'.toNat) else none

def hexValue? (character : Char) : Option Nat :=
  if character.toNat < 0x80 then Hex.digitValue? (UInt8.ofNat character.toNat) else none

/-- This function begins a token. -/
def Scanner.begin (scanner : Scanner) (character : Char) : Option Scanner :=
  if isSpacing character then some scanner
  else match character with
    | '{' => some (scanner.push .openObject)
    | '}' => some (scanner.push .closeObject)
    | '[' => some (scanner.push .openArray)
    | ']' => some (scanner.push .closeArray)
    | ':' => some (scanner.push .colon)
    | ',' => some (scanner.push .comma)
    | '"' => some ⟨scanner.tokens, .text []⟩
    | _ => (decimalValue? character).map fun digit => ⟨scanner.tokens, .digits digit⟩

/-- This function adds the character of a finished escape; half of a pair is refused. -/
def Scanner.addCodePoint (scanner : Scanner) (collected : List Char) (code : Nat) :
    Option Scanner :=
  if 0xd800 ≤ code ∧ code < 0xe000 then none
  else some ⟨scanner.tokens, .text (Char.ofNat code :: collected)⟩

/-- A zero in front of another digit, a number above the range and every escape but that of a
code point are refused; no name of a limit needs another escape. -/
def Scanner.step (scanner : Scanner) (character : Char) : Option Scanner :=
  match scanner.pending with
  | .nothing => scanner.begin character
  | .digits value =>
      match decimalValue? character with
      | some digit =>
          if value = 0 ∨ maxDeclared < 10 * value + digit then none
          else some ⟨scanner.tokens, .digits (10 * value + digit)⟩
      | none => (scanner.push (.number value)).begin character
  | .text collected =>
      if character = '"' then some (scanner.push (.name collected.reverse))
      else if character = '\x5c' then some ⟨scanner.tokens, .escape collected⟩
      else some ⟨scanner.tokens, .text (character :: collected)⟩
  | .escape collected =>
      if character = 'u' then some ⟨scanner.tokens, .codePoint collected 4 0⟩ else none
  | .codePoint collected missing value =>
      match hexValue? character with
      | none => none
      | some digit =>
          if missing ≤ 1 then scanner.addCodePoint collected (16 * value + digit)
          else some ⟨scanner.tokens, .codePoint collected (missing - 1) (16 * value + digit)⟩

/-- No document ends inside of a token. -/
def Scanner.finish (scanner : Scanner) : Option (List Token) :=
  match scanner.pending with
  | .nothing => some scanner.tokens.reverse
  | _ => none

def tokens? (text : List Char) : Option (List Token) :=
  (text.foldlM Scanner.step Scanner.start).bind Scanner.finish

end CoinSpend.Limits
