/-
This file states how the text of a limits document is spelled: which lexemes it may hold, and
which of them stand for a token.
-/

import CoinSpend.Limits.Token
import CoinSpend.Proofs.Hex
import Mathlib.Data.List.Forall2
import Mathlib.Data.List.Induction

namespace CoinSpend.Limits

/-- These are the characters that stand for themselves outside of quotes. -/
inductive Mark where
  | openObject
  | closeObject
  | openArray
  | closeArray
  | colon
  | comma

def Mark.character : Mark → Char
  | .openObject => '{'
  | .closeObject => '}'
  | .openArray => '['
  | .closeArray => ']'
  | .colon => ':'
  | .comma => ','

def Mark.token : Mark → Token
  | .openObject => .openObject
  | .closeObject => .closeObject
  | .openArray => .openArray
  | .closeArray => .closeArray
  | .colon => .colon
  | .comma => .comma

def IsSpace (character : Char) : Prop := character ∈ [' ', '\t', '\n', '\r']

/-- The other characters outside of quotes form words: numbers in every notation and the words
for truth values and for nothing. -/
def IsWord (character : Char) : Prop :=
  character ∉ [' ', '\t', '\n', '\r', '"', '{', '}', '[', ']', ':', ',']

/-- Text between quotes is kept as it is written. -/
inductive Lexeme where
  | mark (mark : Mark)
  | word (characters : List Char)
  | quoted (raw : List Char)

/-- No quote ends the text between quotes unless a backslash stands in front of it. -/
inductive Inside : (raw : List Char) → Prop where
  | nil : Inside []
  | plain {character : Char} {raw : List Char} (unquoted : character ≠ '"')
      (unescaped : character ≠ '\x5c') (rest : Inside raw) : Inside (character :: raw)
  | escaped (character : Char) {raw : List Char} (rest : Inside raw) :
      Inside ('\x5c' :: character :: raw)

/-- Lexemes may stand apart by any spaces; a word is followed by a character that ends it. -/
inductive Spells : (lexemes : List Lexeme) → (text : List Char) → Prop where
  | nil : Spells [] []
  | space {character : Char} {lexemes : List Lexeme} {text : List Char}
      (blank : IsSpace character) (rest : Spells lexemes text) :
      Spells lexemes (character :: text)
  | mark (mark : Mark) {lexemes : List Lexeme} {text : List Char} (rest : Spells lexemes text) :
      Spells (.mark mark :: lexemes) (mark.character :: text)
  | quoted {raw : List Char} {lexemes : List Lexeme} {text : List Char} (inside : Inside raw)
      (rest : Spells lexemes text) : Spells (.quoted raw :: lexemes) ('"' :: (raw ++ '"' :: text))
  | word {characters : List Char} {next : Char} {lexemes : List Lexeme} {text : List Char}
      (some : characters ≠ []) (plain : ∀ character ∈ characters, IsWord character)
      (boundary : ¬ IsWord next) (rest : Spells lexemes (next :: text)) :
      Spells (.word characters :: lexemes) (characters ++ next :: text)

/-- A plain number has no sign, fraction, exponent or needless zero, and a count can declare it. -/
structure Numeral (characters : List Char) (value : Nat) : Prop where
  digits : characters = Nat.toDigits 10 value
  declarable : value ≤ maxDeclared

def HexDigit (character : Char) (value : Nat) : Prop :=
  character.toNat < 0x80 ∧ Hex.Digit (UInt8.ofNat character.toNat) value

/-- This function returns the number that hexadecimal digits go on to spell. -/
def hexNumber (start : Nat) (digits : List Nat) : Nat :=
  digits.foldl (fun value digit => 16 * value + digit) start

/-- Half of a surrogate pair is no character. -/
def IsSurrogate (code : Nat) : Prop := 0xd800 ≤ code ∧ code < 0xe000

/-- Every letter of a text is written as itself or as its code point in four digits. -/
inductive Letters : (raw text : List Char) → Prop where
  | nil : Letters [] []
  | plain {character : Char} {raw text : List Char} (unquoted : character ≠ '"')
      (unescaped : character ≠ '\x5c') (rest : Letters raw text) :
      Letters (character :: raw) (character :: text)
  | codePoint {digits : List Char} {values : List Nat} {raw text : List Char}
      (four : digits.length = 4) (spelled : List.Forall₂ HexDigit digits values)
      (whole : ¬ IsSurrogate (hexNumber 0 values)) (rest : Letters raw text) :
      Letters ('\x5c' :: 'u' :: (digits ++ raw)) (Char.ofNat (hexNumber 0 values) :: text)

/-- A lexeme that stands for no token is not part of any limits document. -/
inductive Reads : (lexeme : Lexeme) → (token : Token) → Prop where
  | mark (mark : Mark) : Reads (.mark mark) mark.token
  | word {characters : List Char} {value : Nat} (numeral : Numeral characters value) :
      Reads (.word characters) (.number value)
  | quoted {raw text : List Char} (letters : Letters raw text) : Reads (.quoted raw) (.name text)

theorem reads_mark {mark : Mark} {token : Token} :
    Reads (.mark mark) token ↔ token = mark.token := by
  apply Iff.intro
  · intro reads
    cases reads
    rfl
  · intro same
    subst same
    exact .mark mark

theorem reads_word {characters : List Char} {token : Token} :
    Reads (.word characters) token ↔
      ∃ value, Numeral characters value ∧ token = .number value := by
  apply Iff.intro
  · intro reads
    cases reads with
    | word numeral => exact ⟨_, numeral, rfl⟩
  · intro ⟨value, numeral, same⟩
    subst same
    exact .word numeral

theorem reads_quoted {raw : List Char} {token : Token} :
    Reads (.quoted raw) token ↔ ∃ letters, Letters raw letters ∧ token = .name letters := by
  apply Iff.intro
  · intro reads
    cases reads with
    | quoted letters => exact ⟨_, letters, rfl⟩
  · intro ⟨text, letters, same⟩
    subst same
    exact .quoted letters

section

variable {lexemes : List Lexeme} {tokens : List Token}

theorem starts_mark (mark : Mark) (reads : List.Forall₂ Reads lexemes (mark.token :: tokens)) :
    ∃ others, lexemes = .mark mark :: others ∧ List.Forall₂ Reads others tokens := by
  obtain ⟨lexeme, others, first, rest, rfl⟩ := List.forall₂_cons_right_iff.mp reads
  generalize same : mark.token = token at first
  refine ⟨others, ?_, rest⟩
  cases first with
  | mark other => cases mark <;> cases other <;> first | rfl | cases same
  | word => cases mark <;> cases same
  | quoted => cases mark <;> cases same

theorem starts_number {value : Nat}
    (reads : List.Forall₂ Reads lexemes (.number value :: tokens)) :
    ∃ digits others, lexemes = .word digits :: others ∧ List.Forall₂ Reads others tokens := by
  obtain ⟨lexeme, others, first, rest, rfl⟩ := List.forall₂_cons_right_iff.mp reads
  generalize same : Token.number value = token at first
  cases first with
  | mark mark => cases mark <;> cases same
  | word => exact ⟨_, others, rfl, rest⟩
  | quoted => cases same

theorem starts_name {text : List Char} (reads : List.Forall₂ Reads lexemes (.name text :: tokens)) :
    ∃ raw others, lexemes = .quoted raw :: others ∧ List.Forall₂ Reads others tokens := by
  obtain ⟨lexeme, others, first, rest, rfl⟩ := List.forall₂_cons_right_iff.mp reads
  generalize same : Token.name text = token at first
  cases first with
  | mark mark => cases mark <;> cases same
  | word => cases same
  | quoted => exact ⟨_, others, rfl, rest⟩

end

/-- The codes from zero to nine stand for the ten digits. -/
theorem digitChar_of_code {character : Char} (lower : '0'.toNat ≤ character.toNat)
    (upper : character.toNat ≤ '9'.toNat) : character.toNat - '0'.toNat < 10 ∧
      character = Nat.digitChar (character.toNat - '0'.toNat) := by
  have zero : '0'.toNat = 48 := rfl
  have nine : '9'.toNat = 57 := rfl
  have small : character.toNat - '0'.toNat < 10 := by omega
  refine ⟨small, Char.toNat_inj.mp ?_⟩
  rw [Nat.toNat_digitChar_of_lt_ten small]
  omega

theorem isDigit_iff {character : Char} :
    character.isDigit = true ↔ ∃ digit < 10, character = Nat.digitChar digit := by
  apply Iff.intro
  · intro decimal
    simp only [Char.isDigit, Bool.and_eq_true, decide_eq_true_eq, UInt32.le_iff_toNat_le,
      Char.toNat_val] at decimal
    exact ⟨_, digitChar_of_code decimal.1 decimal.2⟩
  · intro ⟨digit, small, same⟩
    rw [same, Nat.isDigit_digitChar]
    exact decide_eq_true small

theorem numeral_single {character : Char} {value : Nat} :
    Numeral [character] value ↔ value < 10 ∧ character = Nat.digitChar value := by
  apply Iff.intro
  · intro ⟨digits, declarable⟩
    by_cases small : value < 10
    · rw [Nat.toDigits_of_lt_base small, List.singleton_inj] at digits
      exact ⟨small, digits⟩
    · have longer := congrArg List.length digits
      have front := Nat.length_toDigits_pos (b := 10) (n := value / 10)
      rw [Nat.toDigits_of_base_le (by omega) (by omega), List.length_append] at longer
      simp only [List.length_singleton] at longer
      omega
  · intro ⟨small, same⟩
    have limit : maxDeclared = 0xffffffffffffffff := rfl
    exact ⟨by rw [Nat.toDigits_of_lt_base small, same], by omega⟩

/-- Another digit continues a plain number unless the number is zero or grows out of range. -/
theorem numeral_concat {front : List Char} {last : Char} {value : Nat} (nonempty : front ≠ []) :
    Numeral (front ++ [last]) value ↔ ∃ leading digit, Numeral front leading ∧
      (digit < 10 ∧ last = Nat.digitChar digit) ∧ leading ≠ 0 ∧
      10 * leading + digit ≤ maxDeclared ∧ value = 10 * leading + digit := by
  apply Iff.intro
  · intro ⟨digits, declarable⟩
    have large : 10 ≤ value := by
      by_contra small
      rw [Nat.toDigits_of_lt_base (by omega)] at digits
      have length := congrArg List.length digits
      have some := List.length_pos_of_ne_nil nonempty
      simp only [List.length_append, List.length_singleton] at length
      omega
    rw [Nat.toDigits_of_base_le (by omega) large] at digits
    obtain ⟨same, final⟩ := List.append_inj' digits rfl
    exact ⟨value / 10, value % 10, ⟨same, by omega⟩,
      ⟨by omega, List.singleton_inj.mp final⟩, by omega, by omega, by omega⟩
  · intro ⟨leading, digit, ⟨same, _⟩, ⟨small, final⟩, positive, declarable, total⟩
    subst same final total
    refine ⟨?_, declarable⟩
    rw [← Nat.toDigits_append_toDigits (by omega) (by omega) small,
      Nat.toDigits_of_lt_base small]

theorem ofDigitChars_concat (front : List Char) {digit : Nat} (small : digit < 10) :
    Nat.ofDigitChars 10 (front ++ [Nat.digitChar digit]) 0 =
      10 * Nat.ofDigitChars 10 front 0 + digit := by
  rw [Nat.ofDigitChars_append, Nat.ofDigitChars_cons_digitChar_of_lt_ten small,
    Nat.ofDigitChars_nil]

/-- A plain number is written in decimal digits only, none of them a needless zero in front. -/
theorem numeral_iff {characters : List Char} {value : Nat} :
    Numeral characters value ↔ characters ≠ [] ∧
      (∀ character ∈ characters, character.isDigit = true) ∧
      (characters.head? = some '0' → characters = ['0']) ∧
      value = Nat.ofDigitChars 10 characters 0 ∧ value ≤ maxDeclared := by
  induction characters using List.reverseRecOn generalizing value with
  | nil =>
      simp only [ne_eq, not_true_eq_false, false_and, iff_false]
      intro numeral
      exact Nat.toDigits_ne_nil numeral.digits.symm
  | append_singleton front last ih =>
      by_cases first : front = []
      · subst first
        rw [List.nil_append, numeral_single]
        have limit : maxDeclared = 0xffffffffffffffff := rfl
        apply Iff.intro
        · intro ⟨small, same⟩
          subst same
          exact ⟨by simp, by simpa using small, by simp, by
            simpa using (ofDigitChars_concat [] small).symm, by omega⟩
        · intro ⟨_, digits, _, written, _⟩
          obtain ⟨digit, small, rfl⟩ := isDigit_iff.mp (digits last (by simp))
          have same := written.trans (ofDigitChars_concat [] small)
          rw [Nat.ofDigitChars_nil, Nat.mul_zero, Nat.zero_add] at same
          exact ⟨by omega, by rw [same]⟩
      · rw [numeral_concat first]
        have head : (front ++ [last]).head? = front.head? := List.head?_append_of_ne_nil _ first
        apply Iff.intro
        · intro ⟨leading, digit, numeral, ⟨small, same⟩, positive, declarable, total⟩
          subst same
          obtain ⟨_, digits, zero, written, _⟩ := ih.mp numeral
          refine ⟨by simp, ?_, ?_, ?_, by omega⟩
          · rw [List.forall_mem_append]
            exact ⟨digits, by simpa using small⟩
          · intro front0
            have only := zero (head.symm.trans front0)
            subst only
            exact absurd written positive
          · rw [total, ofDigitChars_concat _ small, written]
        · intro ⟨_, digits, zero, written, declarable⟩
          obtain ⟨frontDigits, lastDigit⟩ := List.forall_mem_append.mp digits
          obtain ⟨digit, small, rfl⟩ := isDigit_iff.mp (lastDigit last (by simp))
          rw [ofDigitChars_concat _ small] at written
          have leading : front.head? ≠ some '0' := by
            intro front0
            have short := congrArg List.length (zero (head.trans front0))
            have some := List.length_pos_of_ne_nil first
            simp only [List.length_append, List.length_singleton] at short
            omega
          have numeral : Numeral front (Nat.ofDigitChars 10 front 0) :=
            ih.mpr ⟨first, frontDigits, fun front0 => absurd front0 leading, rfl, by omega⟩
          have positive : Nat.ofDigitChars 10 front 0 ≠ 0 := by
            intro none
            rw [none] at numeral
            rw [numeral.digits] at leading
            exact leading rfl
          exact ⟨_, digit, numeral, ⟨small, rfl⟩, positive, by omega, written⟩

theorem HexDigit.plain {character : Char} {value : Nat} (digit : HexDigit character value) :
    character ≠ '"' ∧ character ≠ '\x5c' := by
  have decimal : '0'.toNat = 0x30 := rfl
  have lower : 'a'.toNat = 0x61 := rfl
  have upper : 'A'.toNat = 0x41 := rfl
  have quote : (UInt8.ofNat '"'.toNat).toNat = 0x22 := rfl
  have backslash : (UInt8.ofNat '\x5c'.toNat).toNat = 0x5c := rfl
  constructor
  all_goals
    intro same
    subst same
    cases digit.2 <;> omega

/-- Text that spells letters holds no quote that would end it. -/
theorem Letters.inside {raw text : List Char} (letters : Letters raw text) : Inside raw := by
  induction letters with
  | nil => exact .nil
  | plain unquoted unescaped rest ih => exact .plain unquoted unescaped ih
  | codePoint four spelled whole rest ih =>
      refine .escaped 'u' ?_
      clear four whole
      induction spelled with
      | nil => exact ih
      | cons digit others digits => exact .plain digit.plain.1 digit.plain.2 digits

/-- Text that needs no escape may be written as it is. -/
theorem letters_self {text : List Char}
    (plain : ∀ character ∈ text, character ≠ '"' ∧ character ≠ '\x5c') : Letters text text := by
  induction text with
  | nil => exact .nil
  | cons character text ih =>
      obtain ⟨⟨unquoted, unescaped⟩, others⟩ := List.forall_mem_cons.mp plain
      exact .plain unquoted unescaped (ih others)

/-- Only one quote can end the text behind an opening one. -/
theorem Inside.unique {raw other text rest : List Char} (inside : Inside raw)
    (inside' : Inside other) (same : raw ++ '"' :: text = other ++ '"' :: rest) :
    raw = other ∧ text = rest := by
  induction inside generalizing other with
  | nil =>
      cases inside' with
      | nil => exact ⟨rfl, (List.cons_eq_cons.mp same).2⟩
      | plain unquoted => exact absurd (List.cons_eq_cons.mp same).1.symm unquoted
      | escaped => cases (List.cons_eq_cons.mp same).1
  | plain unquoted unescaped _ ih =>
      cases inside' with
      | nil => exact absurd (List.cons_eq_cons.mp same).1 unquoted
      | plain _ _ inside' =>
          obtain ⟨first, others⟩ := List.cons_eq_cons.mp same
          obtain ⟨raws, rests⟩ := ih inside' others
          exact ⟨List.cons_eq_cons.mpr ⟨first, raws⟩, rests⟩
      | escaped => exact absurd (List.cons_eq_cons.mp same).1 unescaped
  | escaped character _ ih =>
      cases inside' with
      | nil => cases (List.cons_eq_cons.mp same).1
      | plain _ unescaped => exact absurd (List.cons_eq_cons.mp same).1.symm unescaped
      | escaped _ inside' =>
          obtain ⟨-, others⟩ := List.cons_eq_cons.mp same
          obtain ⟨first, others⟩ := List.cons_eq_cons.mp others
          obtain ⟨raws, rests⟩ := ih inside' others
          exact ⟨by rw [first, raws], rests⟩

theorem exists_forall₂_cons {first second : Type} {related : first → second → Prop} {item : first}
    {items : List first} {claim : List second → Prop} :
    (∃ images, List.Forall₂ related (item :: items) images ∧ claim images) ↔
      ∃ image, related item image ∧
        ∃ images, List.Forall₂ related items images ∧ claim (image :: images) := by
  simp only [List.forall₂_cons_left_iff]
  apply Iff.intro
  · intro ⟨_, ⟨image, images, here, others, same⟩, holds⟩
    subst same
    exact ⟨image, here, images, others, holds⟩
  · intro ⟨image, here, images, others, holds⟩
    exact ⟨_, ⟨image, images, here, others, rfl⟩, holds⟩

theorem character_cases (character : Char) :
    IsSpace character ∨ character = '"' ∨ (∃ mark : Mark, character = mark.character) ∨
      IsWord character := by
  by_cases word : IsWord character
  · simp [word]
  · simp only [IsWord, List.mem_cons, List.not_mem_nil, or_false, not_not] at word
    rcases word with rfl | rfl | rfl | rfl | rfl | rfl | rfl | rfl | rfl | rfl | rfl
    iterate 4 exact .inl (by simp [IsSpace])
    · exact .inr (.inl rfl)
    · exact .inr (.inr (.inl ⟨.openObject, rfl⟩))
    · exact .inr (.inr (.inl ⟨.closeObject, rfl⟩))
    · exact .inr (.inr (.inl ⟨.openArray, rfl⟩))
    · exact .inr (.inr (.inl ⟨.closeArray, rfl⟩))
    · exact .inr (.inr (.inl ⟨.colon, rfl⟩))
    · exact .inr (.inr (.inl ⟨.comma, rfl⟩))

/-- A word at the front of a text goes up to the end or to a character that ends it. -/
theorem exists_word (text : List Char) : ∃ characters rest, text = characters ++ rest ∧
    (∀ character ∈ characters, IsWord character) ∧ ∀ next ∈ rest.head?, ¬ IsWord next := by
  induction text with
  | nil => exact ⟨[], [], rfl, by simp, by simp⟩
  | cons character text ih =>
      by_cases word : IsWord character
      · obtain ⟨characters, rest, parts, plain, boundary⟩ := ih
        exact ⟨character :: characters, rest, by rw [parts]; rfl,
          List.forall_mem_cons.mpr ⟨word, plain⟩, boundary⟩
      · exact ⟨[], character :: text, rfl, by simp, by simp [word]⟩

theorem spells_nil_iff {text : List Char} :
    Spells [] text ↔ ∀ character ∈ text, IsSpace character := by
  apply Iff.intro
  · intro spells
    generalize none : ([] : List Lexeme) = lexemes at spells
    induction spells with
    | nil => simp
    | space blank rest ih => exact List.forall_mem_cons.mpr ⟨blank, ih none⟩
    | mark | quoted | word => cases none
  · intro blank
    induction text with
    | nil => exact .nil
    | cons character text ih =>
        obtain ⟨first, others⟩ := List.forall_mem_cons.mp blank
        exact .space first (ih others)

end CoinSpend.Limits
