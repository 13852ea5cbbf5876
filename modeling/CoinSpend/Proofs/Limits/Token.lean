/-
This file states which texts are split into tokens: the scanner reads what lexemes spell, and it
reads it when every lexeme stands for a token.
-/

import CoinSpend.Proofs.Limits.Lexeme

namespace CoinSpend.Limits

theorem decimalValue?_eq_some {character : Char} {digit : Nat} :
    decimalValue? character = some digit ↔ digit < 10 ∧ character = Nat.digitChar digit := by
  have zero : '0'.toNat = 48 := rfl
  have nine : '9'.toNat = 57 := rfl
  simp only [decimalValue?, Char.le_def, UInt32.le_iff_toNat_le, Char.toNat_val]
  apply Iff.intro
  · intro found
    split at found
    · next decimal =>
        cases found
        exact digitChar_of_code decimal.1 decimal.2
    · cases found
  · intro ⟨small, same⟩
    have code := Nat.toNat_digitChar_of_lt_ten small
    rw [same, if_pos (by omega), Option.some.injEq]
    omega

theorem isWord_of_decimalValue? {character : Char} {digit : Nat}
    (found : decimalValue? character = some digit) : IsWord character := by
  obtain ⟨small, rfl⟩ := decimalValue?_eq_some.mp found
  have all : ∀ digit < 10, IsWord (Nat.digitChar digit) := by
    unfold IsWord
    decide
  exact all digit small

theorem hexValue?_eq_some {character : Char} {digit : Nat} :
    hexValue? character = some digit ↔ HexDigit character digit := by
  unfold hexValue? HexDigit
  split
  · next small => simp [small, Hex.digitValue?_eq_some]
  · next large => simp [large]

namespace Scanner

variable {tokens out : List Token}

/-- This function reads on from a state of the scanner to the end of the text. -/
def read (scanner : Scanner) (text : List Char) : Option (List Token) :=
  (text.foldlM step scanner).bind finish

theorem read_cons (scanner : Scanner) (character : Char) (text : List Char) :
    scanner.read (character :: text) = (scanner.step character).bind (read · text) := by
  simp [read, Option.bind_assoc]

theorem read_append (scanner : Scanner) (front rest : List Char) :
    scanner.read (front ++ rest) = (front.foldlM step scanner).bind (read · rest) := by
  simp [read, Option.bind_assoc]

theorem read_space {character : Char} (blank : IsSpace character) (text : List Char) :
    (mk tokens .nothing).read (character :: text) = (mk tokens .nothing).read text := by
  have spacing : isSpacing character = true := by
    simpa [IsSpace, isSpacing, or_assoc] using blank
  simp [read_cons, step, begin, spacing]

theorem read_mark (mark : Mark) (text : List Char) :
    (mk tokens .nothing).read (mark.character :: text) =
      (mk (mark.token :: tokens) .nothing).read text := by
  cases mark <;> rfl

theorem begin_word {character : Char} (word : IsWord character) (scanner : Scanner) :
    scanner.begin character =
      (decimalValue? character).map fun digit => ⟨scanner.tokens, .digits digit⟩ := by
  simp only [IsWord, List.mem_cons, List.not_mem_nil, or_false, not_or] at word
  simp [begin, isSpacing, word]

/-- Inside of a number another word character has to be a digit that the number can take. -/
theorem step_digits {character : Char} (word : IsWord character) (value : Nat)
    {scanner : Scanner} :
    step ⟨tokens, .digits value⟩ character = some scanner ↔ ∃ digit,
      (digit < 10 ∧ character = Nat.digitChar digit) ∧ value ≠ 0 ∧
        10 * value + digit ≤ maxDeclared ∧ scanner = ⟨tokens, .digits (10 * value + digit)⟩ := by
  simp only [step, ← decimalValue?_eq_some]
  cases found : decimalValue? character with
  | none => simp [begin_word word, found]
  | some digit =>
      simp only [Option.some.injEq, exists_eq_left']
      split
      · simp only [reduceCtorEq, false_iff]
        omega
      · rw [Option.some.injEq, eq_comm]
        apply Iff.intro
        · intro same
          exact ⟨by omega, by omega, same⟩
        · intro ⟨_, _, same⟩
          exact same

/-- A word is scanned digit by digit; the digits so far are a plain number. -/
theorem scan_word {characters : List Char} (nonempty : characters ≠ [])
    (plain : ∀ character ∈ characters, IsWord character) {scanner : Scanner} :
    characters.foldlM step ⟨tokens, .nothing⟩ = some scanner ↔
      ∃ value, Numeral characters value ∧ scanner = ⟨tokens, .digits value⟩ := by
  induction characters using List.reverseRecOn generalizing scanner with
  | nil => exact absurd rfl nonempty
  | append_singleton front last ih =>
      have word : IsWord last := plain last (by simp)
      by_cases first : front = []
      · subst first
        simp only [List.nil_append, List.foldlM_cons, List.foldlM_nil, step, begin_word word,
          numeral_single, ← decimalValue?_eq_some]
        cases decimalValue? last <;> simp [eq_comm]
      · have scanned := @ih first fun character member => plain character (by simp [member])
        have final (state : Scanner) : [last].foldlM step state = step state last := by simp
        simp only [List.foldlM_append, final, Option.bind_eq_bind, Option.bind_eq_some_iff, scanned,
          numeral_concat first]
        apply Iff.intro
        · intro ⟨_, ⟨leading, numeral, same⟩, next⟩
          subst same
          obtain ⟨digit, spelled, positive, declarable, same⟩ := (step_digits word leading).mp next
          exact ⟨_, ⟨leading, digit, numeral, spelled, positive, declarable, rfl⟩, same⟩
        · intro ⟨_, ⟨leading, digit, numeral, spelled, positive, declarable, total⟩, same⟩
          subst total
          exact ⟨_, ⟨leading, numeral, rfl⟩,
            (step_digits word leading).mpr ⟨digit, spelled, positive, declarable, same⟩⟩

/-- A character that is not part of a word ends the number in front of it. -/
theorem step_digits_boundary {next : Char} (boundary : ¬ IsWord next) (value : Nat) :
    step ⟨tokens, .digits value⟩ next = step ⟨.number value :: tokens, .nothing⟩ next := by
  cases found : decimalValue? next with
  | none => simp [step, found, push]
  | some digit => exact absurd (isWord_of_decimalValue? found) boundary

theorem read_word {characters : List Char} {next : Char} (nonempty : characters ≠ [])
    (plain : ∀ character ∈ characters, IsWord character) (boundary : ¬ IsWord next)
    (text : List Char) :
    (mk tokens .nothing).read (characters ++ next :: text) = some out ↔
      ∃ value, Numeral characters value ∧
        (mk (.number value :: tokens) .nothing).read (next :: text) = some out := by
  have continued (value : Nat) : (mk tokens (.digits value)).read (next :: text) =
      (mk (.number value :: tokens) .nothing).read (next :: text) := by
    rw [read_cons, read_cons, step_digits_boundary boundary]
  rw [read_append, Option.bind_eq_some_iff]
  simp only [scan_word nonempty plain]
  apply Iff.intro
  · intro ⟨_, ⟨value, numeral, same⟩, rest⟩
    subst same
    exact ⟨value, numeral, (continued value).symm.trans rest⟩
  · intro ⟨value, numeral, rest⟩
    exact ⟨_, ⟨value, numeral, rfl⟩, (continued value).trans rest⟩

/-- No document ends with a number. -/
theorem read_word_end {characters : List Char} (nonempty : characters ≠ [])
    (plain : ∀ character ∈ characters, IsWord character) :
    (mk tokens .nothing).read characters = none := by
  rw [read, Option.bind_eq_none_iff]
  intro scanner scanned
  obtain ⟨value, _, rfl⟩ := (scan_word nonempty plain).mp scanned
  rfl

theorem read_addCodePoint (collected text : List Char) (code : Nat) :
    ((mk tokens .nothing).addCodePoint collected code).bind (read · text) = some out ↔
      ¬ IsSurrogate code ∧
        (mk tokens (.text (Char.ofNat code :: collected))).read text = some out := by
  unfold addCodePoint IsSurrogate
  split
  · next surrogate => simp [surrogate]
  · next whole => simp [whole]

/-- This is the state with so many digits of a code point still missing, none of them for the
code point as a whole. -/
def awaiting (tokens : List Token) (collected : List Char) (missing value : Nat) :
    Option Scanner :=
  if missing = 0 then (mk tokens .nothing).addCodePoint collected value
  else some ⟨tokens, .codePoint collected missing value⟩

theorem step_codePoint (collected : List Char) (missing value : Nat) (character : Char) :
    step ⟨tokens, .codePoint collected (missing + 1) value⟩ character =
      (hexValue? character).bind fun digit =>
        awaiting tokens collected missing (16 * value + digit) := by
  cases missing with
  | zero => cases found : hexValue? character <;> simp [step, found, awaiting, addCodePoint]
  | succ missing => cases found : hexValue? character <;> simp [step, found, awaiting]

theorem read_awaiting (collected text : List Char) (missing value : Nat) :
    (awaiting tokens collected missing value).bind (read · text) = some out ↔
      ∃ digits values rest, text = digits ++ rest ∧ digits.length = missing ∧
        List.Forall₂ HexDigit digits values ∧ ¬ IsSurrogate (hexNumber value values) ∧
        (mk tokens (.text (Char.ofNat (hexNumber value values) :: collected))).read rest =
          some out := by
  induction missing generalizing value text with
  | zero =>
      rw [awaiting, if_pos rfl, read_addCodePoint]
      simp [hexNumber]
  | succ missing ih =>
      rw [awaiting, if_neg (by omega), Option.bind_some]
      cases text with
      | nil => simp [read, finish]
      | cons character text =>
          rw [read_cons, step_codePoint, Option.bind_assoc, Option.bind_eq_some_iff]
          simp only [ih, hexValue?_eq_some]
          apply Iff.intro
          · intro found
            obtain ⟨digit, first, digits, values, rest, parts, length, spelled, others⟩ := found
            exact ⟨character :: digits, digit :: values, rest, by rw [parts]; rfl,
              by rw [List.length_cons, length], .cons first spelled, others⟩
          · intro found
            obtain ⟨digits, values, rest, parts, length, spelled, others⟩ := found
            cases spelled with
            | nil => cases length
            | cons first spelled =>
                rw [List.cons_append, List.cons_eq_cons] at parts
                obtain ⟨rfl, parts⟩ := parts
                exact ⟨_, first, _, _, rest, parts, Nat.succ.inj length, spelled, others⟩

/-- A text that is read ends with a quote, and what stands in front of the quote is spelled. -/
theorem exists_letters {collected text : List Char}
    (found : (mk tokens (.text collected)).read text = some out) :
    ∃ raw letters rest, text = raw ++ '"' :: rest ∧ Letters raw letters ∧
      (mk (.name (collected.reverse ++ letters) :: tokens) .nothing).read rest = some out := by
  -- An escape takes six characters at once, so the induction is on the length.
  induction size : text.length using Nat.strongRecOn generalizing text collected with
  | ind size ih =>
    cases text with
    | nil => cases found
    | cons character text =>
        rw [List.length_cons] at size
        rw [read_cons] at found
        by_cases quote : character = '"'
        · subst quote
          exact ⟨[], [], text, rfl, .nil, by simpa [step, push] using found⟩
        by_cases escape : character = '\x5c'
        · subst escape
          cases text with
          | nil => cases found
          | cons letter text =>
              have sure : letter = 'u' := by
                by_contra other
                simp [step, read_cons, other] at found
              subst sure
              obtain ⟨digits, values, after, parts, four, digit, whole, next⟩ :=
                (read_awaiting collected text 4 0).mp found
              subst parts
              rw [List.length_cons, List.length_append] at size
              obtain ⟨raw, letters, rest, others, spelled, final⟩ :=
                ih after.length (by omega) next rfl
              subst others
              exact ⟨'\x5c' :: 'u' :: (digits ++ raw), Char.ofNat (hexNumber 0 values) :: letters,
                rest, by simp, .codePoint four digit whole spelled, by simpa using final⟩
        · simp only [step, quote, escape, if_false, Option.bind_some] at found
          obtain ⟨raw, letters, rest, parts, spelled, final⟩ :=
            ih text.length (by omega) found rfl
          exact ⟨character :: raw, character :: letters, rest, by rw [parts]; rfl,
            .plain quote escape spelled, by simpa using final⟩

theorem read_letters {raw letters : List Char} (spelled : Letters raw letters)
    (collected rest : List Char)
    (found : (mk (.name (collected.reverse ++ letters) :: tokens) .nothing).read rest = some out) :
    (mk tokens (.text collected)).read (raw ++ '"' :: rest) = some out := by
  induction spelled generalizing collected with
  | nil => simpa [read_cons, step, push] using found
  | plain unquoted unescaped _ ih =>
      simp only [List.cons_append, read_cons, step, unquoted, unescaped, if_false,
        Option.bind_some]
      exact ih _ (by simpa using found)
  | codePoint four spelled whole _ ih =>
      have others := ih (_ :: collected) (by simpa using found)
      rw [List.cons_append, List.cons_append, List.append_assoc]
      exact (read_awaiting collected _ 4 0).mpr ⟨_, _, _, rfl, four, spelled, whole, others⟩

theorem read_quoted {raw : List Char} (inside : Inside raw) (text : List Char) :
    (mk tokens .nothing).read ('"' :: (raw ++ '"' :: text)) = some out ↔
      ∃ letters, Letters raw letters ∧
        (mk (.name letters :: tokens) .nothing).read text = some out := by
  have opened : (mk tokens .nothing).read ('"' :: (raw ++ '"' :: text)) =
      (mk tokens (.text [])).read (raw ++ '"' :: text) := rfl
  rw [opened]
  apply Iff.intro
  · intro found
    obtain ⟨other, letters, rest, parts, spelled, found⟩ := exists_letters found
    obtain ⟨rfl, rfl⟩ := inside.unique spelled.inside parts
    exact ⟨letters, spelled, found⟩
  · intro ⟨letters, spelled, found⟩
    exact read_letters spelled [] text found

end Scanner

/-- The lexemes of a text stand for its tokens, one for one. -/
theorem read_of_spells {lexemes : List Lexeme} {front : List Char} (spells : Spells lexemes front)
    (tokens : List Token) (rest : List Char) {out : List Token} :
    (Scanner.mk tokens .nothing).read (front ++ rest) = some out ↔
      ∃ found, List.Forall₂ Reads lexemes found ∧
        (Scanner.mk (found.reverse ++ tokens) .nothing).read rest = some out := by
  induction spells generalizing tokens with
  | nil => simp
  | space blank spells ih => rw [List.cons_append, Scanner.read_space blank, ih]
  | mark mark spells ih =>
      rw [List.cons_append, Scanner.read_mark, ih, exists_forall₂_cons]
      simp [reads_mark]
  | quoted inside spells ih =>
      rw [List.cons_append, List.append_assoc, List.cons_append, Scanner.read_quoted inside,
        exists_forall₂_cons]
      simp [reads_quoted, ih]
  | word nonempty plain boundary spells ih =>
      rw [List.append_assoc, List.cons_append, Scanner.read_word nonempty plain boundary,
        exists_forall₂_cons]
      simp [reads_word, ← ih]

theorem read_eq_some {lexemes : List Lexeme} {text : List Char} (spells : Spells lexemes text)
    (tokens : List Token) {out : List Token} :
    (Scanner.mk tokens .nothing).read text = some out ↔
      ∃ found, List.Forall₂ Reads lexemes found ∧ out = tokens.reverse ++ found := by
  have whole := @read_of_spells _ _ spells tokens [] out
  rw [List.append_nil] at whole
  simpa [Scanner.read, Scanner.finish, eq_comm] using whole

/-- Every text that is read is spelled by lexemes. -/
theorem exists_spells {tokens out : List Token} {text : List Char}
    (read : (Scanner.mk tokens .nothing).read text = some out) :
    ∃ lexemes, Spells lexemes text := by
  -- A word and a quoted text take many characters at once, so the induction is on the length.
  induction size : text.length using Nat.strongRecOn generalizing text tokens with
  | ind size ih =>
    cases text with
    | nil => exact ⟨[], .nil⟩
    | cons character text =>
        rw [List.length_cons] at size
        rcases character_cases character with blank | rfl | ⟨mark, rfl⟩ | word
        · rw [Scanner.read_space blank] at read
          obtain ⟨lexemes, spells⟩ := ih text.length (by omega) read rfl
          exact ⟨lexemes, .space blank spells⟩
        · obtain ⟨raw, letters, rest, parts, spelled, found⟩ := Scanner.exists_letters read
          subst parts
          rw [List.length_append, List.length_cons] at size
          obtain ⟨lexemes, spells⟩ := ih rest.length (by omega) found rfl
          exact ⟨.quoted raw :: lexemes, .quoted spelled.inside spells⟩
        · rw [Scanner.read_mark] at read
          obtain ⟨lexemes, spells⟩ := ih text.length (by omega) read rfl
          exact ⟨.mark mark :: lexemes, .mark mark spells⟩
        · obtain ⟨characters, rest, parts, plain, boundary⟩ := exists_word text
          have all : ∀ code ∈ character :: characters, IsWord code :=
            List.forall_mem_cons.mpr ⟨word, plain⟩
          subst parts
          rw [← List.cons_append] at read ⊢
          cases rest with
          | nil =>
              rw [List.append_nil, Scanner.read_word_end (by simp) all] at read
              cases read
          | cons next rest =>
              have ends : ¬ IsWord next := boundary next rfl
              rw [Scanner.read_word (by simp) all ends] at read
              obtain ⟨value, numeral, found⟩ := read
              simp only [List.length_append, List.length_cons] at size
              obtain ⟨lexemes, spells⟩ := ih (rest.length + 1) (by omega) found (by simp)
              exact ⟨.word (character :: characters) :: lexemes,
                .word (by simp) all ends spells⟩

/-- The scanner reads text between quotes in one way only. -/
theorem Letters.unique {raw text other : List Char} (letters : Letters raw text)
    (letters' : Letters raw other) : text = other := by
  have read {text : List Char} (letters : Letters raw text) :
      (Scanner.mk [] (.text [])).read (raw ++ ['"']) = some [.name text] :=
    Scanner.read_letters letters [] [] rfl
  have same := (read letters).symm.trans (read letters')
  simpa using same

end CoinSpend.Limits
