/-
This file states which documents load and which limits they load, and that every other document is
refused.
-/

import CoinSpend.Proofs.Limits.Settings

namespace CoinSpend.Limits

theorem ofDocument_eq_ok {text : String} {limits : Limits} :
    ofDocument text = .ok limits ↔ ∃ found settings, tokens? text.toList = some found ∧
      settings? found = some settings ∧ limits = settings.complete := by
  unfold ofDocument
  cases tokens? text.toList with
  | none => simp
  | some found =>
      simp only [Option.bind_some, Option.some.injEq, exists_and_left, exists_eq_left']
      cases settings? found <;> simp [eq_comm]

theorem ofDocument_eq_error {text : String} :
    ofDocument text = .error .limitsDocument ↔ ∀ limits, ofDocument text ≠ .ok limits := by
  unfold ofDocument
  cases (tokens? text.toList).bind settings? <;> simp

/-- A document loads exactly when its value gives something and only spaces follow the value. -/
theorem ofDocument_append {text : String} {value : Value} {front rest : List Char}
    (parts : text.toList = front ++ rest) (spells : Spells value.lexemes front) {limits : Limits} :
    ofDocument text = .ok limits ↔
      (∀ character ∈ rest, IsSpace character) ∧
        ∃ entries, value.Gives entries ∧ limits = given entries := by
  have reading (found : List Token) : tokens? text.toList = some found ↔
      ∃ tokens, List.Forall₂ Reads value.lexemes tokens ∧
        (Scanner.mk tokens.reverse .nothing).read rest = some found := by
    have scanned : tokens? text.toList = (Scanner.mk [] .nothing).read (front ++ rest) := by
      rw [← parts]
      rfl
    rw [scanned, read_of_spells spells]
    simp only [List.append_nil]
  rw [ofDocument_eq_ok]
  apply Iff.intro
  · intro ⟨found, settings, scanned, read, same⟩
    obtain ⟨tokens, reads, scanned⟩ := (reading found).mp scanned
    obtain ⟨lexemes, others⟩ := exists_spells scanned
    obtain ⟨extra, readsExtra, total⟩ := (read_eq_some others tokens.reverse).mp scanned
    rw [List.reverse_reverse] at total
    subst total
    obtain ⟨closed, entries, gives, filled⟩ := (settings_read value).mp ⟨tokens, reads, read⟩
    subst closed filled
    cases readsExtra
    exact ⟨spells_nil_iff.mp others, entries, gives,
      same.trans (Settings.complete_fill gives.nodup)⟩
  · intro ⟨blank, entries, gives, same⟩
    obtain ⟨tokens, reads, read⟩ :=
      (settings_read value).mpr ⟨(rfl : [] = []), entries, gives, rfl⟩
    rw [List.append_nil] at read
    refine ⟨tokens, _, (reading tokens).mpr ⟨tokens, reads, ?_⟩, read,
      same.trans (Settings.complete_fill gives.nodup).symm⟩
    exact (read_eq_some (spells_nil_iff.mpr blank) tokens.reverse).mpr ⟨[], .nil, by simp⟩

/-- Every document that loads is spelled by a value. -/
theorem exists_spelled {text : String} {limits : Limits} (loads : ofDocument text = .ok limits) :
    ∃ value : Value, Spells value.lexemes text.toList := by
  obtain ⟨found, settings, scanned, read, _⟩ := ofDocument_eq_ok.mp loads
  obtain ⟨lexemes, spells⟩ := exists_spells scanned
  obtain ⟨tokens, reads, total⟩ := (read_eq_some spells []).mp scanned
  rw [List.reverse_nil, List.nil_append] at total
  subst total
  obtain ⟨value, rfl⟩ := exists_value reads read
  exact ⟨value, spells⟩

theorem ofDocument_of_spells {text : String} {value : Value}
    (spells : Spells value.lexemes text.toList) {limits : Limits} :
    ofDocument text = .ok limits ↔ ∃ entries, value.Gives entries ∧ limits = given entries := by
  have loads := @ofDocument_append _ _ _ [] (List.append_nil _).symm spells limits
  simpa using loads

/-- A document loads what its value gives, a list as much as an object with the names in order, and
every other text is refused: one with a faulty value, one with anything but spaces behind the value,
and one that spells no value at all. The number of a limit is spelled by decimal digits alone. A
list gives its numbers to the three names in the order in which they stand here. -/
theorem ofDocument_reads (text : String) :
    (∀ (value : Value) (entries : List (Name × Nat)), Spells value.lexemes text.toList →
      value.Gives entries → ofDocument text = .ok (given entries)) ∧
    (∀ (other : String) (elements : List Value) (members : List (List Char × Value))
      (numbers : List Nat), List.Forall₂ Value.IsPlain elements numbers →
      List.Forall₂ Sets members (Name.all.zip numbers) → numbers.length ≤ 3 →
      Spells (Value.list elements).lexemes text.toList →
      Spells (Value.object members).lexemes other.toList →
      ofDocument text = ofDocument other) ∧
    ((∀ (value : Value) (entries : List (Name × Nat)), Spells value.lexemes text.toList →
      ¬ value.Gives entries) → ofDocument text = .error .limitsDocument) ∧
    (∀ value : Value, Spells value.lexemes text.toList →
      (ofDocument text = .error .limitsDocument ↔ value.Faulty)) ∧
    (∀ (value : Value) (front rest : List Char), text.toList = front ++ rest →
      Spells value.lexemes front → (∃ character ∈ rest, ¬ IsSpace character) →
      ofDocument text = .error .limitsDocument) ∧
    (∀ (value : Value) (number : Nat), value.IsPlain number ↔
      ∃ characters, value = .word characters ∧ characters ≠ [] ∧
        (∀ character ∈ characters, character.isDigit = true) ∧
        (characters.head? = some '0' → characters = ['0']) ∧
        number = Nat.ofDigitChars 10 characters 0 ∧ number ≤ maxDeclared) ∧
    Fault.limitsDocument.code.label = "TX_ERR_CONFIG" ∧
    (∀ (elements : List Value) (numbers : List Nat), List.Forall₂ Value.IsPlain elements numbers →
      numbers.length ≤ 3 → Spells (Value.list elements).lexemes text.toList →
      ofDocument text = .ok ⟨numbers.getD 0 maxDeclared, numbers.getD 1 maxDeclared,
        numbers.getD 2 maxDeclared⟩) ∧
    Name.all = [.maxInputs, .maxOutputs, .maxScriptBytes] ∧
    Name.maxInputs.characters = "max_inputs".toList ∧
    Name.maxOutputs.characters = "max_outputs".toList ∧
    Name.maxScriptBytes.characters = "max_script_bytes".toList := by
  refine ⟨?_, ?_, ?_, ?_, ?_, fun _ _ => Value.isPlain_iff, rfl, ?_, rfl, rfl, rfl, rfl⟩
  · intro value entries spells gives
    exact (ofDocument_of_spells spells).mpr ⟨entries, gives, rfl⟩
  · intro other elements members numbers plain sets few spells spells'
    have list : (Value.list elements).Gives (Name.all.zip numbers) := .list plain few
    have loads := (ofDocument_of_spells spells).mpr ⟨_, list, rfl⟩
    have loads' := (ofDocument_of_spells spells').mpr ⟨_, .object sets list.nodup, rfl⟩
    rw [loads, loads']
  · intro nothing
    rw [ofDocument_eq_error]
    intro limits loads
    obtain ⟨value, spells⟩ := exists_spelled loads
    obtain ⟨entries, gives, _⟩ := (ofDocument_of_spells spells).mp loads
    exact nothing value entries spells gives
  · intro value spells
    rw [ofDocument_eq_error]
    apply Iff.intro
    · intro refused
      rcases value.gives_or_faulty with ⟨entries, gives⟩ | faulty
      · exact absurd ((ofDocument_of_spells spells).mpr ⟨entries, gives, rfl⟩) (refused _)
      · exact faulty
    · intro faulty limits loads
      obtain ⟨entries, gives, _⟩ := (ofDocument_of_spells spells).mp loads
      exact faulty.not_gives gives
  · intro value front rest parts spells ⟨character, inside, foreign⟩
    rw [ofDocument_eq_error]
    intro limits loads
    exact foreign (((ofDocument_append parts spells).mp loads).1 character inside)
  · intro elements numbers plain few spells
    rw [← given_zip]
    exact (ofDocument_of_spells spells).mpr ⟨_, .list plain few, rfl⟩

/-- The names stand in another order, one of them with an escape, among spaces of all kinds. -/
def spacedText : String :=
  "\t\x7b\"max_script_bytes\" : 18446744073709551615,\r\n\"max_\\u0069nputs\":0 \x7d"

def escapedName : List Char := "max_".toList ++ '\x5c' :: 'u' :: ("0069".toList ++ "nputs".toList)

def spacedValue : Value :=
  .object [(Name.maxScriptBytes.characters, .word (Nat.toDigits 10 maxDeclared)),
    (escapedName, .word ['0'])]

theorem escapedName_letters : Letters escapedName Name.maxInputs.characters := by
  have spelled : List.Forall₂ HexDigit "0069".toList [0, 0, 6, 9] :=
    .cons (hexValue?_eq_some.mp rfl) (.cons (hexValue?_eq_some.mp rfl)
      (.cons (hexValue?_eq_some.mp rfl) (.cons (hexValue?_eq_some.mp rfl) .nil)))
  have whole : ¬ IsSurrogate (hexNumber 0 [0, 0, 6, 9]) := by
    unfold IsSurrogate
    decide
  have others : Letters "nputs".toList "nputs".toList := letters_self (by simp)
  have escaped := Letters.codePoint rfl spelled whole others
  exact .plain (by decide) (by decide) (.plain (by decide) (by decide)
    (.plain (by decide) (by decide) (.plain (by decide) (by decide) escaped)))

theorem spacedValue_gives :
    spacedValue.Gives [(.maxScriptBytes, maxDeclared), (.maxInputs, 0)] := by
  have first : Sets (Name.maxScriptBytes.characters, .word (Nat.toDigits 10 maxDeclared))
      (.maxScriptBytes, maxDeclared) :=
    ⟨letters_self (by simp [Name.characters]), .word ⟨rfl, Nat.le_refl _⟩⟩
  have second : Sets (escapedName, .word ['0']) (.maxInputs, 0) :=
    ⟨escapedName_letters, .word ⟨rfl, Nat.zero_le _⟩⟩
  exact .object (.cons first (.cons second .nil)) (by decide)

theorem spacedText_spelled : Spells spacedValue.lexemes spacedText.toList := by
  have parts : spacedText.toList = '\t' :: '{' :: '"' :: (Name.maxScriptBytes.characters ++
      '"' :: ' ' :: ':' :: ' ' :: (Nat.toDigits 10 maxDeclared ++ ',' :: '\r' :: '\n' ::
      '"' :: (escapedName ++ '"' :: ':' :: (['0'] ++ ' ' :: ['}'])))) := by rfl
  have digits : ∀ character ∈ Nat.toDigits 10 maxDeclared, IsWord character := by
    have written : Nat.toDigits 10 maxDeclared = "18446744073709551615".toList := by rfl
    rw [written]
    simp [IsWord]
  rw [parts]
  exact .space (by simp [IsSpace]) (.mark .openObject
    (.quoted (letters_self (by simp [Name.characters])).inside (.space (by simp [IsSpace])
    (.mark .colon (.space (by simp [IsSpace])
    (.word Nat.toDigits_ne_nil digits (by simp [IsWord])
    (.mark .comma (.space (by simp [IsSpace]) (.space (by simp [IsSpace])
    (.quoted escapedName_letters.inside
    (.mark .colon (.word (by simp) (by simp [IsWord]) (by simp [IsWord])
    (.space (by simp [IsSpace]) (.mark .closeObject .nil))))))))))))))

theorem digit_spelled {digit mark : Char} {lexemes : List Lexeme} {text : List Char}
    (word : IsWord digit) (boundary : ¬ IsWord mark) (rest : Spells lexemes (mark :: text)) :
    Spells (.word [digit] :: lexemes) (digit :: mark :: text) :=
  .word (by simp) (by simpa using word) boundary rest

theorem loneName_spelled : Spells
    (Value.object [("max_outputs".toList, .word ['7'])]).lexemes
    "\x7b\"max_outputs\":7\x7d".toList := by
  have parts : "\x7b\"max_outputs\":7\x7d".toList =
      '{' :: '"' :: ("max_outputs".toList ++ '"' :: ':' :: '7' :: ['}']) := by rfl
  rw [parts]
  exact .mark .openObject (.quoted (letters_self (by simp)).inside (.mark .colon
    (digit_spelled (by simp [IsWord]) (by simp [IsWord]) (.mark .closeObject .nil))))

theorem twoNumbers_spelled :
    Spells (Value.list [.word ['5'], .word ['6']]).lexemes "[5, 6]".toList := by
  have parts : "[5, 6]".toList = '[' :: '5' :: ',' :: ' ' :: '6' :: [']'] := by rfl
  rw [parts]
  exact .mark .openArray (digit_spelled (by simp [IsWord]) (by simp [IsWord]) (.mark .comma
    (.space (by simp [IsSpace]) (digit_spelled (by simp [IsWord]) (by simp [IsWord])
    (.mark .closeArray .nil)))))

/-- The value of this text has one element more than there are names. -/
theorem fourNumbers_spelled : Spells
    (Value.list [.word ['0'], .word ['1'], .word ['2'], .word ['3']]).lexemes
    "[0,1,2,3]".toList := by
  have parts : "[0,1,2,3]".toList =
      '[' :: '0' :: ',' :: '1' :: ',' :: '2' :: ',' :: '3' :: [']'] := by rfl
  rw [parts]
  exact .mark .openArray (digit_spelled (by simp [IsWord]) (by simp [IsWord]) (.mark .comma
    (digit_spelled (by simp [IsWord]) (by simp [IsWord]) (.mark .comma
    (digit_spelled (by simp [IsWord]) (by simp [IsWord]) (.mark .comma
    (digit_spelled (by simp [IsWord]) (by simp [IsWord]) (.mark .closeArray .nil))))))))

/-- Names that an object or a list leaves out cap nothing. -/
theorem spacedText_loads :
    ofDocument spacedText = .ok ⟨0, maxDeclared, maxDeclared⟩ ∧
      ofDocument "\x7b\"max_outputs\":7\x7d" = .ok ⟨maxDeclared, 7, maxDeclared⟩ ∧
      ofDocument "[5, 6]" = .ok ⟨5, 6, maxDeclared⟩ ∧
      ofDocument "[0,1,2,3]" = .error .limitsDocument := by
  refine ⟨?_, ?_, ?_, ?_⟩
  · exact (ofDocument_reads spacedText).1 _ _ spacedText_spelled spacedValue_gives
  · have sets : Sets ("max_outputs".toList, .word ['7']) (.maxOutputs, 7) :=
      ⟨letters_self (by simp), .word ⟨rfl, by decide⟩⟩
    exact (ofDocument_reads _).1 _ _ loneName_spelled (.object (.cons sets .nil) (by decide))
  · obtain ⟨-, -, -, -, -, -, -, lists, -⟩ := ofDocument_reads "[5, 6]"
    have plain : List.Forall₂ Value.IsPlain [.word ['5'], .word ['6']] [5, 6] :=
      .cons (.word ⟨rfl, by decide⟩) (.cons (.word ⟨rfl, by decide⟩) .nil)
    exact lists _ _ plain (by decide) twoNumbers_spelled
  · have faults := (ofDocument_reads "[0,1,2,3]").2.2.2.1
    exact (faults _ fourNumbers_spelled).mpr (.tooMany (by decide))

end CoinSpend.Limits
