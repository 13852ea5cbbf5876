/-
This file states that hexadecimal text is read like the bytes that it spells, and that only other
text is refused for its form.
-/

import CoinSpend.Proofs.Hex
import CoinSpend.Proofs.Text
import CoinSpend.Proofs.Transaction.Extension
import CoinSpend.Proofs.Transaction.RoundTrip

namespace CoinSpend

/-- The codes of a text are those of its characters without the blanks around them. -/
def Text.codes (text : String) : Bytes := Text.utf8 (Text.trim text.toList)

/-- The written form of bytes has no blanks at its ends, so those around it are removed. -/
theorem Text.codes_padded {front back : String} (bytes : Bytes)
    (frontBlank : ∀ character ∈ front.toList, isBlank character = true)
    (backBlank : ∀ character ∈ back.toList, isBlank character = true) :
    codes (front ++ Hex.encode bytes ++ back) = Text.utf8 (Hex.characters bytes) := by
  have characters : (front ++ Hex.encode bytes ++ back).toList =
      front.toList ++ Hex.characters bytes ++ back.toList := by
    simp [Hex.encode]
  have core : Core (front.toList ++ Hex.characters bytes ++ back.toList) (Hex.characters bytes) :=
    { parts := ⟨_, _, rfl, frontBlank, backBlank⟩
      first := fun character found => Hex.not_isBlank_of_mem (List.mem_of_head? found)
      last := fun character found => Hex.not_isBlank_of_mem (List.mem_of_getLast? found) }
  rw [codes, characters, core.trim_eq]

namespace Transaction

variable {limits : Limits} {text : String}

theorem decodeText_of_spells {bytes : Bytes} (spells : Hex.Spells (Text.codes text) bytes) :
    decodeText limits text = decodeWithin limits bytes := by
  rw [decodeText, ← Text.codes, Hex.decode_of_reading (.spelled spells)]

/-- Bytes are only refused by faults of the parse class. -/
theorem code_of_decodeWithin_error {bytes : Bytes} {fault : Fault}
    (refused : decodeWithin limits bytes = .error fault) : fault.code = .parse := by
  rcases decodeWithin_error refused with lacking | ⟨definite, -⟩ | ⟨count, rfl, -⟩
  · cases lacking <;> rfl
  · cases definite <;> rfl
  · rfl

/-- A text is refused for its form by the defect that is read in it and by nothing else. -/
theorem decodeText_eq_notHex {defect : Hex.Defect} :
    decodeText limits text = .error (.notHex defect) ↔
      Hex.Reading (Text.codes text) (.error defect) := by
  rw [← Hex.decode_eq_iff_reading, decodeText, ← Text.codes]
  cases Hex.decode (Text.codes text) with
  | error other => simp
  | ok bytes =>
      apply Iff.intro
      · intro refused
        cases code_of_decodeWithin_error refused
      · intro impossible
        cases impossible

end Transaction

/-- Text that spells bytes is read like these bytes, whatever blanks stand around it, and any other
text is refused with its odd number of codes or with its first code that is no digit. -/
theorem Transaction.decodeText_reads (limits : Limits) (text : String) :
    Text.Core text.toList (Text.trim text.toList) ∧
    ((∃ bytes, Hex.Spells (Text.codes text) bytes) ↔
      (Text.codes text).length % 2 = 0 ∧ ∀ code ∈ Text.codes text, Hex.IsDigit code) ∧
    (∀ bytes, Hex.Spells (Text.codes text) bytes →
      decodeText limits text = decodeWithin limits bytes) ∧
    ((¬ ∃ bytes, Hex.Spells (Text.codes text) bytes) →
      ∃ defect, decodeText limits text = .error (.notHex defect)) ∧
    (∀ fault, decodeText limits text = .error fault → fault.code.label = "TX_ERR_INPUT_TYPE" →
      ¬ ∃ bytes, Hex.Spells (Text.codes text) bytes) ∧
    (decodeText limits text = .error (.notHex .oddDigits) ↔
      (Text.codes text).length % 2 = 1) ∧
    (∀ code position,
      decodeText limits text = .error (.notHex (.invalidCharacter code position)) ↔
        (Text.codes text).length % 2 = 0 ∧ ∃ front rest,
          Text.codes text = front ++ code :: rest ∧ front.length = position ∧
          (∀ digit ∈ front, Hex.IsDigit digit) ∧ ¬ Hex.IsDigit code) ∧
    (∀ defect, (Fault.notHex defect).code.label = "TX_ERR_INPUT_TYPE") ∧
    (Fault.notHex .oddDigits).message =
      "raw transaction must be hex text or bytes: Odd number of digits" ∧
    (∀ code position, (Fault.notHex (.invalidCharacter code position)).message =
      "raw transaction must be hex text or bytes: " ++
        ("Invalid character " ++ Text.quoted (Char.ofNat code.toNat) ++
          s!" at position {position}")) ∧
    (∀ (transaction : Transaction) (front back : String),
      (∀ character ∈ front.toList, Text.isBlank character = true) →
      (∀ character ∈ back.toList, Text.isBlank character = true) →
      decodeText limits (front ++ Hex.encode transaction.encode ++ back) =
        decodeWithin limits transaction.encode) := by
  refine ⟨Text.trim_core text.toList, Hex.exists_spells_iff, fun bytes => decodeText_of_spells,
    ?_, ?_, ?_, ?_, fun _ => rfl, rfl, fun _ _ => rfl, ?_⟩
  · intro unspelled
    obtain ⟨outcome, reading⟩ := Hex.exists_reading (Text.codes text)
    cases outcome with
    | error defect => exact ⟨defect, decodeText_eq_notHex.mpr reading⟩
    | ok bytes =>
        cases reading with
        | spelled spells => exact absurd ⟨bytes, spells⟩ unspelled
  · intro fault refused kind spelled
    obtain ⟨bytes, spells⟩ := spelled
    rw [decodeText_of_spells spells] at refused
    rw [code_of_decodeWithin_error refused] at kind
    simp [FaultCode.label] at kind
  · rw [decodeText_eq_notHex]
    constructor
    · intro reading
      cases reading with
      | odd odd => exact odd
    · exact .odd
  · intro code position
    rw [decodeText_eq_notHex]
    constructor
    · intro reading
      cases reading with
      | foreign even parts digits foreign => exact ⟨even, _, _, parts, rfl, digits, foreign⟩
    · rintro ⟨even, front, rest, parts, rfl, digits, foreign⟩
      exact .foreign even parts digits foreign
  · intro transaction front back frontBlank backBlank
    apply decodeText_of_spells
    rw [Text.codes_padded _ frontBlank backBlank]
    exact Hex.spells_characters transaction.encode

/-- Padded text is read like its bytes, the letter behind the digits is reported, and a character
outside of ASCII counts as two codes. -/
theorem twinSpend_decodeText :
    Transaction.decodeText .unlimited ("\n " ++ Hex.encode twinSpend.encode ++ "\t") =
        Transaction.decodeWithin .unlimited twinSpend.encode ∧
      Transaction.decodeText .unlimited " 0G" = .error (.notHex (.invalidCharacter 0x47 1)) ∧
      Transaction.decodeText .unlimited "aé" = .error (.notHex .oddDigits) := by
  have padded := (Transaction.decodeText_reads .unlimited "").2.2.2.2.2.2.2.2.2.2 twinSpend
  have letter := (Transaction.decodeText_reads .unlimited " 0G").2.2.2.2.2.2.1 0x47 1
  have odd := (Transaction.decodeText_reads .unlimited "aé").2.2.2.2.2.1
  have zero : ∀ code ∈ [0x30], Hex.IsDigit code := by
    intro code member
    rw [List.mem_singleton.mp member]
    exact ⟨0, .decimal (by decide) rfl⟩
  have capital : ¬ Hex.IsDigit 0x47 := Hex.digitValue?_eq_none.mp rfl
  have front : ∀ character ∈ "\n ".toList, Text.isBlank character = true :=
    List.all_eq_true.mp rfl
  have back : ∀ character ∈ "\t".toList, Text.isBlank character = true := List.all_eq_true.mp rfl
  exact ⟨padded "\n " "\t" front back,
    letter.mpr ⟨by decide, [0x30], [], by decide, rfl, zero, capital⟩, odd.mpr (by decide)⟩

end CoinSpend
