/-
This file states which bytes are read as hexadecimal text and how all others are refused.
-/

import CoinSpend.Text

namespace CoinSpend.Hex

/-- The letters of both cases stand for ten and what follows. -/
inductive Digit (code : UInt8) (value : Nat) : Prop where
  | decimal (small : value < 10) (same : code.toNat = '0'.toNat + value)
  | lower (large : 10 ≤ value) (small : value < 16) (same : code.toNat + 10 = 'a'.toNat + value)
  | upper (large : 10 ≤ value) (small : value < 16) (same : code.toNat + 10 = 'A'.toNat + value)

def IsDigit (code : UInt8) : Prop := ∃ value, Digit code value

/-- Every byte is spelled by two digits, the high one first. -/
inductive Spells : (text bytes : Bytes) → Prop where
  | nil : Spells [] []
  | pair {high low : UInt8} {upper lower : Nat} {text bytes : Bytes} (first : Digit high upper)
      (second : Digit low lower) (rest : Spells text bytes) :
      Spells (high :: low :: text) (UInt8.ofNat (16 * upper + lower) :: bytes)

theorem digitValue?_eq_some {code : UInt8} {value : Nat} :
    digitValue? code = some value ↔ Digit code value := by
  have decimal : '0'.toNat = 0x30 := rfl
  have lower : 'a'.toNat = 0x61 := rfl
  have upper : 'A'.toNat = 0x41 := rfl
  apply Iff.intro
  · intro found
    simp only [digitValue?, UInt8.le_iff_toNat_le, UInt8.reduceToNat] at found
    split at found
    · cases found
      exact .decimal (by omega) (by omega)
    · split at found
      · cases found
        exact .lower (by omega) (by omega) (by omega)
      · split at found
        · cases found
          exact .upper (by omega) (by omega) (by omega)
        · cases found
  · intro digit
    simp only [digitValue?, UInt8.le_iff_toNat_le, UInt8.reduceToNat]
    cases digit with
    | decimal small same =>
        rw [if_pos (by omega), Option.some.injEq]
        omega
    | lower large small same =>
        rw [if_neg (by omega), if_pos (by omega), Option.some.injEq]
        omega
    | upper large small same =>
        rw [if_neg (by omega), if_neg (by omega), if_pos (by omega), Option.some.injEq]
        omega

theorem digitValue?_eq_none {code : UInt8} : digitValue? code = none ↔ ¬ IsDigit code := by
  rw [IsDigit, Option.eq_none_iff_forall_ne_some, not_exists]
  simp only [ne_eq, digitValue?_eq_some]

/-- Text that spells bytes is read as these bytes. -/
theorem decodePairs_of_spells {text bytes : Bytes} (spells : Spells text bytes) (position : Nat)
    (collected : Bytes) :
    decodePairs position collected text = .ok (collected.reverse ++ bytes) := by
  induction spells generalizing position collected with
  | nil => simp [decodePairs]
  | pair first second rest ih =>
      rw [decodePairs, digitValue?_eq_some.mpr first, digitValue?_eq_some.mpr second]
      simp [ih]

/-- The first code that is no digit is reported with its position. -/
theorem decodePairs_of_foreign {text front rest : Bytes} {code : UInt8}
    (parts : text = front ++ code :: rest) (digits : ∀ digit ∈ front, IsDigit digit)
    (foreign : ¬ IsDigit code) (even : text.length % 2 = 0) (position : Nat) (collected : Bytes) :
    decodePairs position collected text =
      .error (.invalidCharacter code (position + front.length)) := by
  -- Every pair that is read takes two digits from the front, so the foreign code cannot be one of
  -- them as long as both are digits.
  fun_induction decodePairs position collected text generalizing front with
  | case1 position collected high low text upper lower second first ih =>
      have highDigit : IsDigit high := ⟨upper, digitValue?_eq_some.mp first⟩
      have lowDigit : IsDigit low := ⟨lower, digitValue?_eq_some.mp second⟩
      match front with
      | [] =>
          cases parts
          exact absurd highDigit foreign
      | [_] =>
          cases parts
          exact absurd lowDigit foreign
      | _ :: _ :: front =>
          cases parts
          have others : ∀ digit ∈ front, IsDigit digit :=
            fun digit member => digits digit (by simp [member])
          rw [List.length_cons, List.length_cons, Nat.add_assoc, Nat.add_mod_right] at even
          rw [ih rfl others even, List.length_cons, List.length_cons, Nat.add_assoc,
            Nat.add_comm 2]
  | case2 position collected high low text first =>
      match front with
      | [] =>
          cases parts
          rfl
      | _ :: _ =>
          obtain ⟨rfl, -⟩ := List.cons_eq_cons.mp parts
          exact absurd (digits high List.mem_cons_self) (digitValue?_eq_none.mp first)
  | case3 position collected high low text upper second first =>
      have highDigit : IsDigit high := ⟨upper, digitValue?_eq_some.mp first⟩
      match front with
      | [] =>
          cases parts
          exact absurd highDigit foreign
      | [_] =>
          cases parts
          rfl
      | _ :: _ :: _ =>
          cases parts
          exact absurd (digits low (by simp)) (digitValue?_eq_none.mp second)
  | case4 text position collected short =>
      match text with
      | [] => simp at parts
      | [_] => simp at even
      | high :: low :: text => exact (short high low text rfl).elim

theorem Spells.length_eq {text bytes : Bytes} (spells : Spells text bytes) :
    text.length = 2 * bytes.length := by
  induction spells with
  | nil => rfl
  | pair first second rest ih =>
      simp only [List.length_cons, ih]
      omega

theorem Spells.isDigit {text bytes : Bytes} (spells : Spells text bytes) :
    ∀ code ∈ text, IsDigit code := by
  induction spells with
  | nil => simp
  | pair first second rest ih =>
      intro code member
      simp only [List.mem_cons] at member
      rcases member with rfl | rfl | member
      · exact ⟨_, first⟩
      · exact ⟨_, second⟩
      · exact ih code member

/-- Digits in pairs spell something. -/
theorem exists_spells (text : Bytes) (digits : ∀ code ∈ text, IsDigit code)
    (even : text.length % 2 = 0) : ∃ bytes, Spells text bytes := by
  match text with
  | [] => exact ⟨[], .nil⟩
  | [_] => simp at even
  | high :: low :: rest =>
      obtain ⟨upper, first⟩ := digits high (by simp)
      obtain ⟨lower, second⟩ := digits low (by simp)
      have evenRest : rest.length % 2 = 0 := by
        rwa [List.length_cons, List.length_cons, Nat.add_assoc, Nat.add_mod_right] at even
      have digitsRest : ∀ code ∈ rest, IsDigit code :=
        fun code member => digits code (by simp [member])
      obtain ⟨bytes, spells⟩ := exists_spells rest digitsRest evenRest
      exact ⟨_, .pair first second spells⟩

theorem exists_spells_iff {text : Bytes} :
    (∃ bytes, Spells text bytes) ↔ text.length % 2 = 0 ∧ ∀ code ∈ text, IsDigit code := by
  apply Iff.intro
  · intro spelled
    obtain ⟨bytes, spells⟩ := spelled
    exact ⟨by rw [spells.length_eq, Nat.mul_mod_right], spells.isDigit⟩
  · intro parts
    exact exists_spells text parts.2 parts.1

/-- The codes are digits up to the end, or up to the first one that is none. -/
theorem digits_or_foreign (text : Bytes) :
    (∀ code ∈ text, IsDigit code) ∨ ∃ front code rest, text = front ++ code :: rest ∧
      (∀ digit ∈ front, IsDigit digit) ∧ ¬ IsDigit code := by
  induction text with
  | nil => exact .inl (by simp)
  | cons first text ih =>
      by_cases digit : IsDigit first
      · rcases ih with digits | ⟨front, code, rest, rfl, digits, foreign⟩
        · exact .inl (List.forall_mem_cons.mpr ⟨digit, digits⟩)
        · exact .inr ⟨first :: front, code, rest, rfl, List.forall_mem_cons.mpr ⟨digit, digits⟩,
            foreign⟩
      · exact .inr ⟨[], first, text, rfl, by simp, digit⟩

/-- Text spells bytes, has an odd number of codes, or has a first code that is no digit. -/
inductive Reading (text : Bytes) : Except Defect Bytes → Prop where
  | spelled {bytes : Bytes} (spells : Spells text bytes) : Reading text (.ok bytes)
  | odd (odd : text.length % 2 = 1) : Reading text (.error .oddDigits)
  | foreign {front rest : Bytes} {code : UInt8} (even : text.length % 2 = 0)
      (parts : text = front ++ code :: rest) (digits : ∀ digit ∈ front, IsDigit digit)
      (foreign : ¬ IsDigit code) : Reading text (.error (.invalidCharacter code front.length))

theorem decode_of_reading {text : Bytes} {outcome : Except Defect Bytes}
    (reading : Reading text outcome) : decode text = outcome := by
  cases reading with
  | spelled spells =>
      have even : ¬ text.length % 2 = 1 := by
        rw [spells.length_eq, Nat.mul_mod_right]
        decide
      rw [decode, if_neg even, decodePairs_of_spells spells]
      rfl
  | odd odd => rw [decode, if_pos odd]
  | foreign even parts digits foreign =>
      rw [decode, if_neg (by omega), decodePairs_of_foreign parts digits foreign even, Nat.zero_add]

theorem exists_reading (text : Bytes) : ∃ outcome, Reading text outcome := by
  rcases Nat.mod_two_eq_zero_or_one text.length with even | odd
  · rcases digits_or_foreign text with digits | ⟨front, code, rest, parts, digits, foreign⟩
    · obtain ⟨bytes, spells⟩ := exists_spells text digits even
      exact ⟨_, .spelled spells⟩
    · exact ⟨_, .foreign even parts digits foreign⟩
  · exact ⟨_, .odd odd⟩

theorem decode_eq_iff_reading {text : Bytes} {outcome : Except Defect Bytes} :
    decode text = outcome ↔ Reading text outcome := by
  apply Iff.intro
  · intro read
    obtain ⟨other, reading⟩ := exists_reading text
    rwa [← read, decode_of_reading reading]
  · exact decode_of_reading

/-- A written digit is a single code. -/
theorem utf8_digit {value : Nat} (small : value < 16) :
    ∃ code, String.utf8EncodeChar (digit value) = [code] ∧ Digit code value := by
  have single : ∀ value < 16,
      String.utf8EncodeChar (digit value) = [UInt8.ofNat (digit value).toNat] := by
    decide
  have read : ∀ value < 16, digitValue? (UInt8.ofNat (digit value).toNat) = some value := by
    decide
  exact ⟨_, single value small, digitValue?_eq_some.mp (read value small)⟩

/-- A written digit is no blank. -/
theorem not_isBlank_of_mem {bytes : Bytes} {character : Char}
    (member : character ∈ characters bytes) : Text.isBlank character = false := by
  have digits : ∀ value < 16, Text.isBlank (digit value) = false := by decide
  obtain ⟨byte, -, found⟩ := List.mem_flatMap.mp member
  have bound := byte.toNat_lt
  simp only [pair, List.mem_cons, List.not_mem_nil, or_false] at found
  rcases found with rfl | rfl
  · exact digits _ (by omega)
  · exact digits _ (by omega)

/-- The written form of bytes spells them. -/
theorem spells_characters (bytes : Bytes) : Spells (Text.utf8 (characters bytes)) bytes := by
  induction bytes with
  | nil => exact .nil
  | cons byte bytes ih =>
      have bound := byte.toNat_lt
      obtain ⟨high, highCode, first⟩ := utf8_digit (show byte.toNat / 16 < 16 by omega)
      obtain ⟨low, lowCode, second⟩ := utf8_digit (show byte.toNat % 16 < 16 by omega)
      have split : Text.utf8 (characters (byte :: bytes)) =
          high :: low :: Text.utf8 (characters bytes) := by
        simp [Text.utf8, characters, pair, highCode, lowCode]
      have joined : UInt8.ofNat (16 * (byte.toNat / 16) + byte.toNat % 16) = byte := by
        rw [Nat.div_add_mod, UInt8.ofNat_toNat]
      have spelled := Spells.pair first second ih
      rwa [joined, ← split] at spelled

end CoinSpend.Hex
