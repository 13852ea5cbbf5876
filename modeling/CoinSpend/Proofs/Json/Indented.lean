/-
This file states that the lines of a laid out value show what they were made from.
-/

import CoinSpend.Proofs.Hex
import CoinSpend.Transaction.Inspection

namespace CoinSpend

/-- Bytes are read back from their digits, so different bytes have different digits. -/
theorem Hex.encode_inj {left right : Bytes} :
    Hex.encode left = Hex.encode right ↔ left = right := by
  constructor
  · intro same
    have digits : Hex.characters left = Hex.characters right := String.ofList_injective same
    have read (bytes : Bytes) : Hex.decode (Text.utf8 (Hex.characters bytes)) = .ok bytes :=
      Hex.decode_of_reading (.spelled (Hex.spells_characters bytes))
    have readLeft := read left
    rw [digits, read right] at readLeft
    exact (Except.ok.inj readLeft).symm
  · intro same
    rw [same]

namespace Json

/-- Lines hold no line feeds of their own. -/
def Lines.Unbroken (lines : Lines) : Prop := ∀ line ∈ lines, '\n' ∉ line.toList

theorem indent_inj {left right : String} : indent left = indent right ↔ left = right :=
  String.append_right_inj "  "

theorem map_indent_inj {left right : Lines} :
    left.map indent = right.map indent ↔ left = right :=
  List.map_inj_right fun _ _ => indent_inj.mp

/-- Indented lines are told apart from what follows them by their number. -/
theorem map_indent_append_inj {left right leftRest rightRest : Lines}
    (sizes : left.length = right.length)
    (same : left.map indent ++ leftRest = right.map indent ++ rightRest) :
    left = right ∧ leftRest = rightRest := by
  obtain ⟨lines, rests⟩ := List.append_inj same (by simpa using sizes)
  exact ⟨map_indent_inj.mp lines, rests⟩

theorem quote_inj {left right : String} : quote left = quote right ↔ left = right := by
  unfold quote
  rw [String.append_left_inj, String.append_right_inj]

theorem hexText_inj {left right : Bytes} : hexText left = hexText right ↔ left = right := by
  unfold hexText
  rw [List.singleton_inj, quote_inj, Hex.encode_inj]

theorem number_inj {left right : Nat} : number left = number right ↔ left = right := by
  constructor
  · intro same
    have digits := congrArg String.toList (List.singleton_inj.mp same)
    rw [Nat.toString_eq_repr, Nat.toString_eq_repr, Nat.toList_repr, Nat.toList_repr] at digits
    rw [← @Nat.ofDigitChars_ten_toDigits left, digits, Nat.ofDigitChars_ten_toDigits]
  · intro same
    rw [same]

theorem named_inj {name : String} {left right : Lines} :
    named name left = named name right ↔ left = right := by
  cases left <;> cases right <;> simp [named]

@[simp] theorem withComma_concat (front : Lines) (last : String) :
    withComma (front ++ [last]) = front ++ [last ++ ","] := by
  induction front with
  | nil => rfl
  | cons line front ih =>
      cases front with
      | nil => rfl
      | cons next front =>
          simp only [List.cons_append, withComma] at ih ⊢
          rw [ih]

@[simp] theorem length_withComma (lines : Lines) : (withComma lines).length = lines.length := by
  fun_induction withComma lines <;> simp_all

theorem withComma_inj {left right : Lines} : withComma left = withComma right ↔ left = right := by
  constructor
  · intro same
    rcases List.eq_nil_or_concat left with rfl | ⟨front, last, rfl⟩
    · have size := congrArg List.length same
      simp only [length_withComma, List.length_nil] at size
      exact (List.length_eq_zero_iff.mp size.symm).symm
    · rcases List.eq_nil_or_concat right with rfl | ⟨otherFront, otherLast, rfl⟩
      · have size := congrArg List.length same
        simp at size
      · simp only [List.concat_eq_append, withComma_concat] at same ⊢
        obtain ⟨fronts, lasts⟩ := List.append_inj' same rfl
        rw [fronts, String.append_left_inj "," |>.mp (List.singleton_inj.mp lasts)]
  · intro same
    rw [same]

theorem separated_cons_cons (first second : Lines) (rest : List Lines) :
    separated (first :: second :: rest) = withComma first ++ separated (second :: rest) := rfl

@[simp] theorem length_named (name : String) (lines : Lines) :
    (named name lines).length = lines.length := by
  cases lines <;> rfl

/-- A member whose value takes a known number of lines is told apart from the members behind it. -/
theorem named_append_inj {name : String} {left right leftRest rightRest : Lines}
    (sizes : left.length = right.length)
    (same : withComma (named name left) ++ leftRest = withComma (named name right) ++ rightRest) :
    left = right ∧ leftRest = rightRest := by
  obtain ⟨members, rests⟩ := List.append_inj same (by simpa using sizes)
  exact ⟨named_inj.mp (withComma_inj.mp members), rests⟩

theorem record_inj {left right : List Lines} :
    record left = record right ↔ separated left = separated right := by
  unfold record
  rw [List.append_left_inj, List.cons_inj_right, map_indent_inj]

/-- The last line shows whether another value follows. -/
theorem record_ne_withComma (left right : List Lines) :
    record left ≠ withComma (record right) := by
  intro same
  unfold record at same
  rw [withComma_concat] at same
  obtain ⟨-, closing⟩ := List.append_inj' same rfl
  exact absurd closing (by decide)

/-- All blocks are records of one size. -/
def Uniform (size : Nat) (blocks : List Lines) : Prop :=
  ∀ block ∈ blocks, block.length = size ∧ ∃ members, block = record members

/-- Blocks of one size are told apart, whatever follows them. -/
theorem separated_append_inj {size : Nat} {left right : List Lines} {leftRest rightRest : Lines}
    (leftUniform : Uniform size left) (rightUniform : Uniform size right) (leftSome : left ≠ [])
    (rightSome : right ≠ [])
    (same : (separated left).map indent ++ leftRest = (separated right).map indent ++ rightRest) :
    left = right ∧ leftRest = rightRest := by
  -- The first blocks have one size, so they are equal, with or without the comma behind them.
  induction left generalizing right with
  | nil => exact absurd rfl leftSome
  | cons first others ih =>
      match right, rightSome with
      | next :: rightOthers, _ =>
          obtain ⟨firstSize, firstMembers, firstRecord⟩ := leftUniform first List.mem_cons_self
          obtain ⟨nextSize, nextMembers, nextRecord⟩ := rightUniform next List.mem_cons_self
          have sizes : first.length = next.length := firstSize.trans nextSize.symm
          cases others with
          | nil =>
              cases rightOthers with
              | nil =>
                  obtain ⟨rfl, rests⟩ := map_indent_append_inj sizes same
                  exact ⟨rfl, rests⟩
              | cons third rightOthers =>
                  rw [separated_cons_cons, List.map_append, List.append_assoc] at same
                  obtain ⟨comma, -⟩ := map_indent_append_inj (by simpa [separated] using sizes) same
                  rw [firstRecord, nextRecord] at comma
                  exact absurd comma (record_ne_withComma _ _)
          | cons second others =>
              cases rightOthers with
              | nil =>
                  rw [separated_cons_cons, List.map_append, List.append_assoc] at same
                  obtain ⟨comma, -⟩ := map_indent_append_inj (by simpa [separated] using sizes) same
                  rw [firstRecord, nextRecord] at comma
                  exact absurd comma.symm (record_ne_withComma _ _)
              | cons third rightOthers =>
                  simp only [separated_cons_cons, List.map_append, List.append_assoc] at same
                  obtain ⟨firsts, behind⟩ := map_indent_append_inj (by simpa using sizes) same
                  obtain ⟨rests, ends⟩ := ih
                    (fun block member => leftUniform block (List.mem_cons_of_mem _ member))
                    (fun block member => rightUniform block (List.mem_cons_of_mem _ member))
                    (List.cons_ne_nil _ _) (List.cons_ne_nil _ _) behind
                  rw [withComma_inj.mp firsts, rests]
                  exact ⟨rfl, ends⟩

theorem list_of_ne_nil {values : List Lines} (filled : values ≠ []) :
    list values = "[" :: (separated values).map indent ++ ["]"] := by
  rw [list, if_neg (by simpa using filled)]

/-- A list in front of another member is told apart from it, and the empty list from every other. -/
theorem named_list_append_inj {size : Nat} {name : String} {left right : List Lines}
    {leftRest rightRest : Lines} (leftUniform : Uniform size left)
    (rightUniform : Uniform size right)
    (same : withComma (named name (list left)) ++ leftRest =
      withComma (named name (list right)) ++ rightRest) :
    left = right ∧ leftRest = rightRest := by
  have opening (values : List Lines) (filled : values ≠ []) :
      withComma (named name (list values)) =
        (quote name ++ ": " ++ "[") :: ((separated values).map indent ++ ["],"]) := by
    rw [list_of_ne_nil filled]
    exact withComma_concat ((quote name ++ ": " ++ "[") :: (separated values).map indent) "]"
  have empty : withComma (named name (list [])) = [quote name ++ ": " ++ "[]" ++ ","] := rfl
  have distinct : quote name ++ ": " ++ "[]" ++ "," ≠ quote name ++ ": " ++ "[" := by
    rw [String.append_assoc, ne_eq, String.append_right_inj]
    decide
  by_cases leftSome : left = []
  · by_cases rightSome : right = []
    · subst leftSome rightSome
      exact ⟨rfl, List.append_cancel_left same⟩
    · rw [leftSome, empty, opening right rightSome] at same
      exact absurd (List.cons.inj same).1 distinct
  · by_cases rightSome : right = []
    · rw [rightSome, empty, opening left leftSome] at same
      exact absurd (List.cons.inj same).1.symm distinct
    · rw [opening left leftSome, opening right rightSome, List.cons_append, List.cons_append,
        List.append_assoc, List.append_assoc] at same
      obtain ⟨blocks, rests⟩ := separated_append_inj leftUniform rightUniform leftSome rightSome
        (List.cons.inj same).2
      exact ⟨blocks, List.append_cancel_left rests⟩

/-- Lines without line feeds of their own can be found again in the text. -/
theorem render_inj {left right : Lines} (leftUnbroken : left.Unbroken)
    (rightUnbroken : right.Unbroken) (leftSome : left ≠ []) (rightSome : right ≠ [])
    (same : render left = render right) : left = right := by
  have split (lines : Lines) (unbroken : lines.Unbroken) (filled : lines ≠ []) :
      (render lines).toList.splitOn '\n' = lines.map String.toList := by
    rw [render, String.toList_intercalate]
    apply List.splitOn_intercalate
    · intro characters member
      obtain ⟨line, found, rfl⟩ := List.mem_map.mp member
      exact unbroken line found
    · simpa using filled
  have characters := split left leftUnbroken leftSome
  rw [same, split right rightUnbroken rightSome] at characters
  exact (List.map_inj_right fun _ _ => String.toList_inj.mp).mp characters.symm

section

variable {lines : Lines} {values : List Lines}

theorem number_unbroken (value : Nat) : (number value).Unbroken := by
  intro line member
  rw [List.mem_singleton.mp member, Nat.toString_eq_repr, Nat.toList_repr]
  intro feed
  exact absurd (Nat.isDigit_of_mem_toDigits (by decide) (by decide) feed) (by decide)

theorem hexText_unbroken (bytes : Bytes) : (hexText bytes).Unbroken := by
  intro line member feed
  rw [List.mem_singleton.mp member] at feed
  have digit : '\n' ∈ Hex.characters bytes := by simpa [quote, Hex.encode] using feed
  exact absurd (Hex.not_isBlank_of_mem digit) (by decide)

theorem named_unbroken {name : String} (plain : '\n' ∉ name.toList) (unbroken : lines.Unbroken) :
    (named name lines).Unbroken := by
  cases lines with
  | nil => exact unbroken
  | cons first rest =>
      intro line member
      rcases List.mem_cons.mp member with rfl | behind
      · have opening := unbroken first List.mem_cons_self
        simp [quote, plain, opening]
      · exact unbroken line (List.mem_cons_of_mem first behind)

theorem withComma_unbroken (unbroken : lines.Unbroken) : (withComma lines).Unbroken := by
  fun_induction withComma lines with
  | case1 => exact unbroken
  | case2 last =>
      have plain := unbroken last List.mem_cons_self
      intro line member
      rw [List.mem_singleton.mp member]
      simp [plain]
  | case3 first rest _ ih =>
      have behind := ih fun line member => unbroken line (List.mem_cons_of_mem first member)
      intro line member
      rcases List.mem_cons.mp member with rfl | found
      · exact unbroken line List.mem_cons_self
      · exact behind line found

theorem separated_unbroken (unbroken : ∀ value ∈ values, Lines.Unbroken value) :
    (separated values).Unbroken := by
  fun_induction separated values with
  | case1 =>
      intro line member
      cases member
  | case2 last => exact unbroken last List.mem_cons_self
  | case3 first rest _ ih =>
      have behind := ih fun value member => unbroken value (List.mem_cons_of_mem first member)
      intro line member
      rcases List.mem_append.mp member with front | back
      · exact withComma_unbroken (unbroken first List.mem_cons_self) line front
      · exact behind line back

/-- Brackets of any kind and the indentation add no line feed. -/
theorem bracketed_unbroken {opening closing : String} (openingPlain : '\n' ∉ opening.toList)
    (closingPlain : '\n' ∉ closing.toList) (unbroken : ∀ value ∈ values, Lines.Unbroken value) :
    Lines.Unbroken (opening :: (separated values).map indent ++ [closing]) := by
  intro line member
  simp only [List.cons_append, List.mem_cons, List.mem_append, List.mem_map, List.not_mem_nil,
    or_false] at member
  rcases member with rfl | ⟨inner, found, rfl⟩ | rfl
  · exact openingPlain
  · have plain := separated_unbroken unbroken inner found
    simp [indent, plain]
  · exact closingPlain

theorem record_unbroken (unbroken : ∀ value ∈ values, Lines.Unbroken value) :
    (record values).Unbroken :=
  bracketed_unbroken (by decide) (by decide) unbroken

theorem list_unbroken (unbroken : ∀ value ∈ values, Lines.Unbroken value) :
    (list values).Unbroken := by
  by_cases filled : values = []
  · subst filled
    intro line member
    rw [List.mem_singleton.mp member]
    decide
  · rw [list_of_ne_nil filled]
    exact bracketed_unbroken (by decide) (by decide) unbroken

end

end Json

end CoinSpend
