/-
This file states what is left of a text when the blanks around it are removed.
-/

import CoinSpend.Text

namespace CoinSpend.Text

/-- The core of a text stands between blanks and has none at its own ends. -/
structure Core (text core : List Char) : Prop where
  parts : ∃ front back, text = front ++ core ++ back ∧
    (∀ character ∈ front, isBlank character = true) ∧
    (∀ character ∈ back, isBlank character = true)
  first : ∀ character, core.head? = some character → isBlank character = false
  last : ∀ character, core.getLast? = some character → isBlank character = false

theorem blank_of_mem_takeWhile {text : List Char} {character : Char}
    (member : character ∈ text.takeWhile isBlank) : isBlank character = true := by
  have all := List.all_takeWhile (p := isBlank) (l := text)
  exact List.all_eq_true.mp all character member

theorem head?_dropWhile_isBlank {text : List Char} {character : Char}
    (found : (text.dropWhile isBlank).head? = some character) : isBlank character = false := by
  have stopped := List.head?_dropWhile_not isBlank text
  rwa [found] at stopped

theorem dropWhile_isBlank_eq_self {text : List Char}
    (first : ∀ character, text.head? = some character → isBlank character = false) :
    text.dropWhile isBlank = text := by
  cases text with
  | nil => rfl
  | cons character rest =>
      rw [List.dropWhile_cons_of_neg]
      simp [first character rfl]

/-- Behind the blanks in front stand the trimmed text and the blanks at its end. -/
theorem dropWhile_eq_trim_append (text : List Char) :
    text.dropWhile isBlank =
      trim text ++ ((text.dropWhile isBlank).reverse.takeWhile isBlank).reverse := by
  rw [trim, ← List.reverse_append, List.takeWhile_append_dropWhile, List.reverse_reverse]

theorem trim_core (text : List Char) : Core text (trim text) where
  parts := by
    refine ⟨text.takeWhile isBlank,
      ((text.dropWhile isBlank).reverse.takeWhile isBlank).reverse, ?_,
      fun _ => blank_of_mem_takeWhile, ?_⟩
    · rw [List.append_assoc, ← dropWhile_eq_trim_append, List.takeWhile_append_dropWhile]
    · intro character member
      exact blank_of_mem_takeWhile (List.mem_reverse.mp member)
  first := by
    intro character found
    have started : (text.dropWhile isBlank).head? = some character := by
      rw [dropWhile_eq_trim_append, List.head?_append, found]
      rfl
    exact head?_dropWhile_isBlank started
  last := by
    intro character found
    rw [trim, List.getLast?_reverse] at found
    exact head?_dropWhile_isBlank found

/-- A text has only one core. -/
theorem Core.trim_eq {text core : List Char} (isCore : Core text core) : trim text = core := by
  obtain ⟨⟨front, back, rfl, frontBlank, backBlank⟩, first, last⟩ := isCore
  rw [trim, List.append_assoc, List.dropWhile_append_of_pos frontBlank]
  cases core with
  | nil =>
      have nothing : (back ++ []).dropWhile isBlank = [].dropWhile isBlank :=
        List.dropWhile_append_of_pos backBlank
      rw [List.append_nil] at nothing
      rw [List.nil_append, nothing]
      rfl
  | cons character rest =>
      have started : ∀ other, (character :: rest ++ back).head? = some other →
          isBlank other = false := first
      have ended : ∀ other, (character :: rest).reverse.head? = some other →
          isBlank other = false := by
        simpa only [List.head?_reverse] using last
      have reversed : ∀ other ∈ back.reverse, isBlank other = true :=
        fun other member => backBlank other (List.mem_reverse.mp member)
      rw [dropWhile_isBlank_eq_self started, List.reverse_append,
        List.dropWhile_append_of_pos reversed, dropWhile_isBlank_eq_self ended,
        List.reverse_reverse]

end CoinSpend.Text
