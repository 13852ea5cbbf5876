/-
This file states what the value of a limits document gives to the names, and which values give
nothing at all.
-/

import CoinSpend.Limits.Document
import CoinSpend.Proofs.Limits.Token

namespace CoinSpend.Limits

/-- Numbers and the words for truth values and for nothing are words; a member of an object has a
name between quotes and a value. -/
inductive Value where
  | word (characters : List Char)
  | quoted (raw : List Char)
  | list (elements : List Value)
  | object (members : List (List Char × Value))

mutual

/-- The elements and the members end with the closing mark; commas stand only between them. -/
def Value.lexemes : Value → List Lexeme
  | .word characters => [.word characters]
  | .quoted raw => [.quoted raw]
  | .list elements => .mark .openArray :: elementLexemes elements
  | .object members => .mark .openObject :: memberLexemes members

def elementLexemes : List Value → List Lexeme
  | [] => [.mark .closeArray]
  | [value] => value.lexemes ++ [.mark .closeArray]
  | value :: next :: rest => value.lexemes ++ .mark .comma :: elementLexemes (next :: rest)

def memberLexemes : List (List Char × Value) → List Lexeme
  | [] => [.mark .closeObject]
  | [(raw, value)] => .quoted raw :: .mark .colon :: (value.lexemes ++ [.mark .closeObject])
  | (raw, value) :: next :: rest =>
      .quoted raw :: .mark .colon :: (value.lexemes ++ .mark .comma :: memberLexemes (next :: rest))

end

/-- The value of a limit is a plain number. -/
inductive Value.IsPlain : (value : Value) → (number : Nat) → Prop where
  | word {characters : List Char} {number : Nat} (numeral : Numeral characters number) :
      IsPlain (.word characters) number

/-- A member sets a limit when its name is that of the limit, however it is written, and its value
is a plain number. -/
structure Sets (member : List Char × Value) (entry : Name × Nat) : Prop where
  named : Letters member.1 entry.1.characters
  plain : member.2.IsPlain entry.2

/-- An object gives each name at most one number, in any order; a list gives its numbers to the
names in their own order. -/
inductive Value.Gives : (value : Value) → (entries : List (Name × Nat)) → Prop where
  | object {members : List (List Char × Value)} {entries : List (Name × Nat)}
      (sets : List.Forall₂ Sets members entries) (once : (entries.map Prod.fst).Nodup) :
      Gives (.object members) entries
  | list {elements : List Value} {numbers : List Nat}
      (plain : List.Forall₂ Value.IsPlain elements numbers)
      (few : numbers.length ≤ Name.all.length) :
      Gives (.list elements) (Name.all.zip numbers)

/-- This function returns the limits with the given numbers; all others cap nothing. -/
def given (entries : List (Name × Nat)) : Limits :=
  let number (name : Name) := (entries.lookup name).getD maxDeclared
  ⟨number .maxInputs, number .maxOutputs, number .maxScriptBytes⟩

/-- A list gives its numbers to the names by their positions. -/
theorem given_zip (numbers : List Nat) :
    given (Name.all.zip numbers) = ⟨numbers.getD 0 maxDeclared, numbers.getD 1 maxDeclared,
      numbers.getD 2 maxDeclared⟩ := by
  match numbers with
  | [] | [_] | [_, _] | _ :: _ :: _ :: _ => rfl

/-- Two members must not name the same limit. -/
def Distinct (first second : List Char × Value) : Prop :=
  ∀ name : Name, Letters first.1 name.characters → ¬ Letters second.1 name.characters

/-- These are the faults of a document that is well formed otherwise. -/
inductive Value.Faulty : (value : Value) → Prop where
  | unknownName {members : List (List Char × Value)} {member : List Char × Value}
      (inside : member ∈ members) (unknown : ∀ name : Name, ¬ Letters member.1 name.characters) :
      Faulty (.object members)
  | repeatedName {members : List (List Char × Value)} (repeated : ¬ members.Pairwise Distinct) :
      Faulty (.object members)
  | memberValue {members : List (List Char × Value)} {member : List Char × Value}
      (inside : member ∈ members) (other : ∀ number, ¬ member.2.IsPlain number) :
      Faulty (.object members)
  | tooMany {elements : List Value} (many : Name.all.length < elements.length) :
      Faulty (.list elements)
  | elementValue {elements : List Value} {element : Value} (inside : element ∈ elements)
      (other : ∀ number, ¬ element.IsPlain number) : Faulty (.list elements)
  | word (characters : List Char) : Faulty (.word characters)
  | quoted (raw : List Char) : Faulty (.quoted raw)

theorem Value.isPlain_iff {value : Value} {number : Nat} :
    value.IsPlain number ↔ ∃ characters, value = .word characters ∧ characters ≠ [] ∧
      (∀ character ∈ characters, character.isDigit = true) ∧
      (characters.head? = some '0' → characters = ['0']) ∧
      number = Nat.ofDigitChars 10 characters 0 ∧ number ≤ maxDeclared := by
  simp only [← numeral_iff]
  apply Iff.intro
  · intro plain
    cases plain with
    | word numeral => exact ⟨_, rfl, numeral⟩
  · intro ⟨characters, same, numeral⟩
    subst same
    exact .word numeral

theorem Name.characters_inj {name other : Name} (same : name.characters = other.characters) :
    name = other := by
  cases name <;> cases other <;> first | rfl | cases same

theorem Sets.distinct_iff {first second : List Char × Value} {entry other : Name × Nat}
    (sets : Sets first entry) (sets' : Sets second other) :
    Distinct first second ↔ entry.1 ≠ other.1 := by
  apply Iff.intro
  · intro distinct same
    exact distinct entry.1 sets.named (same ▸ sets'.named)
  · intro different name former latter
    have entryName := Name.characters_inj (sets.named.unique former)
    have otherName := Name.characters_inj (sets'.named.unique latter)
    exact different (entryName.trans otherName.symm)

theorem pairwise_distinct_iff {members : List (List Char × Value)} {entries : List (Name × Nat)}
    (sets : List.Forall₂ Sets members entries) :
    members.Pairwise Distinct ↔ (entries.map Prod.fst).Nodup := by
  induction sets with
  | nil => simp
  | @cons member entry members entries first others ih =>
      have absent : (∀ other ∈ members, Distinct member other) ↔
          entry.1 ∉ entries.map Prod.fst := by
        clear ih
        induction others with
        | nil => simp
        | cons next others ih =>
            rw [List.forall_mem_cons, ih, first.distinct_iff next]
            simp [not_or]
      rw [List.pairwise_cons, List.map_cons, List.nodup_cons, ih, absent]

theorem exists_forall₂ {first second : Type} {related : first → second → Prop} {items : List first}
    (each : ∀ item ∈ items, ∃ image, related item image) :
    ∃ images, List.Forall₂ related items images := by
  induction items with
  | nil => exact ⟨[], .nil⟩
  | cons item items ih =>
      obtain ⟨image, here⟩ := each item List.mem_cons_self
      obtain ⟨images, others⟩ := ih fun item member => each item (List.mem_cons_of_mem _ member)
      exact ⟨image :: images, .cons here others⟩

theorem exists_of_forall₂ {first second : Type} {related : first → second → Prop}
    {items : List first} {images : List second} (all : List.Forall₂ related items images)
    {item : first} (inside : item ∈ items) : ∃ image, related item image := by
  induction all with
  | nil => cases inside
  | cons here others ih =>
      rcases List.mem_cons.mp inside with rfl | inside
      · exact ⟨_, here⟩
      · exact ih inside

theorem Value.Gives.nodup {value : Value} {entries : List (Name × Nat)}
    (gives : value.Gives entries) : (entries.map Prod.fst).Nodup := by
  cases gives with
  | object sets once => exact once
  | @list elements numbers plain few =>
      have names : Name.all.length = 3 := rfl
      match numbers with
      | [] | [_] | [_, _] | [_, _, _] => simp [Name.all]
      | _ :: _ :: _ :: _ :: _ =>
          simp only [List.length_cons] at few
          omega

/-- A faulty value gives nothing. -/
theorem Value.Faulty.not_gives {value : Value} (faulty : value.Faulty)
    {entries : List (Name × Nat)} : ¬ value.Gives entries := by
  intro gives
  cases faulty with
  | unknownName inside unknown =>
      cases gives with
      | object sets once =>
          obtain ⟨entry, sets⟩ := exists_of_forall₂ sets inside
          exact unknown entry.1 sets.named
  | repeatedName repeated =>
      cases gives with
      | object sets once => exact repeated ((pairwise_distinct_iff sets).mpr once)
  | memberValue inside other =>
      cases gives with
      | object sets once =>
          obtain ⟨entry, sets⟩ := exists_of_forall₂ sets inside
          exact other entry.2 sets.plain
  | tooMany many =>
      cases gives with
      | list plain few =>
          have same := plain.length_eq
          omega
  | elementValue inside other =>
      cases gives with
      | list plain few =>
          obtain ⟨number, plain⟩ := exists_of_forall₂ plain inside
          exact other number plain
  | word => cases gives
  | quoted => cases gives

/-- Every other value gives something. -/
theorem Value.gives_or_faulty (value : Value) :
    (∃ entries, value.Gives entries) ∨ value.Faulty := by
  by_contra neither
  rw [not_or, not_exists] at neither
  obtain ⟨gives, faulty⟩ := neither
  cases value with
  | word characters => exact faulty (.word characters)
  | quoted raw => exact faulty (.quoted raw)
  | list elements =>
      have plain : ∀ element ∈ elements, ∃ number, element.IsPlain number := by
        intro element inside
        by_contra other
        exact faulty (.elementValue inside (not_exists.mp other))
      obtain ⟨numbers, plain⟩ := exists_forall₂ plain
      have few : numbers.length ≤ Name.all.length := by
        by_contra many
        exact faulty (.tooMany (by rw [plain.length_eq]; omega))
      exact gives _ (.list plain few)
  | object members =>
      have sets : ∀ member ∈ members, ∃ entry, Sets member entry := by
        intro member inside
        by_contra none
        by_cases known : ∃ name : Name, Letters member.1 name.characters
        · obtain ⟨name, named⟩ := known
          exact faulty (.memberValue inside fun number plain => none ⟨(name, number), named, plain⟩)
        · exact faulty (.unknownName inside (not_exists.mp known))
      obtain ⟨entries, sets⟩ := exists_forall₂ sets
      by_cases distinct : members.Pairwise Distinct
      · exact gives _ (.object sets ((pairwise_distinct_iff sets).mp distinct))
      · exact faulty (.repeatedName distinct)

end CoinSpend.Limits
